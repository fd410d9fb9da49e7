namespace TableLog

abbrev Bytes := List UInt8

/-- One unit of a string literal: a byte, or the code unit of a `\u` escape. -/
inductive Piece
  | byte (b : UInt8)
  | codeUnit (u : Nat)
  deriving DecidableEq, Repr

/-- A JSON text as a tree. Literals stay as they were spelled, so a value that nobody asks
for is only checked against the grammar. -/
inductive Json
  | null
  | bool (b : Bool)
  | number (literal : Bytes)
  | string (pieces : List Piece)
  | array (items : List Json)
  | object (members : List (List Piece × Json))
  deriving Inhabited, Repr

end TableLog
