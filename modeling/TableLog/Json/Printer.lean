import TableLog.Json.Numeral
import TableLog.Json.Text

namespace TableLog

def hexLetter (d : Nat) : UInt8 := if d < 10 then 0x30 + UInt8.ofNat d else 0x57 + UInt8.ofNat d

namespace Piece

def render : Piece → Bytes
  | .byte b =>
    match letter? b with
    | some l => [0x5C, l]
    | none => [b]
  | .codeUnit u =>
    [0x5C, 0x75, hexLetter (u / 4096 % 16), hexLetter (u / 256 % 16), hexLetter (u / 16 % 16),
      hexLetter (u % 16)]

end Piece

namespace Json

def renderString (ps : List Piece) : Bytes := 0x22 :: ps.flatMap Piece.render ++ [0x22]

mutual

def render : Json → Bytes
  | .null => [0x6E, 0x75, 0x6C, 0x6C]
  | .bool true => [0x74, 0x72, 0x75, 0x65]
  | .bool false => [0x66, 0x61, 0x6C, 0x73, 0x65]
  | .number l => l
  | .string ps => renderString ps
  | .array is => 0x5B :: renderItems is ++ [0x5D]
  | .object ms => 0x7B :: renderMembers ms ++ [0x7D]

def renderItems : List Json → Bytes
  | [] => []
  | [v] => v.render
  | v :: w :: r => v.render ++ 0x2C :: renderItems (w :: r)

def renderMembers : List (List Piece × Json) → Bytes
  | [] => []
  | [(k, v)] => renderString k ++ 0x3A :: v.render
  | (k, v) :: m :: r => renderString k ++ 0x3A :: (v.render ++ 0x2C :: renderMembers (m :: r))

end

def ofText (s : String) : Json := .string (Piece.ofText s)

def ofInt (n : Int) : Json := .number (numeral n)

end Json

end TableLog
