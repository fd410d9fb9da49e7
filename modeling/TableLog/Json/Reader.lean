import TableLog.Json.Numeral
import TableLog.Json.Text

namespace TableLog

namespace Json

def isSpace (b : UInt8) : Bool := b = 0x20 || b = 0x09 || b = 0x0A || b = 0x0D

def skipSpace (bs : Bytes) : Bytes := bs.dropWhile isSpace

def hexDigit? (b : UInt8) : Option Nat :=
  if isDigit b then some (b.toNat - 0x30)
  else if 0x41 ≤ b && b ≤ 0x46 then some (b.toNat - 0x37)
  else if 0x61 ≤ b && b ≤ 0x66 then some (b.toNat - 0x57)
  else none

def hex4? (a b c d : UInt8) : Option Nat := do
  let a ← hexDigit? a
  let b ← hexDigit? b
  let c ← hexDigit? c
  let d ← hexDigit? d
  pure (((a * 16 + b) * 16 + c) * 16 + d)

def push (p : Piece) : Option (List Piece × Bytes) → Option (List Piece × Bytes) :=
  Option.map fun r ↦ (p :: r.1, r.2)

def readString : Bytes → Option (List Piece × Bytes)
  | [] => none
  | b :: r =>
    if b = 0x22 then some ([], r)
    else if b = 0x5C then
      match r with
      | [] => none
      | l :: r =>
        if l = 0x75 then
          match r with
          | h₁ :: h₂ :: h₃ :: h₄ :: r =>
            (hex4? h₁ h₂ h₃ h₄).bind fun u ↦ push (.codeUnit u) (readString r)
          | _ => none
        else (Piece.escaped? l).bind fun c ↦ push (.byte c) (readString r)
    else if b < 0x20 then none
    else push (.byte b) (readString r)

def takeDigits (bs : Bytes) : Bytes × Bytes := (bs.takeWhile isDigit, bs.dropWhile isDigit)

def readWhole : Bytes → Option (Bytes × Bytes)
  | [] => none
  | b :: r =>
    if b = 0x30 then some ([b], r) else if isDigit b then some (takeDigits (b :: r)) else none

def readDigits (bs : Bytes) : Option (Bytes × Bytes) :=
  if (takeDigits bs).1 = [] then none else some (takeDigits bs)

def readFraction : Bytes → Option (Bytes × Bytes)
  | [] => some ([], [])
  | b :: r => if b = 0x2E then (readDigits r).map fun d ↦ (b :: d.1, d.2) else some ([], b :: r)

def readExponent : Bytes → Option (Bytes × Bytes)
  | [] => some ([], [])
  | b :: r =>
    if b = 0x65 || b = 0x45 then
      match r with
      | [] => none
      | s :: t =>
        if s = 0x2B || s = 0x2D then (readDigits t).map fun d ↦ (b :: s :: d.1, d.2)
        else (readDigits r).map fun d ↦ (b :: d.1, d.2)
    else some ([], b :: r)

def readUnsigned (bs : Bytes) : Option (Bytes × Bytes) := do
  let w ← readWhole bs
  let f ← readFraction w.2
  let e ← readExponent f.2
  pure (w.1 ++ f.1 ++ e.1, e.2)

def readNumber : Bytes → Option (Bytes × Bytes)
  | [] => none
  | b :: r =>
    if b = 0x2D then (readUnsigned r).map fun u ↦ (b :: u.1, u.2) else readUnsigned (b :: r)

def readWord (word : Bytes) (v : Json) (bs : Bytes) : Option (Json × Bytes) :=
  if word.isPrefixOf bs then some (v, bs.drop word.length) else none

def readAtom (bs : Bytes) : Option (Json × Bytes) :=
  match bs with
  | [] => none
  | b :: r =>
    if b = 0x22 then (readString r).map fun s ↦ (.string s.1, s.2)
    else if b = 0x74 then readWord [0x72, 0x75, 0x65] (.bool true) r
    else if b = 0x66 then readWord [0x61, 0x6C, 0x73, 0x65] (.bool false) r
    else if b = 0x6E then readWord [0x75, 0x6C, 0x6C] .null r
    else (readNumber bs).map fun n ↦ (.number n.1, n.2)

def readKey (bs : Bytes) : Option (List Piece × Bytes) :=
  match skipSpace bs with
  | [] => none
  | b :: r =>
    if b = 0x22 then
      (readString r).bind fun k ↦
        match skipSpace k.2 with
        | [] => none
        | c :: r => if c = 0x3A then some (k.1, r) else none
    else none

mutual

/-- A value off the front of the bytes, in at most this many steps. -/
def readValue : Nat → Bytes → Option (Json × Bytes)
  | 0, _ => none
  | n + 1, bs =>
    match skipSpace bs with
    | [] => none
    | b :: r =>
      if b = 0x5B then
        match skipSpace r with
        | [] => none
        | c :: t =>
          if c = 0x5D then some (.array [], t) else (readItems n r).map fun i ↦ (.array i.1, i.2)
      else if b = 0x7B then
        match skipSpace r with
        | [] => none
        | c :: t => if c = 0x7D then some (.object [], t) else (readMembers n r).map fun m ↦
            (.object m.1, m.2)
      else readAtom (b :: r)

def readItems : Nat → Bytes → Option (List Json × Bytes)
  | 0, _ => none
  | n + 1, bs =>
    (readValue n bs).bind fun v ↦
      match skipSpace v.2 with
      | [] => none
      | c :: r =>
        if c = 0x2C then (readItems n r).map fun i ↦ (v.1 :: i.1, i.2)
        else if c = 0x5D then some ([v.1], r)
        else none

def readMembers : Nat → Bytes → Option (List (List Piece × Json) × Bytes)
  | 0, _ => none
  | n + 1, bs =>
    (readKey bs).bind fun k ↦
      (readValue n k.2).bind fun v ↦
        match skipSpace v.2 with
        | [] => none
        | c :: r =>
          if c = 0x2C then (readMembers n r).map fun m ↦ ((k.1, v.1) :: m.1, m.2)
          else if c = 0x7D then some ([(k.1, v.1)], r)
          else none

end

/-- Enough steps to read any value of this many bytes. -/
def steps (bs : Bytes) : Nat := 2 * bs.length + 2

def readFront? (bs : Bytes) : Option (Json × Bytes) := readValue (steps bs) bs

def parse? (bs : Bytes) : Option Json :=
  (readFront? bs).bind fun v ↦ if skipSpace v.2 = [] then some v.1 else none

end Json

end TableLog
