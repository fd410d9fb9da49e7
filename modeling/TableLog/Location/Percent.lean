import TableLog.Json.Tree

namespace TableLog.Percent

def hexLetter (d : UInt8) : Char := "0123456789ABCDEF".toList.getD d.toNat '0'

def encodeByte (b : UInt8) : List Char := ['%', hexLetter (b / 16), hexLetter (b % 16)]

def isPlain (b : UInt8) : Bool := 0x20 ≤ b && b ≤ 0x7E

def encodeBytes (set : String) (bs : Bytes) : List Char :=
  bs.flatMap fun b ↦
    if isPlain b && !set.toList.contains (Char.ofNat b.toNat) then [Char.ofNat b.toNat]
    else encodeByte b

def encode (set : String) (cs : List Char) : List Char :=
  encodeBytes set (cs.flatMap String.utf8EncodeChar)

def controls : String := ""

def fragment : String := " \"<>\x60"

def query : String := " \"#<>"

def specialQuery : String := " \"#<>\x27"

def path : String := fragment ++ "#?\x7b\x7d"

def userInfo : String := path ++ "/:;=@[\\]^|"

/-- A name on disk as one segment of a path. -/
def segment : String := path ++ "/%\\"

def hexValue? (c : Char) : Option UInt8 :=
  let n := c.toNat
  if 0x30 ≤ n && n ≤ 0x39 then some (UInt8.ofNat (n - 0x30))
  else if 0x41 ≤ n && n ≤ 0x46 then some (UInt8.ofNat (n - 0x37))
  else if 0x61 ≤ n && n ≤ 0x66 then some (UInt8.ofNat (n - 0x57))
  else none

/-- The bytes that a part stands for, the first `skip` characters being read already. A percent sign
without two digits stands for itself. -/
def decodeAfter : Nat → List Char → Bytes
  | _, [] => []
  | skip + 1, _ :: r => decodeAfter skip r
  | 0, c :: r =>
    match c, r with
    | '%', a :: b :: _ =>
      match hexValue? a, hexValue? b with
      | some x, some y => (x * 16 + y) :: decodeAfter 2 r
      | _, _ => 0x25 :: decodeAfter 0 r
    | _, _ => String.utf8EncodeChar c ++ decodeAfter 0 r

def decode (cs : List Char) : Bytes := decodeAfter 0 cs

end TableLog.Percent
