import TableLog.Json.Numeral
import TableLog.Json.Text
import TableLog.Location
import TableLog.Word

namespace TableLog

inductive LogEntry
  | commit (version : Version)
  | malformed
  | other
  deriving DecidableEq, Repr

namespace LogEntry

def digits : Nat := 20

def suffix : Bytes := utf8 ".json"

def stem (v : Version) : Bytes :=
  let ds := decimal v.toNat
  List.replicate (digits - ds.length) 0x30 ++ ds

def name (v : Version) : Bytes := stem v ++ suffix

def isDot (b : UInt8) : Bool := b == 0x2E

def ofName (n : Bytes) : LogEntry :=
  let s := n.takeWhile (!isDot ·)
  if n.drop s.length = suffix && s.all isDigit then
    let v := natOfDigits s
    if s.length = digits ∧ v < 0x10000000000000000 then .commit (UInt64.ofNat v) else .malformed
  else .other

def nameText (v : Version) : String := (ofUtf8? (name v)).getD ""

end LogEntry

end TableLog
