import TableLog.Location.Split
import TableLog.Unicode.Joining
import TableLog.Unicode.Mapping
import TableLog.Unicode.Punycode

namespace TableLog.DomainName

open Unicode

structure Label where
  ascii : List Char
  chars : List Char

namespace Label

def marker : List Char := ['x', 'n', '-', '-']

def longest : Nat := 1000

def longestCode : Nat := 2000

def isProper (cs : List Char) : Bool := cs.head?.all (!isCombining ·) && joinersFit [] cs

def isWritten (cs : List Char) : Bool :=
  !cs.all Punycode.isBasic && cs.all isStable && normalize cs = cs && isProper cs

def ofCode? (code : List Char) : Option (List Char) :=
  if code.all Punycode.isBasic && code.length ≤ longestCode then
    (Punycode.decode? code).filter isWritten
  else none

def ofChars? (cs : List Char) : Option Label :=
  if marker.isPrefixOf cs then
    (ofCode? (cs.drop marker.length)).map fun chars ↦ { ascii := cs, chars }
  else if cs.all Punycode.isBasic then some { ascii := cs, chars := cs }
  else if isProper cs && cs.length ≤ longest then
    some { ascii := marker ++ Punycode.encode cs, chars := cs }
  else none

def runsRight (l : Label) : Bool := l.chars.any fun c ↦ (direction c).runsRight

end Label

/-- The labels of a name. If one of them runs from right to left, all must keep their order. -/
def labels? (cs : List Char) : Option (List Label) := do
  let mapped ← cs.mapM mapped?
  let labels ← (Split.every '.' (normalize mapped.flatten)).mapM Label.ofChars?
  if labels.any Label.runsRight && !labels.all (keepsOrder ·.chars) then none else some labels

def toAscii? (cs : List Char) : Option (List Char) :=
  (labels? cs).map fun labels ↦ ['.'].intercalate (labels.map Label.ascii)

end TableLog.DomainName
