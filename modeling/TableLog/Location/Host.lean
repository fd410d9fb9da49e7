import TableLog.Json.Text
import TableLog.Location.DomainName
import TableLog.Location.Percent

namespace TableLog.Host

def isForbidden (c : Char) : Bool :=
  c.toNat = 0 || "\t\n\r #/:<>?@[\\]^|".toList.contains c

def isForbiddenInDomain (c : Char) : Bool :=
  isForbidden c || c = '%' || c.toNat < 0x20 || c.toNat = 0x7F

def digitIn? (base : Nat) (c : Char) : Option Nat :=
  (Percent.hexValue? c).bind fun d ↦ if d.toNat < base then some d.toNat else none

def numberIn? (base : Nat) (cs : List Char) : Option Nat :=
  cs.foldl (fun n c ↦ n.bind fun n ↦ (digitIn? base c).map (base * n + ·)) (some 0)

/-- A part of an IPv4 address: decimal, octal after a zero, hexadecimal after `0x`. -/
def ipv4Part? : List Char → Option Nat
  | [] => none
  | ['0'] => some 0
  | '0' :: 'x' :: r => numberIn? 16 r
  | '0' :: 'X' :: r => numberIn? 16 r
  | '0' :: r => numberIn? 8 r
  | r => numberIn? 10 r

def withoutFinalEmpty (parts : List (List Char)) : List (List Char) :=
  match parts.reverse with
  | [] :: p :: r => (p :: r).reverse
  | _ => parts

/-- A domain whose last part is a number has to be an address. -/
def endsInNumber (parts : List (List Char)) : Bool :=
  match (withoutFinalEmpty parts).getLast? with
  | none => false
  | some p =>
    (p ≠ [] && p.all Char.isDigit) ||
      ((p.take 2 = ['0', 'x'] || p.take 2 = ['0', 'X']) && (ipv4Part? p).isSome)

def ipv4? (parts : List (List Char)) : Option Nat := do
  let parts := withoutFinalEmpty parts
  if parts.length > 4 then none
  else
    let ns ← parts.mapM ipv4Part?
    let last ← ns.getLast?
    let init := ns.dropLast
    if init.all (· < 256) && last < 1 <<< (8 * (5 - ns.length)) then
      some (init.zipIdx.foldl (fun n p ↦ n + p.1 <<< (8 * (3 - p.2))) last)
    else none

def ipv4Text (n : Nat) : String :=
  ".".intercalate ([24, 16, 8, 0].map fun k ↦ toString (n >>> k % 256))

/-- The groups of one side of an IPv6 address. At the end of the
address, the last may be a dotted quad. -/
def ipv6Groups? (atEnd : Bool) (cs : List Char) : Option (List Nat) :=
  if cs = [] then some []
  else
    let groups := Split.every ':' cs
    let hex (g : List Char) : Option (List Nat) :=
      if g = [] || g.length > 4 then none else (numberIn? 16 g).map ([·])
    let quad (g : List Char) : Option (List Nat) := do
      let parts := Split.every '.' g
      let plain := parts.all fun p ↦
        p ≠ [] && p.all Char.isDigit && (p.length = 1 || p.head? ≠ some '0')
      let ns ← parts.mapM (numberIn? 10)
      if plain && ns.length = 4 && ns.all (· < 256) then
        some [ns.getD 0 0 * 256 + ns.getD 1 0, ns.getD 2 0 * 256 + ns.getD 3 0]
      else none
    groups.zipIdx.foldl (fun acc p ↦ acc.bind fun acc ↦
      (if atEnd && p.2 + 1 = groups.length && p.1.contains '.' then quad p.1 else hex p.1).map
        (acc ++ ·)) (some [])

def splitAtGap : List Char → List Char → Option (List Char × List Char)
  | _, [] => none
  | acc, ':' :: ':' :: r => some (acc.reverse, r)
  | acc, c :: r => splitAtGap (c :: acc) r

def ipv6? (cs : List Char) : Option (List Nat) :=
  match splitAtGap [] cs with
  | none => (ipv6Groups? true cs).bind fun g ↦ if g.length = 8 then some g else none
  | some (l, r) => do
    let l ← ipv6Groups? false l
    let r ← ipv6Groups? true r
    if l.length + r.length ≤ 7 then some (l ++ List.replicate (8 - l.length - r.length) 0 ++ r)
    else none

def hexText (n : Nat) : String := String.ofList (Nat.toDigits 16 n)

def longestZeros (groups : List Nat) : Nat × Nat :=
  (List.range 8).foldl (fun best i ↦
    let n := ((groups.drop i).takeWhile (· = 0)).length
    if n > best.2 && n > 1 then (i, n) else best) (0, 0)

def ipv6Text (groups : List Nat) : String :=
  let (i, n) := longestZeros groups
  let join (gs : List Nat) := ":".intercalate (gs.map hexText)
  if n = 0 then join groups else join (groups.take i) ++ "::" ++ join (groups.drop (i + n))

def bracketed? (cs : List Char) : Option String :=
  match cs, cs.getLast? with
  | '[' :: r, some ']' => (ipv6? r.dropLast).map fun g ↦ "[" ++ ipv6Text g ++ "]"
  | _, _ => none

def domain? (cs : List Char) : Option String :=
  if cs.head? = some '[' then bracketed? cs
  else do
    let text ← ofUtf8? (Percent.decode cs)
    let name ← DomainName.toAscii? text.toList
    if name = [] || name.any isForbiddenInDomain then none
    else if endsInNumber (Split.every '.' name) then (ipv4? (Split.every '.' name)).map ipv4Text
    else some (String.ofList name)

def plain? (cs : List Char) : Option String :=
  if cs.head? = some '[' then bracketed? cs
  else if cs.any isForbidden then none
  else some (String.ofList (Percent.encode Percent.controls cs))

end TableLog.Host
