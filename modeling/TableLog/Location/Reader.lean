import TableLog.Location
import TableLog.Location.Host

namespace TableLog.Location

open Percent

def isSchemeChar (c : Char) : Bool := c.isAlphanum || c = '+' || c = '-' || c = '.'

/-- Schemes with a host of their own kind, and the ports they imply. -/
def specialPorts : List (String × Option Nat) :=
  [("http", some 80), ("https", some 443), ("ws", some 80), ("wss", some 443), ("ftp", some 21),
    ("file", none)]

def isSpecial (scheme : String) : Bool := (specialPorts.lookup scheme).isSome

def readPath (special : Bool) (cs : List Char) : LocationPath :=
  .segments (followNames false (splitNames special cs))

/-- The path behind an authority. Only well-known schemes always have one. -/
def readPathAfter (special : Bool) (cs : List Char) : LocationPath :=
  match cs with
  | [] => if special then .segments [""] else .segments []
  | c :: r => readPath special (if isSlash special c then r else c :: r)

def hierarchyPart (cs : List Char) : List Char := cs.takeWhile fun c ↦ c ≠ '?' && c ≠ '#'

/-- A port, without the one that the scheme implies, and what is behind its digits. -/
def readPort? (implied : Option Nat) (cs : List Char) : Option (Option Nat × List Char) :=
  let digits := cs.takeWhile Char.isDigit
  let rest := cs.drop digits.length
  let n := (Host.numberIn? 10 digits).getD 0
  if rest.head?.all (· = '\\') && n < 65536 then
    some (if digits = [] || some n = implied then none else some n, rest)
  else none

def readUser (cs : List Char) : String × String :=
  let name := cs.takeWhile (· ≠ ':')
  (String.ofList (encode userInfo name),
    String.ofList (encode userInfo (cs.drop (name.length + 1))))

/-- The host and what is behind the first colon that is not within brackets. -/
def splitHost (within : Bool) : List Char → List Char × Option (List Char)
  | [] => ([], none)
  | c :: r =>
    if c = ':' && !within then ([], some r)
    else
      let (host, port?) := splitHost (if c = '[' then true else if c = ']' then false else within) r
      (c :: host, port?)

/-- An authority and what is behind it. A host may be missing only where nothing asks for one. -/
def readAuthority? (scheme : String) (cs : List Char) : Option (Authority × List Char) := do
  let special := isSpecial scheme
  let front := (hierarchyPart cs).takeWhile (!isSlash special ·)
  let behind := cs.drop front.length
  let (user?, hostPort) := Split.last '@' front
  let (user, password) := readUser (user?.getD [])
  let (hostText, port?) := splitHost false hostPort
  let host ← if special then Host.domain? hostText else Host.plain? hostText
  let (port, rest) ← readPort? ((specialPorts.lookup scheme).getD none) (port?.getD [])
  let named := user ≠ "" || password ≠ "" || port?.isSome || (user? = some [] && behind ≠ [])
  if host = "" && named then none else pure ({ user, password, host, port }, rest ++ behind)

def slash? (cs : List Char) : Option (List Char) :=
  match cs.dropWhile isBreak with
  | c :: r => if isSlash true c then some r else none
  | [] => none

def fileNames (cs : List Char) : List (List Char) := splitNames true (hierarchyPart cs)

/-- The host and the names of the location of a file. This machine needs no
name, and a drive is on this machine. -/
def readFile? (cs : List Char) : Option (String × List String) :=
  let here (cs : List Char) := some ("", followNames true (fileNames cs))
  match slash? cs with
  | none => here cs
  | some r =>
    match slash? r with
    | none => here r
    | some r =>
      let name := (hierarchyPart r).takeWhile (!isSlash true ·)
      let rest := r.drop name.length
      let plain := withoutBreaks name
      if isDrive plain then here r
      else do
        let host ← if plain = [] then some "" else Host.domain? plain
        if host = "" || host = "localhost" then here rest
        else
          let names := fileNames ((slash? rest).getD [])
          pure (if beginsWithDrive names then "" else host, followNames true names)

def readHierarchy? (scheme : String) (cs : List Char) : Option (Option Authority × LocationPath) :=
  if isSpecial scheme then
    (readAuthority? scheme (cs.dropWhile (isSlash true))).map fun a ↦
      (some a.1, readPathAfter true (hierarchyPart a.2))
  else
    match cs with
    | '/' :: '/' :: r =>
      (readAuthority? scheme r).map fun a ↦ (some a.1, readPathAfter false (hierarchyPart a.2))
    | '/' :: r => some (none, readPath false (hierarchyPart r))
    | _ => some (none, .opaquePath (String.ofList (encode controls (hierarchyPart cs))))

def trim (cs : List Char) : List Char :=
  ((cs.dropWhile (·.toNat ≤ 0x20)).reverse.dropWhile (·.toNat ≤ 0x20)).reverse

def ofParts (scheme : String) (hierarchy : Option Authority × LocationPath)
    (rest : List Char) : Location :=
  let main := rest.takeWhile (· ≠ '#')
  let querySet := if isSpecial scheme then specialQuery else Percent.query
  { scheme, authority := hierarchy.1, path := hierarchy.2
    query := (Split.after? '?' main).map fun q ↦ String.ofList (encode querySet q)
    fragment := (Split.after? '#' rest).map fun f ↦ String.ofList (encode Percent.fragment f) }

def ofText? (text : String) : Option Location := do
  let cs := trim text.toList
  let rest ← Split.after? ':' cs
  let name := withoutBreaks (cs.takeWhile (· ≠ ':'))
  if name.head?.any Char.isAlpha && name.all isSchemeChar then
    let scheme := String.ofList (name.map Char.toLower)
    let plain := withoutBreaks rest
    let hierarchy ←
      if scheme = "file" then
        (readFile? rest).map fun f ↦ (some { host := f.1 }, .segments f.2)
      else readHierarchy? scheme plain
    pure (ofParts scheme hierarchy plain)
  else none

end TableLog.Location
