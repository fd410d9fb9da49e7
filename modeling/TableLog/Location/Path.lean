import TableLog.Location.Percent
import TableLog.Location.Split

namespace TableLog.Location

def isSlash (special : Bool) (c : Char) : Bool := c = '/' || (special && c = '\\')

/-- Line breaks and tabs do not count. -/
def isBreak (c : Char) : Bool := c = '\t' || c = '\n' || c = '\r'

def withoutBreaks (cs : List Char) : List Char := cs.filter (!isBreak ·)

def splitNames (special : Bool) (cs : List Char) : List (List Char) :=
  Split.every '/' (cs.map fun c ↦ if isSlash special c then '/' else c)

def isDot (s : List Char) : Bool := [".", "%2e"].contains (String.ofList (s.map Char.toLower))

def isDoubleDot (s : List Char) : Bool :=
  ["..", ".%2e", "%2e.", "%2e%2e"].contains (String.ofList (s.map Char.toLower))

def isDrive : List Char → Bool
  | [c, d] => c.isAlpha && (d = ':' || d = '|')
  | _ => false

def startsDrive (s : List Char) : Bool := isDrive (s.take 2) && (s.drop 2).head?.all (· = '\\')

/-- A path that is read. -/
structure Walk where
  /-- The names in reverse. -/
  names : List String := []
  /-- Whether the path begins with a drive that takes the place of a host. -/
  drive : Bool := false

namespace Walk

def up (w : Walk) : Walk :=
  if w.names.head?.any (startsDrive ·.toList) then w else { w with names := w.names.tail }

/-- Stays where it is; at the end of a path this leaves an empty name. -/
def stay (w : Walk) (last : Bool) : Walk := if last then { w with names := "" :: w.names } else w

def down (w : Walk) (name : List Char) : Walk :=
  { w with names := String.ofList (Percent.encode Percent.path name) :: w.names }

def brokenDrive? (name : List Char) : Option (Char × List Char) :=
  match name.dropWhile isBreak with
  | c :: r =>
    match r.dropWhile isBreak with
    | ':' :: b :: r =>
      if c.isAlpha && isBreak b && withoutBreaks r ≠ [] then some (c, withoutBreaks r) else none
    | _ => none
  | [] => none

/-- The first name of the path of a file. A break behind a drive separates. -/
def start (w : Walk) (name : List Char) : Walk :=
  let plain := withoutBreaks name
  if isDrive plain then { names := [String.ofList (plain.take 1) ++ ":"], drive := true }
  else
    match brokenDrive? name with
    | some (c, r) => ({ w with names := [String.ofList [c, ':']] } : Walk).down r
    | none => w.down plain

def step (file last : Bool) (w : Walk) (name : List Char) : Walk :=
  let plain := withoutBreaks name
  if isDoubleDot plain then w.up.stay last
  else if isDot plain then w.stay last
  else if file && w.names = [] then w.start name
  else w.down plain

def follow (file : Bool) (w : Walk) : List (List Char) → Walk
  | [] => w
  | [name] => w.step file true name
  | name :: r => (w.step file false name).follow file r

end Walk

def withoutEmptyFront : List String → List String
  | "" :: n :: r => withoutEmptyFront (n :: r)
  | ns => ns

def followNames (file : Bool) (names : List (List Char)) : List String :=
  let reached := ({} : Walk).follow file names
  let ns := reached.names.reverse
  if file then withoutEmptyFront ns else ns

def beginsWithDrive (names : List (List Char)) : Bool := (({} : Walk).follow true names).drive

end TableLog.Location
