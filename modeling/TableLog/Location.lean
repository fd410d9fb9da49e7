import TableLog.Location.Path

namespace TableLog

structure Authority where
  user : String := ""
  password : String := ""
  host : String := ""
  port : Option Nat := none
  deriving DecidableEq, Repr

inductive LocationPath
  | opaquePath (text : String)
  | segments (names : List String)
  deriving DecidableEq, Repr

structure Location where
  scheme : String
  authority : Option Authority := none
  path : LocationPath
  query : Option String := none
  fragment : Option String := none
  deriving DecidableEq, Repr

/-- The names on the way from the root of the file system; an empty
name stands for the place it is at. -/
abbrev FilePath := List Bytes

def FilePath.ofBytes : Bytes → FilePath
  | [] => [[]]
  | b :: r =>
    if b = 0x2F then [] :: ofBytes r
    else
      match ofBytes r with
      | [] => [[b]]
      | n :: ns => (b :: n) :: ns

def FilePath.textLength : FilePath → Nat
  | [] => 0
  | n :: r => 1 + n.length + textLength r

namespace Authority

def userText (a : Authority) : String :=
  if a.user = "" && a.password = "" then ""
  else a.user ++ (if a.password = "" then "" else ":" ++ a.password) ++ "@"

def portText (a : Authority) : String :=
  match a.port with
  | none => ""
  | some n => ":" ++ toString n

def toText (a : Authority) : String := "//" ++ a.userText ++ a.host ++ a.portText

end Authority

namespace LocationPath

def toText : LocationPath → String
  | opaquePath t => t
  | segments ns => String.join (ns.map ("/" ++ ·))

end LocationPath

namespace Location

def partText (mark : String) : Option String → String
  | none => ""
  | some t => mark ++ t

def isFile (l : Location) : Bool := l.scheme = "file"

/-- Without an authority, a dot keeps an empty first name from being taken for one. -/
def authorityText (l : Location) : String :=
  match l.authority, l.path with
  | some a, _ => a.toText
  | none, .segments ("" :: _ :: _) => "/."
  | none, _ => ""

def toText (l : Location) : String :=
  l.scheme ++ ":" ++ l.authorityText ++ l.path.toText ++ partText "?" l.query ++
    partText "#" l.fragment

/-- The names on the way to the directory that a location names,
whether or not it ends in a slash. -/
def directoryNames (l : Location) (names : List String) : List String :=
  if names.getLast? = some "" then names.dropLast
  else (followNames l.isFile ((names ++ [""]).map String.toList)).dropLast

def inDirectory? (l : Location) (names : List String) : Option Location :=
  match l.path with
  | .opaquePath _ => none
  | .segments ns =>
    some { l with
      path := .segments (l.directoryNames ns ++ names), query := none, fragment := none }

def fileName? (l : Location) : Option String :=
  match l.path with
  | .opaquePath _ => none
  | .segments ns => ns.getLast?.filter (· ≠ "")

def isLocal (l : Location) : Bool :=
  match l.authority with
  | none => true
  | some a => a.host = "" || a.host = "localhost"

/-- The place in the local file system, if the location is local. -/
def filePath? (l : Location) : Option FilePath :=
  match l.path with
  | .segments ns =>
    if l.isLocal && ns ≠ [] then
      some (ns.flatMap fun n ↦ FilePath.ofBytes (Percent.decode n.toList)) else none
  | .opaquePath _ => none

def ofFilePath (p : FilePath) : Location :=
  let names := (p.filter fun n ↦ n ≠ [] && n ≠ [0x2E]).map fun n ↦
    String.ofList (Percent.encodeBytes Percent.segment n)
  { scheme := "file", authority := some {}, path := .segments (if names = [] then [""] else names) }

end Location

end TableLog
