import TableLog.CommitName
import TableLog.Traversal.Source

namespace TableLog

structure CommitFile where
  version : Version
  location : Location
  found : Node

namespace Log

def directory (root : Location) : Outcome Location :=
  match root.inDirectory? ["_delta_log", ""] with
  | none => .error .invalidUrl
  | some log => .ok log

def version? (l : Location) : Outcome (Option Version) :=
  match l.fileName?.map fun n ↦ LogEntry.ofName (utf8 n) with
  | none | some .malformed => .error (.invalidLogPath l.toText)
  | some .other => .ok none
  | some (.commit v) => .ok (some v)

def commitLocation (log : Location) (v : Version) : Outcome Location := do
  match log.inDirectory? [LogEntry.nameText v] with
  | none => .error .invalidUrl
  | some l =>
    match ← version? l with
    | none => .error (.internal s!"Attempted to create an invalid path: {LogEntry.nameText v}")
    | some _ => .ok l

/-- The commits in a directory that are not beyond a version. -/
def commits (dir : FilePath) (upTo : Option Version) :
    List (Bytes × Node) → Outcome (List CommitFile)
  | [] => .ok []
  | (name, found) :: r =>
    let location := Location.ofFilePath (dir ++ [name])
    match LogEntry.ofName name with
    | .malformed => .error (.invalidLogPath location.toText)
    | .other => commits dir upTo r
    | .commit version =>
      if upTo.all (version ≤ ·) then (commits dir upTo r).map ({ version, location, found } :: ·)
      else commits dir upTo r

def checkContiguous (expected : Nat) : List CommitFile → Outcome Unit
  | [] => .ok ()
  | c :: r =>
    if c.version.toNat = expected then checkContiguous (expected + 1) r
    else
      .error (.invalidLogPath s!"Expected commit version {expected} but found {c.location.toText}")

def select (dir : FilePath) (upTo : Option Version) (entries : List (Bytes × Node)) :
    Outcome (List CommitFile) := do
  let found ← commits dir upTo entries
  let sorted := found.mergeSort fun a b ↦ a.version ≤ b.version
  checkContiguous 0 sorted
  pure sorted

/-- All commits of a log as one source. One file is open at a time. -/
def source (cs : List CommitFile) : Source := .chain (cs.map fun c ↦ .file (some c.found))

end Log

namespace Snapshot

def build (root log : Location) (dir : FilePath) (requested : Option Version)
    (entries : List (Bytes × Node)) :
    Outcome Snapshot := do
  let cs ← Log.select dir requested entries
  match cs.getLast? with
  | none => .error (.missingData s!"No commit files found in {log.toText}")
  | some latest =>
    if requested.all (· = latest.version) then
      replay root latest.version (((Log.source cs).traverse 0).all).items
    else
      .error (.generic (
        "Requested snapshot version " ++ toString (requested.getD 0) ++
        " does not exist, latest version is " ++ toString latest.version))

/-- The table at a root, at the given version or at its latest. -/
def load (fs : FileSystem) (root : Location) (requested : Option Version) : Outcome Snapshot := do
  let log ← Log.directory root
  match log.filePath? with
  | none => .error (.unsupported s!"Only local file system tables are supported: {log.toText}")
  | some dir => do
    let entries ← fs.list dir
    build root log dir requested entries

end Snapshot

end TableLog
