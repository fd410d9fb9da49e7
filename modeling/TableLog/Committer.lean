import TableLog.Transaction

namespace TableLog

inductive Response
  | committed (version : Version)
  | conflict (version : Version)
  deriving DecidableEq, Repr

namespace FileSystem

/-- Creates the commit file, still empty, and tells where it is. There
is none when the version is taken. -/
def claim (fs : FileSystem) (p : Proposal) : Outcome (Option Place) × FileSystem :=
  match Log.commitLocation p.log p.version with
  | .error e => (.error e, fs)
  | .ok location =>
    match location.filePath? with
    | none =>
      (.error
        (.unsupported s!"FileSystemCommitter can only write to local paths: {location.toText}"), fs)
    | some path =>
      match fs.createDirectories path.dropLast with
      | (.error e, fs) => (.error e, fs)
      | (.ok (), fs) =>
        match fs.createNew path with
        | .failed => (.error .fileSystem, fs)
        | .taken => (.ok none, fs)
        | .created fs place => (.ok (some place), fs)

def commit (fs : FileSystem) (p : Proposal) : Attempt Response × FileSystem :=
  match fs.claim p with
  | (.error e, fs) => ({ result := .error e }, fs)
  | (.ok none, fs) => ({ result := .ok (.conflict p.version) }, fs)
  | (.ok (some place), fs) =>
    let d := p.actions.drainFrom (fun fs a ↦ .ok (fs.append place (a.line ++ [0x0A]))) fs []
    match d.failure with
    | none => ({ traffic := d.traffic, result := .ok (.committed p.version) }, d.state)
    | some e => ({ traffic := d.traffic, result := .error e }, d.state.unset place)

end FileSystem

/-- A committer that writes nothing and keeps what it is given. -/
structure Recorder where
  conflict : Bool := false
  /-- How many items it pulls at most. -/
  limit : Option Nat := none
  failure : Option Error := none
  /-- The version that it reports, if not the proposed one. -/
  version : Option Version := none

structure Recording where
  version : Version
  location : Outcome Location
  actions : List Action := []

namespace Recorder

def commit (r : Recorder) (p : Proposal) : Attempt Response × Recording :=
  let recording : Recording :=
    { version := p.version, location := Log.commitLocation p.log p.version }
  let version := r.version.getD p.version
  if r.conflict then ({ result := .ok (.conflict version) }, recording)
  else
    let pulled :=
      match r.limit with
      | none => p.actions
      | some n => p.actions.pulls n
    let d := pulled.drainFrom (fun as a ↦ .ok (as ++ [a])) [] []
    let result : Outcome Response :=
      match d.failure, r.failure with
      | some e, _ => .error e
      | none, some e => .error e
      | none, none => .ok (.committed version)
    ({ traffic := d.traffic, result }, { recording with actions := d.state })

end Recorder

namespace Transaction

def commit (t : Transaction) (txnId : String) (fs : FileSystem) : Attempt Response × FileSystem :=
  let a := t.propose txnId
  match a.result with
  | .error e => ({ traffic := a.traffic, result := .error e }, fs)
  | .ok p =>
    let (b, fs) := fs.commit p
    ({ b with traffic := a.traffic ++ b.traffic }, fs)

/-- Commits to a recorder. Nothing is recorded when there is no proposal. -/
def record (t : Transaction) (txnId : String) (r : Recorder) :
    Attempt Response × Option Recording :=
  let a := t.propose txnId
  match a.result with
  | .error e => ({ traffic := a.traffic, result := .error e }, none)
  | .ok p =>
    let (b, recording) := r.commit p
    ({ b with traffic := a.traffic ++ b.traffic }, some recording)

end Transaction

end TableLog
