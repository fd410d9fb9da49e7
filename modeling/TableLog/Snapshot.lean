import TableLog.Action
import TableLog.Configuration

namespace TableLog

structure Snapshot where
  configuration : Configuration
  domains : Dict String
  deriving DecidableEq, Repr

/-- The part of a table's state that a log determines, while it is read. -/
structure Replay where
  protocol : Option Protocol := none
  metadata : Option Metadata := none
  domains : Dict String := .empty
  deriving DecidableEq, Repr

namespace Replay

def setDomain (r : Replay) (d : DomainMetadata) : Replay :=
  { r with
    domains :=
      if d.removed then r.domains.erase d.domain
      else r.domains.insert d.domain d.configuration }

def apply (r : Replay) : Action → Replay
  | .protocol p => { r with protocol := some p }
  | .metadata m => { r with metadata := some m }
  | .domainMetadata d => r.setDomain d
  | .add _ | .remove _ | .commitInfo _ | .appVersion _ => r

def applyAll (r : Replay) : List (Outcome Action) → Outcome Replay
  | [] => .ok r
  | .ok a :: as => (r.apply a).applyAll as
  | .error e :: _ => .error e

def finish (r : Replay) (root : Location) (version : Version) : Outcome Snapshot :=
  match r.protocol, r.metadata with
  | none, _ => .error (.missingData "No protocol found in the log")
  | some _, none => .error (.missingData "No metadata found in the log")
  | some p, some m => do
    let configuration ← Configuration.make m p root version
    pure { configuration, domains := r.domains }

end Replay

namespace Snapshot

def replay (root : Location) (version : Version) (actions : List (Outcome Action)) :
    Outcome Snapshot := do
  let r ← Replay.applyAll {} actions
  r.finish root version

def ofActions (root : Location) (version : Version) (actions : List Action) : Outcome Snapshot :=
  replay root version (actions.map .ok)

def version (s : Snapshot) : Version := s.configuration.version

def root (s : Snapshot) : Location := s.configuration.root

/-- The configuration that a user has given a domain. Domains of the
system are not read this way. -/
def userDomain (s : Snapshot) (domain : String) : Outcome (Option String) :=
  if isSystemDomain domain then
    .error (.generic
      "User DomainMetadata are not allowed to use system-controlled \x27delta.*\x27 domain")
  else .ok (s.domains.get? domain)

def decoded {α : Type} (s : Snapshot) (domain : String) (decode? : String → Option α) :
    Outcome (Option α) :=
  match s.domains.get? domain with
  | none => .ok none
  | some text =>
    match decode? text with
    | none => .error .malformedJson
    | some a => .ok (some a)

def storedHighWaterMark (s : Snapshot) : Outcome (Option Int64) :=
  (s.decoded HighWaterMark.domain HighWaterMark.decode?).map (·.map (·.rowId))

def highWaterMark (s : Snapshot) : Outcome Int64 :=
  s.storedHighWaterMark.map (·.getD HighWaterMark.missing)

def clustering (s : Snapshot) : Outcome (Option Clustering) :=
  s.decoded Clustering.domain Clustering.decode?

end Snapshot

end TableLog
