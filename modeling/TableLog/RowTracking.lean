import TableLog.RowIdAssigner
import TableLog.Snapshot
import TableLog.Traversal.Trace

namespace TableLog

structure RowTracking where
  supported : Bool
  highWaterMark : Int64
  commitVersion : Int64
  deriving DecidableEq, Repr

namespace RowTracking

/-- For a commit on top of a snapshot. The stored mark is only read where it matters. -/
def make (supported : Bool) (s : Snapshot) (commitVersion : Version) : Outcome RowTracking :=
  match commitVersion.word? with
  | none => .error (.overflow "number too large to fit in target type")
  | some commitVersion =>
    if supported then do
      let highWaterMark ← s.highWaterMark
      pure { supported, highWaterMark, commitVersion }
    else .ok { supported, highWaterMark := HighWaterMark.missing, commitVersion }

/-- Each action with its row ids. The first failure is the last item; by then everything
held is released, as it is at the end. -/
def assignFrom : RowIdAssigner → List String → Trace → Trace
  | _, held, [] => Trace.release held
  | g, held, .acquired t :: r => .acquired t :: assignFrom g (t :: held) r
  | g, held, .released t :: r => .released t :: assignFrom g (held.erase t) r
  | _, held, .item (.error e) :: _ => Trace.release held ++ [.item (.error e)]
  | g, held, .item (.ok a) :: r =>
    match g.assign a with
    | .ok (a', g') => .item (.ok a') :: assignFrom g' held r
    | .error e => Trace.release held ++ [.item (.error e)]

/-- The traversal with row ids. Every traversal starts again from the same mark. -/
def wrap (w : RowTracking) (o : Opening) : Opening :=
  if w.supported then
    match o.result with
    | .error _ => o
    | .ok t =>
      match RowIdAssigner.start w.highWaterMark w.commitVersion with
      | .error e => { start := Trace.closed o.start, result := .error e }
      | .ok g => { start := o.start, result := .ok (assignFrom g (o.start.holding []) t) }
  else o

/-- Every added file raises the mark by its records, also one that came with its row ids. -/
def raise (mark : Int64) : Action → Outcome Int64
  | .add a =>
    match a.requiredCount with
    | .error e => .error e
    | .ok n =>
      match add? mark n with
      | none => .error (.overflow "Row id high water mark exceeds i64")
      | some m => .ok m
  | _ => .ok mark

/-- The new high water mark that the actions of a traversal make necessary,
if any, and the traffic of finding out. -/
def update (w : RowTracking) (o : Opening) : Trace × Outcome (Option DomainMetadata) :=
  if w.supported then
    let d := (w.wrap o).drain raise w.highWaterMark
    (d.traffic, d.outcome.map fun m ↦
      if m = w.highWaterMark then none else some (HighWaterMark.toDomain ⟨m⟩))
  else ([], .ok none)

def describe (w : RowTracking) : String :=
  "RowTrackingActions \x7b row_tracking_supported: " ++ toString w.supported ++
    ", high_water_mark: " ++ toString w.highWaterMark.toInt ++
    ", commit_version: " ++ toString w.commitVersion.toInt ++ " \x7d"

end RowTracking

end TableLog
