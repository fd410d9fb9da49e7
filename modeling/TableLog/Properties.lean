import TableLog.Dict

namespace TableLog

structure Properties where
  appendOnly : Option Bool := none
  changeDataFeed : Option Bool := none
  rowTracking : Option Bool := none
  rowTrackingSuspended : Option Bool := none
  rowIdColumn : Option String := none
  rowCommitVersionColumn : Option String := none
  unknown : Dict String := .empty
  deriving DecidableEq, Repr

namespace Properties

def switch? (s : String) : Option Bool :=
  if s = "true" then some true else if s = "false" then some false else none

def keep (p : Properties) (key value : String) : Properties :=
  { p with unknown := p.unknown.insert key value }

/-- Takes in one entry. A switch is on at exactly `true` and off at exactly `false`. -/
def set (p : Properties) (key value : String) : Properties :=
  if key = "delta.appendOnly" then
    match switch? value with
    | some b => { p with appendOnly := some b }
    | none => p.keep key value
  else if key = "delta.enableChangeDataFeed" then
    match switch? value with
    | some b => { p with changeDataFeed := some b }
    | none => p.keep key value
  else if key = "delta.enableRowTracking" then
    match switch? value with
    | some b => { p with rowTracking := some b }
    | none => p.keep key value
  else if key = "delta.rowTrackingSuspended" then
    match switch? value with
    | some b => { p with rowTrackingSuspended := some b }
    | none => p.keep key value
  else if key = "delta.rowTracking.materializedRowIdColumnName" then
    { p with rowIdColumn := some value }
  else if key = "delta.rowTracking.materializedRowCommitVersionColumnName" then
    { p with rowCommitVersionColumn := some value }
  else p.keep key value

def ofEntries (entries : List (String × String)) : Properties :=
  entries.foldl (fun p e ↦ p.set e.1 e.2) {}

def ofDict (d : Dict String) : Properties := ofEntries d.entries

end Properties

end TableLog
