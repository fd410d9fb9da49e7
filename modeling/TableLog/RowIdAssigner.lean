import TableLog.Action

namespace TableLog

structure RowIdAssigner where
  next : Int64
  commitVersion : Int64
  /-- How many files have got row ids. They are counted one by one, so the bound of a machine word
  is out of reach and the count is a plain number. -/
  assigned : Nat := 0
  deriving DecidableEq, Repr

namespace RowIdAssigner

def start (highWaterMark commitVersion : Int64) : Outcome RowIdAssigner :=
  match add? highWaterMark 1 with
  | none => .error (.overflow "Row id high water mark is at its maximum")
  | some next => .ok { next, commitVersion }

def complete (g : RowIdAssigner) (a : Add) (baseRowId : Int64) : Add :=
  { a with
    baseRowId := some baseRowId
    defaultRowCommitVersion := some (a.defaultRowCommitVersion.getD g.commitVersion) }

/-- The file with its row ids and the assigner after it. A failure gives out nothing. -/
def assignAdd (g : RowIdAssigner) (a : Add) : Outcome (Add × RowIdAssigner) :=
  match a.baseRowId with
  | some b => .ok (g.complete a b, g)
  | none =>
    match a.requiredCount with
    | .error e => .error e
    | .ok n =>
      match add? g.next n with
      | none => .error (.overflow s!"Row id range of {a.path} exceeds i64")
      | some next => .ok (g.complete a g.next, { g with next := next, assigned := g.assigned + 1 })

def assign (g : RowIdAssigner) : Action → Outcome (Action × RowIdAssigner)
  | .add a => (g.assignAdd a).map fun r ↦ (.add r.1, r.2)
  | x => .ok (x, g)

/-- Work on an assigner in place. What it has changed before it fails stays changed. -/
abbrev Work := EStateM Error RowIdAssigner

def fillAdd (a : Add) : Work Add := do
  let mut a := a
  if a.baseRowId.isNone then
    let n ← ofExcept a.requiredCount
    a := { a with baseRowId := some (← get).next }
    match add? (← get).next n with
    | none => throw (.overflow s!"Row id range of {a.path} exceeds i64")
    | some next => modify fun g ↦ { g with next }
    modify fun g ↦ { g with assigned := g.assigned + 1 }
  if a.defaultRowCommitVersion.isNone then
    a := { a with defaultRowCommitVersion := some (← get).commitVersion }
  return a

def fill : Action → Work Action
  | .add a => return .add (← fillAdd a)
  | x => return x

/-- What an assigner in use makes of an action, and the assigner as it
can be used on, also after a failure. -/
def answer (g : RowIdAssigner) (a : Action) : Outcome Action × RowIdAssigner :=
  match (fill a).run g with
  | .ok b g' => (.ok b, g')
  | .error e g' => (.error e, g')

/-- The highest id given out so far, or the mark it started from. -/
def highWaterMark (g : RowIdAssigner) : Int64 := g.next - 1

end RowIdAssigner

end TableLog
