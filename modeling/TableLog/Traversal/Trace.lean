import TableLog.Action

namespace TableLog

inductive Step
  | acquired (tag : String)
  | released (tag : String)
  | item (result : Outcome Action)
  deriving DecidableEq, Repr

/-- What a traversal does, in order. Pulling an item performs the steps up to the next one, so what
is held at some point is what dropping the traversal there releases. -/
abbrev Trace := List Step

namespace Trace

def holding : List String → Trace → List String
  | held, [] => held
  | held, .acquired t :: r => holding (t :: held) r
  | held, .released t :: r => holding (held.erase t) r
  | held, .item _ :: r => holding held r

def release (held : List String) : Trace := held.map .released

/-- With everything released in the end. -/
def closed (t : Trace) : Trace := t ++ release (t.holding [])

def items : Trace → List (Outcome Action)
  | [] => []
  | .item r :: t => r :: items t
  | _ :: t => items t

def ofItems (rs : List (Outcome Action)) : Trace := rs.map .item

def ofActions (as : List Action) : Trace := as.map fun a ↦ .item (.ok a)

def mapItems (f : Outcome Action → Outcome Action) (t : Trace) : Trace :=
  t.map fun
    | .item r => .item (f r)
    | s => s

/-- What one pull does, and what is left. -/
def pull : Trace → Trace × Trace
  | [] => ([], [])
  | .item r :: t => ([.item r], t)
  | s :: t => (s :: (pull t).1, (pull t).2)

def pulls : Nat → Trace → Trace
  | 0, _ => []
  | n + 1, t => (pull t).1 ++ pulls n (pull t).2

def acquisitions (tag : String) : Trace → Nat
  | [] => 0
  | .acquired t :: r => (if t = tag then 1 else 0) + acquisitions tag r
  | _ :: r => acquisitions tag r

def releases (tag : String) : Trace → Nat
  | [] => 0
  | .released t :: r => (if t = tag then 1 else 0) + releases tag r
  | _ :: r => releases tag r

def counts (t : Trace) : Dict (Nat × Nat) :=
  t.foldl (fun d s ↦
    match s with
    | .acquired tag => d.insert tag (t.acquisitions tag, t.releases tag)
    | _ => d) .empty

end Trace

/-- Starting a traversal: what that does at once, and then either the
rest of the trace or why there is none. -/
structure Opening where
  start : Trace := []
  result : Outcome Trace

namespace Opening

/-- As one member of a longer traversal, where a failure to open is an item. -/
def inline (o : Opening) : Trace :=
  match o.result with
  | .ok t => Trace.closed (o.start ++ t)
  | .error e => o.start ++ [.item (.error e)]

def all (o : Opening) : Trace :=
  match o.result with
  | .ok t => o.start ++ t
  | .error _ => o.start

end Opening

/-- How a reader's run over a traversal ended: the traffic of its resources, the
reader's state, and what stopped it early. -/
structure Drained (σ : Type) where
  traffic : Trace
  state : σ
  failure : Option Error := none

namespace Drained

variable {σ : Type}

def after (s : Step) (d : Drained σ) : Drained σ := { d with traffic := s :: d.traffic }

def outcome (d : Drained σ) : Outcome σ :=
  match d.failure with
  | none => .ok d.state
  | some e => .error e

end Drained

/-- Hands every action to the reader, up to the end or the first failure, of an item or of the
reader. Then the traversal is dropped. -/
def Trace.drainFrom {σ : Type} (read : σ → Action → Outcome σ) : σ → List String → Trace → Drained σ
  | s, held, [] => { traffic := release held, state := s }
  | s, held, .acquired t :: r => (drainFrom read s (t :: held) r).after (.acquired t)
  | s, held, .released t :: r => (drainFrom read s (held.erase t) r).after (.released t)
  | s, held, .item (.error e) :: _ => { traffic := release held, state := s, failure := some e }
  | s, held, .item (.ok a) :: r =>
    match read s a with
    | .ok s' => drainFrom read s' held r
    | .error e => { traffic := release held, state := s, failure := some e }

def Opening.drain {σ : Type} (read : σ → Action → Outcome σ) (s : σ) (o : Opening) : Drained σ :=
  match o.result with
  | .ok t => Trace.drainFrom read s [] (o.start ++ t)
  | .error e => { traffic := o.start, state := s, failure := some e }

end TableLog
