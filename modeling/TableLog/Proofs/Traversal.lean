import TableLog.Proofs.Outcome
import TableLog.RowTracking
import TableLog.Traversal.Source

namespace TableLog

namespace Trace

@[simp] theorem items_append (t u : Trace) : items (t ++ u) = items t ++ items u := by
  induction t with
  | nil => rfl
  | cons s t ih => cases s <;> simp [items, ih]

@[simp] theorem items_release (held : List String) : items (release held) = [] := by
  induction held with
  | nil => rfl
  | cons tag held ih => exact ih

@[simp] theorem items_closed (t : Trace) : items (closed t) = items t := by simp [closed]

@[simp] theorem items_ofItems (rs : List (Outcome Action)) : items (ofItems rs) = rs := by
  induction rs with
  | nil => rfl
  | cons r rs ih => exact congrArg (r :: ·) ih

@[simp] theorem items_ofActions (as : List Action) : items (ofActions as) = as.map .ok := by
  induction as with
  | nil => rfl
  | cons a as ih => exact congrArg (.ok a :: ·) ih

@[simp] theorem items_mapItems (f : Outcome Action → Outcome Action) (t : Trace) :
    items (t.mapItems f) = (items t).map f := by
  induction t with
  | nil => rfl
  | cons s t ih =>
    rw [mapItems] at ih
    cases s <;> simp [mapItems, items, ih]

theorem items_pull (t : Trace) :
    (pull t).1.items = t.items.take 1 ∧ (pull t).2.items = t.items.drop 1 := by
  induction t with
  | nil => exact ⟨rfl, rfl⟩
  | cons step t ih =>
    cases step with
    | item r => simp [pull, items]
    | acquired tag => exact ih
    | released tag => exact ih

theorem items_pulls (n : Nat) (t : Trace) : (pulls n t).items = t.items.take n := by
  induction n generalizing t with
  | zero => rfl
  | succ n ih =>
    obtain ⟨hfirst, hrest⟩ := items_pull t
    rw [pulls, items_append, ih, hfirst, hrest, ← List.take_add, Nat.add_comm]

section MapItems

variable {f : Outcome Action → Outcome Action}

theorem mapItems_append (t u : Trace) : (t ++ u).mapItems f = t.mapItems f ++ u.mapItems f :=
  List.map_append

theorem pull_mapItems (t : Trace) :
    (t.mapItems f).pull = (t.pull.1.mapItems f, t.pull.2.mapItems f) := by
  induction t with
  | nil => rfl
  | cons s t ih =>
    cases s with
    | item r => rfl
    | acquired tag => exact congrArg (fun q : Trace × Trace ↦ (Step.acquired tag :: q.1, q.2)) ih
    | released tag => exact congrArg (fun q : Trace × Trace ↦ (Step.released tag :: q.1, q.2)) ih

theorem pulls_mapItems (n : Nat) (t : Trace) : pulls n (t.mapItems f) = (pulls n t).mapItems f := by
  induction n generalizing t with
  | zero => rfl
  | succ n ih => rw [pulls, pulls, pull_mapItems, mapItems_append, ih]

end MapItems

/-- Hands actions to a reader that may stop. -/
def feed {σ : Type} (read : σ → Action → Outcome σ) : σ → List (Outcome Action) → Outcome σ
  | s, [] => .ok s
  | _, .error e :: _ => .error e
  | s, .ok a :: rs =>
    match read s a with
    | .ok s' => feed read s' rs
    | .error e => .error e

variable {σ : Type}

theorem drainFrom_outcome (read : σ → Action → Outcome σ) (s : σ) (held : List String) (t : Trace) :
    (drainFrom read s held t).outcome = feed read s t.items := by
  induction t generalizing s held with
  | nil => rfl
  | cons step t ih =>
    cases step with
    | acquired tag => exact ih s (tag :: held)
    | released tag => exact ih s (held.erase tag)
    | item r =>
      cases r with
      | error e => rfl
      | ok a =>
        simp only [drainFrom, items, feed]
        cases read s a with
        | error e => rfl
        | ok s' => exact ih s' held

theorem drainFrom_total (read : σ → Action → σ) (s : σ) (held : List String) (t : Trace) :
    (drainFrom (fun s a ↦ .ok (read s a)) s held t).state = (Results.actions t.items).foldl read s ∧
      (drainFrom (fun s a ↦ .ok (read s a)) s held t).failure = Results.failure t.items := by
  induction t generalizing s held with
  | nil => exact ⟨rfl, rfl⟩
  | cons step t ih =>
    cases step with
    | acquired tag => exact ih s (tag :: held)
    | released tag => exact ih s (held.erase tag)
    | item r =>
      cases r with
      | error e => exact ⟨rfl, rfl⟩
      | ok a => exact ih (read s a) held

end Trace

namespace Opening

theorem items_inline (o : Opening) :
    o.inline.items = o.start.items ++
      match o.result with
      | .ok t => t.items
      | .error e => [.error e] := by
  rw [inline]
  cases o.result with
  | ok t => simp only [Trace.items_closed, Trace.items_append]
  | error e => exact Trace.items_append _ _

end Opening

namespace Source

theorem items_traverseEach (turn : Nat) (ss : List Source) :
    (traverseEach turn ss).items = ss.flatMap fun s ↦ (s.traverse turn).inline.items := by
  induction ss with
  | nil => rfl
  | cons s ss ih => rw [traverseEach, Trace.items_append, ih, List.flatMap_cons]

end Source

namespace RowTracking

def assignAll : RowIdAssigner → List (Outcome Action) → List (Outcome Action)
  | _, [] => []
  | _, .error e :: _ => [.error e]
  | g, .ok a :: rs =>
    match g.assign a with
    | .ok (a', g') => .ok a' :: assignAll g' rs
    | .error e => [.error e]

theorem items_assignFrom (g : RowIdAssigner) (held : List String) (t : Trace) :
    (assignFrom g held t).items = assignAll g t.items := by
  induction t generalizing g held with
  | nil => exact Trace.items_release held
  | cons step t ih =>
    cases step with
    | acquired tag => exact ih g (tag :: held)
    | released tag => exact ih g (held.erase tag)
    | item r =>
      cases r with
      | error e => simp [assignFrom, Trace.items, assignAll]
      | ok a =>
        simp only [assignFrom, Trace.items, assignAll]
        cases g.assign a with
        | error e => simp [Trace.items]
        | ok r => exact congrArg (.ok r.1 :: ·) (ih r.2 held)

end RowTracking

end TableLog
