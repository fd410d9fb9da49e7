import Mathlib
import TableLog.Action

namespace TableLog

namespace Outcome

variable {α β : Type}

theorem bind_eq_ok_iff {x : Outcome α} {f : α → Outcome β} {b : β} :
    x >>= f = .ok b ↔ ∃ a, x = .ok a ∧ f a = .ok b := by
  constructor
  · intro h
    cases x with
    | error e => cases h
    | ok a => exact ⟨a, rfl, h⟩
  · rintro ⟨a, rfl, h⟩
    exact h

theorem map_eq_ok_iff {x : Outcome α} {f : α → β} {b : β} :
    x.map f = .ok b ↔ ∃ a, x = .ok a ∧ f a = b := by
  constructor
  · intro h
    cases x with
    | error e => cases h
    | ok a => exact ⟨a, rfl, Except.ok.inj h⟩
  · intro he
    obtain ⟨a, rfl, rfl⟩ := he
    rfl

theorem map_eq_error_iff {x : Outcome α} {f : α → β} {e : Error} :
    x.map f = .error e ↔ x = .error e := by
  cases x with
  | error e' =>
    rw [Except.map, Except.error.injEq, Except.error.injEq]
  | ok a => exact ⟨nofun, nofun⟩

end Outcome

namespace Results

/-- The actions before the first failure. -/
def actions : List (Outcome Action) → List Action
  | .ok a :: rs => a :: actions rs
  | _ => []

def failure : List (Outcome Action) → Option Error
  | [] => none
  | .ok _ :: rs => failure rs
  | .error e :: _ => some e

theorem eq_ok_of_failure {rs : List (Outcome Action)} (h : failure rs = none) :
    rs = (actions rs).map .ok := by
  induction rs with
  | nil => rfl
  | cons r rs ih =>
    cases r with
    | error e => cases h
    | ok a =>
      rw [actions, List.map_cons, ← ih h]

theorem exists_ok {rs : List (Outcome Action)} (h : ∀ r ∈ rs, ∃ a, r = .ok a) :
    ∃ as : List Action, rs = as.map .ok := by
  induction rs with
  | nil => exact ⟨[], rfl⟩
  | cons r rs ih =>
    obtain ⟨⟨a, rfl⟩, hrest⟩ := List.forall_mem_cons.1 h
    obtain ⟨as, rfl⟩ := ih hrest
    exact ⟨a :: as, rfl⟩

@[simp] theorem actions_ok (as : List Action) : actions (as.map .ok) = as := by
  induction as with
  | nil => rfl
  | cons a as ih => rw [List.map_cons, actions, ih]

theorem error_cons_ne {e : Error} {rs : List (Outcome Action)} {as : List Action} :
    .error e :: rs ≠ as.map .ok := by
  intro h
  cases as with
  | nil => cases h
  | cons a as => cases (List.cons.inj h).1

@[simp] theorem failure_ok (as : List Action) : failure (as.map .ok) = none := by
  induction as with
  | nil => rfl
  | cons a as ih => rw [List.map_cons, failure, ih]

end Results

end TableLog
