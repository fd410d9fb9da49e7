import TableLog.Proofs.Assignment
import TableLog.Proofs.Traffic

namespace TableLog

/-- The items of a traversal, or why it cannot be opened. -/
def Opening.yields (o : Opening) : Outcome (List (Outcome Action)) := o.result.map Trace.items

namespace RowIdAssigner

variable {g g' : RowIdAssigner} {a b : Action} {as bs : List Action}

theorem assign_again (h : g.assign a = .ok (b, g')) (k : RowIdAssigner) :
    k.assign b = .ok (b, k) := by
  rcases assign_eq_ok h with ⟨x, y, rfl, rfl, hxy⟩ | ⟨hnone, rfl, rfl⟩
  · obtain ⟨rfl, -, -⟩ := assignAdd_filled hxy
    rfl
  · cases b with
    | add x => cases hnone
    | _ => rfl

end RowIdAssigner

namespace RowTracking

open RowIdAssigner

variable {w w₁ w₂ : RowTracking} {o o' : Opening} {g : RowIdAssigner}

theorem assignFrom_release (k : RowIdAssigner) (held : List String) (rest : Trace) :
    assignFrom k held (Trace.release held ++ rest) =
      Trace.release held ++ assignFrom k [] rest := by
  induction held with
  | nil => rfl
  | cons tag held ih =>
    have herase : (tag :: held).erase tag = held := List.erase_cons_head tag held
    exact congrArg (.released tag :: ·)
      ((congrArg (assignFrom k · (Trace.release held ++ rest)) herase).trans ih)

/-- Whatever another assigner starts from, and whatever version it fills in. -/
theorem assignFrom_again (g k : RowIdAssigner) (held : List String) (t : Trace) :
    assignFrom k held (assignFrom g held t) = assignFrom g held t := by
  induction t generalizing g held with
  | nil =>
    have hend := assignFrom_release k held []
    rw [List.append_nil] at hend
    exact hend.trans (List.append_nil _)
  | cons s t ih =>
    cases s with
    | acquired tag => exact congrArg (.acquired tag :: ·) (ih g (tag :: held))
    | released tag => exact congrArg (.released tag :: ·) (ih g (held.erase tag))
    | item r =>
      rcases assignFrom_item g held r with ⟨e, hrefused⟩ | ⟨a, b, g', -, ha, hassigned⟩
      · rw [hrefused]
        exact assignFrom_release k held _
      · rw [hassigned]
        simp only [assignFrom, assign_again ha k]
        exact congrArg (.item (.ok b) :: ·) (ih g' held)

theorem assignEach_again (g k : RowIdAssigner) (xs : List (Outcome Action)) :
    k.assignEach (Results.actions (assignAll g xs)) =
      .ok (Results.actions (assignAll g xs), k) := by
  induction xs generalizing g with
  | nil => rfl
  | cons x xs ih =>
    cases x with
    | error e => rfl
    | ok a =>
      rw [assignAll]
      cases ha : g.assign a with
      | error e => rfl
      | ok r =>
        simp only [Results.actions, assignEach, assign_again ha k, ih r.2, bind, Except.bind, pure,
          Except.pure]

theorem wrap_wrap (h₁ : w₁.supported) (h₂ : w₂.supported)
    (hmark : w₂.highWaterMark ≠ Int64.maxValue) (o : Opening) :
    w₂.wrap (w₁.wrap o) = w₁.wrap o := by
  obtain ⟨k, hk⟩ := exists_start hmark w₂.commitVersion
  rw [wrap, if_pos h₂]
  rcases w₁.wrap_cases o with ⟨hwrap, hfails⟩ | ⟨t, -, ⟨e, hwrap⟩ | ⟨g, -, hwrap⟩⟩
  · obtain ⟨e, he⟩ := hfails h₁
    simp only [hwrap, he]
  · simp only [hwrap]
  · simp only [hwrap, hk, assignFrom_again]

theorem yields_wrap (w : RowTracking) (h : o.yields = o'.yields) :
    (w.wrap o).yields = (w.wrap o').yields := by
  rw [wrap, wrap]
  split
  · rw [Opening.yields, Opening.yields] at h
    cases ho : o.result with
    | error e =>
      cases ho' : o'.result with
      | error e' =>
        rw [ho, ho'] at h
        simp only [Opening.yields, ho, ho', h]
      | ok t' =>
        rw [ho, ho'] at h
        cases h
    | ok t =>
      cases ho' : o'.result with
      | error e' =>
        rw [ho, ho'] at h
        cases h
      | ok t' =>
        rw [ho, ho'] at h
        have hitems : t.items = t'.items := Except.ok.inj h
        cases start w.highWaterMark w.commitVersion with
        | error e => rfl
        | ok g =>
          refine congrArg Except.ok ?_
          rw [items_assignFrom, items_assignFrom, hitems]
  · exact h

/-- Wrapping again what has been wrapped makes no difference, from
whatever mark and for whatever version. -/
theorem rewrapped {s₁ s₂ : Snapshot} {v₁ v₂ : Version} {w₁ : RowTracking} {mark word : Int64}
    (h₁ : make true s₁ v₁ = .ok w₁) (hmark : s₂.highWaterMark = .ok mark)
    (hlow : mark ≠ Int64.maxValue) (hversion : v₂.word? = some word) :
    ∃ w₂, make true s₂ v₂ = .ok w₂ ∧ ∀ (s : Source) (turn : Nat),
      let inner := Source.rowTracking w₁ s
      let outer := Source.rowTracking w₂ inner
      outer.traverse turn = inner.traverse turn ∧
      (∀ t, (inner.traverse turn).result = .ok t → ∃ k, start mark word = .ok k ∧
        k.assignEach (Results.actions t.items) = .ok (Results.actions t.items, k)) ∧
      (s₂ = s₁ → w₂.update (inner.traverse turn) = w₁.update (s.traverse turn)) ∧
      ∀ other, (s.traverse turn).yields = (s.traverse other).yields →
        (inner.traverse turn).yields = (inner.traverse other).yields ∧
          (outer.traverse turn).yields = (outer.traverse other).yields := by
  obtain ⟨-, hsupported, hread⟩ := make_eq_ok h₁
  refine ⟨⟨true, mark, word⟩, ?_, ?_⟩
  · rw [make, hversion]
    simp only [if_true, hmark, bind, Except.bind, pure, Except.pure]
  intro s turn inner outer
  refine ⟨wrap_wrap hsupported rfl hlow (s.traverse turn), fun t ht ↦ ?_, fun hsame ↦ ?_,
    fun other hother ↦ ?_⟩
  · obtain ⟨k, hk⟩ := exists_start hlow word
    obtain ⟨u, g, -, -, -, hitems⟩ := wrap_supported hsupported ht
    rw [hitems]
    exact ⟨k, hk, assignEach_again g k u.items⟩
  · have hequal : w₁.highWaterMark = mark := by
      rw [← hsame] at hread
      exact Except.ok.inj ((hread rfl).symm.trans hmark)
    have hwrap : (⟨true, mark, word⟩ : RowTracking).wrap (inner.traverse turn) =
        w₁.wrap (s.traverse turn) :=
      wrap_wrap hsupported rfl hlow (s.traverse turn)
    rw [update, update, if_pos rfl, if_pos hsupported, hwrap, hequal]
  · have hinner : (inner.traverse turn).yields = (inner.traverse other).yields :=
      yields_wrap w₁ hother
    exact ⟨hinner, yields_wrap _ hinner⟩

theorem rewrapped_broken :
    let s : Source := .turns fun _ ↦ .ok Sample.broken
    let inner := Source.rowTracking ⟨true, -1, 1⟩ s
    ∃ w₂, make true Sample.snapshot 8 = .ok w₂ ∧
      (Source.rowTracking w₂ inner).traverse 0 = inner.traverse 0 ∧
      w₂.update (inner.traverse 0) = update ⟨true, -1, 1⟩ (s.traverse 0) ∧
      (∃ t, (inner.traverse 0).result = .ok t ∧ t.items.length = 6) ∧
      ∀ n, (inner.traverse 0).yields = (inner.traverse n).yields := by
  intro s inner
  have hmade : make true Sample.snapshot 1 = .ok ⟨true, -1, 1⟩ := by decide +kernel
  have hmark : Sample.snapshot.highWaterMark = .ok (-1) := by decide +kernel
  have hversion : Version.word? 8 = some 8 := by decide +kernel
  have hopened : (inner.traverse 0).result.map (·.items.length) = .ok 6 := by decide +kernel
  obtain ⟨w₂, hmake, hagain⟩ := rewrapped hmade hmark (by decide) hversion
  obtain ⟨hequal, -, hupdate, hturns⟩ := hagain s 0
  exact ⟨w₂, hmake, hequal, hupdate rfl, Outcome.map_eq_ok_iff.1 hopened, fun n ↦ (hturns n rfl).1⟩

end RowTracking

end TableLog
