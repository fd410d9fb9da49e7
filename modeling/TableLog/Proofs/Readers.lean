import TableLog.Proofs.Writers

namespace TableLog

open FileSystem (Written SameDirectories)

namespace Store

variable {s : Store} {fs : FileSystem} {u v : Version} {w : Writer} {t : Transaction}

/-- No commit up to a version is still being written. -/
def Quiet (s : Store) (v : Version) : Prop := ∀ u ≤ v, ∀ w, s.writers u = some w → w.Safe

/-- The commit of a version is complete, and it stays whatever happens next. -/
def Final (s : Store) (v : Version) : Prop :=
  ∀ es, Log.found? (s.run es).fs s.log v ≠ none ∧
    Log.commitItems (s.run es).fs s.log v = s.sequence v

theorem Inv.commitItems_eq (h : Inv s) (hw : ∀ w, s.writers v = some w → w.Safe) :
    Log.commitItems s.fs s.log v = s.sequence v := by
  rw [sequence]
  cases hx : s.writers v with
  | none => exact Log.commitItems_congr (h.kept v hx)
  | some w => exact ((h.writes v w hx).commitItems_eq_iff (hw w hx).1).2 (hw w hx)

structure Same (s s' : Store) (v : Version) : Prop where
  log : s'.log = s.log
  origin : s'.origin = s.origin
  found : Log.found? s'.fs s.log v = Log.found? s.fs s.log v
  writers : s'.writers v = s.writers v

theorem same_put {x : Option Writer} (hne : v ≠ u)
    (h : ∀ q, q ≠ s.log ++ [LogEntry.name u] → fs.get? q = s.fs.get? q) :
    Same s (s.put fs u x) v where
  log := rfl
  origin := rfl
  found := h _ (Log.place_ne hne)
  writers := writers_put_ne s fs x hne

theorem Same.sequence {s' : Store} (h : Same s s' v) : s'.sequence v = s.sequence v := by
  rw [Store.sequence, Store.sequence, h.log, h.origin, h.writers]

/-- A complete commit that is not being written stays. -/
theorem Inv.stays (h : Inv s) (hf : Log.found? s.fs s.log v ≠ none)
    (hw : ∀ w, s.writers v = some w → w.Safe) (e : Event) :
    (s.step e).log = s.log ∧ Log.found? (s.step e).fs s.log v ≠ none ∧
      (∀ w, (s.step e).writers v = some w → w.Safe) ∧ (s.step e).sequence v = s.sequence v := by
  have hsame : ∀ s', Same s s' v → s'.log = s.log ∧ Log.found? s'.fs s.log v ≠ none ∧
      (∀ w, s'.writers v = some w → w.Safe) ∧ s'.sequence v = s.sequence v :=
    fun s' hs ↦ ⟨hs.log, hs.found ▸ hf, hs.writers ▸ hw, hs.sequence⟩
  have hmoves := h.moves e
  generalize s.step e = s' at hmoves
  cases hmoves with
  | idle => exact hsame _ ⟨rfl, rfl, rfl, rfl⟩
  | used u => exact hsame _ ⟨rfl, rfl, rfl, rfl⟩
  | rejected i txnId => exact hsame _ ⟨rfl, rfl, rfl, rfl⟩
  | @created i txnId t p ht hpropose hfree =>
    have hne : v ≠ p.version := by
      intro he
      subst he
      exact hf hfree
    have hwritten := Log.written_place s.fs s.log p.version []
    exact hsame _ ⟨rfl, rfl, hwritten.others (Log.place_ne hne), if_neg hne⟩
  | @appended u w count hx =>
    obtain ⟨bs, hbs, hwritten, -⟩ := h.written hx count
    by_cases hne : v = u
    · subst hne
      refine ⟨rfl, ?_, ?_, ?_⟩
      · rw [Log.found?, Store.put, hwritten.get?]
        exact Option.some_ne_none _
      · intro w' hw'
        rw [writers_put] at hw'
        rw [← Option.some.inj hw']
        exact (hw w hx).advance count
      · simp only [Store.sequence, writers_put, hx]
        rfl
    · exact hsame _ (same_put hne fun q hq ↦ hwritten.others hq)
  | @removed u w hx hfailed =>
    have hne : v ≠ u := by
      intro he
      subst he
      exact hfailed (hw w hx).1
    refine hsame _ (same_put hne fun q hq ↦ ?_)
    rw [(h.writes u w hx).place, get?_unset_place, if_neg hq]

theorem Inv.final (h : Inv s) (hf : Log.found? s.fs s.log v ≠ none)
    (hw : ∀ w, s.writers v = some w → w.Safe) :
    s.Final v := by
  intro es
  induction es generalizing s with
  | nil => exact ⟨hf, h.commitItems_eq hw⟩
  | cons e es ih =>
    obtain ⟨hlog, hf', hw', hsequence⟩ := h.stays hf hw e
    rw [← hlog] at hf' ⊢
    rw [← hsequence]
    exact ih (h.step e) hf' hw'

theorem Inv.removes (h : Inv s) (hw : s.writers v = some w) (hfailed : w.failure ≠ none) :
    ∃ es, Log.found? (s.run es).fs s.log v = none := by
  refine ⟨[.append v w.todo.length, .remove v], ?_⟩
  simp only [Store.run, List.foldl_cons, List.foldl_nil, Store.step, hw, writers_put]
  rw [if_pos ⟨hfailed, List.drop_length⟩]
  simp only [Log.found?, Store.put, Writer.advance, (h.writes v w hw).place, get?_unset_place,
    if_true]

theorem Inv.final_iff (h : Inv s) (hf : Log.found? s.fs s.log v ≠ none) :
    s.Final v ↔ ∀ w, s.writers v = some w → w.Safe := by
  refine ⟨fun hfinal w hw ↦ ?_, h.final hf⟩
  by_cases hfailed : w.failure = none
  · have hread := (hfinal []).2
    rw [sequence, hw] at hread
    exact ((h.writes v w hw).commitItems_eq_iff hfailed).1 hread
  · obtain ⟨es, hes⟩ := h.removes hw hfailed
    exact absurd hes (hfinal es).1

end Store

end TableLog
