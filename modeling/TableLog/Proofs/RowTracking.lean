import TableLog.Proofs.Snapshot
import TableLog.Proofs.Traversal

namespace TableLog

structure IdRange where
  first : Int
  count : Int
  deriving DecidableEq, Repr

namespace IdRange

def Has (r : IdRange) (id : Int) : Prop := r.first ≤ id ∧ id < r.first + r.count

def Disjoint (r s : IdRange) : Prop := ∀ id, ¬(r.Has id ∧ s.Has id)

/-- Behind one mark and not beyond another. -/
def Between (r : IdRange) (low high : Int) : Prop := low < r.first ∧ r.first + r.count ≤ high + 1

theorem Disjoint.symm {r s : IdRange} (h : Disjoint r s) : Disjoint s r :=
  fun id hid ↦ h id hid.symm

theorem Between.disjoint {r s : IdRange} {low high : Int} (hr : r.Between low high)
    (hs : ∀ id, s.Has id → id ≤ low) :
    Disjoint r s := by
  intro id hid
  have hle := hs id hid.2
  have hlow := hr.1
  have hfirst := hid.1.1
  omega

theorem Between.le {r : IdRange} {low high id : Int} (hr : r.Between low high) (hid : r.Has id) :
    id ≤ high := by
  have hhigh := hr.2
  have hlast := hid.2
  omega

theorem Between.mono {r : IdRange} {low low' high high' : Int} (h : r.Between low high)
    (hl : low' ≤ low) (hh : high ≤ high') : r.Between low' high' := by
  have hlow := h.1
  have hhigh := h.2
  exact ⟨by omega, by omega⟩

end IdRange

namespace Add

def records (a : Add) : Int :=
  match a.recordCount with
  | .ok (some n) => n.toInt
  | _ => 0

theorem records_of_requiredCount {a : Add} {n : Int64} (h : a.requiredCount = .ok n) :
    a.records = n.toInt ∧ 0 ≤ n.toInt := by
  rw [requiredCount] at h
  split at h
  · cases h
  · cases h
  · rename_i m hm
    split at h
    · cases h
    · rename_i hneg
      obtain rfl := Except.ok.inj h
      rw [records, hm, Int64.lt_iff_toInt_lt] at *
      exact ⟨rfl, Int.not_lt.1 hneg⟩

/-- The file as staged, with a base row id and a default row commit
version where these were missing. -/
def CompletedBy (a b : Add) : Prop :=
  ∃ base version, b = { a with baseRowId := some base, defaultRowCommitVersion := some version } ∧
    (∀ n, a.baseRowId = some n → base = n) ∧ ∀ n, a.defaultRowCommitVersion = some n → version = n

theorem CompletedBy.records {a b : Add} (h : a.CompletedBy b) : b.records = a.records := by
  obtain ⟨base, version, rfl, -, -⟩ := h
  rfl

theorem CompletedBy.requiredCount {a b : Add} (h : a.CompletedBy b) :
    b.requiredCount = a.requiredCount := by
  obtain ⟨base, version, rfl, -, -⟩ := h
  rfl

theorem map_of_completed {β : Type} {f : Add → β} (hf : ∀ {a b : Add}, a.CompletedBy b → f b = f a)
    {as bs : List Add} (h : List.Forall₂ CompletedBy as bs) : bs.map f = as.map f := by
  induction h with
  | nil => rfl
  | cons hab _ ih => rw [List.map_cons, List.map_cons, hf hab, ih]

theorem counts_of_completed {as bs : List Add} (h : List.Forall₂ CompletedBy as bs)
    (hb : ∀ b ∈ bs, ∃ n, b.requiredCount = .ok n) : ∀ a ∈ as, ∃ n, a.requiredCount = .ok n := by
  intro a ha
  have hrequired := map_of_completed CompletedBy.requiredCount h
  obtain ⟨b, hmem, hba⟩ := List.mem_map.1 (hrequired ▸ List.mem_map_of_mem ha)
  exact hba ▸ hb b hmem

theorem records_nonneg {as : List Add} (h : ∀ a ∈ as, ∃ n, a.requiredCount = .ok n) :
    ∀ a ∈ as, 0 ≤ a.records := by
  intro a ha
  obtain ⟨n, hn⟩ := h a ha
  have hrecords := records_of_requiredCount hn
  omega

def taken (a : Add) : Int := if a.baseRowId.isSome then 0 else a.records

theorem records_sum (as : List Add) :
    (as.map records).sum = (as.map taken).sum +
      ((as.filter (·.baseRowId.isSome)).map records).sum := by
  induction as with
  | nil => rfl
  | cons a as ih =>
    rw [List.map_cons, List.map_cons, List.sum_cons, List.sum_cons, taken, List.filter_cons]
    split
    · rw [List.map_cons, List.sum_cons]
      omega
    · omega

theorem taken_sum_le {as : List Add} (h : ∀ a ∈ as, 0 ≤ a.records) :
    (as.map taken).sum ≤ (as.map records).sum := by
  have hbrought : 0 ≤ ((as.filter (·.baseRowId.isSome)).map records).sum := by
    apply List.sum_nonneg
    intro n hn
    obtain ⟨a, ha, rfl⟩ := List.mem_map.1 hn
    exact h a (List.mem_of_mem_filter ha)
  have hsum := records_sum as
  omega

/-- The row ids that a file received, if it was staged without. -/
def granted? (staged written : Add) : Option IdRange :=
  match staged.baseRowId, written.baseRowId with
  | none, some base => some ⟨base.toInt, written.records⟩
  | _, _ => none

def granted (staged written : List Add) : List IdRange :=
  (staged.zip written).filterMap fun p ↦ granted? p.1 p.2

end Add

namespace RowIdAssigner

inductive Assigned : RowIdAssigner → List Add → List Add → RowIdAssigner → Prop
  | nil (g : RowIdAssigner) : Assigned g [] [] g
  | cons {g g' g'' : RowIdAssigner} {a b : Add} {as bs : List Add} :
      g.assignAdd a = .ok (b, g') → Assigned g' as bs g'' → Assigned g (a :: as) (b :: bs) g''

variable {g g' : RowIdAssigner} {a b : Add} {as bs : List Add}

theorem assignAdd_eq_ok (h : g.assignAdd a = .ok (b, g')) :
    a.CompletedBy b ∧
      ((Add.granted? a b = none ∧ g'.next = g.next) ∨
        (Add.granted? a b = some ⟨g.next.toInt, b.records⟩ ∧
          g'.next.toInt = g.next.toInt + b.records ∧ 0 ≤ b.records)) := by
  rw [assignAdd] at h
  split at h
  · rename_i base hbase
    obtain ⟨rfl, rfl⟩ := Prod.mk.inj (Except.ok.inj h)
    refine ⟨⟨base, _, rfl, fun n hn ↦ ?_, fun n hn ↦ ?_⟩, .inl ⟨?_, rfl⟩⟩
    · exact Option.some.inj (hbase.symm.trans hn)
    · rw [hn]
      rfl
    · rw [Add.granted?, hbase]
  · rename_i hbase
    split at h
    · cases h
    · rename_i n hn
      split at h
      · cases h
      · rename_i next hnext
        obtain ⟨rfl, rfl⟩ := Prod.mk.inj (Except.ok.inj h)
        obtain ⟨hrecords, hnonneg⟩ := Add.records_of_requiredCount hn
        have hrecords' : (g.complete a g.next).records = n.toInt := hrecords
        refine ⟨⟨g.next, _, rfl, fun m hm ↦ ?_, fun m hm ↦ ?_⟩, .inr ⟨?_, ?_, ?_⟩⟩
        · rw [hbase] at hm
          cases hm
        · rw [hm]
          rfl
        · rw [Add.granted?, hbase]
          rfl
        · rw [hrecords']
          exact add?_eq_some_iff.1 hnext
        · rw [hrecords']
          exact hnonneg

theorem Assigned.completed (h : Assigned g as bs g') : List.Forall₂ Add.CompletedBy as bs := by
  induction h with
  | nil g => exact .nil
  | cons ha _ ih => exact .cons (assignAdd_eq_ok ha).1 ih

/-- The ids that are given out follow each other from the assigner's next id on. -/
theorem Assigned.granted (h : Assigned g as bs g') :
    g.next.toInt ≤ g'.next.toInt ∧
      (∀ r ∈ Add.granted as bs, r.Between (g.next.toInt - 1) (g'.next.toInt - 1)) ∧
      (Add.granted as bs).Pairwise IdRange.Disjoint := by
  induction h with
  | nil g => exact ⟨Int.le_refl _, nofun, .nil⟩
  | @cons g g' g'' a b as bs ha _ ih =>
    obtain ⟨hle, hbetween, hdisjoint⟩ := ih
    obtain ⟨-, ⟨hnone, hnext⟩ | ⟨hsome, hnext, hnonneg⟩⟩ := assignAdd_eq_ok ha
    · have hg : Add.granted (a :: as) (b :: bs) = Add.granted as bs :=
        List.filterMap_cons_none hnone
      rw [hg, ← hnext]
      exact ⟨hle, hbetween, hdisjoint⟩
    · have hg : Add.granted (a :: as) (b :: bs) = ⟨g.next.toInt, b.records⟩ :: Add.granted as bs :=
        List.filterMap_cons_some hsome
      rw [hg]
      refine ⟨by omega, ?_, ?_⟩
      · refine List.forall_mem_cons.2 ⟨⟨by simp only; omega, by simp only; omega⟩, ?_⟩
        intro r hr
        exact (hbetween r hr).mono (by omega) (Int.le_refl _)
      · refine List.pairwise_cons.2 ⟨?_, hdisjoint⟩
        intro r hr id hid
        have hfirst := (hbetween r hr).1
        have hlast := hid.1.2
        have hlow := hid.2.1
        simp only at hlast
        omega

theorem assignAdd_filled (h : g.assignAdd a = .ok (b, g')) :
    b = g.complete a (a.baseRowId.getD g.next) ∧ g'.next.toInt = g.next.toInt + a.taken ∧
      g'.commitVersion = g.commitVersion := by
  rw [assignAdd] at h
  split at h
  · rename_i base hbase
    obtain ⟨rfl, rfl⟩ := Prod.mk.inj (Except.ok.inj h)
    simp [Add.taken, hbase]
  · rename_i hbase
    split at h
    · cases h
    · rename_i n hn
      split at h
      · cases h
      · rename_i next hnext
        obtain ⟨rfl, rfl⟩ := Prod.mk.inj (Except.ok.inj h)
        have hrecords := (Add.records_of_requiredCount hn).1
        have hadd := add?_eq_some_iff.1 hnext
        simp [Add.taken, hbase, hrecords, hadd]

theorem Assigned.next_eq (h : Assigned g as bs g') :
    g'.next.toInt = g.next.toInt + (as.map Add.taken).sum := by
  induction h with
  | nil g => exact (Int.add_zero _).symm
  | cons ha _ ih =>
    rw [List.map_cons, List.sum_cons, ih, (assignAdd_filled ha).2.1]
    omega

theorem Assigned.next_le (h : Assigned g as bs g') (hn : ∀ a ∈ as, 0 ≤ a.records) :
    g'.next.toInt ≤ g.next.toInt + (as.map Add.records).sum := by
  have hle := Add.taken_sum_le hn
  rw [h.next_eq]
  omega

theorem start_eq_ok {mark commitVersion : Int64} (h : start mark commitVersion = .ok g) :
    g.next.toInt = mark.toInt + 1 := by
  rw [start] at h
  split at h
  · cases h
  · rename_i next hnext
    rw [← Except.ok.inj h]
    exact add?_eq_some_iff.1 hnext

theorem start_maxValue (commitVersion : Int64) :
    start Int64.maxValue commitVersion =
      .error (.overflow "Row id high water mark is at its maximum") := by
  have hnone : add? Int64.maxValue 1 = none := by decide
  rw [start, hnone]

theorem exists_start {mark : Int64} (h : mark ≠ Int64.maxValue) (commitVersion : Int64) :
    ∃ g, start mark commitVersion = .ok g := by
  have hlt := ne_maxValue_iff.1 h
  have hle := mark.le_toInt
  have hone : (1 : Int64).toInt = 1 := by decide
  rw [start]
  cases hadd : add? mark 1 with
  | some next => exact ⟨_, rfl⟩
  | none => exact absurd ⟨by omega, by omega⟩ (word?_eq_none_iff.1 hadd)

end RowIdAssigner

def Action.files (as : List Add) (rs : List Remove) : List Action := as.map .add ++ rs.map .remove

theorem Action.adds_files (as : List Add) (rs : List Remove) :
    (files as rs).filterMap add? = as := by
  have hadds : (as.map Action.add).filterMap add? = as := by
    rw [List.filterMap_map]
    exact List.filterMap_some
  have hremoves : (rs.map Action.remove).filterMap add? = [] := by
    rw [List.filterMap_map]
    exact List.filterMap_eq_nil_iff.2 fun _ _ ↦ rfl
  rw [files, List.filterMap_append, hadds, hremoves, List.append_nil]

namespace RowTracking

open RowIdAssigner

variable {g : RowIdAssigner} {as : List Add} {rs : List Remove} {cs : List Action} {w : RowTracking}

theorem make_eq_ok {supported : Bool} {s : Snapshot} {v : Version}
    (h : make supported s v = .ok w) :
    v.word? = some w.commitVersion ∧ w.supported = supported ∧
      (supported → s.highWaterMark = .ok w.highWaterMark) := by
  rw [make] at h
  split at h
  · cases h
  · rename_i commitVersion hv
    split at h
    · rename_i hs
      obtain ⟨mark, hmark, h⟩ := Outcome.bind_eq_ok_iff.1 h
      obtain rfl := Except.ok.inj h
      exact ⟨hv, rfl, fun _ ↦ hmark⟩
    · rename_i hs
      obtain rfl := Except.ok.inj h
      exact ⟨hv, rfl, fun h ↦ absurd h hs⟩

theorem assignAll_cons_eq_ok {x : Outcome Action} {xs : List (Outcome Action)}
    (h : assignAll g (x :: xs) = cs.map .ok) :
    ∃ a b g' cs', x = .ok a ∧ g.assign a = .ok (b, g') ∧ assignAll g' xs = cs'.map .ok ∧
      cs = b :: cs' := by
  cases x with
  | error e => exact absurd h Results.error_cons_ne
  | ok a =>
    rw [assignAll] at h
    cases hb : g.assign a with
    | error e =>
      rw [hb] at h
      exact absurd h Results.error_cons_ne
    | ok r =>
      rw [hb] at h
      cases cs with
      | nil => cases h
      | cons c cs =>
        obtain ⟨hc, htail⟩ := List.cons.inj h
        obtain rfl := Except.ok.inj hc
        exact ⟨a, r.1, r.2, cs, rfl, hb, htail, rfl⟩

theorem ok_of_assignAll {xs : List (Outcome Action)} (h : assignAll g xs = cs.map .ok) :
    ∃ ys : List Action, xs = ys.map .ok := by
  induction xs generalizing g cs with
  | nil => exact ⟨[], rfl⟩
  | cons x xs ih =>
    obtain ⟨a, b, g', cs, rfl, -, htail, -⟩ := assignAll_cons_eq_ok h
    obtain ⟨ys, rfl⟩ := ih htail
    exact ⟨a :: ys, rfl⟩

theorem assignAll_removes :
    assignAll g ((rs.map Action.remove).map .ok) = (rs.map Action.remove).map .ok := by
  induction rs with
  | nil => rfl
  | cons r rs ih => exact congrArg (.ok (.remove r) :: ·) ih

theorem assignAll_files (h : assignAll g ((Action.files as rs).map .ok) = cs.map .ok) :
    ∃ bs g', Assigned g as bs g' ∧ cs = Action.files bs rs := by
  induction as generalizing g cs with
  | nil =>
    refine ⟨[], g, .nil g, ?_⟩
    have hr : (cs.map Except.ok : List (Outcome Action)) = (rs.map Action.remove).map .ok :=
      h.symm.trans assignAll_removes
    exact (List.map_inj_right fun _ _ ↦ Except.ok.inj).1 hr
  | cons a as ih =>
    obtain ⟨_, _, g₁, cs, ha, hb, htail, rfl⟩ := assignAll_cons_eq_ok h
    obtain rfl := Except.ok.inj ha
    obtain ⟨⟨b, g₂⟩, hadd, he⟩ := Outcome.map_eq_ok_iff.1 hb
    obtain ⟨rfl, rfl⟩ := Prod.mk.inj he
    obtain ⟨bs, g', hassigned, rfl⟩ := ih htail
    exact ⟨b :: bs, g', .cons hadd hassigned, rfl⟩

theorem feed_raise {mark mark' : Int64} (h : Trace.feed raise mark (cs.map .ok) = .ok mark') :
    mark'.toInt = mark.toInt + ((cs.filterMap Action.add?).map Add.records).sum ∧
      ∀ a ∈ cs.filterMap Action.add?, ∃ n, a.requiredCount = .ok n := by
  induction cs generalizing mark with
  | nil =>
    have hm : mark = mark' := Except.ok.inj h
    simp [hm]
  | cons c cs ih =>
    cases c with
    | add a =>
      rw [List.map_cons, Trace.feed, raise] at h
      cases hn : a.requiredCount with
      | error e => simp [hn] at h
      | ok n =>
        simp only [hn] at h
        cases hm : add? mark n with
        | none => simp [hm] at h
        | some m =>
          simp only [hm] at h
          obtain ⟨hsum, hcounts⟩ := ih h
          have hrecords := (Add.records_of_requiredCount hn).1
          have hadd := add?_eq_some_iff.1 hm
          rw [List.filterMap_cons_some (show Action.add? (.add a) = some a from rfl)]
          refine ⟨?_, List.forall_mem_cons.2 ⟨⟨n, hn⟩, hcounts⟩⟩
          rw [List.map_cons, List.sum_cons]
          omega
    | _ => exact ih h

theorem failure_of_feed {σ : Type} {read : σ → Action → Outcome σ} {s s' : σ}
    {xs : List (Outcome Action)} (h : Trace.feed read s xs = .ok s') :
    Results.failure xs = none := by
  induction xs generalizing s with
  | nil => rfl
  | cons x xs ih =>
    cases x with
    | error e => cases h
    | ok a =>
      rw [Trace.feed] at h
      split at h
      · exact ih h
      · cases h

variable {o : Opening}

theorem wrap_supported (hw : w.supported) {body : Trace} (h : (w.wrap o).result = .ok body) :
    ∃ t g, o.result = .ok t ∧ start w.highWaterMark w.commitVersion = .ok g ∧
      (w.wrap o).start = o.start ∧
      body.items = assignAll g t.items := by
  rw [wrap, if_pos hw] at h ⊢
  cases ht : o.result with
  | error e => simp [ht] at h
  | ok t =>
    cases hg : start w.highWaterMark w.commitVersion with
    | error e => simp [ht, hg] at h
    | ok g =>
      simp only [ht, hg] at h ⊢
      rw [← Except.ok.inj h]
      exact ⟨t, g, rfl, rfl, trivial, items_assignFrom _ _ _⟩

/-- The mark that goes into a commit: none if no file has records, the raised one otherwise. -/
theorem update_eq_ok {mark : Option DomainMetadata} (hw : w.supported) (ho : o.start.items = [])
    (h : (w.update o).2 = .ok mark) :
    ∃ t g, ∃ ys : List Action, ∃ m,
      o.result = .ok t ∧ start w.highWaterMark w.commitVersion = .ok g ∧
      assignAll g t.items = ys.map .ok ∧ Trace.feed raise w.highWaterMark (ys.map .ok) = .ok m ∧
      mark = if m = w.highWaterMark then none else some (HighWaterMark.toDomain ⟨m⟩) := by
  rw [update, if_pos hw] at h
  obtain ⟨m, hm, rfl⟩ := Outcome.map_eq_ok_iff.1 h
  rw [Opening.drain] at hm
  split at hm
  · rename_i body hbody
    obtain ⟨t, g, ht, hg, hstart, hitems⟩ := wrap_supported hw hbody
    rw [Trace.drainFrom_outcome, Trace.items_append, hstart, ho, List.nil_append, hitems] at hm
    have hok := Results.eq_ok_of_failure (failure_of_feed hm)
    exact ⟨t, g, _, m, ht, hg, hok, hok ▸ hm, rfl⟩
  · cases hm

end RowTracking

end TableLog
