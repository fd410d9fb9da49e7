import TableLog.Proofs.Assignment

namespace TableLog

namespace Action

def records : Action → Int
  | add a => a.records
  | _ => 0

theorem sum_adds {f : Action → Int} {count : Add → Int} (hadd : ∀ a, f (add a) = count a)
    (hrest : ∀ x : Action, x.add? = none → f x = 0) (as : List Action) :
    (as.map f).sum = ((as.filterMap add?).map count).sum := by
  induction as with
  | nil => rfl
  | cons x as ih =>
    rw [List.map_cons, List.sum_cons, ih]
    cases hx : x.add? with
    | none => rw [List.filterMap_cons_none hx, hrest x hx, Int.zero_add]
    | some a =>
      cases x with
      | add b =>
        obtain rfl := Option.some.inj hx
        rw [List.filterMap_cons_some hx, List.map_cons, List.sum_cons, hadd]
      | _ => cases hx

theorem sum_taken (as : List Action) :
    (as.map taken).sum = ((as.filterMap add?).map Add.taken).sum := by
  apply sum_adds (fun _ ↦ rfl)
  intro x hx
  cases x with
  | add a => cases hx
  | _ => rfl

theorem sum_records (as : List Action) :
    (as.map records).sum = ((as.filterMap add?).map Add.records).sum := by
  apply sum_adds (fun _ ↦ rfl)
  intro x hx
  cases x with
  | add a => cases hx
  | _ => rfl

end Action

namespace Add

/-- Added files whose numbers of records are known, and small enough
for what comes behind the mark. -/
structure Fit (mark : Int64) (adds : List Add) : Prop where
  counted : ∀ a ∈ adds, a.Counted
  ids : mark.toInt + 1 + (adds.map taken).sum ≤ Int64.maxValue.toInt
  marks : mark.toInt + (adds.map records).sum ≤ Int64.maxValue.toInt

variable {mark : Int64} {a : Add} {adds others : List Add}

theorem Counted.records_nonneg (h : a.Counted) : 0 ≤ a.records := by
  obtain ⟨n, hn⟩ := counted_iff.1 h
  obtain ⟨hrecords, hnonneg⟩ := records_of_requiredCount hn
  omega

theorem Counted.taken_nonneg (h : a.Counted) : 0 ≤ a.taken := by
  rw [taken]
  split
  · exact Int.le_refl 0
  · exact h.records_nonneg

theorem sum_nonneg {count : Add → Int} (h : ∀ a ∈ adds, 0 ≤ count a) :
    0 ≤ (adds.map count).sum := by
  apply List.sum_nonneg
  intro n hn
  obtain ⟨a, ha, rfl⟩ := List.mem_map.1 hn
  exact h a ha

theorem sum_records_eq_zero_iff (h : ∀ a ∈ adds, a.Counted) :
    (adds.map records).sum = 0 ↔ ∀ a ∈ adds, a.records = 0 := by
  induction adds with
  | nil => simp
  | cons a adds ih =>
    obtain ⟨ha, hrest⟩ := List.forall_mem_cons.1 h
    have hfirst := ha.records_nonneg
    have hsum := sum_nonneg fun b hb ↦ (hrest b hb).records_nonneg
    rw [List.map_cons, List.sum_cons, List.forall_mem_cons, ← ih hrest]
    omega

theorem Fit.perm (h : Fit mark adds) (hp : adds.Perm others) : Fit mark others where
  counted a ha := h.counted a (hp.mem_iff.2 ha)
  ids := (hp.map taken).sum_eq ▸ h.ids
  marks := (hp.map records).sum_eq ▸ h.marks

theorem Fit.upto {before later : List Add} (h : Fit mark (before ++ a :: later)) :
    a.Counted ∧ mark.toInt + 1 + (before.map taken).sum + a.taken ≤ Int64.maxValue.toInt ∧
      mark.toInt + (before.map records).sum + a.records ≤ Int64.maxValue.toInt := by
  have hlater : ∀ b ∈ later, b.Counted := fun b hb ↦
    h.counted b (List.mem_append_right before (List.mem_cons_of_mem a hb))
  have hids := h.ids
  have hmarks := h.marks
  rw [List.map_append, List.sum_append, List.map_cons, List.sum_cons] at hids hmarks
  have htaken := sum_nonneg fun b hb ↦ (hlater b hb).taken_nonneg
  have hrecords := sum_nonneg fun b hb ↦ (hlater b hb).records_nonneg
  exact ⟨h.counted a (List.mem_append_right before List.mem_cons_self), by omega, by omega⟩

end Add

namespace RowTracking

open RowIdAssigner

/-- Why an action cannot be counted, once this many records have been added to the mark. -/
inductive Uncountable (mark : Int64) (counted : Int) : Action → Error → Prop
  | uncounted {a : Add} {e : Error} : a.Uncounted e → Uncountable mark counted (.add a) e
  | exceeding {a : Add} : a.Counted → Int64.maxValue.toInt < mark.toInt + counted + a.records →
      Uncountable mark counted (.add a) (.overflow "Row id high water mark exceeds i64")

/-- Recounting stops at an action with these before it. Row ids come first. -/
def Stops (mark : Int64) (before : List Action) (x : Action) (e : Error) : Prop :=
  Refuses mark (before.map Action.taken).sum (.ok x) e ∨
    (∀ e', ¬Refuses mark (before.map Action.taken).sum (.ok x) e') ∧
      Uncountable mark (before.map Action.records).sum x e

/-- The earliest action at which recounting stops. -/
def StopsFirst (mark : Int64) (before as : List Action) (e : Error) : Prop :=
  ∃ passed x later, as = passed ++ x :: later ∧ Stops mark (before ++ passed) x e ∧
    ∀ i y, passed[i]? = some y → ∀ e', ¬Stops mark (before ++ passed.take i) y e'

section Steps

variable {g g' : RowIdAssigner} {mark m m' : Int64} {counted : Int} {before as : List Action}
  {x y : Action} {e : Error}

theorem uncountable_iff (hm : m.toInt = mark.toInt + counted) :
    Uncountable mark counted x e ↔ raise m x = .error e := by
  constructor
  · intro h
    cases h with
    | uncounted hcount =>
      rw [raise]
      simp only [Add.uncounted_iff.1 hcount]
    | exceeding hcount hlarge =>
      obtain ⟨n, hn⟩ := Add.counted_iff.1 hcount
      obtain ⟨hrecords, hnonneg⟩ := Add.records_of_requiredCount hn
      have hnone : add? m n = none := (add?_eq_none_iff hnonneg).2 (by omega)
      rw [raise]
      simp only [hn, hnone]
  · intro h
    cases x with
    | add a =>
      rw [raise] at h
      cases hn : a.requiredCount with
      | error e' =>
        simp only [hn] at h
        obtain rfl := Except.error.inj h
        exact .uncounted (Add.uncounted_iff.2 hn)
      | ok n =>
        simp only [hn] at h
        obtain ⟨hrecords, hnonneg⟩ := Add.records_of_requiredCount hn
        cases hadd : add? m n with
        | some next =>
          simp only [hadd] at h
          cases h
        | none =>
          simp only [hadd] at h
          obtain rfl := Except.error.inj h
          have hlarge := (add?_eq_none_iff hnonneg).1 hadd
          exact .exceeding (Add.counted_iff.2 ⟨n, hn⟩) (by omega)
    | _ => cases h

theorem raise_eq_ok (h : raise m x = .ok m') : m'.toInt = m.toInt + x.records := by
  cases x with
  | add a =>
    rw [raise] at h
    cases hn : a.requiredCount with
    | error e => simp [hn] at h
    | ok n =>
      cases hadd : add? m n with
      | none => simp [hn, hadd] at h
      | some next =>
        simp only [hn, hadd] at h
        obtain rfl := Except.ok.inj h
        have hrecords := (Add.records_of_requiredCount hn).1
        rw [add?_eq_some_iff.1 hadd, Action.records, hrecords]
  | _ =>
    obtain rfl := Except.ok.inj h
    exact (Int.add_zero _).symm

theorem raise_assigned (h : g.assign x = .ok (y, g')) : raise m y = raise m x := by
  obtain ⟨rfl, -, -⟩ := assign_filled h
  cases x <;> rfl

theorem stops_of_refused
    (hg : g.next.toInt = mark.toInt + 1 + (before.map Action.taken).sum) {e' : Error}
    (hx : g.assign x = .error e') : Stops mark before x e ↔ e' = e := by
  simp only [Stops, refuses_iff hg, hx, Except.error.injEq]
  constructor
  · intro h
    rcases h with h | ⟨hnot, -⟩
    · exact h
    · exact absurd rfl (hnot e')
  · exact .inl

theorem stops_of_assigned (hg : g.next.toInt = mark.toInt + 1 + (before.map Action.taken).sum)
    (hm : m.toInt = mark.toInt + (before.map Action.records).sum) (hx : g.assign x = .ok (y, g')) :
    Stops mark before x e ↔ raise m x = .error e := by
  simp only [Stops, refuses_iff hg, uncountable_iff hm, hx]
  simp

theorem stopsFirst_cons_of_stops {e' : Error} (hx : Stops mark before x e') :
    StopsFirst mark before (x :: as) e ↔ Stops mark before x e := by
  constructor
  · intro h
    obtain ⟨passed, y, later, has, hy, hearlier⟩ := h
    cases passed with
    | nil =>
      obtain ⟨rfl, -⟩ := List.cons.inj has
      rwa [List.append_nil] at hy
    | cons z passed =>
      obtain ⟨rfl, -⟩ := List.cons.inj has
      refine absurd hx ?_
      rw [← List.append_nil before]
      exact hearlier 0 x rfl e'
  · intro h
    refine ⟨[], x, as, rfl, ?_, fun i y hy ↦ ?_⟩
    · rwa [List.append_nil]
    · simp at hy

theorem stopsFirst_cons_of_passes (hx : ∀ e', ¬Stops mark before x e') :
    StopsFirst mark before (x :: as) e ↔ StopsFirst mark (before ++ [x]) as e := by
  constructor
  · intro h
    obtain ⟨passed, y, later, has, hy, hearlier⟩ := h
    cases passed with
    | nil =>
      obtain ⟨rfl, -⟩ := List.cons.inj has
      rw [List.append_nil] at hy
      exact absurd hy (hx e)
    | cons z passed =>
      obtain ⟨rfl, rfl⟩ := List.cons.inj has
      refine ⟨passed, y, later, rfl, ?_, fun i z hz e' ↦ ?_⟩
      · rwa [List.append_assoc]
      · rw [List.append_assoc]
        exact hearlier (i + 1) z hz e'
  · intro h
    obtain ⟨passed, y, later, rfl, hy, hearlier⟩ := h
    refine ⟨x :: passed, y, later, rfl, ?_, fun i z hz e' ↦ ?_⟩
    · rwa [List.append_cons]
    · cases i with
      | zero =>
        obtain rfl := Option.some.inj hz
        rw [List.take_zero, List.append_nil]
        exact hx e'
      | succ i =>
        rw [List.take_succ_cons, List.append_cons]
        exact hearlier i z hz e'

/-- Recounting fails just where and why it stops. -/
theorem feed_eq_error_iff (hg : g.next.toInt = mark.toInt + 1 + (before.map Action.taken).sum)
    (hm : m.toInt = mark.toInt + (before.map Action.records).sum) :
    Trace.feed raise m (assignAll g (as.map .ok)) = .error e ↔ StopsFirst mark before as e := by
  induction as generalizing g m before with
  | nil =>
    constructor
    · exact nofun
    · intro h
      obtain ⟨passed, x, later, has, -⟩ := h
      simp at has
  | cons x as ih =>
    rw [List.map_cons, assignAll]
    cases hx : g.assign x with
    | error e' =>
      have hstops {e} := stops_of_refused (e := e) hg hx
      rw [stopsFirst_cons_of_stops (hstops.2 rfl), hstops]
      exact Except.error.injEq e' e ▸ Iff.rfl
    | ok r =>
      obtain ⟨y, g'⟩ := r
      have hstops {e} := stops_of_assigned (e := e) hg hm hx
      simp only [Trace.feed, raise_assigned hx]
      cases hraise : raise m x with
      | error e' =>
        rw [stopsFirst_cons_of_stops (hstops.2 hraise), hstops, hraise]
      | ok m' =>
        have hnext := (assign_filled hx).2.1
        have hraised := raise_eq_ok hraise
        rw [stopsFirst_cons_of_passes (fun e' ↦ by simp [hstops, hraise])]
        apply ih
        all_goals
          rw [List.map_append, List.sum_append, List.map_singleton, List.sum_singleton]
          omega

theorem not_stopsFirst_of_fit (h : Add.Fit mark (as.filterMap Action.add?)) :
    ¬StopsFirst mark [] as e := by
  rintro ⟨passed, x, later, rfl, hstops, -⟩
  have hadd {a : Add} (hx : x = .add a) : a.Counted ∧
      mark.toInt + 1 + (passed.map Action.taken).sum + a.taken ≤ Int64.maxValue.toInt ∧
        mark.toInt + (passed.map Action.records).sum + a.records ≤ Int64.maxValue.toInt := by
    subst hx
    rw [List.filterMap_append,
      List.filterMap_cons_some (show Action.add? (.add a) = some a from rfl)] at h
    rw [Action.sum_taken, Action.sum_records]
    exact h.upto
  have hcounted {a : Add} {e : Error} (hx : x = .add a) : ¬a.Uncounted e := by
    obtain ⟨n, hn⟩ := Add.counted_iff.1 (hadd hx).1
    rw [Add.uncounted_iff, hn]
    exact nofun
  rcases hstops with hrefuses | ⟨-, huncountable⟩
  · cases hrefuses with
    | uncounted _ hcount => exact hcounted rfl hcount
    | @exceeding a hbase _ hlarge =>
      have htaken : a.taken = a.records := by rw [Add.taken, hbase]; rfl
      have hids := (hadd rfl).2.1
      rw [List.nil_append] at hlarge
      omega
  · cases huncountable with
    | uncounted hcount => exact hcounted rfl hcount
    | exceeding _ hlarge =>
      have hmarks := (hadd rfl).2.2
      rw [List.nil_append] at hlarge
      omega

end Steps

section Recount

variable {w : RowTracking} {o : Opening} {as : List Action} {g : RowIdAssigner}
  {mark : Option DomainMetadata} {e : Error} (hw : w.supported = true) (ho : o.start.items = [])
  (h : o.inline.items = as.map .ok)
include hw ho h

theorem update_of_items (hg : start w.highWaterMark w.commitVersion = .ok g) :
    (w.update o).2 = (Trace.feed raise w.highWaterMark (assignAll g (as.map .ok))).map fun m ↦
      if m = w.highWaterMark then none else some (HighWaterMark.toDomain ⟨m⟩) := by
  obtain ⟨t, ht, hitems⟩ := Opening.opened_of_items ho h
  obtain ⟨out, hout, hassigned⟩ := wrap_eq_ok hw ht hg
  obtain ⟨-, -, -, -, hstart, -⟩ := wrap_supported hw hout
  rw [update, if_pos hw]
  simp only [Opening.drain, hout, Trace.drainFrom_outcome]
  rw [Trace.items_append, hstart, ho, List.nil_append, hassigned, hitems]

theorem fit_of_update (hok : (w.update o).2 = .ok mark) :
    Add.Fit w.highWaterMark (as.filterMap Action.add?) ∧ ∃ high : Int64,
      high.toInt = w.highWaterMark.toInt + ((as.filterMap Action.add?).map Add.records).sum ∧
        mark = if high = w.highWaterMark then none else some (HighWaterMark.toDomain ⟨high⟩) := by
  obtain ⟨as', bs, g, g', high, hitems, hagrees⟩ := agrees_of_update hw ho hok
  obtain rfl : as = as' := (List.map_inj_right fun _ _ ↦ Except.ok.inj).1 (h.symm.trans hitems)
  have hnext := (assigned_of_assignEach hagrees.assigned).2.next_eq
  have hfirst := start_eq_ok hagrees.started
  have hraised := hagrees.raised
  have hlast := g'.next.toInt_le
  have hhigh := high.toInt_le
  exact ⟨⟨fun a ha ↦ Add.counted_iff.2 (hagrees.counts a ha), by omega, by omega⟩, high, hraised,
    hagrees.marked⟩

theorem mark_of_update (hu : (w.update o).2 = .ok mark) :
    (mark = none ↔ ∀ a ∈ as.filterMap Action.add?, a.records = 0) ∧
      ∀ d, mark = some d → d.domain = HighWaterMark.domain ∧ d.removed = false ∧ ∃ high : Int64,
        HighWaterMark.decode? d.configuration = some ⟨high⟩ ∧ w.highWaterMark.toInt < high.toInt ∧
          high.toInt = w.highWaterMark.toInt +
            ((as.filterMap Action.add?).map Add.records).sum := by
  obtain ⟨hfit, high, hhigh, rfl⟩ := fit_of_update hw ho h hu
  have hzero := Add.sum_records_eq_zero_iff hfit.counted
  have hnonneg := Add.sum_nonneg fun a ha ↦ (hfit.counted a ha).records_nonneg
  by_cases he : high = w.highWaterMark
  · rw [if_pos he, ← hzero]
    rw [he] at hhigh
    exact ⟨⟨fun _ ↦ by omega, fun _ ↦ rfl⟩, nofun⟩
  · have hne := mt Int64.toInt_inj.1 he
    rw [if_neg he, ← hzero]
    refine ⟨⟨nofun, fun hsum ↦ by omega⟩, fun d hd ↦ ?_⟩
    obtain rfl := Option.some.inj hd
    exact ⟨rfl, rfl, high, HighWaterMark.decode?_encode ⟨high⟩, by omega, hhigh⟩

variable (hmark : w.highWaterMark ≠ Int64.maxValue)
include hmark

theorem update_eq_error_iff : (w.update o).2 = .error e ↔ StopsFirst w.highWaterMark [] as e := by
  obtain ⟨g, hg⟩ := exists_start hmark w.commitVersion
  have hfirst := start_eq_ok hg
  rw [update_of_items hw ho h hg, Outcome.map_eq_error_iff]
  apply feed_eq_error_iff
  · exact hfirst.trans (Int.add_zero _).symm
  · exact (Int.add_zero _).symm

theorem update_isOk_iff :
    (∃ mark, (w.update o).2 = .ok mark) ↔ Add.Fit w.highWaterMark (as.filterMap Action.add?) := by
  constructor
  · intro hok
    obtain ⟨mark, hok⟩ := hok
    exact (fit_of_update hw ho h hok).1
  · intro hfit
    cases hok : (w.update o).2 with
    | error e =>
      exact absurd ((update_eq_error_iff hw ho h hmark).1 hok) (not_stopsFirst_of_fit hfit)
    | ok mark => exact ⟨mark, rfl⟩

theorem update_eq_ok_iff :
    (w.update o).2 = .ok mark ↔ Add.Fit w.highWaterMark (as.filterMap Action.add?) ∧ ∃ high : Int64,
      high.toInt = w.highWaterMark.toInt + ((as.filterMap Action.add?).map Add.records).sum ∧
        mark = if high = w.highWaterMark then none else some (HighWaterMark.toDomain ⟨high⟩) := by
  constructor
  · exact fit_of_update hw ho h
  · rintro ⟨hfit, high, hhigh, rfl⟩
    obtain ⟨mark, hok⟩ := (update_isOk_iff hw ho h hmark).2 hfit
    -- the sum determines the mark
    obtain ⟨-, high', hhigh', rfl⟩ := fit_of_update hw ho h hok
    rw [hok, Int64.toInt_inj.1 (hhigh'.trans hhigh.symm)]

end Recount

/-- Recounting the high water mark of a commit is a matter of sums. It succeeds if all
added files are counted and both the row ids and the mark stay words; then the mark
rises by all records, and is written unless there are none. So the order of the actions
makes no difference to it. Where it fails, the error is that of the earliest action at
which giving out row ids or else counting fails. -/
theorem recount_closed_form {w : RowTracking} (hw : w.supported = true)
    (hmark : w.highWaterMark ≠ Int64.maxValue) {s : Source} {turn : Nat} {as : List Action}
    (hs : (s.traverse turn).inline.items = as.map .ok) :
    ((∃ mark, (w.update (s.traverse turn)).2 = .ok mark) ↔
      Add.Fit w.highWaterMark (as.filterMap Action.add?)) ∧
    (∀ mark, (w.update (s.traverse turn)).2 = .ok mark →
      (mark = none ↔ ∀ a ∈ as.filterMap Action.add?, a.records = 0) ∧
      ∀ d, mark = some d → d.domain = HighWaterMark.domain ∧ d.removed = false ∧ ∃ high : Int64,
        HighWaterMark.decode? d.configuration = some ⟨high⟩ ∧ w.highWaterMark.toInt < high.toInt ∧
          high.toInt = w.highWaterMark.toInt + ((as.filterMap Action.add?).map Add.records).sum) ∧
    (∀ (s' : Source) (turn' : Nat) (as' : List Action),
      (s'.traverse turn').inline.items = as'.map .ok → as.Perm as' →
      ∀ mark, (w.update (s.traverse turn)).2 = .ok mark ↔
        (w.update (s'.traverse turn')).2 = .ok mark) ∧
    ∀ e, (w.update (s.traverse turn)).2 = .error e ↔ StopsFirst w.highWaterMark [] as e := by
  have ho := s.items_start turn
  refine ⟨update_isOk_iff hw ho hs hmark, fun mark ↦ mark_of_update hw ho hs,
    fun s' turn' as' hs' hp mark ↦ ?_, fun e ↦ update_eq_error_iff hw ho hs hmark⟩
  have hadds := hp.filterMap Action.add?
  have hsum := (hadds.map Add.records).sum_eq
  rw [update_eq_ok_iff hw ho hs hmark, update_eq_ok_iff hw (s'.items_start turn') hs' hmark, hsum]
  exact and_congr_left fun _ ↦ ⟨fun hfit ↦ hfit.perm hadds, fun hfit ↦ hfit.perm hadds.symm⟩

theorem recount_closed_form_reordered :
    let w : RowTracking := ⟨true, 9, 3⟩
    let s : Source := .actions Sample.mixed
    let s' : Source := .chain [.actions (Sample.mixed.drop 2), .actions (Sample.mixed.take 2)]
    w.supported = true ∧ w.highWaterMark ≠ Int64.maxValue ∧
      (s.traverse 0).inline.items = Sample.mixed.map .ok ∧
      (w.update (s.traverse 0)).2 = .ok (some (HighWaterMark.toDomain ⟨17⟩)) ∧
      (w.update (s'.traverse 1)).2 = .ok (some (HighWaterMark.toDomain ⟨17⟩)) ∧
      Add.Fit 9 [Sample.file "a" 5, { Sample.file "b" 3 with baseRowId := some 2 },
        Sample.file "c" 0] := by
  intro w s s'
  have hmark : w.highWaterMark ≠ Int64.maxValue := by decide
  have hs : (s.traverse 0).inline.items = Sample.mixed.map .ok := rfl
  have hs' : (s'.traverse 1).inline.items = (Sample.mixed.drop 2 ++ Sample.mixed.take 2).map .ok :=
    rfl
  have hupdate : (w.update (s.traverse 0)).2 = .ok (some (HighWaterMark.toDomain ⟨17⟩)) := by
    decide +kernel
  obtain ⟨hfit, -, hreordered, -⟩ := recount_closed_form (w := w) rfl hmark hs
  have hperm : Sample.mixed.Perm (Sample.mixed.drop 2 ++ Sample.mixed.take 2) := by
    rw [← List.take_append_drop 2 Sample.mixed]
    exact List.perm_append_comm
  exact ⟨rfl, hmark, hs, hupdate, (hreordered s' 1 _ hs' hperm _).1 hupdate, hfit.1 ⟨_, hupdate⟩⟩

end RowTracking

end TableLog
