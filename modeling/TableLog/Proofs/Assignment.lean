import TableLog.Proofs.Composition

namespace TableLog

namespace IdRange

/-- Ranges that follow each other without a gap, from one id up to another. -/
inductive Consecutive : Int → List IdRange → Int → Prop
  | nil (a : Int) : Consecutive a [] a
  | cons {b : Int} {r : IdRange} {rs : List IdRange} :
      0 ≤ r.count → Consecutive (r.first + r.count) rs b → Consecutive r.first (r :: rs) b

variable {a b : Int} {rs : List IdRange}

theorem Consecutive.le (h : Consecutive a rs b) : a ≤ b := by
  induction h with
  | nil a => exact Int.le_refl a
  | cons hcount _ ih => omega

theorem Consecutive.union (h : Consecutive a rs b) (id : Int) :
    (∃ r ∈ rs, r.Has id) ↔ a ≤ id ∧ id < b := by
  induction h with
  | nil a => simp
  | cons hcount hrest ih =>
    have hle := hrest.le
    rw [List.exists_mem_cons_iff, ih, Has]
    omega

end IdRange

namespace Add

/-- The statistics give the number of records, and it is one. -/
def Counted (a : Add) : Prop :=
  ∃ stats n, a.stats = some stats ∧ recordCount? stats = some (some n) ∧ 0 ≤ n.toInt

inductive Uncounted (a : Add) : Error → Prop
  | malformed {stats : String} : a.stats = some stats → recordCount? stats = none →
      Uncounted a .malformedJson
  | missing : (∀ stats, a.stats = some stats → recordCount? stats = some none) →
      Uncounted a (.missingStatistics a.path)
  | negative {stats : String} {n : Int64} : a.stats = some stats →
      recordCount? stats = some (some n) → n.toInt < 0 →
      Uncounted a
      (.generic s!"numRecords must not be negative (path: {a.path}, numRecords: {n.toInt})")

variable {a : Add} {e : Error}

theorem counted_iff : a.Counted ↔ ∃ n, a.requiredCount = .ok n := by
  constructor
  · intro h
    obtain ⟨stats, n, hstats, hcount, hn⟩ := h
    have hneg : ¬n < 0 := by
      rw [Int64.lt_iff_toInt_lt]
      exact Int.not_lt.2 hn
    refine ⟨n, ?_⟩
    simp only [requiredCount, recordCount, hstats, hcount, if_neg hneg]
  · intro h
    obtain ⟨n, hn⟩ := h
    have hnonneg := (records_of_requiredCount hn).2
    rw [requiredCount, recordCount] at hn
    cases hstats : a.stats with
    | none => simp [hstats] at hn
    | some stats =>
      cases hcount : recordCount? stats with
      | none => simp [hstats, hcount] at hn
      | some count =>
        cases count with
        | none => simp [hstats, hcount] at hn
        | some m =>
          simp only [hstats, hcount] at hn
          split at hn
          · cases hn
          · obtain rfl := Except.ok.inj hn
            exact ⟨stats, m, hstats, hcount, hnonneg⟩

theorem uncounted_iff : a.Uncounted e ↔ a.requiredCount = .error e := by
  constructor
  · intro h
    cases h with
    | malformed hstats hcount => simp only [requiredCount, recordCount, hstats, hcount]
    | missing hnone =>
      cases hstats : a.stats with
      | none => simp only [requiredCount, recordCount, hstats]
      | some stats => simp only [requiredCount, recordCount, hstats, hnone stats hstats]
    | @negative stats n hstats hcount hneg =>
      have hlt : n < 0 := Int64.lt_iff_toInt_lt.2 hneg
      simp only [requiredCount, recordCount, hstats, hcount, if_pos hlt]
  · intro h
    rw [requiredCount, recordCount] at h
    cases hstats : a.stats with
    | none =>
      simp only [hstats] at h
      obtain rfl := Except.error.inj h
      refine .missing fun stats hsome ↦ ?_
      rw [hstats] at hsome
      cases hsome
    | some stats =>
      simp only [hstats] at h
      cases hcount : recordCount? stats with
      | none =>
        simp only [hcount] at h
        obtain rfl := Except.error.inj h
        exact .malformed hstats hcount
      | some count =>
        cases count with
        | none =>
          simp only [hcount] at h
          obtain rfl := Except.error.inj h
          refine .missing fun stats' hsome ↦ ?_
          obtain rfl := Option.some.inj (hstats.symm.trans hsome)
          exact hcount
        | some n =>
          simp only [hcount] at h
          split at h
          · rename_i hneg
            obtain rfl := Except.error.inj h
            exact .negative hstats hcount (Int64.lt_iff_toInt_lt.1 hneg)
          · cases h

end Add

namespace Action

def taken : Action → Int
  | add a => a.taken
  | _ => 0

def filled (base version : Int64) : Action → Action
  | add a => add (a.filled base version)
  | x => x

/-- The row ids that the files among the actions received. -/
def granted (staged written : List Action) : List IdRange :=
  Add.granted (staged.filterMap add?) (written.filterMap add?)

end Action

theorem RowIdAssigner.Assigned.consecutive {g g' : RowIdAssigner} {as bs : List Add}
    (h : Assigned g as bs g') :
    IdRange.Consecutive g.next.toInt (Add.granted as bs) g'.next.toInt := by
  induction h with
  | nil g => exact .nil _
  | @cons g g' g'' a b as bs hab _ ih =>
    obtain ⟨-, ⟨hnone, hnext⟩ | ⟨hsome, hnext, hnonneg⟩⟩ := assignAdd_eq_ok hab
    · have hgranted : Add.granted (a :: as) (b :: bs) = Add.granted as bs :=
        List.filterMap_cons_none hnone
      rwa [hgranted, ← hnext]
    · have hgranted : Add.granted (a :: as) (b :: bs) =
          ⟨g.next.toInt, b.records⟩ :: Add.granted as bs :=
        List.filterMap_cons_some hsome
      rw [hgranted]
      rw [hnext] at ih
      exact .cons (r := ⟨g.next.toInt, b.records⟩) hnonneg ih

namespace RowTracking

open RowIdAssigner

/-- Why an item cannot be handed on, once this many row ids behind the mark have been taken. -/
inductive Refuses (mark : Int64) (taken : Int) : Outcome Action → Error → Prop
  | failed (e : Error) : Refuses mark taken (.error e) e
  | uncounted {a : Add} {e : Error} : a.baseRowId = none → a.Uncounted e →
      Refuses mark taken (.ok (.add a)) e
  | exceeding {a : Add} : a.baseRowId = none → a.Counted →
      Int64.maxValue.toInt < mark.toInt + 1 + taken + a.records →
      Refuses mark taken (.ok (.add a)) (.overflow s!"Row id range of {a.path} exceeds i64")

section Steps

variable {g g' : RowIdAssigner} {mark : Int64} {taken : Int} {x y : Action} {e : Error}

theorem refuses_iff (hg : g.next.toInt = mark.toInt + 1 + taken) :
    Refuses mark taken (.ok x) e ↔ g.assign x = .error e := by
  constructor
  · intro h
    cases h with
    | uncounted hbase hcount =>
      rw [RowIdAssigner.assign, assignAdd, hbase]
      simp only [Add.uncounted_iff.1 hcount]
      rfl
    | exceeding hbase hcount hlarge =>
      obtain ⟨n, hn⟩ := Add.counted_iff.1 hcount
      obtain ⟨hrecords, hnonneg⟩ := Add.records_of_requiredCount hn
      have hnone : add? g.next n = none := (add?_eq_none_iff hnonneg).2 (by omega)
      rw [RowIdAssigner.assign, assignAdd, hbase]
      simp only [hn, hnone]
      rfl
  · intro h
    cases x with
    | add a =>
      rw [RowIdAssigner.assign, assignAdd] at h
      cases hbase : a.baseRowId with
      | some base =>
        rw [hbase] at h
        cases h
      | none =>
        simp only [hbase] at h
        cases hn : a.requiredCount with
        | error e' =>
          simp only [hn] at h
          obtain rfl := Except.error.inj h
          exact .uncounted hbase (Add.uncounted_iff.2 hn)
        | ok n =>
          simp only [hn] at h
          obtain ⟨hrecords, hnonneg⟩ := Add.records_of_requiredCount hn
          cases hnext : add? g.next n with
          | some next =>
            simp only [hnext] at h
            cases h
          | none =>
            simp only [hnext] at h
            obtain rfl := Except.error.inj h
            have hlarge := (add?_eq_none_iff hnonneg).1 hnext
            exact .exceeding hbase (Add.counted_iff.2 ⟨n, hn⟩) (by omega)
    | _ => cases h

theorem assign_filled (h : g.assign x = .ok (y, g')) :
    y = x.filled g.next g.commitVersion ∧ g'.next.toInt = g.next.toInt + x.taken ∧
      g'.commitVersion = g.commitVersion := by
  rcases assign_eq_ok h with ⟨a, b, rfl, rfl, hab⟩ | ⟨hnone, rfl, rfl⟩
  · obtain ⟨rfl, hnext, hversion⟩ := assignAdd_filled hab
    exact ⟨rfl, hnext, hversion⟩
  · cases y with
    | add a => cases hnone
    | _ => exact ⟨rfl, (Int.add_zero _).symm, rfl⟩

variable {as bs : List Action}

theorem assignEach_next (h : g.assignEach as = .ok (bs, g')) :
    g'.next.toInt = g.next.toInt + (as.map Action.taken).sum := by
  induction as generalizing g bs with
  | nil =>
    obtain ⟨rfl, rfl⟩ := Prod.mk.inj (Except.ok.inj h)
    exact (Int.add_zero _).symm
  | cons a as ih =>
    obtain ⟨b, g₁, bs, hb, hbs, rfl⟩ := assignEach_cons_eq_ok h
    have hnext := (assign_filled hb).2.1
    have hlast := ih hbs
    rw [List.map_cons, List.sum_cons]
    omega

theorem assignEach_at (h : g.assignEach as = .ok (bs, g')) {i : Nat} {a b : Action}
    (ha : as[i]? = some a) (hb : bs[i]? = some b) :
    ∃ gᵢ g'' : RowIdAssigner, gᵢ.next.toInt = g.next.toInt + ((as.take i).map Action.taken).sum ∧
      gᵢ.commitVersion = g.commitVersion ∧ gᵢ.assign a = .ok (b, g'') := by
  induction as generalizing g bs i with
  | nil => simp at ha
  | cons x as ih =>
    obtain ⟨y, g₁, bs, hy, hbs, rfl⟩ := assignEach_cons_eq_ok h
    cases i with
    | zero =>
      obtain rfl := Option.some.inj ha
      obtain rfl := Option.some.inj hb
      exact ⟨g, g₁, (Int.add_zero _).symm, rfl, hy⟩
    | succ i =>
      obtain ⟨-, hnext, hversion⟩ := assign_filled hy
      obtain ⟨gᵢ, g'', hat, hatVersion, hassign⟩ := ih hbs ha hb
      refine ⟨gᵢ, g'', ?_, hatVersion.trans hversion, hassign⟩
      rw [List.take_succ_cons, List.map_cons, List.sum_cons]
      omega

/-- Items are handed on up to the first that is refused. -/
theorem assignAll_cases (hg : g.next.toInt = mark.toInt + 1 + taken) (xs : List (Outcome Action)) :
    ∃ (passed written : List Action) (g' : RowIdAssigner), g.assignEach passed = .ok (written, g') ∧
      (xs = passed.map .ok ∧ assignAll g xs = written.map .ok ∨
        ∃ x later e, xs = passed.map .ok ++ x :: later ∧
          Refuses mark (taken + (passed.map Action.taken).sum) x e ∧
          assignAll g xs = written.map .ok ++ [.error e]) := by
  induction xs generalizing g taken with
  | nil => exact ⟨[], [], g, rfl, .inl ⟨rfl, rfl⟩⟩
  | cons x xs ih =>
    cases x with
    | error e => exact ⟨[], [], g, rfl, .inr ⟨.error e, xs, e, rfl, .failed e, rfl⟩⟩
    | ok a =>
      rw [assignAll]
      cases ha : g.assign a with
      | error e =>
        refine ⟨[], [], g, rfl, .inr ⟨.ok a, xs, e, rfl, ?_, rfl⟩⟩
        rw [List.map_nil, List.sum_nil, Int.add_zero]
        exact (refuses_iff hg).2 ha
      | ok r =>
        obtain ⟨b, g₁⟩ := r
        have hnext := (assign_filled ha).2.1
        have hg₁ : g₁.next.toInt = mark.toInt + 1 + (taken + a.taken) := by omega
        obtain ⟨passed, written, g', heach, hends⟩ := ih hg₁
        refine ⟨a :: passed, b :: written, g', ?_, ?_⟩
        · rw [assignEach, ha]
          simp only [heach, bind, Except.bind, pure, Except.pure]
        · rcases hends with ⟨hxs, hall⟩ | ⟨y, later, e, hxs, hrefused, hall⟩
          · exact .inl ⟨congrArg (.ok a :: ·) hxs, congrArg (.ok b :: ·) hall⟩
          · refine .inr ⟨y, later, e, congrArg (.ok a :: ·) hxs, ?_, congrArg (.ok b :: ·) hall⟩
            rwa [List.map_cons, List.sum_cons, ← Int.add_assoc]

end Steps

/-- What becomes of the items of a traversal when row ids are given out from a mark on: those that
pass are written one for one, and the first that is refused is the last. -/
structure HandsOn (w : RowTracking) (passed written : List Action)
    (xs ys : List (Outcome Action)) : Prop where
  accepted : ∀ i a, passed[i]? = some a → ∀ e,
    ¬Refuses w.highWaterMark ((passed.take i).map Action.taken).sum (.ok a) e
  ends : xs = passed.map .ok ∧ ys = written.map .ok ∨
    ∃ x later e, xs = passed.map .ok ++ x :: later ∧
    Refuses w.highWaterMark (passed.map Action.taken).sum x e ∧
      ys = written.map .ok ++ [.error e]
  length : written.length = passed.length
  filled : ∀ i a b, passed[i]? = some a → written[i]? = some b → ∃ base : Int64,
    base.toInt = w.highWaterMark.toInt + 1 + ((passed.take i).map Action.taken).sum ∧
      b = a.filled base w.commitVersion

theorem exists_handsOn {w : RowTracking} {g : RowIdAssigner}
    (hg : start w.highWaterMark w.commitVersion = .ok g) (xs : List (Outcome Action)) :
    ∃ passed written g', g.assignEach passed = .ok (written, g') ∧
      w.HandsOn passed written xs (assignAll g xs) := by
  have hfirst := start_eq_ok hg
  have hfirst' : g.next.toInt = w.highWaterMark.toInt + 1 + 0 := by omega
  obtain ⟨passed, written, g', heach, hends⟩ := assignAll_cases hfirst' xs
  rw [Int.zero_add] at hends
  have hlength := (assigned_of_assignEach heach).1
  refine ⟨passed, written, g', heach, fun i a ha e ↦ ?_, hends, hlength, fun i a b ha hb ↦ ?_⟩
  · obtain ⟨hi, -⟩ := List.getElem?_eq_some_iff.1 ha
    obtain ⟨gᵢ, g'', hat, -, hassign⟩ :=
      assignEach_at heach ha (List.getElem?_eq_getElem (hlength ▸ hi))
    rw [refuses_iff (g := gᵢ) (by omega), hassign]
    exact nofun
  · obtain ⟨gᵢ, g'', hat, hversion, hassign⟩ := assignEach_at heach ha hb
    refine ⟨gᵢ.next, by omega, ?_⟩
    rw [(assign_filled hassign).1, hversion, start_commitVersion hg]

theorem wrap_eq_ok {w : RowTracking} {o : Opening} {t : Trace} {g : RowIdAssigner}
    (hw : w.supported = true) (ho : o.result = .ok t)
    (hg : start w.highWaterMark w.commitVersion = .ok g) :
    ∃ out, (w.wrap o).result = .ok out ∧ out.items = assignAll g t.items := by
  rw [wrap, if_pos hw, ho]
  simp only [hg]
  exact ⟨_, rfl, items_assignFrom _ _ _⟩

/-- What a traversal with row ids yields, and nothing more when it is pulled further: every item
before the first that is refused, each file with the next row ids behind the mark, and then the
failure. The row ids that are given out fill the space behind the mark without a gap. -/
theorem row_ids_closed_form {w : RowTracking} (hw : w.supported = true)
    (hmark : w.highWaterMark ≠ Int64.maxValue) {s : Source} {turn : Nat} {t : Trace}
    (hs : (s.traverse turn).result = .ok t) :
    ∃ (passed written : List Action) (out : Trace) (g g' : RowIdAssigner),
      ((Source.rowTracking w s).traverse turn).result = .ok out ∧
      (∀ n, (out.pulls n).items = out.items.take n) ∧
      w.HandsOn passed written t.items out.items ∧
      start w.highWaterMark w.commitVersion = .ok g ∧ g.assignEach passed = .ok (written, g') ∧
      g'.highWaterMark.toInt = w.highWaterMark.toInt + (passed.map Action.taken).sum ∧
      IdRange.Consecutive (w.highWaterMark.toInt + 1) (Action.granted passed written)
        (g'.highWaterMark.toInt + 1) ∧
      ∀ id, (∃ r ∈ Action.granted passed written, r.Has id) ↔
        w.highWaterMark.toInt < id ∧ id ≤ g'.highWaterMark.toInt := by
  obtain ⟨g, hg⟩ := exists_start hmark w.commitVersion
  obtain ⟨out, hout, hitems⟩ := wrap_eq_ok hw hs hg
  obtain ⟨passed, written, g', heach, hhands⟩ := exists_handsOn hg t.items
  have hfirst := start_eq_ok hg
  have hnext := assignEach_next heach
  have hassigned := (assigned_of_assignEach heach).2
  have hlast : g'.highWaterMark.toInt = g'.next.toInt - 1 := by
    apply highWaterMark_toInt w.highWaterMark
    have hle := hassigned.granted.1
    omega
  have hconsecutive : IdRange.Consecutive (w.highWaterMark.toInt + 1)
      (Action.granted passed written)
      (g'.highWaterMark.toInt + 1) := by
    have h := hassigned.consecutive
    rwa [hfirst, show g'.next.toInt = g'.highWaterMark.toInt + 1 by omega] at h
  refine ⟨passed, written, out, g, g', hout, fun n ↦ Trace.items_pulls n out, hitems ▸ hhands, hg,
    heach, by omega, hconsecutive, fun id ↦ ?_⟩
  rw [hconsecutive.union]
  omega

end RowTracking

def Sample.broken : List (Outcome Action) :=
  (mixed ++ [Action.add (file "d" 4), .add { file "lost" 1 with stats := none }]).map .ok ++
    [.error .fileSystem]

def Sample.brokenOff : List (Outcome Action) :=
  [.ok (.add ((file "a" 5).filled 10 3)), .ok (.remove { path := "old", dataChange := true }),
    .ok (.add ((file "b" 3).filled 2 3)), .ok (.add ((file "c" 0).filled 15 3)),
    .ok (.add ((file "d" 4).filled 15 3)), .error (.missingStatistics "lost")]

theorem RowTracking.row_ids_closed_form_broken :
    let w : RowTracking := ⟨true, 9, 3⟩
    w.supported = true ∧ w.highWaterMark ≠ Int64.maxValue ∧ ∃ out : Trace,
      ((Source.rowTracking w (.turns fun _ ↦ .ok Sample.broken)).traverse 0).result = .ok out ∧
      out.items = Sample.brokenOff ∧ (∀ n, (out.pulls (6 + n)).items = Sample.brokenOff) ∧
      ∃ passed written : List Action, w.HandsOn passed written Sample.broken Sample.brokenOff ∧
        ∃ last : Int64, last.toInt = 9 + (passed.map Action.taken).sum ∧
          ∀ id, (∃ r ∈ Action.granted passed written, r.Has id) ↔ 9 < id ∧ id ≤ last.toInt := by
  intro w
  have hs : ((Source.turns fun _ ↦ .ok Sample.broken).traverse 0).result =
    .ok (Trace.ofItems Sample.broken) := rfl
  have hmark : w.highWaterMark ≠ Int64.maxValue := by decide
  obtain ⟨passed, written, out, g, g', hout, hpulls, hhands, -, -, hlast, -, hunion⟩ :=
    row_ids_closed_form rfl hmark hs
  have hwritten : ((Source.rowTracking w (.turns fun _ ↦ .ok Sample.broken)).traverse 0).result.map
      Trace.items =
      .ok Sample.brokenOff := by decide +kernel
  rw [hout] at hwritten
  have hitems : out.items = Sample.brokenOff := Except.ok.inj hwritten
  rw [Trace.items_ofItems, hitems] at hhands
  refine ⟨rfl, hmark, out, hout, hitems, fun n ↦ ?_, passed, written, hhands, g'.highWaterMark,
    hlast, hunion⟩
  rw [hpulls, hitems]
  apply List.take_of_length_le
  exact Nat.le_add_right 6 n

end TableLog
