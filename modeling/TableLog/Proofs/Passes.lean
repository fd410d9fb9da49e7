import TableLog.Proofs.Rollback
import TableLog.Proofs.RowIds

namespace TableLog

theorem Source.items_start (turn : Nat) : ∀ s : Source, (s.traverse turn).start.items = []
  | .actions _ | .turns _ | .chain _ => rfl
  | .file none | .file (some .directory) | .file (some (.file _)) => rfl
  | .tagged tag inner => by
    have hinner := items_start turn inner
    rw [traverse, openTagged]
    split
    · rw [Trace.items_append, hinner]
      rfl
    · exact hinner
  | .rowTracking w inner => by
    have hinner := items_start turn inner
    rw [traverse, RowTracking.wrap]
    split
    · split
      · exact hinner
      · split
        · rwa [Trace.items_closed]
        · exact hinner
    · exact hinner

theorem Opening.opened_of_items {o : Opening} (ho : o.start.items = []) {as : List Action}
    (h : o.inline.items = as.map .ok) : ∃ t, o.result = .ok t ∧ t.items = as.map .ok := by
  rw [items_inline, ho, List.nil_append] at h
  cases hr : o.result with
  | ok t =>
    rw [hr] at h
    exact ⟨t, rfl, h⟩
  | error e =>
    rw [hr] at h
    exact absurd h Results.error_cons_ne

theorem Add.filled_of_completed {as bs : List Add} (h : List.Forall₂ CompletedBy as bs) :
    ∀ b ∈ bs, b.baseRowId.isSome ∧ b.defaultRowCommitVersion.isSome := by
  induction h with
  | nil => exact List.forall_mem_nil _
  | cons hab _ ih =>
    obtain ⟨base, version, rfl, -, -⟩ := hab
    exact List.forall_mem_cons.2 ⟨⟨rfl, rfl⟩, ih⟩

namespace RowIdAssigner

def assignEach : RowIdAssigner → List Action → Outcome (List Action × RowIdAssigner)
  | g, [] => .ok ([], g)
  | g, a :: as => do
    let (b, g') ← g.assign a
    let (bs, g'') ← assignEach g' as
    pure (b :: bs, g'')

variable {g g' : RowIdAssigner} {a b : Action} {as bs : List Action}

theorem assign_eq_ok (h : g.assign a = .ok (b, g')) :
    (∃ x y, a = .add x ∧ b = .add y ∧ g.assignAdd x = .ok (y, g')) ∨
      (a.add? = none ∧ b = a ∧ g' = g) := by
  cases a with
  | add x =>
    obtain ⟨r, hr, he⟩ := Outcome.map_eq_ok_iff.1 h
    obtain ⟨rfl, rfl⟩ := Prod.mk.inj he
    exact .inl ⟨x, r.1, rfl, rfl, hr⟩
  | _ =>
    obtain ⟨rfl, rfl⟩ := Prod.mk.inj (Except.ok.inj h)
    exact .inr ⟨rfl, rfl, rfl⟩

theorem assignEach_cons_eq_ok (h : g.assignEach (a :: as) = .ok (bs, g')) :
    ∃ b g₁ bs', g.assign a = .ok (b, g₁) ∧ g₁.assignEach as = .ok (bs', g') ∧ bs = b :: bs' := by
  obtain ⟨⟨b, g₁⟩, hb, h⟩ := Outcome.bind_eq_ok_iff.1 h
  obtain ⟨⟨bs', g₂⟩, hbs, h⟩ := Outcome.bind_eq_ok_iff.1 h
  obtain ⟨rfl, rfl⟩ := Prod.mk.inj (Except.ok.inj h)
  exact ⟨b, g₁, bs', hb, hbs, rfl⟩

theorem assigned_of_assignEach (h : g.assignEach as = .ok (bs, g')) :
    bs.length = as.length ∧
    Assigned g (as.filterMap Action.add?) (bs.filterMap Action.add?) g' := by
  induction as generalizing g bs with
  | nil =>
    obtain ⟨rfl, rfl⟩ := Prod.mk.inj (Except.ok.inj h)
    exact ⟨rfl, .nil g⟩
  | cons a as ih =>
    obtain ⟨b, g₁, bs, hb, hbs, rfl⟩ := assignEach_cons_eq_ok h
    obtain ⟨hlength, hassigned⟩ := ih hbs
    refine ⟨congrArg Nat.succ hlength, ?_⟩
    rcases assign_eq_ok hb with ⟨x, y, rfl, rfl, hxy⟩ | ⟨hnone, rfl, rfl⟩
    · exact .cons hxy hassigned
    -- what is no added file leaves the assigner as it is
    · rwa [List.filterMap_cons_none hnone, List.filterMap_cons_none hnone]

theorem assignEach_of_assignAll (h : RowTracking.assignAll g (as.map .ok) = bs.map .ok) :
    ∃ g', g.assignEach as = .ok (bs, g') := by
  induction as generalizing g bs with
  | nil =>
    cases bs with
    | nil => exact ⟨g, rfl⟩
    | cons b bs => cases h
  | cons a as ih =>
    obtain ⟨_, b, g₁, bs, ha, hb, htail, rfl⟩ := RowTracking.assignAll_cons_eq_ok h
    obtain rfl := Except.ok.inj ha
    obtain ⟨g', hg'⟩ := ih htail
    refine ⟨g', ?_⟩
    rw [assignEach, hb]
    simp only [hg', bind, Except.bind, pure, Except.pure]

theorem highWaterMark_toInt (low : Int64) (h : low.toInt < g.next.toInt) :
    g.highWaterMark.toInt = g.next.toInt - 1 := by
  have hlow := low.le_toInt
  have hnext := g.next.toInt_lt
  have hone : (1 : Int64).toInt = 1 := by decide
  rw [highWaterMark, Int64.toInt_sub, hone, Int.bmod_eq_of_le (by omega) (by omega)]

end RowIdAssigner

namespace RowTracking

open RowIdAssigner

variable {w : RowTracking} {o : Opening} {as bs : List Action} {mark : Option DomainMetadata}

/-- What the first pass has established of the second. -/
structure Agrees (w : RowTracking) (mark : Option DomainMetadata) (as bs : List Action)
    (g g' : RowIdAssigner) (high : Int64) : Prop where
  started : start w.highWaterMark w.commitVersion = .ok g
  assigned : g.assignEach as = .ok (bs, g')
  items : assignAll g (as.map .ok) = bs.map .ok
  marked : mark = if high = w.highWaterMark then none else some (HighWaterMark.toDomain ⟨high⟩)
  counts : ∀ a ∈ as.filterMap Action.add?, ∃ n, a.requiredCount = .ok n
  raised : high.toInt = w.highWaterMark.toInt + ((as.filterMap Action.add?).map Add.records).sum

theorem agrees_of_update (hw : w.supported) (ho : o.start.items = [])
    (h : (w.update o).2 = .ok mark) :
    ∃ as bs g g' high, o.inline.items = as.map .ok ∧ w.Agrees mark as bs g g' high := by
  obtain ⟨t, g, bs, high, ht, hg, hbs, hfeed, hmark⟩ := update_eq_ok hw ho h
  obtain ⟨as, has⟩ := ok_of_assignAll hbs
  rw [has] at hbs
  obtain ⟨g', hassign⟩ := assignEach_of_assignAll hbs
  have hitems : o.inline.items = as.map .ok := by
    rw [Opening.items_inline, ho, ht, List.nil_append]
    exact has
  -- the mark is raised by the files with row ids, which keep the statistics of the staged ones
  obtain ⟨hsum, hcounts⟩ := feed_raise hfeed
  have hcompleted := (assigned_of_assignEach hassign).2.completed
  have hrecords := Add.map_of_completed Add.CompletedBy.records hcompleted
  have hstagedCounts := Add.counts_of_completed hcompleted hcounts
  exact ⟨as, bs, g, g', high, hitems, hg, hassign, hbs, hmark, hstagedCounts, hrecords ▸ hsum⟩

section Agrees

variable {g g' : RowIdAssigner} {high : Int64} (h : w.Agrees mark as bs g g' high)
include h

/-- The second pass does not fail. -/
theorem Agrees.items_wrap (hw : w.supported) (ho : o.start.items = [])
    (hitems : o.inline.items = as.map .ok) :
    (w.wrap o).inline.items = bs.map .ok := by
  obtain ⟨t, hr, ht⟩ := Opening.opened_of_items ho hitems
  rw [wrap, if_pos hw, hr]
  simp only [h.started]
  rw [Opening.items_inline, ho, List.nil_append]
  simp only [items_assignFrom, ht, h.items]

theorem Agrees.filled {b : Add} (hb : .add b ∈ bs) :
    b.baseRowId.isSome ∧ b.defaultRowCommitVersion.isSome := by
  have hmem : b ∈ bs.filterMap Action.add? := List.mem_filterMap.2 ⟨_, hb, rfl⟩
  exact Add.filled_of_completed (assigned_of_assignEach h.assigned).2.completed b hmem

theorem Agrees.bounds :
    w.highWaterMark.toInt ≤ g'.highWaterMark.toInt ∧ g'.highWaterMark.toInt ≤ high.toInt ∧
      (g'.highWaterMark = high ↔
        (((as.filterMap Action.add?).filter (·.baseRowId.isSome)).map Add.records).sum = 0) ∧
      ∀ r ∈ Add.granted (as.filterMap Action.add?) (bs.filterMap Action.add?),
        r.Between w.highWaterMark.toInt g'.highWaterMark.toInt := by
  have hassigned := (assigned_of_assignEach h.assigned).2
  obtain ⟨hle, hbetween, -⟩ := hassigned.granted
  have hfirst := start_eq_ok h.started
  have hlast : g'.highWaterMark.toInt = g'.next.toInt - 1 :=
    highWaterMark_toInt w.highWaterMark (by omega)
  have hnext := hassigned.next_eq
  have hrecords := Add.records_sum (as.filterMap Action.add?)
  have hhigh := h.raised
  have htaken := Add.taken_sum_le (Add.records_nonneg h.counts)
  refine ⟨by omega, by omega, ?_, fun r hr ↦ (hbetween r hr).mono (by omega) (by omega)⟩
  rw [← Int64.toInt_inj]
  omega

end Agrees

end RowTracking

namespace Transaction

variable {t : Transaction} {txnId : String} {p : Proposal}

theorem Reiterable.files_items (h : t.Reiterable) (m n : Nat) :
    (t.files m).inline.items = (t.files n).inline.items := by
  obtain ⟨body, hbody, hitems⟩ := t.items_files m
  obtain ⟨body', hbody', hitems'⟩ := t.items_files n
  rw [hbody, hbody', Opening.items_inline, Opening.items_inline]
  simp only [hitems, hitems', h.addedItems m n]

theorem propose_items (hon : t.snapshot.configuration.writesRowTracking = true) (hr : t.Reiterable)
    (hp : (t.propose txnId).result = .ok p) : ∃ as : List Action, p.actions.items = as.map .ok := by
  obtain ⟨domains, w, mark, body, hprepare, hupdate, hbody, -, hitems⟩ := propose_eq_ok hp
  obtain ⟨-, -, hmake⟩ := prepare_eq_ok hprepare
  have hw : w.supported := by rw [(RowTracking.make_eq_ok hmake).2.1, hon]
  obtain ⟨as, bs, g, g', high, hfirst, hagrees⟩ := RowTracking.agrees_of_update hw rfl hupdate
  -- a wrapped traversal only depends on the items, and the sources yield the same at both turns
  have hsecond : (t.files 1).inline.items = as.map .ok := by
    rw [← hfirst, hr.files_items]
  have hwrap := hagrees.items_wrap hw rfl hsecond
  rw [Opening.items_inline, hbody] at hwrap
  simp only at hwrap
  rw [hitems, hwrap, ← List.map_append, ← List.map_cons]
  exact ⟨_, rfl⟩

end Transaction

/-- The two passes over the files of a commit agree: when the high water mark can be
recomputed, then every later pass fills all row ids, within the recomputed mark. So a
commit that has its file is never given up. -/
theorem RowTracking.passes_agree {w : RowTracking} (hw : w.supported) {s : Source}
    (hs : s.Reiterable) {m : Nat} {mark : Option DomainMetadata}
    (hu : (w.update (s.traverse m)).2 = .ok mark) :
    (∃ as bs : List Action, ∃ g g' : RowIdAssigner, ∃ high : Int64,
      (∀ n, (s.traverse n).inline.items = as.map .ok ∧
        ((Source.rowTracking w s).traverse n).inline.items = bs.map .ok) ∧
      bs.length = as.length ∧
      (∀ b, .add b ∈ bs → b.baseRowId.isSome ∧ b.defaultRowCommitVersion.isSome) ∧
      RowIdAssigner.start w.highWaterMark w.commitVersion = .ok g ∧ g.assignEach as = .ok (bs, g') ∧
      (mark = if high = w.highWaterMark then none else some (HighWaterMark.toDomain ⟨high⟩)) ∧
      w.highWaterMark.toInt ≤ g'.highWaterMark.toInt ∧ g'.highWaterMark.toInt ≤ high.toInt ∧
      (g'.highWaterMark = high ↔
        (((as.filterMap Action.add?).filter (·.baseRowId.isSome)).map Add.records).sum = 0) ∧
      ∀ r ∈ Add.granted (as.filterMap Action.add?) (bs.filterMap Action.add?),
        r.Between w.highWaterMark.toInt g'.highWaterMark.toInt) ∧
      ∀ (t : Transaction) (txnId : String) (p : Proposal) (fs claimed : FileSystem) (place : Place),
        t.snapshot.configuration.writesRowTracking = true → t.Reiterable →
        (t.propose txnId).result = .ok p →
        fs.claim p = (.ok (some place), claimed) →
        (fs.commit p).1.result = .ok (.committed p.version) := by
  constructor
  · obtain ⟨as, bs, g, g', high, hitems, hagrees⟩ := agrees_of_update hw (s.items_start m) hu
    have hsource (n : Nat) : (s.traverse n).inline.items = as.map .ok := (hs n m).trans hitems
    have hwrapped (n : Nat) : ((Source.rowTracking w s).traverse n).inline.items = bs.map .ok :=
      hagrees.items_wrap hw (s.items_start n) (hsource n)
    exact ⟨as, bs, g, g', high, fun n ↦ ⟨hsource n, hwrapped n⟩,
      (RowIdAssigner.assigned_of_assignEach hagrees.assigned).1, fun b hb ↦ hagrees.filled hb,
      hagrees.started, hagrees.assigned, hagrees.marked, hagrees.bounds⟩
  · intro t txnId p fs claimed place hon hr hp hc
    obtain ⟨as, has⟩ := t.propose_items hon hr hp
    obtain ⟨ground, -, hplace, hfree, rfl⟩ := FileSystem.claimed_of_claim hc
    rcases FileSystem.commit_of_claim hc hplace hfree with ⟨e, he, -, -⟩ | ⟨-, hresult, -⟩
    · rw [has, Results.failure_ok] at he
      cases he
    · exact hresult

def Sample.mixed : List Action :=
  [.add (file "a" 5), .remove { path := "old", dataChange := true },
    .add { file "b" 3 with baseRowId := some 2 }, .add (file "c" 0)]

theorem RowTracking.passes_agree_mixed :
    (∃ bs : List Action, ∃ g' : RowIdAssigner, ∃ high : Int64,
      ((Source.rowTracking ⟨true, 9, 3⟩ (.actions Sample.mixed)).traverse 1).inline.items =
          bs.map .ok ∧
        (∀ b, .add b ∈ bs → b.baseRowId.isSome ∧ b.defaultRowCommitVersion.isSome) ∧
        9 ≤ g'.highWaterMark.toInt ∧ g'.highWaterMark.toInt ≤ high.toInt ∧
        some (HighWaterMark.toDomain ⟨17⟩) =
          if high = 9 then none else some (HighWaterMark.toDomain ⟨high⟩)) ∧
      let t := Transaction.addFiles { snapshot := Sample.snapshot, timestamp := 7 }
        (.actions [.add (Sample.file "a" 5)])
      ∃ p, (t.propose "id").result = .ok p ∧
        (Sample.fs.commit p).1.result = .ok (.committed p.version) := by
  have hu : (update ⟨true, 9, 3⟩ ((Source.actions Sample.mixed).traverse 0)).2 =
      .ok (some (HighWaterMark.toDomain ⟨17⟩)) := by decide +kernel
  obtain ⟨⟨as, bs, g, g', high, hitems, -, hfilled, -, -, hmark, hlow, hhigh, -⟩, hcommit⟩ :=
    passes_agree rfl (Source.reiterable_actions Sample.mixed) hu
  refine ⟨⟨bs, g', high, (hitems 1).2, hfilled, hlow, hhigh, hmark⟩, ?_⟩
  intro t
  have hreiterable : t.Reiterable := by
    intro s hs
    rw [List.mem_singleton.1 hs]
    exact Source.reiterable_actions _
  have hreaches : t.reachesFile "id" Sample.fs := by decide +kernel
  obtain ⟨p, place, claimed, hp, hclaim⟩ := Transaction.exists_claim hreaches
  exact ⟨p, hp, hcommit t "id" p Sample.fs claimed place rfl hreiterable hp hclaim⟩

end TableLog
