import TableLog.Proofs.Passes

namespace TableLog

/-- The file comes with the row ids of its records. -/
def Add.BringsRowIds (a : Add) : Prop := a.baseRowId.isSome = true ∧ a.records ≠ 0

instance (a : Add) : Decidable a.BringsRowIds := inferInstanceAs (Decidable (_ ∧ _))

theorem Add.brought_sum {as : List Add} (h : ∀ a ∈ as, ¬a.BringsRowIds) :
    ((as.filter (·.baseRowId.isSome)).map Add.records).sum = 0 := by
  refine List.sum_eq_zero fun n hn ↦ ?_
  obtain ⟨a, ha, rfl⟩ := List.mem_map.1 hn
  obtain ⟨hmem, hsome⟩ := List.mem_filter.1 ha
  by_contra hne
  exact h a hmem ⟨hsome, hne⟩

theorem Version.exists_word?_iff {v : Version} :
    (∃ w, v.word? = some w) ↔ v.toNat < 0x8000000000000000 := by
  rw [Version.word?]
  split
  · rename_i h
    exact ⟨fun _ ↦ h, fun _ ↦ ⟨_, rfl⟩⟩
  · rename_i h
    simp [h]

theorem Version.exists_next_word {v : Version} (h : v.toNat + 1 < 0x8000000000000000) :
    ∃ w, v.next? = some w ∧ ∃ word, w.word? = some word := by
  have hnext : v.next? = some (v + 1) := by rw [Version.next?, if_pos (by omega)]
  exact ⟨v + 1, hnext, Version.exists_word?_iff.2 (Version.next?_eq_some_iff.1 hnext ▸ h)⟩

namespace RowTracking

variable {w : RowTracking} {o : Opening} {rs : List Remove} {mark : Int64}

theorem feed_removes : Trace.feed raise mark ((rs.map Action.remove).map .ok) = .ok mark := by
  induction rs with
  | nil => rfl
  | cons r rs ih => exact ih

theorem wrap_removes (hw : w.supported) (hne : w.highWaterMark ≠ Int64.maxValue) {t : Trace}
    (ho : o.result = .ok t) (ht : t.items = (rs.map Action.remove).map .ok) :
    ∃ body, (w.wrap o).result = .ok body ∧ (w.wrap o).start = o.start ∧
      body.items = (rs.map Action.remove).map .ok := by
  obtain ⟨g, hg⟩ := RowIdAssigner.exists_start hne w.commitVersion
  rw [wrap, if_pos hw, ho]
  simp only [hg]
  refine ⟨_, rfl, trivial, ?_⟩
  rw [items_assignFrom, ht, assignAll_removes]

theorem update_of_maxValue (hw : w.supported) (hmax : w.highWaterMark = Int64.maxValue) {t : Trace}
    (ho : o.result = .ok t) :
    (w.update o).2 = .error (.overflow "Row id high water mark is at its maximum") := by
  have hwrap : (w.wrap o).result =
      .error (.overflow "Row id high water mark is at its maximum") := by
    rw [wrap, if_pos hw, ho, hmax]
    simp only [RowIdAssigner.start_maxValue]
  rw [update, if_pos hw]
  simp only [Opening.drain, hwrap, Drained.outcome, Except.map]

theorem update_removes_iff (hw : w.supported) {t : Trace} (ho : o.result = .ok t)
    (hs : o.start.items = []) (ht : t.items = (rs.map Action.remove).map .ok) :
    (w.update o).2 = .ok none ↔ w.highWaterMark ≠ Int64.maxValue := by
  constructor
  · intro h hmax
    rw [update_of_maxValue hw hmax ho] at h
    cases h
  · intro hne
    obtain ⟨body, hbody, hstart, hitems⟩ := wrap_removes hw hne ho ht
    have hdrain : ((w.wrap o).drain raise w.highWaterMark).outcome = .ok w.highWaterMark := by
      rw [Opening.drain, hbody]
      simp only
      rw [Trace.drainFrom_outcome, Trace.items_append, hstart, hs, List.nil_append, hitems,
        feed_removes]
    rw [update, if_pos hw]
    simp only [hdrain, Except.map, if_true]

end RowTracking

namespace Transaction

variable {t : Transaction} {txnId : String} {v : Version} {as : List Action} {low mark : Int64}

/-- Row tracking takes the transaction as it is: it can be set up, it finds no need of a new
mark, and it hands on the removed files. -/
def PassesRowTracking (t : Transaction) : Prop :=
  ∃ v w body, t.commitVersion = .ok v ∧
    RowTracking.make t.snapshot.configuration.writesRowTracking t.snapshot v = .ok w ∧
    (w.update (t.files 0)).2 = .ok none ∧ (w.wrap (t.files 1)).result = .ok body ∧
    ((w.wrap (t.files 1)).start ++ body).items = (t.removed.map .remove).map .ok

theorem files_of_no_adds {turn : Nat} (h : t.addedItems turn = []) :
    ∃ body, (t.files turn).result = .ok body ∧
      body.items = (t.removed.map Action.remove).map .ok := by
  obtain ⟨body, hbody, hitems⟩ := t.items_files turn
  rw [h] at hitems
  exact ⟨body, by rw [hbody], hitems⟩

/-- Without added files, only the end of the row ids can be in the
way, or the end of the versions. -/
theorem passesRowTracking_iff (hon : t.snapshot.configuration.writesRowTracking = true)
    (hmark : t.snapshot.highWaterMark = .ok mark) (hnone : ∀ turn ≤ 1, t.addedItems turn = []) :
    t.PassesRowTracking ↔ mark ≠ Int64.maxValue ∧
      t.snapshot.version.toNat + 1 < 0x8000000000000000 := by
  obtain ⟨first, hfirst, hfirstItems⟩ := files_of_no_adds (hnone 0 (Nat.zero_le 1))
  obtain ⟨second, hsecond, hsecondItems⟩ := files_of_no_adds (hnone 1 (Nat.le_refl 1))
  constructor
  · intro h
    obtain ⟨v, w, _, hv, hmake, hupdate, -⟩ := h
    obtain ⟨hword, hsupported, hread⟩ := RowTracking.make_eq_ok hmake
    obtain rfl : mark = w.highWaterMark := Except.ok.inj (hmark.symm.trans (hread hon))
    refine ⟨(RowTracking.update_removes_iff
      (hsupported.trans hon) hfirst rfl hfirstItems).1 hupdate, ?_⟩
    rw [← Version.next?_eq_some_iff.1 (commitVersion_eq_ok_iff.1 hv)]
    exact Version.exists_word?_iff.1 ⟨_, hword⟩
  · intro he
    obtain ⟨hne, hlt⟩ := he
    obtain ⟨v, hv, commitVersion, hword⟩ := Version.exists_next_word hlt
    have hmake : RowTracking.make t.snapshot.configuration.writesRowTracking t.snapshot v =
        .ok ⟨true, mark, commitVersion⟩ := by
      rw [RowTracking.make, hword, hon, hmark]
      rfl
    obtain ⟨body, hbody, hstart, hitems⟩ :=
      RowTracking.wrap_removes (w := ⟨true, mark, commitVersion⟩) rfl hne hsecond hsecondItems
    refine ⟨v, _, body, commitVersion_eq_ok_iff.2 hv, hmake, ?_, hbody, ?_⟩
    · exact (RowTracking.update_removes_iff rfl hfirst rfl hfirstItems).2 hne
    · rw [Trace.items_append, hstart, hitems]
      rfl

theorem propose_of_passes (h : t.PassesRowTracking) (happ : t.checkAppVersions = .ok ())
    (hremovals : t.checkRemovals = .ok ()) {domains : List DomainMetadata}
    (hdomains : t.userDomains = .ok domains) {dir : Location}
    (hdir : Log.directory t.snapshot.root = .ok dir) (txnId : String) :
    ∃ p, (t.propose txnId).result = .ok p ∧
      p.actions.items = (Action.commitInfo (.new t.timestamp t.operation t.engineInfo txnId) ::
        (t.removed.map .remove ++
          (t.appVersions.map .appVersion ++ domains.map .domainMetadata))).map .ok := by
  obtain ⟨v, w, body, hv, hmake, hupdate, hbody, hitems⟩ := h
  have hprepare := prepare_eq_ok_iff.2 ⟨hv, happ, hremovals, hdomains, hmake⟩
  obtain ⟨p, hp, hactions⟩ := propose_of_parts hprepare hupdate hbody hdir
  refine ⟨p, hp, ?_⟩
  rw [hactions, items_stream, hitems, Option.toList_none, List.append_nil, ← List.map_append]
  rfl

/-- At the end of the row ids nothing can be committed any more, with added files or without. -/
theorem propose_of_exhausted (hon : t.snapshot.configuration.writesRowTracking = true)
    (hmark : t.snapshot.highWaterMark = .ok Int64.maxValue) (txnId : String) :
    ∃ e, (t.propose txnId).result = .error e ∧
      ((∃ r, t.prepare = .ok r) → e = .overflow "Row id high water mark is at its maximum") := by
  cases hprepare : t.prepare with
  | error e =>
    rw [propose, hprepare]
    refine ⟨e, rfl, fun he ↦ ?_⟩
    obtain ⟨r, hr⟩ := he
    cases hr
  | ok r =>
    obtain ⟨v, domains, w⟩ := r
    obtain ⟨-, hsupported, hread⟩ := RowTracking.make_eq_ok (prepare_eq_ok hprepare).2.2
    have hmax : w.highWaterMark = Int64.maxValue := Except.ok.inj ((hread hon).symm.trans hmark)
    obtain ⟨body, hbody, -⟩ := t.items_files 0
    have hupdate := RowTracking.update_of_maxValue (hsupported.trans hon) hmax
      (congrArg Opening.result hbody)
    cases hpass : w.update (t.files 0) with
    | mk traffic outcome =>
      rw [hpass] at hupdate
      subst hupdate
      rw [propose, hprepare]
      simp only [hpass]
      exact ⟨_, rfl, fun _ ↦ rfl⟩

theorem records_lt_of_propose {p : Proposal} {adds : List Add}
    (hp : (t.propose txnId).result = .ok p)
    (hon : t.snapshot.configuration.writesRowTracking = true)
    (hlow : t.snapshot.highWaterMark = .ok low) (hadds : t.addedItems 0 = adds.map (.ok ∘ .add))
    (hbrought : ∀ a ∈ adds, ¬a.BringsRowIds) :
    low.toInt + (adds.map Add.records).sum + 1 < 0x8000000000000000 := by
  obtain ⟨_, w, _, _, hprepare, hupdate, -⟩ := propose_eq_ok hp
  obtain ⟨-, hsupported, hread⟩ := RowTracking.make_eq_ok (prepare_eq_ok hprepare).2.2
  obtain rfl : low = w.highWaterMark := Except.ok.inj (hlow.symm.trans (hread hon))
  obtain ⟨xs, bs, g, g', high, hitems, hagrees⟩ :=
    RowTracking.agrees_of_update (hsupported.trans hon) rfl hupdate
  obtain ⟨body, hbody, hbodyItems⟩ := t.items_files 0
  have hfiles : xs = Action.files adds t.removed := by
    rw [hbody, Opening.items_inline] at hitems
    have hchecked := (staged_of_checked (hbodyItems.symm.trans hitems)).2
    rwa [← stagedAdds, stagedAdds_of_items hadds] at hchecked
  have hnext := (RowIdAssigner.assigned_of_assignEach hagrees.assigned).2.next_eq
  rw [hfiles, Action.adds_files, RowIdAssigner.start_eq_ok hagrees.started] at hnext
  have hrecords := Add.records_sum adds
  have hnone := Add.brought_sum hbrought
  have hlast := g'.next.toInt_lt
  omega

theorem Commits.raises (h : t.Commits txnId as)
    (hon : t.snapshot.configuration.writesRowTracking = true) :
    ∃ low high : Int64, t.snapshot.highWaterMark = .ok low ∧
      (t.snapshot.advance v as).highWaterMark = .ok high ∧
      high.toInt = low.toInt + ((t.stagedAdds 0).map Add.records).sum ∧
      ((∀ a ∈ t.stagedAdds 0, ¬a.BringsRowIds) → high ≠ Int64.maxValue) := by
  obtain ⟨_, adds, written, domains, mark, hcomposed⟩ := h.composed
  obtain ⟨low, high, first, hlow, hfirst, -, hsum, hstored⟩ := hcomposed.mark_on hon
  obtain ⟨p, hp, -⟩ := h
  rw [stagedAdds_of_items hfirst]
  refine ⟨low, high, hlow, ?_, hsum, fun hbrought ↦ ?_⟩
  · split at hstored
    · rename_i hz
      obtain rfl : high = low := Int64.toInt_inj.1 (by omega)
      exact (Snapshot.highWaterMark_congr hstored).trans hlow
    · exact Snapshot.highWaterMark_of_encode hstored
  · rw [ne_maxValue_iff, hsum]
    exact records_lt_of_propose hp hon hlow hfirst hbrought

end Transaction

def Trial.accepted (t : Trial) : List Add := if t.committed?.isSome then t.staged else []

namespace Session

/-- The table tracks row ids, and its mark has risen by the records of all files that were accepted.
As long as none of these brought row ids along, there is one left. -/
structure Marked (root : Location) (low : Int64) (s : Session) (latest : Snapshot)
    (high : Int64) : Prop where
  place : Log.place? s.fs root = some s.log
  load : Snapshot.load s.fs root none = .ok latest
  tracks : latest.configuration.writesRowTracking = true
  mark : latest.highWaterMark = .ok high
  raised : high.toInt = low.toInt + ((s.trials.flatMap Trial.accepted).map Add.records).sum
  left : (∀ a ∈ s.trials.flatMap Trial.accepted, ¬a.BringsRowIds) → high ≠ Int64.maxValue

variable {n : Version} {s : Session} {root : Location} {t : Trial} {low high : Int64}
  {latest : Snapshot}

theorem marked_begin {log : Place} {fs : FileSystem} (hp : Log.place? fs root = some log)
    (hs : Snapshot.load fs root none = .ok latest)
    (hon : latest.configuration.writesRowTracking = true) (hmark : latest.highWaterMark = .ok low)
    (hlow : low ≠ Int64.maxValue) :
    Marked root low { log, fs } latest low where
  place := hp
  load := hs
  tracks := hon
  mark := hmark
  raised := (Int.add_zero _).symm
  left _ := hlow

theorem Marked.after (h : Marked root low s latest high) (hinv : Inv n s) (i : Nat)
    (ht : t.before = s.fs) (hs : Log.Shows s.fs s.log t.transaction.snapshot) :
    ∃ latest' high', Marked root low (s.after i t) latest' high' := by
  obtain ⟨m, -, hm, -⟩ := hinv.holds
  have hall : (s.after i t).trials.flatMap Trial.accepted =
      s.trials.flatMap Trial.accepted ++ t.accepted := by
    rw [Session.after, List.flatMap_append, List.flatMap_singleton]
  obtain ⟨-, hcases⟩ := sound_cases (ht ▸ hm) (ht ▸ hs)
  have hplace : Log.place? t.after root = some s.log := by
    rw [(hcases.grows (ht ▸ hm)).place?, ht, h.place]
  cases hcases with
  | kept hnone hsame =>
    rw [ht] at hsame
    have hkept : (s.after i t).trials.flatMap Trial.accepted = s.trials.flatMap Trial.accepted := by
      rw [hall, Trial.accepted, hnone]
      exact List.append_nil _
    refine ⟨latest, high, hplace, Log.load_same hsame hm h.place h.load, h.tracks, h.mark, ?_, ?_⟩
    · rw [hkept, h.raised]
    · rw [hkept]
      exact h.left
  | @extended v as hv hlast hsome has hw =>
    rw [ht] at hw
    have hversion : latest.version = m := by
      simpa using ((hm.load_eq_ok_iff h.place).1 h.load).2.2.1
    have hshown := hm.eq_under h.place h.load hs hlast
    have hon : t.transaction.snapshot.configuration.writesRowTracking = true := by
      rw [hshown]
      exact h.tracks
    obtain ⟨before, after, hbefore, hafter, hraised, hleft⟩ := has.raises (v := v) hon
    have hmark : before = high := by
      rw [hshown] at hbefore
      exact Except.ok.inj (hbefore.symm.trans h.mark)
    have haccepted : t.accepted = t.transaction.stagedAdds 0 := by
      rw [Trial.accepted, hsome]
      rfl
    refine ⟨latest.advance v as, after, hplace, ?_, h.tracks, ?_, ?_,
      fun hbrought ↦ hleft fun a ha ↦ ?_⟩
    · exact hm.load_next hv hw has.readActions_write has.keepsTable h.place h.load hversion
    · rw [← hafter, hshown]
      rfl
    · rw [hall, haccepted, List.map_append, List.sum_append, hraised, hmark, h.raised,
        Int.add_assoc]
    · rw [hall, haccepted] at hbrought
      exact hbrought a (List.mem_append_right _ ha)

theorem Marked.step (h : Marked root low s latest high) (hinv : Inv n s) (e : Event) :
    ∃ latest' high', Marked root low (s.step e) latest' high' := by
  cases e with
  | use u => exact ⟨latest, high, h.place, h.load, h.tracks, h.mark, h.raised, h.left⟩
  | commit i txnId =>
    simp only [Session.step]
    split
    · exact ⟨latest, high, h⟩
    · rename_i t ht
      exact h.after hinv i rfl (hinv.shown.2 t (List.mem_of_getElem? ht))

theorem Marked.run (h : Marked root low s latest high) (hinv : Inv n s) (es : List Event) :
    ∃ latest' high', Marked root low (s.run es) latest' high' := by
  induction es generalizing s latest high with
  | nil => exact ⟨latest, high, h⟩
  | cons e es ih =>
    obtain ⟨latest', high', h'⟩ := h.step hinv e
    exact ih h' (hinv.step e).1

theorem version_of_load (hinv : Inv n s) (hp : Log.place? s.fs root = some s.log)
    (hload : Snapshot.load s.fs root none = .ok latest) :
    latest.version.toNat = n.toNat + (s.trials.filterMap Trial.committed?).length := by
  obtain ⟨m, hnm, hm, hcommitted⟩ := hinv.holds
  have hversion : latest.version = m := by simpa using ((hm.load_eq_ok_iff hp).1 hload).2.2.1
  have hcount := congrArg List.length hcommitted
  have hle := UInt64.le_iff_toNat_le.1 hnm
  rw [List.length_map, List.length_range'] at hcount
  rw [hversion]
  omega

/-- However a table has been used, its mark can be read, and it has risen by all records.
Row tracking has nothing against a transaction without added files, as long as there is a
row id left. When there is none, nobody can commit to the table any more; only files that
bring row ids along can take it there. -/
theorem passes_unless_exhausted {log : Place} {fs : FileSystem} {snapshot : Snapshot}
    (h : Log.Holds fs log n) (hp : Log.place? fs root = some log)
    (hs : Snapshot.load fs root none = .ok snapshot)
    (hon : snapshot.configuration.writesRowTracking = true)
    (hmark : snapshot.highWaterMark = .ok low) (hlow : low ≠ Int64.maxValue) (es : List Event) :
    ∃ latest high, Marked root low (run { log, fs } es) latest high ∧
      latest.version.toNat =
        n.toNat + ((run { log, fs } es).trials.filterMap Trial.committed?).length ∧
      (∀ t : Transaction, t.snapshot = latest → (∀ turn ≤ 1, t.addedItems turn = []) →
        (t.PassesRowTracking ↔
          high ≠ Int64.maxValue ∧ latest.version.toNat + 1 < 0x8000000000000000)) ∧
      (∀ t : Transaction, t.snapshot = latest → t.PassesRowTracking → t.checkAppVersions = .ok () →
        t.checkRemovals = .ok () → ∀ domains, t.userDomains = .ok domains → ∀ txnId, ∃ p,
          (t.propose txnId).result = .ok p ∧
          p.actions.items = (Action.commitInfo (.new t.timestamp t.operation t.engineInfo txnId) ::
            (t.removed.map .remove ++
              (t.appVersions.map .appVersion ++ domains.map .domainMetadata))).map .ok) ∧
      (high = Int64.maxValue → ∀ t : Transaction, t.snapshot = latest → ∀ txnId, ∃ e,
        (t.propose txnId).result = .error e ∧
          ((∃ r, t.prepare = .ok r) →
            e = .overflow "Row id high water mark is at its maximum")) := by
  obtain ⟨latest, high, hmarked⟩ := (marked_begin hp hs hon hmark hlow).run (inv_begin h) es
  have hinv := (inv_begin h).run es
  refine ⟨latest, high, hmarked, version_of_load hinv hmarked.place hmarked.load, ?_, ?_, ?_⟩
  · intro t ht hnone
    subst ht
    exact Transaction.passesRowTracking_iff hmarked.tracks hmarked.mark hnone
  · intro t ht hpasses happ hremovals domains hdomains txnId
    subst ht
    obtain ⟨m, -, hm, -⟩ := hinv.holds
    obtain ⟨dir, _, hdir, -⟩ :=
      Log.place?_eq_some (Log.Shows.of_load hm hmarked.place hmarked.load).place
    exact Transaction.propose_of_passes hpasses happ hremovals hdomains hdir txnId
  · intro hmax t ht txnId
    subst ht hmax
    exact Transaction.propose_of_exhausted hmarked.tracks hmarked.mark txnId

def filling : List Event :=
  [.use (.build Sample.root none), .use (.start 0 7),
    .use (.stage 0 (.addFiles (.actions [.add (Sample.file "f" 5)]))), .commit 0 "a"]

theorem passes_unless_exhausted_filling :
    ∃ latest : Snapshot,
      Snapshot.load (run { log := Sample.log, fs := Sample.fs } filling).fs Sample.root none =
          .ok latest ∧
        latest.version.toNat = 1 ∧ latest.highWaterMark = .ok 4 ∧
          (Transaction.removeFiles { snapshot := latest, timestamp := 8 }
            [{ path := "f", dataChange := true }]).PassesRowTracking := by
  have hmark : Sample.snapshot.highWaterMark = .ok (-1) := by decide +kernel
  obtain ⟨latest, high, hmarked, hversion, hpasses, -⟩ :=
    passes_unless_exhausted Sample.holds Sample.place Sample.load rfl hmark (by decide) filling
  have hcommitted : (run { log := Sample.log, fs := Sample.fs } filling).trials.filterMap
      Trial.committed? = [1] := by
    decide +kernel
  have haccepted : (run { log := Sample.log, fs := Sample.fs } filling).trials.flatMap
      Trial.accepted =
      [Sample.file "f" 5] := by decide +kernel
  have hraised := hmarked.raised
  rw [hcommitted] at hversion
  rw [haccepted] at hraised
  have hhigh : high = 4 := by
    rw [← Int64.toInt_inj, hraised]
    decide +kernel
  refine ⟨latest, hmarked.load, hversion, hhigh ▸ hmarked.mark, ?_⟩
  refine (hpasses _ rfl fun _ _ ↦ rfl).2 ⟨?_, ?_⟩
  · rw [hhigh]
    decide
  · rw [hversion]
    decide

def nearEnd : Snapshot where
  configuration := Sample.snapshot.configuration
  domains := .ofList [(HighWaterMark.domain, HighWaterMark.encode ⟨9223372036854775800⟩)]

def nearEndStore : FileSystem :=
  Sample.ground.set (Sample.log ++ [LogEntry.name 0])
    (.file (writeActions [.protocol Sample.protocol, .metadata Sample.metadata,
      .domainMetadata (HighWaterMark.toDomain ⟨9223372036854775800⟩)]))

def exhausting : List Event :=
  [.use (.build Sample.root none), .use (.start 0 7),
    .use (.stage 0 (.addFiles (.actions [.add { Sample.file "f" 7 with baseRowId := some 5 }]))),
    .commit 0 "a"]

/-- From then on, not even an application version can be noted. -/
theorem exhausted_by_brought_ids :
    Snapshot.load nearEndStore Sample.root none = .ok nearEnd ∧
      nearEnd.highWaterMark = .ok 9223372036854775800 ∧
      (run { log := Sample.log, fs := nearEndStore } exhausting).trials.map Trial.result =
        [.ok (.committed 1)] ∧
      ∃ latest,
        Snapshot.load (run { log := Sample.log, fs := nearEndStore } exhausting).fs
            Sample.root none = .ok latest ∧
          let t := Transaction.withAppVersion { snapshot := latest, timestamp := 8 } "app" 1
          t.checkAppVersions = .ok () ∧ t.checkRemovals = .ok () ∧ t.userDomains = .ok [] ∧
            ¬t.PassesRowTracking ∧
            ∀ txnId, ∃ e, (t.propose txnId).result = .error e := by
  have hload : Snapshot.load nearEndStore Sample.root none = .ok nearEnd := by decide +kernel
  have hmark : nearEnd.highWaterMark = .ok 9223372036854775800 := by decide +kernel
  have hplace : Log.place? nearEndStore Sample.root = some Sample.log := by decide +kernel
  have hbegin := marked_begin hplace hload rfl hmark (by decide)
  obtain ⟨latest, high, hmarked⟩ := hbegin.run (inv_begin (Sample.holds_first _)) exhausting
  have haccepted : (run { log := Sample.log, fs := nearEndStore } exhausting).trials.flatMap
      Trial.accepted =
      [{ Sample.file "f" 7 with baseRowId := some 5 }] := by decide +kernel
  have hraised := hmarked.raised
  rw [haccepted] at hraised
  obtain rfl : high = Int64.maxValue := by
    rw [← Int64.toInt_inj, hraised]
    decide +kernel
  refine ⟨hload, hmark, by decide +kernel, latest, hmarked.load, rfl, rfl, rfl, fun hpasses ↦ ?_,
    fun txnId ↦ ?_⟩
  · exact ((Transaction.passesRowTracking_iff hmarked.tracks hmarked.mark fun _ _ ↦ rfl).1
      hpasses).1 rfl
  · obtain ⟨e, he, -⟩ := Transaction.propose_of_exhausted
      (t := .withAppVersion { snapshot := latest, timestamp := 8 } "app" 1) hmarked.tracks
      hmarked.mark txnId
    exact ⟨e, he⟩

end Session

end TableLog
