import TableLog.Proofs.Passes

namespace TableLog

def Add.filled (a : Add) (base version : Int64) : Add :=
  { a with
    baseRowId := some (a.baseRowId.getD base)
    defaultRowCommitVersion := some (a.defaultRowCommitVersion.getD version) }

namespace RowIdAssigner

variable {g g' : RowIdAssigner} {as bs : List Add}

theorem start_commitVersion {low version : Int64} (h : start low version = .ok g) :
    g.commitVersion = version := by
  rw [start] at h
  split at h
  · cases h
  · rw [← Except.ok.inj h]

theorem Assigned.get (h : Assigned g as bs g') :
    bs.length = as.length ∧ ∀ i a b, as[i]? = some a → bs[i]? = some b →
      ∃ base : Int64, base.toInt = g.next.toInt + ((as.take i).map Add.taken).sum ∧
        b = a.filled base g.commitVersion := by
  induction h with
  | nil g => exact ⟨rfl, fun i a b ha ↦ by simp at ha⟩
  | @cons g g' g'' a b as bs hab _ ih =>
    obtain ⟨hlength, hget⟩ := ih
    obtain ⟨hb, hnext, hversion⟩ := assignAdd_filled hab
    refine ⟨congrArg Nat.succ hlength, fun i a' b' ha' hb' ↦ ?_⟩
    cases i with
    | zero =>
      obtain rfl := Option.some.inj ha'
      obtain rfl := Option.some.inj hb'
      exact ⟨g.next, (Int.add_zero _).symm, hb⟩
    | succ i =>
      -- the rest starts from an assigner that has gone on by what the first file took
      obtain ⟨base, hbase, hfilled⟩ := hget i a' b' ha' hb'
      refine ⟨base, ?_, hversion ▸ hfilled⟩
      rw [List.take_succ_cons, List.map_cons, List.sum_cons, hbase, hnext]
      omega

end RowIdAssigner

namespace Log

theorem commitLocation_of_directory {root log : Location} (h : directory root = .ok log)
    (v : Version) :
    ∃ l, commitLocation log v = .ok l ∧
      ∀ path, l.filePath? = some path → path.getLast?.map LogEntry.ofName = some (.commit v) := by
  cases hroot : root.path with
  | opaquePath text => simp [directory, Location.inDirectory?, hroot] at h
  | segments names =>
    simp only [directory, Location.inDirectory?, hroot] at h
    obtain rfl := Except.ok.inj h
    refine ⟨_, commitLocation_eq _ v, fun path hpath ↦ ?_⟩
    rw [Location.filePath?] at hpath
    simp only at hpath
    split at hpath
    · obtain rfl := Option.some.inj hpath
      rw [List.flatMap_append, List.flatMap_singleton, FilePath.ofBytes_nameText,
        List.getLast?_concat, Option.map_some, LogEntry.ofName_name]
    · cases hpath

end Log

namespace Transaction

variable {t : Transaction} {txnId : String} {v : Version} {adds written : List Add}
  {domains : List DomainMetadata} {mark : Option DomainMetadata} {as : List Action}

theorem firstRepeated_eq_none_iff {seen ids : List String} :
    firstRepeated seen ids = none ↔ ids.Nodup ∧ ∀ id ∈ ids, id ∉ seen := by
  induction ids generalizing seen with
  | nil => exact ⟨fun _ ↦ ⟨.nil, List.forall_mem_nil _⟩, fun _ ↦ rfl⟩
  | cons id ids ih =>
    rw [firstRepeated, List.nodup_cons, List.forall_mem_cons]
    split
    · rename_i hseen
      exact ⟨nofun, fun h ↦ absurd hseen (by simpa using h.2.1)⟩
    · rename_i hseen
      rw [ih]
      constructor
      · intro h
        obtain ⟨hnodup, hfresh⟩ := h
        refine ⟨⟨fun hid ↦ hfresh id hid List.mem_cons_self, hnodup⟩, by simpa using hseen,
          fun other hother hmem ↦ ?_⟩
        exact hfresh other hother (List.mem_cons_of_mem id hmem)
      · intro h
        obtain ⟨⟨hid, hnodup⟩, -, hfresh⟩ := h
        refine ⟨hnodup, fun other hother hmem ↦ ?_⟩
        rcases List.mem_cons.1 hmem with rfl | hmem
        · exact hid hother
        · exact hfresh other hother hmem

theorem checkAppVersions_eq_ok_iff :
    t.checkAppVersions = .ok () ↔ (t.appVersions.map (·.appId)).Nodup := by
  have hnone : firstRepeated [] (t.appVersions.map (·.appId)) = none ↔
      (t.appVersions.map (·.appId)).Nodup := by
    rw [firstRepeated_eq_none_iff]
    exact and_iff_left fun id _ ↦ List.not_mem_nil
  rw [← hnone, checkAppVersions]
  cases firstRepeated [] (t.appVersions.map (·.appId)) with
  | none => exact ⟨fun _ ↦ rfl, fun _ ↦ rfl⟩
  | some id => exact ⟨nofun, nofun⟩

theorem Reiterable.of_changes {changes : List Staging} (h : ∀ c ∈ changes, c.Reiterable)
    (ht : t.added = changes.filterMap Staging.source?) : t.Reiterable := by
  intro s hs
  rw [ht] at hs
  obtain ⟨c, hc, hcs⟩ := List.mem_filterMap.1 hs
  cases c with
  | addFiles s' =>
    obtain rfl := Option.some.inj hcs
    exact h _ hc
  | _ => cases hcs

section Parts

variable (h : t.Composed txnId v adds written domains mark as)
include h

theorem Composed.eq_mark_of_system {d : DomainMetadata} (hd : .domainMetadata d ∈ as)
    (hs : d.isSystem) :
    mark = some d := by
  have hmem : d ∈ domains ++ mark.toList := by
    rw [← h.domainActions]
    exact List.mem_filterMap.2 ⟨_, hd, rfl⟩
  rcases List.mem_append.1 hmem with hmem | hmem
  · rw [userDomains_isSystem h.user d hmem] at hs
    cases hs
  · exact Option.mem_toList.1 hmem

theorem Composed.written_on (hon : t.snapshot.configuration.writesRowTracking = true) :
    ∃ low version : Int64, t.snapshot.highWaterMark = .ok low ∧ version.toInt = v.toNat ∧
      written.length = adds.length ∧ ∀ i a b, adds[i]? = some a → written[i]? = some b →
        ∃ base : Int64, base.toInt = low.toInt + 1 + ((adds.take i).map Add.taken).sum ∧
          b = a.filled base version := by
  cases h.tracked with
  | off hoff =>
    rw [hoff] at hon
    cases hon
  | @on low _ version g g' _ _ _ _ hlow hversion hstart hassigned _ _ _ =>
    obtain ⟨hlength, hget⟩ := hassigned.get
    rw [RowIdAssigner.start_eq_ok hstart, RowIdAssigner.start_commitVersion hstart] at hget
    exact ⟨low, version, hlow, Version.toInt_of_word? hversion, hlength, hget⟩

end Parts

/-- A commit is made of what was staged and of nothing else: its info, the added files of all
sources with their row ids, the removed files, the application versions, the domains of the user,
the tombstones of those that the table has, and the high water mark. -/
theorem commit_composition {s : Snapshot} {timestamp : Int64} {t₀ : Transaction}
    {changes : List Staging} {p : Proposal} (hstart : start s timestamp = .ok t₀)
    (hr : ∀ c ∈ changes, c.Reiterable) (hp : ((t₀.stageAll changes).propose txnId).result = .ok p)
    (has : p.actions.items = as.map .ok) :
    ∃ adds written : List Add, ∃ mark : Option DomainMetadata,
      as = .commitInfo (.new timestamp (t₀.stageAll changes).operation
          (t₀.stageAll changes).engineInfo txnId) ::
        (written.map .add ++ (changes.flatMap Staging.filesRemoved).map .remove ++
          ((changes.filterMap (Staging.appVersion? timestamp)).map .appVersion ++
            (changes.filterMap Staging.domainSet? ++
              (changes.filterMap Staging.domainRemoved?).filterMap
                (fun d ↦ (s.domains.get? d).map (DomainMetadata.remove d)) ++
              mark.toList).map .domainMetadata)) ∧
      (∀ turn, (changes.filterMap Staging.source?).flatMap
          (fun s ↦ (s.traverse turn).inline.items) = adds.map (.ok ∘ .add)) ∧
      (s.configuration.writesRowTracking = false → written = adds ∧ mark = none) ∧
      (s.configuration.writesRowTracking = true → ∃ low version : Int64, s.highWaterMark = .ok low ∧
        version.toInt = p.version.toNat ∧ written.length = adds.length ∧
        ∀ i a b, adds[i]? = some a → written[i]? = some b → ∃ base : Int64,
          base.toInt = low.toInt + 1 + ((adds.take i).map Add.taken).sum ∧
          b = a.filled base version) ∧
      p.version.toNat = s.version.toNat + 1 ∧
      (∃ l, Log.commitLocation p.log p.version = .ok l ∧
        ∀ path, l.filePath? = some path →
          path.getLast?.map LogEntry.ofName = some (.commit p.version)) ∧
      ((changes.filterMap (Staging.appVersion? timestamp)).map (·.appId)).Nodup ∧
      (∀ d ∈ mark, d.domain = HighWaterMark.domain) ∧
      (∀ d, .domainMetadata d ∈ as → d.isSystem → mark = some d) ∧
      ((as.filterMap Action.domain?).map (·.domain)).Nodup := by
  obtain rfl := start_eq_ok hstart
  have hsnapshot := stageAll_snapshot (t := { snapshot := s, timestamp }) changes
  have htimestamp := stageAll_timestamp (t := { snapshot := s, timestamp }) changes
  have hadded := stageAll_added (t := { snapshot := s, timestamp }) changes
  have hremoved := stageAll_removed (t := { snapshot := s, timestamp }) changes
  have happ := stageAll_appVersions (t := { snapshot := s, timestamp }) changes
  have hset := stageAll_domainsSet (t := { snapshot := s, timestamp }) changes
  have hdropped := stageAll_domainsRemoved (t := { snapshot := s, timestamp }) changes
  generalize stageAll { snapshot := s, timestamp } changes = t at *
  simp only [List.nil_append] at hadded hremoved happ hset hdropped
  obtain rfl : t.snapshot = s := hsnapshot
  have hreiterable : t.Reiterable := .of_changes hr hadded
  obtain ⟨v, adds, written, domains, mark, hcomposed⟩ := Commits.composed ⟨p, hp, has⟩
  obtain ⟨_, _, _, _, hprepare, -, -, hlog, -⟩ := propose_eq_ok hp
  obtain rfl : p.version = v :=
    Option.some.inj ((prepare_eq_ok hprepare).1.symm.trans hcomposed.next)
  refine ⟨adds, written, mark, ?_, fun turn ↦ ?_, hcomposed.tracked.eq_off, hcomposed.written_on,
    Version.next?_eq_some_iff.1 hcomposed.next, Log.commitLocation_of_directory hlog p.version, ?_,
    fun d hd ↦ (hcomposed.tracked.mark_domain d hd).1,
    fun d hd hs ↦ hcomposed.eq_mark_of_system hd hs, ?_⟩
  · rw [hcomposed.actions, (userDomains_eq_ok hcomposed.user).1, hset, hdropped, happ, hremoved,
      htimestamp]
    rfl
  · rw [← hadded, ← hcomposed.staged]
    exact hreiterable.addedItems turn 1
  · rw [← happ]
    exact checkAppVersions_eq_ok_iff.1 (prepare_eq_ok_iff.1 hprepare).2.1
  · rw [hcomposed.domainActions]
    exact hcomposed.domains_nodup

def labelled : Snapshot := { Sample.snapshot with domains := .ofList [("old", "was")] }

def mixedChanges : List Staging :=
  [.addFiles (.actions [.add (Sample.file "a" 5)]), .removeDomain "old", .appVersion "app" 3,
    .setDomain "user" "on", .removeFiles [{ path := "gone", dataChange := true }],
    .removeDomain "absent",
    .addFiles (.actions [.add { Sample.file "b" 3 with baseRowId := some 2 }])]

theorem commit_composition_mixed :
    let t := stageAll { snapshot := labelled, timestamp := 7 } mixedChanges
    ∃ p : Proposal, ∃ as : List Action, ∃ written : List Add, ∃ mark : Option DomainMetadata,
      (t.propose "id").result = .ok p ∧ p.actions.items = as.map .ok ∧ written.length = 2 ∧
        as = .commitInfo (.new 7 none none "id") ::
          (written.map .add ++ [.remove { path := "gone", dataChange := true }] ++
            ([.appVersion { appId := "app", version := 3, lastUpdated := some 7 }] ++
              ([DomainMetadata.set "user" "on", .remove "old" "was"] ++ mark.toList).map
                .domainMetadata)) := by
  intro t
  have hreiterable : ∀ c ∈ mixedChanges, c.Reiterable := by
    intro c hc
    cases c with
    | addFiles s =>
      simp [mixedChanges] at hc
      rcases hc with rfl | rfl <;> exact Source.reiterable_actions _
    | _ => trivial
  have hstart : start labelled 7 = .ok { snapshot := labelled, timestamp := 7 } := rfl
  have hok : (t.propose "id").result.isOk := by decide +kernel
  cases hp : (t.propose "id").result with
  | error e =>
    rw [hp] at hok
    cases hok
  | ok p =>
    have hadded := stageAll_added (t := { snapshot := labelled, timestamp := 7 }) mixedChanges
    obtain ⟨as, has⟩ := propose_items (t := t) rfl (.of_changes hreiterable hadded) hp
    obtain ⟨adds, written, mark, hshape, hadds, -, hon, -⟩ :=
      commit_composition hstart hreiterable hp has
    obtain ⟨_, _, -, -, hlength, -⟩ := hon rfl
    refine ⟨p, as, written, mark, rfl, has, ?_, hshape⟩
    have hcount := congrArg List.length (hadds 0)
    rw [List.length_map] at hcount
    rw [hlength, ← hcount]
    rfl

end Transaction

end TableLog
