import TableLog.Proofs.Passes

namespace TableLog

namespace Trace

end Trace

namespace Add

def HasRowIds (a : Add) : Prop :=
  a.baseRowId.isSome = true ∧ a.defaultRowCommitVersion.isSome = true

theorem CompletedBy.hasRowIds {a b : Add} (h : a.CompletedBy b) : b.HasRowIds := by
  obtain ⟨_, _, rfl, -, -⟩ := h
  exact ⟨rfl, rfl⟩

end Add

namespace RowTracking

variable {w : RowTracking} {o : Opening} {y : Action}

theorem mem_assignAll {g : RowIdAssigner} {xs : List (Outcome Action)}
    (h : .ok y ∈ assignAll g xs) :
    ∃ x g₁ g₂, .ok x ∈ xs ∧ RowIdAssigner.assign g₁ x = .ok (y, g₂) := by
  induction xs generalizing g with
  | nil => cases h
  | cons x xs ih =>
    cases x with
    | error e => simp [assignAll] at h
    | ok a =>
      rw [assignAll] at h
      cases hb : g.assign a with
      | error e => simp [hb] at h
      | ok r =>
        simp only [hb] at h
        rcases List.mem_cons.1 h with hy | hy
        · rw [Except.ok.inj hy]
          exact ⟨a, g, r.2, List.mem_cons_self, hb⟩
        · obtain ⟨x, g₁, g₂, hx, hassign⟩ := ih hy
          exact ⟨x, g₁, g₂, List.mem_cons_of_mem _ hx, hassign⟩

theorem mem_wrap {body : Trace} (hbody : (w.wrap o).result = .ok body) (ho : o.start.items = [])
    (hy : .ok y ∈ (w.wrap o).start.items ++ body.items) :
    (.ok y ∈ o.inline.items ∧ (w.supported → y.add? = none)) ∨
      ∃ a b, .ok (.add a) ∈ o.inline.items ∧ y = .add b ∧ w.supported ∧ a.CompletedBy b := by
  by_cases hw : w.supported
  · obtain ⟨t, g, ht, -, hstart, hitems⟩ := wrap_supported hw hbody
    rw [hstart, ho, List.nil_append, hitems] at hy
    obtain ⟨x, g₁, g₂, hx, hassign⟩ := mem_assignAll hy
    have hinline : .ok x ∈ o.inline.items := by
      rw [Opening.items_inline, ho, ht]
      exact hx
    rcases RowIdAssigner.assign_eq_ok hassign with ⟨a, b, rfl, rfl, hab⟩ | ⟨hnone, rfl, -⟩
    · exact .inr ⟨a, b, hinline, rfl, hw, (RowIdAssigner.assignAdd_eq_ok hab).1⟩
    · exact .inl ⟨hinline, fun _ ↦ hnone⟩
  · rw [wrap, if_neg hw] at hbody hy
    refine .inl ⟨?_, fun h ↦ absurd h hw⟩
    rw [Opening.items_inline, hbody]
    exact hy

end RowTracking

namespace Protocol

variable {q : Protocol}

theorem checkWritable_eq_ok (h : q.checkWritable = .ok ()) :
    (q.writerVersion = 1 ∨ q.writerVersion = 2 ∨ q.writerVersion = 7) ∧
      (q.writerVersion = 7 → (∀ f ∈ q.writerFeatures.getD [], f.writable = true) ∧
        (.rowTracking ∈ q.writerFeatures.getD [] →
          .domainMetadata ∈ q.writerFeatures.getD [])) := by
  rw [checkWritable] at h
  split at h
  · rename_i hlegacy
    refine ⟨by tauto, fun he ↦ ?_⟩
    rw [he] at hlegacy
    exact absurd hlegacy (by decide)
  · split at h
    · rename_i hseven
      simp only at h
      split at h
      · cases h
      · rename_i hnone
        split at h
        · cases h
        · rename_i hpair
          refine ⟨.inr (.inr hseven), fun _ ↦ ⟨?_, ?_⟩⟩
          · simpa using hnone
          · simpa using hpair
    · cases h

theorem writerFeatures_of_validate (h : q.validate = .ok ()) (hv : q.writerVersion ≠ 7) :
    q.writerFeatures = none := by
  rw [validate] at h
  split at h
  · cases h
  · split at h
    · cases h
    · rename_i hw
      rw [beq_eq_false_iff_ne.2 hv] at hw
      simpa using hw

end Protocol

namespace Sample

def configured (properties : List (String × String)) : Metadata :=
  { metadata with configuration := .ofList properties }

def state (q : Protocol) (properties : List (String × String)) : Snapshot :=
  ⟨⟨configured properties, q, (configured properties).properties, root, 0⟩, .empty⟩

def store (q : Protocol) (properties : List (String × String)) : FileSystem :=
  ground.set (log ++ [LogEntry.name 0])
    (.file (writeActions [.protocol q, .metadata (configured properties)]))

end Sample

namespace Transaction

variable {t : Transaction} {txnId : String} {fs : FileSystem} {v : Version} {p : Proposal}

/-- Where an action of a commit comes from. Added files have passed
the checks of the transaction. -/
inductive Origin (t : Transaction) (txnId : String) (domains : List DomainMetadata)
    (mark : Option DomainMetadata) :
    Action → Prop
  | info :
      Origin t txnId domains mark (.commitInfo (.new t.timestamp t.operation t.engineInfo txnId))
  | kept {a : Add} : .ok (.add a) ∈ t.addedItems 1 → t.checkStaged (.add a) = .ok (.add a) →
      t.snapshot.configuration.writesRowTracking = false → Origin t txnId domains mark (.add a)
  | completed {a b : Add} : .ok (.add a) ∈ t.addedItems 1 → t.checkStaged (.add a) = .ok (.add a) →
      t.snapshot.configuration.writesRowTracking = true → a.CompletedBy b →
      Origin t txnId domains mark (.add b)
  | removed {r : Remove} : r ∈ t.removed → Origin t txnId domains mark (.remove r)
  | appVersion {a : AppVersion} : a ∈ t.appVersions → Origin t txnId domains mark (.appVersion a)
  | user {d : DomainMetadata} : d ∈ domains → Origin t txnId domains mark (.domainMetadata d)
  | mark {d : DomainMetadata} : mark = some d → Origin t txnId domains mark (.domainMetadata d)

theorem mem_files {turn : Nat} {x : Action} (h : .ok x ∈ (t.files turn).inline.items) :
    (∃ a, x = .add a ∧ .ok (.add a) ∈ t.addedItems turn ∧ t.checkStaged (.add a) = .ok (.add a)) ∨
      ∃ r ∈ t.removed, x = .remove r := by
  obtain ⟨body, hbody, hitems⟩ := t.items_files turn
  rw [hbody, Opening.items_inline] at h
  change .ok x ∈ body.items at h
  rw [hitems] at h
  rcases List.mem_append.1 h with h | h
  · obtain ⟨i, hi, hx⟩ := List.mem_map.1 h
    cases i with
    | error e => cases hx
    | ok y =>
      obtain ⟨rfl, a, rfl⟩ := checkStaged_eq_ok hx
      exact .inl ⟨a, rfl, hi, hx⟩
  · obtain ⟨y, hy, hx⟩ := List.mem_map.1 h
    obtain ⟨r, hr, rfl⟩ := List.mem_map.1 hy
    exact .inr ⟨r, hr, (Except.ok.inj hx).symm⟩

/-- All that is in the stream of a proposal comes from what was staged and checked. -/
theorem origin_of_propose (hp : (t.propose txnId).result = .ok p) :
    ∃ domains mark, t.userDomains = .ok domains ∧
      (∀ d, mark = some d → t.snapshot.configuration.writesRowTracking = true) ∧
      (∀ d ∈ domains, .ok (.domainMetadata d) ∈ p.actions.items) ∧
      ∀ x, .ok x ∈ p.actions.items → Origin t txnId domains mark x := by
  obtain ⟨domains, w, mark, body, hprepare, hupdate, hbody, -, hitems⟩ := propose_eq_ok hp
  obtain ⟨-, hdomains, hmake⟩ := prepare_eq_ok hprepare
  have hw := (RowTracking.make_eq_ok hmake).2.1
  refine ⟨domains, mark, hdomains, fun d hd ↦ ?_, fun d hd ↦ ?_, fun x hx ↦ ?_⟩
  · subst hd
    by_contra hoff
    rw [RowTracking.update, hw, if_neg hoff] at hupdate
    cases hupdate
  · rw [hitems]
    simp [hd]
  · rw [hitems] at hx
    rcases List.mem_cons.1 hx with hx | hx
    · rw [Except.ok.inj hx]
      exact .info
    · rcases List.mem_append.1 hx with hx | hx
      · rcases RowTracking.mem_wrap hbody rfl hx with ⟨hmem, hkept⟩ | ⟨a, b, hmem, rfl, hon, hab⟩
        · rcases mem_files hmem with ⟨a, rfl, ha, hcheck⟩ | ⟨r, hr, rfl⟩
          · refine .kept ha hcheck (Bool.eq_false_iff.2 fun hon ↦ ?_)
            cases hkept (hw.trans hon)
          · exact .removed hr
        · rcases mem_files hmem with ⟨a, he, ha, hcheck⟩ | ⟨r, -, he⟩
          · cases he
            exact .completed ha hcheck (hw.symm.trans hon) hab
          · cases he
      · obtain ⟨y, hy, he⟩ := List.mem_map.1 hx
        rw [← Except.ok.inj he]
        rcases List.mem_append.1 hy with hy | hy
        · obtain ⟨a, ha, rfl⟩ := List.mem_map.1 hy
          exact .appVersion ha
        · obtain ⟨d, hd, rfl⟩ := List.mem_map.1 hy
          rcases List.mem_append.1 hd with hd | hd
          · exact .user hd
          · exact .mark (Option.mem_toList.1 hd)

def fileItems (t : Transaction) (txnId : String) (fs : FileSystem) : List (Outcome Action) :=
  match (t.propose txnId).result with
  | .error _ => []
  | .ok p =>
    match (fs.claim p).1 with
    | .ok (some place) => ((Source.file ((t.commit txnId fs).2.get? place)).traverse 0).inline.items
    | _ => []

theorem fileItems_of_committed (h : (t.commit txnId fs).1.result = .ok (.committed v)) :
    ∃ p, ∃ as : List Action,
      (t.propose txnId).result = .ok p ∧ p.version = v ∧ p.actions.items = as.map .ok ∧
      t.fileItems txnId fs = p.actions.items := by
  rw [fileItems]
  rw [commit] at h ⊢
  cases hp : (t.propose txnId).result with
  | error e =>
    simp only [hp] at h
    cases h
  | ok p =>
    simp only [hp] at h ⊢
    obtain ⟨ground, -, hclaim⟩ := fs.claim_keeps p
    rcases hclaim with ⟨e, hc⟩ | hc | ⟨place, hplace, hfree, hc⟩
    · rw [FileSystem.commit, hc] at h
      cases h
    · rw [FileSystem.commit, hc] at h
      cases h
    · rcases FileSystem.commit_of_claim hc hplace hfree with ⟨e, -, he, -⟩ | ⟨hwhole, hresult,
        hwritten⟩
      · rw [he] at h
        cases h
      · have hitems := Results.eq_ok_of_failure hwhole
        have hcommits : t.Commits txnId (Results.actions p.actions.items) := ⟨p, hp, hitems⟩
        rw [hresult] at h
        refine ⟨p, _, rfl, Response.committed.inj (Except.ok.inj h), hitems, ?_⟩
        simp only [hc]
        rw [hwritten.get?, Source.traverse, Source.openFile, Opening.items_inline]
        change (Trace.ofItems _).items = _
        rw [Trace.items_ofItems, hcommits.readActions_write, ← hitems]

section Rules

theorem checkRemovals_eq_ok_iff :
    t.checkRemovals = .ok () ↔ (t.snapshot.configuration.appendOnly = true → t.removed = []) := by
  rw [checkRemovals]
  split
  · rename_i h
    exact ⟨nofun, fun hk ↦ absurd (hk h.2) h.1⟩
  · rename_i h
    exact ⟨fun _ hon ↦ by_contra fun hr ↦ h ⟨hr, hon⟩, fun _ ↦ rfl⟩

theorem checkStaged_add_iff {a : Add} :
    t.checkStaged (.add a) = .ok (.add a) ↔
    (t.rejectsDataChange = true → a.dataChange = false) := by
  rw [checkStaged]
  cases t.rejectsDataChange <;> cases a.dataChange <;> simp

theorem rejectsDataChange_iff :
    t.rejectsDataChange = true ↔
      t.snapshot.configuration.changeDataFeed = true ∧ ∃ r ∈ t.removed, r.dataChange = true := by
  rw [rejectsDataChange, Bool.and_eq_true, List.any_eq_true]

def feed : List (String × String) := [("delta.enableChangeDataFeed", "true")]

end Rules

section Permissions

variable {s : Snapshot} {timestamp : Int64} {t₀ : Transaction} {changes : List Staging}

theorem domainMetadataSupported_of_mem {domains : List DomainMetadata} {d : DomainMetadata}
    (h : t.userDomains = .ok domains) (hd : d ∈ domains) :
    t.snapshot.configuration.domainMetadataSupported = true := by
  rw [userDomains] at h
  split at h
  · rw [← Except.ok.inj h] at hd
    cases hd
  · split at h
    · assumption
    · cases h

theorem mem_userDomains {domains : List DomainMetadata} (h : t.userDomains = .ok domains)
    {d : DomainMetadata} :
    d ∈ domains ↔ d ∈ t.domainsSet ∨ ∃ name ∈ t.domainsRemoved, t.tombstone? name = some d := by
  rw [(userDomains_eq_ok h).1, List.mem_append, List.mem_filterMap]

/-- No commit writes what the protocol does not permit, unless the protocol lists domain metadata
for readers alone: then the domains of users are still written, though not the high water mark. -/
theorem commit_permitted_iff (hvalid : s.configuration.protocol.validate = .ok ())
    (hstart : start s timestamp = .ok t₀)
    (hp : ((t₀.stageAll changes).propose txnId).result = .ok p) :
    let q := s.configuration.protocol
    (q.writerVersion = 1 ∨ q.writerVersion = 2 ∨ q.writerVersion = 7) ∧
      (∀ f ∈ q.writerFeatures.getD [], f.writable = true) ∧
      (∀ d, .ok (.domainMetadata d) ∈ p.actions.items →
        q.writerVersion = 7 ∧ q.lists .domainMetadata = true ∧
          (d.isSystem = true → .domainMetadata ∈ q.writerFeatures.getD [])) ∧
      ((∀ d, .ok (.domainMetadata d) ∈ p.actions.items →
          q.writerVersion = 7 ∧ .domainMetadata ∈ q.writerFeatures.getD []) ↔
        .domainMetadata ∈ q.writerFeatures.getD [] ∨
          (∀ d c, .setDomain d c ∉ changes) ∧
            ∀ d, .removeDomain d ∈ changes → s.domains.get? d = none) ∧
      ∀ fs v, ((t₀.stageAll changes).commit txnId fs).1.result = .ok (.committed v) →
        (t₀.stageAll changes).fileItems txnId fs = p.actions.items := by
  intro q
  obtain ⟨_, hwritable, -⟩ := Outcome.bind_eq_ok_iff.1 hstart
  obtain ⟨hversions, hseven⟩ := Protocol.checkWritable_eq_ok hwritable
  obtain rfl := start_eq_ok hstart
  have hsnapshot := stageAll_snapshot (t := { snapshot := s, timestamp }) changes
  have hset := stageAll_domainsSet (t := { snapshot := s, timestamp }) changes
  have hremoved := stageAll_domainsRemoved (t := { snapshot := s, timestamp }) changes
  generalize stageAll { snapshot := s, timestamp } changes = t at *
  simp only [List.nil_append] at hset hremoved
  obtain rfl : t.snapshot = s := hsnapshot
  obtain ⟨domains, mark, hdomains, hmark, hwritten, horigin⟩ := origin_of_propose hp
  -- row tracking brings its need for domain metadata along, users do not
  have hsupported : ∀ d ∈ domains, q.writerVersion = 7 ∧ q.lists .domainMetadata = true := by
    intro d hd
    have hs := domainMetadataSupported_of_mem hdomains hd
    rw [Configuration.domainMetadataSupported, Bool.and_eq_true] at hs
    exact ⟨eq_of_beq hs.1, hs.2⟩
  have htracking : ∀ d, mark = some d →
      q.writerVersion = 7 ∧ .domainMetadata ∈ q.writerFeatures.getD [] := by
    intro d hd
    have hon := hmark d hd
    rw [Configuration.writesRowTracking, Configuration.rowTrackingSupported,
      Protocol.supportsRowTracking, Bool.and_eq_true, Bool.and_eq_true] at hon
    have hv : q.writerVersion = 7 := eq_of_beq hon.1.1
    exact ⟨hv, (hseven hv).2 (by simpa using hon.1.2)⟩
  have hlists : .domainMetadata ∈ q.writerFeatures.getD [] → q.lists .domainMetadata = true := by
    intro hmem
    simp [Protocol.lists, hmem]
  refine ⟨hversions, fun f hf ↦ ?_, fun d hd ↦ ?_, ⟨fun hall ↦ ?_, fun hor d hd ↦ ?_⟩,
    fun fs v hc ↦ ?_⟩
  · by_cases hv : q.writerVersion = 7
    · exact (hseven hv).1 f hf
    · rw [Protocol.writerFeatures_of_validate hvalid hv] at hf
      cases hf
  · cases horigin _ hd with
    | user hmem =>
      obtain ⟨hv, hlisted⟩ := hsupported d hmem
      refine ⟨hv, hlisted, fun hs ↦ ?_⟩
      rw [userDomains_isSystem hdomains d hmem] at hs
      cases hs
    | mark hm =>
      obtain ⟨hv, hmem⟩ := htracking d hm
      exact ⟨hv, hlists hmem, fun _ ↦ hmem⟩
  · refine or_iff_not_imp_left.2 fun hnot ↦ ?_
    have hnone : ∀ d, d ∉ domains := fun d hd ↦ hnot (hall d (hwritten d hd)).2
    refine ⟨fun d c hchange ↦ ?_, fun d hchange ↦ ?_⟩
    · refine hnone (.set d c) ((mem_userDomains hdomains).2 (.inl ?_))
      rw [hset]
      exact mem_domainSet.2 ⟨d, c, hchange, rfl⟩
    · by_contra hsome
      obtain ⟨c, hc⟩ := Option.ne_none_iff_exists'.1 hsome
      refine hnone (.remove d c) ((mem_userDomains hdomains).2 (.inr ⟨d, ?_, ?_⟩))
      · rw [hremoved]
        exact mem_domainRemoved.2 hchange
      · rw [tombstone?, hc]
        rfl
  · cases horigin _ hd with
    | user hmem =>
      refine ⟨(hsupported d hmem).1, hor.resolve_right fun hnone ↦ ?_⟩
      rcases (mem_userDomains hdomains).1 hmem with hmem | ⟨name, hname, hstone⟩
      · rw [hset] at hmem
        obtain ⟨d, c, hchange, rfl⟩ := mem_domainSet.1 hmem
        exact hnone.1 d c hchange
      · rw [hremoved] at hname
        rw [tombstone?, hnone.2 name (mem_domainRemoved.1 hname)] at hstone
        cases hstone
    | mark hm => exact htracking d hm
  · obtain ⟨p', _, hp', -, -, hfile⟩ := fileItems_of_committed hc
    obtain rfl : p = p' := Except.ok.inj (hp.symm.trans hp')
    exact hfile

def sampleChanges : List Staging :=
  [.setDomain "app" "on", .removeDomain "old", .addFiles (.actions [.add (Sample.file "f" 5)])]

def sample : Transaction := { snapshot := Sample.snapshot, timestamp := 7 }

theorem commit_permitted_iff_sample :
    ∃ p, ((sample.stageAll sampleChanges).propose "id").result = .ok p ∧
      ∀ d, .ok (.domainMetadata d) ∈ p.actions.items →
        Sample.protocol.writerVersion = 7 ∧
        .domainMetadata ∈ Sample.protocol.writerFeatures.getD [] := by
  have hok : ((sample.stageAll sampleChanges).propose "id").result.isOk := by decide +kernel
  cases hp : ((sample.stageAll sampleChanges).propose "id").result with
  | error e =>
    rw [hp] at hok
    cases hok
  | ok p =>
    have hstart : start Sample.snapshot 7 = .ok sample := rfl
    obtain ⟨-, -, -, hpermitted, -⟩ := commit_permitted_iff (s := Sample.snapshot) rfl hstart hp
    exact ⟨p, rfl, hpermitted.2 (.inl (by decide))⟩

def readersOnly : Protocol := ⟨3, 7, some [.domainMetadata], some []⟩

theorem domain_written_unlisted :
    let s := Sample.state readersOnly []
    let t : Transaction := setDomain { snapshot := s, timestamp := 7 } "app" "on"
    Snapshot.load (Sample.store readersOnly []) Sample.root none = .ok s ∧
      readersOnly.validate = .ok () ∧
      readersOnly.checkWritable = .ok () ∧
      (t.commit "id" (Sample.store readersOnly [])).1.result = .ok (.committed 1) ∧
      .ok (.domainMetadata (.set "app" "on")) ∈ t.fileItems "id" (Sample.store readersOnly []) ∧
      .domainMetadata ∉ readersOnly.writerFeatures.getD [] := by
  decide +kernel

end Permissions

section Promise

theorem hasRowIds_of_propose (hp : (t.propose txnId).result = .ok p)
    (hon : t.snapshot.configuration.writesRowTracking = true) :
    ∀ a, .ok (.add a) ∈ p.actions.items → a.HasRowIds := by
  obtain ⟨_, _, -, -, -, horigin⟩ := origin_of_propose hp
  intro a ha
  cases horigin _ ha with
  | kept _ _ hoff =>
    rw [hon] at hoff
    cases hoff
  | completed _ _ _ hab => exact hab.hasRowIds

theorem Commits.mem_of_staged {as : List Action} (h : t.Commits txnId as)
    (hoff : t.snapshot.configuration.writesRowTracking = false) {a : Add}
    (ha : .ok (.add a) ∈ t.addedItems 1) :
    .add a ∈ as := by
  obtain ⟨v, adds, written, domains, mark, hcomposed⟩ := h.composed
  rw [hcomposed.staged] at ha
  obtain ⟨b, hb, he⟩ := List.mem_map.1 ha
  cases he
  rw [← (hcomposed.tracked.eq_off hoff).1, ← hcomposed.writtenAdds] at hb
  obtain ⟨x, hx, hxb⟩ := List.mem_filterMap.1 hb
  cases x with
  | add c => rwa [← Option.some.inj hxb]
  | _ => cases hxb

/-- Row tracking that is enabled gives every added file its row ids, unless it is suspended as well.
Then a commit has just the row ids that were staged. -/
theorem row_ids_promised_iff (he : t.snapshot.configuration.rowTrackingEnabled = true) :
    (∀ p, (t.propose txnId).result = .ok p → t.snapshot.configuration.rowTrackingSuspended = false →
      ∀ a, .ok (.add a) ∈ p.actions.items → a.HasRowIds) ∧
      ∀ fs v, (t.commit txnId fs).1.result = .ok (.committed v) →
        ∃ as : List Action, t.fileItems txnId fs = as.map .ok ∧
          ((∀ a, .add a ∈ as → a.HasRowIds) ↔
            t.snapshot.configuration.rowTrackingSuspended = false ∨
              ∀ a, .ok (.add a) ∈ t.addedItems 1 → a.HasRowIds) := by
  have hwrites : t.snapshot.configuration.writesRowTracking =
      !t.snapshot.configuration.rowTrackingSuspended := by
    rw [Configuration.rowTrackingEnabled, Bool.and_eq_true] at he
    rw [Configuration.writesRowTracking, he.1, Bool.true_and]
  have hall : ∀ p, (t.propose txnId).result = .ok p →
      t.snapshot.configuration.rowTrackingSuspended = false →
      ∀ a, .ok (.add a) ∈ p.actions.items → a.HasRowIds := by
    intro p hp hs
    exact hasRowIds_of_propose hp (by rw [hwrites, hs]; rfl)
  refine ⟨hall, fun fs v hc ↦ ?_⟩
  obtain ⟨p, as, hp, -, has, hfile⟩ := fileItems_of_committed hc
  refine ⟨as, hfile.trans has, fun h ↦ ?_, fun h a ha ↦ ?_⟩
  · refine or_iff_not_imp_left.2 fun hs a ha ↦ ?_
    have hoff : t.snapshot.configuration.writesRowTracking = false := by simpa [hwrites] using hs
    have hcommits : t.Commits txnId as := ⟨p, hp, has⟩
    exact h a (hcommits.mem_of_staged hoff ha)
  · have hmem : .ok (.add a) ∈ p.actions.items := has ▸ List.mem_map_of_mem ha
    rcases h with hs | hstaged
    · exact hall p hp hs a hmem
    · obtain ⟨_, _, -, -, -, horigin⟩ := origin_of_propose hp
      cases horigin _ hmem with
      | kept hb _ _ => exact hstaged a hb
      | completed _ _ _ hab => exact hab.hasRowIds

def enabled : List (String × String) := [("delta.enableRowTracking", "true")]

def addition (properties : List (String × String)) : Transaction where
  snapshot := Sample.state Sample.protocol properties
  timestamp := 7
  added := [.actions [.add (Sample.file "f" 5)]]

theorem row_ids_promised_iff_enabled :
    (addition enabled).snapshot.configuration.rowTrackingEnabled = true ∧
      ∃ as : List Action,
        (addition enabled).fileItems "id" (Sample.store Sample.protocol enabled) = as.map .ok ∧
        ∀ a, .add a ∈ as → a.HasRowIds := by
  have he : (addition enabled).snapshot.configuration.rowTrackingEnabled = true := by decide +kernel
  have hc : ((addition enabled).commit "id" (Sample.store Sample.protocol enabled)).1.result =
      .ok (.committed 1) := by
    decide +kernel
  obtain ⟨as, has, hiff⟩ := (row_ids_promised_iff he).2 _ _ hc
  exact ⟨he, as, has, hiff.2 (.inl (by decide +kernel))⟩

def suspended : List (String × String) := ("delta.rowTrackingSuspended", "true") :: enabled

theorem enabled_without_row_ids :
    Snapshot.load (Sample.store Sample.protocol suspended) Sample.root none =
        .ok (addition suspended).snapshot ∧
      (addition suspended).snapshot.configuration.rowTrackingEnabled = true ∧
      ((addition suspended).commit "id" (Sample.store Sample.protocol suspended)).1.result =
        .ok (.committed 1) ∧
      .ok (.add (Sample.file "f" 5)) ∈ (addition suspended).fileItems "id"
        (Sample.store Sample.protocol suspended) ∧
      (Sample.file "f" 5).baseRowId = none ∧
      (Sample.file "f" 5).defaultRowCommitVersion = none := by
  decide +kernel

end Promise

end Transaction

end TableLog
