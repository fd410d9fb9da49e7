import TableLog.Proofs.RowTracking
import TableLog.Transaction

namespace TableLog

/-- What can be done to a transaction before it is committed. -/
inductive Staging
  | operation (name : String)
  | engineInfo (info : String)
  | appVersion (appId : String) (version : Int64)
  | setDomain (domain configuration : String)
  | removeDomain (domain : String)
  | addFiles (source : Source)
  | removeFiles (files : List Remove)

namespace Staging

def domainSet? : Staging → Option DomainMetadata
  | setDomain d c => some (.set d c)
  | _ => none

def domainRemoved? : Staging → Option String
  | removeDomain d => some d
  | _ => none

def source? : Staging → Option Source
  | addFiles s => some s
  | _ => none

def filesRemoved : Staging → List Remove
  | removeFiles rs => rs
  | _ => []

def appVersion? (timestamp : Int64) : Staging → Option AppVersion
  | appVersion appId version => some { appId, version, lastUpdated := some timestamp }
  | _ => none

end Staging

namespace Transaction

def stage (t : Transaction) : Staging → Transaction
  | .operation s => t.withOperation s
  | .engineInfo s => t.withEngineInfo s
  | .appVersion appId version => t.withAppVersion appId version
  | .setDomain d c => t.setDomain d c
  | .removeDomain d => t.removeDomain d
  | .addFiles s => t.addFiles s
  | .removeFiles rs => t.removeFiles rs

def stageAll (t : Transaction) (changes : List Staging) : Transaction := changes.foldl stage t

variable {t : Transaction} {txnId : String}

theorem stageAll_snapshot (changes : List Staging) :
    (t.stageAll changes).snapshot = t.snapshot := by
  induction changes generalizing t with
  | nil => rfl
  | cons c changes ih =>
    refine ih.trans ?_
    cases c <;> rfl

theorem stageAll_timestamp (changes : List Staging) :
    (t.stageAll changes).timestamp = t.timestamp := by
  induction changes generalizing t with
  | nil => rfl
  | cons c changes ih =>
    refine ih.trans ?_
    cases c <;> rfl

theorem stageAll_concat {α : Type} {field : Transaction → List α} {staged : Staging → List α}
    (h : ∀ t c, field (t.stage c) = field t ++ staged c) (changes : List Staging) :
    field (t.stageAll changes) = field t ++ changes.flatMap staged := by
  induction changes generalizing t with
  | nil => exact (List.append_nil _).symm
  | cons c changes ih =>
    refine ih.trans ?_
    rw [h, List.append_assoc, List.flatMap_cons]

theorem stageAll_collects {α : Type} {field : Transaction → List α} {staged? : Staging → Option α}
    (h : ∀ t c, field (t.stage c) = field t ++ (staged? c).toList) (changes : List Staging) :
    field (t.stageAll changes) = field t ++ changes.filterMap staged? := by
  rw [List.filterMap_eq_flatMap_toList]
  exact stageAll_concat h changes

theorem stageAll_added (changes : List Staging) :
    (t.stageAll changes).added = t.added ++ changes.filterMap Staging.source? := by
  refine stageAll_collects (fun t c ↦ ?_) changes
  cases c <;> first | rfl | exact (List.append_nil _).symm

theorem stageAll_removed (changes : List Staging) :
    (t.stageAll changes).removed = t.removed ++ changes.flatMap Staging.filesRemoved := by
  refine stageAll_concat (fun t c ↦ ?_) changes
  cases c <;> first | rfl | exact (List.append_nil _).symm

theorem stageAll_appVersions (changes : List Staging) :
    (t.stageAll changes).appVersions = t.appVersions ++
      changes.filterMap (Staging.appVersion? t.timestamp) := by
  induction changes generalizing t with
  | nil => exact (List.append_nil _).symm
  | cons c changes ih =>
    refine ih.trans ?_
    cases c with
    | appVersion appId version => exact List.append_assoc _ _ _
    | _ => rfl

theorem stageAll_domainsSet (changes : List Staging) :
    (t.stageAll changes).domainsSet = t.domainsSet ++ changes.filterMap Staging.domainSet? := by
  refine stageAll_collects (fun t c ↦ ?_) changes
  cases c <;> first | rfl | exact (List.append_nil _).symm

theorem stageAll_domainsRemoved (changes : List Staging) :
    (t.stageAll changes).domainsRemoved = t.domainsRemoved ++
      changes.filterMap Staging.domainRemoved? := by
  refine stageAll_collects (fun t c ↦ ?_) changes
  cases c <;> first | rfl | exact (List.append_nil _).symm

def addedItems (t : Transaction) (turn : Nat) : List (Outcome Action) :=
  t.added.flatMap fun s ↦ (s.traverse turn).inline.items

/-- The files that a turn of the staged sources adds. -/
def stagedAdds (t : Transaction) (turn : Nat) : List Add :=
  (Results.actions (t.addedItems turn)).filterMap Action.add?

theorem items_files (turn : Nat) :
    ∃ body, t.files turn = { result := .ok body } ∧
      body.items = (t.addedItems turn).map (·.bind t.checkStaged) ++
        (t.removed.map Action.remove).map .ok := by
  refine ⟨_, rfl, ?_⟩
  rw [Trace.items_append, Trace.items_mapItems, Trace.items_closed, Source.items_traverseEach,
    Trace.items_ofActions]
  rfl

theorem checkStaged_eq_ok {a b : Action} (h : t.checkStaged a = .ok b) :
    b = a ∧ ∃ x, a = .add x := by
  cases a with
  | add x =>
    rw [checkStaged] at h
    split at h
    · cases h
    · exact ⟨(Except.ok.inj h).symm, x, rfl⟩
  | _ => cases h

theorem staged_of_checked {xs : List (Outcome Action)} {rs : List Remove} {ys : List Action}
    (h : xs.map (·.bind t.checkStaged) ++ (rs.map Action.remove).map .ok = ys.map .ok) :
    xs = ((Results.actions xs).filterMap Action.add?).map (.ok ∘ .add) ∧
      ys = Action.files ((Results.actions xs).filterMap Action.add?) rs := by
  induction xs generalizing ys with
  | nil =>
    have hinj : ∀ a b : Action, Except.ok (ε := Error) a = .ok b → a = b := fun _ _ ↦ Except.ok.inj
    exact ⟨rfl, ((List.map_inj_right hinj).1 h).symm⟩
  | cons x xs ih =>
    cases ys with
    | nil => cases h
    | cons y ys =>
      obtain ⟨hx, htail⟩ := List.cons.inj h
      cases x with
      | error e => cases hx
      | ok a =>
        obtain ⟨rfl, b, rfl⟩ := checkStaged_eq_ok hx
        obtain ⟨hxs, hys⟩ := ih htail
        refine ⟨?_, ?_⟩
        · simp only [Results.actions, List.filterMap_cons, Action.add?, List.map_cons,
            Function.comp]
          exact congrArg (Except.ok (Action.add b) :: ·) hxs
        · simp only [Results.actions, List.filterMap_cons, Action.add?, Action.files, List.map_cons,
            List.cons_append]
          exact congrArg (Action.add b :: ·) hys

theorem prepare_eq_ok_iff {v : Version} {domains : List DomainMetadata} {w : RowTracking} :
    t.prepare = .ok (v, domains, w) ↔ t.commitVersion = .ok v ∧ t.checkAppVersions = .ok () ∧
      t.checkRemovals = .ok () ∧ t.userDomains = .ok domains ∧
        RowTracking.make t.snapshot.configuration.writesRowTracking t.snapshot v = .ok w := by
  constructor
  · intro h
    obtain ⟨u, hu, h⟩ := Outcome.bind_eq_ok_iff.1 h
    obtain ⟨_, happ, h⟩ := Outcome.bind_eq_ok_iff.1 h
    obtain ⟨_, hremovals, h⟩ := Outcome.bind_eq_ok_iff.1 h
    obtain ⟨ds, hds, h⟩ := Outcome.bind_eq_ok_iff.1 h
    obtain ⟨w', hw, h⟩ := Outcome.bind_eq_ok_iff.1 h
    obtain ⟨rfl, he⟩ := Prod.mk.inj (Except.ok.inj h)
    obtain ⟨rfl, rfl⟩ := Prod.mk.inj he
    exact ⟨hu, happ, hremovals, hds, hw⟩
  · intro h
    obtain ⟨hv, happ, hremovals, hds, hw⟩ := h
    simp only [prepare, hv, happ, hremovals, hds, hw, bind, Except.bind, pure, Except.pure]

theorem commitVersion_eq_ok_iff {v : Version} :
    t.commitVersion = .ok v ↔ t.snapshot.version.next? = some v := by
  rw [commitVersion]
  cases t.snapshot.version.next? with
  | none => simp
  | some u => simp

theorem prepare_eq_ok {v : Version} {domains : List DomainMetadata} {w : RowTracking}
    (h : t.prepare = .ok (v, domains, w)) :
    t.snapshot.version.next? = some v ∧ t.userDomains = .ok domains ∧
      RowTracking.make t.snapshot.configuration.writesRowTracking t.snapshot v = .ok w := by
  obtain ⟨hv, -, -, hds, hw⟩ := prepare_eq_ok_iff.1 h
  exact ⟨commitVersion_eq_ok_iff.1 hv, hds, hw⟩

theorem items_stream (domains : List DomainMetadata) (files : Trace) :
    (t.stream txnId domains files).items =
      .ok (.commitInfo (.new t.timestamp t.operation t.engineInfo txnId)) ::
        (files.items ++ (t.appVersions.map Action.appVersion ++
          domains.map Action.domainMetadata).map .ok) := by
  rw [stream, List.cons_append, Trace.items, Trace.items_append, Trace.items_closed,
    Trace.items_ofActions]

theorem propose_eq_ok {p : Proposal} (h : (t.propose txnId).result = .ok p) :
    ∃ domains w mark body,
      t.prepare = .ok (p.version, domains, w) ∧ (w.update (t.files 0)).2 = .ok mark ∧
      (w.wrap (t.files 1)).result = .ok body ∧ Log.directory t.snapshot.root = .ok p.log ∧
      p.actions.items = .ok (.commitInfo (.new t.timestamp t.operation t.engineInfo txnId)) ::
        ((w.wrap (t.files 1)).start.items ++ body.items ++
          (t.appVersions.map Action.appVersion ++
            (domains ++ mark.toList).map Action.domainMetadata).map .ok) := by
  rw [propose] at h
  split at h
  · cases h
  · rename_i v domains w hprepare
    split at h
    rename_i traffic mark hupdate
    split at h
    · cases h
    · rename_i mark
      simp only at h
      split at h
      · cases h
      · rename_i body hbody
        split at h
        · cases h
        · rename_i log hlog
          obtain rfl := Except.ok.inj h
          refine ⟨domains, w, mark, body, hprepare, by rw [hupdate], hbody, hlog, ?_⟩
          rw [items_stream, Trace.items_append]

theorem propose_of_parts {v : Version} {domains : List DomainMetadata} {w : RowTracking}
    {mark : Option DomainMetadata} {body : Trace} {log : Location}
    (hprepare : t.prepare = .ok (v, domains, w)) (hupdate : (w.update (t.files 0)).2 = .ok mark)
    (hbody : (w.wrap (t.files 1)).result = .ok body)
    (hlog : Log.directory t.snapshot.root = .ok log) :
    ∃ p, (t.propose txnId).result = .ok p ∧
      p.actions = t.stream txnId (domains ++ mark.toList) ((w.wrap (t.files 1)).start ++ body) := by
  cases hpass : w.update (t.files 0) with
  | mk traffic outcome =>
    obtain rfl : outcome = .ok mark := by rw [← hupdate, hpass]
    rw [propose, hprepare]
    simp only [hpass, hbody, hlog]
    exact ⟨_, rfl, rfl⟩

/-- The actions that a transaction commits, if its stream does not fail. -/
def Commits (t : Transaction) (txnId : String) (as : List Action) : Prop :=
  ∃ p, (t.propose txnId).result = .ok p ∧ p.actions.items = as.map .ok

/-- How the files of a commit and its high water mark come about: as staged and without a mark, or
with row ids and with the mark that the first turn of the sources leads to. -/
inductive Tracked (t : Transaction) (v : Version) :
    List Add → List Add → Option DomainMetadata → Prop
  | off {adds : List Add} : t.snapshot.configuration.writesRowTracking = false →
      Tracked t v adds adds none
  | on {mark mark' commitVersion : Int64} {g g' : RowIdAssigner} {first adds written : List Add} :
      t.snapshot.configuration.writesRowTracking = true → t.snapshot.highWaterMark = .ok mark →
      v.word? = some commitVersion → RowIdAssigner.start mark commitVersion = .ok g →
      RowIdAssigner.Assigned g adds written g' → t.addedItems 0 = first.map (.ok ∘ .add) →
      (∀ a ∈ first, ∃ n, a.requiredCount = .ok n) →
      mark'.toInt = mark.toInt + (first.map Add.records).sum →
      Tracked t v adds written
        (if mark' = mark then none else some (HighWaterMark.toDomain ⟨mark'⟩))

structure Composed (t : Transaction) (txnId : String) (v : Version) (adds written : List Add)
    (domains : List DomainMetadata) (mark : Option DomainMetadata) (as : List Action) : Prop where
  next : t.snapshot.version.next? = some v
  user : t.userDomains = .ok domains
  staged : t.addedItems 1 = adds.map (.ok ∘ .add)
  tracked : t.Tracked v adds written mark
  actions : as = .commitInfo (.new t.timestamp t.operation t.engineInfo txnId) ::
    (Action.files written t.removed ++
      (t.appVersions.map .appVersion ++ (domains ++ mark.toList).map .domainMetadata))

theorem exists_of_append_eq_map_ok {xs : List (Outcome Action)} {ys zs : List Action}
    (h : xs ++ ys.map .ok = zs.map .ok) : ∃ ws, xs = ws.map .ok ∧ zs = ws ++ ys := by
  obtain ⟨ws, us, rfl, hws, hus⟩ := List.map_eq_append_iff.1 h.symm
  refine ⟨ws, hws.symm, ?_⟩
  have hinj : ∀ a b : Action, Except.ok (ε := Error) a = .ok b → a = b := fun _ _ ↦ Except.ok.inj
  rw [(List.map_inj_right hinj).1 hus]

theorem tracked_of_files {v : Version} {w : RowTracking} {mark : Option DomainMetadata}
    {body : Trace} {files : List Action}
    (hmake : RowTracking.make t.snapshot.configuration.writesRowTracking t.snapshot v = .ok w)
    (hupdate : (w.update (t.files 0)).2 = .ok mark) (hbody : (w.wrap (t.files 1)).result = .ok body)
    (hfiles : (w.wrap (t.files 1)).start.items ++ body.items = files.map .ok) :
    ∃ adds written, t.addedItems 1 = adds.map (.ok ∘ .add) ∧ t.Tracked v adds written mark ∧
      files = Action.files written t.removed := by
  obtain ⟨hv, hsupported, hmark⟩ := RowTracking.make_eq_ok hmake
  obtain ⟨first, hfirst, hfirstItems⟩ := t.items_files 0
  obtain ⟨second, hsecond, hsecondItems⟩ := t.items_files 1
  rw [hfirst] at hupdate
  rw [hsecond] at hbody hfiles
  cases hw : t.snapshot.configuration.writesRowTracking with
  | false =>
    have hoff : ¬w.supported := by simp [hsupported, hw]
    rw [RowTracking.wrap, if_neg hoff] at hbody hfiles
    rw [RowTracking.update, if_neg hoff] at hupdate
    obtain rfl := Except.ok.inj hbody
    obtain rfl := Except.ok.inj hupdate
    rw [hsecondItems] at hfiles
    obtain ⟨hstaged, hfiles⟩ := staged_of_checked hfiles
    exact ⟨_, _, hstaged, .off hw, hfiles⟩
  | true =>
    have hon : w.supported := by simp [hsupported, hw]
    obtain ⟨t₁, g, ht₁, hg, hstart, hitems⟩ := RowTracking.wrap_supported hon hbody
    obtain rfl := Except.ok.inj ht₁
    rw [hstart, hitems, hsecondItems] at hfiles
    obtain ⟨ys, hys⟩ := RowTracking.ok_of_assignAll hfiles
    obtain ⟨hstaged, rfl⟩ := staged_of_checked hys
    rw [hys] at hfiles
    obtain ⟨written, g', hassigned, rfl⟩ := RowTracking.assignAll_files hfiles
    obtain ⟨t₀, g₀, zs, m, ht₀, hg₀, hzs, hfeed, rfl⟩ := RowTracking.update_eq_ok hon rfl hupdate
    obtain rfl := Except.ok.inj ht₀
    rw [hfirstItems] at hzs
    obtain ⟨us, hus⟩ := RowTracking.ok_of_assignAll hzs
    obtain ⟨hfirst, rfl⟩ := staged_of_checked hus
    rw [hus] at hzs
    obtain ⟨bs, g₁, hassigned₀, rfl⟩ := RowTracking.assignAll_files hzs
    obtain ⟨hsum, hcounts⟩ := RowTracking.feed_raise hfeed
    rw [Action.adds_files] at hsum hcounts
    have hrecords := Add.map_of_completed Add.CompletedBy.records hassigned₀.completed
    have hstagedCounts := Add.counts_of_completed hassigned₀.completed hcounts
    exact ⟨_, written, hstaged,
      .on hw (hmark hw) hv hg hassigned hfirst hstagedCounts (hrecords ▸ hsum), rfl⟩

theorem Commits.composed {as : List Action} (h : t.Commits txnId as) :
    ∃ v adds written domains mark, t.Composed txnId v adds written domains mark as := by
  obtain ⟨p, hp, has⟩ := h
  obtain ⟨domains, w, mark, body, hprepare, hupdate, hbody, -, hitems⟩ := propose_eq_ok hp
  obtain ⟨hnext, hdomains, hmake⟩ := prepare_eq_ok hprepare
  rw [hitems] at has
  cases as with
  | nil => cases has
  | cons c as =>
    obtain ⟨hc, htail⟩ := List.cons.inj has
    obtain rfl := Except.ok.inj hc
    obtain ⟨files, hfiles, rfl⟩ := exists_of_append_eq_map_ok htail
    obtain ⟨adds, written, hstaged, htracked, rfl⟩ := tracked_of_files hmake hupdate hbody hfiles
    exact ⟨p.version, adds, written, domains, mark, hnext, hdomains, hstaged, htracked, rfl⟩

end Transaction

end TableLog
