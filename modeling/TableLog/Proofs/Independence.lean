import TableLog.Proofs.Conformance

namespace TableLog

/-- Without its statistics. -/
def Add.bare (a : Add) : Add := { a with stats := none }

def Action.bare : Action → Action
  | .add a => .add a.bare
  | x => x

namespace Results

theorem actions_map (f : Action → Action) (rs : List (Outcome Action)) :
    actions (rs.map (·.map f)) = (actions rs).map f := by
  induction rs with
  | nil => rfl
  | cons r rs ih =>
    cases r with
    | error e => rfl
    | ok a => exact congrArg (f a :: ·) ih

theorem failure_map (f : Action → Action) (rs : List (Outcome Action)) :
    failure (rs.map (·.map f)) = failure rs := by
  induction rs with
  | nil => rfl
  | cons r rs ih =>
    cases r with
    | error e => rfl
    | ok a => exact ih

end Results

namespace Trace

variable {f : Outcome Action → Outcome Action}

theorem holding_mapItems (held : List String) (t : Trace) :
    (t.mapItems f).holding held = t.holding held := by
  induction t generalizing held with
  | nil => rfl
  | cons s t ih =>
    cases s with
    | acquired tag => exact ih (tag :: held)
    | released tag => exact ih (held.erase tag)
    | item r => exact ih held

theorem mapItems_release (held : List String) : (release held).mapItems f = release held := by
  rw [mapItems, release, List.map_map]
  rfl

theorem mapItems_closed (t : Trace) : (closed t).mapItems f = closed (t.mapItems f) := by
  rw [closed, mapItems_append, mapItems_release, closed, holding_mapItems]

theorem mapItems_mapItems (g : Outcome Action → Outcome Action) (t : Trace) :
    (t.mapItems f).mapItems g = t.mapItems (g ∘ f) := by
  rw [mapItems, mapItems, mapItems, List.map_map]
  refine List.map_congr_left fun s _ ↦ ?_
  cases s <;> rfl

theorem mapItems_ofActions {as : List Action} (h : ∀ a ∈ as, f (.ok a) = .ok a) :
    (ofActions as).mapItems f = ofActions as := by
  rw [mapItems, ofActions, List.map_map]
  exact List.map_congr_left fun a ha ↦ congrArg Step.item (h a ha)

def bare (t : Trace) : Trace := t.mapItems (·.map Action.bare)

theorem items_bare (t : Trace) : t.bare.items = t.items.map (·.map Action.bare) :=
  items_mapItems _ t

theorem failure_bare (t : Trace) : Results.failure t.bare.items = Results.failure t.items := by
  rw [items_bare, Results.failure_map]

theorem actions_bare (t : Trace) :
    Results.actions t.bare.items = (Results.actions t.items).map Action.bare := by
  rw [items_bare, Results.actions_map]

section Drained

variable {σ : Type} (read : σ → Action → σ)

theorem drainFrom_traffic (s : σ) (held : List String) (t : Trace) :
    (drainFrom (fun s a ↦ .ok (read s a)) s held t).traffic =
      (drainFrom (fun _ _ ↦ .ok ()) () held t.bare).traffic := by
  induction t generalizing s held with
  | nil => rfl
  | cons step t ih =>
    cases step with
    | acquired tag => exact congrArg (.acquired tag :: ·) (ih s (tag :: held))
    | released tag => exact congrArg (.released tag :: ·) (ih s (held.erase tag))
    | item r =>
      cases r with
      | error e => rfl
      | ok a => exact ih (read s a) held

theorem drainFrom_bare {t t' : Trace} (h : t'.bare = t.bare) (s s' : σ) (held : List String) :
    (drainFrom (fun s a ↦ .ok (read s a)) s' held t').traffic =
        (drainFrom (fun s a ↦ .ok (read s a)) s held t).traffic ∧
      (drainFrom (fun s a ↦ .ok (read s a)) s' held t').failure =
        (drainFrom (fun s a ↦ .ok (read s a)) s held t).failure := by
  constructor
  · rw [drainFrom_traffic, h, ← drainFrom_traffic]
  · rw [(drainFrom_total read s' held t').2, (drainFrom_total read s held t).2, ← failure_bare, h,
      failure_bare]

end Drained

end Trace

def Proposal.bare (p : Proposal) : Proposal := { p with actions := p.actions.bare }

def Recording.bare (r : Recording) : Recording := { r with actions := r.actions.map Action.bare }

namespace Recorder

def pulled (r : Recorder) (p : Proposal) : Trace :=
  match r.limit with
  | none => p.actions
  | some n => p.actions.pulls n

theorem foldl_recorded (as : List Action) :
    as.foldl (fun recorded a ↦ recorded ++ [a]) [] = as := by
  induction as using List.reverseRecOn with
  | nil => rfl
  | append_singleton as a ih => rw [List.foldl_append, ih, List.foldl_cons, List.foldl_nil]

theorem commit_eq (r : Recorder) (p : Proposal) :
    r.commit p =
      let recording : Recording :=
        { version := p.version, location := Log.commitLocation p.log p.version }
      let d := (r.pulled p).drainFrom (fun as a ↦ .ok (as ++ [a])) [] []
      if r.conflict then ({ result := .ok (.conflict (r.version.getD p.version)) }, recording)
      else
        ({ traffic := d.traffic
           result :=
             match d.failure, r.failure with
             | some e, _ => .error e
             | none, some e => .error e
             | none, none => .ok (.committed (r.version.getD p.version)) },
          { recording with actions := d.state }) := rfl

end Recorder

section Committers

variable {p p' : Proposal} (h : p'.bare = p.bare)
include h

theorem Proposal.eq_of_bare :
    p'.log = p.log ∧ p'.version = p.version ∧ p'.actions.bare = p.actions.bare := by
  obtain ⟨log, version, timestamp, actions⟩ := p
  obtain ⟨log', version', timestamp', actions'⟩ := p'
  simp only [Proposal.bare, Proposal.mk.injEq] at h
  exact ⟨h.1, h.2.1, h.2.2.2⟩

theorem FileSystem.commit_bare (fs : FileSystem) :
    (fs.commit p').1 = (fs.commit p).1 ∧
      ∀ q, (fs.commit p').2.get? q = (fs.commit p).2.get? q ∨
        ∃ as as' : List Action, as'.map Action.bare = as.map Action.bare ∧
          (fs.commit p).2.get? q = some (.file (writeActions as)) ∧
          (fs.commit p').2.get? q = some (.file (writeActions as')) := by
  obtain ⟨hlog, hversion, hactions⟩ := Proposal.eq_of_bare h
  have hclaim : fs.claim p' = fs.claim p := by rw [claim, claim, hlog, hversion]
  have hfailure : Results.failure p'.actions.items = Results.failure p.actions.items := by
    rw [← Trace.failure_bare, hactions, Trace.failure_bare]
  have hbare :
      (Results.actions p'.actions.items).map Action.bare =
      (Results.actions p.actions.items).map Action.bare := by
    rw [← Trace.actions_bare, hactions, Trace.actions_bare]
  obtain ⟨ground, -, ⟨e, hc⟩ | hc | ⟨place, hp, hf, hc⟩⟩ := fs.claim_keeps p
  · rw [commit, commit, hclaim, hc]
    exact ⟨rfl, fun _ ↦ .inl rfl⟩
  · rw [commit, commit, hclaim, hc, hversion]
    exact ⟨rfl, fun _ ↦ .inl rfl⟩
  · constructor
    · obtain ⟨htraffic, hfails⟩ :=
        Trace.drainFrom_bare (fun (fs : FileSystem) a ↦ fs.append place (a.line ++ [0x0A]))
        hactions (ground.set place (.file [])) (ground.set place (.file [])) []
      rw [commit, commit, hclaim, hc, hversion]
      simp only [htraffic, hfails]
      split <;> rfl
    · intro q
      rcases commit_of_claim hc hp hf with ⟨e, he, -, hsame⟩ | ⟨hnone, -, hwritten⟩
      · rcases commit_of_claim (hclaim.trans hc) hp hf with ⟨e', -, -, hsame'⟩ | ⟨hnone', -, -⟩
        · exact .inl ((hsame' q).trans (hsame q).symm)
        · rw [hfailure, he] at hnone'
          cases hnone'
      · rcases commit_of_claim (hclaim.trans hc) hp hf with ⟨e', he', -, -⟩ | ⟨-, -, hwritten'⟩
        · rw [hfailure, hnone] at he'
          cases he'
        · by_cases hq : q = place
          · subst hq
            exact .inr ⟨_, _, hbare, hwritten.get?, hwritten'.get?⟩
          · exact .inl ((hwritten'.others hq).trans (hwritten.others hq).symm)

theorem Recorder.commit_bare (r : Recorder) :
    (r.commit p').1 = (r.commit p).1 ∧ (r.commit p').2.bare = (r.commit p).2.bare := by
  obtain ⟨hlog, hversion, hactions⟩ := Proposal.eq_of_bare h
  have hpulled : (r.pulled p').bare = (r.pulled p).bare := by
    rw [pulled, pulled]
    cases r.limit with
    | none => exact hactions
    | some n =>
      rw [Trace.bare, Trace.bare, ← Trace.pulls_mapItems, ← Trace.pulls_mapItems]
      exact congrArg (Trace.pulls n) hactions
  obtain ⟨htraffic, hfails⟩ :=
    Trace.drainFrom_bare (fun (as : List Action) a ↦ as ++ [a]) hpulled [] [] []
  rw [commit_eq, commit_eq, hversion, hlog]
  cases r.conflict with
  | true => exact ⟨rfl, rfl⟩
  | false =>
    simp only [htraffic, hfails]
    refine ⟨rfl, ?_⟩
    have hstate : ∀ t : Trace,
        (t.drainFrom (fun (as : List Action) a ↦ .ok (as ++ [a])) [] []).state =
        Results.actions t.items :=
      fun t ↦ (Trace.drainFrom_total _ [] [] t).1.trans (foldl_recorded _)
    simp only [Recording.bare, hstate, Bool.false_eq_true, if_false]
    rw [← Trace.actions_bare, hpulled, Trace.actions_bare]

end Committers

namespace RowTracking

theorem make_off (s : Snapshot) {v : Version} {commitVersion : Int64}
    (h : v.word? = some commitVersion) :
    make false s v =
      .ok { supported := false, highWaterMark := HighWaterMark.missing, commitVersion } := by
  rw [make, h]
  rfl

theorem wrap_off {w : RowTracking} (hw : w.supported = false) (o : Opening) : w.wrap o = o :=
  if_neg (Bool.eq_false_iff.1 hw)

theorem update_off {w : RowTracking} (hw : w.supported = false) (o : Opening) :
    w.update o = ([], .ok none) :=
  if_neg (Bool.eq_false_iff.1 hw)

end RowTracking

/-- The same table apart from what is stored of row ids. -/
structure Snapshot.SameButMark (s s' : Snapshot) : Prop where
  configuration : s'.configuration = s.configuration
  domains : ∀ d, d ≠ HighWaterMark.domain → s'.domains.get? d = s.domains.get? d

namespace Transaction

variable {t : Transaction} {txnId : String} {fs : FileSystem} {p : Proposal} {v : Version}

theorem writesRowTracking_eq_false {c : Configuration}
    (hoff : c.rowTrackingSupported = false ∨ c.rowTrackingSuspended = true) :
    c.writesRowTracking = false := by
  rw [Configuration.writesRowTracking]
  rcases hoff with h | h <;> simp [h]

def fileTrace (t : Transaction) (turn : Nat) : Trace :=
  (Trace.closed (Source.traverseEach turn t.added)).mapItems (·.bind t.checkStaged) ++
    Trace.ofActions (t.removed.map .remove)

theorem items_fileTrace (t : Transaction) (turn : Nat) :
    (t.fileTrace turn).items =
      (t.addedItems turn).map (·.bind t.checkStaged) ++ (t.removed.map Action.remove).map .ok := by
  obtain ⟨body, hbody, hitems⟩ := t.items_files turn
  obtain rfl : body = t.fileTrace turn := (Except.ok.inj (Opening.mk.inj hbody).2).symm
  exact hitems

section Off

variable (hoff : t.snapshot.configuration.writesRowTracking = false)
include hoff

/-- Without row ids, the staged files are traversed for the commit
alone, and go into it as they are. -/
theorem propose_off (txnId : String) :
    t.propose txnId =
      match t.prepare with
      | .error e => { result := .error e }
      | .ok (version, domains, _) =>
        { result := (Log.directory t.snapshot.root).map fun log ↦
            { log, version, timestamp := t.timestamp,
                actions := t.stream txnId domains (t.fileTrace 1) } } := by
  rw [propose]
  cases hprepare : t.prepare with
  | error e => rfl
  | ok parts =>
    obtain ⟨version, domains, w⟩ := parts
    have hsupported := (RowTracking.make_eq_ok (prepare_eq_ok hprepare).2.2).2.1
    have hw : ¬w.supported := by simp [hsupported, hoff]
    simp only [RowTracking.update, RowTracking.wrap, if_neg hw, files]
    cases Log.directory t.snapshot.root with
    | error e => rfl
    | ok log =>
      simp only [Option.toList_none, List.append_nil, List.nil_append]
      rfl

theorem propose_off_eq_ok (hp : (t.propose txnId).result = .ok p) :
    ∃ domains, t.userDomains = .ok domains ∧
      p.actions = t.stream txnId domains (t.fileTrace 1) := by
  rw [propose_off hoff] at hp
  cases hprepare : t.prepare with
  | error e =>
    rw [hprepare] at hp
    cases hp
  | ok parts =>
    obtain ⟨version, domains, w⟩ := parts
    simp only [hprepare] at hp
    obtain ⟨log, -, rfl⟩ := Outcome.map_eq_ok_iff.1 hp
    exact ⟨domains, (prepare_eq_ok hprepare).2.1, rfl⟩

theorem no_mark_off (hp : (t.propose txnId).result = .ok p) {d : DomainMetadata}
    (hd : .ok (.domainMetadata d) ∈ p.actions.items) : d.domain ≠ HighWaterMark.domain := by
  obtain ⟨domains, mark, hdomains, hmark, -, horigin⟩ := origin_of_propose hp
  intro he
  cases horigin _ hd with
  | user hmem =>
    have hsystem := userDomains_isSystem hdomains d hmem
    rw [DomainMetadata.isSystem, he, isSystemDomain_highWaterMark] at hsystem
    cases hsystem
  | mark hmem =>
    rw [hmark d hmem] at hoff
    cases hoff

theorem committed_adds_off {as : List Action} (h : t.Commits txnId as) :
    t.addedItems 1 = (as.filterMap Action.add?).map (.ok ∘ .add) := by
  obtain ⟨v, adds, written, domains, mark, hcomposed⟩ := h.composed
  rw [hcomposed.writtenAdds, (hcomposed.tracked.eq_off hoff).1, hcomposed.staged]

end Off

section Mark

variable {s : Snapshot} (h : t.snapshot.SameButMark s)
include h

theorem tombstones_congr {ds : List String} (hds : ∀ d ∈ ds, isSystemDomain d = false) :
    ds.filterMap { t with snapshot := s }.tombstone? = ds.filterMap t.tombstone? := by
  refine List.filterMap_congr fun d hd ↦ ?_
  have hne : d ≠ HighWaterMark.domain := by
    intro he
    have huser := hds d hd
    rw [he, isSystemDomain_highWaterMark] at huser
    cases huser
  exact congrArg (Option.map _) (h.domains d hne)

theorem userDomains_congr : { t with snapshot := s }.userDomains = t.userDomains := by
  have hc := h.configuration
  simp only [userDomains, hc]
  cases hcheck : checkDomains [] (t.domainsSet.map (·.domain) ++ t.domainsRemoved) with
  | error e => rfl
  | ok u =>
    have huser := (checkDomains_eq_ok_iff.1 hcheck).2
    rw [tombstones_congr h fun d hd ↦ (huser d (List.mem_append_right _ hd)).1]

theorem prepare_congr (hoff : t.snapshot.configuration.writesRowTracking = false) :
    { t with snapshot := s }.prepare = t.prepare := by
  have hc := h.configuration
  have hversion : { t with snapshot := s }.commitVersion = t.commitVersion := by
    simp only [commitVersion, Snapshot.version, hc]
  have hremovals : { t with snapshot := s }.checkRemovals = t.checkRemovals := by
    simp only [checkRemovals, hc]
  have hmake : ∀ v, RowTracking.make false s v = RowTracking.make false t.snapshot v := fun _ ↦ rfl
  rw [prepare, prepare, hversion, hremovals, userDomains_congr h]
  simp only [hc, hoff, hmake]
  rfl

theorem start_congr (timestamp : Int64) :
    start s timestamp = (start t.snapshot timestamp).map ({ · with snapshot := s }) := by
  rw [start, start, h.configuration]
  cases t.snapshot.configuration.protocol.checkWritable <;> rfl

theorem propose_congr (hoff : t.snapshot.configuration.writesRowTracking = false) (txnId : String) :
    { t with snapshot := s }.propose txnId = t.propose txnId := by
  have hc := h.configuration
  have hrejects : { t with snapshot := s }.rejectsDataChange = t.rejectsDataChange := by
    simp only [rejectsDataChange, hc]
  have hchecks : { t with snapshot := s }.checkStaged = t.checkStaged := by
    funext a
    cases a with
    | add a => rw [checkStaged, checkStaged, hrejects]
    | _ => rfl
  have hfiles : { t with snapshot := s }.fileTrace 1 = t.fileTrace 1 := by
    rw [fileTrace, fileTrace, hchecks]
  have hroot : s.root = t.snapshot.root := by rw [Snapshot.root, Snapshot.root, hc]
  have hoff' : { t with snapshot := s }.snapshot.configuration.writesRowTracking = false :=
    hc ▸ hoff
  rw [propose_off hoff, propose_off hoff', prepare_congr h hoff, hfiles]
  simp only [hroot]
  rfl

end Mark

section Statistics

theorem checkStaged_bare (r : Outcome Action) :
    (r.bind t.checkStaged).map Action.bare = (r.map Action.bare).bind t.checkStaged := by
  cases r with
  | error e => rfl
  | ok x =>
    cases x with
    | add a =>
      change (t.checkStaged (.add a)).map Action.bare = t.checkStaged (.add a.bare)
      rw [checkStaged, checkStaged]
      cases t.rejectsDataChange <;> cases hd : a.dataChange <;>
        simp [Add.bare, hd, Except.map, Action.bare]
    | _ => rfl

theorem bare_fileTrace (t : Transaction) (turn : Nat) :
    (t.fileTrace turn).bare =
      (Trace.closed (Source.traverseEach turn t.added).bare).mapItems (·.bind t.checkStaged) ++
        Trace.ofActions (t.removed.map .remove) := by
  have hremoved : ∀ a ∈ t.removed.map Action.remove,
      Except.map (ε := Error) Action.bare (.ok a) = .ok a := by
    intro a ha
    obtain ⟨r, -, rfl⟩ := List.mem_map.1 ha
    rfl
  rw [Trace.bare, fileTrace, Trace.mapItems_append, Trace.mapItems_ofActions hremoved, Trace.bare,
    ← Trace.mapItems_closed, Trace.mapItems_mapItems, Trace.mapItems_mapItems]
  exact congrArg (Trace.mapItems · _ ++ _) (funext checkStaged_bare)

theorem bare_stream (t : Transaction) (txnId : String) (domains : List DomainMetadata)
    (files : Trace) :
    (t.stream txnId domains files).bare = t.stream txnId domains files.bare := by
  have hrest : ∀ a ∈ t.appVersions.map Action.appVersion ++ domains.map Action.domainMetadata,
      Except.map (ε := Error) Action.bare (.ok a) = .ok a := by
    intro a ha
    rcases List.mem_append.1 ha with ha | ha
    · obtain ⟨v, -, rfl⟩ := List.mem_map.1 ha
      rfl
    · obtain ⟨d, -, rfl⟩ := List.mem_map.1 ha
      rfl
  rw [stream, stream, Trace.bare, Trace.mapItems_append, Trace.mapItems_ofActions hrest, Trace.bare,
    ← Trace.mapItems_closed]
  rfl

variable {added : List Source}
  (h : (Source.traverseEach 1 added).bare = (Source.traverseEach 1 t.added).bare)
  (hoff : t.snapshot.configuration.writesRowTracking = false)
include h hoff

theorem propose_bare (txnId : String) :
    ({ t with added }.propose txnId).traffic = (t.propose txnId).traffic ∧
      ({ t with added }.propose txnId).result.map Proposal.bare =
        (t.propose txnId).result.map Proposal.bare := by
  have hfiles : ({ t with added }.fileTrace 1).bare = (t.fileTrace 1).bare := by
    rw [bare_fileTrace, bare_fileTrace, h]
    rfl
  have hprepare : { t with added }.prepare = t.prepare := rfl
  have hoff' : { t with added }.snapshot.configuration.writesRowTracking = false := hoff
  rw [propose_off hoff, propose_off hoff', hprepare]
  cases t.prepare with
  | error e => exact ⟨rfl, rfl⟩
  | ok parts =>
    obtain ⟨version, domains, w⟩ := parts
    refine ⟨rfl, ?_⟩
    cases hlog : Log.directory t.snapshot.root with
    | error e => simp [Except.map]
    | ok log =>
      have hstream : ({ t with added }.stream txnId domains ({ t with added }.fileTrace 1)).bare =
          (t.stream txnId domains (t.fileTrace 1)).bare := by
        rw [bare_stream, bare_stream, hfiles]
        rfl
      simp only [Except.map, Proposal.bare, hstream]

theorem commit_bare (txnId : String) (fs : FileSystem) :
    ({ t with added }.commit txnId fs).1 = (t.commit txnId fs).1 ∧
      ∀ q, ({ t with added }.commit txnId fs).2.get? q = (t.commit txnId fs).2.get? q ∨
        ∃ as as' : List Action, as'.map Action.bare = as.map Action.bare ∧
          (t.commit txnId fs).2.get? q = some (.file (writeActions as)) ∧
          ({ t with added }.commit txnId fs).2.get? q = some (.file (writeActions as')) := by
  obtain ⟨htraffic, hresult⟩ := propose_bare h hoff txnId
  rw [commit, commit]
  cases hp : (t.propose txnId).result with
  | error e =>
    rw [hp] at hresult
    rw [Outcome.map_eq_error_iff.1 hresult]
    exact ⟨by simp only [htraffic], fun _ ↦ .inl rfl⟩
  | ok p =>
    rw [hp] at hresult
    obtain ⟨p', hp', hbare⟩ := Outcome.map_eq_ok_iff.1 hresult
    obtain ⟨hfirst, hplaces⟩ := FileSystem.commit_bare hbare fs
    rw [hp']
    exact ⟨by simp only [htraffic, hfirst], hplaces⟩

theorem record_bare (txnId : String) (r : Recorder) :
    ({ t with added }.record txnId r).1 = (t.record txnId r).1 ∧
      ({ t with added }.record txnId r).2.map Recording.bare =
        (t.record txnId r).2.map Recording.bare := by
  obtain ⟨htraffic, hresult⟩ := propose_bare h hoff txnId
  rw [record, record]
  cases hp : (t.propose txnId).result with
  | error e =>
    rw [hp] at hresult
    rw [Outcome.map_eq_error_iff.1 hresult]
    exact ⟨by simp only [htraffic], rfl⟩
  | ok p =>
    rw [hp] at hresult
    obtain ⟨p', hp', hbare⟩ := Outcome.map_eq_ok_iff.1 hresult
    obtain ⟨hfirst, hrecording⟩ := Recorder.commit_bare hbare r
    rw [hp']
    exact ⟨by simp only [htraffic, hfirst], congrArg some hrecording⟩

end Statistics

/-- Where row ids are not written, what a commit does and what it holds has nothing to do with them.
The staged files go into it as they are, also with errors and with what comes after errors; neither
the stored mark nor statistics are read. A wrapper that is off is not there at all. -/
theorem row_tracking_inert
    (h : t.snapshot.configuration.rowTrackingSupported = false ∨
      t.snapshot.configuration.rowTrackingSuspended = true)
    (txnId : String) :
    (∀ p, (t.propose txnId).result = .ok p →
      (∃ domains, t.userDomains = .ok domains ∧
        p.actions.items = .ok (.commitInfo (.new t.timestamp t.operation t.engineInfo txnId)) ::
          ((t.addedItems 1).map (·.bind t.checkStaged) ++ (t.removed.map Action.remove).map .ok ++
            (t.appVersions.map Action.appVersion ++ domains.map Action.domainMetadata).map .ok)) ∧
      ∀ d, .ok (.domainMetadata d) ∈ p.actions.items → d.domain ≠ HighWaterMark.domain) ∧
    (∀ fs v, (t.commit txnId fs).1.result = .ok (.committed v) → ∃ as : List Action,
      t.fileItems txnId fs = as.map .ok ∧
        t.addedItems 1 = (as.filterMap Action.add?).map (.ok ∘ .add)) ∧
    (∀ s, t.snapshot.SameButMark s →
      (∀ timestamp, start s timestamp =
        (start t.snapshot timestamp).map ({ · with snapshot := s })) ∧
      { t with snapshot := s }.propose txnId = t.propose txnId ∧
      (∀ fs, { t with snapshot := s }.commit txnId fs = t.commit txnId fs) ∧
      ∀ r, { t with snapshot := s }.record txnId r = t.record txnId r) ∧
    (∀ added, (Source.traverseEach 1 added).bare = (Source.traverseEach 1 t.added).bare →
      (({ t with added }.propose txnId).traffic = (t.propose txnId).traffic ∧
        ({ t with added }.propose txnId).result.map Proposal.bare =
          (t.propose txnId).result.map Proposal.bare) ∧
      (∀ fs, ({ t with added }.commit txnId fs).1 = (t.commit txnId fs).1 ∧
        ∀ q, ({ t with added }.commit txnId fs).2.get? q = (t.commit txnId fs).2.get? q ∨
          ∃ as as' : List Action, as'.map Action.bare = as.map Action.bare ∧
            (t.commit txnId fs).2.get? q = some (.file (writeActions as)) ∧
            ({ t with added }.commit txnId fs).2.get? q = some (.file (writeActions as'))) ∧
      ∀ r, ({ t with added }.record txnId r).1 = (t.record txnId r).1 ∧
        ({ t with added }.record txnId r).2.map Recording.bare =
          (t.record txnId r).2.map Recording.bare) ∧
    ∀ (s : Snapshot) (v : Version) (commitVersion : Int64), v.word? = some commitVersion →
      ∃ w, RowTracking.make false s v = .ok w ∧
        (∀ turn source, (Source.rowTracking w source).traverse turn = source.traverse turn) ∧
        ∀ o, w.update o = ([], .ok none) := by
  have hoff := writesRowTracking_eq_false h
  refine ⟨fun p hp ↦ ⟨?_, fun d hd ↦ no_mark_off hoff hp hd⟩, fun fs v hc ↦ ?_, fun s hs ↦ ?_,
    fun added hadded ↦ ?_, fun s v commitVersion hv ↦ ?_⟩
  · obtain ⟨domains, hdomains, hactions⟩ := propose_off_eq_ok hoff hp
    refine ⟨domains, hdomains, ?_⟩
    rw [hactions, items_stream, items_fileTrace]
  · obtain ⟨p, as, hp, -, has, hfile⟩ := fileItems_of_committed hc
    exact ⟨as, hfile.trans has, committed_adds_off hoff ⟨p, hp, has⟩⟩
  · have hpropose := propose_congr hs hoff txnId
    refine ⟨start_congr hs, hpropose, fun fs ↦ ?_, fun r ↦ ?_⟩
    · rw [commit, commit, hpropose]
    · rw [record, record, hpropose]
  · exact ⟨propose_bare hadded hoff txnId, commit_bare hadded hoff txnId,
      record_bare hadded hoff txnId⟩
  · exact ⟨_, RowTracking.make_off s hv,
      fun turn source ↦ RowTracking.wrap_off rfl (source.traverse turn), RowTracking.update_off rfl⟩

theorem row_tracking_inert_suspended :
    let t := addition suspended
    let fs := Sample.store Sample.protocol suspended
    let s : Snapshot := { t.snapshot with domains := .ofList [(HighWaterMark.domain, "no mark")] }
    let added : List Source := [.actions [.add { Sample.file "f" 5 with stats := some "none" }]]
    (t.commit "id" fs).1.result = .ok (.committed 1) ∧
      (∃ as : List Action, t.fileItems "id" fs = as.map .ok ∧
        as.filterMap Action.add? = [Sample.file "f" 5]) ∧
      { t with snapshot := s }.commit "id" fs = t.commit "id" fs ∧
      ({ t with added }.commit "id" fs).1.result = .ok (.committed 1) := by
  intro t fs s added
  have hc : (t.commit "id" fs).1.result = .ok (.committed 1) := by decide +kernel
  have hs : t.snapshot.SameButMark s := by
    refine ⟨rfl, fun d hd ↦ ?_⟩
    exact (Dict.get?_insert .empty _ _ d).trans (if_neg hd)
  obtain ⟨-, hfile, hmark, hstats, -⟩ := row_tracking_inert (t := t) (.inr (by decide +kernel)) "id"
  obtain ⟨as, has, hadds⟩ := hfile fs 1 hc
  refine ⟨hc, ⟨as, has, ?_⟩, (hmark s hs).2.2.1 fs, ?_⟩
  · have hinj : ∀ a b : Add, Except.ok (ε := Error) (Action.add a) = .ok (.add b) → a = b := by
      intro a b he
      exact Action.add.inj (Except.ok.inj he)
    exact (List.map_inj_right hinj).1 hadds.symm
  · rw [((hstats added rfl).2.1 fs).1, hc]

end Transaction

end TableLog
