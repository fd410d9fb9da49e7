import TableLog.Proofs.Outcome
import TableLog.Snapshot

namespace TableLog

namespace Action

def keepsTable : Action → Bool
  | protocol _ | metadata _ => false
  | _ => true

def domain? : Action → Option DomainMetadata
  | domainMetadata d => some d
  | _ => none

def add? : Action → Option Add
  | add a => some a
  | _ => none

end Action

namespace DomainMetadata

def applyTo (m : Dict String) (d : DomainMetadata) : Dict String :=
  if d.removed then m.erase d.domain else m.insert d.domain d.configuration

theorem get?_applyTo (m : Dict String) (d : DomainMetadata) (k : String) :
    (applyTo m d).get? k =
      if k = d.domain then (if d.removed then none else some d.configuration) else m.get? k := by
  rw [applyTo]
  cases d.removed with
  | true => simp [Dict.get?_erase]
  | false => simp [Dict.get?_insert]

variable {m : Dict String} {ds : List DomainMetadata}

theorem get?_foldl_of_not_mem {k : String} (h : ∀ d ∈ ds, d.domain ≠ k) :
    (ds.foldl applyTo m).get? k = m.get? k := by
  induction ds generalizing m with
  | nil => rfl
  | cons d ds ih =>
    obtain ⟨hd, hds⟩ := List.forall_mem_cons.1 h
    rw [List.foldl_cons, ih hds, get?_applyTo, if_neg (Ne.symm hd)]

theorem get?_foldl_of_mem (h : (ds.map (·.domain)).Nodup) {d : DomainMetadata} (hd : d ∈ ds) :
    (ds.foldl applyTo m).get? d.domain = if d.removed then none else some d.configuration := by
  induction ds generalizing m with
  | nil => cases hd
  | cons e ds ih =>
    obtain ⟨he, hds⟩ := List.nodup_cons.1 h
    rw [List.foldl_cons]
    rcases List.mem_cons.1 hd with rfl | hd
    · have hnot : ∀ f ∈ ds, f.domain ≠ d.domain := by
        intro f hf hfd
        exact he (List.mem_map.2 ⟨f, hf, hfd⟩)
      rw [get?_foldl_of_not_mem hnot, get?_applyTo, if_pos rfl]
    · exact ih hds hd

end DomainMetadata

namespace Replay

variable {r r' : Replay} {rs ss : List (Outcome Action)} {as : List Action}

theorem applyAll_eq_ok_iff :
    r.applyAll rs = .ok r' ↔
    Results.failure rs = none ∧ (Results.actions rs).foldl apply r = r' := by
  induction rs generalizing r with
  | nil => simp [applyAll, Results.failure, Results.actions]
  | cons x rs ih =>
    cases x with
    | error e => simp [applyAll, Results.failure]
    | ok a => exact ih

theorem applyAll_append : r.applyAll (rs ++ ss) = r.applyAll rs >>= (·.applyAll ss) := by
  induction rs generalizing r with
  | nil => rfl
  | cons x rs ih =>
    cases x with
    | error e => rfl
    | ok a => exact ih

theorem foldl_apply (h : ∀ a ∈ as, a.keepsTable) :
    as.foldl apply r =
      { r with
        domains := (as.filterMap Action.domain?).foldl DomainMetadata.applyTo r.domains } := by
  induction as generalizing r with
  | nil => rfl
  | cons a as ih =>
    obtain ⟨ha, has⟩ := List.forall_mem_cons.1 h
    rw [List.foldl_cons, ih has]
    cases a with
    | protocol p => cases ha
    | metadata m => cases ha
    | domainMetadata d => rfl
    | add a => rfl
    | remove a => rfl
    | commitInfo c => rfl
    | appVersion a => rfl

end Replay

theorem Configuration.make_eq_ok_iff {m : Metadata} {p : Protocol} {root : Location} {v : Version}
    {c : Configuration} :
    make m p root v = .ok c ↔ p.validate = .ok () ∧ c = ⟨m, p, m.properties, root, v⟩ := by
  rw [make, Outcome.bind_eq_ok_iff]
  exact ⟨fun ⟨_, hp, hc⟩ ↦ ⟨hp, (Except.ok.inj hc).symm⟩, fun ⟨hp, hc⟩ ↦ ⟨(), hp, hc ▸ rfl⟩⟩

namespace Snapshot

def under (s : Snapshot) (root : Location) : Snapshot :=
  { s with configuration := { s.configuration with root } }

/-- The snapshot at a version, after actions that keep the table. -/
def advance (s : Snapshot) (w : Version) (as : List Action) : Snapshot where
  configuration := { s.configuration with version := w }
  domains := (as.filterMap Action.domain?).foldl DomainMetadata.applyTo s.domains

variable {s : Snapshot} {root : Location} {v w : Version} {rs : List (Outcome Action)}
  {as : List Action}

theorem replay_eq_ok_iff :
    replay root v rs = .ok s ↔
      ∃ p m, Replay.applyAll {} rs = .ok ⟨some p, some m, s.domains⟩ ∧ p.validate = .ok () ∧
        s.configuration = ⟨m, p, m.properties, root, v⟩ := by
  rw [replay, Outcome.bind_eq_ok_iff]
  constructor
  · intro he
    obtain ⟨⟨protocol, metadata, domains⟩, hr, h⟩ := he
    cases protocol with
    | none => cases h
    | some p =>
      cases metadata with
      | none => cases h
      | some m =>
        obtain ⟨c, hc, hs⟩ := Outcome.bind_eq_ok_iff.1 h
        obtain ⟨hp, rfl⟩ := Configuration.make_eq_ok_iff.1 hc
        exact Except.ok.inj hs ▸ ⟨p, m, hr, hp, rfl⟩
  · intro he
    obtain ⟨p, m, hr, hp, hs⟩ := he
    refine ⟨_, hr, Outcome.bind_eq_ok_iff.2 ⟨_, Configuration.make_eq_ok_iff.2 ⟨hp, rfl⟩, ?_⟩⟩
    rw [← hs]
    rfl

theorem replay_version (h : replay root v rs = .ok s) : s.root = root ∧ s.version = v := by
  obtain ⟨p, m, -, -, hs⟩ := replay_eq_ok_iff.1 h
  rw [Snapshot.root, Snapshot.version, hs]
  exact ⟨rfl, rfl⟩

theorem replay_root (h : replay root v rs = .ok s) (root' : Location) :
    replay root' v rs = .ok (s.under root') := by
  obtain ⟨p, m, hr, hp, hs⟩ := replay_eq_ok_iff.1 h
  refine replay_eq_ok_iff.2 ⟨p, m, hr, hp, ?_⟩
  simp [under, hs]

theorem replay_append (h : replay root v rs = .ok s) (hk : ∀ a ∈ as, a.keepsTable) (w : Version) :
    replay root w (rs ++ as.map .ok) = .ok (s.advance w as) := by
  obtain ⟨p, m, hr, hp, hs⟩ := replay_eq_ok_iff.1 h
  refine replay_eq_ok_iff.2 ⟨p, m, ?_, hp, ?_⟩
  · rw [Replay.applyAll_append, hr]
    refine Replay.applyAll_eq_ok_iff.2 ⟨Results.failure_ok as, ?_⟩
    rw [Results.actions_ok, Replay.foldl_apply hk]
    rfl
  · simp [advance, hs]

end Snapshot

end TableLog
