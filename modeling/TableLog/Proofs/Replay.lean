import TableLog.Proofs.Growth

namespace TableLog

namespace Action

variable {α : Type}

def protocol? : Action → Option Protocol
  | protocol p => some p
  | _ => none

def metadata? : Action → Option Metadata
  | metadata m => some m
  | _ => none

def on? (domain : String) (a : Action) : Option DomainMetadata :=
  a.domain?.filter (·.domain = domain)

/-- The last of the actions that have a part of this kind, reduced to the part. -/
def last? (part? : Action → Option α) (as : List Action) : Option α := (as.filterMap part?).getLast?

theorem last?_concat (part? : Action → Option α) (as : List Action) (a : Action) :
    last? part? (as ++ [a]) = (part? a).or (last? part? as) := by
  rw [last?, List.filterMap_append]
  cases h : part? a with
  | none =>
    rw [List.filterMap_cons_none h, List.filterMap_nil, List.append_nil, Option.none_or, last?]
  | some b =>
    rw [List.filterMap_cons_some h, List.filterMap_nil, List.getLast?_concat, Option.some_or]

end Action

def DomainMetadata.left? (d : DomainMetadata) : Option String :=
  if d.removed then none else some d.configuration

open TableLog.Action (last? on? protocol? metadata?)

/-- What the last action on a domain leaves there. -/
def Action.lastLeft? (domain : String) (as : List Action) : Option String :=
  (last? (on? domain) as).bind (·.left?)

namespace Replay

variable {as : List Action}

theorem get?_apply (r : Replay) (a : Action) (domain : String) :
    (r.apply a).domains.get? domain =
      match a.on? domain with
      | some d => d.left?
      | none => r.domains.get? domain := by
  cases a with
  | domainMetadata d =>
    have hget := DomainMetadata.get?_applyTo r.domains d domain
    have happly : (r.apply (.domainMetadata d)).domains = d.applyTo r.domains := rfl
    rw [happly, hget, on?, Action.domain?, Option.filter_some]
    by_cases h : domain = d.domain
    · simp [h, DomainMetadata.left?]
    · simp [h, Ne.symm h]
  | _ => rfl

/-- What a log leaves behind, kind by kind and domain by domain. -/
structure Last (as : List Action) (r : Replay) : Prop where
  protocol : r.protocol = last? protocol? as
  metadata : r.metadata = last? metadata? as
  domains : ∀ domain, r.domains.get? domain = Action.lastLeft? domain as

theorem Last.step {r : Replay} (h : Last as r) (a : Action) : Last (as ++ [a]) (r.apply a) where
  protocol := by
    rw [Action.last?_concat, ← h.protocol]
    cases a <;> rfl
  metadata := by
    rw [Action.last?_concat, ← h.metadata]
    cases a <;> rfl
  domains domain := by
    rw [get?_apply, Action.lastLeft?, Action.last?_concat]
    cases a.on? domain with
    | some d => rfl
    | none => exact h.domains domain

theorem fold (as : List Action) : Last as (as.foldl apply {}) := by
  induction as using List.reverseRecOn with
  | nil => exact ⟨rfl, rfl, fun _ ↦ rfl⟩
  | append_singleton as a ih =>
    rw [List.foldl_append]
    exact ih.step a

/-- The last words determine the rest. -/
theorem Last.unique {as bs : List Action} {r r' : Replay} (h : Last as r) (h' : Last bs r')
    (hp : last? protocol? as = last? protocol? bs) (hm : last? metadata? as = last? metadata? bs)
    (hd : ∀ domain, last? (on? domain) as = last? (on? domain) bs) : r = r' := by
  have hprotocol : r.protocol = r'.protocol := by rw [h.protocol, h'.protocol, hp]
  have hmetadata : r.metadata = r'.metadata := by rw [h.metadata, h'.metadata, hm]
  have hdomains : r.domains = r'.domains := by
    apply Dict.ext_get?
    intro domain
    rw [h.domains, h'.domains, Action.lastLeft?, hd, Action.lastLeft?]
  cases r
  cases r'
  simp_all

theorem applyAll_ok (r : Replay) (as : List Action) :
    r.applyAll (as.map .ok) = .ok (as.foldl apply r) :=
  applyAll_eq_ok_iff.2 ⟨Results.failure_ok as, by rw [Results.actions_ok]⟩

end Replay

namespace Snapshot

variable {root : Location} {v : Version}

theorem replay_ok (as : List Action) :
    replay root v (as.map .ok) = (as.foldl Replay.apply {}).finish root v := by
  rw [replay, Replay.applyAll_ok]
  rfl

/-- A typed reading of what a domain holds. -/
def reading {α : Type} (decode? : String → Option α) : Option String → Outcome (Option α)
  | none => .ok none
  | some text =>
    match decode? text with
    | none => .error .malformedJson
    | some a => .ok (some a)

theorem decoded_eq_reading {α : Type} (s : Snapshot) (domain : String)
    (decode? : String → Option α) :
    s.decoded domain decode? = reading decode? (s.domains.get? domain) := by
  rw [decoded]
  cases s.domains.get? domain <;> rfl

/-- Replaying a log fails with its first failure. Otherwise the last word counts: the
snapshot has the last protocol and the last metadata, and holds on each domain what the
last action on it left, which is what users and the system read there. So two logs with
the same last words give the same snapshot. -/
theorem replay_last_wins (root : Location) (v : Version) :
    (∀ (as : List Action) (e : Error) (rs : List (Outcome Action)),
      replay root v (as.map .ok ++ .error e :: rs) = .error e) ∧
    (∀ (as : List Action) (p : Protocol) (m : Metadata),
      last? protocol? as = some p → last? metadata? as = some m → p.validate = .ok () →
      ∃ s, replay root v (as.map .ok) = .ok s ∧
        s.configuration = ⟨m, p, m.properties, root, v⟩ ∧
        (∀ domain, s.domains.get? domain = Action.lastLeft? domain as) ∧
        (∀ domain, isSystemDomain domain = false →
          s.userDomain domain = .ok (Action.lastLeft? domain as)) ∧
        s.storedHighWaterMark =
          (reading HighWaterMark.decode? (Action.lastLeft? HighWaterMark.domain as)).map
            (·.map (·.rowId)) ∧
        s.clustering = reading Clustering.decode? (Action.lastLeft? Clustering.domain as)) ∧
    ∀ as bs : List Action, last? protocol? as = last? protocol? bs →
      last? metadata? as = last? metadata? bs →
      (∀ domain, last? (on? domain) as = last? (on? domain) bs) →
        replay root v (as.map .ok) = replay root v (bs.map .ok) := by
  refine ⟨fun as e rs ↦ ?_, fun as p m hp hm hvalid ↦ ?_, fun as bs hp hm hd ↦ ?_⟩
  · rw [replay, Replay.applyAll_append, Replay.applyAll_ok]
    rfl
  · have hlast := Replay.fold as
    have hprotocol := hlast.protocol.trans hp
    have hmetadata := hlast.metadata.trans hm
    have hfinish : replay root v (as.map .ok) =
        .ok ⟨⟨m, p, m.properties, root, v⟩, (as.foldl Replay.apply {}).domains⟩ := by
      rw [replay_ok, Replay.finish, hprotocol, hmetadata]
      simp only [Configuration.make_eq_ok_iff.2 ⟨hvalid, rfl⟩]
      rfl
    refine ⟨_, hfinish, rfl, hlast.domains, fun domain huser ↦ ?_, ?_, ?_⟩
    · rw [userDomain, huser, ← hlast.domains]
      rfl
    · rw [storedHighWaterMark, decoded_eq_reading, hlast.domains]
    · rw [clustering, decoded_eq_reading, hlast.domains]
  · rw [replay_ok, replay_ok, (Replay.fold as).unique (Replay.fold bs) hp hm hd]

end Snapshot

/-- A domain that is set, removed and set again, one that is removed before it was ever set, and a
protocol and metadata that do not last. -/
def Sample.revised : List Action :=
  [.metadata { metadata with id := "old" }, .protocol { protocol with writerFeatures := none },
    .protocol protocol, .domainMetadata (.set "app" "1"), .domainMetadata (.remove "app" "1"),
    .domainMetadata (.remove "gone" ""), .domainMetadata (.set "app" "2"), .metadata metadata,
    .domainMetadata (HighWaterMark.toDomain ⟨4⟩), .add (file "a" 5)]

def Sample.lastWords : List Action :=
  [.domainMetadata (HighWaterMark.toDomain ⟨4⟩), .metadata metadata,
    .domainMetadata (.remove "gone" ""), .domainMetadata (.set "app" "2"), .protocol protocol]

theorem Sample.last_on_revised (domain : String) :
    last? (on? domain) revised = last? (on? domain) lastWords := by
  have hon (d : DomainMetadata) :
      on? domain (.domainMetadata d) = if d.domain = domain then some d else none := by
    rw [on?, Action.domain?, Option.filter_some]
    simp only [decide_eq_true_eq]
  have hadd (a : Add) : on? domain (.add a) = none := rfl
  have hprotocol (p : Protocol) : on? domain (.protocol p) = none := rfl
  have hmetadata (m : Metadata) : on? domain (.metadata m) = none := rfl
  simp only [last?, revised, lastWords, List.filterMap_cons, List.filterMap_nil, hon, hadd,
    hprotocol, hmetadata, DomainMetadata.set, DomainMetadata.remove, HighWaterMark.toDomain,
    HighWaterMark.domain]
  by_cases happ : "app" = domain
  · subst happ
    decide
  · by_cases hgone : "gone" = domain
    · subst hgone
      decide
    · simp only [if_neg happ, if_neg hgone]

open TableLog.Sample (revised lastWords protocol metadata) in
theorem Snapshot.replay_last_wins_revised :
    ∃ s, replay Sample.root 3 (revised.map .ok) = .ok s ∧
      replay Sample.root 3 (lastWords.map .ok) = .ok s ∧
      s.configuration = ⟨metadata, protocol, metadata.properties, Sample.root, 3⟩ ∧
      s.userDomain "app" = .ok (some "2") ∧
      s.userDomain "gone" = .ok none ∧ s.storedHighWaterMark = .ok (some 4) ∧
      s.clustering = .ok none ∧
      replay Sample.root 3 (revised.map .ok ++ [.error .fileSystem, .error .malformedJson]) =
        .error .fileSystem := by
  obtain ⟨hfails, hlast, hsame⟩ := replay_last_wins Sample.root 3
  obtain ⟨s, hs, hconfiguration, -, huser, hmark, hclustering⟩ :=
    hlast revised protocol metadata rfl rfl rfl
  have happ : Action.lastLeft? "app" revised = some "2" := by decide
  have hgone : Action.lastLeft? "gone" revised = none := by decide
  refine ⟨s, hs, ?_, hconfiguration, ?_, ?_, ?_, ?_,
    hfails revised .fileSystem [.error .malformedJson]⟩
  · rw [← hsame revised lastWords rfl rfl Sample.last_on_revised, hs]
  · rw [huser "app" (by decide), happ]
  · rw [huser "gone" (by decide), hgone]
  · rw [hmark]
    decide +kernel
  · rw [hclustering]
    decide +kernel

end TableLog
