import TableLog.Proofs.Growth

namespace TableLog

namespace Transaction

variable {t : Transaction} {txnId : String} {v : Version} {adds written : List Add}
  {domains : List DomainMetadata} {mark : Option DomainMetadata} {as : List Action}

theorem checkDomains_eq_ok_iff {seen ds : List String} :
    checkDomains seen ds = .ok () ↔ ds.Nodup ∧ ∀ d ∈ ds, isSystemDomain d = false ∧ d ∉ seen := by
  induction ds generalizing seen with
  | nil => exact ⟨fun _ ↦ ⟨.nil, nofun⟩, fun _ ↦ rfl⟩
  | cons d ds ih =>
    rw [checkDomains, List.nodup_cons, List.forall_mem_cons]
    split
    · rename_i hsystem
      exact ⟨nofun, fun h ↦ absurd hsystem (by simp [h.2.1.1])⟩
    · rename_i hsystem
      split
      · rename_i hseen
        exact ⟨nofun, fun h ↦ absurd hseen (by simpa using h.2.1.2)⟩
      · rename_i hseen
        rw [ih]
        constructor
        · intro h
          obtain ⟨hnodup, hall⟩ := h
          refine ⟨⟨fun hd ↦ ?_, hnodup⟩, ⟨by simpa using hsystem, by simpa using hseen⟩,
            fun e he ↦ ?_⟩
          · exact (hall d hd).2 List.mem_cons_self
          · exact ⟨(hall e he).1, fun hs ↦ (hall e he).2 (List.mem_cons_of_mem d hs)⟩
        · intro h
          obtain ⟨⟨hd, hnodup⟩, -, hall⟩ := h
          refine ⟨hnodup, fun e he ↦ ⟨(hall e he).1, fun hs ↦ ?_⟩⟩
          rcases List.mem_cons.1 hs with rfl | hs
          · exact hd he
          · exact (hall e he).2 hs

theorem userDomains_eq_ok (h : t.userDomains = .ok domains) :
    domains = t.domainsSet ++ t.domainsRemoved.filterMap t.tombstone? ∧
      (t.domainsSet.map (·.domain) ++ t.domainsRemoved).Nodup ∧
      ∀ d ∈ t.domainsSet.map (·.domain) ++ t.domainsRemoved, isSystemDomain d = false := by
  rw [userDomains] at h
  split at h
  · rename_i hnone
    obtain rfl := Except.ok.inj h
    rw [hnone.1, hnone.2]
    exact ⟨rfl, .nil, nofun⟩
  · split at h
    · obtain ⟨_, hcheck, h⟩ := Outcome.bind_eq_ok_iff.1 h
      obtain ⟨hnodup, hall⟩ := checkDomains_eq_ok_iff.1 hcheck
      exact ⟨(Except.ok.inj h).symm, hnodup, fun d hd ↦ (hall d hd).1⟩
    · cases h

theorem tombstone?_eq_some {d : String} {m : DomainMetadata} (h : t.tombstone? d = some m) :
    m.domain = d ∧ m.removed = true := by
  obtain ⟨c, -, rfl⟩ := Option.map_eq_some_iff.1 h
  exact ⟨rfl, rfl⟩

theorem tombstones_sublist (ds : List String) :
    ((ds.filterMap t.tombstone?).map (·.domain)).Sublist ds := by
  induction ds with
  | nil => exact .slnil
  | cons d ds ih =>
    cases hd : t.tombstone? d with
    | none =>
      rw [List.filterMap_cons_none hd]
      exact ih.cons d
    | some m =>
      rw [List.filterMap_cons_some hd, List.map_cons, (tombstone?_eq_some hd).1]
      exact ih.cons_cons d

theorem userDomains_isSystem (h : t.userDomains = .ok domains) :
    ∀ d ∈ domains, d.isSystem = false := by
  obtain ⟨hdomains, -, huser⟩ := userDomains_eq_ok h
  intro d hd
  rw [hdomains] at hd
  rcases List.mem_append.1 hd with hd | hd
  · exact huser _ (List.mem_append_left _ (List.mem_map_of_mem hd))
  · obtain ⟨e, he, hstone⟩ := List.mem_filterMap.1 hd
    rw [DomainMetadata.isSystem, (tombstone?_eq_some hstone).1]
    exact huser _ (List.mem_append_right _ he)

theorem isSystemDomain_highWaterMark : isSystemDomain HighWaterMark.domain = true := by decide

theorem Tracked.eq_off (h : t.Tracked v adds written mark)
    (hoff : t.snapshot.configuration.writesRowTracking = false) :
    written = adds ∧ mark = none := by
  cases h with
  | off _ => exact ⟨rfl, rfl⟩
  | on hon =>
    rw [hoff] at hon
    cases hon

theorem Tracked.mark_domain (h : t.Tracked v adds written mark) :
    ∀ d ∈ mark, d.domain = HighWaterMark.domain ∧ d.removed = false := by
  cases h with
  | off => exact nofun
  | on =>
    intro d hd
    split at hd
    · cases hd
    · rw [← Option.some.inj hd]
      exact ⟨rfl, rfl⟩

section Domains

variable (h : t.Composed txnId v adds written domains mark as)
include h

theorem Composed.domains_nodup : ((domains ++ mark.toList).map (·.domain)).Nodup := by
  obtain ⟨hdomains, hnodup, hsystem⟩ := userDomains_eq_ok h.user
  have hsublist : (domains.map (·.domain)).Sublist
      (t.domainsSet.map (·.domain) ++ t.domainsRemoved) := by
    rw [hdomains, List.map_append]
    exact (List.Sublist.refl _).append (tombstones_sublist _)
  have hmark := h.tracked.mark_domain
  rw [List.map_append, List.nodup_append]
  refine ⟨hnodup.sublist hsublist, ?_, ?_⟩
  · cases mark <;> simp
  · intro d hd e he he
    subst he
    obtain ⟨m, hm, rfl⟩ := List.mem_map.1 he
    have huser := hsystem _ (hsublist.subset hd)
    rw [(hmark m (Option.mem_toList.1 hm)).1, isSystemDomain_highWaterMark] at huser
    cases huser

theorem Composed.get?_set {d : DomainMetadata} (hd : d ∈ t.domainsSet) (hr : d.removed = false) :
    (t.snapshot.advance v as).domains.get? d.domain = some d.configuration := by
  have hmem : d ∈ domains ++ mark.toList := by
    rw [(userDomains_eq_ok h.user).1]
    simp [hd]
  rw [Snapshot.advance, h.domainActions, DomainMetadata.get?_foldl_of_mem h.domains_nodup hmem, hr]
  rfl

theorem Composed.get?_removed {d : String} (hd : d ∈ t.domainsRemoved) :
    (t.snapshot.advance v as).domains.get? d = none := by
  obtain ⟨hdomains, hnodup, hsystem⟩ := userDomains_eq_ok h.user
  rw [Snapshot.advance, h.domainActions]
  cases hstone : t.tombstone? d with
  | some m =>
    obtain ⟨hdomain, hremoved⟩ := tombstone?_eq_some hstone
    have hmem : m ∈ domains ++ mark.toList := by
      rw [hdomains]
      exact List.mem_append_left _ (List.mem_append_right _ (List.mem_filterMap.2 ⟨d, hd, hstone⟩))
    rw [← hdomain, DomainMetadata.get?_foldl_of_mem h.domains_nodup hmem, hremoved]
    rfl
  | none =>
    have hnot : ∀ m ∈ domains ++ mark.toList, m.domain ≠ d := by
      intro m hm
      rw [hdomains] at hm
      rcases List.mem_append.1 hm with hm | hm
      · rcases List.mem_append.1 hm with hm | hm
        · intro he
          subst he
          exact (List.nodup_append.1 hnodup).2.2 _ (List.mem_map_of_mem hm) _ hd rfl
        · obtain ⟨e, -, he⟩ := List.mem_filterMap.1 hm
          intro he
          subst he
          rw [(tombstone?_eq_some he).1, he] at hstone
          cases hstone
      · intro he
        subst he
        have huser := hsystem _ (List.mem_append_right _ hd)
        rw [(h.tracked.mark_domain m (Option.mem_toList.1 hm)).1,
          isSystemDomain_highWaterMark] at huser
        cases huser
    rw [DomainMetadata.get?_foldl_of_not_mem hnot]
    exact Option.map_eq_none_iff.1 hstone

theorem Composed.get?_other {d : String} (hs : d ∉ t.domainsSet.map (·.domain))
    (hr : d ∉ t.domainsRemoved) (hm : ∀ m ∈ mark, m.domain ≠ d) :
    (t.snapshot.advance v as).domains.get? d = t.snapshot.domains.get? d := by
  rw [Snapshot.advance, h.domainActions]
  refine DomainMetadata.get?_foldl_of_not_mem fun m hmem ↦ ?_
  rw [(userDomains_eq_ok h.user).1] at hmem
  rcases List.mem_append.1 hmem with hmem | hmem
  · rcases List.mem_append.1 hmem with hmem | hmem
    · intro he
      subst he
      exact hs (List.mem_map_of_mem hmem)
    · obtain ⟨e, he, hstone⟩ := List.mem_filterMap.1 hmem
      intro he
      subst he
      exact hr ((tombstone?_eq_some hstone).1 ▸ he)
  · exact hm m (Option.mem_toList.1 hmem)

theorem Composed.get?_mark :
    (t.snapshot.advance v as).domains.get? HighWaterMark.domain =
      (mark.map (·.configuration)).or (t.snapshot.domains.get? HighWaterMark.domain) := by
  cases mark with
  | none =>
    have huser : ∀ d ∈ t.domainsSet.map (·.domain) ++ t.domainsRemoved,
        d ≠ HighWaterMark.domain := by
      intro d hd he
      subst he
      exact absurd ((userDomains_eq_ok h.user).2.2 _ hd) (by decide)
    refine h.get?_other (fun hd ↦ ?_) (fun hd ↦ ?_) nofun
    · exact huser _ (List.mem_append_left _ hd) rfl
    · exact huser _ (List.mem_append_right _ hd) rfl
  | some m =>
    obtain ⟨hdomain, hremoved⟩ := h.tracked.mark_domain m rfl
    have hmem : m ∈ domains ++ (some m).toList := by simp
    rw [Snapshot.advance, h.domainActions, ← hdomain,
      DomainMetadata.get?_foldl_of_mem h.domains_nodup hmem, hremoved]
    rfl

theorem Composed.mark_off (hoff : t.snapshot.configuration.writesRowTracking = false) :
    (t.snapshot.advance v as).domains.get? HighWaterMark.domain =
      t.snapshot.domains.get? HighWaterMark.domain := by
  rw [h.get?_mark, (h.tracked.eq_off hoff).2]
  rfl

theorem Composed.mark_on (hon : t.snapshot.configuration.writesRowTracking = true) :
    ∃ low high : Int64, ∃ first : List Add, t.snapshot.highWaterMark = .ok low ∧
      t.addedItems 0 = first.map (.ok ∘ .add) ∧ (∀ a ∈ first, ∃ k, a.requiredCount = .ok k) ∧
      high.toInt = low.toInt + (first.map Add.records).sum ∧
      (t.snapshot.advance v as).domains.get? HighWaterMark.domain =
        if (first.map Add.records).sum = 0 then t.snapshot.domains.get? HighWaterMark.domain
        else some (HighWaterMark.encode ⟨high⟩) := by
  rw [h.get?_mark]
  cases h.tracked with
  | off hoff =>
    rw [hoff] at hon
    cases hon
  | @on low high _ _ _ first _ _ _ hlow _ _ _ hfirst hcounts hsum =>
    refine ⟨low, high, first, hlow, hfirst, hcounts, hsum, ?_⟩
    by_cases hz : (first.map Add.records).sum = 0
    · have he : high = low := Int64.toInt_inj.1 (by omega)
      rw [if_pos hz, if_pos he]
      rfl
    · have he : high ≠ low := by
        intro he
        subst he
        omega
      rw [if_neg hz, if_neg he]
      rfl

end Domains

theorem start_eq_ok {s : Snapshot} {timestamp : Int64} (h : start s timestamp = .ok t) :
    t = { snapshot := s, timestamp } := by
  obtain ⟨_, -, ht⟩ := Outcome.bind_eq_ok_iff.1 h
  exact (Except.ok.inj ht).symm

variable {fs : FileSystem} {dir : Place} {root : Location} {requested : Option Version}
  {n w : Version}

/-- A transaction only gets the version after the last one, and the table then
goes on by the transaction's actions. -/
theorem load_advance (hp : Log.place? fs root = some dir) (hn : Log.Holds fs dir n)
    (hs : Snapshot.load fs root requested = .ok t.snapshot)
    (hc : (t.commit txnId fs).1.result = .ok (.committed w)) :
    ∃ as, t.Commits txnId as ∧ t.snapshot.version.next? = some w ∧ t.snapshot.version = n ∧
      Snapshot.load (t.commit txnId fs).2 root none = .ok (t.snapshot.advance w as) := by
  obtain ⟨-, hle, -, hreplay⟩ := (hn.load_eq_ok_iff hp).1 hs
  have hroot : Log.place? fs t.snapshot.root = some dir := by
    rwa [(Snapshot.replay_version hreplay).1]
  rcases commit_cases hroot txnId with ⟨e, he, -⟩ | ⟨v, -, hr, -, -⟩ | ⟨v, as, hnext, hr, has, hf,
    hw⟩
  · rw [hc] at he
    cases he
  · rw [hc] at hr
    cases hr
  · obtain rfl : w = v := by
      rw [hc] at hr
      exact Response.committed.inj (Except.ok.inj hr)
    have hlast : t.snapshot.version = n := by
      refine UInt64.le_antisymm hle (UInt64.not_lt.1 fun hlt ↦ ?_)
      have hwn : w ≤ n := by
        rw [UInt64.lt_iff_toNat_lt] at hlt
        rw [UInt64.le_iff_toNat_le, Version.next?_eq_some_iff.1 hnext]
        omega
      obtain ⟨bs, hbs⟩ := hn.present w hwn
      rw [hf] at hbs
      cases hbs
    refine ⟨as, has, hnext, hlast, ?_⟩
    exact hn.load_next (hlast ▸ hnext) hw has.readActions_write has.keepsTable hp hs hlast

theorem mem_domainSet {changes : List Staging} {m : DomainMetadata} :
    m ∈ changes.filterMap Staging.domainSet? ↔ ∃ d c, .setDomain d c ∈ changes ∧ m = .set d c := by
  rw [List.mem_filterMap]
  constructor
  · intro he
    obtain ⟨change, hchange, hm⟩ := he
    cases change with
    | setDomain d c => exact ⟨d, c, hchange, (Option.some.inj hm).symm⟩
    | _ => cases hm
  · intro he
    obtain ⟨d, c, hchange, rfl⟩ := he
    exact ⟨_, hchange, rfl⟩

theorem mem_domainRemoved {changes : List Staging} {d : String} :
    d ∈ changes.filterMap Staging.domainRemoved? ↔ .removeDomain d ∈ changes := by
  rw [List.mem_filterMap]
  constructor
  · intro he
    obtain ⟨change, hchange, hd⟩ := he
    cases change with
    | removeDomain e => rwa [← Option.some.inj hd]
    | _ => cases hd
  · intro hchange
    exact ⟨_, hchange, rfl⟩

/-- Replaying a commit gives the table with all that was staged, and nothing else. -/
theorem commit_refines_staging {s : Snapshot} {timestamp : Int64} {t₀ : Transaction}
    {changes : List Staging} (hp : Log.place? fs root = some dir) (hn : Log.Holds fs dir n)
    (hs : Snapshot.load fs root requested = .ok s) (hstart : start s timestamp = .ok t₀)
    (hc : ((t₀.stageAll changes).commit txnId fs).1.result = .ok (.committed w)) :
    ∃ s', Snapshot.load ((t₀.stageAll changes).commit txnId fs).2 root none = .ok s' ∧
      w.toNat = s.version.toNat + 1 ∧ s'.configuration = { s.configuration with version := w } ∧
      (∀ d c, .setDomain d c ∈ changes → s'.domains.get? d = some c) ∧
      (∀ d, .removeDomain d ∈ changes → s'.domains.get? d = none) ∧
      (∀ d, (∀ c, .setDomain d c ∉ changes) → .removeDomain d ∉ changes → d ≠ HighWaterMark.domain →
        s'.domains.get? d = s.domains.get? d) ∧
      (s.configuration.writesRowTracking = false →
        s'.domains.get? HighWaterMark.domain = s.domains.get? HighWaterMark.domain) ∧
      (s.configuration.writesRowTracking = true → ∃ mark mark' : Int64, ∃ adds : List Add,
        s.highWaterMark = .ok mark ∧ (t₀.stageAll changes).addedItems 0 = adds.map (.ok ∘ .add) ∧
        (∀ a ∈ adds, ∃ k, a.requiredCount = .ok k) ∧
        mark'.toInt = mark.toInt + (adds.map Add.records).sum ∧
        s'.domains.get? HighWaterMark.domain =
          if (adds.map Add.records).sum = 0 then s.domains.get? HighWaterMark.domain
          else some (HighWaterMark.encode ⟨mark'⟩)) := by
  obtain rfl := start_eq_ok hstart
  have hsnapshot := stageAll_snapshot (t := { snapshot := s, timestamp }) changes
  have hset := stageAll_domainsSet (t := { snapshot := s, timestamp }) changes
  have hremoved := stageAll_domainsRemoved (t := { snapshot := s, timestamp }) changes
  generalize stageAll { snapshot := s, timestamp } changes = t at *
  simp only [List.nil_append] at hset hremoved
  obtain rfl : t.snapshot = s := hsnapshot
  obtain ⟨as, has, hnext, -, hload⟩ := load_advance hp hn hs hc
  obtain ⟨v, adds, written, domains, mark, hcomposed⟩ := has.composed
  obtain rfl : w = v := Option.some.inj (hnext.symm.trans hcomposed.next)
  refine ⟨_, hload, Version.next?_eq_some_iff.1 hnext, rfl, ?_, ?_, ?_, hcomposed.mark_off,
    hcomposed.mark_on⟩
  · intro d c hd
    refine hcomposed.get?_set (d := .set d c) ?_ rfl
    rw [hset]
    exact mem_domainSet.2 ⟨d, c, hd, rfl⟩
  · intro d hd
    refine hcomposed.get?_removed ?_
    rw [hremoved]
    exact mem_domainRemoved.2 hd
  · intro d hd hr hm
    refine hcomposed.get?_other ?_ ?_ fun m hmark ↦ ?_
    · rw [hset]
      intro hmem
      obtain ⟨m, hstaged, rfl⟩ := List.mem_map.1 hmem
      obtain ⟨d, c, hchange, rfl⟩ := mem_domainSet.1 hstaged
      exact hd c hchange
    · rw [hremoved]
      exact fun hmem ↦ hr (mem_domainRemoved.1 hmem)
    · rw [(hcomposed.tracked.mark_domain m hmark).1]
      exact Ne.symm hm

end Transaction

namespace Sample

/-- A table that has given out five row ids, with a domain of a user and one of the system. -/
def furnished : FileSystem :=
  ground.set (log ++ [LogEntry.name 0]) (.file (writeActions
    [.protocol protocol, .metadata metadata, .domainMetadata (.set "old" "1"),
      .domainMetadata (Clustering.toDomain ⟨[["region"]]⟩),
      .domainMetadata (HighWaterMark.toDomain ⟨4⟩)]))

def furniture : Snapshot where
  configuration := snapshot.configuration
  domains := .ofList [("old", "1"), (Clustering.domain, Clustering.encode ⟨[["region"]]⟩),
    (HighWaterMark.domain, HighWaterMark.encode ⟨4⟩)]

def refurbishing : Transaction := { snapshot := furniture, timestamp := 7 }

def refurbishment : List Staging :=
  [.setDomain "app" "on", .removeDomain "old", .addFiles (.actions [.add (file "f" 5)])]

end Sample

open TableLog.Sample (furnished furniture refurbishing refurbishment) in
theorem Transaction.commit_refines_staging_sample :
    furniture.domains.get? "old" = some "1" ∧
      ∃ s', Snapshot.load ((refurbishing.stageAll refurbishment).commit "id" furnished).2
          Sample.root none = .ok s' ∧
        s'.version = 1 ∧ s'.domains.get? "app" = some "on" ∧ s'.domains.get? "old" = none ∧
        s'.domains.get? Clustering.domain = some (Clustering.encode ⟨[["region"]]⟩) ∧
        s'.domains.get? HighWaterMark.domain = some (HighWaterMark.encode ⟨9⟩) := by
  have hplace : Log.place? furnished Sample.root = some Sample.log := by decide +kernel
  have hload : Snapshot.load furnished Sample.root none = .ok furniture := by decide +kernel
  have hstart : start furniture 7 = .ok refurbishing := rfl
  have hc : ((refurbishing.stageAll refurbishment).commit "id" furnished).1.result =
      .ok (.committed 1) := by decide +kernel
  obtain ⟨s', hs', -, hconfiguration, hset, hremoved, hothers, -, htracked⟩ :=
    commit_refines_staging hplace (Sample.holds_first _) hload hstart hc
  have hregion : furniture.domains.get? Clustering.domain =
      some (Clustering.encode ⟨[["region"]]⟩) := by decide +kernel
  obtain ⟨mark, mark', adds, hmark, hadds, -, hsum, hnew⟩ := htracked (by decide)
  have hold : furniture.highWaterMark = .ok 4 := by decide +kernel
  have hstaged : (refurbishing.stageAll refurbishment).addedItems 0 =
      [Sample.file "f" 5].map (.ok ∘ .add) := by decide +kernel
  obtain rfl : mark = 4 := Except.ok.inj (hmark.symm.trans hold)
  have hinjective : Function.Injective (Except.ok ∘ Action.add : Add → Outcome Action) :=
    fun a b hab ↦ Action.add.inj (Except.ok.inj hab)
  obtain rfl : adds = [Sample.file "f" 5] :=
    List.map_injective_iff.2 hinjective (hadds.symm.trans hstaged)
  have hrecords : ([Sample.file "f" 5].map Add.records).sum = 5 := by decide +kernel
  obtain rfl : mark' = 9 := Int64.toInt_inj.1 (by rw [hsum, hrecords]; rfl)
  rw [hrecords, if_neg (by decide)] at hnew
  refine ⟨by decide +kernel, s', hs', ?_, hset _ _ (by simp [refurbishment]),
    hremoved _ (by simp [refurbishment]), ?_, hnew⟩
  · rw [Snapshot.version, hconfiguration]
  · rw [hothers _ (by simp [refurbishment, Clustering.domain])
      (by simp [refurbishment, Clustering.domain]) (by decide), hregion]

end TableLog
