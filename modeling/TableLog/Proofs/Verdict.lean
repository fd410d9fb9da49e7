import TableLog.Proofs.Conformance
import TableLog.Proofs.Exhaustion
import TableLog.Proofs.Recount

namespace TableLog

namespace Log

/-- Where the commit of a version goes, and the file system once the
directories on the way there are made. -/
def slot? (fs : FileSystem) (root : Location) (v : Version) : Option (FileSystem × Place) := do
  let log ← (directory root).toOption
  let location ← (commitLocation log v).toOption
  let path ← location.filePath?
  match fs.createDirectories path.dropLast with
  | (.error _, _) => none
  | (.ok (), made) => (made.resolve? path).map fun place ↦ (made, place)

/-- The table is a local one, and the file system has nothing against a commit of this version. -/
def Serves (fs : FileSystem) (root : Location) (v : Version) : Prop :=
  ∃ made place, slot? fs root v = some (made, place)

instance (fs : FileSystem) (root : Location) (v : Version) : Decidable (Serves fs root v) :=
  decidable_of_iff ((slot? fs root v).isSome = true) (by simp [Serves, Option.isSome_iff_exists])

/-- There is an entry already where the commit of this version goes. -/
def Taken (fs : FileSystem) (root : Location) (v : Version) : Prop :=
  ∃ made place, slot? fs root v = some (made, place) ∧ made.get? place ≠ none

variable {fs made : FileSystem} {root : Location} {v : Version} {place dir : Place} {p : Proposal}

theorem exists_directory (h : Serves fs root v) : ∃ log, directory root = .ok log := by
  obtain ⟨made, place, h⟩ := h
  cases hlog : directory root with
  | ok log => exact ⟨log, rfl⟩
  | error e =>
    rw [slot?, hlog] at h
    cases h

theorem taken_iff (h : slot? fs root v = some (made, place)) :
    Taken fs root v ↔ made.get? place ≠ none := by
  constructor
  · intro htaken
    obtain ⟨made', place', h', hfound⟩ := htaken
    obtain ⟨rfl, rfl⟩ := Prod.mk.inj (Option.some.inj (h.symm.trans h'))
    exact hfound
  · intro hfound
    exact ⟨made, place, h, hfound⟩

theorem taken_iff_found (hp : place? fs root = some dir) (h : Serves fs root v) :
    Taken fs root v ↔ found? fs dir v ≠ none := by
  obtain ⟨log, path, hlog, -, hres, hloc⟩ := place?_eq_some hp
  obtain ⟨l, hl, hpath⟩ := hloc v
  obtain ⟨made, place, hslot⟩ := h
  rw [taken_iff hslot]
  simp only [slot?, hlog, hl, hpath, Except.toOption, bind, Option.bind, List.dropLast_concat,
    FileSystem.createDirectories_of_slash hres, Option.map_eq_some_iff] at hslot
  obtain ⟨place', hplace, he⟩ := hslot
  obtain ⟨rfl, rfl⟩ := Prod.mk.inj he
  rcases FileSystem.resolve?_below hres (FileSystem.isName_name v)
    (FileSystem.goesDown_name v) with hr | hr
  · cases hr.symm.trans hplace
  · rw [Option.some.inj (hplace.symm.trans hr), found?]

end Log

namespace FileSystem

variable {fs made : FileSystem} {root : Location} {place : Place} {p : Proposal}

theorem claim_of_slot (hlog : Log.directory root = .ok p.log)
    (h : Log.slot? fs root p.version = some (made, place)) :
    fs.claim p =
      if made.get? place = none then (.ok (some place), made.set place (.file []))
        else (.ok none, made) := by
  rw [Log.slot?, hlog] at h
  simp only [Except.toOption, bind, Option.bind] at h
  rw [claim]
  cases hlocation : Log.commitLocation p.log p.version with
  | error e => simp [hlocation] at h
  | ok location =>
    simp only [hlocation] at h
    cases hpath : location.filePath? with
    | none => simp [hpath] at h
    | some path =>
      simp only [hpath] at h ⊢
      rcases hmade : fs.createDirectories path.dropLast with ⟨outcome, ground⟩
      cases outcome with
      | error e => simp [hmade] at h
      | ok =>
        simp only [hmade] at h
        obtain ⟨place', hplace, he⟩ := Option.map_eq_some_iff.1 h
        obtain ⟨rfl, rfl⟩ := Prod.mk.inj he
        simp only [createNew, hplace]
        cases ground.get? place' with
        | none => rfl
        | some m => rfl

theorem commit_of_slot (hlog : Log.directory root = .ok p.log)
    (h : Log.slot? fs root p.version = some (made, place)) :
    (fs.commit p).1.result =
      if made.get? place = none then
        match Results.failure p.actions.items with
        | some e => .error e
        | none => .ok (.committed p.version)
      else .ok (.conflict p.version) := by
  have hclaim := claim_of_slot hlog h
  by_cases hfree : made.get? place = none
  · rw [if_pos hfree] at hclaim ⊢
    have hplace : place ≠ [] := by
      rintro rfl
      cases hfree
    rcases commit_of_claim hclaim hplace hfree with ⟨e, he, hresult, -⟩ | ⟨hnone, hresult, -⟩
    · rw [hresult, he]
    · rw [hresult, hnone]
  · rw [if_neg hfree] at hclaim ⊢
    rw [commit, hclaim]

end FileSystem

namespace Transaction

/-- What can be checked before the sources are asked. -/
structure Admissible (t : Transaction) : Prop where
  version : t.snapshot.version.toNat + 1 < 0x8000000000000000
  appIds : (t.appVersions.map (·.appId)).Nodup
  removals : t.removed = [] ∨ t.snapshot.configuration.appendOnly = false
  domains : t.domainsSet = [] ∧ t.domainsRemoved = [] ∨
    t.snapshot.configuration.domainMetadataSupported = true ∧
      (∀ d ∈ t.domainsSet.map (·.domain) ++ t.domainsRemoved, isSystemDomain d = false) ∧
        (t.domainsSet.map (·.domain) ++ t.domainsRemoved).Nodup

/-- The sources yield added files and nothing else, and none that takes part in a
change of data that would have to be fed. -/
def StagesAdds (t : Transaction) : Prop :=
  ∀ x ∈ t.addedItems 0, ∃ a, x = .ok (.add a) ∧
    (t.snapshot.configuration.changeDataFeed = true → (∃ r ∈ t.removed, r.dataChange = true) →
      a.dataChange = false)

/-- There are row ids left behind the stored mark, and enough for the added files. -/
def FitsRowIds (t : Transaction) : Prop :=
  ∃ mark, t.snapshot.highWaterMark = .ok mark ∧ mark ≠ Int64.maxValue ∧
    Add.Fit mark (t.stagedAdds 0)

variable {t : Transaction} {txnId : String} {turn : Nat} {fs : FileSystem} {p : Proposal}

theorem userDomains_isOk_iff :
    (∃ domains, t.userDomains = .ok domains) ↔ t.domainsSet = [] ∧ t.domainsRemoved = [] ∨
      t.snapshot.configuration.domainMetadataSupported = true ∧
        (∀ d ∈ t.domainsSet.map (·.domain) ++ t.domainsRemoved, isSystemDomain d = false) ∧
          (t.domainsSet.map (·.domain) ++ t.domainsRemoved).Nodup := by
  have hcheck : checkDomains [] (t.domainsSet.map (·.domain) ++ t.domainsRemoved) = .ok () ↔
      (∀ d ∈ t.domainsSet.map (·.domain) ++ t.domainsRemoved, isSystemDomain d = false) ∧
        (t.domainsSet.map (·.domain) ++ t.domainsRemoved).Nodup := by
    rw [checkDomains_eq_ok_iff, and_comm]
    simp only [List.not_mem_nil, not_false_eq_true, and_true]
  rw [← hcheck, userDomains]
  by_cases hnone : t.domainsSet = [] ∧ t.domainsRemoved = []
  · rw [if_pos hnone]
    exact ⟨fun _ ↦ .inl hnone, fun _ ↦ ⟨[], rfl⟩⟩
  · rw [if_neg hnone, or_iff_right hnone]
    cases t.snapshot.configuration.domainMetadataSupported with
    | false =>
      constructor
      · intro h
        obtain ⟨_, h⟩ := h
        cases h
      · intro h
        cases h.1
    | true =>
      simp only [if_true, Outcome.bind_eq_ok_iff, true_and]
      constructor
      · intro h
        obtain ⟨_, _, hok, -⟩ := h
        exact hok
      · intro h
        exact ⟨_, (), h, rfl⟩

theorem make_isOk_iff {v : Version} {supported : Bool} {s : Snapshot} :
    (∃ w, RowTracking.make supported s v = .ok w) ↔
      v.toNat < 0x8000000000000000 ∧ (supported = true → ∃ mark, s.highWaterMark = .ok mark) := by
  rw [← Version.exists_word?_iff]
  constructor
  · intro h
    obtain ⟨w, hw⟩ := h
    obtain ⟨hword, -, hmark⟩ := RowTracking.make_eq_ok hw
    exact ⟨⟨_, hword⟩, fun hs ↦ ⟨_, hmark hs⟩⟩
  · intro h
    obtain ⟨⟨commitVersion, hword⟩, hmark⟩ := h
    rw [RowTracking.make, hword]
    cases supported with
    | false => exact ⟨_, rfl⟩
    | true =>
      obtain ⟨mark, hmark⟩ := hmark rfl
      simp only [hmark]
      exact ⟨_, rfl⟩

theorem prepare_isOk_iff :
    (∃ r, t.prepare = .ok r) ↔ t.Admissible ∧
      (t.snapshot.configuration.writesRowTracking = true →
        ∃ mark, t.snapshot.highWaterMark = .ok mark) := by
  constructor
  · intro h
    obtain ⟨⟨v, domains, w⟩, h⟩ := h
    obtain ⟨hv, happ, hremovals, hdomains, hmake⟩ := prepare_eq_ok_iff.1 h
    have hnext := Version.next?_eq_some_iff.1 (commitVersion_eq_ok_iff.1 hv)
    obtain ⟨hword, hmark⟩ := make_isOk_iff.1 ⟨w, hmake⟩
    refine ⟨⟨hnext ▸ hword, checkAppVersions_eq_ok_iff.1 happ, ?_,
      userDomains_isOk_iff.1 ⟨domains, hdomains⟩⟩, hmark⟩
    cases hon : t.snapshot.configuration.appendOnly with
    | false => exact .inr rfl
    | true => exact .inl (checkRemovals_eq_ok_iff.1 hremovals hon)
  · intro h
    obtain ⟨hadmissible, hmark⟩ := h
    have hlt := hadmissible.version
    obtain ⟨v, hv, -⟩ := Version.exists_next_word hlt
    obtain ⟨domains, hdomains⟩ := userDomains_isOk_iff.2 hadmissible.domains
    obtain ⟨w, hmake⟩ := make_isOk_iff.2 ⟨Version.next?_eq_some_iff.1 hv ▸ hlt, hmark⟩
    refine ⟨(v, domains, w), prepare_eq_ok_iff.2 ⟨commitVersion_eq_ok_iff.2 hv,
      checkAppVersions_eq_ok_iff.2 hadmissible.appIds, checkRemovals_eq_ok_iff.2 fun hon ↦ ?_,
      hdomains, hmake⟩⟩
    rcases hadmissible.removals with hnone | hoff
    · exact hnone
    · cases hoff.symm.trans hon

/-- What the sources yield is in order just when the staged files can be traversed to the end. -/
theorem files_whole_iff :
    (∃ as : List Action, (t.files turn).inline.items = as.map .ok) ↔
      ∀ x ∈ t.addedItems turn, ∃ a,
        x = .ok (.add a) ∧ (t.rejectsDataChange = true → a.dataChange = false) := by
  obtain ⟨body, hbody, hitems⟩ := t.items_files turn
  rw [hbody, Opening.items_inline]
  simp only [Trace.items, List.nil_append, hitems]
  constructor
  · intro h x hx
    obtain ⟨as, has⟩ := h
    have hmem : x.bind t.checkStaged ∈ as.map .ok := by
      rw [← has]
      exact List.mem_append_left _ (List.mem_map_of_mem hx)
    obtain ⟨b, -, hb⟩ := List.mem_map.1 hmem
    cases x with
    | error e => cases hb
    | ok y =>
      obtain ⟨rfl, a, rfl⟩ := checkStaged_eq_ok hb.symm
      exact ⟨a, rfl, checkStaged_add_iff.1 hb.symm⟩
  · intro h
    apply Results.exists_ok
    intro r hr
    rcases List.mem_append.1 hr with hr | hr
    · obtain ⟨x, hx, rfl⟩ := List.mem_map.1 hr
      obtain ⟨a, rfl, hdata⟩ := h x hx
      exact ⟨.add a, checkStaged_add_iff.2 hdata⟩
    · obtain ⟨a, -, rfl⟩ := List.mem_map.1 hr
      exact ⟨a, rfl⟩

theorem stagesAdds_iff (hr : t.Reiterable) :
    (∃ as : List Action, (t.files turn).inline.items = as.map .ok) ↔ t.StagesAdds := by
  rw [files_whole_iff, hr.addedItems turn 0, StagesAdds]
  refine forall₂_congr fun x _ ↦ exists_congr fun a ↦ and_congr_right fun _ ↦ ?_
  rw [rejectsDataChange_iff, and_imp]

theorem adds_of_files {as : List Action} (h : (t.files turn).inline.items = as.map .ok) :
    as.filterMap Action.add? = t.stagedAdds turn := by
  obtain ⟨body, hbody, hitems⟩ := t.items_files turn
  rw [hbody, Opening.items_inline] at h
  rw [(staged_of_checked (hitems.symm.trans h)).2, Action.adds_files]
  rfl

theorem update_files_iff {w : RowTracking} (hr : t.Reiterable) (hw : w.supported = true) :
    (∃ mark, (w.update (t.files turn)).2 = .ok mark) ↔
      t.StagesAdds ∧ w.highWaterMark ≠ Int64.maxValue ∧
      Add.Fit w.highWaterMark (t.stagedAdds turn) := by
  constructor
  · intro h
    obtain ⟨mark, hok⟩ := h
    obtain ⟨as, _, _, _, _, hitems, -⟩ := RowTracking.agrees_of_update hw rfl hok
    have hfit := (RowTracking.fit_of_update hw rfl hitems hok).1
    rw [adds_of_files hitems] at hfit
    refine ⟨(stagesAdds_iff hr).1 ⟨as, hitems⟩, fun hmax ↦ ?_, hfit⟩
    obtain ⟨body, hbody, -⟩ := t.items_files turn
    rw [RowTracking.update_of_maxValue hw hmax (congrArg Opening.result hbody)] at hok
    cases hok
  · intro h
    obtain ⟨hadds, hmark, hfit⟩ := h
    obtain ⟨as, hitems⟩ := (stagesAdds_iff hr).2 hadds
    rw [← adds_of_files hitems] at hfit
    exact (RowTracking.update_isOk_iff hw rfl hitems hmark).2 hfit

structure Ready (t : Transaction) : Prop where
  admissible : t.Admissible
  tracked : t.snapshot.configuration.writesRowTracking = true → t.StagesAdds ∧ t.FitsRowIds

theorem ready_of_propose (hr : t.Reiterable) (hp : (t.propose txnId).result = .ok p) : t.Ready := by
  obtain ⟨domains, w, mark, body, hprepare, hupdate, -⟩ := propose_eq_ok hp
  obtain ⟨-, hsupported, hread⟩ := RowTracking.make_eq_ok (prepare_eq_ok hprepare).2.2
  refine ⟨(prepare_isOk_iff.1 ⟨_, hprepare⟩).1, fun hon ↦ ?_⟩
  obtain ⟨hadds, hmark, hfit⟩ := (update_files_iff hr (hsupported.trans hon)).1 ⟨mark, hupdate⟩
  exact ⟨hadds, w.highWaterMark, hread hon, hmark, hfit⟩

theorem propose_of_ready (hr : t.Reiterable) (hready : t.Ready) {log : Location}
    (hlog : Log.directory t.snapshot.root = .ok log) (txnId : String) :
    ∃ p, (t.propose txnId).result = .ok p := by
  have hmarked : t.snapshot.configuration.writesRowTracking = true →
      ∃ mark, t.snapshot.highWaterMark = .ok mark := by
    intro hon
    obtain ⟨-, mark, hmark, -⟩ := hready.tracked hon
    exact ⟨mark, hmark⟩
  obtain ⟨⟨v, domains, w⟩, hprepare⟩ := prepare_isOk_iff.2 ⟨hready.admissible, hmarked⟩
  obtain ⟨-, hsupported, hread⟩ := RowTracking.make_eq_ok (prepare_eq_ok hprepare).2.2
  obtain ⟨body, hbody, -⟩ := t.items_files 1
  have hresult : (t.files 1).result = .ok body := congrArg Opening.result hbody
  have hproposes {mark : Option DomainMetadata} {body : Trace}
      (hupdate : (w.update (t.files 0)).2 = .ok mark)
      (hwrap : (w.wrap (t.files 1)).result = .ok body) : ∃ p, (t.propose txnId).result = .ok p := by
    obtain ⟨p, hp, -⟩ := propose_of_parts hprepare hupdate hwrap hlog
    exact ⟨p, hp⟩
  cases h : t.snapshot.configuration.writesRowTracking with
  | false =>
    have hoff : ¬w.supported := by simp [hsupported, h]
    have hupdate : (w.update (t.files 0)).2 = .ok none := by rw [RowTracking.update, if_neg hoff]
    have hwrap : (w.wrap (t.files 1)).result = .ok body := by
      rw [RowTracking.wrap, if_neg hoff, hresult]
    exact hproposes hupdate hwrap
  | true =>
    obtain ⟨hadds, mark, hmark, hne, hfit⟩ := hready.tracked h
    obtain rfl : mark = w.highWaterMark := Except.ok.inj (hmark.symm.trans (hread h))
    obtain ⟨mark, hupdate⟩ := (update_files_iff hr (hsupported.trans h)).2 ⟨hadds, hne, hfit⟩
    obtain ⟨g, hg⟩ := RowIdAssigner.exists_start hne w.commitVersion
    obtain ⟨out, hwrap, -⟩ := RowTracking.wrap_eq_ok (hsupported.trans h) hresult hg
    exact hproposes hupdate hwrap

/-- A proposal is carried out to the end if the sources yield what they should. -/
theorem stream_whole_iff (hr : t.Reiterable) (hp : (t.propose txnId).result = .ok p) :
    Results.failure p.actions.items = none ↔ t.StagesAdds := by
  cases h : t.snapshot.configuration.writesRowTracking with
  | true =>
    obtain ⟨as, has⟩ := propose_items h hr hp
    rw [has, Results.failure_ok]
    exact iff_of_true rfl ((ready_of_propose hr hp).tracked h).1
  | false =>
    obtain ⟨domains, w, mark, body, hprepare, -, hbody, -, hitems⟩ := propose_eq_ok hp
    obtain ⟨-, hsupported, -⟩ := RowTracking.make_eq_ok (prepare_eq_ok hprepare).2.2
    have hoff : ¬w.supported := by simp [hsupported, h]
    rw [RowTracking.wrap, if_neg hoff] at hbody hitems
    have hfiles : (t.files 1).inline.items = (t.files 1).start.items ++ body.items := by
      rw [Opening.items_inline, hbody]
    rw [← stagesAdds_iff hr, hfiles, hitems]
    constructor
    · intro hnone
      obtain ⟨ws, hws, -⟩ := exists_of_append_eq_map_ok (Results.eq_ok_of_failure hnone)
      exact ⟨ws, hws⟩
    · intro hwhole
      obtain ⟨ws, hws⟩ := hwhole
      rw [hws, ← List.map_append]
      exact Results.failure_ok (_ :: _)

/-- What comes of a commit, and why. A version that is taken goes before what is wrong with the
files themselves, unless row tracking has come upon that already. -/
inductive Verdict (t : Transaction) (fs : FileSystem) : Outcome Response → Prop
  | unready {e : Error} : ¬t.Ready → Verdict t fs (.error e)
  | taken {v : Version} : t.snapshot.version.next? = some v → t.Ready →
      Log.Taken fs t.snapshot.root v →
      Verdict t fs (.ok (.conflict v))
  | broken {v : Version} {e : Error} : t.snapshot.version.next? = some v →
      ¬Log.Taken fs t.snapshot.root v →
      ¬t.StagesAdds → Verdict t fs (.error e)
  | free {v : Version} : t.snapshot.version.next? = some v → t.Ready →
      ¬Log.Taken fs t.snapshot.root v →
      t.StagesAdds → Verdict t fs (.ok (.committed v))

section Verdicts

variable {result : Outcome Response} {v : Version}

theorem Verdict.committed_iff (h : t.Verdict fs result) :
    result = .ok (.committed v) ↔
      t.snapshot.version.next? = some v ∧ t.Ready ∧ t.StagesAdds ∧
      ¬Log.Taken fs t.snapshot.root v := by
  constructor
  · rintro rfl
    cases h with
    | free hnext hready hfree hadds => exact ⟨hnext, hready, hadds, hfree⟩
  · rintro ⟨hv, hready, hadds, hfree⟩
    cases h with
    | unready hunready => exact absurd hready hunready
    | taken hnext _ htaken =>
      obtain rfl := Option.some.inj (hv.symm.trans hnext)
      exact absurd htaken hfree
    | broken _ _ hbroken => exact absurd hadds hbroken
    | free hnext => rw [Option.some.inj (hv.symm.trans hnext)]

theorem Verdict.conflict_iff (h : t.Verdict fs result) :
    result = .ok (.conflict v) ↔
      t.snapshot.version.next? = some v ∧ t.Ready ∧ Log.Taken fs t.snapshot.root v := by
  constructor
  · rintro rfl
    cases h with
    | taken hnext hready htaken => exact ⟨hnext, hready, htaken⟩
  · rintro ⟨hv, hready, htaken⟩
    cases h with
    | unready hunready => exact absurd hready hunready
    | taken hnext => rw [Option.some.inj (hv.symm.trans hnext)]
    | broken hnext hfree | free hnext _ hfree =>
      obtain rfl := Option.some.inj (hv.symm.trans hnext)
      exact absurd htaken hfree

theorem Verdict.error_iff (h : t.Verdict fs result) :
    (∃ e, result = .error e) ↔
      ¬t.Ready ∨ ¬t.StagesAdds ∧ ∀ v, t.snapshot.version.next? = some v →
      ¬Log.Taken fs t.snapshot.root v := by
  cases h with
  | unready hunready => exact iff_of_true ⟨_, rfl⟩ (.inl hunready)
  | taken hnext hready htaken =>
    refine iff_of_false nofun ?_
    rintro (hunready | ⟨-, hfree⟩)
    · exact hunready hready
    · exact hfree _ hnext htaken
  | broken hnext hfree hbroken =>
    refine iff_of_true ⟨_, rfl⟩ (.inr ⟨hbroken, fun v hv ↦ ?_⟩)
    rwa [← Option.some.inj (hnext.symm.trans hv)]
  | free _ hready _ hadds =>
    refine iff_of_false nofun ?_
    rintro (hunready | ⟨hbroken, -⟩)
    · exact hunready hready
    · exact hbroken hadds

end Verdicts

theorem commit_verdict (hr : t.Reiterable)
    (hfs : ∀ v, t.snapshot.version.next? = some v → Log.Serves fs t.snapshot.root v)
    (txnId : String) :
    t.Verdict fs (t.commit txnId fs).1.result := by
  rw [commit]
  cases hpropose : (t.propose txnId).result with
  | error e =>
    refine .unready fun hready ↦ ?_
    obtain ⟨v, hnext, -⟩ := Version.exists_next_word hready.admissible.version
    obtain ⟨log, hlog⟩ := Log.exists_directory (hfs v hnext)
    obtain ⟨p, hp⟩ := propose_of_ready hr hready hlog txnId
    cases hpropose.symm.trans hp
  | ok p =>
    have hready := ready_of_propose hr hpropose
    have hwhole := stream_whole_iff hr hpropose
    obtain ⟨_, _, _, _, hprepare, -, -, hlog, -⟩ := propose_eq_ok hpropose
    have hnext := (prepare_eq_ok hprepare).1
    obtain ⟨made, place, hslot⟩ := hfs p.version hnext
    change t.Verdict fs (fs.commit p).1.result
    rw [FileSystem.commit_of_slot hlog hslot]
    split
    · rename_i hfree
      have hfree : ¬Log.Taken fs t.snapshot.root p.version :=
        fun htaken ↦ (Log.taken_iff hslot).1 htaken hfree
      split
      · rename_i e hfailure
        refine .broken hnext hfree fun hadds ↦ ?_
        cases (hwhole.2 hadds).symm.trans hfailure
      · rename_i hfailure
        exact .free hnext hready hfree (hwhole.1 hfailure)
    · rename_i hfound
      exact .taken hnext hready ((Log.taken_iff hslot).2 hfound)

/-- The outcome of a commit to a file system that serves it, from what is staged and
whether the version is taken: when it is committed, when there is a conflict, and that
there is an error in all other cases. -/
theorem commit_result_iff (hr : t.Reiterable)
    (hfs : ∀ v, t.snapshot.version.next? = some v → Log.Serves fs t.snapshot.root v)
    (txnId : String) :
    (∀ v, (t.commit txnId fs).1.result = .ok (.committed v) ↔
      v.toNat = t.snapshot.version.toNat + 1 ∧ t.Admissible ∧ t.StagesAdds ∧
        (t.snapshot.configuration.writesRowTracking = true → t.FitsRowIds) ∧
        ¬Log.Taken fs t.snapshot.root v) ∧
      (∀ v, (t.commit txnId fs).1.result = .ok (.conflict v) ↔
        v.toNat = t.snapshot.version.toNat + 1 ∧ t.Admissible ∧
          (t.snapshot.configuration.writesRowTracking = true → t.StagesAdds ∧ t.FitsRowIds) ∧
            Log.Taken fs t.snapshot.root v) ∧
      ((∃ e, (t.commit txnId fs).1.result = .error e) ↔
        ¬(t.Admissible ∧
            (t.snapshot.configuration.writesRowTracking = true → t.StagesAdds ∧ t.FitsRowIds)) ∨
          ¬t.StagesAdds ∧
            ∀ v, t.snapshot.version.next? = some v → ¬Log.Taken fs t.snapshot.root v) ∧
      ∀ dir, Log.place? fs t.snapshot.root = some dir → ∀ v, t.snapshot.version.next? = some v →
        (Log.Taken fs t.snapshot.root v ↔ Log.found? fs dir v ≠ none) := by
  have hverdict := commit_verdict hr hfs txnId
  have hready : t.Ready ↔
      t.Admissible ∧
      (t.snapshot.configuration.writesRowTracking = true → t.StagesAdds ∧ t.FitsRowIds) :=
    ⟨fun h ↦ ⟨h.admissible, h.tracked⟩, fun h ↦ ⟨h.1, h.2⟩⟩
  refine ⟨fun v ↦ ?_, fun v ↦ ?_, ?_, fun dir hdir v hv ↦ Log.taken_iff_found hdir (hfs v hv)⟩
  · rw [hverdict.committed_iff, Version.next?_eq_some_iff, hready]
    tauto
  · rw [hverdict.conflict_iff, Version.next?_eq_some_iff, hready, and_assoc]
  · rw [hverdict.error_iff, hready]

/-- One transaction, before and after somebody else has taken the version. -/
theorem commit_result_iff_raced :
    let t : Transaction :=
      { snapshot := Sample.snapshot, timestamp := 7,
        added := [.actions [.add (Sample.file "a" 5)]] }
    let raced := Sample.fs.set (Sample.log ++ [LogEntry.name 1]) (.file [])
    t.Admissible ∧ t.StagesAdds ∧ t.FitsRowIds ∧ ¬Log.Taken Sample.fs Sample.root 1 ∧
      Log.Taken raced Sample.root 1 ∧
      (t.commit "id" Sample.fs).1.result = .ok (.committed 1) ∧
        (t.commit "id" raced).1.result = .ok (.conflict 1) := by
  intro t raced
  have hr : t.Reiterable := fun s hs ↦ List.mem_singleton.1 hs ▸ Source.reiterable_actions _
  have hnext : t.snapshot.version.next? = some 1 := rfl
  have hfs : Log.Serves Sample.fs Sample.root 1 := by decide +kernel
  have hraced : Log.Serves raced Sample.root 1 := by decide +kernel
  have hcommitted : (t.commit "id" Sample.fs).1.result = .ok (.committed 1) := by decide +kernel
  obtain ⟨hadmissible, hadds, hfits, hfree⟩ :=
    (((commit_result_iff hr (fun v hv ↦ Option.some.inj (hnext.symm.trans hv) ▸ hfs) "id").1 1).1
      hcommitted).2
  obtain ⟨-, hconflict, -, htaken⟩ :=
    commit_result_iff hr (fun v hv ↦ Option.some.inj (hnext.symm.trans hv) ▸ hraced) "id"
  have htaken : Log.Taken raced Sample.root 1 :=
    (htaken Sample.log (by decide +kernel) 1 hnext).2 (by decide +kernel)
  exact ⟨hadmissible, hadds, hfits rfl, hfree, htaken, hcommitted,
    (hconflict 1).2 ⟨rfl, hadmissible, fun _ ↦ ⟨hadds, hfits rfl⟩, htaken⟩⟩

end Transaction

end TableLog
