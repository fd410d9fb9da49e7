import TableLog.Committer
import TableLog.Proofs.Log
import TableLog.Proofs.Stream
import TableLog.Proofs.Transaction

namespace TableLog

namespace FileSystem

variable {fs : FileSystem} {place : Place}

/-- One place holds a file, all others are as they were. -/
def Written (fs fs' : FileSystem) (place : Place) (bs : Bytes) : Prop :=
  ∀ q, fs'.get? q = if q = place then some (.file bs) else fs.get? q

theorem written_set (hp : place ≠ []) (bs : Bytes) :
    Written fs (fs.set place (.file bs)) place bs := by
  intro q
  rw [get?_set]
  by_cases hq : q = []
  · subst hq
    simp [Ne.symm hp]
  · simp [hq]

theorem written_append {old : Bytes} (h : fs.get? place = some (.file old)) (hp : place ≠ [])
    (bs : Bytes) :
    Written fs (fs.append place bs) place (old ++ bs) := by
  simp only [FileSystem.append, h]
  exact written_set hp _

theorem Written.trans {fs' fs'' : FileSystem} {old bs : Bytes} (h : Written fs fs' place old)
    (h' : Written fs' fs'' place bs) : Written fs fs'' place bs := by
  intro q
  rw [h']
  by_cases hq : q = place
  · simp [hq]
  · rw [if_neg hq, if_neg hq, h, if_neg hq]

theorem Written.append {fs' : FileSystem} {old : Bytes} (h : Written fs fs' place old)
    (hp : place ≠ []) (bs : Bytes) :
    Written fs (fs'.append place bs) place (old ++ bs) :=
  h.trans (written_append (by rw [h, if_pos rfl]) hp bs)

theorem Written.append_all {fs' : FileSystem} {old : Bytes} (h : Written fs fs' place old)
    (hp : place ≠ []) (as : List Action) :
    Written fs (as.foldl (fun fs a ↦ fs.append place (a.line ++ [0x0A])) fs') place
      (old ++ writeActions as) := by
  induction as generalizing fs' old with
  | nil => simpa [writeActions] using h
  | cons a as ih =>
    have hnext := ih (h.append hp (a.line ++ [0x0A]))
    rw [List.append_assoc] at hnext
    exact hnext

theorem Written.get?_unset {fs' : FileSystem} {bs : Bytes} (h : Written fs fs' place bs)
    (hp : place ≠ []) (hn : fs.get? place = none) (q : Place) :
    (fs'.unset place).get? q = fs.get? q := by
  rw [FileSystem.get?_unset]
  by_cases hq : q = []
  · simp [hq]
  · by_cases hqp : q = place
    · simp [hqp, hp, hn]
    · rw [if_neg hq, if_neg hqp, h, if_neg hqp]

theorem sameDirectories_of_others {fs' : FileSystem} (h : ∀ q, q ≠ place → fs'.get? q = fs.get? q)
    (hn : fs.get? place ≠ some .directory) (hn' : fs'.get? place ≠ some .directory) :
    SameDirectories fs fs' := by
  intro q
  by_cases hq : q = place
  · rw [hq]
    exact ⟨fun hd ↦ absurd hd hn, fun hd ↦ absurd hd hn'⟩
  · rw [h q hq]

theorem Written.others {fs' : FileSystem} {bs : Bytes} (h : Written fs fs' place bs) {q : Place}
    (hq : q ≠ place) :
    fs'.get? q = fs.get? q := by rw [h, if_neg hq]

theorem Written.get? {fs' : FileSystem} {bs : Bytes} (h : Written fs fs' place bs) :
    fs'.get? place = some (.file bs) := by rw [h, if_pos rfl]

theorem Written.sameDirectories {fs' : FileSystem} {bs : Bytes} (h : Written fs fs' place bs)
    (hn : fs.get? place ≠ some .directory) : SameDirectories fs fs' := by
  refine sameDirectories_of_others (fun q hq ↦ h.others hq) hn ?_
  rw [h.get?]
  exact nofun

theorem goesDown_name (v : Version) : goesDown (LogEntry.name v) := by
  have hl := LogEntry.name_length v
  simp only [goesDown, Bool.and_eq_true, decide_eq_true_eq]
  refine ⟨⟨?_, ?_⟩, ?_⟩ <;>
  · intro h
    simp [h] at hl

theorem isName_name (v : Version) : isName (LogEntry.name v) := by
  have hz : (0 : UInt8) ∉ LogEntry.name v := fun h ↦ (LogEntry.name_plain v 0 h).1 rfl
  simp [isName, hz, LogEntry.name_length]

theorem commit_of_claim {ground : FileSystem} {p : Proposal}
    (hc : fs.claim p = (.ok (some place), ground.set place (.file []))) (hp : place ≠ [])
    (hf : ground.get? place = none) :
    (∃ e, Results.failure p.actions.items = some e ∧ (fs.commit p).1.result = .error e ∧
      ∀ q, (fs.commit p).2.get? q = ground.get? q) ∨
    (Results.failure p.actions.items = none ∧ (fs.commit p).1.result = .ok (.committed p.version) ∧
      Written ground (fs.commit p).2 place (writeActions (Results.actions p.actions.items))) := by
  obtain ⟨hstate, hfail⟩ := Trace.drainFrom_total (fun fs a ↦ fs.append place (a.line ++ [0x0A]))
    (ground.set place (.file [])) [] p.actions
  have hempty : Written ground (ground.set place (.file [])) place [] := written_set hp []
  have hall := hempty.append_all hp (Results.actions p.actions.items)
  rw [List.nil_append, ← hstate] at hall
  rw [commit, hc]
  simp only [hfail]
  cases hr : Results.failure p.actions.items with
  | some e => exact .inl ⟨e, rfl, rfl, hall.get?_unset hp hf⟩
  | none => exact .inr ⟨rfl, rfl, hall⟩

section Attempts

variable {root : Location} {p : Proposal} (hp : Log.place? fs root = some place)
  (hlog : Log.directory root = .ok p.log)
include hp hlog

theorem claim_cases :
    (∃ e, fs.claim p = (.error e, fs)) ∨
    (fs.claim p = (.ok none, fs) ∧ Log.found? fs place p.version ≠ none) ∨
    (fs.claim p = (.ok (some (place ++ [LogEntry.name p.version])),
      fs.set (place ++ [LogEntry.name p.version])
        (.file [])) ∧ Log.found? fs place p.version = none) := by
  obtain ⟨log, path, hlog', -, hres, hloc⟩ := Log.place?_eq_some hp
  obtain rfl := Except.ok.inj (hlog.symm.trans hlog')
  obtain ⟨l, hl, hpath⟩ := hloc p.version
  simp only [claim, hl, hpath, List.dropLast_concat, createDirectories_of_slash hres, createNew]
  rcases resolve?_below hres (isName_name p.version) (goesDown_name p.version) with hr | hr
  · rw [hr]
    exact .inl ⟨_, rfl⟩
  · rw [hr]
    simp only
    cases hf : fs.get? (place ++ [LogEntry.name p.version]) with
    | some m => exact .inr (.inl ⟨rfl, by simp [Log.found?, hf]⟩)
    | none => exact .inr (.inr ⟨rfl, hf⟩)

/-- An attempt to commit a proposal. -/
theorem commit_cases :
    (∃ e, (fs.commit p).1.result = .error e ∧ ∀ q, (fs.commit p).2.get? q = fs.get? q) ∨
    ((fs.commit p).1.result = .ok (.conflict p.version) ∧ (fs.commit p).2 = fs ∧
      Log.found? fs place p.version ≠ none) ∨
    ∃ as, (fs.commit p).1.result = .ok (.committed p.version) ∧
      Log.found? fs place p.version = none ∧
      p.actions.items = as.map .ok ∧
      Written fs (fs.commit p).2 (place ++ [LogEntry.name p.version]) (writeActions as) := by
  rcases claim_cases hp hlog with ⟨e, hc⟩ | ⟨hc, hf⟩ | ⟨hc, hf⟩
  · rw [commit, hc]
    exact .inl ⟨e, rfl, fun _ ↦ rfl⟩
  · rw [commit, hc]
    exact .inr (.inl ⟨rfl, rfl, hf⟩)
  · rcases commit_of_claim hc (by simp) hf with ⟨e, -, hr, hfs⟩ | ⟨hr, hresult, hw⟩
    · exact .inl ⟨e, hr, hfs⟩
    · exact .inr (.inr ⟨_, hresult, hf, Results.eq_ok_of_failure hr, hw⟩)

end Attempts

end FileSystem

theorem Action.canonical_of_keepsTable {a : Action} (h : a.keepsTable) : a.Canonical := by
  cases a with
  | protocol p => cases h
  | _ => trivial

namespace Transaction

variable {t : Transaction} {txnId : String} {fs : FileSystem} {place : Place} {v : Version}
  {adds written : List Add} {domains : List DomainMetadata} {mark : Option DomainMetadata}
  {as : List Action}

theorem Composed.keepsTable (h : t.Composed txnId v adds written domains mark as) :
    ∀ a ∈ as, a.keepsTable := by
  intro a ha
  simp only [h.actions, Action.files, List.mem_cons, List.mem_append, List.mem_map] at ha
  rcases ha with rfl | (⟨x, -, rfl⟩ | ⟨x, -, rfl⟩) | ⟨x, -, rfl⟩ | ⟨x, -, rfl⟩ <;> rfl

theorem Commits.keepsTable (h : t.Commits txnId as) : ∀ a ∈ as, a.keepsTable := by
  obtain ⟨v, adds, written, domains, mark, hc⟩ := h.composed
  exact hc.keepsTable

theorem Commits.readActions_write (h : t.Commits txnId as) :
    readActions (writeActions as) = as.map .ok :=
  TableLog.readActions_write fun a ha ↦ Action.canonical_of_keepsTable (h.keepsTable a ha)

theorem Composed.filterMap {β : Type} (h : t.Composed txnId v adds written domains mark as)
    {f : Action → Option β} (hf : ∀ c, f (.commitInfo c) = none) :
    as.filterMap f = written.filterMap (f ∘ .add) ++ (t.removed.filterMap (f ∘ .remove) ++
      (t.appVersions.filterMap (f ∘ .appVersion) ++
        (domains ++ mark.toList).filterMap (f ∘ .domainMetadata))) := by
  rw [h.actions, List.filterMap_cons_none (hf _), Action.files, List.filterMap_append,
    List.filterMap_append, List.filterMap_append, List.filterMap_map, List.filterMap_map,
    List.filterMap_map, List.filterMap_map, List.append_assoc]

theorem filterMap_none_comp {α β γ : Type} {g : α → β} {f : β → Option γ} (h : ∀ a, f (g a) = none)
    (l : List α) :
    l.filterMap (f ∘ g) = [] := List.filterMap_eq_nil_iff.2 fun a _ ↦ h a

theorem Composed.domainActions (h : t.Composed txnId v adds written domains mark as) :
    as.filterMap Action.domain? = domains ++ mark.toList := by
  rw [h.filterMap fun _ ↦ rfl, filterMap_none_comp fun _ ↦ rfl, filterMap_none_comp fun _ ↦ rfl,
    filterMap_none_comp fun _ ↦ rfl]
  exact List.filterMap_some

theorem Composed.writtenAdds (h : t.Composed txnId v adds written domains mark as) :
    as.filterMap Action.add? = written := by
  have hadds : written.filterMap (Action.add? ∘ Action.add) = written := List.filterMap_some
  rw [h.filterMap fun _ ↦ rfl, hadds, filterMap_none_comp fun _ ↦ rfl,
    filterMap_none_comp fun _ ↦ rfl, filterMap_none_comp fun _ ↦ rfl]
  exact List.append_nil _

/-- An attempt to commit a transaction to the table that it has read. -/
theorem commit_cases (hp : Log.place? fs t.snapshot.root = some place) (txnId : String) :
    (∃ e, (t.commit txnId fs).1.result = .error e ∧ ∀ q, (t.commit txnId fs).2.get? q = fs.get? q) ∨
    (∃ v, t.snapshot.version.next? = some v ∧ (t.commit txnId fs).1.result = .ok (.conflict v) ∧
      (t.commit txnId fs).2 = fs ∧ Log.found? fs place v ≠ none) ∨
    ∃ v as, t.snapshot.version.next? = some v ∧ (t.commit txnId fs).1.result = .ok (.committed v) ∧
      t.Commits txnId as ∧ Log.found? fs place v = none ∧
      FileSystem.Written fs (t.commit txnId fs).2 (place ++ [LogEntry.name v])
        (writeActions as) := by
  rw [commit]
  cases hpropose : (t.propose txnId).result with
  | error e => exact .inl ⟨e, rfl, fun _ ↦ rfl⟩
  | ok p =>
    obtain ⟨domains, w, mark, body, hprepare, -, -, hlog, -⟩ := propose_eq_ok hpropose
    have hnext := (prepare_eq_ok hprepare).1
    rcases FileSystem.commit_cases hp hlog with h | ⟨hr, hfs, hf⟩ | ⟨as, hr, hf, has, hw⟩
    · exact .inl h
    · exact .inr (.inl ⟨p.version, hnext, hr, hfs, hf⟩)
    · exact .inr (.inr ⟨p.version, as, hnext, hr, ⟨p, hpropose, has⟩, hf, hw⟩)

end Transaction

end TableLog
