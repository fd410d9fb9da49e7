import TableLog.Proofs.Growth

namespace TableLog

namespace FileSystem

variable {fs fs' ground : FileSystem} {place : Place}

/-- Nothing is different but that there may be new directories where nothing was. -/
def AddsDirectories (fs fs' : FileSystem) : Prop :=
  ∀ q, fs'.get? q = fs.get? q ∨ (fs.get? q = none ∧ fs'.get? q = some .directory)

theorem AddsDirectories.refl (fs : FileSystem) : AddsDirectories fs fs := fun _ ↦ .inl rfl

theorem AddsDirectories.trans {fs'' : FileSystem} (h : AddsDirectories fs fs')
    (h' : AddsDirectories fs' fs'') :
    AddsDirectories fs fs'' := by
  intro q
  rcases h' q with hsame' | ⟨hnone', hdirectory'⟩
  · rw [hsame']
    exact h q
  · rcases h q with hsame | ⟨-, hdirectory⟩
    · exact .inr ⟨hsame ▸ hnone', hdirectory'⟩
    · rw [hdirectory] at hnone'
      cases hnone'

theorem AddsDirectories.of_same (h : AddsDirectories fs ground)
    (hs : ∀ q, fs'.get? q = ground.get? q) :
    AddsDirectories fs fs' := by
  intro q
  rw [hs]
  exact h q

theorem AddsDirectories.file_iff (h : AddsDirectories fs fs') (q : Place) (bs : Bytes) :
    fs'.get? q = some (.file bs) ↔ fs.get? q = some (.file bs) := by
  rcases h q with hsame | ⟨hnone, hdirectory⟩
  · rw [hsame]
  · rw [hnone, hdirectory]
    exact ⟨nofun, nofun⟩

theorem AddsDirectories.directory (h : AddsDirectories fs fs') {q : Place}
    (hq : fs.get? q = some .directory) :
    fs'.get? q = some .directory := by
  rcases h q with hsame | ⟨hnone, -⟩
  · rw [hsame, hq]
  · rw [hq] at hnone
    cases hnone

theorem addsDirectories_set (h : fs.get? place = none) :
    AddsDirectories fs (fs.set place .directory) := by
  intro q
  rw [get?_set]
  by_cases hq : q = []
  · subst hq
    exact .inl rfl
  · rw [if_neg hq]
    by_cases hp : q = place
    · subst hp
      exact .inr ⟨h, if_pos rfl⟩
    · exact .inl (if_neg hp)

theorem addsDirectories_createDirectoriesFrom (fs : FileSystem) (p : Place) (path : FilePath) :
    AddsDirectories fs (fs.createDirectoriesFrom p path).2 := by
  induction path generalizing fs p with
  | nil => exact .refl fs
  | cons n path ih =>
    rw [createDirectoriesFrom]
    split
    · cases hq : fs.get? (step p n) with
      | none =>
        simp only [hq]
        exact (addsDirectories_set hq).trans (ih _ _)
      | some m =>
        cases m with
        | directory =>
          simp only [hq]
          exact ih _ _
        | file bs =>
          simp only [hq]
          exact .refl fs
    · exact .refl fs

theorem addsDirectories_createDirectories (fs : FileSystem) (path : FilePath) :
    AddsDirectories fs (fs.createDirectories path).2 := by
  rw [createDirectories]
  split
  · exact addsDirectories_createDirectoriesFrom fs [] path
  · exact .refl fs

/-- Claiming a version makes directories at most, and a file only where nothing was. -/
theorem claim_keeps (fs : FileSystem) (p : Proposal) :
    ∃ ground, AddsDirectories fs ground ∧
      ((∃ e, fs.claim p = (.error e, ground)) ∨ fs.claim p = (.ok none, ground) ∨
        ∃ place, place ≠ [] ∧ ground.get? place = none ∧
          fs.claim p = (.ok (some place), ground.set place (.file []))) := by
  rw [claim]
  cases Log.commitLocation p.log p.version with
  | error e => exact ⟨fs, .refl fs, .inl ⟨e, rfl⟩⟩
  | ok location =>
    cases hpath : location.filePath? with
    | none =>
      simp only [hpath]
      exact ⟨fs, .refl fs, .inl ⟨_, rfl⟩⟩
    | some path =>
      simp only [hpath]
      have hkeeps := addsDirectories_createDirectories fs path.dropLast
      rcases hmade : fs.createDirectories path.dropLast with ⟨made, ground⟩
      rw [hmade] at hkeeps
      refine ⟨ground, hkeeps, ?_⟩
      cases made with
      | error e => exact .inl ⟨e, rfl⟩
      | ok =>
        simp only [createNew]
        cases hplace : ground.resolve? path with
        | none => exact .inl ⟨_, rfl⟩
        | some place =>
          simp only
          cases hfound : ground.get? place with
          | some m => exact .inr (.inl rfl)
          | none =>
            refine .inr (.inr ⟨place, ?_, hfound, rfl⟩)
            intro hroot
            rw [hroot, get?_nil] at hfound
            cases hfound

/-- However much was written into a claimed file, removing it gives
back what was there when it was claimed. -/
theorem get?_unset_claimed (hp : place ≠ []) (hf : ground.get? place = none) (bs : Bytes)
    (q : Place) :
    (((ground.set place (.file [])).append place bs).unset place).get? q = ground.get? q :=
  ((written_set hp []).append hp bs).get?_unset hp hf q

theorem claimed_of_claim {p : Proposal} (hc : fs.claim p = (.ok (some place), fs')) :
    ∃ ground, AddsDirectories fs ground ∧ place ≠ [] ∧ ground.get? place = none ∧
      fs' = ground.set place (.file []) := by
  obtain ⟨ground, hkeeps, ⟨e, he⟩ | hnone | ⟨place', hp, hf, hclaim⟩⟩ := claim_keeps fs p
  · rw [hc] at he
    cases he
  · rw [hc] at hnone
    cases hnone
  · rw [hc] at hclaim
    obtain ⟨hplace, rfl⟩ := Prod.mk.inj hclaim
    obtain rfl := Option.some.inj (Except.ok.inj hplace)
    exact ⟨ground, hkeeps, hp, hf, rfl⟩

theorem abandon_keeps {p : Proposal} (hc : fs.claim p = (.ok (some place), fs')) (bs : Bytes) :
    AddsDirectories fs ((fs'.append place bs).unset place) := by
  obtain ⟨ground, hkeeps, hp, hf, rfl⟩ := claimed_of_claim hc
  exact hkeeps.of_same (get?_unset_claimed hp hf bs)

theorem commit_keeps (fs : FileSystem) (p : Proposal) :
    (fs.commit p).1.result = .ok (.committed p.version) ∨ AddsDirectories fs (fs.commit p).2 := by
  obtain ⟨ground, hkeeps, ⟨e, hc⟩ | hc | ⟨place, hp, hf, hc⟩⟩ := claim_keeps fs p
  · rw [commit, hc]
    exact .inr hkeeps
  · rw [commit, hc]
    exact .inr hkeeps
  · rcases commit_of_claim hc hp hf with ⟨e, -, -, hsame⟩ | ⟨-, hresult, -⟩
    · exact .inr (hkeeps.of_same hsame)
    · exact .inl hresult

end FileSystem

namespace Transaction

open FileSystem (AddsDirectories)

variable {t : Transaction} {txnId : String} {fs : FileSystem}

theorem commit_keeps (h : ∀ v, (t.commit txnId fs).1.result ≠ .ok (.committed v)) :
    AddsDirectories fs (t.commit txnId fs).2 := by
  rw [commit] at h ⊢
  cases hpropose : (t.propose txnId).result with
  | error e => exact .refl fs
  | ok p =>
    simp only [hpropose] at h
    exact (fs.commit_keeps p).resolve_left (h p.version)

/-- What is not committed leaves no trace: all files are there with the same bytes, and no
other, whatever the sources yield. Where the log's directory was there, no directory is new
either. The writing can be given up anywhere. -/
theorem failed_commit_keeps_files (h : ∀ v, (t.commit txnId fs).1.result ≠ .ok (.committed v)) :
    (∀ q bs, (t.commit txnId fs).2.get? q = some (.file bs) ↔ fs.get? q = some (.file bs)) ∧
      (∀ q, fs.get? q = some .directory → (t.commit txnId fs).2.get? q = some .directory) ∧
      (∀ log, Log.place? fs t.snapshot.root = some log →
        ∀ q, (t.commit txnId fs).2.get? q = fs.get? q) ∧
      ∀ p place claimed, fs.claim p = (.ok (some place), claimed) → ∀ written q bs,
        ((claimed.append place written).unset place).get? q = some (.file bs) ↔
        fs.get? q = some (.file bs) := by
  have hkeeps := commit_keeps h
  refine ⟨hkeeps.file_iff, fun q hq ↦ hkeeps.directory hq, ?_, ?_⟩
  · intro log hlog q
    rcases commit_cases hlog txnId with ⟨e, -, hsame⟩ | ⟨v, -, -, hsame, -⟩ | ⟨v, as, -, hresult, -⟩
    · exact hsame q
    · rw [hsame]
    · exact absurd hresult (h v)
  · intro p place claimed hclaim written
    exact (FileSystem.abandon_keeps hclaim written).file_iff

def reachesFile (t : Transaction) (txnId : String) (fs : FileSystem) : Bool :=
  match (t.propose txnId).result with
  | .error _ => false
  | .ok p =>
    match (fs.claim p).1 with
    | .ok (some _) => true
    | _ => false

theorem exists_claim (h : t.reachesFile txnId fs) :
    ∃ p place claimed, (t.propose txnId).result = .ok p ∧
      fs.claim p = (.ok (some place), claimed) := by
  rw [reachesFile] at h
  split at h
  · cases h
  · rename_i p hp
    split at h
    · rename_i place hplace
      exact ⟨p, place, (fs.claim p).2, hp, Prod.ext hplace rfl⟩
    · cases h

/-- A source that is whole when it is asked first and breaks off when it is asked again. -/
def brittle : Source := .turns fun turn ↦
  .ok (.ok (.add (Sample.file "f" 5)) :: if turn = 0 then [] else [.error .fileSystem])

theorem failed_commit_keeps_files_brittle :
    let t : Transaction := { snapshot := Sample.snapshot, timestamp := 7, added := [brittle] }
    (t.commit "id" Sample.fs).1.result = .error .fileSystem ∧
      (∀ q bs, (t.commit "id" Sample.fs).2.get? q = some (.file bs) ↔
        Sample.fs.get? q = some (.file bs)) ∧
      (∀ q, (t.commit "id" Sample.fs).2.get? q = Sample.fs.get? q) ∧
      ∃ p place claimed, Sample.fs.claim p = (.ok (some place), claimed) ∧ ∀ q bs,
        ((claimed.append place [0x7B]).unset place).get? q = some (.file bs) ↔
        Sample.fs.get? q = some (.file bs) := by
  intro t
  have hfails : (t.commit "id" Sample.fs).1.result = .error .fileSystem := by decide +kernel
  have huncommitted : ∀ v, (t.commit "id" Sample.fs).1.result ≠ .ok (.committed v) := by
    intro v hv
    rw [hfails] at hv
    cases hv
  have hreaches : t.reachesFile "id" Sample.fs := by decide +kernel
  obtain ⟨p, place, claimed, -, hclaim⟩ := exists_claim hreaches
  obtain ⟨hfiles, -, hsame, habandon⟩ := failed_commit_keeps_files huncommitted
  exact ⟨hfails, hfiles, hsame _ Sample.place, p, place, claimed, hclaim,
    habandon p place claimed hclaim [0x7B]⟩

end Transaction

end TableLog
