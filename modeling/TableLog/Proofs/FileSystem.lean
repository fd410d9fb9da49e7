import TableLog.FileSystem

namespace TableLog.FileSystem

variable {fs fs' : FileSystem} {p q : Place} {path : FilePath}

@[simp] theorem get?_nil (fs : FileSystem) : fs.get? [] = some .directory := rfl

def SameDirectories (fs fs' : FileSystem) : Prop :=
  ∀ p, fs.get? p = some .directory ↔ fs'.get? p = some .directory

theorem SameDirectories.refl (fs : FileSystem) : SameDirectories fs fs := fun _ ↦ Iff.rfl

theorem SameDirectories.symm (h : SameDirectories fs fs') : SameDirectories fs' fs :=
  fun p ↦ (h p).symm

theorem SameDirectories.trans {fs'' : FileSystem} (h : SameDirectories fs fs')
    (h' : SameDirectories fs' fs'') :
    SameDirectories fs fs'' := fun p ↦ (h p).trans (h' p)

theorem resolveFrom?_congr (h : SameDirectories fs fs') (p : Place) (path : FilePath) :
    fs.resolveFrom? p path = fs'.resolveFrom? p path := by
  induction path generalizing p with
  | nil => rfl
  | cons n path ih => simp only [resolveFrom?, ih, h p]

theorem resolve?_congr (h : SameDirectories fs fs') (path : FilePath) :
    fs.resolve? path = fs'.resolve? path := by
  rw [resolve?, resolve?, resolveFrom?_congr h]

theorem resolveFrom?_append (fs : FileSystem) (p : Place) (path more : FilePath) :
    fs.resolveFrom? p (path ++ more) = (fs.resolveFrom? p path).bind (fs.resolveFrom? · more) := by
  induction path generalizing p with
  | nil => rfl
  | cons n path ih =>
    simp only [List.cons_append, resolveFrom?, ih]
    split <;> rfl

theorem directory_of_resolveFrom? (h : fs.resolveFrom? p path = some q)
    (hq : fs.get? q = some .directory) :
    fs.get? p = some .directory := by
  cases path with
  | nil => rwa [Option.some.inj h]
  | cons n path =>
    simp only [resolveFrom?] at h
    split at h
    · rename_i hp
      exact of_decide_eq_true (Bool.and_eq_true_iff.1 hp).1
    · cases h

theorem createDirectoriesFrom_of_resolveFrom? (h : fs.resolveFrom? p path = some q)
    (hq : fs.get? q = some .directory) : fs.createDirectoriesFrom p path = (.ok (), fs) := by
  induction path generalizing p with
  | nil => rfl
  | cons n path ih =>
    simp only [resolveFrom?] at h
    split at h
    · rename_i hp
      rw [createDirectoriesFrom, if_pos (Bool.and_eq_true_iff.1 hp).2]
      simp only [directory_of_resolveFrom? h hq]
      exact ih h
    · cases h

theorem isPath_append {more : FilePath} (h : isPath (path ++ more)) : isPath path := by
  have hl : path.textLength ≤ FilePath.textLength (path ++ more) := by
    clear h
    induction path with
    | nil => exact Nat.zero_le _
    | cons n path ih =>
      simp only [List.cons_append, FilePath.textLength]
      omega
  simp only [isPath, List.all_append, Bool.and_eq_true, decide_eq_true_eq] at h ⊢
  exact ⟨h.1.1, by omega⟩

theorem resolve?_slash (h : fs.resolve? (path ++ [[]]) = some p) :
    isPath path ∧ fs.resolveFrom? [] path = some p ∧ fs.get? p = some .directory := by
  rw [resolve?] at h
  split at h
  · rename_i hpath
    rw [resolveFrom?_append] at h
    obtain ⟨q, hq, hp⟩ := Option.bind_eq_some_iff.1 h
    simp only [resolveFrom?, step, true_or, if_true] at hp
    split at hp
    · rename_i hd
      obtain rfl := Option.some.inj hp
      exact ⟨isPath_append hpath, hq, of_decide_eq_true (Bool.and_eq_true_iff.1 hd).1⟩
    · cases hp
  · cases h

theorem createDirectories_of_slash (h : fs.resolve? (path ++ [[]]) = some p) :
    fs.createDirectories path = (.ok (), fs) := by
  obtain ⟨hpath, hr, hp⟩ := resolve?_slash h
  rw [createDirectories, if_pos hpath, createDirectoriesFrom_of_resolveFrom? hr hp]

def goesDown (n : Bytes) : Bool := n ≠ [] && n ≠ [0x2E] && n ≠ [0x2E, 0x2E]

/-- A path may be too long, though the way to the directory is not. -/
theorem resolve?_below (h : fs.resolve? (path ++ [[]]) = some p) {n : Bytes} (hn : isName n)
    (hd : goesDown n) :
    fs.resolve? (path ++ [n]) = none ∨ fs.resolve? (path ++ [n]) = some (p ++ [n]) := by
  obtain ⟨-, hr, hp⟩ := resolve?_slash h
  simp only [goesDown, Bool.and_eq_true, decide_eq_true_eq] at hd
  rw [resolve?]
  split
  · rw [resolveFrom?_append, hr]
    simp [resolveFrom?, hp, hn, step, hd]
  · exact .inl rfl

theorem childName?_eq_some_iff {n : Bytes} : childName? q p = some n ↔ p = q ++ [n] := by
  unfold childName?
  constructor
  · intro h
    split at h
    · rename_i m hm
      split at h
      · rename_i hq
        obtain ⟨r, rfl⟩ := List.getLast?_eq_some_iff.1 hm
        rw [← Option.some.inj h, ← hq, List.dropLast_concat]
      · cases h
    · cases h
  · intro he
    subst he
    simp

theorem get?_eq_some_iff {n : Node} (hp : p ≠ []) : fs.get? p = some n ↔ (p, n) ∈ fs.entries := by
  obtain ⟨es, hes⟩ := fs
  simp only [get?, if_neg hp]
  induction es with
  | nil => simp
  | cons e es ih =>
    obtain ⟨he, hr⟩ := List.nodup_cons.1 hes
    obtain ⟨r, m⟩ := e
    rw [List.lookup_cons]
    by_cases h : p = r
    · subst h
      simp only [BEq.rfl, Option.some.injEq, List.mem_cons, Prod.mk.injEq, true_and]
      refine ⟨fun hm ↦ .inl hm.symm, fun hm ↦ ?_⟩
      rcases hm with hm | hm
      · exact hm.symm
      · exact absurd (List.mem_map_of_mem hm) he
    · have hb : (p == r) = false := beq_eq_false_iff_ne.2 h
      simp only [hb, List.mem_cons, Prod.mk.injEq, h, false_and, false_or]
      exact ih hr

variable {es : List (Bytes × Node)}

theorem list_eq_ok (h : fs.list path = .ok es) :
    ∃ p, fs.resolve? path = some p ∧ fs.get? p = some .directory ∧
      es = (fs.entries.filterMap fun e ↦ (childName? p e.1).map fun n ↦ (n, e.2)).mergeSort
        (·.1 ≤ ·.1) := by
  rw [list] at h
  split at h
  · cases h
  · rename_i p hp
    split at h
    · rename_i hd
      exact ⟨p, hp, hd, (Except.ok.inj h).symm⟩
    · cases h

theorem list_isOk (h : fs.resolve? path = some p) (hd : fs.get? p = some .directory) :
    ∃ es, fs.list path = .ok es := by
  simp only [list, h, hd, if_true]
  exact ⟨_, rfl⟩

theorem mem_list (h : fs.list path = .ok es) (hp : fs.resolve? path = some p)
    {n : Bytes} {m : Node} :
    (n, m) ∈ es ↔ fs.get? (p ++ [n]) = some m := by
  obtain ⟨q, hq, -, rfl⟩ := list_eq_ok h
  obtain rfl := Option.some.inj (hp.symm.trans hq)
  rw [List.mem_mergeSort, List.mem_filterMap, get?_eq_some_iff (by simp)]
  constructor
  · intro he
    obtain ⟨⟨r, m'⟩, he, hc⟩ := he
    obtain ⟨n', hn', hnm⟩ := Option.map_eq_some_iff.1 hc
    obtain ⟨rfl, rfl⟩ := Prod.mk.inj hnm
    rwa [← childName?_eq_some_iff.1 hn']
  · intro he
    exact ⟨_, he, by rw [childName?_eq_some_iff.2 rfl]; rfl⟩

theorem list_nodup (h : fs.list path = .ok es) : (es.map (·.1)).Nodup := by
  obtain ⟨p, -, -, rfl⟩ := list_eq_ok h
  refine ((List.mergeSort_perm _ _).map _).nodup_iff.2
    (List.pairwise_map.2 (List.pairwise_filterMap.2 ?_))
  refine (List.pairwise_map.1 fs.distinct).imp fun {e f} hne x hx y hy hxy ↦ hne ?_
  obtain ⟨n, hn, rfl⟩ := Option.map_eq_some_iff.1 hx
  obtain ⟨m, hm, rfl⟩ := Option.map_eq_some_iff.1 hy
  rw [childName?_eq_some_iff.1 hn, childName?_eq_some_iff.1 hm]
  exact congrArg (p ++ [·]) hxy

end TableLog.FileSystem
