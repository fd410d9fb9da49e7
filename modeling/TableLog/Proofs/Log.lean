import TableLog.Log
import TableLog.Proofs.CommitPath
import TableLog.Proofs.FileSystem
import TableLog.Proofs.Snapshot
import TableLog.Proofs.Traversal

namespace TableLog

namespace Log

def place? (fs : FileSystem) (root : Location) : Option Place :=
  match directory root with
  | .error _ => none
  | .ok log => log.filePath?.bind fs.resolve?

def found? (fs : FileSystem) (dir : Place) (v : Version) : Option Node :=
  fs.get? (dir ++ [LogEntry.name v])

def commitItems (fs : FileSystem) (dir : Place) (v : Version) : List (Outcome Action) :=
  ((Source.file (found? fs dir v)).traverse 0).inline.items

def items (fs : FileSystem) (dir : Place) (v : Version) : List (Outcome Action) :=
  (List.range (v.toNat + 1)).flatMap fun n ↦ commitItems fs dir (UInt64.ofNat n)

/-- The version is what a load asks for, and the commits up to it are there. -/
structure Reaches (fs : FileSystem) (dir : Place) (requested : Option Version)
    (v : Version) : Prop where
  wellNamed : ∀ n m, fs.get? (dir ++ [n]) = some m → LogEntry.ofName n ≠ .malformed
  present : ∀ u ≤ v, found? fs dir u ≠ none
  asked : ∀ r, requested = some r → r = v
  last : requested = none → ∀ u, v < u → found? fs dir u = none

/-- The log consists of the commits up to a version. -/
structure Holds (fs : FileSystem) (dir : Place) (n : Version) : Prop where
  directory : fs.get? dir = some .directory
  present : ∀ v ≤ n, ∃ bs, found? fs dir v = some (.file bs)
  absent : ∀ v, n < v → found? fs dir v = none

theorem commitItems_file {fs : FileSystem} {dir : Place} {v : Version} {bs : Bytes}
    (h : found? fs dir v = some (.file bs)) : commitItems fs dir v = readActions bs := by
  rw [commitItems, h, Source.traverse, Source.openFile, Opening.items_inline]
  exact Trace.items_ofItems _

theorem commitItems_congr {fs fs' : FileSystem} {dir : Place} {v : Version}
    (h : found? fs dir v = found? fs' dir v) :
    commitItems fs dir v = commitItems fs' dir v := by rw [commitItems, h, commitItems]

theorem items_eq_flatMap {f : Version → List (Outcome Action)} {fs : FileSystem} {dir : Place}
    {v : Version} (h : ∀ u ≤ v, commitItems fs dir u = f u) :
    items fs dir v = (List.range (v.toNat + 1)).flatMap fun n ↦ f (UInt64.ofNat n) := by
  rw [items, List.flatMap_def, List.flatMap_def]
  refine congrArg List.flatten (List.map_congr_left fun n hn ↦ h _ ?_)
  have hle : n ≤ v.toNat := Nat.le_of_lt_succ (List.mem_range.1 hn)
  rwa [UInt64.le_iff_toNat_le, UInt64.toNat_ofNat_of_lt' (Nat.lt_of_le_of_lt hle v.toNat_lt)]

theorem items_congr {fs fs' : FileSystem} {dir : Place} {v : Version}
    (h : ∀ u ≤ v, found? fs dir u = found? fs' dir u) : items fs dir v = items fs' dir v :=
  items_eq_flatMap fun u hu ↦ commitItems_congr (h u hu)

theorem items_next (fs : FileSystem) (dir : Place) {v w : Version} (h : v.next? = some w) :
    items fs dir w = items fs dir v ++ commitItems fs dir w := by
  have hw := Version.next?_eq_some_iff.1 h
  rw [items, items, List.range_succ, List.flatMap_append, List.flatMap_singleton,
    UInt64.ofNat_toNat, hw]

def commit? (dir : FilePath) (upTo : Option Version) (e : Bytes × Node) : Option CommitFile :=
  match LogEntry.ofName e.1 with
  | .commit version =>
    if upTo.all (version ≤ ·) then
      some { version, location := .ofFilePath (dir ++ [e.1]), found := e.2 }
    else none
  | _ => none

variable {dir : FilePath} {upTo : Option Version} {es : List (Bytes × Node)} {cs : List CommitFile}

theorem commits_eq_ok_iff :
    commits dir upTo es = .ok cs ↔
      (∀ e ∈ es, LogEntry.ofName e.1 ≠ .malformed) ∧ cs = es.filterMap (commit? dir upTo) := by
  induction es generalizing cs with
  | nil => simp [commits, eq_comm]
  | cons e es ih =>
    obtain ⟨n, m⟩ := e
    rw [commits, List.forall_mem_cons, List.filterMap_cons]
    cases hn : LogEntry.ofName n with
    | malformed => simp
    | other => simpa [hn, commit?] using ih
    | commit v =>
      simp only [hn, commit?]
      split
      · cases hr : commits dir upTo es with
        | error e =>
          rw [hr] at ih
          simp only [reduceCtorEq, false_iff] at ih
          refine iff_of_false (by simp [Except.map]) fun h ↦ ?_
          exact @ih (es.filterMap (commit? dir upTo)) ⟨h.1.2, rfl⟩
        | ok ds =>
          obtain ⟨hw, rfl⟩ := ih.1 hr
          have hcommit : LogEntry.commit v ≠ .malformed := by simp
          simp only [Except.map, Except.ok.injEq]
          exact ⟨fun h ↦ ⟨⟨hcommit, hw⟩, h.symm⟩, fun h ↦ h.2.symm⟩
      · simpa using ih

theorem commit?_eq_some_iff {e : Bytes × Node} {c : CommitFile} :
    commit? dir upTo e = some c ↔
      e = (LogEntry.name c.version, c.found) ∧ upTo.all (c.version ≤ ·) ∧
        c.location = .ofFilePath (dir ++ [LogEntry.name c.version]) := by
  obtain ⟨n, m⟩ := e
  obtain ⟨v, location, found⟩ := c
  unfold commit?
  constructor
  · intro h
    split at h
    · rename_i w hw
      split at h
      · rename_i hall
        simp only [Option.some.injEq, CommitFile.mk.injEq] at h
        obtain ⟨rfl, rfl, rfl⟩ := h
        obtain rfl := (LogEntry.ofName_eq_commit_iff _).1 hw
        exact ⟨rfl, hall, rfl⟩
      · cases h
    · cases h
  · intro he
    obtain ⟨he, hall, hl⟩ := he
    obtain ⟨rfl, rfl⟩ := Prod.mk.inj he
    simp only at hall hl
    simp only [LogEntry.ofName_name, if_pos hall, hl]

def sorted (dir : FilePath) (upTo : Option Version) (es : List (Bytes × Node)) : List CommitFile :=
  (es.filterMap (commit? dir upTo)).mergeSort (·.version ≤ ·.version)

theorem mem_sorted {c : CommitFile} :
    c ∈ sorted dir upTo es ↔ (LogEntry.name c.version, c.found) ∈ es ∧ upTo.all (c.version ≤ ·) ∧
      c.location = .ofFilePath (dir ++ [LogEntry.name c.version]) := by
  rw [sorted, List.mem_mergeSort, List.mem_filterMap]
  constructor
  · intro he
    obtain ⟨e, he, hc⟩ := he
    obtain ⟨rfl, hall, hloc⟩ := commit?_eq_some_iff.1 hc
    exact ⟨he, hall, hloc⟩
  · intro he
    obtain ⟨he, hall, hloc⟩ := he
    exact ⟨_, he, commit?_eq_some_iff.2 ⟨rfl, hall, hloc⟩⟩

theorem sorted_pairwise (hn : (es.map (·.1)).Nodup) :
    (sorted dir upTo es).Pairwise (·.version < ·.version) := by
  have hdistinct : (es.filterMap (commit? dir upTo)).Pairwise (·.version ≠ ·.version) := by
    refine List.pairwise_filterMap.2 ((List.pairwise_map.1 hn).imp ?_)
    intro e f hne c hc d hd hcd
    obtain ⟨rfl, -⟩ := commit?_eq_some_iff.1 hc
    obtain ⟨rfl, -⟩ := commit?_eq_some_iff.1 hd
    exact hne (congrArg LogEntry.name hcd)
  have hne : (sorted dir upTo es).Pairwise (·.version ≠ ·.version) :=
    (List.mergeSort_perm _ _).symm.pairwise hdistinct Ne.symm
  have hle : (sorted dir upTo es).Pairwise fun a b ↦ decide (a.version ≤ b.version) := by
    refine List.pairwise_mergeSort ?_ ?_ _
    · intro a b c hab hbc
      simp only [decide_eq_true_eq] at hab hbc ⊢
      exact UInt64.le_trans hab hbc
    · intro a b
      simpa using UInt64.le_total a.version b.version
  exact hle.imp₂ (fun a b h hne ↦ UInt64.lt_of_le_of_ne (of_decide_eq_true h) hne) hne

theorem checkContiguous_eq_ok_iff {n : Nat} :
    checkContiguous n cs = .ok () ↔ cs.map (·.version.toNat) = List.range' n cs.length := by
  induction cs generalizing n with
  | nil => simp [checkContiguous]
  | cons c cs ih =>
    rw [checkContiguous, List.map_cons, List.length_cons, List.range'_succ, List.cons.injEq]
    split
    · rename_i hc
      simp [hc, ih]
    · rename_i hc
      simp [hc]

theorem select_eq_ok_iff :
    select dir upTo es = .ok cs ↔
      (∀ e ∈ es, LogEntry.ofName e.1 ≠ .malformed) ∧
        cs = sorted dir upTo es ∧ cs.map (·.version.toNat) = List.range cs.length := by
  rw [List.range_eq_range', ← checkContiguous_eq_ok_iff]
  simp only [select, Outcome.bind_eq_ok_iff, commits_eq_ok_iff]
  constructor
  · intro he
    obtain ⟨_, ⟨hw, rfl⟩, _, hc, hp⟩ := he
    obtain rfl := Except.ok.inj hp
    exact ⟨hw, rfl, hc⟩
  · intro he
    obtain ⟨hw, rfl, hc⟩ := he
    exact ⟨_, ⟨hw, rfl⟩, (), hc, rfl⟩

theorem items_source (cs : List CommitFile) :
    ((source cs).traverse 0).all.items = cs.flatMap fun c ↦
      ((Source.file (some c.found)).traverse 0).inline.items := by
  rw [source, Source.traverse, Opening.all, Trace.items_append, Source.items_traverseEach,
    List.flatMap_map]
  rfl

variable {fs : FileSystem} {place : Place}

theorem items_eq_of_found (hn : cs.map (·.version.toNat) = List.range cs.length)
    (hf : ∀ c ∈ cs, found? fs place c.version = some c.found) :
    ((source cs).traverse 0).all.items =
      (List.range cs.length).flatMap fun n ↦ commitItems fs place (UInt64.ofNat n) := by
  rw [items_source, ← hn, List.flatMap_map]
  have hc : cs.map (fun c ↦ ((Source.file (some c.found)).traverse 0).inline.items) =
      cs.map fun c ↦ commitItems fs place (UInt64.ofNat c.version.toNat) := by
    refine List.map_congr_left fun c hc ↦ ?_
    rw [UInt64.ofNat_toNat, commitItems, hf c hc]
  rw [List.flatMap_def, hc]
  rfl

def Lists (fs : FileSystem) (place : Place) (es : List (Bytes × Node)) : Prop :=
  (es.map (·.1)).Nodup ∧ ∀ n m, (n, m) ∈ es ↔ fs.get? (place ++ [n]) = some m

theorem mem_select (hl : Lists fs place es) (h : select dir upTo es = .ok cs) {c : CommitFile} :
    c ∈ cs ↔ found? fs place c.version = some c.found ∧ upTo.all (c.version ≤ ·) ∧
      c.location = .ofFilePath (dir ++ [LogEntry.name c.version]) := by
  obtain ⟨-, rfl, -⟩ := select_eq_ok_iff.1 h
  rw [mem_sorted, hl.2, found?]

theorem mem_of_select (h : cs.map (·.version.toNat) = List.range cs.length) {n : Nat} :
    n < cs.length ↔ ∃ c ∈ cs, c.version.toNat = n := by
  rw [← List.mem_range, ← h, List.mem_map]

theorem Reaches.of_select (hl : Lists fs place es) (h : select dir upTo es = .ok cs)
    {latest : CommitFile} (hlast : cs.getLast? = some latest) (hv : upTo.all (· = latest.version)) :
    Reaches fs place upTo latest.version ∧ cs.length = latest.version.toNat + 1 := by
  obtain ⟨hw, -, hn⟩ := select_eq_ok_iff.1 h
  have hlen : cs.length = latest.version.toNat + 1 := by
    have hr : (cs.map (·.version.toNat)).getLast? = some latest.version.toNat := by
      rw [List.getLast?_map, hlast]; rfl
    rw [hn, List.getLast?_range] at hr
    split at hr
    · cases hr
    · have := Option.some.inj hr
      omega
  refine ⟨⟨fun n m hm ↦ hw _ ((hl.2 n m).2 hm), fun u hu ↦ ?_, fun r hr ↦ ?_, fun hnone u hu ↦ ?_⟩,
    hlen⟩
  · obtain ⟨c, hc, hcu⟩ :=
      (mem_of_select hn).1 (show u.toNat < cs.length by rw [hlen]; exact Nat.lt_succ_of_le hu)
    rw [← UInt64.toNat_inj.1 hcu, ((mem_select hl h).1 hc).1]
    exact Option.some_ne_none _
  · subst hr
    exact of_decide_eq_true hv
  · cases hf : found? fs place u with
    | none => rfl
    | some m =>
      have hc : ⟨u, .ofFilePath (dir ++ [LogEntry.name u]), m⟩ ∈ cs :=
        (mem_select hl h).2 ⟨hf, by simp [hnone], rfl⟩
      have hlt' : u.toNat < cs.length := (mem_of_select hn).2 ⟨_, hc, rfl⟩
      have hlt : latest.version.toNat < u.toNat := hu
      omega

theorem Reaches.select_isOk (dir : FilePath) (hl : Lists fs place es) {v : Version}
    (h : Reaches fs place upTo v) :
    ∃ cs, select dir upTo es = .ok cs ∧ cs.length = v.toNat + 1 := by
  have hmem : ∀ n, n ∈ (sorted dir upTo es).map (·.version.toNat) ↔
      n ∈ List.range (v.toNat + 1) := by
    intro n
    rw [List.mem_map, List.mem_range, Nat.lt_succ_iff]
    constructor
    · intro he
      obtain ⟨c, hc, rfl⟩ := he
      obtain ⟨hf, hall, -⟩ := mem_sorted.1 hc
      cases hu : upTo with
      | some r =>
        rw [hu] at hall
        obtain rfl := h.asked r hu
        exact of_decide_eq_true hall
      | none =>
        refine Nat.le_of_not_lt fun hlt ↦ ?_
        have hnone := h.last hu _ hlt
        rw [found?, (hl.2 _ _).1 hf] at hnone
        cases hnone
    · intro hn
      have hu : (UInt64.ofNat n).toNat = n :=
        UInt64.toNat_ofNat_of_lt' (Nat.lt_of_le_of_lt hn v.toNat_lt)
      have hle : UInt64.ofNat n ≤ v := by rwa [UInt64.le_iff_toNat_le, hu]
      obtain ⟨m, hm⟩ := Option.ne_none_iff_exists'.1 (h.present _ hle)
      refine ⟨⟨UInt64.ofNat n, .ofFilePath (dir ++ [LogEntry.name (UInt64.ofNat n)]), m⟩,
        mem_sorted.2 ⟨(hl.2 _ _).2 hm, ?_, rfl⟩, hu⟩
      cases hr : upTo with
      | none => rfl
      | some r => simpa [h.asked r hr] using hle
  have hincreasing : ((sorted dir upTo es).map (·.version.toNat)).Pairwise (· < ·) :=
    List.pairwise_map.2 ((sorted_pairwise hl.1).imp UInt64.lt_iff_toNat_lt.1)
  have hversions : (sorted dir upTo es).map (·.version.toNat) = List.range (v.toNat + 1) :=
    hincreasing.eq_of_mem_iff List.pairwise_lt_range hmem
  have hlen : (sorted dir upTo es).length = v.toNat + 1 := by
    rw [← List.length_map (·.version.toNat), hversions, List.length_range]
  refine ⟨_, select_eq_ok_iff.2 ⟨fun e he ↦ h.wellNamed e.1 e.2 ((hl.2 _ _).1 he), rfl, ?_⟩, hlen⟩
  rw [hlen]
  exact hversions

theorem getLast?_of_select (h : cs.map (·.version.toNat) = List.range cs.length) {v : Version}
    (hlen : cs.length = v.toNat + 1) :
    ∃ latest, cs.getLast? = some latest ∧ latest.version = v := by
  have hr : (cs.map (·.version.toNat)).getLast? = some v.toNat := by
    rw [h, List.getLast?_range, if_neg (by omega), hlen]
    rfl
  rw [List.getLast?_map] at hr
  obtain ⟨latest, hl, hv⟩ := Option.map_eq_some_iff.1 hr
  exact ⟨latest, hl, UInt64.toNat_inj.1 hv⟩

theorem lists_of_list (h : fs.list dir = .ok es) (hp : fs.resolve? dir = some place) :
    Lists fs place es :=
  ⟨FileSystem.list_nodup h, fun _ _ ↦ FileSystem.mem_list h hp⟩

theorem place?_eq_some {root : Location} (h : place? fs root = some place) :
    ∃ log path, directory root = .ok log ∧ log.filePath? = some (path ++ [[]]) ∧
      fs.resolve? (path ++ [[]]) = some place ∧
      ∀ v, ∃ l, commitLocation log v = .ok l ∧ l.filePath? = some (path ++ [LogEntry.name v]) := by
  rw [place?] at h
  split at h
  · cases h
  · rename_i log hlog
    obtain ⟨dir, hdir, hp⟩ := Option.bind_eq_some_iff.1 h
    cases hr : root.path with
    | opaquePath t => simp [directory, Location.inDirectory?, hr] at hlog
    | segments ns =>
      have hsegments : log.path = .segments (root.directoryNames ns ++ ["_delta_log"] ++ [""]) := by
        simp only [directory, Location.inDirectory?, hr] at hlog
        rw [← Except.ok.inj hlog]
        simp
      generalize root.directoryNames ns ++ ["_delta_log"] = front at hsegments
      have hnames : log.directoryNames (front ++ [""]) = front := by simp [Location.directoryNames]
      rw [Location.filePath?, hsegments] at hdir
      simp only at hdir
      split at hdir
      · rename_i hlocal
        obtain rfl := Option.some.inj hdir
        rw [List.flatMap_append] at hp
        refine ⟨log, _, hlog, ?_, hp, fun v ↦ ?_⟩
        · rw [Location.filePath?, hsegments]
          simp only [if_pos hlocal, List.flatMap_append]
          rfl
        · refine ⟨{ log with
            path := .segments (front ++ [LogEntry.nameText v]), query := none, fragment :=
            none }, ?_, ?_⟩
          · rw [commitLocation_eq, Location.inDirectory?, hsegments]
            simp only [hnames]
          · have hl : log.isLocal = true := (Bool.and_eq_true_iff.1 hlocal).1
            rw [Location.filePath?]
            simp only
            rw [if_pos (by simpa [Location.isLocal] using hl), List.flatMap_append,
              List.flatMap_singleton, FilePath.ofBytes_nameText]
      · cases hdir

theorem place?_congr {fs' : FileSystem} (h : FileSystem.SameDirectories fs fs') (root : Location) :
    place? fs root = place? fs' root := by
  unfold place?
  split
  · rfl
  · rename_i log _
    cases log.filePath? with
    | none => rfl
    | some path => exact FileSystem.resolve?_congr h path

end Log

namespace Snapshot

variable {fs : FileSystem} {root log : Location} {dir : FilePath} {requested : Option Version}
  {s : Snapshot} {es : List (Bytes × Node)} {place : Place}

theorem build_eq_ok_iff (hl : Log.Lists fs place es) :
    build root log dir requested es = .ok s ↔
      Log.Reaches fs place requested s.version ∧
      replay root s.version (Log.items fs place s.version) = .ok s := by
  rw [build, Outcome.bind_eq_ok_iff]
  constructor
  · intro he
    obtain ⟨cs, hcs, h⟩ := he
    split at h
    · cases h
    · rename_i latest hlast
      split at h
      · rename_i hall
        obtain ⟨hr, hlen⟩ := Log.Reaches.of_select hl hcs hlast hall
        rw [Log.items_eq_of_found (Log.select_eq_ok_iff.1 hcs).2.2 fun c hc ↦
          ((Log.mem_select hl hcs).1 hc).1, hlen] at h
        rw [(replay_version h).2]
        exact ⟨hr, h⟩
      · cases h
  · intro he
    obtain ⟨hr, h⟩ := he
    obtain ⟨cs, hcs, hlen⟩ := hr.select_isOk dir hl
    obtain ⟨latest, hlast, hv⟩ := Log.getLast?_of_select (Log.select_eq_ok_iff.1 hcs).2.2 hlen
    have hall : requested.all (· = s.version) := by
      cases hq : requested with
      | none => rfl
      | some r => simp [hr.asked r hq]
    refine ⟨cs, hcs, ?_⟩
    simp only [hlast, hv]
    rw [if_pos hall, Log.items_eq_of_found (Log.select_eq_ok_iff.1 hcs).2.2
      fun c hc ↦ ((Log.mem_select hl hcs).1 hc).1, hlen]
    exact h

/-- A table loads just when every commit up to the version in question
is there and their items replay. -/
theorem load_eq_ok_iff :
    load fs root requested = .ok s ↔
      ∃ place, Log.place? fs root = some place ∧ fs.get? place = some .directory ∧
        Log.Reaches fs place requested s.version ∧
        replay root s.version (Log.items fs place s.version) = .ok s := by
  rw [load, Outcome.bind_eq_ok_iff]
  constructor
  · intro he
    obtain ⟨log, hlog, h⟩ := he
    split at h
    · cases h
    · rename_i dir hdir
      obtain ⟨es, hes, hb⟩ := Outcome.bind_eq_ok_iff.1 h
      obtain ⟨place, hp, hd, -⟩ := FileSystem.list_eq_ok hes
      refine ⟨place, ?_, hd, (build_eq_ok_iff (Log.lists_of_list hes hp)).1 hb⟩
      rw [Log.place?, hlog]
      simp [hdir, hp]
  · intro he
    obtain ⟨place, hp, hd, hb⟩ := he
    rw [Log.place?] at hp
    split at hp
    · cases hp
    · rename_i log hlog
      obtain ⟨dir, hdir, hp⟩ := Option.bind_eq_some_iff.1 hp
      obtain ⟨es, hes⟩ := FileSystem.list_isOk hp hd
      refine ⟨log, hlog, ?_⟩
      simp only [hdir]
      exact Outcome.bind_eq_ok_iff.2 ⟨es, hes, (build_eq_ok_iff (Log.lists_of_list hes hp)).2 hb⟩

end Snapshot

end TableLog
