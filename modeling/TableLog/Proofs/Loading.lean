import TableLog.Proofs.Growth

namespace TableLog

namespace Log

/-- Names that look like those of commits are names of commits. -/
def WellNamed (es : List (Bytes × Node)) : Prop :=
  ∀ e ∈ es, ∀ ds : Bytes, (∀ b ∈ ds, isDigit b) → e.1 = ds ++ LogEntry.suffix →
    ∃ v, e.1 = LogEntry.name v

def HasCommit (es : List (Bytes × Node)) (v : Version) : Prop :=
  ∃ found, (LogEntry.name v, found) ∈ es

/-- The first commit that is missing among others, and the next that is there. -/
structure Gap (es : List (Bytes × Node)) (missing next : Version) : Prop where
  before : ∀ u < missing, HasCommit es u
  absent : ¬HasCommit es missing
  lt : missing < next
  present : HasCommit es next
  between : ∀ u, missing < u → u < next → ¬HasCommit es u

def gapText (dir : FilePath) (missing next : Version) : String :=
  let place := Location.ofFilePath (dir ++ [LogEntry.name next])
  s!"Expected commit version {missing.toNat} but found {place.toText}"

/-- What is listed in the log directory of a table, in whatever order. -/
structure Listing (fs : FileSystem) (root log : Location) (dir : FilePath)
    (es : List (Bytes × Node)) : Prop where
  location : directory root = .ok log
  path : log.filePath? = some dir
  entries : ∃ place, fs.resolve? dir = some place ∧ fs.get? place = some .directory ∧
    Lists fs place es

/-- All commits up to a version are files that are read to their ends. -/
def ReadUpTo (es : List (Bytes × Node)) (v : Version) (as : Version → List Action) : Prop :=
  ∀ u ≤ v, ∃ bs, (LogEntry.name u, .file bs) ∈ es ∧ readActions bs = (as u).map .ok

def actionsUpTo (as : Version → List Action) (v : Version) : List Action :=
  (List.range (v.toNat + 1)).flatMap fun n ↦ as (UInt64.ofNat n)

theorem wellNamed_iff {es : List (Bytes × Node)} :
    WellNamed es ↔ ∀ e ∈ es, LogEntry.ofName e.1 ≠ .malformed := by
  constructor
  · intro h e he hmalformed
    obtain ⟨⟨ds, hds, hname⟩, hnot⟩ := LogEntry.ofName_eq_malformed_iff.1 hmalformed
    obtain ⟨v, hv⟩ := h e he ds hds hname
    exact hnot v hv
  · intro h e he ds hds hname
    by_contra hnot
    refine h e he (LogEntry.ofName_eq_malformed_iff.2 ⟨⟨ds, hds, hname⟩, fun v hv ↦ ?_⟩)
    exact hnot ⟨v, hv⟩

def ofEntries (es : List (Bytes × Node)) (hn : (es.map (·.1)).Nodup) : FileSystem where
  entries := es.map fun e ↦ ([e.1], e.2)
  distinct := by
    rw [List.map_map]
    have hnames : (es.map ((·.1) ∘ fun e ↦ (([e.1] : Place), e.2))) =
        (es.map (·.1)).map fun n ↦ [n] := by
      rw [List.map_map]
      rfl
    rw [hnames]
    exact hn.map fun n m h ↦ (List.cons.inj h).1

variable {es es' : List (Bytes × Node)} {dir : FilePath} {upTo : Option Version}
  {v : Version} {e : Error}

theorem lists_ofEntries (hn : (es.map (·.1)).Nodup) : Lists (ofEntries es hn) [] es := by
  refine ⟨hn, fun n m ↦ ?_⟩
  rw [List.nil_append, FileSystem.get?_eq_some_iff (List.cons_ne_nil n []), ofEntries, List.mem_map]
  constructor
  · intro h
    exact ⟨(n, m), h, rfl⟩
  · intro h
    obtain ⟨⟨n', m'⟩, h, he⟩ := h
    obtain ⟨hname, rfl⟩ := Prod.mk.inj he
    rwa [← (List.cons.inj hname).1]

theorem Lists.set {fs : FileSystem} {place : Place} {es : List (Bytes × Node)}
    (h : Lists fs place es) {n : Bytes} (hn : n ∉ es.map (·.1)) (m : Node) :
    Lists (fs.set (place ++ [n]) m) place ((n, m) :: es) := by
  refine ⟨List.nodup_cons.2 ⟨hn, h.1⟩, fun n' m' ↦ ?_⟩
  rw [FileSystem.get?_set, if_neg (by simp), List.mem_cons, h.2]
  by_cases hname : n' = n
  · subst hname
    have hnone (m : Node) : fs.get? (place ++ [n']) ≠ some m := by
      intro hm
      exact hn (List.mem_map_of_mem ((h.2 n' m).2 hm))
    simp [hnone, eq_comm]
  · have hplace : place ++ [n'] ≠ place ++ [n] := by simpa using hname
    rw [if_neg hplace]
    simp [hname]

theorem found?_ofEntries (hn : (es.map (·.1)).Nodup) {m : Node} :
    found? (ofEntries es hn) [] v = some m ↔ (LogEntry.name v, m) ∈ es :=
  ((lists_ofEntries hn).2 _ _).symm

theorem hasCommit_iff (hn : (es.map (·.1)).Nodup) :
    HasCommit es v ↔ found? (ofEntries es hn) [] v ≠ none := by
  rw [Option.ne_none_iff_exists']
  exact exists_congr fun m ↦ (found?_ofEntries hn).symm

theorem sorted_congr (hn : (es.map (·.1)).Nodup) (hn' : (es'.map (·.1)).Nodup)
    (h : ∀ v, upTo.all (v ≤ ·) → ∀ m, (LogEntry.name v, m) ∈ es ↔ (LogEntry.name v, m) ∈ es') :
    sorted dir upTo es = sorted dir upTo es' := by
  apply (sorted_pairwise hn).eq_of_mem_iff (sorted_pairwise hn')
  intro c
  rw [mem_sorted, mem_sorted]
  constructor
  · rintro ⟨hc, hall, hloc⟩
    exact ⟨(h _ hall _).1 hc, hall, hloc⟩
  · rintro ⟨hc, hall, hloc⟩
    exact ⟨(h _ hall _).2 hc, hall, hloc⟩

theorem select_eq (hw : WellNamed es) :
    select dir upTo es = (checkContiguous 0 (sorted dir upTo es)).map fun _ ↦
      sorted dir upTo es := by
  rw [select, commits_eq_ok_iff.2 ⟨wellNamed_iff.1 hw, rfl⟩]
  change (checkContiguous 0 (sorted dir upTo es) >>= fun _ ↦ pure (sorted dir upTo es)) = _
  cases checkContiguous 0 (sorted dir upTo es) <;> rfl

theorem checkContiguous_eq_error {n : Nat} {cs : List CommitFile}
    (h : checkContiguous n cs = .error e) :
    ∃ before c after, cs = before ++ c :: after ∧
      before.map (·.version.toNat) = List.range' n before.length ∧
      c.version.toNat ≠ n + before.length ∧
      e = .invalidLogPath
        s!"Expected commit version {n + before.length} but found {c.location.toText}" := by
  induction cs generalizing n with
  | nil => cases h
  | cons c cs ih =>
    rw [checkContiguous] at h
    split at h
    · rename_i hc
      obtain ⟨before, d, after, rfl, hbefore, hd, rfl⟩ := ih h
      have hlength : n + (before.length + 1) = n + 1 + before.length := by omega
      refine ⟨c :: before, d, after, rfl, ?_, ?_, ?_⟩
      · rw [List.map_cons, hbefore, hc, List.length_cons, List.range'_succ]
      · rwa [List.length_cons, hlength]
      · rw [List.length_cons, hlength]
    · rename_i hc
      exact ⟨[], c, cs, rfl, rfl, hc, (Except.error.inj h).symm⟩

theorem all_of_le {u : Version} (h : upTo.all (v ≤ ·)) (hu : u ≤ v) : upTo.all (u ≤ ·) := by
  cases upTo with
  | none => rfl
  | some r => exact decide_eq_true (UInt64.le_trans hu (of_decide_eq_true h))

theorem hasCommit_iff_sorted (dir : FilePath) (h : upTo.all (v ≤ ·)) :
    HasCommit es v ↔ ∃ c ∈ sorted dir upTo es, c.version = v := by
  constructor
  · intro hc
    obtain ⟨found, hfound⟩ := hc
    exact ⟨⟨v, .ofFilePath (dir ++ [LogEntry.name v]), found⟩, mem_sorted.2 ⟨hfound, h, rfl⟩, rfl⟩
  · intro hc
    obtain ⟨c, hc, rfl⟩ := hc
    exact ⟨c.found, (mem_sorted.1 hc).1⟩

theorem le_of_sorted {before after : List CommitFile} {c d : CommitFile}
    (h : (before ++ c :: after).Pairwise (·.version < ·.version))
    (hbefore : before.map (·.version.toNat) = List.range before.length)
    (hd : d ∈ before ++ c :: after) (hlow : before.length ≤ d.version.toNat) :
    c.version ≤ d.version := by
  rw [List.pairwise_append, List.pairwise_cons] at h
  obtain ⟨-, ⟨hafter, -⟩, -⟩ := h
  rcases List.mem_append.1 hd with hd | hd
  · have hlt := (mem_of_select hbefore).2 ⟨d, hd, rfl⟩
    omega
  · rcases List.mem_cons.1 hd with rfl | hd
    · exact UInt64.le_refl _
    · exact UInt64.le_of_lt (hafter d hd)

theorem gap_of_select (hn : (es.map (·.1)).Nodup) (hw : WellNamed es)
    (h : select dir upTo es = .error e) :
    ∃ missing next, Gap es missing next ∧ upTo.all (next ≤ ·) ∧
      e = .invalidLogPath (gapText dir missing next) := by
  rw [select_eq hw, Outcome.map_eq_error_iff] at h
  obtain ⟨before, c, after, hsorted, hbefore, hne, rfl⟩ := checkContiguous_eq_error h
  rw [← List.range_eq_range'] at hbefore
  rw [Nat.zero_add] at hne
  have hincreasing : (sorted dir upTo es).Pairwise (·.version < ·.version) := sorted_pairwise hn
  have hc : c ∈ sorted dir upTo es := by simp [hsorted]
  have hfirst {d : CommitFile} (hd : d ∈ before) : d ∈ sorted dir upTo es := by simp [hsorted, hd]
  obtain ⟨-, hall, hloc⟩ := mem_sorted.1 hc
  rw [hsorted] at hincreasing
  have hlt : before.length < c.version.toNat := by
    refine Nat.lt_of_le_of_ne (Nat.le_of_not_lt fun hlt ↦ ?_) hne.symm
    obtain ⟨d, hd, hdc⟩ := (mem_of_select hbefore).1 hlt
    have hdlt := (List.pairwise_append.1 hincreasing).2.2 d hd c List.mem_cons_self
    rw [UInt64.lt_iff_toNat_lt] at hdlt
    omega
  have hmissing : (UInt64.ofNat before.length).toNat = before.length :=
    UInt64.toNat_ofNat_of_lt' (Nat.lt_trans hlt c.version.toNat_lt)
  have hbetween (u : Version) (hu : before.length ≤ u.toNat) (huc : u < c.version) :
      ¬HasCommit es u := by
    intro hcommit
    obtain ⟨d, hd, rfl⟩ :=
      (hasCommit_iff_sorted dir (all_of_le hall (UInt64.le_of_lt huc))).1 hcommit
    exact UInt64.not_lt.2 (le_of_sorted hincreasing hbefore (hsorted ▸ hd) hu) huc
  refine ⟨UInt64.ofNat before.length, c.version, ⟨fun u hu ↦ ?_, ?_, ?_, ?_, fun u hu huc ↦ ?_⟩,
    hall, ?_⟩
  · rw [UInt64.lt_iff_toNat_lt, hmissing] at hu
    obtain ⟨d, hd, hdu⟩ := (mem_of_select hbefore).1 hu
    obtain rfl := UInt64.toNat_inj.1 hdu
    exact ⟨d.found, (mem_sorted.1 (hfirst hd)).1⟩
  · exact hbetween _ (Nat.le_of_eq hmissing.symm) (by rwa [UInt64.lt_iff_toNat_lt, hmissing])
  · rwa [UInt64.lt_iff_toNat_lt, hmissing]
  · exact (hasCommit_iff_sorted dir hall).2 ⟨c, hc, rfl⟩
  · rw [UInt64.lt_iff_toNat_lt, hmissing] at hu
    exact hbetween u (Nat.le_of_lt hu) huc
  · unfold gapText
    rw [hmissing, hloc, Nat.zero_add]

theorem readUpTo_iff (hn : (es.map (·.1)).Nodup) {as : Version → List Action} :
    ReadUpTo es v as ↔ ∀ u ≤ v, found? (ofEntries es hn) [] u ≠ none ∧
      commitItems (ofEntries es hn) [] u = (as u).map .ok := by
  refine forall₂_congr fun u _ ↦ ?_
  constructor
  · intro h
    obtain ⟨bs, hfile, has⟩ := h
    have hfound := (found?_ofEntries hn).2 hfile
    exact ⟨hfound ▸ Option.some_ne_none _, (commitItems_file hfound).trans has⟩
  · intro h
    obtain ⟨hfound, hitems⟩ := h
    obtain ⟨m, hm⟩ := Option.ne_none_iff_exists'.1 hfound
    cases m with
    | directory =>
      rw [commitItems, hm] at hitems
      exact absurd hitems Results.error_cons_ne
    | file bs => exact ⟨bs, (found?_ofEntries hn).1 hm, (commitItems_file hm).symm.trans hitems⟩

theorem items_of_readUpTo (hn : (es.map (·.1)).Nodup) {as : Version → List Action}
    (h : ReadUpTo es v as) :
    items (ofEntries es hn) [] v = (actionsUpTo as v).map .ok := by
  rw [items_eq_flatMap fun u hu ↦ ((readUpTo_iff hn).1 h u hu).2, actionsUpTo, List.map_flatMap]

theorem commitItems_of_replay {fs : FileSystem} {place : Place} {root : Location} {s : Snapshot}
    (h : Snapshot.replay root v (items fs place v) = .ok s) :
    ∃ as : Version → List Action, ∀ u ≤ v, commitItems fs place u = (as u).map .ok := by
  obtain ⟨p, m, hreplay, -, -⟩ := Snapshot.replay_eq_ok_iff.1 h
  have hitems := Results.eq_ok_of_failure (Replay.applyAll_eq_ok_iff.1 hreplay).1
  refine ⟨fun u ↦ Results.actions (commitItems fs place u), fun u hu ↦ ?_⟩
  have hok : ∀ r ∈ commitItems fs place u, ∃ a, r = .ok a := by
    intro r hr
    have hmem : r ∈ items fs place v := by
      refine List.mem_flatMap.2 ⟨u.toNat, List.mem_range.2 (Nat.lt_succ_of_le hu), ?_⟩
      rwa [UInt64.ofNat_toNat]
    rw [hitems] at hmem
    obtain ⟨a, -, rfl⟩ := List.mem_map.1 hmem
    exact ⟨a, rfl⟩
  obtain ⟨as, has⟩ := Results.exists_ok hok
  simp only [has, Results.actions_ok]

end Log

namespace Snapshot

variable {root log : Location} {dir : FilePath} {requested : Option Version}
  {es es' : List (Bytes × Node)} {s : Snapshot} {v : Version}

theorem build_congr (hn : (es.map (·.1)).Nodup) (hn' : (es'.map (·.1)).Nodup)
    (hw : Log.WellNamed es) (hw' : Log.WellNamed es')
    (h : ∀ v, requested.all (v ≤ ·) → ∀ m, (LogEntry.name v, m) ∈ es ↔ (LogEntry.name v, m) ∈ es') :
    build root log dir requested es = build root log dir requested es' := by
  rw [build, build, Log.select_eq hw, Log.select_eq hw', Log.sorted_congr hn hn' h]

theorem reaches_iff (hn : (es.map (·.1)).Nodup) (hw : Log.WellNamed es)
    (hpresent : ∀ u ≤ v, Log.found? (Log.ofEntries es hn) [] u ≠ none) :
    Log.Reaches (Log.ofEntries es hn) [] requested v ↔
      requested = some v ∨ requested = none ∧ ∀ u, Log.HasCommit es u → u ≤ v := by
  constructor
  · intro h
    cases requested with
    | some r => exact .inl (congrArg some (h.asked r rfl))
    | none =>
      refine .inr ⟨rfl, fun u hu ↦ UInt64.not_lt.1 fun hlt ↦ ?_⟩
      exact (Log.hasCommit_iff hn).1 hu (h.last rfl u hlt)
  · intro h
    refine ⟨fun n m hm ↦ ?_, hpresent, fun r hr ↦ ?_, fun hnone u hu ↦ ?_⟩
    · exact Log.wellNamed_iff.1 hw (n, m) (((Log.lists_ofEntries hn).2 n m).2 hm)
    · rcases h with h | ⟨h, -⟩
      · exact Option.some.inj (hr.symm.trans h)
      · cases hr.symm.trans h
    · rcases h with h | ⟨-, h⟩
      · cases hnone.symm.trans h
      · by_contra hfound
        exact UInt64.not_lt.2 (h u ((Log.hasCommit_iff hn).2 hfound)) hu

theorem build_ok_iff (hn : (es.map (·.1)).Nodup) (hw : Log.WellNamed es) :
    (build root log dir requested es = .ok s ∧ s.version = v) ↔
      (requested = some v ∨ requested = none ∧ ∀ u, Log.HasCommit es u → u ≤ v) ∧
        ∃ as, Log.ReadUpTo es v as ∧ ofActions root v (Log.actionsUpTo as v) = .ok s := by
  rw [build_eq_ok_iff (Log.lists_ofEntries hn)]
  constructor
  · rintro ⟨⟨hreaches, hreplay⟩, rfl⟩
    obtain ⟨as, has⟩ := Log.commitItems_of_replay hreplay
    have hread : Log.ReadUpTo es s.version as :=
      (Log.readUpTo_iff hn).2 fun u hu ↦ ⟨hreaches.present u hu, has u hu⟩
    rw [Log.items_of_readUpTo hn hread] at hreplay
    exact ⟨(reaches_iff hn hw hreaches.present).1 hreaches, as, hread, hreplay⟩
  · rintro ⟨hasked, as, hread, hreplay⟩
    obtain rfl := (replay_version hreplay).2
    refine ⟨⟨?_, ?_⟩, rfl⟩
    · exact (reaches_iff hn hw fun u hu ↦ ((Log.readUpTo_iff hn).1 hread u hu).1).2 hasked
    · rwa [Log.items_of_readUpTo hn hread]

theorem build_gap (hn : (es.map (·.1)).Nodup) (hw : Log.WellNamed es) {u v : Version} (huv : u < v)
    (hu : ¬Log.HasCommit es u) (hv : Log.HasCommit es v) (hall : requested.all (v ≤ ·)) :
    ∃ missing next, Log.Gap es missing next ∧
      build root log dir requested es =
        .error (.invalidLogPath (Log.gapText dir missing next)) := by
  cases hselect : Log.select dir requested es with
  | error e =>
    obtain ⟨missing, next, hgap, -, rfl⟩ := Log.gap_of_select hn hw hselect
    refine ⟨missing, next, hgap, ?_⟩
    rw [build, hselect]
    rfl
  | ok cs =>
    obtain ⟨-, rfl, hversions⟩ := Log.select_eq_ok_iff.1 hselect
    obtain ⟨c, hc, rfl⟩ := (Log.hasCommit_iff_sorted dir hall).1 hv
    have hlt := (Log.mem_of_select hversions).2 ⟨c, hc, rfl⟩
    -- without an error there are all versions up to each
    obtain ⟨d, hd, hdu⟩ :=
      (Log.mem_of_select hversions).1 (Nat.lt_trans (UInt64.lt_iff_toNat_lt.1 huv) hlt)
    obtain rfl := UInt64.toNat_inj.1 hdu
    exact absurd ⟨d.found, (Log.mem_sorted.1 hd).1⟩ hu

theorem build_missing (hw : Log.WellNamed es)
    (h : ∀ v, requested.all (v ≤ ·) → ¬Log.HasCommit es v) :
    build root log dir requested es =
      .error (.missingData s!"No commit files found in {log.toText}") := by
  have hnil : Log.sorted dir requested es = [] := by
    refine List.eq_nil_iff_forall_not_mem.2 fun c hc ↦ ?_
    have hall := (Log.mem_sorted.1 hc).2.1
    exact h c.version hall ((Log.hasCommit_iff_sorted dir hall).2 ⟨c, hc, rfl⟩)
  rw [build, Log.select_eq hw, hnil]
  rfl

theorem build_short (hn : (es.map (·.1)).Nodup) (hw : Log.WellNamed es) {q r : Version}
    (hqr : q < r) (h : ∀ v ≤ r, Log.HasCommit es v ↔ v ≤ q) :
    build root log dir (some r) es = .error (.generic (
      "Requested snapshot version " ++ toString r ++
        " does not exist, latest version is " ++ toString q)) := by
  cases hselect : Log.select dir (some r) es with
  | error e =>
    obtain ⟨missing, next, hgap, hall, -⟩ := Log.gap_of_select hn hw hselect
    have hnext : next ≤ r := of_decide_eq_true hall
    have hle := (h next hnext).1 hgap.present
    have hmissing : missing ≤ q := UInt64.le_trans (UInt64.le_of_lt hgap.lt) hle
    exact absurd ((h missing (UInt64.le_trans hmissing (UInt64.le_of_lt hqr))).2 hmissing)
      hgap.absent
  | ok cs =>
    obtain ⟨-, rfl, hversions⟩ := Log.select_eq_ok_iff.1 hselect
    have hall (v : Version) (hv : v ≤ r) : (some r).all (v ≤ ·) := decide_eq_true hv
    have hmem (v : Version) (hv : v ≤ r) :
        v.toNat < (Log.sorted dir (some r) es).length ↔ v ≤ q := by
      rw [← h v hv, Log.hasCommit_iff_sorted dir (hall v hv), Log.mem_of_select hversions]
      exact exists_congr fun c ↦ and_congr_right fun _ ↦ UInt64.toNat_inj
    have hlength : (Log.sorted dir (some r) es).length = q.toNat + 1 := by
      have hlow := (hmem q (UInt64.le_of_lt hqr)).2 (UInt64.le_refl q)
      refine Nat.le_antisymm (Nat.le_of_not_lt fun hlt ↦ ?_) hlow
      obtain ⟨c, hc, hcq⟩ := (Log.mem_of_select hversions).1 hlt
      have hcr : c.version ≤ r := of_decide_eq_true (Log.mem_sorted.1 hc).2.1
      have hle := UInt64.le_iff_toNat_le.1 ((hmem c.version hcr).1 (hcq ▸ hlt))
      omega
    obtain ⟨latest, hlast, rfl⟩ := Log.getLast?_of_select hversions hlength
    have hne : (some r).all (· = latest.version) = false := by
      simpa using (UInt64.ne_of_lt hqr).symm
    rw [build, hselect]
    simp only [bind, Except.bind, hlast, hne]
    rfl

theorem load_eq_build {fs : FileSystem} (hl : Log.Listing fs root log dir es)
    (hw : Log.WellNamed es) :
    load fs root requested = build root log dir requested es := by
  obtain ⟨place, hplace, hd, hlists⟩ := hl.entries
  obtain ⟨listed, hlisted⟩ := FileSystem.list_isOk hplace hd
  have hlists' := Log.lists_of_list hlisted hplace
  have hmem (n : Bytes) (m : Node) : (n, m) ∈ listed ↔ (n, m) ∈ es :=
    (hlists'.2 n m).trans (hlists.2 n m).symm
  have hw' : Log.WellNamed listed := fun e he ↦ hw e ((hmem e.1 e.2).1 he)
  rw [load, hl.location]
  simp only [bind, Except.bind, hl.path, hlisted]
  exact build_congr hlists'.1 hlists.1 hw' hw fun v _ m ↦ hmem (LogEntry.name v) m

/-- A table loads at a version just when the commits up to it are all there, are read to their ends,
and replay one after the other; if no version is asked for, then it is the highest that is there.
Nothing else in the directory matters, nor the order in which it is listed. Where it does not load
for want of commits, the error says what is missing: one in between, all of them, or the last. -/
theorem load_by_commits {fs : FileSystem} (hl : Log.Listing fs root log dir es)
    (hw : Log.WellNamed es) (requested : Option Version) :
    (∀ s v, (load fs root requested = .ok s ∧ s.version = v) ↔
      (requested = some v ∨ requested = none ∧ ∀ u, Log.HasCommit es u → u ≤ v) ∧
        ∃ as, Log.ReadUpTo es v as ∧ ofActions root v (Log.actionsUpTo as v) = .ok s) ∧
    (∀ order, es.Perm order → build root log dir requested order = load fs root requested) ∧
    (∀ fs' es', Log.Listing fs' root log dir es' → Log.WellNamed es' →
      (∀ v, requested.all (v ≤ ·) → ∀ m, (LogEntry.name v, m) ∈ es ↔ (LogEntry.name v, m) ∈ es') →
      load fs' root requested = load fs root requested) ∧
    (∀ u v, u < v → ¬Log.HasCommit es u → Log.HasCommit es v → requested.all (v ≤ ·) →
      ∃ missing next, Log.Gap es missing next ∧
        load fs root requested = .error (.invalidLogPath (Log.gapText dir missing next))) ∧
    ((∀ v, requested.all (v ≤ ·) → ¬Log.HasCommit es v) →
      load fs root requested = .error (.missingData s!"No commit files found in {log.toText}")) ∧
    ∀ q r, requested = some r → q < r → (∀ v ≤ r, Log.HasCommit es v ↔ v ≤ q) →
      load fs root requested = .error (.generic (
        "Requested snapshot version " ++ toString r ++
          " does not exist, latest version is " ++ toString q)) := by
  obtain ⟨-, -, -, hn, -⟩ := hl.entries
  rw [load_eq_build hl hw]
  refine ⟨fun s v ↦ build_ok_iff hn hw, fun order horder ↦ ?_, fun fs' es' hl' hw' hsame ↦ ?_,
    fun u v huv hu hv hall ↦ build_gap hn hw huv hu hv hall, build_missing hw,
    fun q r hr hqr h ↦ ?_⟩
  · have hn' : (order.map (·.1)).Nodup := (horder.map (·.1)).nodup_iff.1 hn
    have hw' : Log.WellNamed order := fun e he ↦ hw e (horder.mem_iff.2 he)
    exact build_congr hn' hn hw' hw fun v _ m ↦ horder.symm.mem_iff
  · obtain ⟨-, -, -, hn', -⟩ := hl'.entries
    rw [load_eq_build hl' hw']
    exact (build_congr hn hn' hw hw' hsame).symm
  · rw [hr]
    exact build_short hn hw hqr h

end Snapshot

namespace Sample

/-- The table with a checkpoint note, and with a broken commit after one that is missing. -/
def cluttered : FileSystem :=
  (fs.set (log ++ [LogEntry.name 2]) (.file (utf8 "\x7b"))).set
    (log ++ [utf8 "_last_checkpoint"]) (.file [])

def clutter : List (Bytes × Node) :=
  [(utf8 "_last_checkpoint", .file []), (LogEntry.name 2, .file (utf8 "\x7b")),
    (LogEntry.name 0, .file (writeActions [.protocol protocol, .metadata metadata]))]

def logLocation : Location := { root with path := .segments ["t", "_delta_log", ""] }

theorem listing : Log.Listing fs root logLocation (log ++ [[]]) (clutter.drop 2) := by
  have hground : Log.Lists ground log [] := by
    refine ⟨.nil, fun n m ↦ ?_⟩
    simp [FileSystem.get?, ground, log, List.lookup_cons]
  exact ⟨by decide +kernel, by decide +kernel, log, by decide +kernel, by decide +kernel,
    hground.set (by simp) _⟩

theorem listing_cluttered : Log.Listing cluttered root logLocation (log ++ [[]]) clutter := by
  obtain ⟨hlocation, hpath, place, hplace, -, hlists⟩ := listing
  obtain rfl : place = log := Option.some.inj (hplace.symm.trans (by decide +kernel))
  refine ⟨hlocation, hpath, log, by decide +kernel, by decide +kernel, ?_⟩
  exact (hlists.set (by decide +kernel) _).set (by decide +kernel) _

theorem wellNamed_clutter : Log.WellNamed clutter := Log.wellNamed_iff.2 (by decide +kernel)

theorem mem_clutter {v : Version} {m : Node} :
    (LogEntry.name v, m) ∈ clutter ↔
    v = 2 ∧ m = .file (utf8 "\x7b") ∨ (LogEntry.name v, m) ∈ clutter.drop 2 := by
  have hnote : LogEntry.name v ≠ utf8 "_last_checkpoint" := by
    intro he
    have hother : LogEntry.ofName (utf8 "_last_checkpoint") = .other := by decide +kernel
    rw [← he, LogEntry.ofName_name] at hother
    cases hother
  simp [clutter, hnote, LogEntry.name_inj]

theorem hasCommit_clutter {v : Version} : Log.HasCommit clutter v ↔ v = 2 ∨ v = 0 := by
  simp only [Log.HasCommit, mem_clutter, exists_or]
  simp [clutter, LogEntry.name_inj]

end Sample

theorem Snapshot.load_by_commits_cluttered :
    Log.Listing Sample.cluttered Sample.root Sample.logLocation (Sample.log ++ [[]])
        Sample.clutter ∧
      Log.WellNamed Sample.clutter ∧
      Snapshot.load Sample.cluttered Sample.root (some 0) = .ok Sample.snapshot ∧
      (∃ missing next, Log.Gap Sample.clutter missing next ∧
        Snapshot.load Sample.cluttered Sample.root none =
          .error (.invalidLogPath (Log.gapText (Sample.log ++ [[]]) missing next))) ∧
      Snapshot.load Sample.cluttered Sample.root (some 1) =
        .error (.generic "Requested snapshot version 1 does not exist, latest version is 0") := by
  have hl := Sample.listing_cluttered
  have hw := Sample.wellNamed_clutter
  have hw₀ : Log.WellNamed (Sample.clutter.drop 2) := fun e he ↦ hw e (List.mem_of_mem_drop he)
  have hload : Snapshot.load Sample.fs Sample.root (some 0) = .ok Sample.snapshot := by
    decide +kernel
  obtain ⟨-, -, hsame, -⟩ := load_by_commits Sample.listing hw₀ (some 0)
  obtain ⟨-, -, -, hgap, -⟩ := load_by_commits hl hw none
  obtain ⟨-, -, -, -, -, hshort⟩ := load_by_commits hl hw (some 1)
  refine ⟨hl, hw, ?_, ?_, ?_⟩
  · rw [hsame Sample.cluttered Sample.clutter hl hw ?_, hload]
    intro v hv m
    have hne : v ≠ 2 := by
      rintro rfl
      exact absurd hv (by decide)
    rw [Sample.mem_clutter, or_iff_right fun h ↦ hne h.1]
  · apply hgap 1 2 (by decide) _ _ rfl
    · rw [Sample.hasCommit_clutter]
      decide
    · rw [Sample.hasCommit_clutter]
      exact .inl rfl
  · apply hshort 0 1 rfl (by decide)
    intro v hv
    have hne : v ≠ 2 := by
      rintro rfl
      exact absurd hv (by decide)
    rw [Sample.hasCommit_clutter, or_iff_right hne, UInt64.le_zero_iff]
end TableLog
