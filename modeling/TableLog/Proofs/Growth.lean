import TableLog.Proofs.Committer

namespace TableLog

namespace Log

open FileSystem (Written SameDirectories)

variable {fs fs' : FileSystem} {dir : Place} {n u v : Version} {bs : Bytes} {root : Location}
  {requested : Option Version} {s : Snapshot}

theorem place_ne (h : u ≠ v) : dir ++ [LogEntry.name u] ≠ dir ++ [LogEntry.name v] := by
  intro he
  exact h (LogEntry.name_inj.1 (List.cons.inj (List.append_cancel_left he)).1)

theorem written_place (fs : FileSystem) (dir : Place) (v : Version) (bs : Bytes) :
    Written fs (fs.set (dir ++ [LogEntry.name v]) (.file bs)) (dir ++ [LogEntry.name v]) bs :=
  FileSystem.written_set (by simp) bs

theorem found?_written (h : Written fs fs' (dir ++ [LogEntry.name v]) bs) (u : Version) :
    found? fs' dir u = if u = v then some (.file bs) else found? fs dir u := by
  by_cases hu : u = v
  · rw [if_pos hu, hu]
    exact h.get?
  · rw [if_neg hu]
    exact h.others (place_ne hu)

theorem lt_of_next? (h : n.next? = some v) : n < v := by
  rw [UInt64.lt_iff_toNat_lt, Version.next?_eq_some_iff.1 h]
  omega

theorem le_of_lt_next? (h : n.next? = some v) (hu : u < v) : u ≤ n := by
  rw [UInt64.lt_iff_toNat_lt, Version.next?_eq_some_iff.1 h] at hu
  rw [UInt64.le_iff_toNat_le]
  omega

theorem Holds.sameDirectories (h : Holds fs dir n) (hv : n < v)
    (hw : Written fs fs' (dir ++ [LogEntry.name v]) bs) : SameDirectories fs fs' := by
  refine hw.sameDirectories fun hd ↦ ?_
  cases (h.absent v hv).symm.trans hd

theorem Holds.next (h : Holds fs dir n) (hv : n.next? = some v)
    (hw : Written fs fs' (dir ++ [LogEntry.name v]) bs) : Holds fs' dir v := by
  refine ⟨(h.sameDirectories (lt_of_next? hv) hw dir).1 h.directory, ?_, ?_⟩
  · intro u hu
    rw [found?_written hw]
    by_cases he : u = v
    · exact ⟨bs, if_pos he⟩
    · rw [if_neg he]
      exact h.present u (le_of_lt_next? hv (UInt64.lt_of_le_of_ne hu he))
  · intro u hu
    have hne : u ≠ v := by
      intro he
      subst he
      exact UInt64.lt_irrefl _ hu
    rw [found?_written hw, if_neg hne]
    exact h.absent u (UInt64.lt_trans (lt_of_next? hv) hu)

theorem Holds.reaches_iff (h : Holds fs dir n) :
    Reaches fs dir requested v ↔
      (∀ m x, fs.get? (dir ++ [m]) = some x → LogEntry.ofName m ≠ .malformed) ∧ v ≤ n ∧
        (requested = some v ∨ requested = none ∧ v = n) := by
  constructor
  · intro hr
    have hle : v ≤ n := by
      refine UInt64.not_lt.1 fun hlt ↦ ?_
      exact hr.present v (UInt64.le_refl v) (h.absent v hlt)
    refine ⟨hr.wellNamed, hle, ?_⟩
    cases requested with
    | some r => exact .inl (congrArg some (hr.asked r rfl))
    | none =>
      refine .inr ⟨rfl, UInt64.le_antisymm hle (UInt64.not_lt.1 fun hlt ↦ ?_)⟩
      obtain ⟨bs, hbs⟩ := h.present n (UInt64.le_refl n)
      rw [hr.last rfl n hlt] at hbs
      cases hbs
  · intro he
    obtain ⟨hw, hle, hr⟩ := he
    refine ⟨hw, fun u hu ↦ ?_, fun r hreq ↦ ?_, fun hnone u hu ↦ ?_⟩
    · obtain ⟨bs, hbs⟩ := h.present u (UInt64.le_trans hu hle)
      rw [hbs]
      exact Option.some_ne_none _
    · rcases hr with hr | ⟨hr, -⟩
      · exact Option.some.inj (hreq.symm.trans hr)
      · rw [hr] at hreq
        cases hreq
    · rcases hr with hr | ⟨-, rfl⟩
      · rw [hr] at hnone
        cases hnone
      · exact h.absent u hu

theorem Holds.load_eq_ok_iff (h : Holds fs dir n) (hp : place? fs root = some dir) :
    Snapshot.load fs root requested = .ok s ↔
      (∀ m x, fs.get? (dir ++ [m]) = some x → LogEntry.ofName m ≠ .malformed) ∧ s.version ≤ n ∧
        (requested = some s.version ∨ requested = none ∧ s.version = n) ∧
        Snapshot.replay root s.version (items fs dir s.version) = .ok s := by
  rw [Snapshot.load_eq_ok_iff]
  constructor
  · intro he
    obtain ⟨place, hplace, -, hr, hs⟩ := he
    obtain rfl := Option.some.inj (hp.symm.trans hplace)
    obtain ⟨hw, hle, hreq⟩ := h.reaches_iff.1 hr
    exact ⟨hw, hle, hreq, hs⟩
  · intro he
    obtain ⟨hw, hle, hreq, hs⟩ := he
    exact ⟨dir, hp, h.directory, h.reaches_iff.2 ⟨hw, hle, hreq⟩, hs⟩

theorem wellNamed_written (hw : Written fs fs' (dir ++ [LogEntry.name v]) bs)
    (h : ∀ m x, fs.get? (dir ++ [m]) = some x → LogEntry.ofName m ≠ .malformed) :
    ∀ m x, fs'.get? (dir ++ [m]) = some x → LogEntry.ofName m ≠ .malformed := by
  intro m x hx
  rw [hw] at hx
  split at hx
  · rename_i he
    rw [(List.cons.inj (List.append_cancel_left he)).1, LogEntry.ofName_name]
    exact nofun
  · exact h m x hx

/-- A version that was loaded can be loaded again, from any place that names the table. -/
theorem Holds.load_of_le (h : Holds fs dir n) (hv : n.next? = some v)
    (hw : Written fs fs' (dir ++ [LogEntry.name v]) bs) (hp : place? fs root = some dir)
    (hs : Snapshot.load fs root requested = .ok s) :
    Snapshot.load fs' root (some s.version) = .ok s := by
  obtain ⟨hnames, hle, -, hreplay⟩ := (h.load_eq_ok_iff hp).1 hs
  have hp' : place? fs' root = some dir := by
    rwa [← place?_congr (h.sameDirectories (lt_of_next? hv) hw)]
  have hle' : s.version ≤ v := UInt64.le_of_lt (UInt64.lt_of_le_of_lt hle (lt_of_next? hv))
  have hitems : items fs dir s.version = items fs' dir s.version := by
    refine items_congr fun u hu ↦ ?_
    rw [found?_written hw, if_neg]
    intro he
    subst he
    exact UInt64.lt_irrefl n (UInt64.lt_of_lt_of_le (lt_of_next? hv) (UInt64.le_trans hu hle))
  exact ((h.next hv hw).load_eq_ok_iff hp').2 ⟨wellNamed_written hw hnames, hle', .inl rfl,
    hitems ▸ hreplay⟩

/-- The last version goes on to the next by the actions that were committed on it. -/
theorem Holds.load_next (h : Holds fs dir n) (hv : n.next? = some v) {as : List Action}
    (hw : Written fs fs' (dir ++ [LogEntry.name v]) (writeActions as))
    (has : readActions (writeActions as) = as.map .ok) (hk : ∀ a ∈ as, a.keepsTable)
    (hp : place? fs root = some dir) (hs : Snapshot.load fs root requested = .ok s)
    (hn : s.version = n) : Snapshot.load fs' root none = .ok (s.advance v as) := by
  obtain ⟨hnames, -, -, hreplay⟩ := (h.load_eq_ok_iff hp).1 hs
  have hp' : place? fs' root = some dir := by
    rwa [← place?_congr (h.sameDirectories (lt_of_next? hv) hw)]
  have hitems : items fs' dir v = items fs dir n ++ as.map .ok := by
    rw [items_next fs' dir hv, commitItems_file (v := v) (by rw [found?_written hw, if_pos rfl]),
      has]
    congr 1
    refine items_congr fun u hu ↦ ?_
    rw [found?_written hw, if_neg]
    intro he
    subst he
    exact UInt64.lt_irrefl n (UInt64.lt_of_lt_of_le (lt_of_next? hv) hu)
  refine ((h.next hv hw).load_eq_ok_iff hp').2 ⟨wellNamed_written hw hnames, UInt64.le_refl v,
    .inr ⟨rfl, rfl⟩, ?_⟩
  rw [hn] at hreplay
  rw [show (s.advance v as).version = v from rfl, hitems]
  exact Snapshot.replay_append hreplay hk v

/-- Before anything has been committed, the new version is the old table. -/
theorem Holds.load_created (h : Holds fs dir n) (hv : n.next? = some v)
    (hp : place? fs root = some dir) (hs : Snapshot.load fs root requested = .ok s)
    (hn : s.version = n) :
    Snapshot.load (fs.set (dir ++ [LogEntry.name v]) (.file [])) root none =
      .ok (s.advance v []) := by
  have hw := written_place fs dir v (writeActions [])
  exact h.load_next hv hw (readActions_write (List.forall_mem_nil _))
    (List.forall_mem_nil _) hp hs hn

theorem Holds.first (hd : fs.get? dir = some .directory) (he : ∀ v, found? fs dir v = none)
    (hw : Written fs fs' (dir ++ [LogEntry.name 0]) bs) : Holds fs' dir 0 := by
  refine ⟨?_, ?_, ?_⟩
  · rw [hw, if_neg (by simp), hd]
  · intro v hv
    refine ⟨bs, ?_⟩
    rw [found?_written hw, if_pos (UInt64.le_zero_iff.1 hv)]
  · intro v hv
    have hne : v ≠ 0 := by
      intro he
      subst he
      exact UInt64.lt_irrefl _ hv
    rw [found?_written hw, if_neg hne]
    exact he v

end Log

namespace Sample

def root : Location := { scheme := "file", authority := some {}, path := .segments ["t", ""] }

def log : Place := [utf8 "t", utf8 "_delta_log"]

def protocol : Protocol where
  readerVersion := 1
  writerVersion := 7
  writerFeatures := some [.rowTracking, .domainMetadata]

def metadata : Metadata := { id := "m", schemaString := "" }

def ground : FileSystem := ⟨[(log, .directory), ([utf8 "t"], .directory)], by decide⟩

def fs : FileSystem :=
  ground.set (log ++ [LogEntry.name 0])
    (.file (writeActions [.protocol protocol, .metadata metadata]))

def snapshot : Snapshot := ⟨⟨metadata, protocol, metadata.properties, root, 0⟩, .empty⟩

def file (path : String) (count : Int64) : Add :=
  { path, size := 1, modificationTime := 0, dataChange := true,
    stats := some (Add.countText count) }

theorem holds_first (bs : Bytes) :
    Log.Holds (ground.set (log ++ [LogEntry.name 0]) (.file bs)) log 0 := by
  refine Log.Holds.first (by decide) (fun v ↦ ?_) (Log.written_place ground log 0 bs)
  simp [Log.found?, FileSystem.get?, ground, log, List.lookup_cons]

theorem holds : Log.Holds fs log 0 := holds_first _

theorem place : Log.place? fs root = some log := by decide +kernel

theorem load : Snapshot.load fs root none = .ok snapshot := by decide +kernel

end Sample

end TableLog
