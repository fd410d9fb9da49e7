import TableLog.Proofs.Effect

namespace TableLog

namespace Log

variable {fs fs' : FileSystem} {dir : Place} {n u : Version} {root : Location}
  {requested : Option Version} {s : Snapshot}

/-- How a log changes in one step: not at all, or by the commit after its last. -/
inductive Grows (dir : Place) (fs fs' : FileSystem) : Prop
  | same : (∀ q, fs'.get? q = fs.get? q) → Grows dir fs fs'
  | next {n v : Version} {bs : Bytes} :
      Holds fs dir n → n.next? = some v → FileSystem.Written fs fs' (dir ++ [LogEntry.name v]) bs →
      Grows dir fs fs'

theorem Grows.sameDirectories (h : Grows dir fs fs') : FileSystem.SameDirectories fs fs' := by
  cases h with
  | same h => exact fun q ↦ by rw [h]
  | next hn hv hw => exact hn.sameDirectories (lt_of_next? hv) hw

theorem Grows.place? (h : Grows dir fs fs') (root : Location) :
    Log.place? fs' root = Log.place? fs root :=
  (place?_congr h.sameDirectories root).symm

theorem Grows.found? (h : Grows dir fs fs') {node : Node} (hf : Log.found? fs dir u = some node) :
    Log.found? fs' dir u = some node := by
  cases h with
  | same h => rwa [Log.found?, h]
  | next hn hv hw =>
    rw [found?_written hw, if_neg]
    · exact hf
    · intro he
      subst he
      rw [hn.absent u (lt_of_next? hv)] at hf
      cases hf

theorem holds_same (h : ∀ q, fs'.get? q = fs.get? q) (hn : Holds fs dir n) : Holds fs' dir n where
  directory := (h dir).trans hn.directory
  present v hv := by
    obtain ⟨bs, hbs⟩ := hn.present v hv
    exact ⟨bs, (h _).trans hbs⟩
  absent v hv := (h _).trans (hn.absent v hv)

theorem Grows.load (h : Grows dir fs fs') (hn : Holds fs dir n) (hp : Log.place? fs root = some dir)
    (hs : Snapshot.load fs root requested = .ok s) :
    Snapshot.load fs' root (some s.version) = .ok s := by
  cases h with
  | same h =>
    obtain ⟨hnames, hle, -, hreplay⟩ := (hn.load_eq_ok_iff hp).1 hs
    have hp' : Log.place? fs' root = some dir := by rwa [(Grows.same h : Grows dir fs fs').place?]
    have hitems : items fs dir s.version = items fs' dir s.version :=
      items_congr fun u _ ↦ (h _).symm
    refine ((holds_same h hn).load_eq_ok_iff hp').2 ⟨fun m x hx ↦ hnames m x ?_, hle, .inl rfl,
      hitems ▸ hreplay⟩
    rwa [← h]
  | next hm hv hw => exact hm.load_of_le hv hw hp hs

structure Shows (fs : FileSystem) (dir : Place) (s : Snapshot) : Prop where
  place : Log.place? fs s.root = some dir
  load : Snapshot.load fs s.root (some s.version) = .ok s

theorem Shows.of_load (hn : Holds fs dir n) (hp : Log.place? fs root = some dir)
    (hs : Snapshot.load fs root requested = .ok s) : Shows fs dir s := by
  obtain ⟨hnames, hle, -, hreplay⟩ := (hn.load_eq_ok_iff hp).1 hs
  obtain ⟨hroot, -⟩ := Snapshot.replay_version hreplay
  refine ⟨by rwa [hroot], ?_⟩
  rw [hroot]
  exact (hn.load_eq_ok_iff hp).2 ⟨hnames, hle, .inl rfl, hreplay⟩

theorem Grows.shows (h : Grows dir fs fs') (hn : Holds fs dir n) (hs : Shows fs dir s) :
    Shows fs' dir s :=
  ⟨(h.place? s.root).trans hs.place, h.load hn hs.place hs.load⟩

end Log

/-- What users do without writing. They refer to snapshots and transactions by number. -/
inductive Use
  | build (root : Location) (requested : Option Version)
  | start (snapshot : Nat) (timestamp : Int64)
  | stage (transaction : Nat) (change : Staging)

/-- What users hold: the snapshots they have built and the transactions they have under way. -/
structure Users where
  snapshots : List Snapshot := []
  pending : List Transaction := []

namespace Users

/-- Building from elsewhere gives no snapshot of this table. -/
def step (fs : FileSystem) (log : Place) (u : Users) : Use → Users
  | .build root requested =>
    if Log.place? fs root = some log then
      match Snapshot.load fs root requested with
      | .ok s => { u with snapshots := u.snapshots ++ [s] }
      | .error _ => u
    else u
  | .start i timestamp =>
    match u.snapshots[i]? with
    | none => u
    | some s =>
      match Transaction.start s timestamp with
      | .ok t => { u with pending := u.pending ++ [t] }
      | .error _ => u
  | .stage i change => { u with pending := u.pending.modify i (·.stage change) }

def take (u : Users) (i : Nat) : Users := { u with pending := u.pending.eraseIdx i }

def All (u : Users) (p : Snapshot → Prop) (q : Transaction → Prop) : Prop :=
  (∀ s ∈ u.snapshots, p s) ∧ ∀ t ∈ u.pending, q t

variable {u : Users} {p : Snapshot → Prop} {q : Transaction → Prop} {fs : FileSystem} {log : Place}

theorem All.mono {p' : Snapshot → Prop} {q' : Transaction → Prop} (h : u.All p q)
    (hp : ∀ s, p s → p' s) (hq : ∀ t, q t → q' t) : u.All p' q' :=
  ⟨fun s hs ↦ hp s (h.1 s hs), fun t ht ↦ hq t (h.2 t ht)⟩

theorem All.take (h : u.All p q) (i : Nat) : (u.take i).All p q :=
  ⟨h.1, fun t ht ↦ h.2 t (List.mem_of_mem_eraseIdx ht)⟩

theorem All.step (h : u.All p q) (e : Use)
    (hload : ∀ root requested, e = .build root requested → Log.place? fs root = some log →
      ∀ s, Snapshot.load fs root requested = .ok s → p s)
    (hstart : ∀ s timestamp, p s → q { snapshot := s, timestamp })
    (hstage : ∀ i change, e = .stage i change → ∀ t, q t → q (t.stage change)) :
    (u.step fs log e).All p q := by
  cases e with
  | build root requested =>
    simp only [Users.step]
    split
    · rename_i hp
      split
      · rename_i s hs
        refine ⟨?_, h.2⟩
        intro s' hs'
        rcases List.mem_append.1 hs' with hs' | hs'
        · exact h.1 s' hs'
        · rw [List.mem_singleton.1 hs']
          exact hload root requested rfl hp s hs
      · exact h
    · exact h
  | start i timestamp =>
    simp only [Users.step]
    split
    · exact h
    · rename_i s hs
      split
      · rename_i t ht
        refine ⟨h.1, ?_⟩
        intro t' ht'
        rcases List.mem_append.1 ht' with ht' | ht'
        · exact h.2 t' ht'
        · rw [List.mem_singleton.1 ht', Transaction.start_eq_ok ht]
          exact hstart s timestamp (h.1 s (List.mem_of_getElem? hs))
      · exact h
  | stage i change =>
    refine ⟨h.1, ?_⟩
    intro t ht
    obtain ⟨j, hj⟩ := List.mem_iff_getElem?.1 ht
    simp only [Users.step, List.getElem?_modify] at hj
    obtain ⟨t', ht', rfl⟩ := Option.map_eq_some_iff.1 hj
    have hq := h.2 t' (List.mem_of_getElem? ht')
    split
    · exact hstage i change rfl t' hq
    · exact hq

end Users

theorem Transaction.stage_snapshot (t : Transaction) (change : Staging) :
    (t.stage change).snapshot = t.snapshot := by
  cases change <;> rfl

/-- An attempt to commit, made on some state of the file system. -/
structure Trial where
  transaction : Transaction
  txnId : String
  before : FileSystem

namespace Trial

def result (t : Trial) : Outcome Response := (t.transaction.commit t.txnId t.before).1.result

def after (t : Trial) : FileSystem := (t.transaction.commit t.txnId t.before).2

def committed? (t : Trial) : Option Version :=
  match t.result with
  | .ok (.committed v) => some v
  | _ => none

end Trial

/-- Users at one table. The log lies in one directory. -/
structure Session where
  log : Place
  fs : FileSystem
  users : Users := {}
  trials : List Trial := []

namespace Session

inductive Event
  | use (u : Use)
  | commit (transaction : Nat) (txnId : String)

/-- A transaction can be committed once, whatever comes of it. -/
def after (s : Session) (i : Nat) (t : Trial) : Session :=
  { s with fs := t.after, users := s.users.take i, trials := s.trials ++ [t] }

def step (s : Session) : Event → Session
  | .use u => { s with users := s.users.step s.fs s.log u }
  | .commit i txnId =>
    match s.users.pending[i]? with
    | none => s
    | some t =>
      s.after i ⟨t, txnId, s.fs⟩

def run (s : Session) (es : List Event) : Session := es.foldl step s

/-- What an attempt on a log may have come to: an error, a conflict over a version that is taken, or
the commit after the last one, on top of just the state that the last one has left. -/
inductive Sound (log : Place) (t : Trial) : Prop
  | failed (e : Error) : t.result = .error e → Sound log t
  | conflict (v : Version) : t.transaction.snapshot.version.next? = some v →
      t.result = .ok (.conflict v) →
      Log.found? t.before log v ≠ none → Sound log t
  | committed (v : Version) : t.transaction.snapshot.version.next? = some v →
      t.result = .ok (.committed v) →
      Log.Holds t.before log t.transaction.snapshot.version →
      Snapshot.load t.before t.transaction.snapshot.root none =
        .ok t.transaction.snapshot → Sound log t

variable {log : Place} {fs : FileSystem} {m n : Version} {t : Trial}

/-- An attempt either leaves the log as it is or commits the version after the last. -/
inductive Outcomes (log : Place) (m : Version) (t : Trial) : Prop
  | kept : t.committed? = none → (∀ q, t.after.get? q = t.before.get? q) → Outcomes log m t
  | extended {v : Version} {as : List Action} : m.next? = some v →
      t.transaction.snapshot.version = m →
      t.committed? = some v → t.transaction.Commits t.txnId as →
      FileSystem.Written t.before t.after (log ++ [LogEntry.name v]) (writeActions as) →
        Outcomes log m t

theorem sound_cases (hm : Log.Holds t.before log m)
    (hs : Log.Shows t.before log t.transaction.snapshot) :
    Sound log t ∧ Outcomes log m t := by
  rcases Transaction.commit_cases hs.place t.txnId with
    ⟨e, hr, hfs⟩ | ⟨v, hv, hr, hfs, hf⟩ | ⟨v, as, hv, hr, has, hf, hw⟩
  · refine ⟨.failed e hr, .kept ?_ hfs⟩
    simp only [Trial.committed?, Trial.result, hr]
  · refine ⟨.conflict v hv hr hf, .kept ?_ fun q ↦ by rw [Trial.after, hfs]⟩
    simp only [Trial.committed?, Trial.result, hr]
  · obtain ⟨-, -, -, hlast, -⟩ := Transaction.load_advance hs.place hm hs.load hr
    obtain ⟨hnames, -, -, hreplay⟩ := (hm.load_eq_ok_iff hs.place).1 hs.load
    have hread : Snapshot.load t.before t.transaction.snapshot.root none =
        .ok t.transaction.snapshot :=
      (hm.load_eq_ok_iff hs.place).2 ⟨hnames, hlast ▸ UInt64.le_refl _, .inr ⟨rfl, hlast⟩, hreplay⟩
    refine ⟨.committed v hv hr (hlast ▸ hm) hread, .extended (hlast ▸ hv) hlast ?_ has hw⟩
    simp only [Trial.committed?, Trial.result, hr]

theorem Outcomes.grows (hm : Log.Holds t.before log m) (h : Outcomes log m t) :
    Log.Grows log t.before t.after := by
  cases h with
  | kept _ hsame => exact .same hsame
  | extended hv _ _ _ hw => exact .next hm hv hw

/-- The file of an attempt that succeeded holds just the actions of its transaction. -/
def Kept (fs : FileSystem) (log : Place) (t : Trial) : Prop :=
  ∀ v, t.committed? = some v → ∃ as, t.transaction.Commits t.txnId as ∧
    Log.found? fs log v = some (.file (writeActions as))

theorem Kept.of_grows {fs' : FileSystem} (h : Kept fs log t) (hg : Log.Grows log fs fs') :
    Kept fs' log t := by
  intro v hv
  obtain ⟨as, has, hfile⟩ := h v hv
  exact ⟨as, has, hg.found? hfile⟩

theorem Outcomes.kept_after (h : Outcomes log m t) : Kept t.after log t := by
  intro v hv
  cases h with
  | kept hnone _ =>
    rw [hnone] at hv
    cases hv
  | @extended w as _ _ hsome has hw =>
    obtain rfl : w = v := Option.some.inj (hsome.symm.trans hv)
    exact ⟨as, has, (Log.found?_written hw w).trans (if_pos rfl)⟩

structure Inv (n : Version) (s : Session) : Prop where
  holds : ∃ m, n ≤ m ∧ Log.Holds s.fs s.log m ∧
    (s.trials.filterMap Trial.committed?).map UInt64.toNat =
    List.range' (n.toNat + 1) (m.toNat - n.toNat)
  shown : s.users.All (Log.Shows s.fs s.log) fun t ↦ Log.Shows s.fs s.log t.snapshot
  sound : ∀ t ∈ s.trials, Sound s.log t
  kept : ∀ t ∈ s.trials, Kept s.fs s.log t

theorem step_log (s : Session) (e : Event) : (s.step e).log = s.log := by
  cases e with
  | use u => rfl
  | commit i txnId =>
    simp only [step]
    split <;> rfl

theorem run_log (s : Session) (es : List Event) : (s.run es).log = s.log := by
  induction es generalizing s with
  | nil => rfl
  | cons e es ih => exact (ih (s.step e)).trans (s.step_log e)

theorem inv_begin (h : Log.Holds fs log n) : Inv n { log, fs } where
  holds := by
    refine ⟨n, UInt64.le_refl n, h, ?_⟩
    rw [Nat.sub_self]
    rfl
  shown := ⟨List.forall_mem_nil _, List.forall_mem_nil _⟩
  sound := List.forall_mem_nil _
  kept := List.forall_mem_nil _

theorem Inv.after {s : Session} (h : Inv n s) (i : Nat) (ht : t.before = s.fs)
    (hs : Log.Shows s.fs s.log t.transaction.snapshot) :
    Inv n (s.after i t) ∧ Log.Grows s.log s.fs t.after := by
  obtain ⟨m, hnm, hm, hcommitted⟩ := h.holds
  rw [← ht] at hm hs
  obtain ⟨hsound, hcases⟩ := sound_cases hm hs
  have hgrows := hcases.grows hm
  have hshown := h.shown
  rw [← ht] at hshown
  refine ⟨⟨?_, ?_, ?_, ?_⟩, ht ▸ hgrows⟩
  · rw [Session.after, List.filterMap_append, List.map_append, hcommitted]
    cases hcases with
    | kept hnone hsame =>
      refine ⟨m, hnm, Log.holds_same hsame hm, ?_⟩
      rw [List.filterMap_cons_none hnone]
      exact List.append_nil _
    | @extended v as hv _ hsome _ hw =>
      have hnext := Version.next?_eq_some_iff.1 hv
      have hle := UInt64.le_iff_toNat_le.1 hnm
      refine ⟨v, UInt64.le_trans hnm (UInt64.le_of_lt (Log.lt_of_next? hv)), hm.next hv hw, ?_⟩
      have hlast : n.toNat + 1 + (m.toNat - n.toNat) = v.toNat := by omega
      have hlength : v.toNat - n.toNat = (m.toNat - n.toNat) + 1 := by omega
      rw [List.filterMap_cons_some hsome, hlength, List.range'_concat, Nat.one_mul, hlast]
      rfl
  · exact (hshown.take i).mono (fun s' hs ↦ hgrows.shows hm hs) fun t' ht' ↦ hgrows.shows hm ht'
  · intro trial htrial
    rcases List.mem_append.1 htrial with htrial | htrial
    · exact h.sound trial htrial
    · rw [List.mem_singleton.1 htrial]
      exact hsound
  · intro trial htrial
    rcases List.mem_append.1 htrial with htrial | htrial
    · exact (h.kept trial htrial).of_grows (ht ▸ hgrows)
    · rw [List.mem_singleton.1 htrial]
      exact hcases.kept_after

theorem Inv.step {s : Session} (h : Inv n s) (e : Event) :
    Inv n (s.step e) ∧ Log.Grows s.log s.fs (s.step e).fs := by
  cases e with
  | use u =>
    obtain ⟨m, hnm, hm, hcommitted⟩ := h.holds
    refine ⟨⟨⟨m, hnm, hm, hcommitted⟩, ?_, h.sound, h.kept⟩, .same fun _ ↦ rfl⟩
    refine h.shown.step u (fun root requested _ hp s' hs ↦ Log.Shows.of_load hm hp hs)
      (fun s' timestamp hs ↦ hs) ?_
    intro i change _ t ht
    rwa [t.stage_snapshot]
  | commit i txnId =>
    simp only [Session.step]
    split
    · exact ⟨h, .same fun _ ↦ rfl⟩
    · rename_i t ht
      exact h.after i rfl (h.shown.2 t (List.mem_of_getElem? ht))

theorem Inv.run {s : Session} (h : Inv n s) (es : List Event) : Inv n (s.run es) := by
  induction es generalizing s with
  | nil => exact h
  | cons e es ih => exact ih (h.step e).1

theorem Inv.persists {s : Session} (h : Inv n s) (es : List Event) :
    (∀ v node, Log.found? s.fs s.log v = some node → Log.found? (s.run es).fs s.log v = some node) ∧
      ∀ root requested snapshot, Log.place? s.fs root = some s.log →
        Snapshot.load s.fs root requested = .ok snapshot →
        Snapshot.load (s.run es).fs root (some snapshot.version) = .ok snapshot := by
  induction es generalizing s with
  | nil =>
    obtain ⟨m, -, hm, -⟩ := h.holds
    exact ⟨fun v node hf ↦ hf,
      fun root requested snapshot hp hs ↦ Log.Grows.load (.same fun _ ↦ rfl) hm hp hs⟩
  | cons e es ih =>
    obtain ⟨m, -, hm, -⟩ := h.holds
    obtain ⟨hinv, hgrows⟩ := h.step e
    obtain ⟨hfound, hload⟩ := ih hinv
    rw [s.step_log] at hfound hload
    refine ⟨fun v node hf ↦ hfound v node (hgrows.found? hf),
      fun root requested snapshot hp hs ↦ ?_⟩
    exact hload root (some snapshot.version) snapshot ((hgrows.place? root).trans hp)
      (hgrows.load hm hp hs)

/-- No update is lost. The log is the one that was there and one commit for each attempt that
succeeded, in order, and the file of that commit holds the actions of the attempt; no commit ever
changes, every attempt is sound, and a version that was loaded can be loaded again with the same
result. -/
theorem no_update_lost (h : Log.Holds fs log n) (es : List Event) :
    (∃ m, n ≤ m ∧ Log.Holds (run { log, fs } es).fs log m ∧
      ((run { log, fs } es).trials.filterMap Trial.committed?).map UInt64.toNat =
        List.range' (n.toNat + 1) (m.toNat - n.toNat)) ∧
    (∀ t ∈ (run { log, fs } es).trials, Sound log t) ∧
    (∀ t ∈ (run { log, fs } es).trials, ∀ v, t.committed? = some v →
      ∃ as, t.transaction.Commits t.txnId as ∧
        Log.found? (run { log, fs } es).fs log v = some (.file (writeActions as))) ∧
    (∀ more v node, Log.found? (run { log, fs } es).fs log v = some node →
      Log.found? (run { log, fs } (es ++ more)).fs log v = some node) ∧
    ∀ more root v snapshot, Log.place? (run { log, fs } es).fs root = some log →
      Snapshot.load (run { log, fs } es).fs root (some v) = .ok snapshot →
      Snapshot.load (run { log, fs } (es ++ more)).fs root (some v) = .ok snapshot := by
  have hinv := (inv_begin h).run es
  have hlog : (run { log, fs } es).log = log := run_log _ es
  obtain ⟨m, hnm, hm, hcommitted⟩ := hinv.holds
  have happend : ∀ more, run { log, fs } (es ++ more) = (run { log, fs } es).run more :=
    fun more ↦ List.foldl_append
  have hsound := hinv.sound
  have hkept := hinv.kept
  rw [hlog] at hm hsound hkept
  refine ⟨⟨m, hnm, hm, hcommitted⟩, hsound, hkept, ?_, ?_⟩
  · intro more v node hf
    rw [happend]
    have hfound := (hinv.persists more).1 v node
    rw [hlog] at hfound
    exact hfound hf
  · intro more root v snapshot hp hs
    obtain ⟨-, -, hv, -⟩ := (hm.load_eq_ok_iff hp).1 hs
    obtain rfl : v = snapshot.version := by simpa using hv
    rw [happend]
    refine (hinv.persists more).2 root _ snapshot ?_ hs
    rw [hlog, hp]

def rivals : List Event :=
  [.use (.build Sample.root none), .use (.start 0 7), .use (.start 0 8), .commit 0 "a",
    .commit 0 "b"]

theorem no_update_lost_sample :
    (run { log := Sample.log, fs := Sample.fs } rivals).trials.map Trial.result =
        [.ok (.committed 1), .ok (.conflict 1)] ∧
      (∀ t ∈ (run { log := Sample.log, fs := Sample.fs } rivals).trials, Sound Sample.log t) ∧
      ∃ t ∈ (run { log := Sample.log, fs := Sample.fs } rivals).trials, t.txnId = "a" ∧
        ∃ as, t.transaction.Commits "a" as ∧
          Log.found? (run { log := Sample.log, fs := Sample.fs } rivals).fs Sample.log 1 =
            some (.file (writeActions as)) := by
  obtain ⟨-, hsound, hkept, -⟩ := no_update_lost Sample.holds rivals
  refine ⟨by decide +kernel, hsound, ?_⟩
  have hfirst : ((run { log := Sample.log, fs := Sample.fs } rivals).trials[0]?.any fun t ↦
      t.txnId = "a" ∧ t.committed? = some 1) = true := by decide +kernel
  obtain ⟨t, ht, hcommitted⟩ := (Option.any_eq_true _ _).1 hfirst
  obtain ⟨hid, hversion⟩ := of_decide_eq_true hcommitted
  have hmem := List.mem_of_getElem? ht
  obtain ⟨as, has, hfile⟩ := hkept t hmem 1 hversion
  exact ⟨t, hmem, hid, as, hid ▸ has, hfile⟩

end Session

end TableLog
