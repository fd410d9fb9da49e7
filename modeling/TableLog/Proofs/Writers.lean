import TableLog.Proofs.RowIds

namespace TableLog

/-- Someone who has created a commit file: the stream that belongs into it,
and the bytes that are still to come. -/
structure Writer where
  transaction : Transaction
  txnId : String
  place : Place
  items : List (Outcome Action)
  todo : Bytes

namespace Writer

def actions (w : Writer) : List Action := Results.actions w.items

def failure (w : Writer) : Option Error := Results.failure w.items

def granted (w : Writer) : List IdRange :=
  Add.granted (w.transaction.stagedAdds 0) (w.actions.filterMap Action.add?)

/-- Through with the stream but for the end of its last line, and the stream does not fail. -/
def Safe (w : Writer) : Prop := w.failure = none ∧ w.todo.length ≤ 1

def advance (w : Writer) (count : Nat) : Writer := { w with todo := w.todo.drop count }

def begin (t : Transaction) (txnId : String) (place : Place)
    (items : List (Outcome Action)) : Writer :=
  { transaction := t, txnId, place, items, todo := writeActions (Results.actions items) }

instance (w : Writer) : Decidable w.Safe := inferInstanceAs (Decidable (_ ∧ _))

theorem Safe.advance {w : Writer} (h : w.Safe) (count : Nat) : (w.advance count).Safe := by
  refine ⟨h.1, ?_⟩
  have hle := h.2
  simp only [Writer.advance, List.length_drop]
  omega

end Writer

/-- A table at which many write at once. Each version has at most one
writer, who stays when the commit is done. -/
structure Store where
  log : Place
  /-- The table as it was before the first step. -/
  origin : FileSystem
  fs : FileSystem
  users : Users := {}
  writers : Version → Option Writer := fun _ ↦ none

namespace Store

inductive Event
  | use (u : Use)
  | create (transaction : Nat) (txnId : String)
  | append (version : Version) (count : Nat)
  | remove (version : Version)

def start (log : Place) (fs : FileSystem) : Store := { log, origin := fs, fs }

def put (s : Store) (fs : FileSystem) (v : Version) (w : Option Writer) : Store :=
  { s with fs, writers := fun u ↦ if u = v then w else s.writers u }

@[simp] theorem writers_put (s : Store) (fs : FileSystem) (v : Version) (w : Option Writer) :
    (s.put fs v w).writers v = w := if_pos rfl

theorem writers_put_ne (s : Store) (fs : FileSystem) {u v : Version} (w : Option Writer)
    (h : u ≠ v) :
    (s.put fs v w).writers u = s.writers u := if_neg h

def create (s : Store) (t : Transaction) (txnId : String) : Store :=
  match (t.propose txnId).result with
  | .error _ => s
  | .ok p =>
    match s.fs.claim p with
    | (.ok (some place), fs) => s.put fs p.version (some (.begin t txnId place p.actions.items))
    | (_, fs) => { s with fs }

def step (s : Store) : Event → Store
  | .use u => { s with users := s.users.step s.fs s.log u }
  | .create i txnId =>
    match s.users.pending[i]? with
    | none => s
    | some t => { s with users := s.users.take i }.create t txnId
  | .append v count =>
    match s.writers v with
    | none => s
    | some w => s.put (s.fs.append w.place (w.todo.take count)) v (some (w.advance count))
  | .remove v =>
    match s.writers v with
    | none => s
    | some w => if w.failure ≠ none ∧ w.todo = [] then s.put (s.fs.unset w.place) v none else s

def run (s : Store) (es : List Event) : Store := es.foldl step s

/-- The complete commit of a version: the stream of its writer, or
else what was there from the start. -/
def sequence (s : Store) (v : Version) : List (Outcome Action) :=
  match s.writers v with
  | some w => w.items
  | none => Log.commitItems s.origin s.log v

def sequences (s : Store) (v : Version) : List (Outcome Action) :=
  (List.range (v.toNat + 1)).flatMap fun n ↦ s.sequence (UInt64.ofNat n)

end Store

open FileSystem (Written SameDirectories written_append)

/-- How far a writer has come with the commit of a version. -/
structure Writer.Writes (w : Writer) (log : Place) (origin fs : FileSystem)
    (v : Version) : Prop where
  place : w.place = log ++ [LogEntry.name v]
  fresh : Log.found? origin log v = none
  proposed : ∃ p, (w.transaction.propose w.txnId).result = .ok p ∧ p.version = v ∧
    p.actions.items = w.items
  partly : ∃ bs, Log.found? fs log v = some (.file bs) ∧ bs ++ w.todo = writeActions w.actions

namespace Writer.Writes

variable {w : Writer} {log : Place} {origin fs : FileSystem} {v : Version}

theorem next (h : w.Writes log origin fs v) : w.transaction.snapshot.version.next? = some v := by
  obtain ⟨p, hp, rfl, -⟩ := h.proposed
  obtain ⟨_, _, _, _, hprepare, -⟩ := Transaction.propose_eq_ok hp
  exact (Transaction.prepare_eq_ok hprepare).1

theorem items_eq (hw : w.failure = none) : w.items = w.actions.map .ok :=
  Results.eq_ok_of_failure hw

theorem commits (h : w.Writes log origin fs v) (hw : w.failure = none) :
    w.transaction.Commits w.txnId w.actions := by
  obtain ⟨p, hp, -, hitems⟩ := h.proposed
  exact ⟨p, hp, hitems.trans (items_eq hw)⟩

theorem commitItems_eq_iff (h : w.Writes log origin fs v) (hw : w.failure = none) :
    Log.commitItems fs log v = w.items ↔ w.Safe := by
  obtain ⟨bs, hfile, hbs⟩ := h.partly
  have hcanonical : ∀ a ∈ w.actions, a.Canonical :=
    fun a ha ↦ Action.canonical_of_keepsTable ((h.commits hw).keepsTable a ha)
  rw [Log.commitItems_file hfile, items_eq hw, readActions_eq_ok_iff hcanonical hbs]
  exact ⟨fun hle ↦ ⟨hw, hle⟩, fun hsafe ↦ hsafe.2⟩

end Writer.Writes

namespace Store

/-- What holds at every point: each commit file is either part of a
stream or has been there from the start. -/
structure Inv (s : Store) : Prop where
  writes : ∀ v w, s.writers v = some w → w.Writes s.log s.origin s.fs v
  kept : ∀ v, s.writers v = none → Log.found? s.fs s.log v = Log.found? s.origin s.log v
  shown : s.users.All (fun x ↦ Log.place? s.fs x.root = some s.log)
    fun t ↦ Log.place? s.fs t.snapshot.root = some s.log

variable {s : Store} {fs : FileSystem} {v : Version} {w : Writer} {t : Transaction} {txnId : String}

theorem inv_start (log : Place) (fs : FileSystem) : Inv (start log fs) where
  writes _ _ h := nomatch h
  kept _ _ := rfl
  shown := ⟨List.forall_mem_nil _, List.forall_mem_nil _⟩

/-- What has to be shown when no more than the commit of one version changes. -/
theorem Inv.put (h : Inv s) {x : Option Writer}
    (hothers : ∀ q, q ≠ s.log ++ [LogEntry.name v] → fs.get? q = s.fs.get? q)
    (hn : Log.found? s.fs s.log v ≠ some .directory)
    (hwrites : ∀ w, x = some w → w.Writes s.log s.origin fs v)
    (hkept : x = none → Log.found? fs s.log v = none ∧ Log.found? s.origin s.log v = none) :
    Inv (s.put fs v x) where
  writes u w hw := by
    simp only [Store.put] at hw ⊢
    split at hw
    · rename_i hu
      rw [hu]
      exact hwrites w hw
    · rename_i hu
      obtain ⟨hplace, hfresh, hproposed, hpartly⟩ := h.writes u w hw
      refine ⟨hplace, hfresh, hproposed, ?_⟩
      rwa [Log.found?, hothers _ (Log.place_ne hu)]
  kept u hu := by
    simp only [Store.put] at hu ⊢
    split at hu
    · rename_i he
      obtain ⟨hnone, horigin⟩ := hkept hu
      rw [he, hnone, horigin]
    · rename_i hne
      rw [Log.found?, hothers _ (Log.place_ne hne)]
      exact h.kept u hu
  shown := by
    have hn' : Log.found? fs s.log v ≠ some .directory := by
      cases x with
      | none => simp [(hkept rfl).1]
      | some w =>
        obtain ⟨bs, hbs, -⟩ := (hwrites w rfl).partly
        simp [hbs]
    have hplace := Log.place?_congr (FileSystem.sameDirectories_of_others hothers hn hn')
    refine h.shown.mono ?_ ?_
    · intro y hy
      exact (hplace y.root).symm.trans hy
    · intro y hy
      exact (hplace y.snapshot.root).symm.trans hy

inductive Moves (s : Store) : Event → Store → Prop
  | idle (e : Event) : Moves s e s
  | used (u : Use) : Moves s (.use u) { s with users := s.users.step s.fs s.log u }
  | rejected (i : Nat) (txnId : String) :
      Moves s (.create i txnId) { s with users := s.users.take i }
  | created {i : Nat} {txnId : String} {t : Transaction} {p : Proposal} :
      s.users.pending[i]? = some t → (t.propose txnId).result = .ok p →
      Log.found? s.fs s.log p.version = none →
      Moves s (.create i txnId)
        ({ s with users := s.users.take i }.put
          (s.fs.set (s.log ++ [LogEntry.name p.version]) (.file [])) p.version
          (some (.begin t txnId (s.log ++ [LogEntry.name p.version]) p.actions.items)))
  | appended {v : Version} {w : Writer} (count : Nat) : s.writers v = some w →
      Moves s (.append v count)
      (s.put (s.fs.append w.place (w.todo.take count)) v (some (w.advance count)))
  | removed {v : Version} {w : Writer} : s.writers v = some w → w.failure ≠ none →
      Moves s (.remove v) (s.put (s.fs.unset w.place) v none)

theorem Inv.moves_create (h : Inv s) {i : Nat} (ht : s.users.pending[i]? = some t)
    (txnId : String) :
    Moves s (.create i txnId) ({ s with users := s.users.take i }.create t txnId) := by
  have hp := h.shown.2 t (List.mem_of_getElem? ht)
  rw [create]
  cases hpropose : (t.propose txnId).result with
  | error e => exact .rejected i txnId
  | ok p =>
    obtain ⟨_, _, _, _, -, -, -, hlog, -⟩ := Transaction.propose_eq_ok hpropose
    rcases FileSystem.claim_cases hp hlog with ⟨e, hc⟩ | ⟨hc, -⟩ | ⟨hc, hf⟩
    · simp only [hc]
      exact .rejected i txnId
    · simp only [hc]
      exact .rejected i txnId
    · simp only [hc]
      exact .created ht hpropose hf

theorem Inv.moves (h : Inv s) (e : Event) : Moves s e (s.step e) := by
  cases e with
  | use u => exact .used u
  | create i txnId =>
    simp only [Store.step]
    split
    · exact .idle _
    · rename_i t ht
      exact h.moves_create ht txnId
  | append v count =>
    simp only [Store.step]
    split
    · exact .idle _
    · rename_i w hw
      exact .appended count hw
  | remove v =>
    simp only [Store.step]
    split
    · exact .idle _
    · rename_i w hw
      split
      · rename_i hfailed
        exact .removed hw hfailed.1
      · exact .idle _

theorem Inv.free (h : Inv s) (hf : Log.found? s.fs s.log v = none) :
    s.writers v = none ∧ Log.found? s.origin s.log v = none := by
  cases hw : s.writers v with
  | none => exact ⟨rfl, (h.kept v hw).symm.trans hf⟩
  | some w =>
    obtain ⟨bs, hbs, -⟩ := (h.writes v w hw).partly
    rw [hf] at hbs
    cases hbs

theorem Inv.written (h : Inv s) (hw : s.writers v = some w) (count : Nat) :
    ∃ bs, Log.found? s.fs s.log v = some (.file bs) ∧
      Written s.fs (s.fs.append w.place (w.todo.take count)) (s.log ++ [LogEntry.name v])
        (bs ++ w.todo.take count) ∧
      (bs ++ w.todo.take count) ++ (w.advance count).todo = writeActions w.actions := by
  obtain ⟨hplace, -, -, bs, hbs, htodo⟩ := h.writes v w hw
  refine ⟨bs, hbs, ?_, ?_⟩
  · rw [hplace]
    exact written_append hbs (by simp) _
  · rw [List.append_assoc, Writer.advance, List.take_append_drop, htodo]

theorem get?_unset_place (fs : FileSystem) (log : Place) (v : Version) (q : Place) :
    (fs.unset (log ++ [LogEntry.name v])).get? q =
      if q = log ++ [LogEntry.name v] then none else fs.get? q := by
  rw [FileSystem.get?_unset]
  by_cases hq : q = []
  · simp [hq]
  · rw [if_neg hq]

theorem Inv.step (h : Inv s) (e : Event) : Inv (s.step e) := by
  have hmoves := h.moves e
  generalize s.step e = s' at hmoves
  cases hmoves with
  | idle => exact h
  | used u =>
    refine ⟨h.writes, h.kept, h.shown.step u ?_ (fun x timestamp hx ↦ hx) ?_⟩
    · intro root requested _ hp x hx
      obtain ⟨_, _, -, -, hreplay⟩ := Snapshot.load_eq_ok_iff.1 hx
      rwa [(Snapshot.replay_version hreplay).1]
    · intro i change _ t ht
      rwa [t.stage_snapshot]
  | rejected i txnId => exact ⟨h.writes, h.kept, h.shown.take i⟩
  | @created i txnId t p ht hpropose hf =>
    have htaken : Inv { s with users := s.users.take i } := ⟨h.writes, h.kept, h.shown.take i⟩
    have hw := Log.written_place s.fs s.log p.version []
    refine htaken.put (fun q hq ↦ hw.others hq) (by simp [hf]) ?_ nofun
    intro w he
    cases he
    exact ⟨rfl, (h.free hf).2, ⟨p, hpropose, rfl, rfl⟩, [], hw.get?, rfl⟩
  | @appended v w count hw =>
    obtain ⟨bs, hbs, hwritten, htodo⟩ := h.written hw count
    obtain ⟨hplace, hfresh, hproposed, -⟩ := h.writes v w hw
    refine h.put (fun q hq ↦ hwritten.others hq) (by simp [hbs]) ?_ nofun
    intro w' he
    cases he
    exact ⟨hplace, hfresh, hproposed, _, hwritten.get?, htodo⟩
  | @removed v w hw _ =>
    obtain ⟨hplace, hfresh, -, bs, hbs, -⟩ := h.writes v w hw
    rw [hplace]
    refine h.put ?_ (by simp [hbs]) ?_ fun _ ↦ ⟨?_, hfresh⟩
    · intro q hq
      rw [get?_unset_place, if_neg hq]
    · intro w' hw'
      cases hw'
    · rw [Log.found?, get?_unset_place, if_pos rfl]

theorem Inv.step_log (h : Inv s) (e : Event) : (s.step e).log = s.log := by
  have hmoves := h.moves e
  generalize s.step e = s' at hmoves
  cases hmoves <;> rfl

theorem Inv.run_log (h : Inv s) (es : List Event) : (s.run es).log = s.log := by
  induction es generalizing s with
  | nil => rfl
  | cons e es ih => exact (ih (h.step e)).trans (h.step_log e)

theorem Inv.run (h : Inv s) (es : List Event) : Inv (s.run es) := by
  induction es generalizing s with
  | nil => exact h
  | cons e es ih => exact ih (h.step e)

/-- A writer whom nobody disturbs does what a commit does. -/
theorem run_undisturbed (h : Inv s) {i : Nat} (ht : s.users.pending[i]? = some t)
    (hv : t.snapshot.version.next? = some v) (hw : s.writers v = none) (txnId : String) :
    ∃ count, ∀ q, (s.run [.create i txnId, .append v count, .remove v]).fs.get? q =
      (t.commit txnId s.fs).2.get? q := by
  have hp := h.shown.2 t (List.mem_of_getElem? ht)
  have hcreate : s.step (.create i txnId) = { s with users := s.users.take i }.create t txnId := by
    simp only [Store.step, ht]
  rw [Transaction.commit]
  simp only [run, List.foldl_cons, List.foldl_nil, hcreate, create]
  cases hpropose : (t.propose txnId).result with
  | error e => exact ⟨0, fun q ↦ by simp only [Store.step, hw]⟩
  | ok p =>
    obtain ⟨_, _, _, _, hprepare, -, -, hlog, -⟩ := Transaction.propose_eq_ok hpropose
    obtain rfl : p.version = v := by
      have hnext := (Transaction.prepare_eq_ok hprepare).1
      rw [hv] at hnext
      exact (Option.some.inj hnext).symm
    rcases FileSystem.claim_cases hp hlog with ⟨e, hc⟩ | ⟨hc, -⟩ | ⟨hc, hf⟩
    · exact ⟨0, fun q ↦ by simp only [hc, Store.step, hw, FileSystem.commit]⟩
    · exact ⟨0, fun q ↦ by simp only [hc, Store.step, hw, FileSystem.commit]⟩
    · have hall := (Log.written_place s.fs s.log p.version []).append (by simp)
        (writeActions (Results.actions p.actions.items))
      rw [List.nil_append] at hall
      refine ⟨(writeActions (Results.actions p.actions.items)).length, fun q ↦ ?_⟩
      simp only [hc, Store.step, put, Writer.begin, Writer.advance, Writer.failure, if_true,
        List.take_length, List.drop_length]
      rcases FileSystem.commit_of_claim hc (by simp) hf with ⟨e, hr, -, hfs⟩ | ⟨hr, -, hcommit⟩
      · simp only [hr, hfs]
        exact hall.get?_unset (by simp) hf q
      · simp only [hr]
        exact (hall q).trans (hcommit q).symm

end Store

end TableLog
