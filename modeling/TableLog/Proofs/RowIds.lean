import TableLog.Proofs.Session

namespace TableLog

/-- Whatever turn it is, the source yields the same. -/
def Source.Reiterable (s : Source) : Prop :=
  ∀ m n, (s.traverse m).inline.items = (s.traverse n).inline.items

theorem Source.reiterable_actions (as : List Action) : (Source.actions as).Reiterable :=
  fun _ _ ↦ rfl

def Staging.Reiterable : Staging → Prop
  | .addFiles s => s.Reiterable
  | _ => True

namespace Snapshot

variable {s : Snapshot}

theorem highWaterMark_congr {s' : Snapshot}
    (h : s'.domains.get? HighWaterMark.domain = s.domains.get? HighWaterMark.domain) :
    s'.highWaterMark = s.highWaterMark := by
  rw [highWaterMark, storedHighWaterMark, decoded, h, highWaterMark, storedHighWaterMark, decoded]

theorem highWaterMark_of_encode {mark : Int64}
    (h : s.domains.get? HighWaterMark.domain = some (HighWaterMark.encode ⟨mark⟩)) :
    s.highWaterMark = .ok mark := by
  rw [highWaterMark, storedHighWaterMark, decoded, h]
  simp only [HighWaterMark.decode?_encode]
  rfl

end Snapshot

namespace Transaction

def Reiterable (t : Transaction) : Prop := ∀ s ∈ t.added, s.Reiterable

variable {t : Transaction} {txnId : String} {v : Version} {adds written : List Add}
  {domains : List DomainMetadata} {mark : Option DomainMetadata} {as : List Action}

theorem Reiterable.addedItems (h : t.Reiterable) (m n : Nat) : t.addedItems m = t.addedItems n := by
  rw [Transaction.addedItems, Transaction.addedItems, List.flatMap_def, List.flatMap_def]
  exact congrArg List.flatten (List.map_congr_left fun s hs ↦ h s hs m n)

theorem Reiterable.stage (h : t.Reiterable) {change : Staging} (hc : change.Reiterable) :
    (t.stage change).Reiterable := by
  cases change with
  | addFiles s =>
    intro s' hs'
    rcases List.mem_append.1 hs' with hs' | hs'
    · exact h s' hs'
    · rw [List.mem_singleton.1 hs']
      exact hc
  | _ => exact h

theorem stagedAdds_of_items {turn : Nat} (h : t.addedItems turn = adds.map (.ok ∘ .add)) :
    t.stagedAdds turn = adds := by
  have hok : t.addedItems turn = (adds.map Action.add).map .ok := by rw [h, List.map_map]
  rw [stagedAdds, hok, Results.actions_ok, List.filterMap_map]
  exact List.filterMap_some

theorem granted_self (as : List Add) : Add.granted as as = [] := by
  induction as with
  | nil => rfl
  | cons a as ih =>
    have hnone : Add.granted? a a = none := by
      rw [Add.granted?]
      cases a.baseRowId <;> rfl
    have hcons : Add.granted (a :: as) (a :: as) = Add.granted as as :=
      List.filterMap_cons_none hnone
    rw [hcons, ih]

theorem Composed.rowIds (h : t.Composed txnId v adds written domains mark as) (hr : t.Reiterable)
    {low : Int64} (hlow : t.snapshot.highWaterMark = .ok low) :
    ∃ high, (t.snapshot.advance v as).highWaterMark = .ok high ∧ low.toInt ≤ high.toInt ∧
      List.Forall₂ (fun a b ↦ b = a ∨ a.CompletedBy b) adds written ∧
      (∀ r ∈ Add.granted adds written, r.Between low.toInt high.toInt) ∧
      (Add.granted adds written).Pairwise IdRange.Disjoint := by
  have hmark := h.get?_mark
  cases h.tracked with
  | off _ =>
    refine ⟨low, ?_, Int.le_refl _, ?_, ?_, ?_⟩
    · rw [Snapshot.highWaterMark_congr hmark, hlow]
    · exact List.forall₂_same.2 fun _ _ ↦ .inl rfl
    · rw [granted_self]
      exact List.forall_mem_nil _
    · rw [granted_self]
      exact .nil
  | @on low' high commitVersion g g' first _ _ _ hread _ hstart hassigned hfirst hcounts hsum =>
    obtain rfl : low = low' := Except.ok.inj (hlow.symm.trans hread)
    obtain rfl : adds = first := by
      rw [← stagedAdds_of_items hfirst, ← stagedAdds_of_items h.staged, stagedAdds, stagedAdds,
        hr.addedItems 0 1]
    have hnext := RowIdAssigner.start_eq_ok hstart
    have hlast := hassigned.next_le (Add.records_nonneg hcounts)
    obtain ⟨hle, hbetween, hdisjoint⟩ := hassigned.granted
    refine ⟨high, ?_, by omega, hassigned.completed.imp fun _ _ hab ↦ .inr hab, ?_, hdisjoint⟩
    · by_cases he : high = low
      · rw [if_pos he] at hmark
        rw [Snapshot.highWaterMark_congr hmark, hlow, he]
      · rw [if_neg he] at hmark
        exact Snapshot.highWaterMark_of_encode hmark
    · intro r hr
      exact (hbetween r hr).mono (by omega) (by omega)

/-- What a commit does to the row ids: its files are the staged ones, with
ids between the marks before and after. -/
theorem Commits.rowIds (h : t.Commits txnId as) (hr : t.Reiterable) {low : Int64}
    (hlow : t.snapshot.highWaterMark = .ok low) :
    ∃ high, (t.snapshot.advance v as).highWaterMark = .ok high ∧ low.toInt ≤ high.toInt ∧
      List.Forall₂ (fun a b ↦ b = a ∨ a.CompletedBy b) (t.stagedAdds 0) (as.filterMap Action.add?) ∧
      (∀ r ∈ Add.granted (t.stagedAdds 0) (as.filterMap Action.add?),
        r.Between low.toInt high.toInt) ∧
      (Add.granted (t.stagedAdds 0) (as.filterMap Action.add?)).Pairwise IdRange.Disjoint := by
  obtain ⟨v', adds, written, domains, mark, hcomposed⟩ := h.composed
  have hstaged : t.stagedAdds 0 = adds := by
    apply stagedAdds_of_items
    rw [hr.addedItems 0 1, hcomposed.staged]
  rw [hstaged, hcomposed.writtenAdds]
  exact hcomposed.rowIds hr hlow

end Transaction

def Log.adds (fs : FileSystem) (log : Place) (v : Version) : List Add :=
  (Results.actions (Log.commitItems fs log v)).filterMap Action.add?

namespace Trial

def staged (t : Trial) : List Add := t.transaction.stagedAdds 0

def written (log : Place) (t : Trial) : List Add :=
  match t.committed? with
  | some v => Log.adds t.after log v
  | none => []

def granted (log : Place) (t : Trial) : List IdRange := Add.granted t.staged (t.written log)

/-- What an attempt that committed a version did to the row ids of the table. -/
structure Numbers (t : Trial) (fs : FileSystem) (root : Location) (log : Place) (u v : Version)
    (low high : Int64) : Prop where
  next : u.next? = some v
  before : ∃ s, Snapshot.load fs root (some u) = .ok s ∧ s.highWaterMark = .ok low
  after : ∃ s, Snapshot.load fs root (some v) = .ok s ∧ s.highWaterMark = .ok high
  written : Log.adds fs log v = t.written log
  completed : List.Forall₂ (fun a b ↦ b = a ∨ a.CompletedBy b) t.staged (t.written log)
  le : low.toInt ≤ high.toInt
  granted : ∀ r ∈ t.granted log, r.Between low.toInt high.toInt

end Trial

namespace Log

variable {fs fs' : FileSystem} {log : Place} {root : Location} {m u v : Version}
  {low high : Int64} {t : Trial} {s s' : Snapshot} {requested : Option Version}

theorem Holds.load_version (h : Holds fs log m) (hp : place? fs root = some log)
    (hs : Snapshot.load fs root (some v) = .ok s) : s.version = v ∧ v ≤ m := by
  obtain ⟨-, hle, hv, -⟩ := (h.load_eq_ok_iff hp).1 hs
  obtain rfl : v = s.version := by simpa using hv
  exact ⟨rfl, hle⟩

theorem load_same (h : ∀ q, fs'.get? q = fs.get? q) (hn : Holds fs log m)
    (hp : place? fs root = some log) (hs : Snapshot.load fs root requested = .ok s) :
    Snapshot.load fs' root requested = .ok s := by
  have hgrows : Grows log fs fs' := .same h
  obtain ⟨hnames, hle, hreq, hreplay⟩ := (hn.load_eq_ok_iff hp).1 hs
  have hitems : items fs log s.version = items fs' log s.version := items_congr fun u _ ↦ (h _).symm
  refine ((holds_same h hn).load_eq_ok_iff ((hgrows.place? root).trans hp)).2 ⟨?_, hle, hreq,
    hitems ▸ hreplay⟩
  intro n x hx
  exact hnames n x (by rwa [← h])

theorem Holds.eq_under (h : Holds fs log m) (hp : place? fs root = some log)
    (hs : Snapshot.load fs root none = .ok s) (hs' : Shows fs log s') (hv : s'.version = m) :
    s' = s.under s'.root := by
  obtain ⟨-, -, hlast, hreplay⟩ := (h.load_eq_ok_iff hp).1 hs
  obtain ⟨-, -, -, hreplay'⟩ := (h.load_eq_ok_iff hs'.place).1 hs'.load
  have hm : s.version = m := by simpa using hlast
  rw [hm] at hreplay
  rw [hv] at hreplay'
  exact Except.ok.inj (hreplay'.symm.trans (Snapshot.replay_root hreplay s'.root))

theorem Holds.domains_eq (h : Holds fs log m) (hp : place? fs root = some log)
    (hs : Snapshot.load fs root none = .ok s) (hs' : Shows fs log s') (hv : s'.version = m) :
    s'.domains = s.domains := by
  rw [h.eq_under hp hs hs' hv]
  rfl

theorem Grows.numbers (h : Grows log fs fs') (hm : Holds fs log m)
    (hp : Log.place? fs root = some log) (hn : t.Numbers fs root log u v low high) :
    t.Numbers fs' root log u v low high := by
  obtain ⟨s, hs, hlow⟩ := hn.before
  obtain ⟨s', hs', hhigh⟩ := hn.after
  obtain ⟨rfl, -⟩ := hm.load_version hp hs
  obtain ⟨rfl, hle⟩ := hm.load_version hp hs'
  obtain ⟨bs, hbs⟩ := hm.present _ hle
  refine ⟨hn.next, ⟨s, h.load hm hp hs, hlow⟩, ⟨s', h.load hm hp hs', hhigh⟩, ?_, hn.completed,
    hn.le, hn.granted⟩
  rw [← hn.written, adds, adds, commitItems_congr (hbs.trans (h.found? hbs).symm)]

end Log

/-- A commit on the last version gives out ids behind the mark of that
version and moves the mark behind them. -/
theorem Trial.numbers {t : Trial} {root : Location} {log : Place} {m v : Version} {mark : Int64}
    {snapshot : Snapshot} {as : List Action} (hm : Log.Holds t.before log m)
    (hp : Log.place? t.before root = some log)
    (hload : Snapshot.load t.before root none = .ok snapshot)
    (hmark : snapshot.highWaterMark = .ok mark) (hs : Log.Shows t.before log t.transaction.snapshot)
    (hr : t.transaction.Reiterable) (hv : m.next? = some v)
    (hlast : t.transaction.snapshot.version = m) (hsome : t.committed? = some v)
    (has : t.transaction.Commits t.txnId as)
    (hw : FileSystem.Written t.before t.after (log ++ [LogEntry.name v]) (writeActions as)) :
    ∃ high, (∃ s, Snapshot.load t.after root none = .ok s ∧ s.highWaterMark = .ok high) ∧
      t.Numbers t.after root log m v mark high ∧ (t.granted log).Pairwise IdRange.Disjoint := by
  have hgrows : Log.Grows log t.before t.after := .next hm hv hw
  have hversion : snapshot.version = m := by simpa using ((hm.load_eq_ok_iff hp).1 hload).2.2.1
  have hdomains := hm.domains_eq hp hload hs hlast
  have hlow : t.transaction.snapshot.highWaterMark = .ok mark := by
    rw [← hmark]
    exact Snapshot.highWaterMark_congr (by rw [hdomains])
  obtain ⟨high, hhigh, hle, hcompleted, hbetween, hdistinct⟩ := has.rowIds (v := v) hr hlow
  have hload' := hm.load_next hv hw has.readActions_write has.keepsTable hp hload hversion
  have hhigh' : (snapshot.advance v as).highWaterMark = .ok high := by
    rw [← hhigh]
    apply Snapshot.highWaterMark_congr
    rw [Snapshot.advance, Snapshot.advance, hdomains]
  have hp' : Log.place? t.after root = some log := (hgrows.place? root).trans hp
  have hnew : Log.adds t.after log v = as.filterMap Action.add? := by
    have hfile : Log.found? t.after log v = some (.file (writeActions as)) := hw.get?
    rw [Log.adds, Log.commitItems_file hfile, has.readActions_write, Results.actions_ok]
  have hwritten : t.written log = as.filterMap Action.add? := by
    simp only [Trial.written, hsome]
    exact hnew
  refine ⟨high, ⟨_, hload', hhigh'⟩, ⟨hv, ⟨snapshot, ?_, hmark⟩, ⟨_, ?_, hhigh'⟩, ?_, ?_, hle, ?_⟩,
    ?_⟩
  · exact hversion ▸ hgrows.load hm hp hload
  · exact Log.Grows.load (.same fun _ ↦ rfl) (hm.next hv hw) hp' hload'
  · rw [hnew, hwritten]
  · rw [hwritten]
    exact hcompleted
  · rw [Trial.granted, hwritten]
    exact hbetween
  · rw [Trial.granted, hwritten]
    exact hdistinct

namespace Session

def Event.Reiterable : Event → Prop
  | .use (.stage _ change) => change.Reiterable
  | _ => True

/-- No id is given out twice, and none lies beyond the high water mark. -/
structure Ids (root : Location) (s : Session) : Prop where
  reiterable : ∀ t ∈ s.users.pending, t.Reiterable
  mark : ∃ snapshot mark,
    Snapshot.load s.fs root none = .ok snapshot ∧ snapshot.highWaterMark = .ok mark ∧
    ∀ r ∈ s.trials.flatMap (Trial.granted s.log), ∀ id, r.Has id → id ≤ mark.toInt
  distinct : (s.trials.flatMap (Trial.granted s.log)).Pairwise IdRange.Disjoint
  numbers : ∀ t ∈ s.trials, ∀ v, t.committed? = some v →
    ∃ u low high, t.Numbers s.fs root s.log u v low high

variable {n : Version} {s : Session} {root : Location} {t : Trial}

theorem Ids.after (h : Ids root s) (hinv : Inv n s)
    (hp : Log.place? s.fs root = some s.log) (i : Nat) (ht : t.before = s.fs)
    (hs : Log.Shows s.fs s.log t.transaction.snapshot) (hr : t.transaction.Reiterable) :
    Ids root (s.after i t) := by
  obtain ⟨m, -, hm, -⟩ := hinv.holds
  obtain ⟨snapshot, mark, hload, hmark, hbelow⟩ := h.mark
  have hpending : ∀ t' ∈ (s.users.take i).pending, t'.Reiterable :=
    fun t' ht' ↦ h.reiterable t' (List.mem_of_mem_eraseIdx ht')
  have hall : (s.trials ++ [t]).flatMap (Trial.granted s.log) =
      s.trials.flatMap (Trial.granted s.log) ++ t.granted s.log := by
    rw [List.flatMap_append, List.flatMap_singleton]
  obtain ⟨-, hcases⟩ := sound_cases (ht ▸ hm) (ht ▸ hs)
  have hgrows := hcases.grows (ht ▸ hm)
  rw [ht] at hgrows
  have hnumbers : ∀ t' ∈ s.trials, ∀ v, t'.committed? = some v →
      ∃ u low high, t'.Numbers t.after root s.log u v low high := by
    intro t' ht' v hv
    obtain ⟨u, low, high, hnumbers⟩ := h.numbers t' ht' v hv
    exact ⟨u, low, high, hgrows.numbers hm hp hnumbers⟩
  cases hcases with
  | kept hnone hsame =>
    rw [ht] at hsame
    have hgranted : t.granted s.log = [] := by
      rw [Trial.granted, Trial.written, hnone, Add.granted, List.zip_nil_right]
      rfl
    rw [hgranted, List.append_nil] at hall
    refine ⟨hpending, ⟨snapshot, mark, Log.load_same hsame hm hp hload, hmark, hall ▸ hbelow⟩,
      hall ▸ h.distinct, ?_⟩
    intro t' ht' v hv
    rcases List.mem_append.1 ht' with ht' | ht'
    · exact hnumbers t' ht' v hv
    · rw [List.mem_singleton.1 ht', hnone] at hv
      cases hv
  | @extended v as hv hlast hsome has hw =>
    obtain ⟨high, ⟨s', hload', hhigh⟩, hnew, hdistinct⟩ :=
      Trial.numbers (ht ▸ hm) (ht ▸ hp) (ht ▸ hload) hmark (ht ▸ hs) hr hv hlast hsome has hw
    refine ⟨hpending, ⟨s', high, hload', hhigh, ?_⟩, ?_, ?_⟩
    · intro r hr id hid
      rw [Session.after, hall] at hr
      rcases List.mem_append.1 hr with hr | hr
      · exact Int.le_trans (hbelow r hr id hid) hnew.le
      · exact (hnew.granted r hr).le hid
    · rw [Session.after, hall]
      refine List.pairwise_append.2 ⟨h.distinct, hdistinct, ?_⟩
      intro r hr r' hr'
      exact ((hnew.granted r' hr').disjoint (hbelow r hr)).symm
    · intro t' ht' w hw'
      rcases List.mem_append.1 ht' with ht' | ht'
      · exact hnumbers t' ht' w hw'
      · rw [List.mem_singleton.1 ht', hsome] at hw'
        obtain rfl := Option.some.inj hw'
        rw [List.mem_singleton.1 ht']
        exact ⟨m, mark, high, hnew⟩

theorem ids_begin {fs : FileSystem} {log : Place} {snapshot : Snapshot} {mark : Int64}
    (hs : Snapshot.load fs root none = .ok snapshot) (hmark : snapshot.highWaterMark = .ok mark) :
    Ids root { log, fs } where
  reiterable := List.forall_mem_nil _
  mark := ⟨snapshot, mark, hs, hmark, List.forall_mem_nil _⟩
  distinct := .nil
  numbers := List.forall_mem_nil _

theorem Ids.step (h : Ids root s) (hinv : Inv n s)
    (hp : Log.place? s.fs root = some s.log) {e : Event} (he : e.Reiterable) :
    Ids root (s.step e) := by
  cases e with
  | use u =>
    have hall : s.users.All (fun _ ↦ True) Transaction.Reiterable :=
      ⟨fun _ _ ↦ trivial, h.reiterable⟩
    have hpending : ∀ t ∈ (s.users.step s.fs s.log u).pending, t.Reiterable := by
      refine (hall.step u (fun _ _ _ _ _ _ ↦ trivial) (fun _ _ _ ↦ List.forall_mem_nil _) ?_).2
      intro i change he t ht
      subst he
      exact ht.stage he
    exact ⟨hpending, h.mark, h.distinct, h.numbers⟩
  | commit i txnId =>
    simp only [Session.step]
    split
    · exact h
    · rename_i t ht
      have hmem := List.mem_of_getElem? ht
      exact h.after hinv hp i rfl (hinv.shown.2 t hmem) (h.reiterable t hmem)

theorem Ids.run (h : Ids root s) (hinv : Inv n s) (hp : Log.place? s.fs root = some s.log)
    {es : List Event} (hes : ∀ e ∈ es, e.Reiterable) : Ids root (s.run es) := by
  induction es generalizing s with
  | nil => exact h
  | cons e es ih =>
    obtain ⟨he, hes⟩ := List.forall_mem_cons.1 hes
    obtain ⟨hinv', hgrows⟩ := hinv.step e
    refine ih (h.step hinv hp he) hinv' ?_ hes
    rw [hgrows.place?, s.step_log, hp]

/-- No row id is ever given out twice. Every commit moves the mark of the version before it past
the ids that it has given out, and never back; what lay at or under that mark before, such as
ids that came with a file, stays apart. -/
theorem row_ids_distinct {log : Place} {fs : FileSystem} {snapshot : Snapshot} {mark : Int64}
    {es : List Event} (h : Log.Holds fs log n) (hp : Log.place? fs root = some log)
    (hs : Snapshot.load fs root none = .ok snapshot) (hmark : snapshot.highWaterMark = .ok mark)
    (hes : ∀ e ∈ es, e.Reiterable) :
    (∀ t ∈ (run { log, fs } es).trials, ∀ v, t.committed? = some v →
      ∃ u low high, t.Numbers (run { log, fs } es).fs root log u v low high ∧
        ∀ r ∈ t.granted log, ∀ p : IdRange, (∀ id, p.Has id → id ≤ low.toInt) → r.Disjoint p) ∧
    ((run { log, fs } es).trials.flatMap (Trial.granted log)).Pairwise IdRange.Disjoint := by
  have hids : Ids root (run { log, fs } es) := (ids_begin hs hmark).run (inv_begin h) hp hes
  have hlog : (run { log, fs } es).log = log := run_log _ es
  have hnumbers := hids.numbers
  have hdistinct := hids.distinct
  rw [hlog] at hnumbers hdistinct
  refine ⟨?_, hdistinct⟩
  intro t ht v hv
  obtain ⟨u, low, high, hn⟩ := hnumbers t ht v hv
  exact ⟨u, low, high, hn, fun r hr p hlow ↦ (hn.granted r hr).disjoint hlow⟩

def additions : List Event :=
  [.use (.build Sample.root none), .use (.start 0 7), .use (.start 0 8),
    .use (.stage 0 (.addFiles (.actions
      [.add (Sample.file "f" 5), .add { Sample.file "g" 2 with baseRowId := some (-9) }]))),
    .use (.stage 1 (.addFiles (.actions [.add (Sample.file "h" 1)]))),
    .use (.stage 0 (.addFiles (.actions [.add (Sample.file "i" 3)]))), .commit 0 "a", .commit 0 "b"]

theorem row_ids_distinct_sample :
    (run { log := Sample.log, fs := Sample.fs } additions).trials.map (Trial.granted Sample.log) =
        [[⟨0, 5⟩, ⟨5, 3⟩], []] ∧
      ((run { log := Sample.log, fs := Sample.fs } additions).trials.flatMap
        (Trial.granted Sample.log)).Pairwise IdRange.Disjoint := by
  have hmark : Sample.snapshot.highWaterMark = .ok (-1) := by decide +kernel
  have hes : ∀ e ∈ additions, e.Reiterable := by
    simp [additions, Event.Reiterable, Staging.Reiterable, Source.reiterable_actions]
  exact ⟨by decide +kernel, (row_ids_distinct Sample.holds Sample.place Sample.load hmark hes).2⟩

end Session

end TableLog
