import TableLog.Proofs.Readers

namespace TableLog

open FileSystem (Written SameDirectories)

namespace Log

variable {fs fs' : FileSystem} {dir : Place} {n v : Version} {bs : Bytes} {s : Snapshot}

theorem Shows.before (hs : Shows fs' dir s) (hn : Holds fs dir n) (hv : n.next? = some v)
    (hw : Written fs fs' (dir ++ [LogEntry.name v]) bs) (hle : s.version ≤ n) : Shows fs dir s := by
  have hp : place? fs s.root = some dir := by
    rw [place?_congr (hn.sameDirectories (lt_of_next? hv) hw)]
    exact hs.place
  obtain ⟨hnames, -, -, hreplay⟩ := ((hn.next hv hw).load_eq_ok_iff hs.place).1 hs.load
  have hitems : items fs' dir s.version = items fs dir s.version := by
    refine items_congr fun u hu ↦ hw.others (place_ne ?_)
    intro he
    subst he
    exact UInt64.lt_irrefl n (UInt64.lt_of_lt_of_le (lt_of_next? hv) (UInt64.le_trans hu hle))
  refine ⟨hp, (hn.load_eq_ok_iff hp).2 ⟨?_, hle, .inl rfl, hitems ▸ hreplay⟩⟩
  intro m x hx
  apply hnames m x
  rwa [hw.others]
  intro he
  rw [he] at hx
  cases (hn.absent v (lt_of_next? hv)).symm.trans hx

theorem Holds.le_of_shows (hn : Holds fs dir n) (hs : Shows fs dir s) : s.version ≤ n :=
  (hn.load_version hs.place hs.load).2

theorem exists_next? (h : n < v) : ∃ m, n.next? = some m ∧ m ≤ v := by
  rw [UInt64.lt_iff_toNat_lt] at h
  have hm : (UInt64.ofNat (n.toNat + 1)).toNat = n.toNat + 1 :=
    UInt64.toNat_ofNat_of_lt' (Nat.lt_of_le_of_lt h v.toNat_lt)
  refine ⟨_, Version.next?_eq_some_iff.2 hm, ?_⟩
  rw [UInt64.le_iff_toNat_le, hm]
  exact h

end Log

namespace Transaction

variable {t : Transaction} {txnId : String} {as : List Action} {fs fs' : FileSystem} {dir : Place}
  {n v : Version} {x : Snapshot} {mark : Int64}

theorem Commits.two_le_length (h : t.Commits txnId as) : 2 ≤ (writeActions as).length := by
  obtain ⟨v, adds, written, domains, mark, hcomposed⟩ := h.composed
  obtain ⟨bs, hbs⟩ :=
    Action.line_cons (.commitInfo (.new t.timestamp t.operation t.engineInfo txnId))
  rw [hcomposed.actions, writeActions_cons, hbs]
  simp only [List.length_append, List.length_cons]
  omega

theorem Commits.lowMark (h : t.Commits txnId as)
    (hmark : (t.snapshot.advance v as).highWaterMark = .ok mark) :
    ∃ low, t.snapshot.highWaterMark = .ok low := by
  obtain ⟨v, adds, written, domains, mark', hcomposed⟩ := h.composed
  have hdomain := hcomposed.get?_mark
  cases hcomposed.tracked with
  | off => exact ⟨mark, (Snapshot.highWaterMark_congr hdomain).symm.trans hmark⟩
  | on _ hread => exact ⟨_, hread⟩

theorem Commits.below (h : t.Commits txnId as) (hr : t.Reiterable) (hn : Log.Holds fs dir n)
    (hv : n.next? = some v) (hw : Written fs fs' (dir ++ [LogEntry.name v]) (writeActions as))
    (ht : Log.Shows fs dir t.snapshot) (hlast : t.snapshot.version = n) (hx : Log.Shows fs' dir x)
    (hxv : x.version = v) (hmark : x.highWaterMark = .ok mark) :
    ∃ low, t.snapshot.highWaterMark = .ok low ∧ low.toInt ≤ mark.toInt ∧
      ∀ r ∈ Add.granted (t.stagedAdds 0) (as.filterMap Action.add?), ∀ id, r.Has id →
        id ≤ mark.toInt := by
  have hload := hn.load_next hv hw h.readActions_write h.keepsTable ht.place ht.load hlast
  have hplace : Log.place? fs' t.snapshot.root = some dir := by
    rw [← Log.place?_congr (hn.sameDirectories (Log.lt_of_next? hv) hw)]
    exact ht.place
  have hdomains := (hn.next hv hw).domains_eq hplace hload hx hxv
  have hmark' : (t.snapshot.advance v as).highWaterMark = .ok mark := by
    rw [← hmark]
    exact Snapshot.highWaterMark_congr (by rw [hdomains])
  obtain ⟨low, hlow⟩ := h.lowMark hmark'
  obtain ⟨high, hhigh, hle, -, hbetween, -⟩ := h.rowIds (v := v) hr hlow
  obtain rfl : mark = high := Except.ok.inj (hmark'.symm.trans hhigh)
  exact ⟨low, hlow, hle, fun r hr id hid ↦ (hbetween r hr).le hid⟩

end Transaction

namespace Store

/-- No build comes upon a commit that is being written, and what is
staged yields the same at every turn. -/
def Event.Orderly (s : Store) : Event → Prop
  | .use (.build root requested) =>
    Log.place? s.fs root = some s.log → ∀ x, Snapshot.load s.fs root requested = .ok x →
      s.Quiet x.version
  | .use (.stage _ change) => change.Reiterable
  | _ => True

def Orderly (s : Store) : List Event → Prop
  | [] => True
  | e :: es => e.Orderly s ∧ (s.step e).Orderly es

/-- What a writer has to do with the settled table: its commit is there once
it is complete, and comes next before. -/
structure Fits (w : Writer) (fs : FileSystem) (log : Place) (n v : Version) : Prop where
  safe : w.Safe → Log.found? fs log v = some (.file (writeActions w.actions))
  torn : ¬w.Safe → n.next? = some v
  shown : Log.Shows fs log w.transaction.snapshot
  reiterable : w.transaction.Reiterable
  below : ∀ x mark, Log.Shows fs log x → x.highWaterMark = .ok mark → v ≤ x.version →
    ∀ r ∈ w.granted, ∀ id, r.Has id →
    id ≤ mark.toInt

/-- A file system with the commits that are complete and without those that are not. -/
structure Settled (s : Store) (fs : FileSystem) (n : Version) : Prop where
  holds : Log.Holds fs s.log n
  others : ∀ q, (∀ v w, s.writers v = some w → q ≠ s.log ++ [LogEntry.name v]) →
    fs.get? q = s.fs.get? q
  fits : ∀ v w, s.writers v = some w → Fits w fs s.log n v
  shown : s.users.All (Log.Shows fs s.log) fun t ↦ Log.Shows fs s.log t.snapshot ∧ t.Reiterable

variable {s : Store} {fs fs' : FileSystem} {n v : Version} {w : Writer} {x : Snapshot}
  {root : Location} {requested : Option Version}

theorem settled_start (log : Place) (h : Log.Holds fs log n) : Settled (start log fs) fs n where
  holds := h
  others _ _ := rfl
  fits _ _ hw := nomatch hw
  shown := ⟨List.forall_mem_nil _, List.forall_mem_nil _⟩

theorem Settled.found_of_none (h : Settled s fs n) (hv : s.writers v = none) :
    Log.found? fs s.log v = Log.found? s.fs s.log v := by
  refine h.others _ fun u w hu ↦ Log.place_ne ?_
  intro he
  subst he
  rw [hv] at hu
  cases hu

theorem Settled.found_of_torn (h : Settled s fs n) (hw : s.writers v = some w) (ht : ¬w.Safe) :
    Log.found? fs s.log v = none := h.holds.absent v (Log.lt_of_next? ((h.fits v w hw).torn ht))

theorem Settled.sameDirectories (h : Settled s fs n) (hinv : Inv s) : SameDirectories s.fs fs := by
  intro q
  by_cases hq : ∃ v w, s.writers v = some w ∧ q = s.log ++ [LogEntry.name v]
  · obtain ⟨v, w, hw, rfl⟩ := hq
    obtain ⟨bs, hbs, -⟩ := (hinv.writes v w hw).partly
    have hfile : s.fs.get? (s.log ++ [LogEntry.name v]) ≠ some .directory := by
      rw [Log.found?] at hbs
      simp [hbs]
    have hfile' : fs.get? (s.log ++ [LogEntry.name v]) ≠ some .directory := by
      by_cases hs : w.Safe
      · have hfound := (h.fits v w hw).safe hs
        rw [Log.found?] at hfound
        simp [hfound]
      · have hfound := h.found_of_torn hw hs
        rw [Log.found?] at hfound
        simp [hfound]
    exact ⟨fun hd ↦ absurd hd hfile, fun hd ↦ absurd hd hfile'⟩
  · rw [h.others q fun v w hw he ↦ hq ⟨v, w, hw, he⟩]

theorem Settled.commitItems_eq (h : Settled s fs n) (hinv : Inv s)
    (hq : ∀ w, s.writers v = some w → w.Safe) :
    Log.commitItems s.fs s.log v = Log.commitItems fs s.log v := by
  cases hv : s.writers v with
  | none => exact Log.commitItems_congr (h.found_of_none hv).symm
  | some w =>
    have hsafe := hq w hv
    have hwrites := hinv.writes v w hv
    rw [(hwrites.commitItems_eq_iff hsafe.1).2 hsafe,
      Log.commitItems_file ((h.fits v w hv).safe hsafe),
      (hwrites.commits hsafe.1).readActions_write, Writer.Writes.items_eq hsafe.1]

/-- Who comes upon nothing that is being written sees the settled table. -/
theorem Settled.shows (h : Settled s fs n) (hinv : Inv s) (hp : Log.place? s.fs root = some s.log)
    (hx : Snapshot.load s.fs root requested = .ok x) (hq : s.Quiet x.version) :
    Log.Shows fs s.log x := by
  obtain ⟨place, hp', -, hreaches, hreplay⟩ := Snapshot.load_eq_ok_iff.1 hx
  obtain rfl : place = s.log := Option.some.inj (hp'.symm.trans hp)
  have hle : x.version ≤ n := by
    refine UInt64.not_lt.1 fun hlt ↦ ?_
    obtain ⟨m, hm, hmx⟩ := Log.exists_next? hlt
    have habsent := h.holds.absent m (Log.lt_of_next? hm)
    cases hw : s.writers m with
    | none =>
      rw [h.found_of_none hw] at habsent
      exact hreaches.present m hmx habsent
    | some w =>
      rw [(h.fits m w hw).safe (hq m hmx w hw)] at habsent
      cases habsent
  have hnames : ∀ m y, fs.get? (s.log ++ [m]) = some y → LogEntry.ofName m ≠ .malformed := by
    intro m y hy
    by_cases hm : ∃ v w, s.writers v = some w ∧ s.log ++ [m] = s.log ++ [LogEntry.name v]
    · obtain ⟨v, w, -, he⟩ := hm
      rw [(List.cons.inj (List.append_cancel_left he)).1, LogEntry.ofName_name]
      exact nofun
    · rw [h.others _ fun v w hw he ↦ hm ⟨v, w, hw, he⟩] at hy
      exact hreaches.wellNamed m y hy
  have hitems : Log.items s.fs s.log x.version = Log.items fs s.log x.version :=
    Log.items_eq_flatMap fun u hu ↦ h.commitItems_eq hinv (hq u hu)
  have hroot : x.root = root := (Snapshot.replay_version hreplay).1
  have hplace : Log.place? fs x.root = some s.log := by
    rwa [← Log.place?_congr (h.sameDirectories hinv), hroot]
  refine ⟨hplace, (h.holds.load_eq_ok_iff hplace).2 ⟨hnames, hle, .inl rfl, ?_⟩⟩
  rw [hroot, ← hitems]
  exact hreplay

/-- What has to be shown when one writer changes and the settled table does not. -/
theorem Settled.put (h : Settled s fs n) {y : Option Writer}
    (hothers : ∀ q, q ≠ s.log ++ [LogEntry.name v] → fs'.get? q = s.fs.get? q)
    (hnone : y = none → Log.found? fs s.log v = Log.found? fs' s.log v)
    (hfits : ∀ w, y = some w → Fits w fs s.log n v) : Settled (s.put fs' v y) fs n where
  holds := h.holds
  others q hq := by
    by_cases he : q = s.log ++ [LogEntry.name v]
    · cases hy : y with
      | none =>
        rw [he]
        exact hnone hy
      | some w => exact absurd he (hq v w (by rw [writers_put, hy]))
    · refine (h.others q fun u w hw ↦ ?_).trans (hothers q he).symm
      by_cases hu : u = v
      · rwa [hu]
      · exact hq u w ((writers_put_ne s fs' y hu).trans hw)
  fits u w hw := by
    by_cases hu : u = v
    · subst hu
      exact hfits w ((writers_put s fs' u y).symm.trans hw)
    · exact h.fits u w ((writers_put_ne s fs' y hu).symm.trans hw)
  shown := h.shown

theorem Settled.last (h : Settled s fs n) {x : Snapshot} (hx : Log.Shows fs s.log x)
    (hv : x.version.next? = some v) (hf : Log.found? fs s.log v = none) : x.version = n := by
  refine UInt64.le_antisymm (h.holds.le_of_shows hx) (UInt64.not_lt.1 fun hlt ↦ ?_)
  obtain ⟨m, hm, hmn⟩ := Log.exists_next? hlt
  obtain rfl : m = v := Option.some.inj (hm.symm.trans hv)
  obtain ⟨bs, hbs⟩ := h.holds.present m hmn
  rw [hf] at hbs
  cases hbs

theorem Settled.create (h : Settled s fs n) (hinv : Inv s) {t : Transaction} {txnId : String}
    {p : Proposal} (ht : Log.Shows fs s.log t.snapshot) (hr : t.Reiterable)
    (hpropose : (t.propose txnId).result = .ok p) (hf : Log.found? s.fs s.log p.version = none) :
    Settled (s.put (s.fs.set (s.log ++ [LogEntry.name p.version]) (.file [])) p.version
      (some (.begin t txnId (s.log ++ [LogEntry.name p.version]) p.actions.items))) fs n := by
  obtain ⟨_, _, _, _, hprepare, -⟩ := Transaction.propose_eq_ok hpropose
  have hv := (Transaction.prepare_eq_ok hprepare).1
  have hfound : Log.found? fs s.log p.version = none := by rw [h.found_of_none (hinv.free hf).1, hf]
  have hlast := h.last ht hv hfound
  rw [hlast] at hv
  have hwritten := Log.written_place s.fs s.log p.version []
  refine h.put (fun q hq ↦ hwritten.others hq) nofun ?_
  intro w he
  cases he
  refine ⟨?_, fun _ ↦ hv, ht, hr, ?_⟩
  · intro he
    obtain ⟨hfailure, hle⟩ := he
    have hcommits : t.Commits txnId (Results.actions p.actions.items) :=
      ⟨p, hpropose, Results.eq_ok_of_failure hfailure⟩
    exact absurd hle (Nat.not_le.2 hcommits.two_le_length)
  · intro x mark hx hmark hle
    have hlt := UInt64.lt_of_lt_of_le (Log.lt_of_next? hv) hle
    exact absurd (h.holds.le_of_shows hx) (UInt64.not_le.2 hlt)

theorem Settled.remove (h : Settled s fs n) (hinv : Inv s) (hw : s.writers v = some w)
    (hfailed : w.failure ≠ none) :
    Settled (s.put (s.fs.unset w.place) v none) fs n := by
  rw [(hinv.writes v w hw).place]
  refine h.put ?_ ?_ ?_
  · intro q hq
    rw [get?_unset_place, if_neg hq]
  · intro _
    have htorn : ¬w.Safe := fun hs ↦ hfailed hs.1
    rw [h.found_of_torn hw htorn, Log.found?, get?_unset_place, if_pos rfl]
  · intro w' hw'
    cases hw'

/-- A commit that is complete joins the settled table. -/
theorem Settled.grow (h : Settled s fs n) (hinv : Inv s) (hw : s.writers v = some w)
    (htorn : ¬w.Safe) {count : Nat} (hsafe : (w.advance count).Safe) :
    Settled (s.put (s.fs.append w.place (w.todo.take count)) v (some (w.advance count)))
      (fs.set (s.log ++ [LogEntry.name v]) (.file (writeActions w.actions))) v := by
  have hfits := h.fits v w hw
  have hv := hfits.torn htorn
  have hwrites := hinv.writes v w hw
  have hcommits := hwrites.commits hsafe.1
  have hlast := h.last hfits.shown hwrites.next (h.found_of_torn hw htorn)
  obtain ⟨bs, -, happend, -⟩ := hinv.written hw count
  have hjoin := Log.written_place fs s.log v (writeActions w.actions)
  have hgrows :
      Log.Grows s.log fs (fs.set (s.log ++ [LogEntry.name v]) (.file (writeActions w.actions))) :=
    .next h.holds hv hjoin
  have hholds := h.holds.next hv hjoin
  refine ⟨hholds, ?_, ?_, ?_⟩
  · intro q hq
    have hne : q ≠ s.log ++ [LogEntry.name v] := hq v _ (writers_put s _ v _)
    refine (hjoin.others hne).trans
      (((h.others q fun u w' hw' ↦ ?_)).trans (happend.others hne).symm)
    by_cases hu : u = v
    · rwa [hu]
    · exact hq u w' ((writers_put_ne s _ _ hu).trans hw')
  · intro u w' hw'
    by_cases hu : u = v
    · subst hu
      obtain rfl := Option.some.inj ((writers_put s _ u _).symm.trans hw')
      refine ⟨fun _ ↦ hjoin.get?, fun ht ↦ absurd hsafe ht, hgrows.shows h.holds hfits.shown,
        hfits.reiterable, ?_⟩
      intro x mark hx hmark hle
      have hxv := UInt64.le_antisymm (hholds.le_of_shows hx) hle
      obtain ⟨low, -, -, hbelow⟩ :=
        hcommits.below hfits.reiterable h.holds hv hjoin hfits.shown hlast hx hxv hmark
      exact hbelow
    · have hw' : s.writers u = some w' := (writers_put_ne s _ _ hu).symm.trans hw'
      have hfits' := h.fits u w' hw'
      refine ⟨?_, ?_, hgrows.shows h.holds hfits'.shown, hfits'.reiterable, ?_⟩
      · intro hs
        exact (hjoin.others (Log.place_ne hu)).trans (hfits'.safe hs)
      · intro ht
        exact absurd (Option.some.inj ((hfits'.torn ht).symm.trans hv)) hu
      · intro x mark hx hmark hle r hr id hid
        by_cases hxv : x.version = v
        · obtain ⟨low, hlow, hlowMark, -⟩ :=
            hcommits.below hfits.reiterable h.holds hv hjoin hfits.shown hlast hx hxv hmark
          have hun : u ≤ w.transaction.snapshot.version := by
            rw [hlast]
            exact Log.le_of_lt_next? hv (UInt64.lt_of_le_of_ne (hxv ▸ hle) hu)
          exact Int.le_trans (hfits'.below _ low hfits.shown hlow hun r hr id hid) hlowMark
        · have hxn : x.version ≤ n :=
            Log.le_of_lt_next? hv (UInt64.lt_of_le_of_ne (hholds.le_of_shows hx) hxv)
          exact hfits'.below x mark (hx.before h.holds hv hjoin hxn) hmark hle r hr id hid
  · exact h.shown.mono (fun x hx ↦ hgrows.shows h.holds hx) fun t ht ↦
      ⟨hgrows.shows h.holds ht.1, ht.2⟩

theorem Settled.append (h : Settled s fs n) (hinv : Inv s) (hw : s.writers v = some w)
    (count : Nat) :
    ∃ fs' n',
      Settled (s.put (s.fs.append w.place (w.todo.take count)) v
        (some (w.advance count))) fs' n' := by
  have hfits := h.fits v w hw
  by_cases hgrow : (w.advance count).Safe ∧ ¬w.Safe
  · exact ⟨_, _, h.grow hinv hw hgrow.2 hgrow.1⟩
  · obtain ⟨bs, -, happend, -⟩ := hinv.written hw count
    refine ⟨fs, n, h.put (fun q hq ↦ happend.others hq) nofun ?_⟩
    intro w' he
    cases he
    refine ⟨?_, ?_, hfits.shown, hfits.reiterable, hfits.below⟩
    · intro hs
      exact hfits.safe (by_contra fun ht ↦ hgrow ⟨hs, ht⟩)
    · intro ht
      exact hfits.torn fun hs ↦ ht (hs.advance count)

theorem Settled.step (h : Settled s fs n) (hinv : Inv s) {e : Event} (he : e.Orderly s) :
    ∃ fs' n', Settled (s.step e) fs' n' := by
  have hmoves := hinv.moves e
  generalize s.step e = s' at hmoves
  cases hmoves with
  | idle => exact ⟨fs, n, h⟩
  | used u =>
    refine ⟨fs, n, h.holds, h.others, h.fits, h.shown.step u ?_ ?_ ?_⟩
    · intro root requested he hp x hx
      subst he
      exact h.shows hinv hp hx (he hp x hx)
    · intro x timestamp hx
      exact ⟨hx, List.forall_mem_nil _⟩
    · intro i change he t ht
      subst he
      exact ⟨t.stage_snapshot change ▸ ht.1, ht.2.stage he⟩
  | rejected i txnId => exact ⟨fs, n, h.holds, h.others, h.fits, h.shown.take i⟩
  | @created i txnId t p ht hpropose hf =>
    have htaken : Settled { s with users := s.users.take i } fs n :=
      ⟨h.holds, h.others, h.fits, h.shown.take i⟩
    have hinv' : Inv { s with users := s.users.take i } :=
      ⟨hinv.writes, hinv.kept, hinv.shown.take i⟩
    obtain ⟨hshown, hr⟩ := h.shown.2 t (List.mem_of_getElem? ht)
    exact ⟨fs, n, htaken.create hinv' hshown hr hpropose hf⟩
  | appended count hw => exact h.append hinv hw count
  | removed hw hfailed => exact ⟨fs, n, h.remove hinv hw hfailed⟩

theorem Settled.run (h : Settled s fs n) (hinv : Inv s) {es : List Event} (hes : s.Orderly es) :
    ∃ fs' n', Settled (s.run es) fs' n' := by
  induction es generalizing s fs n with
  | nil => exact ⟨fs, n, h⟩
  | cons e es ih =>
    obtain ⟨fs', n', h'⟩ := h.step hinv hes.1
    exact ih h' (hinv.step e) hes.2

/-- When builds see whole commits. A snapshot is the replay of commits that are complete
and stay just when its build has come upon no commit that is still being written. If
none of the builds before has either, the high water mark of the snapshot lies behind
all ids that its commits have given out. -/
theorem reads_complete_iff {log : Place} {origin : FileSystem} {es : List Event}
    (hs : (start log origin).run es = s) (hp : Log.place? s.fs root = some log)
    (hx : Snapshot.load s.fs root requested = .ok x) :
    ((Snapshot.replay root x.version (s.sequences x.version) = .ok x ∧ ∀ v ≤ x.version, s.Final v) ↔
      s.Quiet x.version) ∧
    ∀ n mark, s.Quiet x.version → Log.Holds origin log n → (start log origin).Orderly es →
      x.highWaterMark = .ok mark →
      ∀ v ≤ x.version, ∀ w, s.writers v = some w → ∀ r ∈ w.granted, ∀ id, r.Has id →
        id ≤ mark.toInt := by
  have hinv : Inv s := hs ▸ (inv_start log origin).run es
  obtain rfl : s.log = log := hs ▸ (inv_start log origin).run_log es
  obtain ⟨place, hp', -, hreaches, hreplay⟩ := Snapshot.load_eq_ok_iff.1 hx
  obtain rfl : place = s.log := Option.some.inj (hp'.symm.trans hp)
  refine ⟨⟨?_, ?_⟩, ?_⟩
  · intro he v hv
    obtain ⟨-, hfinal⟩ := he
    exact (hinv.final_iff (hreaches.present v hv)).1 (hfinal v hv)
  · intro hquiet
    refine ⟨?_, fun v hv ↦ (hinv.final_iff (hreaches.present v hv)).2 (hquiet v hv)⟩
    have hitems : Log.items s.fs s.log x.version = s.sequences x.version :=
      Log.items_eq_flatMap fun v hv ↦ hinv.commitItems_eq (hquiet v hv)
    rw [← hitems]
    exact hreplay
  · intro n mark hquiet hn hes hmark v hv w hw r hr id hid
    obtain ⟨fs', n', hsettled⟩ := (settled_start s.log hn).run (inv_start s.log origin) hes
    rw [hs] at hsettled
    have hshows := hsettled.shows hinv hp hx hquiet
    exact (hsettled.fits v w hw).below x mark hshows hmark hv r hr id hid

/-- A build, and a commit on top of it that has been created and not been written. -/
def torn : List Event :=
  [.use (.build Sample.root none), .use (.start 0 7),
    .use (.stage 0 (.addFiles (.actions [.add (Sample.file "f" 5)]))), .create 0 "a"]

def whole : Store := (start Sample.log Sample.fs).run (torn ++ [.append 1 387])

def wholeActions : List Action := ((whole.writers 1).map Writer.actions).getD []

theorem reads_complete_iff_whole :
    ∃ x, Snapshot.load whole.fs Sample.root none = .ok x ∧ x.version = 1 ∧ x.highWaterMark = .ok 4 ∧
      (∀ v ≤ 1, whole.Final v) ∧ ∀ w, whole.writers 1 = some w →
      ∀ r ∈ w.granted, ∀ id, r.Has id → id ≤ 4 := by
  have hinv : Inv whole := (inv_start Sample.log Sample.fs).run _
  have hzero : (whole.writers 0).all (fun w ↦ decide w.Safe) = true := by decide +kernel
  have hone : (whole.writers 1).all (fun w ↦ decide w.Safe) = true := by decide +kernel
  have hquiet : whole.Quiet 1 := by
    intro v hv w hw
    rcases Nat.le_one_iff_eq_zero_or_eq_one.1 (UInt64.le_iff_toNat_le.1 hv) with he | he
    · obtain rfl : v = 0 := UInt64.toNat_inj.1 he
      rw [hw] at hzero
      exact of_decide_eq_true hzero
    · obtain rfl : v = 1 := UInt64.toNat_inj.1 he
      rw [hw] at hone
      exact of_decide_eq_true hone
  have hsome : (whole.writers 1).isSome = true := by decide +kernel
  obtain ⟨w, hw⟩ := Option.isSome_iff_exists.1 hsome
  have hactions : w.actions = wholeActions := by
    rw [wholeActions, hw]
    rfl
  have hcommits : w.transaction.Commits w.txnId wholeActions :=
    hactions ▸ (hinv.writes 1 w hw).commits (hquiet 1 (UInt64.le_refl 1) w hw).1
  have hfs : whole.fs = Sample.fs.set (Sample.log ++ [LogEntry.name 1])
      (.file (writeActions wholeActions)) := by
    decide +kernel
  have hwritten : Written Sample.fs whole.fs (Sample.log ++ [LogEntry.name 1])
      (writeActions wholeActions) :=
    hfs ▸ Log.written_place _ _ _ _
  have hload := Sample.holds.load_next (by decide) hwritten hcommits.readActions_write
    hcommits.keepsTable Sample.place
    Sample.load rfl
  have hmark : (Sample.snapshot.advance 1 wholeActions).highWaterMark = .ok 4 := by decide +kernel
  have hes : (start Sample.log Sample.fs).Orderly (torn ++ [.append 1 387]) := by
    refine And.intro ?_ (And.intro trivial
      (And.intro (Source.reiterable_actions _) (And.intro trivial ?_)))
    · intro _ x _ v _ w hw
      cases hw
    · exact And.intro trivial trivial
  have hplace : Log.place? whole.fs Sample.root = some Sample.log := by decide +kernel
  have hreads := reads_complete_iff rfl hplace hload
  refine ⟨_, hload, rfl, hmark, (hreads.1.2 hquiet).2, ?_⟩
  exact hreads.2 0 4 hquiet Sample.holds hes hmark 1 (UInt64.le_refl 1)

/-- The new version of the torn commit can be loaded. It is the old
table, and not there for good. -/
theorem torn_not_final :
    Snapshot.load ((start Sample.log Sample.fs).run torn).fs Sample.root none =
        .ok (Sample.snapshot.advance 1 []) ∧
      ¬((start Sample.log Sample.fs).run torn).Final 1 := by
  have hinv := (inv_start Sample.log Sample.fs).run torn
  have hfs : ((start Sample.log Sample.fs).run torn).fs =
      Sample.fs.set (Sample.log ++ [LogEntry.name 1]) (.file []) := by decide +kernel
  have hwriting : (((start Sample.log Sample.fs).run torn).writers 1).any (fun w ↦ ¬w.Safe) =
    true := by decide +kernel
  refine ⟨?_, ?_⟩
  · rw [hfs]
    exact Sample.holds.load_created (by decide) Sample.place Sample.load rfl
  · intro hfinal
    obtain ⟨w, hw, htorn⟩ := (Option.any_eq_true _ _).1 hwriting
    exact of_decide_eq_true htorn ((hinv.final_iff (hfinal []).1).1 hfinal w hw)

end Store

end TableLog
