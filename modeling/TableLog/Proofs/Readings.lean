import TableLog.Proofs.Assignment
import TableLog.Proofs.Exhaustion
import TableLog.Proofs.Openings

namespace TableLog

namespace Trace

section Readers

variable {σ : Type} {read : σ → Action → Outcome σ} {s : σ} {xs : List (Outcome Action)}

theorem length_lt_asked_iff (ys : List (Outcome Action)) :
    xs.length < asked read s (xs ++ ys) ↔ ∃ s', feed read s xs = .ok s' := by
  cases h : feed read s xs with
  | ok s' =>
    have hpos : 0 < asked read s' ys := asked_pos
    rw [asked_append_of_ok h]
    exact ⟨fun _ ↦ ⟨s', rfl⟩, fun _ ↦ by omega⟩
  | error e =>
    have hle := asked_append_of_error h ys
    constructor
    · intro hlt
      exact absurd hlt (Nat.not_lt.2 hle)
    · intro hok
      obtain ⟨s', hs'⟩ := hok
      cases hs'

theorem upToFailure_asked (read : σ → Action → Outcome σ) (s : σ) (xs : List (Outcome Action)) :
    Results.upToFailure (asked read s xs) xs = asked read s xs := by
  rw [Results.upToFailure]
  split
  · rfl
  · rename_i hfails
    refine Nat.min_eq_left (Nat.le_of_not_lt fun hlt ↦ hfails ?_)
    obtain ⟨s', hs'⟩ := (length_lt_asked_iff []).1 (by rwa [List.append_nil])
    exact RowTracking.failure_of_feed hs'

theorem feed_total_iff {read : σ → Action → σ} :
    (∃ s', feed (fun s a ↦ .ok (read s a)) s xs = .ok s') ↔ Results.failure xs = none := by
  induction xs generalizing s with
  | nil => exact ⟨fun _ ↦ rfl, fun _ ↦ ⟨s, rfl⟩⟩
  | cons x xs ih =>
    cases x with
    | error e =>
      constructor
      · intro hok
        obtain ⟨s', hs'⟩ := hok
        cases hs'
      · intro hnone
        cases hnone
    | ok a => exact ih

end Readers

end Trace

theorem Results.failure_append_ok (xs : List (Outcome Action)) (as : List Action) :
    failure (xs ++ as.map .ok) = failure xs := by
  induction xs with
  | nil => exact failure_ok as
  | cons x xs ih =>
    cases x with
    | error e => rfl
    | ok a => exact ih

theorem Opening.Sound.settled_drain {σ : Type} {o : Opening} (h : o.Sound)
    (read : σ → Action → Outcome σ) (s : σ) :
    (o.drain read s).traffic.Settled := by
  have hfits := h.fits
  rw [drain]
  cases hr : o.result with
  | ok t =>
    rw [all_ok hr] at hfits
    simp only [Trace.traffic_drainFrom]
    exact Trace.settled_traffic.2 (Trace.settled_closed (hfits.initial (Trace.pulls_initial _ _)))
  | error e =>
    rw [all_error hr] at hfits
    exact ⟨hfits, h.refused e hr⟩

namespace RowTracking

open Trace

variable {w : RowTracking} {o : Opening} {t : Trace} {g : RowIdAssigner} {mark : Int64}
  {rs : List Remove} {xs : List (Outcome Action)}

theorem length_assignAll_le (g : RowIdAssigner) (xs : List (Outcome Action)) :
    (assignAll g xs).length ≤ xs.length := by
  induction xs generalizing g with
  | nil => exact Nat.le_refl 0
  | cons x xs ih =>
    cases x with
    | error e => exact Nat.succ_le_succ (Nat.zero_le _)
    | ok a =>
      rw [assignAll]
      split
      · exact Nat.succ_le_succ (ih _)
      · exact Nat.succ_le_succ (Nat.zero_le _)

theorem assignAll_append (h : Results.failure (assignAll g xs) = none) :
    (assignAll g xs).length = xs.length ∧ ∃ g', ∀ ys,
      assignAll g (xs ++ ys) = assignAll g xs ++ assignAll g' ys := by
  induction xs generalizing g with
  | nil => exact ⟨rfl, g, fun _ ↦ rfl⟩
  | cons x xs ih =>
    cases x with
    | error e => cases h
    | ok a =>
      simp only [List.cons_append, assignAll] at h ⊢
      cases hassign : g.assign a with
      | error e =>
        rw [hassign] at h
        cases h
      | ok r =>
        simp only [hassign] at h ⊢
        obtain ⟨hlength, g', hg'⟩ := ih h
        exact ⟨congrArg Nat.succ hlength, g', fun ys ↦ congrArg (.ok r.1 :: ·) (hg' ys)⟩

theorem assignAll_append_of_failure (h : Results.failure (assignAll g xs) ≠ none)
    (ys : List (Outcome Action)) :
    assignAll g (xs ++ ys) = assignAll g xs := by
  induction xs generalizing g with
  | nil => exact absurd rfl h
  | cons x xs ih =>
    cases x with
    | error e => rfl
    | ok a =>
      simp only [List.cons_append, assignAll] at h ⊢
      cases hassign : g.assign a with
      | error e => rfl
      | ok r =>
        simp only [hassign] at h ⊢
        exact congrArg (.ok r.1 :: ·) (ih h)

theorem length_lt_asked_raise_iff (ys : List (Outcome Action)) :
    xs.length < asked raise mark (assignAll g (xs ++ ys)) ↔
    ∃ m, feed raise mark (assignAll g xs) = .ok m := by
  by_cases h : Results.failure (assignAll g xs) = none
  · obtain ⟨hlength, g', hg'⟩ := assignAll_append h
    rw [hg', ← hlength]
    exact length_lt_asked_iff _
  · rw [assignAll_append_of_failure h, ← length_lt_asked_iff [], List.append_nil]
    have hle := length_assignAll_le g xs
    have hasked : asked raise mark (assignAll g xs) ≤ (assignAll g xs).length := by
      refine Nat.le_of_not_lt fun hlt ↦ h ?_
      obtain ⟨m, hm⟩ := (length_lt_asked_iff []).1 (by rwa [List.append_nil])
      exact failure_of_feed hm
    omega

theorem feed_raise_removes_iff :
    (∃ m, feed raise mark (assignAll g (xs ++ (rs.map Action.remove).map .ok)) = .ok m) ↔
      ∃ m, feed raise mark (assignAll g xs) = .ok m := by
  by_cases h : Results.failure (assignAll g xs) = none
  · obtain ⟨-, g', hg'⟩ := assignAll_append h
    rw [hg', assignAll_removes, feed_append]
    cases feed raise mark (assignAll g xs) with
    | error e => exact Iff.rfl
    | ok m => exact ⟨fun _ ↦ ⟨m, rfl⟩, fun _ ↦ ⟨m, feed_removes⟩⟩
  · rw [assignAll_append_of_failure h]

section Update

variable (hw : w.supported) (ho : o.start.items = []) (ht : o.result = .ok t)
  (hg : RowIdAssigner.start w.highWaterMark w.commitVersion = .ok g)
include hw ho ht hg

theorem update_isOk_iff_feed :
    (∃ m, (w.update o).2 = .ok m) ↔
    ∃ m, feed raise w.highWaterMark (assignAll g t.items) = .ok m := by
  obtain ⟨out, hout, hitems⟩ := wrap_eq_ok hw ht hg
  obtain ⟨-, -, -, -, hstart, -⟩ := wrap_supported hw hout
  rw [update, if_pos hw]
  simp only [Opening.drain, hout, drainFrom_outcome]
  rw [items_append, hstart, ho, List.nil_append, hitems]
  cases feed raise w.highWaterMark (assignAll g t.items) with
  | error e =>
    constructor <;>
    · intro hok
      obtain ⟨m, hm⟩ := hok
      cases hm
  | ok m => exact ⟨fun _ ↦ ⟨m, rfl⟩, fun _ ↦ ⟨_, rfl⟩⟩

theorem traffic_update :
    (w.update o).1 = (o.run (asked raise w.highWaterMark (assignAll g t.items))).traffic := by
  obtain ⟨out, hout, hitems⟩ := wrap_eq_ok hw ht hg
  obtain ⟨-, -, -, -, hstart, -⟩ := wrap_supported hw hout
  rw [update, if_pos hw]
  simp only
  rw [Opening.traffic_drain raise w.highWaterMark (hstart ▸ ho) hout, traffic_wrap_ok hw ht hg,
    hitems, upToFailure_asked]

end Update

end RowTracking

namespace FileSystem

open Trace

variable {fs claimed : FileSystem} {p : Proposal} {place : Place}

/-- What an attempt does with the stream: it leaves it alone, or it
writes it to the file it has claimed. -/
theorem commit_reads (fs : FileSystem) (p : Proposal) :
    ((fs.commit p).1.traffic = [] ∧ (∀ v, (fs.commit p).1.result ≠ .ok (.committed v)) ∧
      ∀ place claimed, fs.claim p ≠ (.ok (some place), claimed)) ∨
      ∃ (claimed : FileSystem) (write : FileSystem → Action → FileSystem),
        (fs.commit p).1.traffic =
          (p.actions.drainFrom (fun fs a ↦ .ok (write fs a)) claimed []).traffic ∧
        (((∃ v, (fs.commit p).1.result = .ok (.committed v)) ∧
            Results.failure p.actions.items = none) ∨
          ((∃ e, (fs.commit p).1.result = .error e) ∧ Results.failure p.actions.items ≠ none)) := by
  rw [commit]
  split
  · rename_i hclaim
    exact .inl ⟨rfl, by simp, by simp [hclaim]⟩
  · rename_i hclaim
    exact .inl ⟨rfl, by simp, by simp [hclaim]⟩
  · rename_i place claimed hclaim
    let write (fs : FileSystem) (a : Action) : FileSystem := fs.append place (a.line ++ [0x0A])
    have hfailure := (drainFrom_total write claimed [] p.actions).2
    refine .inr ⟨claimed, write, ?_⟩
    simp only [write] at hfailure ⊢
    simp only [hfailure]
    split
    · rename_i hnone
      exact ⟨rfl, .inl ⟨⟨_, rfl⟩, hnone⟩⟩
    · rename_i e he
      exact ⟨rfl, .inr ⟨⟨e, rfl⟩, fun hnone ↦ by simp [hnone] at he⟩⟩

theorem traffic_of_conflict (fs : FileSystem) {v : Version}
    (h : (fs.commit p).1.result = .ok (.conflict v)) :
    (fs.commit p).1.traffic = [] := by
  rcases fs.commit_reads p with ⟨hnone, -⟩ | ⟨-, -, -, ⟨⟨v', hv⟩, -⟩ | ⟨⟨e, he⟩, -⟩⟩
  · exact hnone
  · cases h.symm.trans hv
  · cases h.symm.trans he

end FileSystem

namespace Transaction

open Trace

variable {t : Transaction} {txnId : String} {fs : FileSystem} {p : Proposal} {tag : String}
  {turn k : Nat} {version : Version} {domains : List DomainMetadata} {w : RowTracking}
  {members before after : List (String × Source)}

def only (t : Transaction) (members : List (String × Source)) : Transaction :=
  { t with added := Source.watched members }

def checkedItems (t : Transaction) (turn : Nat) : List (Outcome Action) :=
  (t.addedItems turn).map (·.bind t.checkStaged)

theorem files_eq (t : Transaction) (turn : Nat) :
    ∃ body, t.files turn = { result := .ok body } ∧
      body.items = t.checkedItems turn ++ (t.removed.map Action.remove).map .ok :=
  t.items_files turn

theorem checkedItems_eq (hadded : t.added = Source.watched (before ++ after)) (turn : Nat) :
    t.checkedItems turn = (t.only before).checkedItems turn ++
      (t.only after).checkedItems turn := by
  rw [checkedItems, addedItems, hadded, Source.watched_append, List.flatMap_append, List.map_append]
  rfl

theorem length_checkedItems (t : Transaction) (turn : Nat) :
    (t.checkedItems turn).length = (Source.traverseEach turn t.added).items.length := by
  rw [checkedItems, List.length_map, Source.items_traverseEach]
  rfl

theorem sound_files (t : Transaction) (turn : Nat) : (t.files turn).Sound := by
  have hfits := (settled_closed (Source.settled_traverseEach turn t.added).fits).fits
  refine Opening.sound_of_ok rfl ((fits_traffic [] _).1 ?_)
  rw [files, List.nil_append, traffic_append, traffic_mapItems, traffic_ofActions, List.append_nil]
  exact (fits_traffic [] _).2 hfits

theorem acquisitions_files (t : Transaction) (turn k : Nat) (tag : String) :
    acquisitions tag ((t.files turn).run k) =
      acquisitions tag ((Source.traverseEach turn t.added).pulls k) := by
  have hremoved : acquisitions tag (ofActions (t.removed.map .remove)) = 0 := by
    rw [← acquisitions_traffic, traffic_ofActions]
    rfl
  rw [files, Opening.run]
  simp only
  rw [acquisitions_closed, List.nil_append, acquisitions_pulls_append hremoved, pulls_mapItems,
    acquisitions_eq_of_traffic (traffic_mapItems _ _), closed,
    acquisitions_pulls_append (acquisitions_release tag _)]

theorem propose_traffic (h : t.prepare = .ok (version, domains, w)) :
    (t.propose txnId).traffic = (w.update (t.files 0)).1 := by
  have hstart : (w.wrap (t.files 1)).start = [] := RowTracking.start_wrap w rfl
  rw [propose, h]
  simp only
  split
  · rfl
  · split
    · simp only [hstart, List.append_nil]
    · split
      · simp only [hstart]
        exact List.append_nil _
      · rfl

theorem commit_of_propose_error {e : Error} (h : (t.propose txnId).result = .error e) :
    (t.commit txnId fs).1 = { traffic := (t.propose txnId).traffic, result := .error e } := by
  rw [commit]
  simp only [h]

theorem commit_of_propose (h : (t.propose txnId).result = .ok p) :
    (t.commit txnId fs).1 =
      { (fs.commit p).1 with traffic := (t.propose txnId).traffic ++ (fs.commit p).1.traffic } := by
  rw [commit]
  simp only [h]

theorem propose_parts (hp : (t.propose txnId).result = .ok p) :
    ∃ domains w mark body domains',
      t.prepare = .ok (p.version, domains, w) ∧ (w.update (t.files 0)).2 = .ok mark ∧
      (w.wrap (t.files 1)).result = .ok body ∧ p.actions = t.stream txnId domains' body := by
  obtain ⟨domains, w, mark, body, hprepare, hupdate, hbody, hlog, -⟩ := propose_eq_ok hp
  obtain ⟨p', hp', hactions⟩ := propose_of_parts hprepare hupdate hbody hlog
  obtain rfl := Except.ok.inj (hp.symm.trans hp')
  rw [RowTracking.start_wrap w rfl, List.nil_append] at hactions
  exact ⟨domains, w, mark, body, _, hprepare, hupdate, hbody, hactions⟩

theorem acquisitions_stream (domains : List DomainMetadata) (files : Trace) (hk : 0 < k) :
    acquisitions tag ((t.stream txnId domains files).pulls k) =
      acquisitions tag (files.pulls (k - 1)) := by
  obtain ⟨k, rfl⟩ : ∃ j, k = j + 1 := ⟨k - 1, by omega⟩
  have hrest : acquisitions tag
      (ofActions (t.appVersions.map Action.appVersion ++ domains.map Action.domainMetadata)) =
      0 := by
    rw [← acquisitions_traffic, traffic_ofActions]
    rfl
  rw [stream, List.cons_append, pulls_item, acquisitions_item, acquisitions_pulls_append hrest,
    closed, acquisitions_pulls_append (acquisitions_release tag _), Nat.add_sub_cancel]

theorem fits_stream (domains : List DomainMetadata) {files : Trace} (h : Fits [] files) :
    Fits [] (t.stream txnId domains files) := by
  refine (fits_traffic [] _).1 ?_
  rw [stream, List.cons_append, traffic_item, traffic_append, traffic_ofActions, List.append_nil]
  exact (fits_traffic [] _).2 (settled_closed h).fits

theorem settled_update (w : RowTracking) (turn : Nat) : (w.update (t.files turn)).1.Settled := by
  rw [RowTracking.update]
  split
  · exact (RowTracking.sound_wrap w (t.sound_files turn)).settled_drain _ _
  · exact settled_nil

theorem settled_commit (t : Transaction) (txnId : String) (fs : FileSystem) :
    (t.commit txnId fs).1.traffic.Settled := by
  have hpropose : (t.propose txnId).traffic.Settled := by
    cases hprepare : t.prepare with
    | error e =>
      rw [propose, hprepare]
      exact settled_nil
    | ok r =>
      rw [propose_traffic hprepare]
      exact settled_update r.2.2 0
  cases hresult : (t.propose txnId).result with
  | error e =>
    rw [commit_of_propose_error hresult]
    exact hpropose
  | ok p =>
    rw [commit_of_propose hresult]
    refine hpropose.append ?_
    rcases fs.commit_reads p with ⟨hnone, -⟩ | ⟨claimed, write, htraffic, -⟩
    · rw [hnone]
      exact settled_nil
    · obtain ⟨domains, w, mark, body, domains', -, -, hbody, hactions⟩ := propose_parts hresult
      have hfits := (RowTracking.sound_wrap w (t.sound_files 1)).fits
      rw [Opening.all_ok hbody, RowTracking.start_wrap w rfl, List.nil_append] at hfits
      rw [htraffic, traffic_drainFrom, hactions]
      exact settled_traffic.2
        (settled_closed ((fits_stream domains' hfits).initial (pulls_initial _ _)))

section Passes

variable (hadded : t.added = Source.watched members) (hwatched : Source.Watched members)
include hadded hwatched

/-- The pass that recomputes the mark. -/
theorem opened_by_update (hopen : Source.Open 0 members) (hw : w.supported) {g : RowIdAssigner}
    (hg : RowIdAssigner.start w.highWaterMark w.commitVersion = .ok g) :
    ((∃ mark, (w.update (t.files 0)).2 = .ok mark) →
      ∀ m ∈ members, acquisitions m.1 (w.update (t.files 0)).1 = 1) ∧
    ((¬∃ mark, (w.update (t.files 0)).2 = .ok mark) →
      ∃ before m after, members = before ++ m :: after ∧
        (∃ mark, (w.update ((t.only before).files 0)).2 = .ok mark) ∧
        (¬∃ mark, (w.update ((t.only (before ++ [m])).files 0)).2 = .ok mark) ∧
        (∀ x ∈ before ++ [m], acquisitions x.1 (w.update (t.files 0)).1 = 1) ∧
        ∀ x ∈ after, acquisitions x.1 (w.update (t.files 0)).1 = 0) := by
  obtain ⟨body, hbody, hitems⟩ := t.files_eq 0
  have hstart : (t.files 0).start.items = [] := rfl
  have hopened (tag : String) : acquisitions tag (w.update (t.files 0)).1 =
      acquisitions tag ((Source.traverseEach 0 (Source.watched members)).pulls
        (asked RowTracking.raise w.highWaterMark (RowTracking.assignAll g body.items))) := by
    rw [RowTracking.traffic_update hw hstart (congrArg Opening.result hbody) hg,
      acquisitions_traffic, acquisitions_files, hadded]
  have hthrough (before after : List (String × Source)) (hsplit : members = before ++ after) :
      (∃ mark, (w.update ((t.only before).files 0)).2 = .ok mark) ↔
        (Source.traverseEach 0 (Source.watched before)).items.length <
          asked RowTracking.raise w.highWaterMark (RowTracking.assignAll g body.items) := by
    obtain ⟨first, hfirst, hfirstItems⟩ := (t.only before).files_eq 0
    have hlength := length_checkedItems (t.only before) 0
    have hchecked :=
      checkedItems_eq (hsplit ▸ hadded : t.added = Source.watched (before ++ after)) 0
    rw [RowTracking.update_isOk_iff_feed hw rfl (congrArg Opening.result hfirst) hg, hfirstItems,
      RowTracking.feed_raise_removes_iff, hitems, hchecked, List.append_assoc,
      ← RowTracking.length_lt_asked_raise_iff, hlength]
    exact Iff.rfl
  have honly : t.only members = t := by rw [only, ← hadded]
  constructor
  · intro hok m hm
    rw [← honly, hthrough members [] (List.append_nil members).symm] at hok
    rw [hopened]
    exact Source.acquisitions_of_through hwatched hopen hok hm
  · intro hfails
    simp only [hopened]
    refine Source.exists_stop hwatched hopen hthrough asked_pos ?_
    rwa [honly]

theorem opened_before_commit (hopen : Source.Open 0 members)
    (hon : t.snapshot.configuration.writesRowTracking = true)
    (hp : (t.propose txnId).result = .ok p) :
    ∀ m ∈ members, acquisitions m.1 (t.propose txnId).traffic = 1 := by
  obtain ⟨domains, w, mark, body, domains', hprepare, hupdate, -, -⟩ := propose_parts hp
  have hw : w.supported := (RowTracking.make_eq_ok (prepare_eq_ok hprepare).2.2).2.1.trans hon
  obtain ⟨-, g, -, -, -, hg, -⟩ := RowTracking.update_eq_ok hw rfl hupdate
  rw [propose_traffic hprepare]
  exact (opened_by_update hadded hwatched hopen hw hg).1 ⟨mark, hupdate⟩

theorem opened_by_wrap (hopen : Source.Open 1 members) {out : Trace}
    (hout : (w.wrap (t.files 1)).result = .ok out) (hnone : Results.failure out.items = none)
    (hk : out.items.length < k) :
    ∀ m ∈ members, acquisitions m.1 (out.pulls k) = 1 := by
  intro m hm
  obtain ⟨body, hbody, hitems⟩ := t.files_eq 1
  have hresult : (t.files 1).result = .ok body := congrArg Opening.result hbody
  have hlength := length_checkedItems t 1
  have hrun : acquisitions m.1 (out.pulls k) = acquisitions m.1 ((w.wrap (t.files 1)).run k) := by
    rw [Opening.run, hout]
    simp only
    rw [acquisitions_closed, RowTracking.start_wrap w rfl, List.nil_append]
  have hfiles :
      acquisitions m.1 ((w.wrap (t.files 1)).run k) = acquisitions m.1 ((t.files 1).run k) ∧
        body.items.length = out.items.length := by
    by_cases hw : w.supported
    · obtain ⟨body', g, hbody', hg, -, hassigned⟩ := RowTracking.wrap_supported hw hout
      obtain rfl := Except.ok.inj (hresult.symm.trans hbody')
      rw [hassigned] at hnone ⊢
      refine ⟨?_, (RowTracking.assignAll_append hnone).1.symm⟩
      rw [acquisitions_eq_of_traffic (RowTracking.traffic_wrap_ok hw hresult hg k),
        Results.upToFailure, if_pos hnone]
    · rw [RowTracking.wrap, if_neg hw] at hout ⊢
      obtain rfl := Except.ok.inj (hresult.symm.trans hout)
      exact ⟨rfl, rfl⟩
  rw [hitems, List.length_append, hlength, hadded] at hfiles
  rw [hrun, hfiles.1, acquisitions_files, hadded]
  exact Source.acquisitions_of_through hwatched hopen (by omega) hm

theorem exists_stop_of_failure (hopen : Source.Open 1 members) {body : Trace}
    (hbody : t.files 1 = { result := .ok body })
    (hfails : Results.failure body.items ≠ none) {σ : Type} (write : σ → Action → σ) (s : σ)
    (rest : List (Outcome Action)) :
    let k := asked (fun s a ↦ .ok (write s a)) s (body.items ++ rest)
    ∃ before m after, members = before ++ m :: after ∧
      Results.failure ((t.only before).files 1).inline.items = none ∧
      Results.failure ((t.only (before ++ [m])).files 1).inline.items ≠ none ∧
      (∀ x ∈ before ++ [m], acquisitions x.1 (body.pulls k) = 1) ∧
      ∀ x ∈ after, acquisitions x.1 (body.pulls k) = 0 := by
  intro k
  obtain ⟨body', hbody', hitems⟩ := t.files_eq 1
  obtain rfl := Except.ok.inj (congrArg Opening.result (hbody.symm.trans hbody'))
  have hread (tag : String) : acquisitions tag (body.pulls k) =
      acquisitions tag ((Source.traverseEach 1 (Source.watched members)).pulls k) := by
    rw [← hadded, ← acquisitions_files, hbody, Opening.run]
    simp only
    rw [acquisitions_closed, List.nil_append]
  have hinline (ms : List (String × Source)) :
      Results.failure ((t.only ms).files 1).inline.items =
      Results.failure ((t.only ms).checkedItems 1) := by
    obtain ⟨first, hfirst, hfirstItems⟩ := (t.only ms).files_eq 1
    rw [hfirst, Opening.items_inline]
    simp only [hfirstItems]
    exact Results.failure_append_ok _ _
  have hthrough (before after : List (String × Source)) (hsplit : members = before ++ after) :
      Results.failure ((t.only before).files 1).inline.items = none ↔
        (Source.traverseEach 1 (Source.watched before)).items.length < k := by
    have hchecked :=
      checkedItems_eq (hsplit ▸ hadded : t.added = Source.watched (before ++ after)) 1
    have hlength : ((t.only before).checkedItems 1).length =
      (Source.traverseEach 1 (Source.watched before)).items.length :=
      length_checkedItems (t.only before) 1
    simp only [k]
    rw [hinline, hitems, hchecked, List.append_assoc, List.append_assoc, ← hlength,
      length_lt_asked_iff, feed_total_iff]
  have honly : t.only members = t := by rw [only, ← hadded]
  simp only [hread]
  refine Source.exists_stop hwatched hopen hthrough asked_pos ?_
  rw [honly, hbody, Opening.items_inline]
  exact hfails

/-- The pass that writes. -/
theorem opened_by_commit (hopen : Source.Open 1 members) (hp : (t.propose txnId).result = .ok p) :
    (∀ v, (fs.commit p).1.result = .ok (.committed v) →
      ∀ m ∈ members, acquisitions m.1 (fs.commit p).1.traffic = 1) ∧
    (t.snapshot.configuration.writesRowTracking = false → ∀ place claimed e,
      fs.claim p = (.ok (some place), claimed) → (fs.commit p).1.result = .error e →
        ∃ before m after, members = before ++ m :: after ∧
          Results.failure ((t.only before).files 1).inline.items = none ∧
          Results.failure ((t.only (before ++ [m])).files 1).inline.items ≠ none ∧
          (∀ x ∈ before ++ [m], acquisitions x.1 (fs.commit p).1.traffic = 1) ∧
          ∀ x ∈ after, acquisitions x.1 (fs.commit p).1.traffic = 0) := by
  obtain ⟨domains, w, mark, out, domains', hprepare, -, hout, hactions⟩ := propose_parts hp
  rcases fs.commit_reads p with ⟨-, hcommitted, hunclaimed⟩ | ⟨claimed, write, htraffic, hends⟩
  · exact ⟨fun v hv ↦ absurd hv (hcommitted v),
      fun _ place claimed _ hclaim ↦ absurd hclaim (hunclaimed place claimed)⟩
  · -- one item comes before the files, and the rest of the stream cannot fail
    obtain ⟨c, rest, hstream⟩ : ∃ c, ∃ rest : List Action,
        p.actions.items = .ok c :: (out.items ++ rest.map .ok) :=
      ⟨_, _, by rw [hactions, items_stream]⟩
    have hfailure : Results.failure p.actions.items = Results.failure out.items := by
      rw [hstream, Results.failure, Results.failure_append_ok]
    have hasked : asked (fun s a ↦ .ok (write s a)) claimed p.actions.items =
        asked (fun s a ↦ .ok (write s a)) (write claimed c) (out.items ++ rest.map .ok) + 1 := by
      rw [hstream, asked]
    have hwritten (tag : String) : acquisitions tag (fs.commit p).1.traffic = acquisitions tag
        (out.pulls (asked (fun s a ↦ .ok (write s a)) (write claimed c)
          (out.items ++ rest.map .ok))) := by
      have hclosed (v : Trace) : closedFrom [] v = closed v := rfl
      rw [htraffic, traffic_drainFrom, acquisitions_traffic, hclosed, acquisitions_closed, hasked,
        hactions, acquisitions_stream _ _ (Nat.succ_pos _), Nat.succ_sub_one]
    simp only [hwritten]
    rw [hfailure] at hends
    constructor
    · intro v hv
      have hnone : Results.failure out.items = none := by
        rcases hends with ⟨-, hnone⟩ | ⟨⟨e, he⟩, -⟩
        · exact hnone
        · cases hv.symm.trans he
      exact opened_by_wrap hadded hwatched hopen hout hnone
        ((length_lt_asked_iff _).2 (feed_total_iff.2 hnone))
    · intro hoff _ _ e _ he
      have hfails : Results.failure out.items ≠ none := by
        rcases hends with ⟨⟨v, hv⟩, -⟩ | ⟨-, hfails⟩
        · cases hv.symm.trans he
        · exact hfails
      have hw : ¬w.supported := by
        rw [(RowTracking.make_eq_ok (prepare_eq_ok hprepare).2.2).2.1, hoff]
        exact Bool.false_ne_true
      rw [RowTracking.wrap, if_neg hw] at hout
      have hbody : t.files 1 = { result := .ok out } := by
        rw [← hout]
        rfl
      exact exists_stop_of_failure hadded hwatched hopen hbody hfails write (write claimed c)
        (rest.map .ok)

end Passes

theorem propose_of_update_error (hprepare : t.prepare = .ok (version, domains, w)) {e : Error}
    (hupdate : (w.update (t.files 0)).2 = .error e) : (t.propose txnId).result = .error e := by
  cases hpass : w.update (t.files 0) with
  | mk traffic outcome =>
    rw [hpass] at hupdate
    rw [propose, hprepare]
    simp only [hpass, hupdate]

theorem commit_eq_ok {r : Response} (h : (t.commit txnId fs).1.result = .ok r) :
    ∃ p, (t.propose txnId).result = .ok p ∧ (fs.commit p).1.result = .ok r := by
  cases hp : (t.propose txnId).result with
  | error e =>
    rw [commit_of_propose_error hp] at h
    cases h
  | ok p =>
    rw [commit_of_propose hp] at h
    exact ⟨p, rfl, h⟩

theorem acquisitions_commit_of_off (hoff : t.snapshot.configuration.writesRowTracking = false)
    (hp : (t.propose txnId).result = .ok p) (tag : String) :
    acquisitions tag (t.commit txnId fs).1.traffic = acquisitions tag (fs.commit p).1.traffic := by
  obtain ⟨domains, w, mark, body, domains', hprepare, -, -, -⟩ := propose_parts hp
  have hw : ¬w.supported := by
    rw [(RowTracking.make_eq_ok (prepare_eq_ok hprepare).2.2).2.1, hoff]
    exact Bool.false_ne_true
  rw [commit_of_propose hp, acquisitions_append, propose_traffic hprepare, RowTracking.update,
    if_neg hw]
  exact Nat.zero_add _

theorem commit_of_exhausted (hon : t.snapshot.configuration.writesRowTracking = true)
    (hmark : t.snapshot.highWaterMark = .ok Int64.maxValue) (txnId : String) (fs : FileSystem) :
    ∃ e, (t.commit txnId fs).1 = { result := .error e } := by
  obtain ⟨e, he, -⟩ := propose_of_exhausted hon hmark txnId
  refine ⟨e, ?_⟩
  rw [commit_of_propose_error he]
  cases hprepare : t.prepare with
  | error e =>
    rw [propose, hprepare]
  | ok r =>
    obtain ⟨version, domains, w⟩ := r
    obtain ⟨-, hsupported, hread⟩ := RowTracking.make_eq_ok (prepare_eq_ok hprepare).2.2
    have hmax : w.highWaterMark = Int64.maxValue := Except.ok.inj ((hread hon).symm.trans hmark)
    obtain ⟨body, hbody, -⟩ := t.files_eq 0
    rw [propose_traffic hprepare, RowTracking.update, if_pos (hsupported.trans hon),
      RowTracking.wrap, if_pos (hsupported.trans hon), hbody, hmax]
    simp only [RowIdAssigner.start_maxValue]
    rfl

end Transaction

/-- How often a commit opens its sources, if none fails to open: not before everything else
is checked, once to recompute the high water mark, and once to write. A pass that fails in
one of them has not opened the later ones. -/
theorem Transaction.sources_read {t : Transaction} (txnId : String) (fs : FileSystem)
    {members : List (String × Source)} (hadded : t.added = Source.watched members)
    (hwatched : Source.Watched members) (hopen : ∀ turn ≤ 1, Source.Open turn members) :
    let a := (t.commit txnId fs).1
    let opened (m : String × Source) : Nat := a.traffic.acquisitions m.1
    (∀ tag, a.traffic.releases tag = a.traffic.acquisitions tag) ∧
    ((∃ e, t.prepare = .error e) ∨
        t.snapshot.configuration.writesRowTracking = true ∧
        t.snapshot.highWaterMark = .ok Int64.maxValue →
      (∃ e, a.result = .error e) ∧ ∀ m ∈ members, opened m = 0) ∧
    (t.snapshot.configuration.writesRowTracking = true →
      (∀ v, a.result = .ok (.committed v) → ∀ m ∈ members, opened m = 2) ∧
      (∀ v, a.result = .ok (.conflict v) → ∀ m ∈ members, opened m = 1) ∧
      ∀ version domains w e, t.prepare = .ok (version, domains, w) →
        t.snapshot.highWaterMark ≠ .ok Int64.maxValue →
        (w.update (t.files 0)).2 = .error e →
          a.result = .error e ∧ ∃ before m after, members = before ++ m :: after ∧
            (∃ mark, (w.update ((t.only before).files 0)).2 = .ok mark) ∧
            (¬∃ mark, (w.update ((t.only (before ++ [m])).files 0)).2 = .ok mark) ∧
            (∀ x ∈ before ++ [m], opened x = 1) ∧ ∀ x ∈ after, opened x = 0) ∧
    (t.snapshot.configuration.writesRowTracking = false →
      (∀ v, a.result = .ok (.committed v) → ∀ m ∈ members, opened m = 1) ∧
      (∀ v, a.result = .ok (.conflict v) → ∀ m ∈ members, opened m = 0) ∧
      ∀ p place claimed e, (t.propose txnId).result = .ok p →
        fs.claim p = (.ok (some place), claimed) →
        a.result = .error e →
          ∃ before m after, members = before ++ m :: after ∧
            Results.failure ((t.only before).files 1).inline.items = none ∧
            Results.failure ((t.only (before ++ [m])).files 1).inline.items ≠ none ∧
            (∀ x ∈ before ++ [m], opened x = 1) ∧ ∀ x ∈ after, opened x = 0) := by
  intro a opened
  have hfirst := hopen 0 (Nat.zero_le 1)
  have hsecond := hopen 1 (Nat.le_refl 1)
  refine ⟨(settled_commit t txnId fs).releases_eq, fun hearly ↦ ?_,
    fun hon ↦ ⟨fun v hv m hm ↦ ?_, fun v hv m hm ↦ ?_,
      fun version domains w e hprepare hmark hupdate ↦ ?_⟩, fun hoff ↦ ⟨fun v hv m hm ↦ ?_,
      fun v hv m hm ↦ ?_,
    fun p place claimed e hp hclaim he ↦ ?_⟩⟩
  · obtain ⟨e, he⟩ : ∃ e, a = { result := .error e } := by
      rcases hearly with ⟨e, he⟩ | ⟨hon, hmark⟩
      · have hpropose : t.propose txnId = { result := .error e } := by rw [propose, he]
        exact ⟨e, (commit_of_propose_error (congrArg Attempt.result hpropose)).trans
          (by rw [hpropose])⟩
      · exact commit_of_exhausted hon hmark txnId fs
    simp only [opened, he]
    exact ⟨⟨e, rfl⟩, fun _ _ ↦ rfl⟩
  · obtain ⟨p, hp, hresult⟩ := commit_eq_ok hv
    have hupdate := opened_before_commit hadded hwatched hfirst hon hp m hm
    have hcommit := (opened_by_commit hadded hwatched hsecond hp).1 v hresult m hm
    simp only [opened, a, commit_of_propose hp, Trace.acquisitions_append, hupdate, hcommit]
  · obtain ⟨p, hp, hresult⟩ := commit_eq_ok hv
    have hupdate := opened_before_commit hadded hwatched hfirst hon hp m hm
    simp only [opened, a, commit_of_propose hp, fs.traffic_of_conflict hresult, List.append_nil,
      hupdate]
  · obtain ⟨-, hsupported, hread⟩ := RowTracking.make_eq_ok (prepare_eq_ok hprepare).2.2
    have hne : w.highWaterMark ≠ Int64.maxValue := fun heq ↦ hmark (heq ▸ hread hon)
    obtain ⟨g, hg⟩ := RowIdAssigner.exists_start hne w.commitVersion
    have hstops : ¬∃ mark, (w.update (t.files 0)).2 = .ok mark := by
      rintro ⟨mark, hok⟩
      cases hok.symm.trans hupdate
    have hpropose : (t.propose txnId).result = .error e := propose_of_update_error hprepare hupdate
    have hcommit : a = { traffic := (t.propose txnId).traffic, result := .error e } :=
      commit_of_propose_error hpropose
    simp only [opened, hcommit, propose_traffic hprepare]
    exact ⟨trivial, (opened_by_update hadded hwatched hfirst (hsupported.trans hon) hg).2 hstops⟩
  · obtain ⟨p, hp, hresult⟩ := commit_eq_ok hv
    exact (acquisitions_commit_of_off hoff hp m.1).trans
      ((opened_by_commit hadded hwatched hsecond hp).1 v hresult m hm)
  · obtain ⟨p, hp, hresult⟩ := commit_eq_ok hv
    refine (acquisitions_commit_of_off hoff hp m.1).trans ?_
    rw [fs.traffic_of_conflict hresult]
    rfl
  · have hresult : (fs.commit p).1.result = .error e := by
      simp only [a, commit_of_propose hp] at he
      exact he
    simp only [opened, a, acquisitions_commit_of_off hoff hp]
    exact (opened_by_commit hadded hwatched hsecond hp).2 hoff place claimed e hclaim hresult

def Sample.three : List (String × Source) :=
  [("a", .actions [.add (file "a" 5)]),
    ("b", .chain [.tagged "d" (.actions []), .turns fun _ ↦ .ok [.ok (.add (file "b" 3))]]),
    ("c", .actions [.add (file "c" 0)])]

theorem Transaction.sources_read_three :
    let t : Transaction :=
      { snapshot := Sample.snapshot, timestamp := 7, added := Source.watched Sample.three }
    let a := (t.commit "id" Sample.fs).1
    a.result = .ok (.committed 1) ∧ (∀ m ∈ Sample.three, a.traffic.acquisitions m.1 = 2) ∧
      ∀ tag, a.traffic.releases tag = a.traffic.acquisitions tag := by
  intro t a
  have hwatched : Source.Watched Sample.three := ⟨by decide, by decide⟩
  have hopen : ∀ turn ≤ 1, Source.Open turn Sample.three := by
    intro turn _
    refine List.forall_mem_cons.2 ⟨⟨_, rfl⟩, List.forall_mem_cons.2 ⟨⟨_, rfl⟩, ?_⟩⟩
    exact List.forall_mem_cons.2 ⟨⟨_, rfl⟩, List.forall_mem_nil _⟩
  have hcommitted : a.result = .ok (.committed 1) := by decide +kernel
  obtain ⟨hreleased, -, hon, -⟩ := sources_read (t := t) "id" Sample.fs rfl hwatched hopen
  exact ⟨hcommitted, (hon rfl).1 1 hcommitted, hreleased⟩

end TableLog
