import TableLog.Proofs.Passes

namespace TableLog

namespace Trace

def traffic (t : Trace) : Trace :=
  t.filter fun
    | .item _ => false
    | _ => true

@[simp] theorem traffic_item (r : Outcome Action) (t : Trace) :
    traffic (.item r :: t) = traffic t := rfl

@[simp] theorem traffic_acquired (tag : String) (t : Trace) :
    traffic (.acquired tag :: t) = .acquired tag :: traffic t := rfl

@[simp] theorem traffic_released (tag : String) (t : Trace) :
    traffic (.released tag :: t) = .released tag :: traffic t := rfl

@[simp] theorem traffic_append (t u : Trace) : traffic (t ++ u) = traffic t ++ traffic u :=
  List.filter_append ..

@[simp] theorem traffic_release (held : List String) : traffic (release held) = release held := by
  induction held with
  | nil => rfl
  | cons tag held ih => exact congrArg (.released tag :: ·) ih

theorem traffic_ofItems (rs : List (Outcome Action)) : traffic (ofItems rs) = [] := by
  induction rs with
  | nil => rfl
  | cons r rs ih => exact ih

theorem traffic_ofActions (as : List Action) : traffic (ofActions as) = [] := by
  induction as with
  | nil => rfl
  | cons a as ih => exact ih

theorem traffic_mapItems (f : Outcome Action → Outcome Action) (t : Trace) :
    traffic (t.mapItems f) = traffic t := by
  induction t with
  | nil => rfl
  | cons s t ih =>
    cases s with
    | item r => exact ih
    | acquired tag => exact congrArg (.acquired tag :: ·) ih
    | released tag => exact congrArg (.released tag :: ·) ih

theorem holding_append (held : List String) (t u : Trace) :
    holding held (t ++ u) = holding (holding held t) u := by
  induction t generalizing held with
  | nil => rfl
  | cons s t ih =>
    cases s with
    | item r => exact ih held
    | acquired tag => exact ih (tag :: held)
    | released tag => exact ih (held.erase tag)

theorem holding_traffic (held : List String) (t : Trace) :
    holding held (traffic t) = holding held t := by
  induction t generalizing held with
  | nil => rfl
  | cons s t ih =>
    cases s with
    | item r => exact ih held
    | acquired tag => exact ih (tag :: held)
    | released tag => exact ih (held.erase tag)

theorem holding_release (held : List String) : holding held (release held) = [] := by
  induction held with
  | nil => rfl
  | cons tag held ih =>
    have herase : (tag :: held).erase tag = held := List.erase_cons_head tag held
    exact (congrArg (holding · (release held)) herase).trans ih

/-- What is released has been held. -/
def Fits : List String → Trace → Prop
  | _, [] => True
  | held, .acquired tag :: t => Fits (tag :: held) t
  | held, .released tag :: t => tag ∈ held ∧ Fits (held.erase tag) t
  | held, .item _ :: t => Fits held t

theorem fits_append (held : List String) (t u : Trace) :
    Fits held (t ++ u) ↔ Fits held t ∧ Fits (holding held t) u := by
  induction t generalizing held with
  | nil => exact ⟨fun h ↦ ⟨trivial, h⟩, And.right⟩
  | cons s t ih =>
    cases s with
    | item r => exact ih held
    | acquired tag => exact ih (tag :: held)
    | released tag =>
      rw [List.cons_append, Fits, Fits, ih, and_assoc]
      exact Iff.rfl

theorem fits_traffic (held : List String) (t : Trace) : Fits held (traffic t) ↔ Fits held t := by
  induction t generalizing held with
  | nil => exact Iff.rfl
  | cons s t ih =>
    cases s with
    | item r => exact ih held
    | acquired tag => exact ih (tag :: held)
    | released tag => exact and_congr_right fun _ ↦ ih (held.erase tag)

theorem fits_release (held : List String) : Fits held (release held) := by
  induction held with
  | nil => trivial
  | cons tag held ih =>
    refine ⟨List.mem_cons_self, ?_⟩
    rwa [List.erase_cons_head]

theorem Fits.mono {held held' : List String} {t : Trace} (h : Fits held t)
    (hc : ∀ tag, held.count tag ≤ held'.count tag) : Fits held' t := by
  induction t generalizing held held' with
  | nil => trivial
  | cons s t ih =>
    cases s with
    | item r =>
      have hrest : Fits held t := h
      exact ih hrest hc
    | acquired tag =>
      have hrest : Fits (tag :: held) t := h
      refine ih hrest fun other ↦ ?_
      have hother := hc other
      simp only [List.count_cons]
      omega
    | released tag =>
      obtain ⟨hmem, hrest⟩ := h
      refine ⟨List.count_pos_iff.1 (Nat.lt_of_lt_of_le (List.count_pos_iff.2 hmem) (hc tag)), ?_⟩
      refine ih hrest fun other ↦ ?_
      have hother := hc other
      simp only [List.count_erase]
      omega

theorem Fits.initial {held : List String} {p t : Trace} (h : Fits held t) (hp : p <+: t) :
    Fits held p := by
  obtain ⟨u, rfl⟩ := hp
  exact ((fits_append held p u).1 h).1

def change (tags : List String) : Step → Int
  | .acquired tag => if tag ∈ tags then 1 else 0
  | .released tag => if tag ∈ tags then -1 else 0
  | .item _ => 0

def balance (tags : List String) (t : Trace) : Int := (t.map (change tags)).sum

@[simp] theorem balance_nil (tags : List String) : balance tags [] = 0 := rfl

@[simp] theorem balance_cons (tags : List String) (s : Step) (t : Trace) :
    balance tags (s :: t) = change tags s + balance tags t := List.sum_cons

theorem balance_traffic (tags : List String) (t : Trace) :
    balance tags (traffic t) = balance tags t := by
  induction t with
  | nil => rfl
  | cons s t ih =>
    cases s with
    | item r => rw [traffic_item, ih, balance_cons, change, Int.zero_add]
    | acquired tag => rw [traffic_acquired, balance_cons, ih, balance_cons]
    | released tag => rw [traffic_released, balance_cons, ih, balance_cons]

theorem balance_holding {held : List String} {t : Trace} (h : Fits held t) (tags : List String) :
    ((holding held t).countP (· ∈ tags) : Int) = held.countP (· ∈ tags) + balance tags t := by
  induction t generalizing held with
  | nil => exact (Int.add_zero _).symm
  | cons s t ih =>
    cases s with
    | item r => rw [holding, ih h, balance_cons, change, Int.zero_add]
    | acquired tag =>
      rw [holding, ih h, balance_cons, change, List.countP_cons]
      by_cases htag : tag ∈ tags
      · simp only [htag, decide_true, if_true]
        omega
      · simp [htag]
    | released tag =>
      obtain ⟨hmem, hrest⟩ := h
      rw [holding, ih hrest, balance_cons, change, List.countP_erase]
      by_cases htag : tag ∈ tags
      · have hpos : 0 < held.countP (· ∈ tags) :=
          List.countP_pos_iff.2 ⟨tag, hmem, decide_eq_true htag⟩
        simp only [htag, hmem, decide_true, and_self, if_true]
        omega
      · simp [htag]

@[simp] theorem acquisitions_item (tag : String) (r : Outcome Action) (t : Trace) :
    acquisitions tag (.item r :: t) = acquisitions tag t := rfl

@[simp] theorem acquisitions_acquired (tag other : String) (t : Trace) :
    acquisitions tag (.acquired other :: t) = (if other = tag then 1 else 0) + acquisitions tag t :=
  rfl

@[simp] theorem acquisitions_released (tag other : String) (t : Trace) :
    acquisitions tag (.released other :: t) = acquisitions tag t := rfl

@[simp] theorem releases_item (tag : String) (r : Outcome Action) (t : Trace) :
    releases tag (.item r :: t) = releases tag t := rfl

@[simp] theorem releases_acquired (tag other : String) (t : Trace) :
    releases tag (.acquired other :: t) = releases tag t := rfl

@[simp] theorem releases_released (tag other : String) (t : Trace) :
    releases tag (.released other :: t) = (if other = tag then 1 else 0) + releases tag t := rfl

theorem balance_singleton (tag : String) (t : Trace) :
    balance [tag] t = (acquisitions tag t : Int) - releases tag t := by
  induction t with
  | nil => rfl
  | cons s t ih =>
    cases s with
    | item r => rw [balance_cons, ih, change, acquisitions_item, releases_item, Int.zero_add]
    | acquired other =>
      rw [balance_cons, ih, change, acquisitions_acquired, releases_acquired]
      simp only [List.mem_singleton]
      split <;> omega
    | released other =>
      rw [balance_cons, ih, change, acquisitions_released, releases_released]
      simp only [List.mem_singleton]
      split <;> omega

theorem items_acquired (tag : String) (t : Trace) : items (.acquired tag :: t) = items t := rfl

theorem items_released (tag : String) (t : Trace) : items (.released tag :: t) = items t := rfl

theorem pulls_nil (n : Nat) : pulls n [] = [] := by
  induction n with
  | zero => rfl
  | succ n ih => exact ih

theorem pulls_item (n : Nat) (r : Outcome Action) (t : Trace) :
    pulls (n + 1) (.item r :: t) = .item r :: pulls n t := rfl

theorem pulls_acquired {n : Nat} (h : 0 < n) (tag : String) (t : Trace) :
    pulls n (.acquired tag :: t) = .acquired tag :: pulls n t := by
  cases n with
  | zero => cases h
  | succ n => rfl

theorem pulls_released {n : Nat} (h : 0 < n) (tag : String) (t : Trace) :
    pulls n (.released tag :: t) = .released tag :: pulls n t := by
  cases n with
  | zero => cases h
  | succ n => rfl

theorem pulls_append_of_le {k : Nat} {t : Trace} (h : k ≤ t.items.length) (u : Trace) :
    pulls k (t ++ u) = pulls k t := by
  induction t generalizing k with
  | nil =>
    obtain rfl := Nat.le_zero.1 h
    rfl
  | cons s t ih =>
    cases k with
    | zero => rfl
    | succ k =>
      cases s with
      | item r => exact congrArg (.item r :: ·) (ih (Nat.le_of_succ_le_succ h))
      | acquired tag => exact congrArg (.acquired tag :: ·) (ih h)
      | released tag => exact congrArg (.released tag :: ·) (ih h)

theorem pulls_append_of_lt {k : Nat} {t : Trace} (h : t.items.length < k) (u : Trace) :
    pulls k (t ++ u) = t ++ pulls (k - t.items.length) u := by
  induction t generalizing k with
  | nil => rfl
  | cons s t ih =>
    obtain ⟨k, rfl⟩ : ∃ j, k = j + 1 := ⟨k - 1, by omega⟩
    cases s with
    | item r =>
      have hk : k + 1 - (items (.item r :: t)).length = k - (items t).length :=
        Nat.add_sub_add_right k 1 _
      rw [List.cons_append, pulls_item, hk, ih (Nat.lt_of_succ_lt_succ h)]
      rfl
    | acquired tag => exact congrArg (.acquired tag :: ·) (ih h)
    | released tag => exact congrArg (.released tag :: ·) (ih h)

theorem pulls_of_lt {k : Nat} {t : Trace} (h : t.items.length < k) : pulls k t = t := by
  have hall := pulls_append_of_lt h []
  rwa [List.append_nil, pulls_nil, List.append_nil] at hall

def closedFrom (held : List String) (t : Trace) : Trace := t ++ release (t.holding held)

theorem closed_append (t u : Trace) : closed (t ++ u) = t ++ closedFrom (t.holding []) u := by
  rw [closed, closedFrom, holding_append, List.append_assoc]

theorem pulls_initial (k : Nat) (t : Trace) : pulls k t <+: t := by
  rcases Nat.lt_or_ge t.items.length k with h | h
  · rw [pulls_of_lt h]
  · induction t generalizing k with
    | nil => rw [pulls_nil]
    | cons s t ih =>
      cases k with
      | zero => exact List.nil_prefix
      | succ k =>
        cases s with
        | item r => exact (List.prefix_cons_inj _).2 (ih k (Nat.le_of_succ_le_succ h))
        | acquired tag => exact (List.prefix_cons_inj _).2 (ih (k + 1) h)
        | released tag => exact (List.prefix_cons_inj _).2 (ih (k + 1) h)

/-- How often a reader pulls: up to the failure that stops it, or once more than there are items. -/
def asked {σ : Type} (read : σ → Action → Outcome σ) : σ → List (Outcome Action) → Nat
  | _, [] => 1
  | _, .error _ :: _ => 1
  | s, .ok a :: rs =>
    match read s a with
    | .ok s' => asked read s' rs + 1
    | .error _ => 1

section Readers

variable {σ : Type} {read : σ → Action → Outcome σ} {s s' : σ} {e : Error}
  {xs : List (Outcome Action)}

theorem asked_pos : 0 < asked read s xs := by
  cases xs with
  | nil => exact Nat.one_pos
  | cons x xs =>
    cases x with
    | error e => exact Nat.one_pos
    | ok a =>
      rw [asked]
      split <;> exact Nat.succ_pos _

/-- What a reader does to the resources: it pulls, and drops what it holds then. -/
theorem traffic_drainFrom (read : σ → Action → Outcome σ) (s : σ) (held : List String) (t : Trace) :
    (drainFrom read s held t).traffic =
      (closedFrom held (t.pulls (asked read s t.items))).traffic := by
  induction t generalizing s held with
  | nil => exact (traffic_release held).symm
  | cons step t ih =>
    cases step with
    | acquired tag =>
      rw [items_acquired, pulls_acquired asked_pos]
      exact congrArg (.acquired tag :: ·) (ih s (tag :: held))
    | released tag =>
      rw [items_released, pulls_released asked_pos]
      exact congrArg (.released tag :: ·) (ih s (held.erase tag))
    | item r =>
      cases r with
      | error e => exact (traffic_release held).symm
      | ok a =>
        rw [drainFrom, items, asked]
        cases read s a with
        | error e => exact (traffic_release held).symm
        | ok s' => exact ih s' held

theorem feed_append (xs ys : List (Outcome Action)) :
    feed read s (xs ++ ys) = feed read s xs >>= fun s' ↦ feed read s' ys := by
  induction xs generalizing s with
  | nil => rfl
  | cons x xs ih =>
    cases x with
    | error e => rfl
    | ok a =>
      rw [List.cons_append, feed, feed]
      cases read s a with
      | error e => rfl
      | ok s' => exact ih

theorem asked_append_of_ok (h : feed read s xs = .ok s') (ys : List (Outcome Action)) :
    asked read s (xs ++ ys) = xs.length + asked read s' ys := by
  induction xs generalizing s with
  | nil =>
    obtain rfl := Except.ok.inj h
    exact (Nat.zero_add _).symm
  | cons x xs ih =>
    cases x with
    | error e => cases h
    | ok a =>
      rw [feed] at h
      rw [List.cons_append, asked]
      cases hread : read s a with
      | error e => simp [hread] at h
      | ok s'' =>
        simp only [hread] at h ⊢
        rw [ih h, List.length_cons]
        omega

theorem asked_append_of_error (h : feed read s xs = .error e) (ys : List (Outcome Action)) :
    asked read s (xs ++ ys) ≤ xs.length := by
  induction xs generalizing s with
  | nil => cases h
  | cons x xs ih =>
    cases x with
    | error e => exact Nat.succ_le_succ (Nat.zero_le _)
    | ok a =>
      rw [feed] at h
      rw [List.cons_append, asked]
      cases hread : read s a with
      | error e => exact Nat.succ_le_succ (Nat.zero_le _)
      | ok s'' =>
        simp only [hread] at h ⊢
        exact Nat.succ_le_succ (ih h)

end Readers

end Trace

namespace Opening

/-- Opening a traversal, pulling some times, and dropping it. -/
def run (o : Opening) (k : Nat) : Trace :=
  match o.result with
  | .ok t => Trace.closed (o.start ++ t.pulls k)
  | .error _ => o.start

variable {o : Opening} {t : Trace}

theorem run_ok (h : o.result = .ok t) (k : Nat) :
    o.run k = o.start ++ Trace.closedFrom (o.start.holding []) (t.pulls k) := by
  rw [run, h]
  exact Trace.closed_append _ _

theorem traffic_drain {σ : Type} (read : σ → Action → Outcome σ) (s : σ) (ho : o.start.items = [])
    (h : o.result = .ok t) :
    (o.drain read s).traffic = (o.run (Trace.asked read s t.items)).traffic := by
  have hitems : (o.start ++ t).items = t.items := by rw [Trace.items_append, ho, List.nil_append]
  have hpulls :
      (o.start ++ t).pulls (Trace.asked read s t.items) =
      o.start ++ t.pulls (Trace.asked read s t.items) := by
    rw [Trace.pulls_append_of_lt (by rw [ho]; exact Trace.asked_pos), ho]
    rfl
  rw [drain, h, run, h]
  simp only [Trace.traffic_drainFrom, hitems, hpulls]
  rfl

end Opening

namespace Results

def upToFailure (k : Nat) (ys : List (Outcome Action)) : Nat :=
  if failure ys = none then k else min k ys.length

theorem upToFailure_le (k : Nat) (ys : List (Outcome Action)) : upToFailure k ys ≤ k := by
  rw [upToFailure]
  split
  · exact Nat.le_refl k
  · exact Nat.min_le_left k _

theorem upToFailure_zero (ys : List (Outcome Action)) : upToFailure 0 ys = 0 :=
  Nat.le_zero.1 (upToFailure_le 0 ys)

theorem upToFailure_pos {k : Nat} {ys : List (Outcome Action)} (h : 0 < k) :
    0 < upToFailure k ys := by
  rw [upToFailure]
  split
  · exact h
  · rename_i hfails
    refine Nat.lt_min.2 ⟨h, List.length_pos_iff.2 ?_⟩
    rintro rfl
    exact hfails rfl

theorem upToFailure_cons (k : Nat) (a : Action) (ys : List (Outcome Action)) :
    upToFailure (k + 1) (.ok a :: ys) = upToFailure k ys + 1 := by
  rw [upToFailure, upToFailure, failure, List.length_cons]
  split <;> omega

theorem upToFailure_error (k : Nat) (e : Error) : upToFailure (k + 1) [.error e] = 1 := by
  rw [upToFailure, failure, if_neg (Option.some_ne_none e)]
  exact Nat.min_eq_right (Nat.succ_le_succ (Nat.zero_le k))

end Results

namespace RowTracking

open Trace

theorem assignFrom_item (g : RowIdAssigner) (held : List String) (r : Outcome Action) :
    (∃ e, ∀ t, assignFrom g held (.item r :: t) = release held ++ [.item (.error e)]) ∨
      ∃ a b g', r = .ok a ∧ g.assign a = .ok (b, g') ∧
        ∀ t, assignFrom g held (.item r :: t) = .item (.ok b) :: assignFrom g' held t := by
  cases r with
  | error e => exact .inl ⟨e, fun _ ↦ rfl⟩
  | ok a =>
    simp only [assignFrom]
    cases ha : g.assign a with
    | error e => exact .inl ⟨e, fun _ ↦ rfl⟩
    | ok r => exact .inr ⟨a, r.1, r.2, rfl, ha, fun _ ↦ rfl⟩

theorem pulls_refused (held : List String) (r : Outcome Action) (k : Nat) :
    pulls (k + 1) (release held ++ [.item r]) = release held ++ [.item r] := by
  rw [pulls_append_of_lt (by rw [items_release]; exact Nat.succ_pos k), items_release,
    List.length_nil, Nat.sub_zero, pulls_item, pulls_nil]

theorem traffic_refused (held : List String) (e : Error) (r : Outcome Action)
    (t : Trace) (k : Nat) :
    (closedFrom held (pulls (k + 1) (release held ++ [.item (.error e)]))).traffic =
      (closedFrom held (pulls
        (Results.upToFailure (k + 1) (items (release held ++ [.item (.error e)])))
        (.item r :: t))).traffic := by
  have hitems : items (release held ++ [.item (.error e)]) = [.error e] := by
    rw [items_append, items_release]
    rfl
  have hend : holding held (release held ++ [.item (.error e)]) = [] := by
    rw [holding_append, holding_release]
    rfl
  rw [pulls_refused, hitems, Results.upToFailure_error, closedFrom, hend, traffic_append,
    traffic_append, traffic_release]
  exact (List.append_nil _).trans ((List.append_nil _).trans (traffic_release held).symm)

/-- Giving out row ids pulls what is below as often as it is pulled itself,
until it fails, and drops it in the end. -/
theorem traffic_assignFrom (g : RowIdAssigner) (held : List String) (t : Trace) (k : Nat) :
    (closedFrom held ((assignFrom g held t).pulls k)).traffic =
      (closedFrom held (t.pulls (Results.upToFailure k (assignFrom g held t).items))).traffic := by
  induction t generalizing g held k with
  | nil =>
    cases k with
    | zero =>
      rw [Results.upToFailure_zero]
      rfl
    | succ k =>
      have hend : (release held).pulls (k + 1) = release held :=
        pulls_of_lt (by rw [items_release]; exact Nat.succ_pos k)
      rw [assignFrom, hend, pulls_nil, closedFrom, holding_release]
      exact congrArg traffic (List.append_nil _)
  | cons s t ih =>
    cases k with
    | zero =>
      rw [Results.upToFailure_zero]
      rfl
    | succ k =>
      have hpos := Nat.succ_pos k
      cases s with
      | acquired tag =>
        rw [assignFrom, items_acquired, pulls_acquired hpos,
          pulls_acquired (Results.upToFailure_pos hpos)]
        exact congrArg (.acquired tag :: ·) (ih g (tag :: held) (k + 1))
      | released tag =>
        rw [assignFrom, items_released, pulls_released hpos,
          pulls_released (Results.upToFailure_pos hpos)]
        exact congrArg (.released tag :: ·) (ih g (held.erase tag) (k + 1))
      | item r =>
        rcases assignFrom_item g held r with ⟨e, hrefused⟩ | ⟨a, b, g', -, -, hassigned⟩
        · rw [hrefused]
          exact traffic_refused held e r t k
        · rw [hassigned, items, Results.upToFailure_cons, pulls_item, pulls_item]
          exact ih g' held k

theorem wrap_cases (w : RowTracking) (o : Opening) :
    (w.wrap o = o ∧ (w.supported → ∃ e, o.result = .error e)) ∨
      ∃ t, o.result = .ok t ∧
        ((∃ e, w.wrap o = { start := closed o.start, result := .error e }) ∨
          ∃ g, RowIdAssigner.start w.highWaterMark w.commitVersion = .ok g ∧
            w.wrap o =
              { start := o.start, result := .ok (assignFrom g (o.start.holding []) t) }) := by
  by_cases hw : w.supported
  · rw [wrap, if_pos hw]
    cases ho : o.result with
    | error e => exact .inl ⟨rfl, fun _ ↦ ⟨e, rfl⟩⟩
    | ok t =>
      cases RowIdAssigner.start w.highWaterMark w.commitVersion with
      | error e => exact .inr ⟨t, rfl, .inl ⟨e, rfl⟩⟩
      | ok g => exact .inr ⟨t, rfl, .inr ⟨g, rfl, rfl⟩⟩
  · rw [wrap, if_neg hw]
    exact .inl ⟨rfl, fun h ↦ absurd h hw⟩

theorem start_wrap (w : RowTracking) {o : Opening} (h : o.start = []) : (w.wrap o).start = [] := by
  rcases w.wrap_cases o with ⟨hwrap, -⟩ | ⟨t, -, ⟨e, hwrap⟩ | ⟨g, -, hwrap⟩⟩
  · rwa [hwrap]
  · rw [hwrap, h]
    rfl
  · rwa [hwrap]

/-- Wrapping a traversal makes no difference to the resources below,
other than that it may be pulled less. -/
theorem traffic_wrap (w : RowTracking) (o : Opening) (k : Nat) :
    ∃ j ≤ k, ((w.wrap o).run k).traffic = (o.run j).traffic := by
  rcases w.wrap_cases o with ⟨hwrap, -⟩ | ⟨t, ht, ⟨e, hwrap⟩ | ⟨g, -, hwrap⟩⟩
  · rw [hwrap]
    exact ⟨k, Nat.le_refl k, rfl⟩
  · rw [hwrap]
    refine ⟨0, Nat.zero_le k, ?_⟩
    rw [Opening.run_ok ht, Opening.run]
    rfl
  · refine ⟨Results.upToFailure k (assignFrom g (o.start.holding []) t).items,
      Results.upToFailure_le k _, ?_⟩
    rw [hwrap, Opening.run_ok rfl, Opening.run_ok ht, traffic_append, traffic_append,
      traffic_assignFrom]

theorem traffic_wrap_ok {w : RowTracking} (hw : w.supported) {o : Opening} {t : Trace}
    (ho : o.result = .ok t) {g : RowIdAssigner}
    (hg : RowIdAssigner.start w.highWaterMark w.commitVersion = .ok g) (k : Nat) :
    ((w.wrap o).run k).traffic = (o.run (Results.upToFailure k (assignAll g t.items))).traffic := by
  have hwrap :
      w.wrap o = { start := o.start, result := .ok (assignFrom g (o.start.holding []) t) } := by
    rw [wrap, if_pos hw, ho]
    simp only [hg]
  rw [hwrap, Opening.run_ok rfl, Opening.run_ok ho, traffic_append, traffic_append,
    traffic_assignFrom, items_assignFrom]

end RowTracking

end TableLog
