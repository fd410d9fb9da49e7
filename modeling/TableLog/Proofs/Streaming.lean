import TableLog.Proofs.Traffic

namespace TableLog

namespace Trace

variable {tags : List String} {m n : Int} {t u : Trace}

/-- Everything that is acquired is released in the end, and nothing else is. -/
structure Settled (t : Trace) : Prop where
  fits : Fits [] t
  released : holding [] t = []

theorem settled_nil : Settled [] := ⟨trivial, rfl⟩

theorem Settled.append (ht : Settled t) (hu : Settled u) : Settled (t ++ u) where
  fits := (fits_append [] t u).2 ⟨ht.fits, ht.released.symm ▸ hu.fits⟩
  released := by rw [holding_append, ht.released, hu.released]

theorem settled_closed (h : Fits [] t) : Settled (closed t) where
  fits := (fits_append [] t _).2 ⟨h, fits_release _⟩
  released := by rw [closed, holding_append, holding_release]

theorem settled_traffic : Settled t.traffic ↔ Settled t := by
  constructor
  · intro h
    exact ⟨(fits_traffic [] t).1 h.fits, (holding_traffic [] t).symm.trans h.released⟩
  · intro h
    exact ⟨(fits_traffic [] t).2 h.fits, (holding_traffic [] t).trans h.released⟩

theorem Fits.releases_le (h : Fits [] t) (tag : String) : t.releases tag ≤ t.acquisitions tag := by
  have hbalance := balance_holding h [tag]
  rw [balance_singleton, List.countP_nil] at hbalance
  omega

theorem Settled.releases_eq (h : Settled t) (tag : String) :
    t.releases tag = t.acquisitions tag := by
  have hbalance := balance_holding h.fits [tag]
  rw [balance_singleton, h.released, List.countP_nil] at hbalance
  omega

/-- At no moment more than this many of the tags are held, beyond those held before. -/
def Bounded (tags : List String) (n : Int) (t : Trace) : Prop := ∀ p, p <+: t → balance tags p ≤ n

theorem Bounded.mono (h : Bounded tags m t) (hmn : m ≤ n) : Bounded tags n t :=
  fun p hp ↦ (h p hp).trans hmn

theorem Bounded.nonneg (h : Bounded tags n t) : 0 ≤ n := h [] List.nil_prefix

theorem bounded_nil : Bounded tags n [] ↔ 0 ≤ n := by
  refine ⟨Bounded.nonneg, fun hn p hp ↦ ?_⟩
  rwa [List.prefix_nil.1 hp]

theorem bounded_cons {s : Step} :
    Bounded tags n (s :: t) ↔ 0 ≤ n ∧ Bounded tags (n - change tags s) t := by
  constructor
  · intro h
    refine ⟨h.nonneg, fun p hp ↦ ?_⟩
    have hcons := h (s :: p) ((List.prefix_cons_inj s).2 hp)
    rw [balance_cons] at hcons
    omega
  · rintro ⟨hn, h⟩ p hp
    rcases List.prefix_cons_iff.1 hp with rfl | ⟨q, rfl, hq⟩
    · exact hn
    · have hrest := h q hq
      rw [balance_cons]
      omega

theorem bounded_append :
    Bounded tags n (t ++ u) ↔ Bounded tags n t ∧ Bounded tags (n - balance tags t) u := by
  induction t generalizing n with
  | nil =>
    rw [bounded_nil, balance_nil, Int.sub_zero]
    exact ⟨fun h ↦ ⟨h.nonneg, h⟩, And.right⟩
  | cons s t ih =>
    rw [List.cons_append, bounded_cons, bounded_cons, ih, balance_cons, and_assoc, Int.sub_sub]

theorem bounded_release (hn : 0 ≤ n) (held : List String) : Bounded tags n (release held) := by
  induction held generalizing n with
  | nil => exact bounded_nil.2 hn
  | cons tag held ih =>
    refine bounded_cons.2 ⟨hn, ih ?_⟩
    rw [change]
    split <;> omega

theorem balance_release_le (held : List String) : balance tags (release held) ≤ 0 :=
  bounded_release (Int.le_refl 0) held _ (List.prefix_refl _)

theorem bounded_closed (h : Bounded tags n t) : Bounded tags n (closed t) :=
  bounded_append.2 ⟨h, bounded_release (Int.sub_nonneg_of_le (h t (List.prefix_refl t))) _⟩

/-- Has the same steps as a longer trace, up to its own last item. -/
def Starts (t u : Trace) : Prop := ∃ p r v, t = p ++ r ∧ u = p ++ v ∧ r.items = []

theorem starts_refl (t : Trace) : Starts t t :=
  ⟨t, [], [], (List.append_nil t).symm, (List.append_nil t).symm, rfl⟩

theorem Starts.append_left (h : Starts t u) (a : Trace) : Starts (a ++ t) (a ++ u) := by
  obtain ⟨p, r, v, rfl, rfl, hr⟩ := h
  exact ⟨a ++ p, r, v, (List.append_assoc a p r).symm, (List.append_assoc a p v).symm, hr⟩

theorem Starts.append_right (h : Starts t u) (a : Trace) : Starts t (u ++ a) := by
  obtain ⟨p, r, v, rfl, rfl, hr⟩ := h
  exact ⟨p, r, v ++ a, rfl, List.append_assoc p v a, hr⟩

theorem Starts.closed (h : Starts t u) : Starts (closed t) (closed u) := by
  obtain ⟨p, r, v, rfl, rfl, hr⟩ := h
  refine ⟨p, r ++ release (holding [] (p ++ r)), v ++ release (holding [] (p ++ v)), ?_, ?_, ?_⟩
  · exact List.append_assoc p r _
  · exact List.append_assoc p v _
  · rw [items_append, hr, items_release, List.append_nil]

theorem Starts.pulls_eq (h : Starts t u) {k : Nat} (hk : k ≤ t.items.length) :
    pulls k u = pulls k t := by
  obtain ⟨p, r, v, rfl, rfl, hr⟩ := h
  rw [items_append, hr, List.append_nil] at hk
  rw [pulls_append_of_le hk, pulls_append_of_le hk]

end Trace

namespace Opening

open Trace

variable {o o' : Opening} {t : Trace} {e : Error} {tags : List String} {n : Int}

theorem all_ok (h : o.result = .ok t) : o.all = o.start ++ t := by rw [all, h]

theorem all_error (h : o.result = .error e) : o.all = o.start := by rw [all, h]

/-- What is released has been held, and a traversal that cannot be opened keeps nothing. -/
structure Sound (o : Opening) : Prop where
  fits : Fits [] o.all
  refused : ∀ e, o.result = .error e → holding [] o.start = []

theorem sound_of_ok (h : o.result = .ok t) (hfits : Fits [] (o.start ++ t)) : o.Sound where
  fits := by rwa [all_ok h]
  refused e he := by
    rw [h] at he
    cases he

theorem sound_of_error (h : o.result = .error e) (hs : Settled o.start) : o.Sound where
  fits := by
    rw [all_error h]
    exact hs.fits
  refused _ _ := hs.released

theorem Sound.settled_run (h : o.Sound) (k : Nat) : (o.run k).Settled := by
  have hfits := h.fits
  rw [run]
  cases hr : o.result with
  | ok t =>
    rw [all_ok hr] at hfits
    exact settled_closed (hfits.initial ((List.prefix_append_right_inj _).2 (pulls_initial k t)))
  | error e =>
    rw [all_error hr] at hfits
    exact ⟨hfits, h.refused e hr⟩

theorem items_run (ho : o.start.items = []) (h : o.result = .ok t) (k : Nat) :
    (o.run k).items = t.items.take k := by
  rw [run, h]
  simp only [items_closed, items_append, ho, List.nil_append, items_pulls]

theorem Sound.settled_inline (h : o.Sound) : o.inline.Settled := by
  have hfits := h.fits
  rw [inline]
  cases hr : o.result with
  | ok t =>
    rw [all_ok hr] at hfits
    exact settled_closed hfits
  | error e =>
    rw [all_error hr] at hfits
    exact Settled.append ⟨hfits, h.refused e hr⟩ ⟨trivial, rfl⟩

theorem bounded_run (h : Bounded tags n o.all) (k : Nat) : Bounded tags n (o.run k) := by
  rw [run]
  cases hr : o.result with
  | ok t =>
    rw [all_ok hr] at h
    refine bounded_closed fun p hp ↦ h p (hp.trans ?_)
    exact (List.prefix_append_right_inj _).2 (pulls_initial k t)
  | error e => rwa [all_error hr] at h

theorem bounded_inline (h : Bounded tags n o.all) : Bounded tags n o.inline := by
  rw [inline]
  cases hr : o.result with
  | ok t =>
    rw [all_ok hr] at h
    exact bounded_closed h
  | error e =>
    rw [all_error hr] at h
    have hend : balance tags o.start ≤ n := h _ (List.prefix_refl _)
    exact bounded_append.2 ⟨h, bounded_cons.2 ⟨by omega, bounded_nil.2 (by rw [change]; omega)⟩⟩

/-- Does the same as another opening, up to its own last item. -/
structure Starts (o' o : Opening) : Prop where
  start : o'.start = o.start
  result :
    (∃ e, o'.result = .error e ∧ o.result = .error e) ∨
      ∃ t' t, o'.result = .ok t' ∧ o.result = .ok t ∧ t'.Starts t

theorem starts_refl (o : Opening) : o.Starts o where
  start := rfl
  result :=
    match o.result with
    | .ok t => .inr ⟨t, t, rfl, rfl, Trace.starts_refl t⟩
    | .error e => .inl ⟨e, rfl, rfl⟩

theorem Starts.inline (h : o'.Starts o) : o'.inline.Starts o.inline := by
  obtain ⟨hstart, ⟨e, h', h⟩ | ⟨t', t, h', h, ht⟩⟩ := h
  · rw [Opening.inline, Opening.inline, h', h, hstart]
    exact Trace.starts_refl _
  · rw [Opening.inline, Opening.inline, h', h, hstart]
    exact (ht.append_left o.start).closed

theorem Starts.run_eq (h : o'.Starts o) {k : Nat} (hk : k ≤ o'.inline.items.length)
    (ho : o'.start.items = []) :
    o.run k = o'.run k := by
  obtain ⟨hstart, ⟨e, h', h⟩ | ⟨t', t, h', h, ht⟩⟩ := h
  · rw [run, run, h', h, hstart]
  · rw [items_inline, ho, h', List.nil_append] at hk
    rw [run, run, h', h, hstart]
    simp only [ht.pulls_eq hk]

end Opening

namespace RowTracking

open Trace

variable {g : RowIdAssigner} {held tags : List String} {n : Int} {t u : Trace}

theorem fits_assignFrom (g : RowIdAssigner) (h : Fits held t) :
    Fits held (assignFrom g held t) := by
  induction t generalizing g held with
  | nil => exact fits_release held
  | cons s t ih =>
    cases s with
    | acquired tag =>
      have hrest : Fits (tag :: held) t := h
      exact ih g hrest
    | released tag => exact ⟨h.1, ih g h.2⟩
    | item r =>
      rcases assignFrom_item g held r with ⟨e, hrefused⟩ | ⟨a, b, g', -, -, hassigned⟩
      · rw [hrefused]
        exact (fits_append held _ _).2 ⟨fits_release held, trivial⟩
      · have hrest : Fits held t := h
        rw [hassigned]
        exact ih g' hrest

theorem bounded_assignFrom (g : RowIdAssigner) (held : List String) (h : Bounded tags n t) :
    Bounded tags n (assignFrom g held t) := by
  induction t generalizing g held n with
  | nil => exact bounded_release h.nonneg held
  | cons s t ih =>
    obtain ⟨hn, hrest⟩ := bounded_cons.1 h
    cases s with
    | acquired tag => exact bounded_cons.2 ⟨hn, ih g (tag :: held) hrest⟩
    | released tag => exact bounded_cons.2 ⟨hn, ih g (held.erase tag) hrest⟩
    | item r =>
      rcases assignFrom_item g held r with ⟨e, hrefused⟩ | ⟨a, b, g', -, -, hassigned⟩
      · have hend : balance tags (release held) ≤ 0 := balance_release_le held
        rw [hrefused]
        refine bounded_append.2 ⟨bounded_release hn held,
          bounded_cons.2 ⟨by omega, bounded_nil.2 ?_⟩⟩
        rw [change]
        omega
      · rw [hassigned]
        exact bounded_cons.2 ⟨hn, ih g' held hrest⟩

/-- Has its first steps fixed, and then at most gives out row ids for what is left. -/
def Determined (f : Trace → Trace) : Prop :=
  ∃ q, (∀ v, f v = q) ∨ ∃ g held, ∀ v, f v = q ++ assignFrom g held v

theorem Determined.cons {f : Trace → Trace} (h : Determined f) (s : Step) :
    Determined fun v ↦ s :: f v := by
  obtain ⟨q, hq | ⟨g, held, hq⟩⟩ := h
  · exact ⟨s :: q, .inl fun v ↦ congrArg (s :: ·) (hq v)⟩
  · exact ⟨s :: q, .inr ⟨g, held, fun v ↦ congrArg (s :: ·) (hq v)⟩⟩

/-- What giving out row ids makes of the first steps does not depend on what comes behind. -/
theorem determined_assignFrom (g : RowIdAssigner) (held : List String) (p : Trace) :
    Determined fun v ↦ assignFrom g held (p ++ v) := by
  induction p generalizing g held with
  | nil => exact ⟨[], .inr ⟨g, held, fun _ ↦ rfl⟩⟩
  | cons s p ih =>
    cases s with
    | acquired tag => exact (ih g (tag :: held)).cons (.acquired tag)
    | released tag => exact (ih g (held.erase tag)).cons (.released tag)
    | item r =>
      rcases assignFrom_item g held r with ⟨e, hrefused⟩ | ⟨a, b, g', -, -, hassigned⟩
      · exact ⟨_, .inl fun v ↦ hrefused (p ++ v)⟩
      · simp only [List.cons_append, hassigned]
        exact (ih g' held).cons (.item (.ok b))

theorem starts_assignFrom (h : t.Starts u) (g : RowIdAssigner) (held : List String) :
    (assignFrom g held t).Starts (assignFrom g held u) := by
  obtain ⟨p, r, v, rfl, rfl, hr⟩ := h
  obtain ⟨q, hq | ⟨g', held', hq⟩⟩ := determined_assignFrom g held p
  · exact ⟨q, [], [], (hq r).trans (List.append_nil q).symm, (hq v).trans (List.append_nil q).symm,
      rfl⟩
  · refine ⟨q, assignFrom g' held' r, assignFrom g' held' v, hq r, hq v, ?_⟩
    rw [items_assignFrom, hr]
    rfl

theorem holding_assignFrom (g : RowIdAssigner) (held : List String) (t : Trace) :
    holding held (assignFrom g held t) = [] := by
  induction t generalizing g held with
  | nil => exact holding_release held
  | cons s t ih =>
    cases s with
    | acquired tag => exact ih g (tag :: held)
    | released tag => exact ih g (held.erase tag)
    | item r =>
      rcases assignFrom_item g held r with ⟨e, hrefused⟩ | ⟨a, b, g', -, -, hassigned⟩
      · rw [hrefused, holding_append, holding_release]
        rfl
      · rw [hassigned]
        exact ih g' held

theorem pulls_assignFrom {k : Nat} (h : ∀ a, (assignFrom g held t).items[k]? ≠ some (.ok a))
    {m : Nat} (hm : k < m) :
    (assignFrom g held t).pulls m = assignFrom g held t := by
  obtain ⟨m, rfl⟩ : ∃ j, m = j + 1 := ⟨m - 1, by omega⟩
  induction t generalizing g held k m with
  | nil => exact pulls_of_lt (by rw [assignFrom, items_release]; exact Nat.succ_pos m)
  | cons s t ih =>
    cases s with
    | acquired tag => exact congrArg (.acquired tag :: ·) (ih h m hm)
    | released tag => exact congrArg (.released tag :: ·) (ih h m hm)
    | item r =>
      rcases assignFrom_item g held r with ⟨e, hrefused⟩ | ⟨a, b, g', -, -, hassigned⟩
      · rw [hrefused]
        exact pulls_refused held (.error e) m
      · rw [hassigned] at h ⊢
        -- the first pull has given an action
        cases k with
        | zero => exact absurd rfl (h b)
        | succ k =>
          obtain ⟨m, rfl⟩ : ∃ j, m = j + 1 := ⟨m - 1, by omega⟩
          exact congrArg (.item (.ok b) :: ·) (ih h m (Nat.lt_of_succ_lt_succ hm))

theorem wrap_pulled {w : RowTracking} {o : Opening} (hw : w.supported)
    (ht : (w.wrap o).result = .ok t) {k : Nat} (hk : ∀ a, t.items[k]? ≠ some (.ok a)) :
    ((w.wrap o).start ++ t.pulls (k + 1)).holding [] = [] ∧ ∀ m, k < m →
    t.pulls m = t.pulls (k + 1) := by
  rcases w.wrap_cases o with ⟨hwrap, hfails⟩ | ⟨u, -, ⟨e, hwrap⟩ | ⟨g, -, hwrap⟩⟩
  · obtain ⟨e, he⟩ := hfails hw
    rw [hwrap, he] at ht
    cases ht
  · rw [hwrap] at ht
    cases ht
  · rw [hwrap] at ht ⊢
    obtain rfl := Except.ok.inj ht
    rw [pulls_assignFrom hk (Nat.lt_succ_self k), holding_append, holding_assignFrom]
    exact ⟨rfl, fun m hm ↦ pulls_assignFrom hk hm⟩

theorem sound_wrap (w : RowTracking) {o : Opening} (h : o.Sound) : (w.wrap o).Sound := by
  rcases w.wrap_cases o with ⟨hwrap, -⟩ | ⟨t, ht, hwrap⟩
  · rwa [hwrap]
  · have hfits := h.fits
    rw [Opening.all_ok ht] at hfits
    obtain ⟨hstart, htail⟩ := (fits_append [] o.start t).1 hfits
    rcases hwrap with ⟨e, hwrap⟩ | ⟨g, -, hwrap⟩
    · rw [hwrap]
      exact Opening.sound_of_error rfl (settled_closed hstart)
    · rw [hwrap]
      exact Opening.sound_of_ok rfl ((fits_append [] o.start _).2 ⟨hstart, fits_assignFrom g htail⟩)

theorem bounded_wrap (w : RowTracking) {o : Opening} (h : Bounded tags n o.all) :
    Bounded tags n (w.wrap o).all := by
  rcases w.wrap_cases o with ⟨hwrap, -⟩ | ⟨t, ht, hwrap⟩
  · rwa [hwrap]
  · rw [Opening.all_ok ht] at h
    obtain ⟨hstart, htail⟩ := bounded_append.1 h
    rcases hwrap with ⟨e, hwrap⟩ | ⟨g, -, hwrap⟩
    · rw [hwrap]
      exact bounded_closed hstart
    · rw [hwrap]
      exact bounded_append.2 ⟨hstart, bounded_assignFrom g _ htail⟩

theorem starts_wrap (w : RowTracking) {o o' : Opening} (h : o'.Starts o) :
    (w.wrap o').Starts (w.wrap o) := by
  rw [wrap, wrap]
  split
  · obtain ⟨hstart, ⟨e, h', he⟩ | ⟨t', t, h', ht, hstarts⟩⟩ := h
    · rw [h', he]
      exact ⟨hstart, .inl ⟨e, h', he⟩⟩
    · rw [h', ht, hstart]
      cases RowIdAssigner.start w.highWaterMark w.commitVersion with
      | error e => exact Opening.starts_refl _
      | ok g => exact ⟨rfl, .inr ⟨_, _, rfl, rfl, starts_assignFrom hstarts g _⟩⟩
  · exact h

end RowTracking

namespace Source

open Trace

def run (turn : Nat) (s : Source) (k : Nat) : Trace := (s.traverse turn).run k

mutual

/-- How many of these tags stand one inside the other. -/
def nesting (tags : List String) : Source → Nat
  | actions _ => 0
  | file _ => 0
  | turns _ => 0
  | tagged tag inner => (if tag ∈ tags then 1 else 0) + nesting tags inner
  | chain members => nestingEach tags members
  | rowTracking _ inner => nesting tags inner

def nestingEach (tags : List String) : List Source → Nat
  | [] => 0
  | s :: r => max (nesting tags s) (nestingEach tags r)

end

section Openings

variable {turn : Nat} {tags : List String} {n : Int} {o o' : Opening} {t : Trace} {e : Error}

theorem openTagged_ok (tag : String) (h : o.result = .ok t) :
    openTagged tag o = { start := o.start ++ [.acquired tag], result := .ok t } := by
  rw [openTagged, h]

theorem openTagged_error (tag : String) (h : o.result = .error e) :
    openTagged tag o = { start := o.start, result := .error e } := by rw [openTagged, h]

theorem sound_openTagged (tag : String) (h : o.Sound) : (openTagged tag o).Sound := by
  obtain ⟨hfits, hrefused⟩ := h
  cases hr : o.result with
  | ok t =>
    rw [Opening.all_ok hr] at hfits
    obtain ⟨hstart, ht⟩ := (fits_append [] o.start t).1 hfits
    rw [openTagged_ok tag hr]
    refine Opening.sound_of_ok rfl ?_
    -- the tag is held on top of what the inner source holds
    rw [List.append_assoc]
    exact (fits_append [] o.start _).2 ⟨hstart, ht.mono fun _ ↦ List.count_le_count_cons⟩
  | error e =>
    rw [Opening.all_error hr] at hfits
    rw [openTagged_error tag hr]
    exact Opening.sound_of_error rfl ⟨hfits, hrefused e hr⟩

theorem bounded_openTagged (tag : String) (h : Bounded tags n o.all) :
    Bounded tags ((if tag ∈ tags then 1 else 0) + n) (openTagged tag o).all := by
  have hle : n ≤ (if tag ∈ tags then 1 else 0) + n := by split <;> omega
  cases hr : o.result with
  | ok t =>
    rw [Opening.all_ok hr] at h
    obtain ⟨hstart, ht⟩ := bounded_append.1 h
    have hend : balance tags o.start ≤ n := hstart _ (List.prefix_refl _)
    rw [openTagged_ok tag hr, Opening.all_ok rfl, List.append_assoc]
    refine bounded_append.2 ⟨hstart.mono hle, bounded_cons.2 ⟨by omega, ht.mono ?_⟩⟩
    rw [change]
    omega
  | error e =>
    rw [Opening.all_error hr] at h
    rw [openTagged_error tag hr]
    exact h.mono hle

theorem starts_openTagged (tag : String) (h : o'.Starts o) :
    (openTagged tag o').Starts (openTagged tag o) := by
  obtain ⟨hstart, ⟨e, h', h⟩ | ⟨t', t, h', h, ht⟩⟩ := h
  · rw [openTagged, openTagged, h', h, hstart]
    exact Opening.starts_refl _
  · rw [openTagged, openTagged, h', h, hstart]
    exact ⟨rfl, .inr ⟨t', t, rfl, rfl, ht⟩⟩

theorem fits_of_traffic (h : t.traffic = []) : Fits [] t := (fits_traffic [] t).1 (h ▸ trivial)

mutual

/-- Whatever a source is made of, it only releases what it holds. -/
theorem sound (turn : Nat) : ∀ s : Source, (s.traverse turn).Sound
  | .actions as => Opening.sound_of_ok rfl (fits_of_traffic (traffic_ofActions as))
  | .file none => Opening.sound_of_error rfl settled_nil
  | .file (some .directory) => Opening.sound_of_ok rfl trivial
  | .file (some (.file bs)) =>
    Opening.sound_of_ok rfl (fits_of_traffic (traffic_ofItems (readActions bs)))
  | .turns ask => by
    rw [traverse]
    cases ask turn with
    | ok rs => exact Opening.sound_of_ok rfl (fits_of_traffic (traffic_ofItems rs))
    | error e => exact Opening.sound_of_error rfl settled_nil
  | .tagged tag inner => sound_openTagged tag (sound turn inner)
  | .chain members => Opening.sound_of_ok rfl (settled_traverseEach turn members).fits
  | .rowTracking w inner => RowTracking.sound_wrap w (sound turn inner)

theorem settled_traverseEach (turn : Nat) : ∀ ss : List Source, (traverseEach turn ss).Settled
  | [] => settled_nil
  | s :: ss => (sound turn s).settled_inline.append (settled_traverseEach turn ss)

end

theorem bounded_of_traffic {t : Trace} (h : t.traffic = []) : Bounded tags 0 t := by
  intro p hp
  have htraffic : traffic p <+: traffic t := hp.filter _
  rw [h] at htraffic
  have hnone : traffic p = [] := List.prefix_nil.1 htraffic
  rw [← balance_traffic, hnone, balance_nil]

mutual

/-- Of tags that do not stand one inside the other, no two are held at a time. -/
theorem bounded (turn : Nat) (tags : List String) :
    ∀ s : Source, Bounded tags (s.nesting tags) (s.traverse turn).all
  | .actions as => bounded_of_traffic (traffic_ofActions as)
  | .file none => bounded_of_traffic rfl
  | .file (some .directory) => bounded_of_traffic rfl
  | .file (some (.file bs)) => bounded_of_traffic (traffic_ofItems (readActions bs))
  | .turns ask => by
    rw [traverse]
    cases ask turn with
    | ok rs => exact bounded_of_traffic (traffic_ofItems rs)
    | error e => exact bounded_of_traffic rfl
  | .tagged tag inner => by
    have hinner := bounded_openTagged tag (bounded turn tags inner)
    rw [nesting, Nat.cast_add, Nat.cast_ite]
    exact hinner
  | .chain members => boundedEach turn tags members
  | .rowTracking w inner => RowTracking.bounded_wrap w (bounded turn tags inner)

theorem boundedEach (turn : Nat) (tags : List String) :
    ∀ ss : List Source, Bounded tags (nestingEach tags ss) (traverseEach turn ss)
  | [] => bounded_nil.2 (Int.le_refl 0)
  | s :: ss => by
    have hfirst := Opening.bounded_inline (bounded turn tags s)
    have hrest := boundedEach turn tags ss
    -- nothing of the first member is left when the next one is opened
    have hsettled := (sound turn s).settled_inline
    have hbalance := balance_holding hsettled.fits tags
    rw [hsettled.released, List.countP_nil] at hbalance
    rw [traverseEach, nestingEach]
    refine bounded_append.2 ⟨hfirst.mono (by omega), hrest.mono (by omega)⟩

end

/-- What is left of a source when one of its chains is cut off
somewhere, with all that lies behind. -/
inductive Initial : Source → Source → Prop
  | refl (s : Source) : Initial s s
  | cut (before after : List Source) : Initial (.chain before) (.chain (before ++ after))
  | tagged {s' s : Source} (tag : String)
      (h : Initial s' s) : Initial (.tagged tag s') (.tagged tag s)
  | rowTracking {s' s : Source} (w : RowTracking)
      (h : Initial s' s) : Initial (.rowTracking w s') (.rowTracking w s)
  | chain {s' s : Source} (before after : List Source) (h : Initial s' s) :
    Initial (.chain (before ++ [s'])) (.chain (before ++ s :: after))

theorem traverseEach_append (turn : Nat) (ss rs : List Source) :
    traverseEach turn (ss ++ rs) = traverseEach turn ss ++ traverseEach turn rs := by
  induction ss with
  | nil => rfl
  | cons s ss ih => rw [List.cons_append, traverseEach, traverseEach, ih, List.append_assoc]

theorem Initial.starts {s' s : Source} (h : Initial s' s) (turn : Nat) :
    (s'.traverse turn).Starts (s.traverse turn) := by
  induction h with
  | refl s => exact Opening.starts_refl _
  | cut before after =>
    refine ⟨rfl, .inr ⟨_, _, rfl, rfl, ?_⟩⟩
    rw [traverseEach_append]
    exact (Trace.starts_refl _).append_right _
  | tagged tag _ ih => exact starts_openTagged tag ih
  | rowTracking w _ ih => exact RowTracking.starts_wrap w ih
  | @chain s' s before after _ ih =>
    refine ⟨rfl, .inr ⟨_, _, rfl, rfl, ?_⟩⟩
    rw [traverseEach_append, traverseEach_append, traverseEach, traverseEach, traverseEach,
      List.append_nil]
    exact (ih.inline.append_right (traverseEach turn after)).append_left (traverseEach turn before)

/-- As long as there are items in the first part, nothing else is touched. -/
theorem Initial.run_eq {s' s : Source} (h : Initial s' s) {turn k : Nat}
    (hk : k ≤ (s'.traverse turn).inline.items.length) : s.run turn k = s'.run turn k :=
  (h.starts turn).run_eq hk (s'.items_start turn)

theorem settled_run (turn : Nat) (s : Source) (k : Nat) : (s.run turn k).Settled :=
  (sound turn s).settled_run k

end Openings

def watched (members : List (String × Source)) : List Source := members.map fun m ↦ .tagged m.1 m.2

theorem nestingEach_watched {tags : List String} {members : List (String × Source)}
    (h : ∀ m ∈ members, m.2.nesting tags = 0) : nestingEach tags (watched members) ≤ 1 := by
  induction members with
  | nil => exact Nat.zero_le 1
  | cons m members ih =>
    obtain ⟨hm, hrest⟩ := List.forall_mem_cons.1 h
    rw [watched, List.map_cons, nestingEach, nesting, hm]
    refine Nat.max_le.2 ⟨?_, ih hrest⟩
    split <;> omega

end Source

/-- Traversals are lazy, and what they open they release exactly once. -/
theorem Source.traversals_stream (turn : Nat) :
    -- a chain yields what its members yield
    (∀ (members : List Source) (k : Nat),
      ((Source.chain members).run turn k).items =
        (members.flatMap fun s ↦
          match (s.traverse turn).result with
          | .ok t => t.items
          | .error e => [.error e]).take k) ∧
    -- what lies behind the item that was pulled last might as well not be there
    (∀ (s' s : Source) (k : Nat), Initial s' s → k ≤ (s'.traverse turn).inline.items.length →
      s.run turn k = s'.run turn k) ∧
    -- at any moment
    (∀ (s : Source) (k : Nat) (p : Trace), p <+: s.run turn k →
      (∀ tag, p.releases tag ≤ p.acquisitions tag) ∧
        ∀ tags : List String, (p.holding []).countP (· ∈ tags) ≤ s.nesting tags) ∧
    (∀ (members : List (String × Source)) (tags : List String),
      (∀ m ∈ members, m.2.nesting tags = 0) →
      (Source.chain (watched members)).nesting tags ≤ 1) ∧
    -- in the end
    (∀ (s : Source) (k : Nat) (tag : String),
      (s.run turn k).releases tag = (s.run turn k).acquisitions tag) ∧
    -- giving out row ids pulls no further, and the first pull that gives no action ends it
    (∀ (w : RowTracking) (s : Source) (k : Nat),
      ∃ j ≤ k, ((Source.rowTracking w s).run turn k).traffic = (s.run turn j).traffic) ∧
    ∀ (w : RowTracking) (s : Source) (t : Trace) (k : Nat), w.supported →
      ((Source.rowTracking w s).traverse turn).result = .ok t → (∀ a, t.items[k]? ≠ some (.ok a)) →
        (((Source.rowTracking w s).traverse turn).start ++ t.pulls (k + 1)).holding [] = [] ∧
          ∀ m, k < m → t.pulls m = t.pulls (k + 1) := by
  refine ⟨fun members k ↦ ?_, fun s' s k h hk ↦ h.run_eq hk,
    fun s k p hp ↦ ⟨fun tag ↦ ?_, fun tags ↦ ?_⟩, fun members tags h ↦ nestingEach_watched h,
    fun s k tag ↦ (settled_run turn s k).releases_eq tag,
    fun w s k ↦ RowTracking.traffic_wrap w (s.traverse turn) k,
    fun w s t k hw ht hk ↦ RowTracking.wrap_pulled hw ht hk⟩
  · rw [run, Opening.items_run rfl rfl, items_traverseEach]
    refine congrArg (List.take k) (List.flatMap_congr fun s _ ↦ ?_)
    have hitems := Opening.items_inline (s.traverse turn)
    rw [items_start, List.nil_append] at hitems
    exact hitems
  · exact ((settled_run turn s k).fits.initial hp).releases_le tag
  · have hbalance := Trace.balance_holding ((settled_run turn s k).fits.initial hp) tags
    have hbounded := Opening.bounded_run (bounded turn tags s) k p hp
    rw [List.countP_nil] at hbalance
    omega

def Sample.wrapped : Source :=
  .rowTracking ⟨true, 9, 3⟩ (.chain [.tagged "b" (.actions [.add (file "b" 5)]),
    .tagged "c" (.turns fun _ ↦ .ok [.error .malformedJson]),
    .tagged "d" (.actions [.add (file "d" 2)])])

def Sample.nested : Source :=
  .chain [.tagged "a" (.actions [.remove { path := "old", dataChange := true }]), wrapped,
    .tagged "e" (.file none), .tagged "f" (.actions [])]

def Sample.reached : Source :=
  .chain [.tagged "a" (.actions [.remove { path := "old", dataChange := true }]),
    .rowTracking ⟨true, 9, 3⟩ (.chain [.tagged "b" (.actions [.add (file "b" 5)])])]

theorem Source.traversals_stream_nested :
    (Sample.nested.run 0 9).items.length = 4 ∧
      Sample.nested.run 0 2 = Sample.reached.run 0 2 ∧
      (Sample.nested.run 0 3).acquisitions "c" = 1 ∧
      (∀ p : Trace, p <+: Sample.nested.run 0 9 →
        (p.holding []).countP (· ∈ ["a", "b", "c", "d", "e", "f"]) ≤ 1) ∧
      (∀ k tag, (Sample.nested.run 0 k).releases tag = (Sample.nested.run 0 k).acquisitions tag) ∧
      ∃ t, (Sample.wrapped.traverse 0).result = .ok t ∧ t.items[1]? = some (.error .malformedJson) ∧
        ∀ m, 1 < m → t.pulls m = t.pulls 2 := by
  obtain ⟨-, hlazy, hheld, -, hend, -, hwrapped⟩ := traversals_stream 0
  have hinitial : Initial Sample.reached Sample.nested :=
    .chain [_] [_, _] (.rowTracking ⟨true, 9, 3⟩ (.cut [_] [_, _]))
  refine ⟨by decide +kernel, hlazy _ _ 2 hinitial (by decide +kernel), by decide +kernel,
    fun p hp ↦ ?_, fun k tag ↦ hend _ k tag, ?_⟩
  · exact (hheld _ 9 p hp).2 ["a", "b", "c", "d", "e", "f"]
  · have hfails : (Sample.wrapped.traverse 0).result.map (·.items[1]?) =
        .ok (some (.error .malformedJson)) := by
      decide +kernel
    obtain ⟨t, ht, herror⟩ := Outcome.map_eq_ok_iff.1 hfails
    refine ⟨t, ht, herror, (hwrapped ⟨true, 9, 3⟩ _ t 1 rfl ht fun a ha ↦ ?_).2⟩
    rw [herror] at ha
    cases ha

end TableLog
