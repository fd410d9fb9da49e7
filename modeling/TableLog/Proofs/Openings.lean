import TableLog.Proofs.Streaming

namespace TableLog

namespace Trace

variable {tag : String} {tags held : List String} {t u : Trace}

theorem acquisitions_append (tag : String) (t u : Trace) :
    acquisitions tag (t ++ u) = acquisitions tag t + acquisitions tag u := by
  induction t with
  | nil => exact (Nat.zero_add _).symm
  | cons s t ih =>
    cases s with
    | item r => exact ih
    | acquired other =>
      rw [List.cons_append, acquisitions_acquired, ih, acquisitions_acquired, Nat.add_assoc]
    | released other => exact ih

theorem acquisitions_traffic (tag : String) (t : Trace) :
    acquisitions tag t.traffic = acquisitions tag t := by
  induction t with
  | nil => rfl
  | cons s t ih =>
    cases s with
    | item r => exact ih
    | acquired other => rw [traffic_acquired, acquisitions_acquired, ih, acquisitions_acquired]
    | released other => exact ih

theorem acquisitions_eq_of_traffic (h : t.traffic = u.traffic) :
    acquisitions tag t = acquisitions tag u := by
  rw [← acquisitions_traffic, h, acquisitions_traffic]

theorem acquisitions_release (tag : String) (held : List String) :
    acquisitions tag (release held) = 0 := by
  induction held with
  | nil => rfl
  | cons x held ih => exact ih

theorem acquisitions_closed (tag : String) (t : Trace) :
    acquisitions tag (closed t) = acquisitions tag t := by
  rw [closed, acquisitions_append, acquisitions_release, Nat.add_zero]

theorem acquisitions_mono (h : t <+: u) : acquisitions tag t ≤ acquisitions tag u := by
  obtain ⟨v, rfl⟩ := h
  rw [acquisitions_append]
  exact Nat.le_add_right _ _

theorem acquisitions_pulls_append (h : acquisitions tag u = 0) (k : Nat) (t : Trace) :
    acquisitions tag (pulls k (t ++ u)) = acquisitions tag (pulls k t) := by
  rcases Nat.lt_or_ge t.items.length k with hlt | hle
  · have hrest : acquisitions tag (pulls (k - t.items.length) u) ≤ acquisitions tag u :=
      acquisitions_mono (pulls_initial _ u)
    rw [pulls_append_of_lt hlt, acquisitions_append, pulls_of_lt hlt]
    omega
  · rw [pulls_append_of_le hle]

theorem acquisitions_of_bounded (h : Fits held t) (hheld : ∀ x ∈ held, x ∉ tags)
    (hb : Bounded tags 0 t) (htag : tag ∈ tags) : acquisitions tag t = 0 := by
  induction t generalizing held with
  | nil => rfl
  | cons s t ih =>
    obtain ⟨-, hrest⟩ := bounded_cons.1 hb
    cases s with
    | item r =>
      have htail : Fits held t := h
      exact ih htail hheld hrest
    | acquired other =>
      have hfresh : other ∉ tags := by
        intro hother
        have hnonneg := hrest.nonneg
        rw [change, if_pos hother] at hnonneg
        omega
      have hne : other ≠ tag := fun heq ↦ hfresh (heq ▸ htag)
      rw [change, if_neg hfresh, Int.sub_zero] at hrest
      rw [acquisitions_acquired, if_neg hne, Nat.zero_add]
      have htail : Fits (other :: held) t := h
      exact ih htail (List.forall_mem_cons.2 ⟨hfresh, hheld⟩) hrest
    | released other =>
      rw [change, if_neg (hheld other h.1), Int.sub_zero] at hrest
      exact ih h.2 (fun x hx ↦ hheld x (List.mem_of_mem_erase hx)) hrest

end Trace

theorem exists_first_lost {α : Type} {P : List α → Prop} (hstart : P []) {xs : List α}
    (hend : ¬P xs) :
    ∃ before x after, xs = before ++ x :: after ∧ P before ∧ ¬P (before ++ [x]) := by
  induction xs using List.reverseRecOn with
  | nil => exact absurd hstart hend
  | append_singleton xs x ih =>
    by_cases hxs : P xs
    · exact ⟨xs, x, [], rfl, hxs, hend⟩
    · obtain ⟨before, y, after, rfl, hbefore, hlost⟩ := ih hxs
      exact ⟨before, y, after ++ [x], by simp, hbefore, hlost⟩

namespace Source

open Trace

/-- Members whose tags tell them apart. -/
structure Watched (members : List (String × Source)) : Prop where
  distinct : (members.map Prod.fst).Nodup
  fresh : ∀ m ∈ members, m.2.nesting (members.map Prod.fst) = 0

/-- At this turn, none of them fails to open. -/
def Open (turn : Nat) (members : List (String × Source)) : Prop :=
  ∀ m ∈ members, ∃ t, (m.2.traverse turn).result = .ok t

variable {turn k : Nat} {tag : String} {tags : List String} {s : Source} {m x : String × Source}
  {members before after reached rest : List (String × Source)}

theorem watched_append (before after : List (String × Source)) :
    watched (before ++ after) = watched before ++ watched after := List.map_append

theorem acquisitions_fresh (h : s.nesting tags = 0) (htag : tag ∈ tags) :
    acquisitions tag (s.traverse turn).all = 0 := by
  have hbounded := bounded turn tags s
  rw [h] at hbounded
  exact acquisitions_of_bounded (sound turn s).fits (List.forall_mem_nil _) hbounded htag

theorem inline_tagged (tag other : String) {t : Trace} (ht : (s.traverse turn).result = .ok t) :
    ∃ v, ((tagged other s).traverse turn).inline = (s.traverse turn).start ++ .acquired other :: v ∧
      acquisitions tag v = acquisitions tag t := by
  refine ⟨t ++ release (holding [] ((s.traverse turn).start ++ [.acquired other] ++ t)), ?_, ?_⟩
  · rw [traverse, openTagged_ok other ht, Opening.inline]
    simp only [closed, List.append_assoc, List.cons_append, List.nil_append]
  · rw [acquisitions_append, acquisitions_release, Nat.add_zero]

theorem acquisitions_inline_tagged (other : String) {t : Trace}
    (ht : (s.traverse turn).result = .ok t) :
    acquisitions tag ((tagged other s).traverse turn).inline =
      acquisitions tag (s.traverse turn).all + if other = tag then 1 else 0 := by
  obtain ⟨v, hinline, hv⟩ := inline_tagged tag other ht
  rw [hinline, acquisitions_append, acquisitions_acquired, hv, Opening.all_ok ht,
    acquisitions_append]
  omega

theorem acquisitions_watched (hfresh : ∀ m ∈ members, m.2.nesting tags = 0)
    (hopen : Open turn members) (htag : tag ∈ tags) :
    acquisitions tag (traverseEach turn (watched members)) = (members.map Prod.fst).count tag := by
  induction members with
  | nil => rfl
  | cons m members ih =>
    obtain ⟨hm, hfresh⟩ := List.forall_mem_cons.1 hfresh
    obtain ⟨⟨t, ht⟩, hopen⟩ := List.forall_mem_cons.1 hopen
    rw [watched, List.map_cons, traverseEach, acquisitions_append,
      acquisitions_inline_tagged m.1 ht, acquisitions_fresh hm htag, List.map_cons, List.count_cons,
      ← ih hfresh hopen, watched, Nat.zero_add, Nat.add_comm]
    simp only [beq_iff_eq]

theorem traverseEach_watched (turn : Nat) (before : List (String × Source)) (m : String × Source)
    (after : List (String × Source)) :
    traverseEach turn (watched (before ++ m :: after)) =
      traverseEach turn (watched before) ++
        (((tagged m.1 m.2).traverse turn).inline ++ traverseEach turn (watched after)) := by
  rw [watched_append, traverseEach_append]
  rfl

theorem length_items_mono (turn : Nat) (h : before <+: reached) :
    (traverseEach turn (watched before)).items.length ≤
      (traverseEach turn (watched reached)).items.length := by
  obtain ⟨rest, rfl⟩ := h
  rw [watched_append, traverseEach_append, items_append, List.length_append]
  exact Nat.le_add_right _ _

theorem acquisitions_of_reached (h : Watched (before ++ m :: after))
    (hopen : Open turn (before ++ m :: after))
    (hk : (traverseEach turn (watched before)).items.length < k) :
    acquisitions m.1 (pulls k (traverseEach turn (watched (before ++ m :: after)))) = 1 := by
  have hmem : m ∈ before ++ m :: after := List.mem_append_right _ List.mem_cons_self
  have htag : m.1 ∈ (before ++ m :: after).map Prod.fst := List.mem_map_of_mem hmem
  obtain ⟨t, ht⟩ := hopen m hmem
  have hmost : acquisitions m.1 (pulls k (traverseEach turn (watched (before ++ m :: after)))) ≤
      acquisitions m.1 (traverseEach turn (watched (before ++ m :: after))) :=
    acquisitions_mono (pulls_initial k _)
  rw [acquisitions_watched h.fresh hopen htag, List.count_eq_one_of_mem h.distinct htag] at hmost
  -- the pull behind the members before it opens the member
  have hleast :
      1 ≤ acquisitions m.1 (pulls k (traverseEach turn (watched (before ++ m :: after)))) := by
    obtain ⟨v, hinline, -⟩ := inline_tagged m.1 m.1 ht
    have hj : 0 < k - (traverseEach turn (watched before)).items.length := Nat.sub_pos_of_lt hk
    have hstart := m.2.items_start turn
    rw [traverseEach_watched, hinline, List.append_assoc, List.cons_append, pulls_append_of_lt hk,
      pulls_append_of_lt (by rw [hstart]; exact hj), hstart, List.length_nil, Nat.sub_zero,
      pulls_acquired hj,
      acquisitions_append, acquisitions_append, acquisitions_acquired, if_pos rfl]
    omega
  omega

theorem acquisitions_of_unreached (h : Watched (before ++ m :: after))
    (hopen : Open turn (before ++ m :: after))
    (hk : k ≤ (traverseEach turn (watched before)).items.length) :
    acquisitions m.1 (pulls k (traverseEach turn (watched (before ++ m :: after)))) = 0 := by
  have hmem : m ∈ before ++ m :: after := List.mem_append_right _ List.mem_cons_self
  have hdistinct := h.distinct
  rw [List.map_append, List.map_cons, List.nodup_append] at hdistinct
  have hnot : m.1 ∉ before.map Prod.fst := fun hm ↦ hdistinct.2.2 _ hm _ List.mem_cons_self rfl
  have hmost : acquisitions m.1 (pulls k (traverseEach turn (watched before))) ≤
      acquisitions m.1 (traverseEach turn (watched before)) := acquisitions_mono (pulls_initial k _)
  rw [acquisitions_watched (fun x hx ↦ h.fresh x (List.mem_append_left _ hx))
    (fun x hx ↦ hopen x (List.mem_append_left _ hx)) (List.mem_map_of_mem hmem),
    List.count_eq_zero.2 hnot] at hmost
  rw [traverseEach_watched, pulls_append_of_le hk]
  omega

/-- A pass opens each source that it gets to. -/
theorem acquisitions_of_mem (h : Watched (reached ++ rest)) (hopen : Open turn (reached ++ rest))
    (hk : (traverseEach turn (watched reached.dropLast)).items.length < k) (hx : x ∈ reached) :
    acquisitions x.1 (pulls k (traverseEach turn (watched (reached ++ rest)))) = 1 := by
  obtain ⟨before, after, rfl⟩ := List.append_of_mem hx
  rw [List.append_assoc, List.cons_append] at h hopen ⊢
  refine acquisitions_of_reached h hopen (Nat.lt_of_le_of_lt (length_items_mono turn ?_) hk)
  rw [List.dropLast_append_of_ne_nil (List.cons_ne_nil x after)]
  exact List.prefix_append before _

theorem acquisitions_of_through (h : Watched members) (hopen : Open turn members)
    (hk : (traverseEach turn (watched members)).items.length < k) (hm : m ∈ members) :
    acquisitions m.1 (pulls k (traverseEach turn (watched members))) = 1 := by
  rw [← List.append_nil members] at h hopen ⊢
  exact acquisitions_of_mem h hopen
    (Nat.lt_of_le_of_lt (length_items_mono turn (List.dropLast_prefix members)) hk) hm

/-- Where a pass stops in one of the sources, it has opened those up to this one. -/
theorem exists_stop (h : Watched members) (hopen : Open turn members)
    {Through : List (String × Source) → Prop}
    (hthrough : ∀ before after, members = before ++ after →
      (Through before ↔ (traverseEach turn (watched before)).items.length < k))
    (hk : 0 < k) (hstops : ¬Through members) :
    ∃ before m after, members = before ++ m :: after ∧ Through before ∧ ¬Through (before ++ [m]) ∧
      (∀ x ∈ before ++ [m], acquisitions x.1 (pulls k (traverseEach turn (watched members))) = 1) ∧
      ∀ x ∈ after, acquisitions x.1 (pulls k (traverseEach turn (watched members))) = 0 := by
  have hstart : Through [] := (hthrough [] members rfl).2 hk
  obtain ⟨before, m, after, rfl, hbefore, hlost⟩ := exists_first_lost hstart hstops
  refine ⟨before, m, after, rfl, hbefore, hlost, fun x hx ↦ ?_, fun x hx ↦ ?_⟩
  · have hlt := (hthrough before (m :: after) rfl).1 hbefore
    rw [List.append_cons] at h hopen ⊢
    exact acquisitions_of_mem h hopen (by rwa [List.dropLast_concat]) hx
  · obtain ⟨first, last, rfl⟩ := List.append_of_mem hx
    have hle := Nat.not_lt.1
      (mt (hthrough (before ++ [m]) (first ++ x :: last) (List.append_cons ..)).2 hlost)
    have hassoc : before ++ m :: (first ++ x :: last) = (before ++ m :: first) ++ x :: last := by
      simp
    rw [hassoc] at h hopen ⊢
    refine acquisitions_of_unreached h hopen (hle.trans (length_items_mono turn ?_))
    rw [List.append_cons before m first]
    exact List.prefix_append _ first

end Source

end TableLog
