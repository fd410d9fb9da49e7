import Mathlib.Data.List.Nodup
import Mathlib.Data.List.Perm.Basic
import Mathlib.Logic.Relation
import TableLog.Json.Record
import TableLog.Proofs.Json.Printed

namespace TableLog

namespace Dict

variable {β : Type}

theorem insert_comm (d : Dict β) {k k' : String} (h : k ≠ k') (v v' : β) :
    (d.insert k v).insert k' v' = (d.insert k' v').insert k v := by
  refine ext_get? fun q ↦ ?_
  simp only [get?_insert]
  by_cases hq : q = k
  · rw [if_pos hq, if_pos hq, if_neg fun hq' ↦ h (hq.symm.trans hq')]
  · rw [if_neg hq, if_neg hq]

theorem ofList_perm {l m : List (String × β)} (h : l.Perm m) (hd : (l.map (·.1)).Nodup) :
    ofList l = ofList m := by
  refine h.foldl_eq' (fun x hx y hy d ↦ ?_) empty
  by_cases hxy : x = y
  · rw [hxy]
  · exact insert_comm d (fun he ↦ hxy (List.inj_on_of_nodup_map hd hx hy he)) _ _

theorem lookup_of_mem {k : String} {v : β} {l : List (String × β)} (hd : (l.map (·.1)).Nodup)
    (h : (k, v) ∈ l) :
    l.lookup k = some v := by
  induction l with
  | nil => cases h
  | cons e l ih =>
    obtain ⟨he, hl⟩ := List.nodup_cons.1 hd
    rw [lookup_cons]
    rcases List.mem_cons.1 h with rfl | h
    · exact if_pos rfl
    · rw [if_neg, ih hl h]
      intro hk
      subst hk
      exact he (List.mem_map.2 ⟨_, h, rfl⟩)

theorem lookup_perm {l m : List (String × β)} (h : l.Perm m) (hd : (l.map (·.1)).Nodup)
    (k : String) :
    l.lookup k = m.lookup k := by
  refine Option.ext fun v ↦ ⟨fun hv ↦ ?_, fun hv ↦ ?_⟩
  · exact lookup_of_mem ((h.map _).nodup_iff.1 hd) (h.mem_iff.1 (lookup_mem hv))
  · exact lookup_of_mem hd (h.mem_iff.2 (lookup_mem hv))

end Dict

namespace Json

/-- An object, the whole tree or one that it holds, has its members in
another order. No two of them have one name. -/
inductive Reorders : Json → Json → Prop
  | permute {ms ns : List (List Piece × Json)} (hd : (ms.map fun m ↦ Piece.text? m.1).Nodup)
    (hp : ms.Perm ns) :
    Reorders (.object ms) (.object ns)
  | inside {front back : List (List Piece × Json)} {k : List Piece} {v w : Json}
    (h : Reorders v w) :
    Reorders (.object (front ++ (k, v) :: back)) (.object (front ++ (k, w) :: back))

abbrev Reordered : Json → Json → Prop := Relation.ReflTransGen Reorders

variable {u v w : Json} {α : Type}

theorem Reorders.symm (h : Reorders v w) : Reorders w v := by
  induction h with
  | permute hd hp => exact .permute ((hp.map _).nodup_iff.1 hd) hp.symm
  | inside _ ih => exact .inside ih

theorem Reorders.objects (h : Reorders v w) : ∃ ms ns, v = .object ms ∧ w = .object ns := by
  cases h with
  | permute => exact ⟨_, _, rfl, rfl⟩
  | inside => exact ⟨_, _, rfl, rfl⟩

theorem Reorders.printed (h : Reorders v w) (hv : v.Printed) : w.Printed := by
  induction h with
  | permute _ hp =>
    obtain ⟨hkeys, hvalues⟩ := printed_object_iff.1 hv
    exact .object (fun m hm ↦ hkeys m (hp.mem_iff.2 hm)) fun m hm ↦ hvalues m (hp.mem_iff.2 hm)
  | inside _ ih =>
    rw [printed_object_iff] at hv ⊢
    simp only [List.forall_mem_append, List.forall_mem_cons] at hv ⊢
    exact ⟨hv.1, hv.2.1, ih hv.2.2.1, hv.2.2.2⟩

theorem Reordered.printed (h : Reordered v w) (hv : v.Printed) : w.Printed := by
  induction h with
  | refl => exact hv
  | tail _ hstep ih => exact hstep.printed ih

def Unmoved (read : Json → Option α) : Prop := ∀ ⦃v w : Json⦄, Reorders v w → read v = read w

theorem Unmoved.reordered {read : Json → Option α} (h : Unmoved read) (hr : Reordered v w) :
    read v = read w := by
  induction hr with
  | refl => rfl
  | tail _ hstep ih => exact ih.trans (h hstep)

theorem unmoved_of_objects {read : Json → Option α} (h : ∀ ms, read (.object ms) = none) :
    Unmoved read := by
  intro v w hr
  obtain ⟨ms, ns, rfl, rfl⟩ := hr.objects
  rw [h, h]

theorem unmoved_of_imp {read : Json → Option α}
    (h : ∀ {v w : Json} {a : α}, Reorders v w → read v = some a → read w = some a) : Unmoved read :=
  fun _ _ hr ↦ Option.ext fun _ ↦ ⟨h hr, h hr.symm⟩

theorem text?_unmoved : Unmoved text? := unmoved_of_objects fun _ ↦ rfl

theorem bool?_unmoved : Unmoved bool? := unmoved_of_objects fun _ ↦ rfl

theorem int64?_unmoved : Unmoved int64? := unmoved_of_objects fun _ ↦ rfl

theorem int32?_unmoved : Unmoved int32? := unmoved_of_objects fun _ ↦ rfl

theorem list?_unmoved (read : Json → Option α) : Unmoved (list? read) :=
  unmoved_of_objects fun _ ↦ rfl

theorem mapM_eq_some_iff {β : Type} {f : β → Option α} {xs : List β} {ys : List α} :
    xs.mapM f = some ys ↔ List.Forall₂ (fun x y ↦ f x = some y) xs ys := by
  induction xs generalizing ys with
  | nil =>
    rw [List.forall₂_nil_left_iff]
    exact ⟨fun h ↦ (Option.some.inj h).symm, fun h ↦ h ▸ rfl⟩
  | cons x xs ih =>
    simp only [List.mapM_cons, Option.bind_eq_bind, Option.bind_eq_some_iff, Option.pure_def,
      Option.some.injEq, ih, List.forall₂_cons_left_iff]
    constructor
    · rintro ⟨y, hy, ys, hys, rfl⟩
      exact ⟨y, ys, hy, hys, rfl⟩
    · rintro ⟨y, ys, hy, hys, rfl⟩
      exact ⟨y, hy, ys, hys, rfl⟩

theorem keyed?_eq_some_iff {read : Json → Option α} {ms : List (List Piece × Json)}
    {xs : List (String × α)} :
    keyed? read ms = some xs ↔
      List.Forall₂ (fun m x ↦ Piece.text? m.1 = some x.1 ∧ read m.2 = some x.2) ms xs := by
  have hmember (m : List Piece × Json) (x : String × α) :
      ((Piece.text? m.1).bind fun k ↦ (read m.2).map fun v ↦ (k, v)) = some x ↔
        Piece.text? m.1 = some x.1 ∧ read m.2 = some x.2 := by
    simp only [Option.bind_eq_some_iff, Option.map_eq_some_iff]
    constructor
    · rintro ⟨k, hk, v, hv, rfl⟩
      exact ⟨hk, hv⟩
    · exact fun h ↦ ⟨x.1, h.1, x.2, h.2, rfl⟩
  simp only [keyed?, mapM_eq_some_iff, hmember]

theorem keyed?_names {read : Json → Option α} {ms : List (List Piece × Json)}
    {xs : List (String × α)} (h : keyed? read ms = some xs) :
    ms.map (fun m ↦ Piece.text? m.1) = (xs.map (·.1)).map some := by
  have hall := keyed?_eq_some_iff.1 h
  clear h
  induction hall with
  | nil => rfl
  | cons hm _ ih => rw [List.map_cons, List.map_cons, List.map_cons, hm.1, ih]

theorem keyed?_perm {read : Json → Option α} {ms ns : List (List Piece × Json)}
    {xs : List (String × α)} (hp : ms.Perm ns) (h : keyed? read ms = some xs) :
    ∃ ys, keyed? read ns = some ys ∧ ys.Perm xs := by
  obtain ⟨ys, hys, hperm⟩ := List.perm_comp_forall₂ hp.symm (keyed?_eq_some_iff.1 h)
  exact ⟨ys, keyed?_eq_some_iff.2 hys, hperm⟩

theorem names_nodup {read : Json → Option α} {ms : List (List Piece × Json)}
    {xs : List (String × α)} (hd : (ms.map fun m ↦ Piece.text? m.1).Nodup)
    (h : keyed? read ms = some xs) : (xs.map (·.1)).Nodup := by
  rw [keyed?_names h] at hd
  exact hd.of_map some

theorem keyed?_inside {read : Json → Option α} (h : read v = read w)
    (front back : List (List Piece × Json)) (k : List Piece) :
    keyed? read (front ++ (k, v) :: back) = keyed? read (front ++ (k, w) :: back) := by
  simp only [keyed?, List.mapM_append, List.mapM_cons, h]

theorem dict?_unmoved : Unmoved dict? := by
  refine unmoved_of_imp fun {v w d} hr h ↦ ?_
  cases hr with
  | inside hinside => rwa [dict?, ← keyed?_inside (text?_unmoved hinside)]
  | permute hd hp =>
    -- of two members with one key the later one would count, but the names are distinct
    obtain ⟨xs, hxs, rfl⟩ := Option.map_eq_some_iff.1 h
    obtain ⟨ys, hys, hperm⟩ := keyed?_perm hp hxs
    rw [dict?, hys, Option.map_some, Dict.ofList_perm hperm.symm (names_nodup hd hxs)]

end Json

namespace Record

open Json

variable {α : Type} {names : List String} {ms : List (List Piece × Json)}
  {r r' : Record} {v w : Json}

structure Similar (r r' : Record) : Prop where
  positional : r.positional = r'.positional
  lookup : ∀ name,
    Option.Rel (fun v w ↦ v = w ∨ Reorders v w) (r.given.lookup name) (r'.given.lookup name)

section Fields

variable (h : r.Similar r') {read : Json → Option α} (hread : Unmoved read) (name : String)
include h hread

theorem Similar.map_lookup : (r.given.lookup name).map read = (r'.given.lookup name).map read := by
  have hlookup := h.lookup name
  generalize r.given.lookup name = x at hlookup ⊢
  generalize r'.given.lookup name = y at hlookup ⊢
  cases hlookup with
  | none => rfl
  | some hvalue =>
    rcases hvalue with rfl | hreorders
    · rfl
    · exact congrArg some (hread hreorders)

theorem Similar.required : r.required name read = r'.required name read := by
  have hread' (r : Record) : r.required name read = ((r.given.lookup name).map read).join := by
    rw [Record.required]
    cases r.given.lookup name <;> rfl
  rw [hread', hread', h.map_lookup hread]

theorem Similar.defaulted (default : α) :
    r.defaulted name read default = r'.defaulted name read default := by
  have hread' (r : Record) :
      r.defaulted name read default = ((r.given.lookup name).map read).getD (some default) := by
    rw [Record.defaulted]
    cases r.given.lookup name <;> rfl
  rw [hread', hread', h.map_lookup hread]

theorem Similar.optional : r.optional name read = r'.optional name read := by
  have hlookup := h.lookup name
  rw [Record.optional, Record.optional, h.positional]
  generalize r.given.lookup name = x at hlookup ⊢
  generalize r'.given.lookup name = y at hlookup ⊢
  cases hlookup with
  | none => rfl
  | some hvalue =>
    rcases hvalue with rfl | hreorders
    · rfl
    · have hsame := hread hreorders
      obtain ⟨ms, ns, rfl, rfl⟩ := hreorders.objects
      exact congrArg (Option.map some) hsame

end Fields

theorem ofJson?_object_iff :
    ofJson? names (.object ms) = some r ↔
      ∃ all, keyed? some ms = some all ∧ ((all.filter fun m ↦ names.contains m.1).map (·.1)).Nodup ∧
        r = ⟨false, all.filter fun m ↦ names.contains m.1⟩ := by
  simp only [ofJson?, Option.bind_eq_some_iff, Option.ite_none_right_eq_some, Option.some.injEq,
    @eq_comm _ r]

def Alike (x y : String × Json) : Prop := x.1 = y.1 ∧ (x.2 = y.2 ∨ Reorders x.2 y.2)

theorem Alike.refl (x : String × Json) : Alike x x := ⟨rfl, .inl rfl⟩

variable {xs ys : List (String × Json)}

theorem map_fst_of_alike (h : List.Forall₂ Alike xs ys) : xs.map (·.1) = ys.map (·.1) := by
  induction h with
  | nil => rfl
  | cons hxy _ ih => rw [List.map_cons, List.map_cons, hxy.1, ih]

theorem filter_alike (names : List String) (h : List.Forall₂ Alike xs ys) :
    List.Forall₂ Alike (xs.filter fun m ↦ names.contains m.1)
      (ys.filter fun m ↦ names.contains m.1) := by
  refine List.rel_filter (fun x y hxy ↦ ?_) h
  simp only [hxy.1]

theorem rel_lookup (h : List.Forall₂ Alike xs ys) (name : String) :
    Option.Rel (fun v w ↦ v = w ∨ Reorders v w) (xs.lookup name) (ys.lookup name) := by
  induction h with
  | nil => exact .none
  | @cons x y xs ys hxy _ ih =>
    rw [Dict.lookup_cons, Dict.lookup_cons, ← hxy.1]
    split
    · exact .some hxy.2
    · exact ih

theorem keyed?_reorders (h : Reorders v w) {front back : List (List Piece × Json)} {k : List Piece}
    (hxs : keyed? some (front ++ (k, v) :: back) = some xs) :
    ∃ ys, keyed? some (front ++ (k, w) :: back) = some ys ∧ List.Forall₂ Alike xs ys := by
  simp only [keyed?_eq_some_iff] at hxs ⊢
  induction front generalizing xs with
  | nil =>
    obtain ⟨x, xs, hx, hback, rfl⟩ := List.forall₂_cons_left_iff.1 hxs
    refine ⟨(x.1, w) :: xs, .cons ⟨hx.1, rfl⟩ hback,
      .cons ⟨rfl, .inr ?_⟩ (List.forall₂_same.2 fun y _ ↦ .refl y)⟩
    rwa [← Option.some.inj hx.2]
  | cons m front ih =>
    obtain ⟨x, xs, hx, hrest, rfl⟩ := List.forall₂_cons_left_iff.1 hxs
    obtain ⟨ys, hys, halike⟩ := ih hrest
    exact ⟨x :: ys, .cons hx hys, .cons (.refl x) halike⟩

theorem ofJson?_reorders (hr : Reorders v w) (h : ofJson? names v = some r) :
    ∃ r', ofJson? names w = some r' ∧ r.Similar r' := by
  cases hr with
  | @permute ms ns hd hp =>
    obtain ⟨all, hall, hnodup, rfl⟩ := ofJson?_object_iff.1 h
    obtain ⟨all', hall', hperm⟩ := keyed?_perm hp hall
    have hgiven := hperm.filter fun m ↦ names.contains m.1
    have hnodup' := ((hgiven.map (·.1)).nodup_iff).2 hnodup
    refine ⟨_, ofJson?_object_iff.2 ⟨all', hall', hnodup', rfl⟩, rfl, fun name ↦ ?_⟩
    rw [Dict.lookup_perm hgiven hnodup']
    cases List.lookup name (all.filter fun m ↦ names.contains m.1) with
    | none => exact .none
    | some v => exact .some (.inl rfl)
  | inside hinside =>
    obtain ⟨all, hall, hnodup, rfl⟩ := ofJson?_object_iff.1 h
    obtain ⟨all', hall', halike⟩ := keyed?_reorders hinside hall
    have hgiven := filter_alike names halike
    refine ⟨_, ofJson?_object_iff.2 ⟨all', hall', map_fst_of_alike hgiven ▸ hnodup, rfl⟩, rfl, ?_⟩
    exact rel_lookup hgiven

/-- What is made of a record's fields is the same in every order of its members. -/
theorem bind_unmoved {f : Record → Option α} (hf : ∀ {r r' : Record}, r.Similar r' → f r = f r') :
    Unmoved fun v ↦ (ofJson? names v).bind f := by
  refine unmoved_of_imp fun {v w a} hr h ↦ ?_
  obtain ⟨r, hread, ha⟩ := Option.bind_eq_some_iff.1 h
  obtain ⟨r', hread', hsimilar⟩ := ofJson?_reorders hr hread
  exact Option.bind_eq_some_iff.2 ⟨r', hread', hf hsimilar ▸ ha⟩

end Record

end TableLog
