import TableLog.Json.Record
import TableLog.Proofs.Json.Printed

namespace TableLog

theorem Dict.lookup_eq_none {β : Type} {l : List (String × β)} {k : String} (h : k ∉ l.map (·.1)) :
    l.lookup k = none := by
  rw [List.lookup_eq_none_iff]
  intro e he
  rw [bne_iff_ne]
  rintro rfl
  exact h (List.mem_map_of_mem he)

/-- The fields of a record that is written, in order, absent ones included. -/
abbrev Fields := List (String × Option Json)

namespace Fields

def members (fs : Fields) : List (List Piece × Json) :=
  fs.filterMap fun f ↦ f.2.map (Piece.ofText f.1, ·)

def given (fs : Fields) : List (String × Json) := fs.filterMap fun f ↦ f.2.map (f.1, ·)

theorem keyed?_members (fs : Fields) : Json.keyed? some fs.members = some fs.given := by
  induction fs with
  | nil => rfl
  | cons f fs ih =>
    obtain ⟨name, v⟩ := f
    cases v with
    | none => exact ih
    | some v =>
      have hm : members ((name, some v) :: fs) = (Piece.ofText name, v) :: members fs := rfl
      have hg : given ((name, some v) :: fs) = (name, v) :: given fs := rfl
      rw [Json.keyed?] at ih
      rw [hm, hg, Json.keyed?, List.mapM_cons, ih]
      simp

theorem mem_names_of_mem_given {fs : Fields} {m : String × Json} (h : m ∈ fs.given) :
    m.1 ∈ fs.map (·.1) := by
  obtain ⟨f, hf, hm⟩ := List.mem_filterMap.1 h
  obtain ⟨v, -, rfl⟩ := Option.map_eq_some_iff.1 hm
  exact List.mem_map_of_mem hf

theorem given_nodup {fs : Fields} (h : (fs.map (·.1)).Nodup) : (fs.given.map (·.1)).Nodup := by
  have hs : (fs.given.map (·.1)).Sublist (fs.map (·.1)) := by
    clear h
    induction fs with
    | nil => exact .slnil
    | cons f fs ih =>
      obtain ⟨name, v⟩ := f
      cases v with
      | none => exact ih.cons _
      | some v => exact ih.cons_cons _
  exact h.sublist hs

theorem lookup_given {fs : Fields} (h : (fs.map (·.1)).Nodup) (name : String) :
    fs.given.lookup name = (fs.lookup name).join := by
  induction fs with
  | nil => rfl
  | cons f fs ih =>
    obtain ⟨n, v⟩ := f
    obtain ⟨hn, hfs⟩ := List.nodup_cons.1 h
    by_cases he : name = n
    · subst he
      cases v with
      | none =>
        have hgiven : name ∉ (given fs).map (·.1) := by
          intro h
          obtain ⟨m, hm, rfl⟩ := List.mem_map.1 h
          exact hn (mem_names_of_mem_given hm)
        have hg : given ((name, none) :: fs) = given fs := rfl
        rw [hg, Dict.lookup_eq_none hgiven, List.lookup_cons_self]
        rfl
      | some v =>
        have hg : given ((name, some v) :: fs) = (name, v) :: given fs := rfl
        rw [hg, List.lookup_cons_self, List.lookup_cons_self]
        rfl
    · have hb : (name == n) = false := beq_eq_false_iff_ne.2 he
      have hr : ((n, v) :: fs).lookup name = fs.lookup name := by rw [List.lookup_cons, hb]
      rw [hr, ← ih hfs]
      cases v with
      | none => rfl
      | some v =>
        have hg : given ((n, some v) :: fs) = (n, v) :: given fs := rfl
        rw [hg, List.lookup_cons, hb]

end Fields

@[simp] theorem Json.printed_ofText (s : String) : (ofText s).Printed :=
  .string (Piece.ofText_plain s)

@[simp] theorem Json.printed_ofDict (d : Dict String) : (ofDict d).Printed := by
  refine .object (fun m hm ↦ ?_) fun m hm ↦ ?_
  · obtain ⟨e, -, rfl⟩ := List.mem_map.1 hm
    exact Piece.ofText_plain e.1
  · obtain ⟨e, -, rfl⟩ := List.mem_map.1 hm
    exact printed_ofText e.2

@[simp] theorem Json.printed_ofInt (n : Int) : (ofInt n).Printed := .number n

@[simp] theorem Json.printed_bool (b : Bool) : (Json.bool b).Printed := .bool b

theorem Json.printed_fields {fs : Fields} (h : ∀ f ∈ fs, ∀ v ∈ f.2, v.Printed) :
    (Json.object fs.members).Printed := by
  refine .object (fun m hm ↦ ?_) fun m hm ↦ ?_
  · obtain ⟨f, -, hf⟩ := List.mem_filterMap.1 hm
    obtain ⟨v, -, rfl⟩ := Option.map_eq_some_iff.1 hf
    exact Piece.ofText_plain f.1
  · obtain ⟨f, hf, hm⟩ := List.mem_filterMap.1 hm
    obtain ⟨v, hv, rfl⟩ := Option.map_eq_some_iff.1 hm
    exact h f hf v hv

namespace Record

theorem ofJson?_fields {fs : Fields} {names : List String} (hn : fs.map (·.1) = names)
    (hd : names.Nodup) :
    ofJson? names (.object fs.members) = some ⟨false, fs.given⟩ := by
  have hall : fs.given.filter (fun m ↦ names.contains m.1) = fs.given := by
    rw [List.filter_eq_self]
    intro m hm
    rw [List.contains_iff_mem, ← hn]
    exact Fields.mem_names_of_mem_given hm
  rw [ofJson?, Fields.keyed?_members, Option.bind_some]
  simp only [hall]
  rw [if_pos (Fields.given_nodup (hn ▸ hd))]

variable {α : Type} {fs : Fields} (hd : (fs.map (·.1)).Nodup) (name : String)
  (read : Json → Option α)

include hd

theorem required_given :
    required ⟨false, fs.given⟩ name read = (fs.lookup name).join.bind read := by
  rw [required, Fields.lookup_given hd]

theorem defaulted_given (d : α) :
    defaulted ⟨false, fs.given⟩ name read d = (fs.lookup name).join.elim (some d) read := by
  rw [defaulted, Fields.lookup_given hd]
  cases (fs.lookup name).join <;> rfl

def option? (read : Json → Option α) : Option Json → Option (Option α)
  | none | some .null => some none
  | some v => (read v).map some

theorem optional_given :
    optional ⟨false, fs.given⟩ name read = option? read (fs.lookup name).join := by
  rw [optional, Fields.lookup_given hd]
  cases (fs.lookup name).join with
  | none => rfl
  | some v => cases v <;> rfl

omit hd

/-- A written option is never null, so that it cannot be taken for an absent one. -/
theorem option?_map {write : α → Json} (hv : ∀ a, read (write a) = some a)
    (hnull : ∀ a, write a ≠ .null) (x : Option α) : option? read (x.map write) = some x := by
  cases x with
  | none => rfl
  | some a =>
    have hr := hv a
    cases hw : write a with
    | null => exact absurd hw (hnull a)
    | _ => rw [hw] at hr; simp [option?, hw, hr]

end Record

theorem Dict.ofList_entries {β : Type} (d : Dict β) : Dict.ofList d.entries = d := by
  have hget (l : List (String × β)) (e : Dict β) (k : String)
      (hl : l.Pairwise fun a b ↦ a.1 < b.1) :
      (l.foldl (fun d e ↦ d.insert e.1 e.2) e).get? k = ((l.lookup k).or (e.get? k)) := by
    induction l generalizing e with
    | nil => rfl
    | cons x l ih =>
      obtain ⟨hx, hl⟩ := List.pairwise_cons.1 hl
      rw [List.foldl_cons, ih _ hl, get?_insert, lookup_cons]
      by_cases hk : k = x.1
      · have hnone : k ∉ l.map (·.1) := by
          intro h
          obtain ⟨y, hy, rfl⟩ := List.mem_map.1 h
          exact String.lt_irrefl _ (hk ▸ hx y hy)
        rw [lookup_eq_none hnone, if_pos hk, if_pos hk]
        rfl
      · simp [hk]
  refine ext_get? fun k ↦ ?_
  rw [ofList, hget d.entries empty k d.sorted, get?_empty, Option.or_none]
  rfl

namespace Json

@[simp] theorem bool?_bool (b : Bool) : (Json.bool b).bool? = some b := rfl

@[simp] theorem dict?_ofDict (d : Dict String) : (ofDict d).dict? = some d := by
  have hk (l : List (String × String)) :
      keyed? text? (l.map fun e ↦ (Piece.ofText e.1, ofText e.2)) = some l := by
    induction l with
    | nil => rfl
    | cons e l ih =>
      rw [keyed?] at ih
      rw [List.map_cons, keyed?, List.mapM_cons, ih]
      simp
  rw [ofDict, dict?, hk, Option.map_some, Dict.ofList_entries]

theorem list?_map {α : Type} {read : Json → Option α} {write : α → Json} {xs : List α}
    (h : ∀ x ∈ xs, read (write x) = some x) : (Json.array (xs.map write)).list? read = some xs := by
  rw [list?]
  induction xs with
  | nil => rfl
  | cons x xs ih =>
    rw [List.map_cons, List.mapM_cons, h x (by simp), ih fun y hy ↦ h y (List.mem_cons_of_mem _ hy)]
    rfl

end Json

namespace Record

open Json

@[simp] theorem option?_text (x : Option String) : option? text? (x.map ofText) = some x :=
  option?_map _ text?_ofText (fun _ ↦ nofun) x

@[simp] theorem option?_dict (x : Option (Dict String)) : option? dict? (x.map ofDict) = some x :=
  option?_map _ dict?_ofDict (fun _ ↦ nofun) x

@[simp] theorem option?_long (x : Option Int64) :
    option? int64? (x.map fun n ↦ ofInt n.toInt) = some x :=
  option?_map _ int64?_ofInt (fun _ ↦ nofun) x

@[simp] theorem option?_bool (x : Option Bool) : option? bool? (x.map Json.bool) = some x :=
  option?_map _ bool?_bool (fun _ ↦ nofun) x

end Record

end TableLog
