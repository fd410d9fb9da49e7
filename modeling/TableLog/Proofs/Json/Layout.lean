import TableLog.Proofs.Json.Fields
import TableLog.Proofs.Json.Order

namespace TableLog

namespace Json

variable {α : Type}

/-- A string literal of this text, however its characters are escaped. -/
def DenotesText (s : String) (v : Json) : Prop := ∃ ps, v = .string ps ∧ Piece.text? ps = some s

def DenotesLong (n : Int64) (v : Json) : Prop := v = .ofInt n.toInt

def DenotesInt (n : Int32) (v : Json) : Prop := v = .ofInt n.toInt

def DenotesBool (b : Bool) (v : Json) : Prop := v = .bool b

def DenotesList (p : α → Json → Prop) (xs : List α) (v : Json) : Prop :=
  ∃ vs, v = .array vs ∧ List.Forall₂ p xs vs

/-- Entries in any order. Of two with one key the later one counts. -/
def DenotesDict (d : Dict String) (v : Json) : Prop :=
  ∃ ms es, v = .object ms ∧
    List.Forall₂ (fun m e ↦ Piece.text? m.1 = some e.1 ∧ DenotesText e.2 m.2) ms es ∧
    Dict.ofList es = d

/-- The reader knows all the ways that a value may be written. -/
def Understands (read : Json → Option α) (p : α → Json → Prop) : Prop :=
  ∀ ⦃a v⦄, p a v → read v = some a

theorem understands_text : Understands text? DenotesText := by
  rintro s v ⟨ps, rfl, h⟩
  exact h

theorem understands_long : Understands int64? DenotesLong := by
  rintro n v rfl
  exact int64?_ofInt n

theorem understands_int : Understands int32? DenotesInt := by
  rintro n v rfl
  exact int32?_ofInt n

theorem understands_bool : Understands bool? DenotesBool := by
  rintro b v rfl
  rfl

theorem understands_list {read : Json → Option α} {p : α → Json → Prop} (h : Understands read p) :
    Understands (list? read) (DenotesList p) := by
  rintro xs v ⟨vs, rfl, hall⟩
  exact mapM_eq_some_iff.2 (hall.flip.imp fun v a ha ↦ h ha)

theorem understands_dict : Understands dict? DenotesDict := by
  rintro d v ⟨ms, es, rfl, hall, rfl⟩
  have hkeyed : keyed? text? ms = some es :=
    keyed?_eq_some_iff.2 (hall.imp fun m e h ↦ ⟨h.1, understands_text h.2⟩)
  rw [dict?, hkeyed, Option.map_some]

def valuesOf (name : String) (ms : List (List Piece × Json)) : List Json :=
  (ms.filter fun m ↦ Piece.text? m.1 = some name).map (·.2)

/-- Every member has a name. A literal has none if its escapes do not pair up. -/
def Named (ms : List (List Piece × Json)) : Prop := ∀ m ∈ ms, ∃ name, Piece.text? m.1 = some name

theorem named_iff {ms : List (List Piece × Json)} :
    Named ms ↔ ∃ all, keyed? some ms = some all := by
  constructor
  · intro h
    induction ms with
    | nil => exact ⟨[], rfl⟩
    | cons m ms ih =>
      obtain ⟨⟨name, hname⟩, hms⟩ := List.forall_mem_cons.1 h
      obtain ⟨all, hall⟩ := ih hms
      exact ⟨(name, m.2) :: all,
        keyed?_eq_some_iff.2 (.cons ⟨hname, rfl⟩ (keyed?_eq_some_iff.1 hall))⟩
  · rintro ⟨all, hall⟩ m hm
    have hname : Piece.text? m.1 ∈ (all.map (·.1)).map some := by
      rw [← keyed?_names hall]
      exact List.mem_map_of_mem hm
    obtain ⟨name, -, h⟩ := List.mem_map.1 hname
    exact ⟨name, h.symm⟩

theorem valuesOf_of_keyed? {ms : List (List Piece × Json)} {all : List (String × Json)}
    (h : keyed? some ms = some all) (name : String) :
    valuesOf name ms = (all.filter fun m ↦ m.1 = name).map (·.2) := by
  have hall := keyed?_eq_some_iff.1 h
  clear h
  induction hall with
  | nil => rfl
  | @cons m x ms all hm _ ih =>
    obtain ⟨hname, hvalue⟩ := hm
    rw [valuesOf] at ih ⊢
    by_cases hx : x.1 = name
    · rw [List.filter_cons_of_pos (by simpa [hname] using hx),
        List.filter_cons_of_pos (by simpa using hx), List.map_cons, List.map_cons, ih,
        Option.some.inj hvalue]
    · rw [List.filter_cons_of_neg (by simpa [hname] using hx),
        List.filter_cons_of_neg (by simpa using hx), ih]

end Json

theorem Dict.values_of_nodup {β : Type} {l : List (String × β)} (hd : (l.map (·.1)).Nodup)
    (k : String) :
    (l.filter fun e ↦ e.1 = k).map (·.2) = (l.lookup k).toList := by
  induction l with
  | nil => rfl
  | cons e l ih =>
    obtain ⟨he, hl⟩ := List.nodup_cons.1 hd
    rw [lookup_cons]
    by_cases hk : e.1 = k
    · subst hk
      rw [List.filter_cons_of_pos (by simp), List.map_cons, ih hl, lookup_eq_none he, if_pos rfl]
      rfl
    · rw [List.filter_cons_of_neg (by simpa using hk), ih hl, if_neg fun h ↦ hk h.symm]

open Json

inductive Required {α : Type} (p : α → Json → Prop) (a : α) : Option Json → Prop
  | given {v : Json} (h : p a v) : Required p a (some v)

inductive Optional {α : Type} (p : α → Json → Prop) : Option α → Option Json → Prop
  | absent : Optional p none none
  | null : Optional p none (some .null)
  | given {a : α} {v : Json} (h : p a v) : Optional p (some a) (some v)

/-- A value that need not be there if it is the default. -/
inductive Defaulted {α : Type} (p : α → Json → Prop) (default : α) : α → Option Json → Prop
  | absent : Defaulted p default default none
  | given {a : α} {v : Json} (h : p a v) : Defaulted p default a (some v)

/-- The fields of a record by their names, and what may stand there. -/
abbrev Layout := List (String × (Option Json → Prop))

/-- The object gives every field at most once and as its layout wants it. -/
def Carries (layout : Layout) (ms : List (List Piece × Json)) : Prop :=
  ∀ f ∈ layout, ∃ x : Option Json, valuesOf f.1 ms = x.toList ∧ f.2 x

namespace Record

variable {names : List String} {ms : List (List Piece × Json)} {r : Record} {name : String}

theorem valuesOf_eq (h : ofJson? names (.object ms) = some r) (hn : name ∈ names) :
    valuesOf name ms = (r.given.lookup name).toList := by
  obtain ⟨all, hall, hd, rfl⟩ := ofJson?_object_iff.1 h
  have hknown : all.filter (fun m ↦ m.1 = name) =
      (all.filter fun m ↦ names.contains m.1).filter fun m ↦ m.1 = name := by
    rw [List.filter_filter]
    refine List.filter_congr fun m _ ↦ ?_
    by_cases hm : m.1 = name
    · simp [hm, hn]
    · simp [hm]
  rw [valuesOf_of_keyed? hall, hknown, Dict.values_of_nodup hd]

theorem exists_of_named (hn : Named ms) (h : ∀ name ∈ names, (valuesOf name ms).length ≤ 1) :
    ∃ r, ofJson? names (.object ms) = some r ∧ r.positional = false := by
  obtain ⟨all, hall⟩ := named_iff.1 hn
  have hd : ((all.filter fun m ↦ names.contains m.1).map (·.1)).Nodup := by
    refine List.nodup_iff_count_le_one.2 fun name ↦ ?_
    by_cases hname : name ∈ names
    · have honce := h name hname
      rw [valuesOf_of_keyed? hall, List.length_map] at honce
      rw [List.count, List.countP_map, List.countP_filter, List.countP_eq_length_filter]
      refine le_trans (List.Sublist.length_le (List.monotone_filter_right all fun m hm ↦ ?_)) honce
      simp only [Function.comp_apply, Bool.and_eq_true] at hm
      simpa using hm.1
    · refine le_of_eq_of_le (List.count_eq_zero.2 fun hmem ↦ ?_) (Nat.zero_le 1)
      obtain ⟨m, hm, rfl⟩ := List.mem_map.1 hmem
      exact hname (by simpa using (List.mem_filter.1 hm).2)
  exact ⟨_, ofJson?_object_iff.2 ⟨all, hall, hd, rfl⟩, rfl⟩

theorem ofJson?_carries {layout : Layout} (hn : Named ms) (hc : Carries layout ms) :
    ∃ r, ofJson? (layout.map (·.1)) (.object ms) = some r ∧ r.positional = false ∧
      ∀ f ∈ layout, f.2 (r.given.lookup f.1) := by
  have honce : ∀ name ∈ layout.map (·.1), (valuesOf name ms).length ≤ 1 := by
    intro name hname
    obtain ⟨f, hf, rfl⟩ := List.mem_map.1 hname
    obtain ⟨x, hx, -⟩ := hc f hf
    rw [hx]
    cases x <;> simp
  obtain ⟨r, hr, hpositional⟩ := exists_of_named hn honce
  refine ⟨r, hr, hpositional, fun f hf ↦ ?_⟩
  obtain ⟨x, hx, hvalue⟩ := hc f hf
  rw [valuesOf_eq hr (List.mem_map_of_mem hf)] at hx
  have hlookup : r.given.lookup f.1 = x := by simpa using congrArg List.head? hx
  rwa [hlookup]

variable {α : Type} {read : Json → Option α} {p : α → Json → Prop} {a default : α}

theorem required_eq (hread : Understands read p) (h : Required p a (r.given.lookup name)) :
    r.required name read = some a := by
  rw [required]
  generalize r.given.lookup name = x at h
  cases h with
  | given h => exact hread h

theorem defaulted_eq (hread : Understands read p)
    (h : Defaulted p default a (r.given.lookup name)) :
    r.defaulted name read default = some a := by
  rw [defaulted]
  generalize r.given.lookup name = x at h
  cases h with
  | absent => rfl
  | given h => exact hread h

theorem optional_eq (hread : Understands read p) (hnull : read .null = none)
    (hpositional : r.positional = false) {x : Option α} (h : Optional p x (r.given.lookup name)) :
    r.optional name read = some x := by
  rw [optional, hpositional]
  generalize r.given.lookup name = y at h
  cases h with
  | absent => rfl
  | null => rfl
  | @given a v h =>
    have hv := hread h
    cases v with
    | null =>
      rw [hnull] at hv
      cases hv
    | _ => exact congrArg (Option.map some) hv

def Gives (r : Record) (name : String) : Prop := ∃ v, r.given.lookup name = some v

theorem gives_of_required (h : r.required name read = some a) : r.Gives name := by
  obtain ⟨v, hv, -⟩ := Option.bind_eq_some_iff.1 h
  exact ⟨v, hv⟩

end Record

structure Shape where
  known : List String
  needed : List String

namespace Shape

/-- A known field is there twice, or a needed one is not there, or some member has no name. -/
inductive Flawed (s : Shape) (ms : List (List Piece × Json)) : Prop
  | repeated {name : String} (h : name ∈ s.known) (ht : 2 ≤ (valuesOf name ms).length)
  | lacking {name : String} (h : name ∈ s.needed) (ht : valuesOf name ms = [])
  | unnamed (h : ¬ Named ms)

theorem not_flawed {s : Shape} (hs : s.needed ⊆ s.known)
    {ms : List (List Piece × Json)} {r : Record} (hr : Record.ofJson? s.known (.object ms) = some r)
    (hn : ∀ name ∈ s.needed, r.Gives name) : ¬ s.Flawed ms := by
  rintro (@⟨name, h, ht⟩ | ⟨h, ht⟩ | h)
  · rw [Record.valuesOf_eq hr h] at ht
    cases hx : r.given.lookup name <;> simp [hx] at ht
  · obtain ⟨v, hv⟩ := hn _ h
    rw [Record.valuesOf_eq hr (hs h), hv] at ht
    cases ht
  · obtain ⟨all, hall, -⟩ := Record.ofJson?_object_iff.1 hr
    exact h (named_iff.2 ⟨all, hall⟩)

end Shape

end TableLog
