import TableLog.Proofs.Json.Grammar
import TableLog.Proofs.Json.Literal

namespace TableLog

namespace Json

/-- The trees that this library writes: every literal is one that the printer leaves as it is. -/
inductive Printed : Json → Prop
  | null : Printed .null
  | bool (b : Bool) : Printed (.bool b)
  | number (n : Int) : Printed (.ofInt n)
  | string {ps : List Piece} (h : ∀ p ∈ ps, p.Plain) : Printed (.string ps)
  | array {is : List Json} (h : ∀ i ∈ is, Printed i) : Printed (.array is)
  | object {ms : List (List Piece × Json)} (hk : ∀ m ∈ ms, ∀ p ∈ m.1, p.Plain)
    (hv : ∀ m ∈ ms, Printed m.2) :
    Printed (.object ms)

theorem spells_renderItems {is : List Json} (hne : is ≠ []) (h : ∀ i ∈ is, Spells i i.render) :
    SpellsItems is (renderItems is) := by
  induction is with
  | nil => exact absurd rfl hne
  | cons v r ih =>
    obtain ⟨hv, hr⟩ := List.forall_mem_cons.1 h
    cases r with
    | nil =>
      have hlast := SpellsItems.last blank_nil hv blank_nil
      rwa [List.append_nil] at hlast
    | cons w r => exact .next blank_nil hv blank_nil (ih (List.cons_ne_nil w r) hr)

theorem spells_renderMembers {ms : List (List Piece × Json)} (hne : ms ≠ [])
    (hk : ∀ m ∈ ms, ∀ p ∈ m.1, p.Plain) (h : ∀ m ∈ ms, Spells m.2 m.2.render) :
    SpellsMembers ms (renderMembers ms) := by
  induction ms with
  | nil => exact absurd rfl hne
  | cons m r ih =>
    obtain ⟨hkey, hkr⟩ := List.forall_mem_cons.1 hk
    obtain ⟨hv, hr⟩ := List.forall_mem_cons.1 h
    have hname := spells_renderString hkey
    cases r with
    | nil =>
      have hlast := SpellsMembers.last blank_nil hname blank_nil blank_nil hv blank_nil
      rwa [List.append_nil] at hlast
    | cons w r =>
      exact .next blank_nil hname blank_nil blank_nil hv blank_nil
        (ih (List.cons_ne_nil w r) hkr hr)

theorem Printed.spells {v : Json} (h : v.Printed) : Spells v v.render := by
  induction h with
  | null => exact .null
  | bool b => cases b <;> constructor
  | number n => exact .number (isNumber_numeral n)
  | string h => exact .string (spells_renderString h)
  | @array is _ ih =>
    by_cases hne : is = []
    · subst hne
      exact .emptyArray blank_nil
    · exact .array (spells_renderItems hne ih)
  | @object ms hk _ ih =>
    by_cases hne : ms = []
    · subst hne
      exact .emptyObject blank_nil
    · exact .object (spells_renderMembers hne hk ih)

theorem Printed.parse?_render {v : Json} (h : v.Printed) : parse? v.render = some v :=
  parse?_eq_some_iff.2 ⟨[], v.render, [], blank_nil, h.spells, blank_nil, (List.append_nil _).symm⟩

theorem numeral_visible (n : Int) : ∀ b ∈ numeral n, 0x20 ≤ b := by
  have hd : ∀ b ∈ decimal n.natAbs, 0x20 ≤ b := by
    intro b hb
    have hdigit := decimal_isDigit _ b hb
    simp only [isDigit, Bool.and_eq_true, decide_eq_true_eq] at hdigit
    exact UInt8.le_trans (by decide) hdigit.1
  unfold numeral
  split
  · exact List.forall_mem_cons.2 ⟨by decide, hd⟩
  · exact hd

theorem renderString_visible {ps : List Piece} (h : ∀ p ∈ ps, p.Plain) :
    ∀ b ∈ renderString ps, 0x20 ≤ b := by
  have hpieces : ∀ b ∈ ps.flatMap Piece.render, 0x20 ≤ b := by
    intro b hb
    obtain ⟨p, hp, hb⟩ := List.mem_flatMap.1 hb
    exact (h p hp).render_visible b hb
  simpa [renderString, or_imp, forall_and] using hpieces

theorem renderItems_visible {is : List Json} (h : ∀ i ∈ is, ∀ b ∈ i.render, 0x20 ≤ b) :
    ∀ b ∈ renderItems is, 0x20 ≤ b := by
  induction is with
  | nil => simp [renderItems]
  | cons v r ih =>
    obtain ⟨hv, hr⟩ := List.forall_mem_cons.1 h
    cases r with
    | nil => exact hv
    | cons w r => exact List.forall_mem_append.2 ⟨hv, List.forall_mem_cons.2 ⟨by decide, ih hr⟩⟩

theorem renderMembers_visible {ms : List (List Piece × Json)} (hk : ∀ m ∈ ms, ∀ p ∈ m.1, p.Plain)
    (hv : ∀ m ∈ ms, ∀ b ∈ m.2.render, 0x20 ≤ b) : ∀ b ∈ renderMembers ms, 0x20 ≤ b := by
  induction ms with
  | nil => simp [renderMembers]
  | cons m r ih =>
    obtain ⟨hkey, hkr⟩ := List.forall_mem_cons.1 hk
    obtain ⟨hvalue, hvr⟩ := List.forall_mem_cons.1 hv
    have hcolon {bs : Bytes} (h : ∀ b ∈ bs, 0x20 ≤ b) : ∀ b ∈ renderString m.1 ++ 0x3A :: bs,
        0x20 ≤ b :=
      List.forall_mem_append.2 ⟨renderString_visible hkey, List.forall_mem_cons.2 ⟨by decide, h⟩⟩
    cases r with
    | nil => exact hcolon hvalue
    | cons w r =>
      exact hcolon (List.forall_mem_append.2 ⟨hvalue,
        List.forall_mem_cons.2 ⟨by decide, ih hkr hvr⟩⟩)

theorem Printed.render_visible {v : Json} (h : v.Printed) : ∀ b ∈ v.render, 0x20 ≤ b := by
  induction h with
  | null => simp [render]
  | bool b => cases b <;> simp [render]
  | number n => exact numeral_visible n
  | string h => exact renderString_visible h
  | array _ ih =>
    have hitems := renderItems_visible ih
    simpa [render, or_imp, forall_and] using hitems
  | object hk _ ih =>
    have hmembers := renderMembers_visible hk ih
    simpa [render, or_imp, forall_and] using hmembers

theorem printed_object_iff {ms : List (List Piece × Json)} :
    (Json.object ms).Printed ↔ (∀ m ∈ ms, ∀ p ∈ m.1, p.Plain) ∧ ∀ m ∈ ms, m.2.Printed := by
  refine ⟨fun h ↦ ?_, fun h ↦ .object h.1 h.2⟩
  cases h with
  | object hk hv => exact ⟨hk, hv⟩

end Json

end TableLog
