import Mathlib.Data.List.Basic
import Mathlib.Tactic.SplitIfs
import TableLog.Proofs.Json.Fields
import TableLog.Proofs.Text

namespace TableLog

def IsText (bs : Bytes) : Prop := ∃ s, utf8 s = bs

namespace IsText

variable {bs cs : Bytes}

theorem of_ascii (h : ∀ b ∈ bs, b < 0x80) : IsText bs := ⟨asciiText bs, utf8_asciiText h⟩

theorem of_char (c : Char) : IsText (String.utf8EncodeChar c) :=
  ⟨String.ofList [c], by rw [utf8_ofList, List.flatMap_singleton]⟩

theorem append (h : IsText bs) (h' : IsText cs) : IsText (bs ++ cs) := by
  obtain ⟨s, rfl⟩ := h
  obtain ⟨t, rfl⟩ := h'
  refine ⟨s ++ t, ?_⟩
  simp [utf8]

theorem cons {b : UInt8} (hb : b < 0x80) (h : IsText bs) : IsText (b :: bs) :=
  append (of_ascii (List.forall_mem_singleton.2 hb)) h

theorem concat {b : UInt8} (h : IsText bs) (hb : b < 0x80) : IsText (bs ++ [b]) :=
  append h (of_ascii (List.forall_mem_singleton.2 hb))

theorem flatMap {α : Type} {xs : List α} {f : α → Bytes} (h : ∀ x ∈ xs, IsText (f x)) :
    IsText (xs.flatMap f) := by
  induction xs with
  | nil => exact ⟨"", rfl⟩
  | cons x xs ih =>
    obtain ⟨hx, hxs⟩ := List.forall_mem_cons.1 h
    exact append hx (ih hxs)

theorem utf8_getD (h : IsText bs) (default : String) : utf8 ((ofUtf8? bs).getD default) = bs := by
  obtain ⟨s, rfl⟩ := h
  rw [ofUtf8?_utf8, Option.getD_some]

end IsText

theorem ofNat_not_ascii {n : Nat} (h : 0x80 ≤ n) (h' : n < 0x100) : 0x80 ≤ UInt8.ofNat n := by
  rw [UInt8.le_iff_toNat_le, UInt8.toNat_ofNat', Nat.mod_eq_of_lt h']
  exact h

theorem not_ascii_of_mem {c : Char} (hc : 0x80 ≤ c.toNat) {b : UInt8}
    (hb : b ∈ String.utf8EncodeChar c) :
    0x80 ≤ b := by
  have hv : c.val.toNat = c.toNat := rfl
  rw [String.utf8EncodeChar, hv] at hb
  split_ifs at hb <;> simp only [List.mem_cons, List.not_mem_nil, or_false] at hb
  · omega
  · rcases hb with rfl | rfl <;> exact ofNat_not_ascii (by omega) (by omega)
  · rcases hb with rfl | rfl | rfl <;> exact ofNat_not_ascii (by omega) (by omega)
  · rcases hb with rfl | rfl | rfl | rfl <;> exact ofNat_not_ascii (by omega) (by omega)

namespace Piece

theorem render_ofByte_ascii :
    ∀ n < 128, ∀ b ∈ (ofByte (UInt8.ofNat n)).render, b < 0x80 := by decide +kernel

theorem render_ofByte_other {b : UInt8} (h : 0x80 ≤ b) : (ofByte b).render = [b] := by
  revert h
  apply forall_byte (p := fun b ↦ 0x80 ≤ b → (ofByte b).render = [b])
  decide +kernel

theorem render_char_isText (c : Char) :
    IsText ((String.utf8EncodeChar c).flatMap fun b ↦ (ofByte b).render) := by
  by_cases hc : c.toNat < 0x80
  · have hchar : String.utf8EncodeChar c = [UInt8.ofNat c.toNat] := by
      rw [← utf8EncodeChar_ascii c.toNat hc, Char.ofNat_toNat]
    rw [hchar, List.flatMap_singleton]
    exact .of_ascii (render_ofByte_ascii c.toNat hc)
  · have hsame : (String.utf8EncodeChar c).flatMap (fun b ↦ (ofByte b).render) =
        String.utf8EncodeChar c := by
      have hbyte := fun b hb ↦
        render_ofByte_other (not_ascii_of_mem (Nat.le_of_not_lt hc) (b := b) hb)
      rw [List.flatMap_congr hbyte, List.flatMap_singleton']
    rw [hsame]
    exact .of_char c

theorem render_ofText_isText (s : String) : IsText ((ofText s).flatMap render) := by
  have hs : utf8 s = s.toList.flatMap String.utf8EncodeChar := by
    rw [← utf8_ofList, String.ofList_toList]
  rw [ofText, hs, List.flatMap_map, List.flatMap_assoc]
  exact .flatMap fun c _ ↦ render_char_isText c

end Piece

namespace Json

/-- A tree that is made of texts, numbers and the like, and not of
bytes or spellings of their own. -/
inductive Textual : Json → Prop
  | null : Textual .null
  | bool (b : Bool) : Textual (.bool b)
  | int (n : Int) : Textual (ofInt n)
  | text (s : String) : Textual (ofText s)
  | array {is : List Json} (hi : ∀ i ∈ is, i.Textual) : Textual (.array is)
  | object {ms : List (List Piece × Json)} (hk : ∀ m ∈ ms, ∃ s, m.1 = Piece.ofText s)
    (hv : ∀ m ∈ ms, m.2.Textual) :
    Textual (.object ms)

theorem renderString_isText (s : String) : IsText (renderString (Piece.ofText s)) :=
  .cons (by decide) (.concat (Piece.render_ofText_isText s) (by decide))

theorem renderItems_isText {is : List Json} (h : ∀ i ∈ is, IsText i.render) :
    IsText (renderItems is) := by
  induction is with
  | nil => exact ⟨"", rfl⟩
  | cons v r ih =>
    obtain ⟨hv, hr⟩ := List.forall_mem_cons.1 h
    cases r with
    | nil => exact hv
    | cons w r => exact .append hv (.cons (by decide) (ih hr))

theorem renderMembers_isText {ms : List (List Piece × Json)}
    (hk : ∀ m ∈ ms, ∃ s, m.1 = Piece.ofText s) (hv : ∀ m ∈ ms, IsText m.2.render) :
    IsText (renderMembers ms) := by
  induction ms with
  | nil => exact ⟨"", rfl⟩
  | cons m r ih =>
    obtain ⟨k, v⟩ := m
    obtain ⟨⟨s, rfl⟩, hkr⟩ := List.forall_mem_cons.1 hk
    obtain ⟨hvalue, hvr⟩ := List.forall_mem_cons.1 hv
    cases r with
    | nil => exact .append (renderString_isText s) (.cons (by decide) hvalue)
    | cons w r =>
      have hrest : IsText (v.render ++ 0x2C :: renderMembers (w :: r)) :=
        .append hvalue (.cons (by decide) (ih hkr hvr))
      exact .append (renderString_isText s) (.cons (by decide) hrest)

theorem Textual.render_isText {v : Json} (h : v.Textual) : IsText v.render := by
  induction h with
  | null => exact .of_ascii (by decide +kernel)
  | bool b => cases b <;> exact .of_ascii (by decide +kernel)
  | int n => exact .of_ascii (numeral_ascii n)
  | text s => exact renderString_isText s
  | array _ ih => exact .cons (by decide) (.concat (renderItems_isText ih) (by decide))
  | object hk _ ih => exact .cons (by decide) (.concat (renderMembers_isText hk ih) (by decide))

theorem Textual.printed {v : Json} (h : v.Textual) : v.Printed := by
  induction h with
  | null => exact .null
  | bool b => exact .bool b
  | int n => exact .number n
  | text s => exact printed_ofText s
  | array _ ih => exact .array ih
  | object hk _ ih =>
    refine .object (fun m hm ↦ ?_) ih
    obtain ⟨s, hs⟩ := hk m hm
    exact hs ▸ Piece.ofText_plain s

theorem Textual.record {v : Json} (h : v.Textual) (name : String) :
    (Json.record [.value name v]).Textual := by
  refine .object (fun m hm ↦ ?_) fun m hm ↦ ?_
  · obtain rfl := List.mem_singleton.1 hm
    exact ⟨name, rfl⟩
  · obtain rfl := List.mem_singleton.1 hm
    exact h

theorem Textual.parse?_record {v : Json} (h : v.Textual) (name : String) :
    parse? (utf8 ((ofUtf8? (Json.record [.value name v]).render).getD "")) =
      some (Json.record [.value name v]) := by
  have hrecord := h.record name
  rw [hrecord.render_isText.utf8_getD]
  exact hrecord.printed.parse?_render

end Json

end TableLog
