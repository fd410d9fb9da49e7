import TableLog.Json.Printer
import TableLog.Proofs.Json.Token

namespace TableLog

namespace Piece

/-- A byte that needs no escape, one that has a letter, or a code unit. -/
def Plain : Piece → Prop
  | .byte b => letter? b = none → 0x20 ≤ b
  | .codeUnit u => u < 0x10000

theorem shortEscapes_letter :
    ∀ e ∈ shortEscapes, escaped? e.1 = some e.2 := by simp [shortEscapes, escaped?]

theorem escaped?_of_letter? {b l : UInt8} (h : letter? b = some l) : escaped? l = some b := by
  obtain ⟨e, he, rfl⟩ := Option.map_eq_some_iff.1 h
  have hb : e.2 = b := by simpa using List.find?_some he
  exact hb ▸ shortEscapes_letter e (List.mem_of_find?_eq_some he)

theorem letter?_quote : letter? 0x22 ≠ none := by decide

theorem letter?_backslash : letter? 0x5C ≠ none := by decide

theorem shortEscapes_visible : ∀ e ∈ shortEscapes, 0x20 ≤ e.1 := by simp [shortEscapes]

theorem letter?_visible {b l : UInt8} (h : letter? b = some l) : 0x20 ≤ l := by
  obtain ⟨e, he, rfl⟩ := Option.map_eq_some_iff.1 h
  exact shortEscapes_visible e (List.mem_of_find?_eq_some he)

theorem hexLetter_visible : ∀ d < 16, 0x20 ≤ hexLetter d := by decide

theorem Plain.render_visible {p : Piece} (h : p.Plain) : ∀ b ∈ p.render, 0x20 ≤ b := by
  cases p with
  | byte b =>
    rw [render]
    cases hl : letter? b with
    | some l => simpa using letter?_visible hl
    | none => simpa using h hl
  | codeUnit u =>
    have hd (n : Nat) : 0x20 ≤ hexLetter (n % 16) := hexLetter_visible _ (Nat.mod_lt _ (by decide))
    simp [render, hd]

theorem ofByte_plain (b : UInt8) : (ofByte b).Plain := by
  unfold ofByte
  split
  · have hb := b.toNat_lt
    show b.toNat < 0x10000
    omega
  · rename_i h
    intro hl
    exact UInt8.not_lt.1 fun hb ↦ h ⟨hb, hl⟩

theorem ofText_plain (s : String) : ∀ p ∈ ofText s, p.Plain := by
  intro p hp
  obtain ⟨b, -, rfl⟩ := List.mem_map.1 hp
  exact ofByte_plain b

theorem hexDigit?_hexLetter : ∀ d < 16, Json.hexDigit? (hexLetter d) = some d := by decide

theorem hex4?_hexLetter {u : Nat} (h : u < 0x10000) :
    Json.hex4? (hexLetter (u / 4096 % 16)) (hexLetter (u / 256 % 16)) (hexLetter (u / 16 % 16))
      (hexLetter (u % 16)) = some u := by
  have hd (n : Nat) : Json.hexDigit? (hexLetter (n % 16)) = some (n % 16) :=
    hexDigit?_hexLetter _ (Nat.mod_lt _ (by decide))
  simp only [Json.hex4?, hd, Option.bind_eq_bind, Option.bind_some, Option.pure_def,
    Option.some.injEq]
  omega

theorem Plain.spells {p : Piece} (h : p.Plain) : p.Spells p.render := by
  cases p with
  | byte b =>
    rw [render]
    cases hl : letter? b with
    | some l => exact .letter (escaped?_of_letter? hl)
    | none =>
      exact .plain (h hl) (fun hb ↦ letter?_quote (hb ▸ hl)) fun hb ↦ letter?_backslash (hb ▸ hl)
  | codeUnit u => exact .codeUnit (hex4?_hexLetter h)

end Piece

namespace Json

theorem spells_renderString {ps : List Piece} (h : ∀ p ∈ ps, p.Plain) :
    SpellsString ps (renderString ps) := by
  refine .quoted ?_
  induction ps with
  | nil => exact .nil
  | cons p ps ih =>
    obtain ⟨hp, hps⟩ := List.forall_mem_cons.1 h
    exact .cons hp.spells (ih hps)

theorem decimal_head {n : Nat} {b : UInt8} {ds : Bytes} (h : decimal n = b :: ds) (hb : b = 0x30) :
    ds = [] := by
  fun_induction decimal n generalizing b ds with
  | case1 n hn => exact (List.cons.inj h).2.symm
  | case2 n hn ih =>
    obtain ⟨c, cs, hc⟩ := List.exists_cons_of_ne_nil (decimal_ne_nil (n / 10))
    rw [hc, List.cons_append] at h
    obtain ⟨rfl, rfl⟩ := List.cons.inj h
    have hcs := ih hc hb
    have hz : natOfDigits (decimal (n / 10)) = n / 10 := natOfDigits_decimal _
    rw [hc, hcs, hb] at hz
    have hz' : (0 : Nat) = n / 10 := hz
    omega

theorem whole_decimal (n : Nat) : Whole (decimal n) := by
  obtain ⟨b, ds, hd⟩ := List.exists_cons_of_ne_nil (decimal_ne_nil n)
  obtain ⟨hb, hds⟩ := List.forall_mem_cons.1 (hd ▸ decimal_isDigit n)
  by_cases hz : b = 0x30
  · rw [hd, decimal_head hd hz, hz]
    exact .zero
  · rw [hd]
    exact .digits hb hz hds

theorem isNumber_numeral (n : Int) : IsNumber (numeral n) := by
  have hunsigned : decimal n.natAbs ++ [] ++ [] = decimal n.natAbs := by simp
  unfold numeral
  split
  · have hnumber := IsNumber.mk (.inr rfl) (whole_decimal n.natAbs) .nothing .nothing
    rwa [hunsigned] at hnumber
  · have hnumber := IsNumber.mk (.inl rfl) (whole_decimal n.natAbs) .nothing .nothing
    rwa [hunsigned] at hnumber

end Json

end TableLog
