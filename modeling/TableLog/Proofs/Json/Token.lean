import Mathlib.Data.List.TakeWhile
import TableLog.Json.Reader
import TableLog.Proofs.Text

namespace TableLog

inductive Piece.Spells : Piece → Bytes → Prop
  | plain {b : UInt8} (hv : 0x20 ≤ b) (hq : b ≠ 0x22) (hs : b ≠ 0x5C) : Spells (.byte b) [b]
  | letter {l b : UInt8} (h : Piece.escaped? l = some b) : Spells (.byte b) [0x5C, l]
  | codeUnit {a b c d : UInt8} {u : Nat} (h : Json.hex4? a b c d = some u) :
    Spells (.codeUnit u) [0x5C, 0x75, a, b, c, d]

namespace Json

inductive SpellsPieces : List Piece → Bytes → Prop
  | nil : SpellsPieces [] []
  | cons {p : Piece} {ps : List Piece} {t u : Bytes} (h : p.Spells t) (hs : SpellsPieces ps u) :
    SpellsPieces (p :: ps) (t ++ u)

inductive SpellsString : List Piece → Bytes → Prop
  | quoted {ps : List Piece} {t : Bytes}
      (h : SpellsPieces ps t) : SpellsString ps (0x22 :: (t ++ [0x22]))

theorem push_eq_some {p : Piece} {x : Option (List Piece × Bytes)} {ps : List Piece} {r : Bytes}
    (h : push p x = some (ps, r)) : ∃ qs, ps = p :: qs ∧ x = some (qs, r) := by
  obtain ⟨⟨qs, r'⟩, hx, he⟩ := Option.map_eq_some_iff.1 h
  obtain ⟨rfl, rfl⟩ := Prod.mk.inj he
  exact ⟨qs, rfl, hx⟩

theorem escaped?_hexMark : Piece.escaped? 0x75 = none := by decide

theorem readString_piece {p : Piece} {t : Bytes} (h : p.Spells t) (bs : Bytes) :
    readString (t ++ bs) = push p (readString bs) := by
  cases h with
  | plain hv hq hs =>
    rw [List.cons_append, List.nil_append, readString.eq_def]
    simp [hq, hs, UInt8.not_lt.2 hv]
  | @letter l b h =>
    have hu : l ≠ 0x75 := by
      rintro rfl
      rw [escaped?_hexMark] at h
      cases h
    rw [List.cons_append, List.cons_append, List.nil_append, readString.eq_def]
    simp [hu, h]
  | codeUnit h =>
    simp only [List.cons_append, List.nil_append]
    rw [readString.eq_def]
    simp [h]

/-- The quote ends the literal, since no piece is written as a bare quote. -/
theorem readString_of_spells {ps : List Piece} {t : Bytes} (h : SpellsPieces ps t) (rest : Bytes) :
    readString (t ++ 0x22 :: rest) = some (ps, rest) := by
  induction h with
  | nil =>
    rw [List.nil_append, readString.eq_def]
    rfl
  | cons hp _ ih =>
    rw [List.append_assoc, readString_piece hp, ih]
    rfl

theorem spells_of_readString {bs r : Bytes} {ps : List Piece} (h : readString bs = some (ps, r)) :
    ∃ t, SpellsPieces ps t ∧ bs = t ++ 0x22 :: r := by
  fun_induction readString bs generalizing ps with
  | case1 => cases h
  | case2 r' =>
    obtain ⟨rfl, rfl⟩ := Prod.mk.inj (Option.some.inj h)
    exact ⟨[], .nil, rfl⟩
  | case3 => cases h
  | case4 h₁ h₂ h₃ h₄ r' hq ih =>
    obtain ⟨u, hu, hp⟩ := Option.bind_eq_some_iff.1 h
    obtain ⟨qs, rfl, hr⟩ := push_eq_some hp
    obtain ⟨t, ht, rfl⟩ := ih hr
    exact ⟨_, .cons (.codeUnit hu) ht, rfl⟩
  | case5 => cases h
  | case6 l r' hq hl ih =>
    obtain ⟨c, hc, hp⟩ := Option.bind_eq_some_iff.1 h
    obtain ⟨qs, rfl, hr⟩ := push_eq_some hp
    obtain ⟨t, ht, rfl⟩ := ih hr
    exact ⟨_, .cons (.letter hc) ht, rfl⟩
  | case7 => cases h
  | case8 b r' hq hs hb ih =>
    obtain ⟨qs, rfl, hr⟩ := push_eq_some h
    obtain ⟨t, ht, rfl⟩ := ih hr
    exact ⟨_, .cons (.plain (UInt8.not_lt.1 hb) hq hs) ht, rfl⟩

inductive Whole : Bytes → Prop
  | zero : Whole [0x30]
  | digits {d : UInt8} {ds : Bytes} (hd : isDigit d) (hz : d ≠ 0x30)
      (h : ∀ b ∈ ds, isDigit b) : Whole (d :: ds)

inductive Fraction : Bytes → Prop
  | nothing : Fraction []
  | digits {ds : Bytes} (hne : ds ≠ []) (h : ∀ b ∈ ds, isDigit b) : Fraction (0x2E :: ds)

inductive Exponent : Bytes → Prop
  | nothing : Exponent []
  | digits {mark : UInt8} {sign ds : Bytes} (hm : mark = 0x65 ∨ mark = 0x45)
    (hs : sign = [] ∨ sign = [0x2B] ∨ sign = [0x2D]) (hne : ds ≠ []) (h : ∀ b ∈ ds, isDigit b) :
    Exponent (mark :: (sign ++ ds))

inductive IsNumber : Bytes → Prop
  | mk {sign w f e : Bytes} (hs : sign = [] ∨ sign = [0x2D]) (hw : Whole w) (hf : Fraction f)
    (he : Exponent e) :
    IsNumber (sign ++ (w ++ f ++ e))

def beginsWith (p : UInt8 → Bool) : Bytes → Bool
  | [] => false
  | b :: _ => p b

theorem takeDigits_spec {bs ds r : Bytes} (h : takeDigits bs = (ds, r)) :
    (∀ b ∈ ds, isDigit b) ∧ bs = ds ++ r := by
  obtain ⟨rfl, rfl⟩ := Prod.mk.inj h
  exact ⟨fun b hb ↦ List.mem_takeWhile_imp hb, List.takeWhile_append_dropWhile.symm⟩

theorem takeDigits_append {ds rest : Bytes} (hd : ∀ b ∈ ds, isDigit b)
    (hr : beginsWith isDigit rest = false) :
    takeDigits (ds ++ rest) = (ds, rest) := by
  rw [takeDigits, List.takeWhile_append_of_pos hd, List.dropWhile_append_of_pos hd]
  cases rest with
  | nil => simp
  | cons b rest =>
    have hb : isDigit b = false := hr
    rw [List.takeWhile_cons_of_neg (by simp [hb]), List.dropWhile_cons_of_neg (by simp [hb]),
      List.append_nil]

theorem readWhole_spec {bs w r : Bytes} (h : readWhole bs = some (w, r)) :
    Whole w ∧ bs = w ++ r := by
  cases bs with
  | nil => cases h
  | cons b bs =>
    rw [readWhole] at h
    split at h
    · rename_i hb
      obtain ⟨rfl, rfl⟩ := Prod.mk.inj (Option.some.inj h)
      subst hb
      exact ⟨.zero, rfl⟩
    · rename_i hz
      split at h
      · rename_i hb
        obtain ⟨hds, hbs⟩ := takeDigits_spec (Option.some.inj h)
        cases w with
        | nil =>
          obtain ⟨hnil, -⟩ := Prod.mk.inj (Option.some.inj h)
          rw [List.takeWhile_cons_of_pos hb] at hnil
          cases hnil
        | cons d ds =>
          obtain ⟨hd, hrest⟩ := List.forall_mem_cons.1 hds
          obtain ⟨rfl, -⟩ := List.cons.inj hbs
          exact ⟨.digits hd hz hrest, hbs⟩
      · cases h

theorem readWhole_append {w rest : Bytes} (h : Whole w) (hr : beginsWith isDigit rest = false) :
    readWhole (w ++ rest) = some (w, rest) := by
  cases h with
  | zero => rw [List.cons_append, readWhole, if_pos rfl, List.nil_append]
  | digits hd hz h =>
    rw [List.cons_append, readWhole, if_neg hz, if_pos hd, ← List.cons_append,
      takeDigits_append (List.forall_mem_cons.2 ⟨hd, h⟩) hr]

theorem readDigits_spec {bs ds r : Bytes} (h : readDigits bs = some (ds, r)) :
    ds ≠ [] ∧ (∀ b ∈ ds, isDigit b) ∧ bs = ds ++ r := by
  rw [readDigits] at h
  split at h
  · cases h
  · rename_i hne
    have htake := Option.some.inj h
    rw [htake] at hne
    exact ⟨hne, takeDigits_spec htake⟩

theorem readDigits_append {ds rest : Bytes} (hne : ds ≠ []) (hd : ∀ b ∈ ds, isDigit b)
    (hr : beginsWith isDigit rest = false) : readDigits (ds ++ rest) = some (ds, rest) := by
  rw [readDigits, takeDigits_append hd hr, if_neg hne]

theorem readFraction_spec {bs f r : Bytes} (h : readFraction bs = some (f, r)) :
    Fraction f ∧ bs = f ++ r := by
  cases bs with
  | nil =>
    obtain ⟨rfl, rfl⟩ := Prod.mk.inj (Option.some.inj h)
    exact ⟨.nothing, rfl⟩
  | cons b bs =>
    rw [readFraction] at h
    split at h
    · rename_i hb
      obtain ⟨⟨ds, r'⟩, hd, he⟩ := Option.map_eq_some_iff.1 h
      obtain ⟨rfl, rfl⟩ := Prod.mk.inj he
      obtain ⟨hne, hds, rfl⟩ := readDigits_spec hd
      subst hb
      exact ⟨.digits hne hds, rfl⟩
    · obtain ⟨rfl, rfl⟩ := Prod.mk.inj (Option.some.inj h)
      exact ⟨.nothing, rfl⟩

theorem readFraction_append {f rest : Bytes} (h : Fraction f) (hd : beginsWith isDigit rest = false)
    (hdot : beginsWith (· == 0x2E) rest = false) : readFraction (f ++ rest) = some (f, rest) := by
  cases h with
  | nothing =>
    cases rest with
    | nil => rfl
    | cons b rest =>
      rw [List.nil_append, readFraction, if_neg (by simpa [beginsWith] using hdot)]
  | digits hne h =>
    rw [List.cons_append, readFraction, if_pos rfl, readDigits_append hne h hd]
    rfl

theorem readExponent_spec {bs e r : Bytes} (h : readExponent bs = some (e, r)) :
    Exponent e ∧ bs = e ++ r := by
  cases bs with
  | nil =>
    obtain ⟨rfl, rfl⟩ := Prod.mk.inj (Option.some.inj h)
    exact ⟨.nothing, rfl⟩
  | cons b bs =>
    rw [readExponent.eq_def] at h
    simp only at h
    split at h
    · rename_i hb
      have hmark : b = 0x65 ∨ b = 0x45 := by simpa using hb
      cases bs with
      | nil => cases h
      | cons s t =>
        simp only at h
        split at h
        · rename_i hs
          obtain ⟨⟨ds, r'⟩, hd, he⟩ := Option.map_eq_some_iff.1 h
          obtain ⟨rfl, rfl⟩ := Prod.mk.inj he
          obtain ⟨hne, hds, rfl⟩ := readDigits_spec hd
          have hsign : [s] = [] ∨ [s] = [0x2B] ∨ [s] = [0x2D] := by simpa using hs
          exact ⟨.digits hmark hsign hne hds, rfl⟩
        · obtain ⟨⟨ds, r'⟩, hd, he⟩ := Option.map_eq_some_iff.1 h
          obtain ⟨rfl, rfl⟩ := Prod.mk.inj he
          obtain ⟨hne, hds, hbs⟩ := readDigits_spec hd
          exact ⟨.digits hmark (.inl rfl) hne hds, congrArg (b :: ·) hbs⟩
    · obtain ⟨rfl, rfl⟩ := Prod.mk.inj (Option.some.inj h)
      exact ⟨.nothing, rfl⟩

/-- Whether a number may end where these bytes begin. -/
def endsNumber (bs : Bytes) : Bool :=
  !beginsWith (fun b ↦ isDigit b || b == 0x2E || b == 0x65 || b == 0x45) bs

theorem beginsWith_of_endsNumber {rest : Bytes} (h : endsNumber rest) :
    beginsWith isDigit rest = false ∧ beginsWith (· == 0x2E) rest = false ∧
      beginsWith (fun b ↦ b == 0x65 || b == 0x45) rest = false := by
  cases rest with
  | nil => exact ⟨rfl, rfl, rfl⟩
  | cons b rest => simpa [endsNumber, beginsWith, and_assoc] using h

theorem readExponent_append {e rest : Bytes} (h : Exponent e) (hr : endsNumber rest) :
    readExponent (e ++ rest) = some (e, rest) := by
  obtain ⟨hdigit, -, hmark⟩ := beginsWith_of_endsNumber hr
  cases h with
  | nothing =>
    cases rest with
    | nil => rfl
    | cons b rest =>
      have hb : (b == 0x65 || b == 0x45) = false := hmark
      rw [List.nil_append, readExponent.eq_def]
      simp only
      rw [if_neg (by simpa using hb)]
  | @digits mark sign ds hm hs hne h =>
    have hb : (mark = 0x65 || mark = 0x45) = true := by simpa using hm
    rw [List.cons_append, readExponent.eq_def]
    simp only [hb, if_true]
    rcases hs with rfl | rfl | rfl
    · obtain ⟨d, ds', rfl⟩ := List.exists_cons_of_ne_nil hne
      have hd : isDigit d := h d List.mem_cons_self
      have hsign : ¬(decide (d = 0x2B) || decide (d = 0x2D)) = true := by
        simp only [Bool.or_eq_true, decide_eq_true_eq]
        rintro (rfl | rfl) <;> exact absurd hd (by decide)
      rw [List.nil_append, List.cons_append]
      simp only
      rw [if_neg hsign, ← List.cons_append, readDigits_append hne h hdigit]
      rfl
    · rw [List.cons_append, List.nil_append, List.cons_append]
      simp [readDigits_append hne h hdigit]
    · rw [List.cons_append, List.nil_append, List.cons_append]
      simp [readDigits_append hne h hdigit]

theorem readUnsigned_spec {bs u r : Bytes} (h : readUnsigned bs = some (u, r)) :
    ∃ w f e, Whole w ∧ Fraction f ∧ Exponent e ∧ u = w ++ f ++ e ∧ bs = u ++ r := by
  simp only [readUnsigned, Option.bind_eq_bind, Option.pure_def, Option.bind_eq_some_iff] at h
  obtain ⟨⟨w, r₁⟩, hreadw, ⟨f, r₂⟩, hreadf, ⟨e, r₃⟩, hreade, hu⟩ := h
  obtain ⟨rfl, rfl⟩ := Prod.mk.inj (Option.some.inj hu)
  obtain ⟨hw, rfl⟩ := readWhole_spec hreadw
  obtain ⟨hf, rfl⟩ := readFraction_spec hreadf
  obtain ⟨he, rfl⟩ := readExponent_spec hreade
  exact ⟨w, f, e, hw, hf, he, rfl, by simp⟩

theorem readUnsigned_append {w f e rest : Bytes} (hw : Whole w) (hf : Fraction f) (he : Exponent e)
    (hr : endsNumber rest) : readUnsigned (w ++ f ++ e ++ rest) = some (w ++ f ++ e, rest) := by
  obtain ⟨hdigit, hdot, -⟩ := beginsWith_of_endsNumber hr
  have hexponent : beginsWith isDigit (e ++ rest) = false ∧
      beginsWith (· == 0x2E) (e ++ rest) = false := by
    cases he with
    | nothing => exact ⟨hdigit, hdot⟩
    | digits hm => rcases hm with rfl | rfl <;> exact ⟨rfl, rfl⟩
  have hfraction : beginsWith isDigit (f ++ (e ++ rest)) = false := by
    cases hf with
    | nothing => exact hexponent.1
    | digits => rfl
  simp [readUnsigned, readWhole_append hw hfraction, readFraction_append hf hexponent.1 hexponent.2,
    readExponent_append he hr]

theorem isNumber_of_readNumber {bs l r : Bytes} (h : readNumber bs = some (l, r)) :
    IsNumber l ∧ bs = l ++ r := by
  cases bs with
  | nil => cases h
  | cons b bs =>
    rw [readNumber] at h
    split at h
    · rename_i hb
      obtain ⟨⟨u, r'⟩, hu, heq⟩ := Option.map_eq_some_iff.1 h
      obtain ⟨rfl, rfl⟩ := Prod.mk.inj heq
      obtain ⟨w, f, e, hw, hf, he, rfl, rfl⟩ := readUnsigned_spec hu
      subst hb
      exact ⟨.mk (.inr rfl) hw hf he, rfl⟩
    · obtain ⟨w, f, e, hw, hf, he, rfl, hbs⟩ := readUnsigned_spec h
      exact ⟨.mk (.inl rfl) hw hf he, hbs⟩

theorem whole_cons {w : Bytes} (h : Whole w) : ∃ d ds, w = d :: ds ∧ isDigit d := by
  cases h with
  | zero => exact ⟨_, _, rfl, by decide⟩
  | digits hd => exact ⟨_, _, rfl, hd⟩

theorem readNumber_of_isNumber {l rest : Bytes} (h : IsNumber l) (hr : endsNumber rest) :
    readNumber (l ++ rest) = some (l, rest) := by
  obtain ⟨hs, hw, hf, he⟩ := h
  have hunsigned := readUnsigned_append hw hf he hr
  rcases hs with rfl | rfl
  · obtain ⟨d, ds, rfl, hd⟩ := whole_cons hw
    have hminus : d ≠ 0x2D := by
      rintro rfl
      exact absurd hd (by decide)
    simp only [List.cons_append, List.nil_append] at hunsigned ⊢
    rw [readNumber, if_neg hminus, hunsigned]
  · rw [List.cons_append, List.nil_append, List.cons_append, readNumber, if_pos rfl, hunsigned]
    rfl

def startsNumber (b : UInt8) : Bool := b == 0x2D || isDigit b

theorem IsNumber.cons {l : Bytes} (h : IsNumber l) : ∃ b bs, l = b :: bs ∧ startsNumber b := by
  obtain ⟨hs, hw, hf, he⟩ := h
  rcases hs with rfl | rfl
  · obtain ⟨d, ds, rfl, hd⟩ := whole_cons hw
    exact ⟨d, _, rfl, by simp [startsNumber, hd]⟩
  · exact ⟨0x2D, _, rfl, rfl⟩

end Json

end TableLog
