import TableLog.Json.Tree

namespace TableLog

def isDigit (b : UInt8) : Bool := 0x30 ≤ b && b ≤ 0x39

def digitByte (d : Nat) : UInt8 := 0x30 + UInt8.ofNat d

def natOfDigits (ds : Bytes) : Nat := ds.foldl (fun n d ↦ 10 * n + (d.toNat - 0x30)) 0

def decimal (n : Nat) : Bytes :=
  if n < 10 then [digitByte n] else decimal (n / 10) ++ [digitByte (n % 10)]

def numeral (n : Int) : Bytes := if n < 0 then 0x2D :: decimal n.natAbs else decimal n.natAbs

/-- Minus zero, a fraction or an exponent makes a literal that is no integer. -/
def integer? (literal : Bytes) : Option Int :=
  match literal with
  | [] => none
  | b :: ds =>
    if b = 0x2D then
      if ds.all isDigit && natOfDigits ds ≠ 0 then some (-natOfDigits ds) else none
    else if literal.all isDigit then some (natOfDigits literal)
    else none

theorem digitByte_spec :
    ∀ d < 10, isDigit (digitByte d) ∧ (digitByte d).toNat - 0x30 = d ∧ digitByte d ≠ 0x2D := by
  decide

theorem natOfDigits_append (ds : Bytes) (d : UInt8) :
    natOfDigits (ds ++ [d]) = 10 * natOfDigits ds + (d.toNat - 0x30) := by
  simp [natOfDigits]

theorem natOfDigits_decimal (n : Nat) : natOfDigits (decimal n) = n := by
  fun_induction decimal n with
  | case1 n h => simpa [natOfDigits] using (digitByte_spec n h).2.1
  | case2 n h ih =>
    rw [natOfDigits_append, ih, (digitByte_spec (n % 10) (Nat.mod_lt _ (by decide))).2.1]
    omega

theorem decimal_isDigit (n : Nat) : ∀ b ∈ decimal n, isDigit b := by
  fun_induction decimal n with
  | case1 n h => simpa using (digitByte_spec n h).1
  | case2 n h ih =>
    intro b hb
    rcases List.mem_append.1 hb with hb | hb
    · exact ih b hb
    · rw [List.mem_singleton.1 hb]
      exact (digitByte_spec (n % 10) (Nat.mod_lt _ (by decide))).1

theorem decimal_ne_nil (n : Nat) : decimal n ≠ [] := by
  unfold decimal
  split <;> simp

theorem minus_not_mem_decimal (n : Nat) : 0x2D ∉ decimal n :=
  fun h ↦ absurd (decimal_isDigit n _ h) (by decide)

@[simp] theorem integer?_numeral (n : Int) : integer? (numeral n) = some n := by
  have hall : (decimal n.natAbs).all isDigit = true := List.all_eq_true.2 (decimal_isDigit _)
  unfold numeral
  split
  · rename_i h
    have hn : (n.natAbs ≠ 0) := by omega
    rw [integer?, if_pos rfl, hall, natOfDigits_decimal, if_pos (by simpa using hn)]
    congr 1
    omega
  · rename_i h
    cases hd : decimal n.natAbs with
    | nil => exact absurd hd (decimal_ne_nil _)
    | cons b ds =>
      have hb : b ≠ 0x2D := fun hb ↦
        minus_not_mem_decimal n.natAbs (by rw [hd, hb]; exact List.mem_cons_self)
      rw [integer?, if_neg hb, if_pos (hd ▸ hall), ← hd, natOfDigits_decimal]
      congr 1
      omega

end TableLog
