import TableLog.Json.Printer

namespace TableLog

theorem forall_byte {p : UInt8 → Prop} (h : ∀ n < 256, p (UInt8.ofNat n)) (b : UInt8) : p b := by
  rw [← UInt8.ofNat_toNat (x := b)]
  exact h b.toNat b.toNat_lt

def asciiText (bs : Bytes) : String := String.ofList (bs.map fun b ↦ Char.ofNat b.toNat)

theorem utf8_ofList (cs : List Char) :
    utf8 (String.ofList cs) = cs.flatMap String.utf8EncodeChar := by
  rw [utf8, String.toByteArray_ofList, List.utf8Encode, List.data_toByteArray]

theorem utf8EncodeChar_ascii :
    ∀ n < 128, String.utf8EncodeChar (Char.ofNat n) = [UInt8.ofNat n] := by decide

theorem utf8EncodeChar_ofByte {b : UInt8} (h : b < 0x80) :
    String.utf8EncodeChar (Char.ofNat b.toNat) = [b] := by
  rw [utf8EncodeChar_ascii b.toNat (UInt8.lt_iff_toNat_lt.1 h), UInt8.ofNat_toNat]

theorem utf8_asciiText {bs : Bytes} (h : ∀ b ∈ bs, b < 0x80) : utf8 (asciiText bs) = bs := by
  rw [asciiText, utf8_ofList, List.flatMap_map]
  induction bs with
  | nil => rfl
  | cons b bs ih =>
    obtain ⟨hb, hbs⟩ := List.forall_mem_cons.1 h
    rw [List.flatMap_cons, utf8EncodeChar_ofByte hb, ih hbs]
    rfl

theorem ofUtf8?_ascii {bs : Bytes} (h : ∀ b ∈ bs, b < 0x80) : ofUtf8? bs = some (asciiText bs) := by
  rw [← ofUtf8?_utf8, utf8_asciiText h]

theorem ascii_of_isDigit {b : UInt8} (h : isDigit b) : b < 0x80 := by
  simp only [isDigit, Bool.and_eq_true, decide_eq_true_eq] at h
  exact UInt8.lt_of_le_of_lt h.2 (by decide)

theorem numeral_ascii (n : Int) : ∀ b ∈ numeral n, b < 0x80 := by
  have hd : ∀ b ∈ decimal n.natAbs, b < 0x80 := fun b hb ↦ ascii_of_isDigit (decimal_isDigit _ b hb)
  unfold numeral
  split
  · exact List.forall_mem_cons.2 ⟨by decide, hd⟩
  · exact hd

end TableLog
