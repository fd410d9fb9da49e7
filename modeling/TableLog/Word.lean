namespace TableLog

abbrev Version := UInt64

def word? (n : Int) : Option Int64 :=
  if -0x8000000000000000 ≤ n ∧ n < 0x8000000000000000 then some (Int64.ofInt n) else none

theorem word?_eq_some_iff {n : Int} {w : Int64} : word? n = some w ↔ w.toInt = n := by
  unfold word?
  split
  · rename_i h
    rw [Option.some.injEq]
    exact ⟨fun hw ↦ hw ▸ Int64.toInt_ofInt_of_le h.1 h.2, fun hw ↦ hw ▸ Int64.ofInt_toInt w⟩
  · rename_i h
    refine ⟨nofun, fun hw ↦ absurd ?_ h⟩
    rw [← hw]
    exact ⟨Int64.le_toInt w, Int64.toInt_lt w⟩

theorem word?_eq_none_iff {n : Int} :
    word? n = none ↔ ¬(-0x8000000000000000 ≤ n ∧ n < 0x8000000000000000) := by
  unfold word?
  split <;> simp_all

@[simp] theorem word?_toInt (w : Int64) : word? w.toInt = some w := word?_eq_some_iff.2 rfl

def add? (a b : Int64) : Option Int64 := word? (a.toInt + b.toInt)

theorem add?_eq_some_iff {a b c : Int64} : add? a b = some c ↔ c.toInt = a.toInt + b.toInt :=
  word?_eq_some_iff

theorem add?_eq_none_iff {a b : Int64} (hb : 0 ≤ b.toInt) :
    add? a b = none ↔ Int64.maxValue.toInt < a.toInt + b.toInt := by
  have ha := a.le_toInt
  have hmax : Int64.maxValue.toInt = 0x7FFFFFFFFFFFFFFF := by decide
  rw [add?, word?_eq_none_iff, hmax]
  omega

theorem ne_maxValue_iff {a : Int64} : a ≠ Int64.maxValue ↔ a.toInt + 1 < 0x8000000000000000 := by
  have hmax : Int64.maxValue.toInt = 0x7FFFFFFFFFFFFFFF := by decide
  have hlt := a.toInt_lt
  rw [Ne, ← Int64.toInt_inj, hmax]
  omega

def int32? (n : Int) : Option Int32 :=
  if -0x80000000 ≤ n ∧ n < 0x80000000 then some (Int32.ofInt n) else none

@[simp] theorem int32?_toInt (w : Int32) : int32? w.toInt = some w := by
  rw [int32?, if_pos ⟨Int32.le_toInt w, Int32.toInt_lt w⟩, Int32.ofInt_toInt]

/-- The version as a signed word, as files name the commit that added them. -/
def Version.word? (v : Version) : Option Int64 :=
  if v.toNat < 0x8000000000000000 then some (Int64.ofNat v.toNat) else none

theorem Version.toInt_of_word? {v : Version} {w : Int64} (h : v.word? = some w) :
    w.toInt = v.toNat := by
  rw [Version.word?] at h
  split at h
  · rename_i hv
    rw [← Option.some.inj h, Int64.toInt_ofNat_of_lt hv]
  · cases h

def Version.next? (v : Version) : Option Version :=
  if v.toNat + 1 < 0x10000000000000000 then some (v + 1) else none

theorem Version.next?_eq_some_iff {v w : Version} :
    Version.next? v = some w ↔ w.toNat = v.toNat + 1 := by
  unfold Version.next?
  have hw := w.toNat_lt
  split
  · rename_i h
    rw [Option.some.injEq, ← UInt64.toNat_inj, UInt64.toNat_add, UInt64.toNat_one,
      Nat.mod_eq_of_lt h]
    exact eq_comm
  · rename_i h
    exact ⟨nofun, fun hv ↦ absurd (hv ▸ hw) h⟩

end TableLog
