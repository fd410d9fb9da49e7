import Mathlib
import TableLog.CommitName
import TableLog.Proofs.Text

namespace TableLog

theorem natOfDigits_inj {ds es : Bytes} (hd : ∀ b ∈ ds, isDigit b) (he : ∀ b ∈ es, isDigit b)
    (hl : ds.length = es.length) (h : natOfDigits ds = natOfDigits es) : ds = es := by
  induction hn : ds.length generalizing ds es with
  | zero => rw [List.length_eq_zero_iff.1 hn, List.length_eq_zero_iff.1 (hl.symm.trans hn)]
  | succ n ih =>
    obtain ⟨ds, d, rfl⟩ : ∃ xs x, ds = xs ++ [x] :=
      ⟨_, _, (List.dropLast_concat_getLast (by rintro rfl; cases hn)).symm⟩
    obtain ⟨es, e, rfl⟩ : ∃ xs x, es = xs ++ [x] :=
      ⟨_, _, (List.dropLast_concat_getLast (by rintro rfl; simp at hl)).symm⟩
    have hd' := hd d (by simp)
    have he' := he e (by simp)
    simp only [isDigit, Bool.and_eq_true, decide_eq_true_eq, UInt8.le_iff_toNat_le] at hd' he'
    have hd0 : 0x30 ≤ d.toNat := hd'.1
    have hd9 : d.toNat ≤ 0x39 := hd'.2
    have he0 : 0x30 ≤ e.toNat := he'.1
    have he9 : e.toNat ≤ 0x39 := he'.2
    rw [natOfDigits_append, natOfDigits_append] at h
    have hlast : d = e := UInt8.toNat_inj.1 (by omega)
    have hfront : ds = es :=
      ih (fun b hb ↦ hd b (by simp [hb])) (fun b hb ↦ he b (by simp [hb]))
        (by simpa using hl) (by omega)
        (by simpa using hn)
    rw [hlast, hfront]

theorem natOfDigits_zeros (n : Nat) (ds : Bytes) :
    natOfDigits (List.replicate n 0x30 ++ ds) = natOfDigits ds := by
  induction n with
  | zero => rfl
  | succ n ih =>
    rw [← ih]
    rfl

theorem decimal_length_le {n k : Nat} (hk : k ≠ 0) (h : n < 10 ^ k) : (decimal n).length ≤ k := by
  induction k generalizing n with
  | zero => exact absurd rfl hk
  | succ k ih =>
    unfold decimal
    split
    · simp
    · rename_i hn
      have hk0 : k ≠ 0 := by
        intro he
        subst he
        omega
      have hd := ih hk0 (n := n / 10) (by rw [Nat.pow_succ] at h; omega)
      simpa using hd

namespace LogEntry

variable (v : Version)

theorem decimal_version_length : (decimal v.toNat).length ≤ digits :=
  decimal_length_le (by decide) (Nat.lt_trans v.toNat_lt (by decide))

theorem stem_length : (stem v).length = digits := by
  have h := decimal_version_length v
  simp only [stem, List.length_append, List.length_replicate]
  omega

theorem stem_isDigit : ∀ b ∈ stem v, isDigit b := by
  refine List.forall_mem_append.2 ⟨fun b hb ↦ ?_, decimal_isDigit _⟩
  rw [(List.mem_replicate.1 hb).2]
  decide

theorem natOfDigits_stem : natOfDigits (stem v) = v.toNat := by
  rw [stem, natOfDigits_zeros, natOfDigits_decimal]

theorem isDot_false_of_isDigit {b : UInt8} (h : isDigit b) : isDot b = false := by
  rw [isDot, beq_eq_false_iff_ne]
  intro he
  subst he
  exact absurd h (by decide)

theorem takeWhile_stem {s : Bytes} (h : ∀ b ∈ s, isDigit b) :
    (s ++ suffix).takeWhile (!isDot ·) = s := by
  rw [List.takeWhile_append_of_pos fun b hb ↦ by rw [isDot_false_of_isDigit (h b hb)]; rfl]
  exact List.append_nil s

theorem ofName_name : ofName (name v) = .commit v := by
  have hall : (stem v).all isDigit = true := List.all_eq_true.2 (stem_isDigit v)
  have hdrop : (stem v ++ suffix).drop (stem v).length = suffix := List.drop_left
  simp only [ofName, name, takeWhile_stem (stem_isDigit v), hdrop, hall, natOfDigits_stem]
  rw [if_pos (by simp), if_pos ⟨stem_length v, v.toNat_lt⟩, UInt64.ofNat_toNat]

theorem ofName_eq_commit_iff {n : Bytes} : ofName n = .commit v ↔ n = name v := by
  refine ⟨fun h ↦ ?_, fun h ↦ h ▸ ofName_name v⟩
  simp only [ofName] at h
  split at h
  · rename_i hs
    split at h
    · rename_i hl
      obtain ⟨hsuffix, hdigits⟩ := Bool.and_eq_true_iff.1 hs
      have hv : natOfDigits (n.takeWhile (!isDot ·)) = v.toNat := by
        rw [← LogEntry.commit.inj h, UInt64.toNat_ofNat_of_lt' hl.2]
      have hstem : n.takeWhile (!isDot ·) = stem v :=
        natOfDigits_inj (List.all_eq_true.1 hdigits) (stem_isDigit v)
          (hl.1.trans (stem_length v).symm)
          (hv.trans (natOfDigits_stem v).symm)
      have hcut : n = n.takeWhile (!isDot ·) ++ n.drop (n.takeWhile (!isDot ·)).length :=
        (List.prefix_iff_eq_append.1 (List.takeWhile_prefix _)).symm
      rw [hcut, of_decide_eq_true hsuffix, hstem]
      rfl
    · cases h
  · cases h

theorem ofName_eq_malformed_iff {n : Bytes} :
    ofName n = .malformed ↔
    (∃ ds : Bytes, (∀ b ∈ ds, isDigit b) ∧ n = ds ++ suffix) ∧ ∀ v, n ≠ name v := by
  constructor
  · intro h
    refine ⟨?_, fun v hv ↦ ?_⟩
    · simp only [ofName] at h
      split at h
      · rename_i hs
        obtain ⟨hsuffix, hdigits⟩ := Bool.and_eq_true_iff.1 hs
        refine ⟨n.takeWhile (!isDot ·), List.all_eq_true.1 hdigits, ?_⟩
        rw [← of_decide_eq_true hsuffix]
        exact (List.prefix_iff_eq_append.1 (List.takeWhile_prefix _)).symm
      · cases h
    · rw [hv, ofName_name] at h
      cases h
  · rintro ⟨⟨ds, hds, rfl⟩, hnot⟩
    cases hentry : ofName (ds ++ suffix) with
    | malformed => rfl
    | commit v => exact absurd ((ofName_eq_commit_iff v).1 hentry) (hnot v)
    | other =>
      have hall : ds.all isDigit = true := List.all_eq_true.2 hds
      have hdrop : (ds ++ suffix).drop ds.length = suffix := List.drop_left
      simp only [ofName, takeWhile_stem hds, hdrop, hall] at hentry
      rw [if_pos (by simp)] at hentry
      split at hentry <;> cases hentry

theorem name_inj {v w : Version} : name v = name w ↔ v = w :=
  ⟨fun h ↦ LogEntry.commit.inj ((ofName_name v).symm.trans (h ▸ ofName_name w)), fun h ↦ h ▸ rfl⟩

theorem name_ascii : ∀ b ∈ name v, b < 0x80 :=
  List.forall_mem_append.2 ⟨fun b hb ↦ ascii_of_isDigit (stem_isDigit v b hb), by decide +kernel⟩

theorem name_plain : ∀ b ∈ name v, b ≠ 0 ∧ b ≠ 0x2F ∧ b ≠ 0x25 := by
  refine List.forall_mem_append.2 ⟨fun b hb ↦ ?_, by decide +kernel⟩
  have hd := stem_isDigit v b hb
  refine ⟨?_, ?_, ?_⟩ <;>
  · intro he
    subst he
    exact absurd hd (by decide)

theorem name_length : (name v).length = 25 := by
  rw [name, List.length_append, stem_length]
  rfl

theorem nameText_eq : nameText v = asciiText (name v) := by
  rw [nameText, ofUtf8?_ascii (name_ascii v)]
  rfl

end LogEntry

namespace Percent

theorem decodeAfter_cons {c : Char} (hc : c ≠ '%') (cs : List Char) :
    decodeAfter 0 (c :: cs) = String.utf8EncodeChar c ++ decodeAfter 0 cs := by
  rw [decodeAfter.eq_def]
  split
  · contradiction
  · contradiction
  · rename_i he
    obtain ⟨rfl, rfl⟩ := List.cons.inj he
    split
    · exact absurd rfl hc
    · rfl

theorem decode_asciiText {bs : Bytes} (ha : ∀ b ∈ bs, b < 0x80) (hp : ∀ b ∈ bs, b ≠ 0x25) :
    decode (asciiText bs).toList = bs := by
  rw [asciiText, String.toList_ofList, decode]
  induction bs with
  | nil => rfl
  | cons b bs ih =>
    obtain ⟨hb, hbs⟩ := List.forall_mem_cons.1 ha
    obtain ⟨hbp, hbsp⟩ := List.forall_mem_cons.1 hp
    have hc : Char.ofNat b.toNat ≠ '%' := by
      intro hc
      have hu := utf8EncodeChar_ofByte hb
      rw [hc] at hu
      exact hbp (List.cons.inj hu).1.symm
    rw [List.map_cons, decodeAfter_cons hc, utf8EncodeChar_ofByte hb, ih hbs hbsp]
    rfl

end Percent

namespace FilePath

theorem ofBytes_of_no_slash {bs : Bytes} (h : ∀ b ∈ bs, b ≠ 0x2F) : ofBytes bs = [bs] := by
  induction bs with
  | nil => rfl
  | cons b bs ih =>
    obtain ⟨hb, hbs⟩ := List.forall_mem_cons.1 h
    rw [ofBytes, if_neg hb, ih hbs]

theorem ofBytes_nameText (v : Version) :
    ofBytes (Percent.decode (LogEntry.nameText v).toList) = [LogEntry.name v] := by
  have hp := LogEntry.name_plain v
  rw [LogEntry.nameText_eq,
    Percent.decode_asciiText (LogEntry.name_ascii v) fun b hb ↦ (hp b hb).2.2,
    ofBytes_of_no_slash fun b hb ↦ (hp b hb).2.1]

end FilePath

end TableLog
