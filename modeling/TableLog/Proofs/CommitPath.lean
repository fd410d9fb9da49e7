import TableLog.Log
import TableLog.Proofs.CommitName

namespace TableLog

theorem natOfDigits_cons (d : UInt8) (ds : Bytes) :
    natOfDigits (d :: ds) = (d.toNat - 0x30) * 10 ^ ds.length + natOfDigits ds := by
  induction ds using List.reverseRecOn with
  | nil => simp [natOfDigits]
  | append_singleton ds e ih =>
    rw [← List.cons_append, natOfDigits_append, natOfDigits_append, ih, List.length_append,
      List.length_singleton, Nat.pow_succ]
    ring

theorem natOfDigits_lt {ds : Bytes} (h : ∀ b ∈ ds, isDigit b) :
    natOfDigits ds < 10 ^ ds.length := by
  induction ds with
  | nil => decide
  | cons d ds ih =>
    obtain ⟨hd, hds⟩ := List.forall_mem_cons.1 h
    simp only [isDigit, Bool.and_eq_true, decide_eq_true_eq, UInt8.le_iff_toNat_le] at hd
    have hd9 : d.toNat ≤ 0x39 := hd.2
    have hrest := ih hds
    have hfirst : (d.toNat - 0x30) * 10 ^ ds.length ≤ 9 * 10 ^ ds.length :=
      Nat.mul_le_mul_right _ (by omega)
    rw [natOfDigits_cons, List.length_cons, Nat.pow_succ]
    omega

theorem digits_append_lt_iff {ds es : Bytes} (hd : ∀ b ∈ ds, isDigit b) (he : ∀ b ∈ es, isDigit b)
    (hl : ds.length = es.length) (s : Bytes) :
    ds ++ s < es ++ s ↔ natOfDigits ds < natOfDigits es := by
  induction ds generalizing es with
  | nil =>
    rw [List.length_eq_zero_iff.1 hl.symm]
    simp
  | cons d ds ih =>
    obtain ⟨e, es, rfl⟩ : ∃ e r, es = e :: r := List.exists_cons_of_length_eq_add_one hl.symm
    obtain ⟨hd, hds⟩ := List.forall_mem_cons.1 hd
    obtain ⟨he, hes⟩ := List.forall_mem_cons.1 he
    have hlength : ds.length = es.length := Nat.succ.inj hl
    have hx := natOfDigits_lt hds
    have hy := natOfDigits_lt hes
    simp only [isDigit, Bool.and_eq_true, decide_eq_true_eq, UInt8.le_iff_toNat_le] at hd he
    have hd0 : 0x30 ≤ d.toNat := hd.1
    have he0 : 0x30 ≤ e.toNat := he.1
    rw [List.cons_append, List.cons_append, List.cons_lt_cons_iff, ih hds hes hlength,
      natOfDigits_cons, natOfDigits_cons, hlength, UInt8.lt_iff_toNat_lt, ← UInt8.toNat_inj]
    rw [hlength] at hx
    rcases Nat.lt_trichotomy d.toNat e.toNat with hlt | heq | hgt
    · have hle : (d.toNat - 0x30 + 1) * 10 ^ es.length ≤ (e.toNat - 0x30) * 10 ^ es.length :=
        Nat.mul_le_mul_right _ (by omega)
      rw [Nat.add_mul, Nat.one_mul] at hle
      omega
    · rw [heq]
      omega
    · have hle : (e.toNat - 0x30 + 1) * 10 ^ es.length ≤ (d.toNat - 0x30) * 10 ^ es.length :=
        Nat.mul_le_mul_right _ (by omega)
      rw [Nat.add_mul, Nat.one_mul] at hle
      omega

theorem utf8_inj {s t : String} : utf8 s = utf8 t ↔ s = t := by
  refine ⟨fun h ↦ ?_, fun h ↦ h ▸ rfl⟩
  rw [← Option.some.injEq, ← ofUtf8?_utf8, ← ofUtf8?_utf8, h]

namespace LogEntry

def Numbered (n : Bytes) : Prop := ∃ ds : Bytes, (∀ b ∈ ds, isDigit b) ∧ n = ds ++ suffix

/-- Digits before the suffix that are not as many as they have to be, or
whose value is not that of a version. -/
def Misnumbered (n : Bytes) : Prop :=
  ∃ ds : Bytes, (∀ b ∈ ds, isDigit b) ∧ n = ds ++ suffix ∧
    (ds.length ≠ digits ∨ 2 ^ 64 ≤ natOfDigits ds)

variable {v w : Version} {n : Bytes}

theorem utf8_nameText (v : Version) : utf8 (nameText v) = name v := by
  rw [nameText_eq, utf8_asciiText (name_ascii v)]

theorem eq_nameText_iff {s : String} :
    s = nameText v ↔ utf8 s = name v := by rw [← utf8_nameText, utf8_inj]

theorem nameText_ne_empty (v : Version) : nameText v ≠ "" := by
  intro h
  have hlength := name_length v
  rw [← utf8_nameText, h] at hlength
  exact absurd hlength (by decide)

theorem numbered_name (v : Version) : Numbered (name v) := ⟨stem v, stem_isDigit v, rfl⟩

theorem eq_name_iff :
    n = name v ↔
      ∃ ds : Bytes, ds.length = digits ∧ (∀ b ∈ ds, isDigit b) ∧ natOfDigits ds = v.toNat ∧
        n = ds ++ suffix := by
  constructor
  · intro h
    exact ⟨stem v, stem_length v, stem_isDigit v, natOfDigits_stem v, h⟩
  · rintro ⟨ds, hlength, hdigits, hvalue, rfl⟩
    have hstem : ds = stem v :=
      natOfDigits_inj hdigits (stem_isDigit v) (hlength.trans (stem_length v).symm)
        (hvalue.trans (natOfDigits_stem v).symm)
    rw [hstem, name]

theorem ofName_eq_malformed_iff_misnumbered : ofName n = .malformed ↔ Misnumbered n := by
  rw [ofName_eq_malformed_iff]
  constructor
  · rintro ⟨⟨ds, hdigits, rfl⟩, hnot⟩
    refine ⟨ds, hdigits, rfl, ?_⟩
    by_contra hfits
    obtain ⟨hlength, hvalue⟩ := not_or.1 hfits
    exact hnot (UInt64.ofNat (natOfDigits ds)) (eq_name_iff.2
      ⟨ds, not_not.1 hlength, hdigits, (UInt64.toNat_ofNat_of_lt' (not_le.1 hvalue)).symm, rfl⟩)
  · rintro ⟨ds, hdigits, rfl, hwrong⟩
    refine ⟨⟨ds, hdigits, rfl⟩, fun v hv ↦ ?_⟩
    obtain ⟨es, hlength, -, hvalue, hes⟩ := eq_name_iff.1 hv
    obtain rfl := List.append_cancel_right hes
    rcases hwrong with hwrong | hwrong
    · exact hwrong hlength
    · exact absurd (hvalue ▸ v.toNat_lt) (not_lt.2 hwrong)

theorem ofName_eq_other_iff : ofName n = .other ↔ ¬Numbered n := by
  constructor
  · rintro h hnumbered
    by_cases hname : ∃ v, n = name v
    · obtain ⟨v, rfl⟩ := hname
      cases (ofName_name v).symm.trans h
    · cases (ofName_eq_malformed_iff.2 ⟨hnumbered, not_exists.1 hname⟩).symm.trans h
  · intro h
    cases hentry : ofName n with
    | other => rfl
    | commit v => exact absurd ((ofName_eq_commit_iff v).1 hentry ▸ numbered_name v) h
    | malformed => exact absurd (ofName_eq_malformed_iff.1 hentry).1 h

theorem name_lt_name_iff : name v < name w ↔ v < w := by
  rw [name, name, digits_append_lt_iff (stem_isDigit v) (stem_isDigit w)
    ((stem_length v).trans (stem_length w).symm), natOfDigits_stem, natOfDigits_stem,
    UInt64.lt_iff_toNat_lt]

end LogEntry

namespace Percent

/-- A byte of a name that is the same in a location. -/
def stays (b : UInt8) : Bool := isPlain b && !segment.toList.contains (Char.ofNat b.toNat)

/-- A name as it is in a location. -/
def written (n : Bytes) : Bytes := utf8 (String.ofList (encodeBytes segment n))

theorem stays_of_isDigit : ∀ b, isDigit b → stays b := forall_byte (by decide +kernel)

variable {n bs : Bytes}

theorem written_cons (b : UInt8) (n : Bytes) :
    written (b :: n) = utf8
      (String.ofList (if stays b then [Char.ofNat b.toNat] else encodeByte b)) ++ written n := by
  rw [written, encodeBytes, List.flatMap_cons, utf8_ofList, List.flatMap_append, ← utf8_ofList,
    ← utf8_ofList]
  rfl

theorem written_cons_of_stays {b : UInt8} (h : stays b) (n : Bytes) :
    written (b :: n) = b :: written n := by
  have hplain : isPlain b = true := (Bool.and_eq_true_iff.1 h).1
  simp only [isPlain, Bool.and_eq_true, decide_eq_true_eq] at hplain
  have hb : b < 0x80 := UInt8.lt_of_le_of_lt hplain.2 (by decide)
  rw [written_cons, if_pos h, utf8_ofList, List.flatMap_singleton, utf8EncodeChar_ofByte hb]
  rfl

theorem percent_mem_written {b : UInt8} (h : ¬stays b) (n : Bytes) : 0x25 ∈ written (b :: n) := by
  rw [written_cons, if_neg h, utf8_ofList, encodeByte]
  exact List.mem_cons_self

theorem written_of_stays (h : ∀ b ∈ n, stays b) : written n = n := by
  induction n with
  | nil => rfl
  | cons b n ih =>
    obtain ⟨hb, hn⟩ := List.forall_mem_cons.1 h
    rw [written_cons_of_stays hb, ih hn]

theorem stays_of_percent_not_mem (h : 0x25 ∉ written n) : ∀ b ∈ n, stays b := by
  induction n with
  | nil => exact List.forall_mem_nil _
  | cons b n ih =>
    by_cases hb : stays b
    · rw [written_cons_of_stays hb] at h
      exact List.forall_mem_cons.2 ⟨hb, ih (List.not_mem_of_not_mem_cons h)⟩
    · exact absurd (percent_mem_written hb n) h

theorem written_eq_iff (h : ∀ b ∈ bs, stays b) : written n = bs ↔ n = bs := by
  constructor
  · intro he
    have hpercent : 0x25 ∉ written n := by
      rw [he]
      intro hmem
      exact absurd (h _ hmem) (by decide +kernel)
    rw [← written_of_stays (stays_of_percent_not_mem hpercent), he]
  · rintro rfl
    exact written_of_stays h

end Percent

namespace LogEntry

theorem stays_append_suffix {ds : Bytes} (h : ∀ b ∈ ds, isDigit b) :
    ∀ b ∈ ds ++ suffix, Percent.stays b :=
  List.forall_mem_append.2 ⟨fun b hb ↦ Percent.stays_of_isDigit b (h b hb), by decide +kernel⟩

theorem written_eq_name_iff {v : Version} {n : Bytes} : Percent.written n = name v ↔ n = name v :=
  Percent.written_eq_iff (stays_append_suffix (stem_isDigit v))

theorem numbered_written_iff {n : Bytes} : Numbered (Percent.written n) ↔ Numbered n :=
  exists_congr fun _ ↦ and_congr_right fun h ↦ Percent.written_eq_iff (stays_append_suffix h)

/-- A name means the same on disk and in a location. -/
theorem ofName_written (n : Bytes) : ofName (Percent.written n) = ofName n := by
  cases h : ofName n with
  | commit v => rwa [ofName_eq_commit_iff, written_eq_name_iff, ← ofName_eq_commit_iff]
  | malformed =>
    rw [ofName_eq_malformed_iff] at h ⊢
    exact ⟨numbered_written_iff.2 h.1, fun v ↦ mt written_eq_name_iff.1 (h.2 v)⟩
  | other => rwa [ofName_eq_other_iff, numbered_written_iff, ← ofName_eq_other_iff]

end LogEntry

namespace Log

variable {l log root : Location} {v : Version} {s : String}

theorem version?_of_fileName (h : l.fileName? = some s) :
    version? l =
      match LogEntry.ofName (utf8 s) with
      | .malformed => .error (.invalidLogPath l.toText)
      | .other => .ok none
      | .commit v => .ok (some v) := by
  rw [version?, h, Option.map_some]
  cases LogEntry.ofName (utf8 s) <;> rfl

theorem version?_eq_some_iff :
    version? l = .ok (some v) ↔ l.fileName? = some (LogEntry.nameText v) := by
  cases h : l.fileName? with
  | none => simp [version?, h]
  | some s =>
    rw [version?_of_fileName h, Option.some.injEq, LogEntry.eq_nameText_iff,
      ← LogEntry.ofName_eq_commit_iff]
    cases LogEntry.ofName (utf8 s) <;> simp

theorem version?_eq_none_iff (h : l.fileName? = some s) :
    version? l = .ok none ↔ ¬LogEntry.Numbered (utf8 s) := by
  rw [version?_of_fileName h, ← LogEntry.ofName_eq_other_iff]
  cases LogEntry.ofName (utf8 s) <;> simp

theorem version?_eq_error_iff (h : l.fileName? = some s) :
    version? l = .error (.invalidLogPath l.toText) ↔ LogEntry.Misnumbered (utf8 s) := by
  rw [version?_of_fileName h, ← LogEntry.ofName_eq_malformed_iff_misnumbered]
  cases LogEntry.ofName (utf8 s) <;> simp

theorem fileName?_inDirectory (h : log.inDirectory? [LogEntry.nameText v] = some l) :
    l.fileName? = some (LogEntry.nameText v) := by
  rw [Location.inDirectory?] at h
  split at h
  · cases h
  · obtain rfl := Option.some.inj h
    simp [Location.fileName?, LogEntry.nameText_ne_empty]

theorem commitLocation_eq (log : Location) (v : Version) :
    commitLocation log v =
      match log.inDirectory? [LogEntry.nameText v] with
      | none => .error .invalidUrl
      | some l => .ok l := by
  rw [commitLocation]
  cases h : log.inDirectory? [LogEntry.nameText v] with
  | none => rfl
  | some l =>
    simp only [version?_eq_some_iff.2 (fileName?_inDirectory h)]
    rfl

theorem exists_inDirectory (h : directory root = .ok log) (names : List String) :
    ∃ l, log.inDirectory? names = some l := by
  cases hroot : root.path with
  | opaquePath text => simp [directory, Location.inDirectory?, hroot] at h
  | segments ns =>
    simp only [directory, Location.inDirectory?, hroot] at h
    obtain rfl := Except.ok.inj h
    exact ⟨_, rfl⟩

theorem fileName?_ofFilePath (dir : FilePath) {n : Bytes} (hn : n ≠ [] ∧ n ≠ [0x2E]) :
    (Location.ofFilePath (dir ++ [n])).fileName? =
      some (String.ofList (Percent.encodeBytes Percent.segment n)) := by
  have hnonempty : String.ofList (Percent.encodeBytes Percent.segment n) ≠ "" := by
    intro hempty
    have hwritten : Percent.written n = [] := congrArg utf8 hempty
    exact hn.1 ((Percent.written_eq_iff (List.forall_mem_nil _)).1 hwritten)
  simp [Location.fileName?, Location.ofFilePath, hn, hnonempty]

theorem commits_cons_eq (dir : FilePath) (upTo : Option Version) (e : Bytes × Node)
    (es : List (Bytes × Node)) (he : e.1 ≠ [] ∧ e.1 ≠ [0x2E]) :
    commits dir upTo (e :: es) =
      match version? (.ofFilePath (dir ++ [e.1])) with
      | .error err => .error err
      | .ok none => commits dir upTo es
      | .ok (some version) =>
        if upTo.all (version ≤ ·) then
          (commits dir upTo es).map
            ({ version, location := .ofFilePath (dir ++ [e.1]), found := e.2 } :: ·)
        else commits dir upTo es := by
  rw [version?_of_fileName (fileName?_ofFilePath dir he), commits, ← Percent.written,
    LogEntry.ofName_written]
  cases LogEntry.ofName e.1 <;> rfl

/-- What a listing makes of one entry of a directory, going by its location. -/
def listed (dir : FilePath) (upTo : Option Version) (e : Bytes × Node) :
    Outcome (Option CommitFile) :=
  (version? (.ofFilePath (dir ++ [e.1]))).map fun v ↦
    (v.filter fun v ↦ upTo.all (v ≤ ·)).map fun version ↦
      { version, location := .ofFilePath (dir ++ [e.1]), found := e.2 }

theorem commits_eq_listed (dir : FilePath) (upTo : Option Version) {es : List (Bytes × Node)}
    (h : ∀ e ∈ es, e.1 ≠ [] ∧ e.1 ≠ [0x2E]) :
    commits dir upTo es = (es.mapM (listed dir upTo)).map List.reduceOption := by
  induction es with
  | nil => rfl
  | cons e es ih =>
    obtain ⟨he, hes⟩ := List.forall_mem_cons.1 h
    rw [commits_cons_eq dir upTo e es he, ih hes, List.mapM_cons, listed]
    cases version? (.ofFilePath (dir ++ [e.1])) with
    | error err => rfl
    | ok v =>
      cases v with
      | none => cases es.mapM (listed dir upTo) <;> rfl
      | some version =>
        simp only [Except.map, Option.filter_some]
        split <;> cases es.mapM (listed dir upTo) <;> rfl

theorem commit_names_and_versions :
    (∀ root log v, directory root = .ok log →
      ∃ l, commitLocation log v = .ok l ∧ l.fileName? = some (LogEntry.nameText v) ∧
        version? l = .ok (some v)) ∧
    (∀ l s, l.fileName? = some s →
      (∀ v, version? l = .ok (some v) ↔ s = LogEntry.nameText v) ∧
      (∀ v, version? l = .ok (some v) ↔
        ∃ ds : Bytes, ds.length = 20 ∧ (∀ b ∈ ds, isDigit b) ∧ natOfDigits ds = v.toNat ∧
          utf8 s = ds ++ utf8 ".json") ∧
      (version? l = .error (.invalidLogPath l.toText) ↔
        ∃ ds : Bytes, (∀ b ∈ ds, isDigit b) ∧ utf8 s = ds ++ utf8 ".json" ∧
          (ds.length ≠ 20 ∨ 2 ^ 64 ≤ natOfDigits ds)) ∧
      (version? l = .ok none ↔
        ¬∃ ds : Bytes, (∀ b ∈ ds, isDigit b) ∧ utf8 s = ds ++ utf8 ".json")) ∧
    (∀ dir n v, n ≠ [] ∧ n ≠ [0x2E] →
      (version? (.ofFilePath (dir ++ [n])) = .ok (some v) ↔ n = LogEntry.name v)) ∧
    (∀ dir upTo (es : List (Bytes × Node)), (∀ e ∈ es, e.1 ≠ [] ∧ e.1 ≠ [0x2E]) →
      commits dir upTo es = (es.mapM (listed dir upTo)).map List.reduceOption) ∧
    (∀ l l' v, version? l = .ok (some v) → version? l' = .ok (some v) →
      l.fileName? = l'.fileName?) ∧
    ∀ v w, utf8 (LogEntry.nameText v) < utf8 (LogEntry.nameText w) ↔ v < w := by
  refine ⟨fun root log v hlog ↦ ?_, fun l s hs ↦ ⟨fun v ↦ ?_, fun v ↦ ?_, version?_eq_error_iff hs,
    version?_eq_none_iff hs⟩, fun dir n v hn ↦ ?_,
    fun dir upTo es hes ↦ commits_eq_listed dir upTo hes, fun l l' v hl hl' ↦ ?_, fun v w ↦ ?_⟩
  · obtain ⟨l, hl⟩ := exists_inDirectory hlog [LogEntry.nameText v]
    have hname := fileName?_inDirectory hl
    refine ⟨l, ?_, hname, version?_eq_some_iff.2 hname⟩
    rw [commitLocation_eq, hl]
  · rw [version?_eq_some_iff, hs, Option.some.injEq]
  · rw [version?_eq_some_iff, hs, Option.some.injEq, LogEntry.eq_nameText_iff, LogEntry.eq_name_iff]
    rfl
  · rw [version?_of_fileName (fileName?_ofFilePath dir hn), ← Percent.written,
      LogEntry.ofName_written, ← LogEntry.ofName_eq_commit_iff]
    cases LogEntry.ofName n <;> simp
  · exact (version?_eq_some_iff.1 hl).trans (version?_eq_some_iff.1 hl').symm
  · rw [LogEntry.utf8_nameText, LogEntry.utf8_nameText, LogEntry.name_lt_name_iff]

theorem commit_names_and_versions_sample :
    let root : Location := { scheme := "file", authority := some {}, path := .segments ["table"] }
    let under (name : String) : Location :=
      { root with path := .segments ["table", "_delta_log", name] }
    (∃ log l, directory root = .ok log ∧ commitLocation log 7 = .ok l ∧ version? l = .ok (some 7)) ∧
      version? (under "00000000000000000007.json") = .ok (some 7) ∧
      version? (under "7.json") = .error (.invalidLogPath (under "7.json").toText) ∧
      version? (under "18446744073709551616.json") =
        .error (.invalidLogPath (under "18446744073709551616.json").toText) ∧
      version? (.ofFilePath [utf8 "table", LogEntry.name 9]) = .ok (some 9) := by
  intro root under
  obtain ⟨hcommit, hname, hdisk, -, -, -⟩ := commit_names_and_versions
  refine ⟨?_, ?_, ?_, ?_, ?_⟩
  · obtain ⟨l, hl, -, hv⟩ := hcommit root _ 7 rfl
    exact ⟨_, l, rfl, hl, hv⟩
  · obtain ⟨-, hread, -, -⟩ :=
      hname (under "00000000000000000007.json") "00000000000000000007.json" (by decide)
    exact (hread 7).2 ⟨utf8 "00000000000000000007", by decide +kernel⟩
  · obtain ⟨-, -, herror, -⟩ := hname (under "7.json") "7.json" (by decide)
    exact herror.2 ⟨utf8 "7", by decide +kernel⟩
  · obtain ⟨-, -, herror, -⟩ :=
      hname (under "18446744073709551616.json") "18446744073709551616.json" (by decide)
    exact herror.2 ⟨utf8 "18446744073709551616", by decide +kernel⟩
  · exact (hdisk [utf8 "table"] (LogEntry.name 9) 9 (by decide +kernel)).2 rfl

end Log

end TableLog
