import TableLog.Proofs.Json.Token

namespace TableLog.Json

def Blank (bs : Bytes) : Prop := ∀ b ∈ bs, isSpace b

theorem blank_nil : Blank [] := List.forall_mem_nil _

theorem skipSpace_append {s : Bytes} (h : Blank s) (bs : Bytes) :
    skipSpace (s ++ bs) = skipSpace bs :=
  List.dropWhile_append_of_pos h

theorem skipSpace_cons {b : UInt8} (h : isSpace b = false) (bs : Bytes) :
    skipSpace (b :: bs) = b :: bs := by
  rw [skipSpace, List.dropWhile_cons_of_neg (by simp [h])]

theorem skipSpace_blank {s : Bytes} (h : Blank s) {b : UInt8} (hb : isSpace b = false)
    (bs : Bytes) :
    skipSpace (s ++ b :: bs) = b :: bs := by rw [skipSpace_append h, skipSpace_cons hb]

theorem blank_of_skipSpace {bs : Bytes} (h : skipSpace bs = []) : Blank bs :=
  List.dropWhile_eq_nil_iff.1 h

theorem skipSpace_of_blank {bs : Bytes} (h : Blank bs) : skipSpace bs = [] :=
  List.dropWhile_eq_nil_iff.2 h

theorem exists_blank {bs r : Bytes} {b : UInt8} (h : skipSpace bs = b :: r) :
    ∃ s, Blank s ∧ bs = s ++ b :: r :=
  ⟨bs.takeWhile isSpace,
    fun _ hb ↦ List.mem_takeWhile_imp hb, by rw [← h]; exact List.takeWhile_append_dropWhile.symm⟩

mutual

/-- The ways to write a value, without blanks around it. -/
inductive Spells : Json → Bytes → Prop
  | null : Spells .null [0x6E, 0x75, 0x6C, 0x6C]
  | true : Spells (.bool true) [0x74, 0x72, 0x75, 0x65]
  | false : Spells (.bool false) [0x66, 0x61, 0x6C, 0x73, 0x65]
  | number {l : Bytes} (h : IsNumber l) : Spells (.number l) l
  | string {ps : List Piece} {t : Bytes} (h : SpellsString ps t) : Spells (.string ps) t
  | emptyArray {s : Bytes} (hs : Blank s) : Spells (.array []) (0x5B :: (s ++ [0x5D]))
  | array {is : List Json} {t : Bytes} (h : SpellsItems is t) :
      Spells (.array is) (0x5B :: (t ++ [0x5D]))
  | emptyObject {s : Bytes} (hs : Blank s) : Spells (.object []) (0x7B :: (s ++ [0x7D]))
  | object {ms : List (List Piece × Json)} {t : Bytes} (h : SpellsMembers ms t) :
    Spells (.object ms) (0x7B :: (t ++ [0x7D]))

/-- One item or more, with blanks around each. -/
inductive SpellsItems : List Json → Bytes → Prop
  | last {v : Json} {s t s' : Bytes} (hs : Blank s) (h : Spells v t) (hs' : Blank s') :
    SpellsItems [v] (s ++ (t ++ s'))
  | next {v : Json} {is : List Json} {s t s' u : Bytes} (hs : Blank s) (h : Spells v t)
    (hs' : Blank s') (hu : SpellsItems is u) :
    SpellsItems (v :: is) (s ++ (t ++ (s' ++ 0x2C :: u)))

/-- One member or more, with blanks around each key and each value. -/
inductive SpellsMembers : List (List Piece × Json) → Bytes → Prop
  | last {k : List Piece} {v : Json} {s q s' p t p' : Bytes} (hs : Blank s) (hk : SpellsString k q)
    (hs' : Blank s') (hp : Blank p) (h : Spells v t) (hp' : Blank p') :
    SpellsMembers [(k, v)] (s ++ (q ++ (s' ++ 0x3A :: (p ++ (t ++ p')))))
  | next {k : List Piece} {v : Json} {ms : List (List Piece × Json)} {s q s' p t p' u : Bytes}
    (hs : Blank s) (hk : SpellsString k q) (hs' : Blank s') (hp : Blank p) (h : Spells v t)
    (hp' : Blank p')
    (hu : SpellsMembers ms u) :
    SpellsMembers ((k, v) :: ms) (s ++ (q ++ (s' ++ 0x3A :: (p ++ (t ++ (p' ++ 0x2C :: u))))))

end

/-- Whether a value may end where these bytes begin. Only numbers have no end of their own. -/
def endsBefore (rest : Bytes) : Json → Bool
  | .number _ => endsNumber rest
  | _ => true

def isDelimiter (b : UInt8) : Bool := isSpace b || b == 0x2C || b == 0x5D || b == 0x7D

theorem endsBefore_delimiter {c : UInt8} (hc : isDelimiter c) (rest : Bytes) (v : Json) :
    endsBefore (c :: rest) v := by
  have hends : ∀ c, isDelimiter c → endsNumber [c] := forall_byte (by decide +kernel)
  cases v with
  | number l => exact hends c hc
  | _ => rfl

theorem endsBefore_blank {s : Bytes} (h : Blank s) {c : UInt8} (hc : isDelimiter c)
    (rest : Bytes) (v : Json) :
    endsBefore (s ++ c :: rest) v := by
  cases s with
  | nil => exact endsBefore_delimiter hc rest v
  | cons b s =>
    have hb : isDelimiter b := by simp [isDelimiter, h b List.mem_cons_self]
    exact endsBefore_delimiter hb _ v

def startsValue (b : UInt8) : Bool := !isSpace b && b ≠ 0x5D && b ≠ 0x7D

theorem startsNumber_spec :
    ∀ b, startsNumber b → startsValue b ∧ b ≠ 0x5B ∧ b ≠ 0x7B ∧ b ≠ 0x22 ∧ b ≠ 0x74 ∧
    b ≠ 0x66 ∧ b ≠ 0x6E := forall_byte (by decide +kernel)

theorem isSpace_of_startsValue : ∀ b, startsValue b → isSpace b = false ∧ b ≠ 0x5D ∧ b ≠ 0x7D :=
  forall_byte (by decide +kernel)

theorem Spells.cons {v : Json} {t : Bytes} (h : Spells v t) :
    ∃ b bs, t = b :: bs ∧ startsValue b := by
  cases h with
  | number h =>
    obtain ⟨b, bs, rfl, hb⟩ := h.cons
    exact ⟨b, bs, rfl, (startsNumber_spec b hb).1⟩
  | string h =>
    cases h
    exact ⟨_, _, rfl, by decide⟩
  | _ => exact ⟨_, _, rfl, by decide⟩

theorem readWord_spec {word bs r : Bytes} {v v' : Json} (h : readWord word v bs = some (v', r)) :
    v' = v ∧ bs = word ++ r := by
  rw [readWord] at h
  split at h
  · rename_i hw
    obtain ⟨rfl, rfl⟩ := Prod.mk.inj (Option.some.inj h)
    obtain ⟨t, rfl⟩ := List.isPrefixOf_iff_prefix.1 hw
    exact ⟨rfl, by rw [List.drop_left]⟩
  · cases h

theorem readValue_succ_atom {b : UInt8} {bs : Bytes} (n : Nat) (hs : isSpace b = false)
    (ha : b ≠ 0x5B) (ho : b ≠ 0x7B) {s : Bytes} (hblank : Blank s) :
    readValue (n + 1) (s ++ b :: bs) = readAtom (b :: bs) := by
  rw [readValue, skipSpace_blank hblank hs]
  simp [ha, ho]

theorem spells_of_readAtom {bs r : Bytes} {v : Json} (h : readAtom bs = some (v, r)) :
    ∃ t, Spells v t ∧ bs = t ++ r := by
  cases bs with
  | nil => cases h
  | cons b bs =>
    rw [readAtom.eq_def] at h
    simp only at h
    split at h
    · rename_i hb
      obtain ⟨⟨ps, r'⟩, hs, he⟩ := Option.map_eq_some_iff.1 h
      obtain ⟨rfl, rfl⟩ := Prod.mk.inj he
      obtain ⟨t, ht, rfl⟩ := spells_of_readString hs
      subst hb
      exact ⟨_, .string (.quoted ht), by simp⟩
    · split at h
      · rename_i hb
        obtain ⟨rfl, rfl⟩ := readWord_spec h
        subst hb
        exact ⟨_, .true, rfl⟩
      · split at h
        · rename_i hb
          obtain ⟨rfl, rfl⟩ := readWord_spec h
          subst hb
          exact ⟨_, .false, rfl⟩
        · split at h
          · rename_i hb
            obtain ⟨rfl, rfl⟩ := readWord_spec h
            subst hb
            exact ⟨_, .null, rfl⟩
          · obtain ⟨⟨l, r'⟩, hl, he⟩ := Option.map_eq_some_iff.1 h
            obtain ⟨rfl, rfl⟩ := Prod.mk.inj he
            obtain ⟨hnumber, hbs⟩ := isNumber_of_readNumber hl
            exact ⟨l, .number hnumber, hbs⟩

theorem spells_of_readKey {bs r : Bytes} {k : List Piece} (h : readKey bs = some (k, r)) :
    ∃ s q s', Blank s ∧ SpellsString k q ∧ Blank s' ∧ bs = s ++ (q ++ (s' ++ 0x3A :: r)) := by
  rw [readKey] at h
  split at h
  · cases h
  · rename_i b t hs
    obtain ⟨s, hblank, rfl⟩ := exists_blank hs
    split at h
    · rename_i hb
      obtain ⟨⟨k', t'⟩, hk, hcolon⟩ := Option.bind_eq_some_iff.1 h
      clear h
      simp only at hcolon
      obtain ⟨q, hq, rfl⟩ := spells_of_readString hk
      split at hcolon
      · cases hcolon
      · rename_i c t'' hc
        obtain ⟨s', hblank', rfl⟩ := exists_blank hc
        split at hcolon
        · rename_i hc
          obtain ⟨rfl, rfl⟩ := Prod.mk.inj (Option.some.inj hcolon)
          subst hb hc
          exact ⟨s, _, s', hblank, .quoted hq, hblank', by simp⟩
        · cases hcolon
    · cases h

theorem readKey_of_spells {k : List Piece} {s q s' : Bytes} (hs : Blank s) (hk : SpellsString k q)
    (hs' : Blank s') (rest : Bytes) :
    readKey (s ++ (q ++ (s' ++ 0x3A :: rest))) = some (k, rest) := by
  obtain ⟨hpieces⟩ := hk
  have hread := readString_of_spells hpieces (s' ++ 0x3A :: rest)
  rw [readKey, List.cons_append, skipSpace_blank hs (by decide), List.append_assoc,
    List.cons_append, List.nil_append]
  have hcolon : skipSpace (s' ++ 0x3A :: rest) = 0x3A :: rest :=
    skipSpace_blank hs' (by decide) rest
  simp [hread, hcolon]

/-- In this many steps, the readers take nothing but what the grammar has. -/
structure ReadsOnly (n : Nat) : Prop where
  value : ∀ {bs r : Bytes} {v : Json}, readValue n bs = some (v, r) →
    ∃ s t, Blank s ∧ Spells v t ∧ bs = s ++ (t ++ r)
  items : ∀ {bs r : Bytes} {is : List Json}, readItems n bs = some (is, r) →
    ∃ t, SpellsItems is t ∧ bs = t ++ 0x5D :: r
  members : ∀ {bs r : Bytes} {ms : List (List Piece × Json)}, readMembers n bs = some (ms, r) →
    ∃ t, SpellsMembers ms t ∧ bs = t ++ 0x7D :: r

namespace ReadsOnly

variable {n : Nat} {bs r : Bytes} (hn : ReadsOnly n)
include hn

theorem value_succ {v : Json} (h : readValue (n + 1) bs = some (v, r)) :
    ∃ s t, Blank s ∧ Spells v t ∧ bs = s ++ (t ++ r) := by
  rw [readValue] at h
  split at h
  · cases h
  · rename_i b t hb
    obtain ⟨s, hs, rfl⟩ := exists_blank hb
    split at h
    · rename_i hopen
      subst hopen
      split at h
      · cases h
      · rename_i c t' hc
        split at h
        · rename_i hclose
          obtain ⟨rfl, rfl⟩ := Prod.mk.inj (Option.some.inj h)
          obtain ⟨s', hs', rfl⟩ := exists_blank hc
          subst hclose
          exact ⟨s, _, hs, .emptyArray hs', by simp⟩
        · obtain ⟨⟨is, r'⟩, hi, he⟩ := Option.map_eq_some_iff.1 h
          obtain ⟨rfl, rfl⟩ := Prod.mk.inj he
          obtain ⟨u, hu, rfl⟩ := hn.items hi
          exact ⟨s, _, hs, .array hu, by simp⟩
    · split at h
      · rename_i hopen
        subst hopen
        split at h
        · cases h
        · rename_i c t' hc
          split at h
          · rename_i hclose
            obtain ⟨rfl, rfl⟩ := Prod.mk.inj (Option.some.inj h)
            obtain ⟨s', hs', rfl⟩ := exists_blank hc
            subst hclose
            exact ⟨s, _, hs, .emptyObject hs', by simp⟩
          · obtain ⟨⟨ms, r'⟩, hm, he⟩ := Option.map_eq_some_iff.1 h
            obtain ⟨rfl, rfl⟩ := Prod.mk.inj he
            obtain ⟨u, hu, rfl⟩ := hn.members hm
            exact ⟨s, _, hs, .object hu, by simp⟩
      · obtain ⟨u, hu, he⟩ := spells_of_readAtom h
        exact ⟨s, u, hs, hu, by rw [he]⟩

theorem items_succ {is : List Json} (h : readItems (n + 1) bs = some (is, r)) :
    ∃ t, SpellsItems is t ∧ bs = t ++ 0x5D :: r := by
  rw [readItems] at h
  obtain ⟨⟨v, r₁⟩, hv, hrest⟩ := Option.bind_eq_some_iff.1 h
  clear h
  obtain ⟨s, t, hs, ht, rfl⟩ := hn.value hv
  simp only at hrest
  split at hrest
  · cases hrest
  · rename_i c w hc
    obtain ⟨s', hs', rfl⟩ := exists_blank hc
    split at hrest
    · rename_i hcomma
      subst hcomma
      obtain ⟨⟨is', r'⟩, hi, he⟩ := Option.map_eq_some_iff.1 hrest
      obtain ⟨rfl, rfl⟩ := Prod.mk.inj he
      obtain ⟨u, hu, rfl⟩ := hn.items hi
      exact ⟨_, .next hs ht hs' hu, by simp⟩
    · split at hrest
      · rename_i hclose
        subst hclose
        obtain ⟨rfl, rfl⟩ := Prod.mk.inj (Option.some.inj hrest)
        exact ⟨_, .last hs ht hs', by simp⟩
      · cases hrest

theorem members_succ {ms : List (List Piece × Json)} (h : readMembers (n + 1) bs = some (ms, r)) :
    ∃ t, SpellsMembers ms t ∧ bs = t ++ 0x7D :: r := by
  rw [readMembers] at h
  obtain ⟨⟨k, r₀⟩, hk, hvalue⟩ := Option.bind_eq_some_iff.1 h
  clear h
  obtain ⟨⟨v, r₁⟩, hv, hrest⟩ := Option.bind_eq_some_iff.1 hvalue
  clear hvalue
  obtain ⟨s, q, s', hs, hq, hs', rfl⟩ := spells_of_readKey hk
  obtain ⟨p, t, hp, ht, rfl⟩ := hn.value hv
  simp only at hrest
  split at hrest
  · cases hrest
  · rename_i c w hc
    obtain ⟨p', hp', rfl⟩ := exists_blank hc
    split at hrest
    · rename_i hcomma
      subst hcomma
      obtain ⟨⟨ms', r'⟩, hm, he⟩ := Option.map_eq_some_iff.1 hrest
      obtain ⟨rfl, rfl⟩ := Prod.mk.inj he
      obtain ⟨u, hu, rfl⟩ := hn.members hm
      exact ⟨_, .next hs hq hs' hp ht hp' hu, by simp⟩
    · split at hrest
      · rename_i hclose
        subst hclose
        obtain ⟨rfl, rfl⟩ := Prod.mk.inj (Option.some.inj hrest)
        exact ⟨_, .last hs hq hs' hp ht hp', by simp⟩
      · cases hrest

end ReadsOnly

theorem readsOnly (n : Nat) : ReadsOnly n := by
  induction n with
  | zero => constructor <;> simp [readValue, readItems, readMembers]
  | succ n ih => exact ⟨ih.value_succ, ih.items_succ, ih.members_succ⟩

theorem SpellsItems.cons {is : List Json} {t : Bytes} (h : SpellsItems is t) :
    ∃ s b bs, Blank s ∧ t = s ++ b :: bs ∧ startsValue b := by
  cases h with
  | last hs h _ =>
    obtain ⟨b, bs, rfl, hb⟩ := h.cons
    exact ⟨_, b, _, hs, rfl, hb⟩
  | next hs h _ _ =>
    obtain ⟨b, bs, rfl, hb⟩ := h.cons
    exact ⟨_, b, _, hs, rfl, hb⟩

theorem SpellsMembers.cons {ms : List (List Piece × Json)} {t : Bytes} (h : SpellsMembers ms t) :
    ∃ s bs, Blank s ∧ t = s ++ 0x22 :: bs := by
  cases h with
  | last hs hk =>
    cases hk
    exact ⟨_, _, hs, rfl⟩
  | next hs hk =>
    cases hk
    exact ⟨_, _, hs, rfl⟩

theorem readAtom_of_number {l rest : Bytes} (h : IsNumber l) (hr : endsNumber rest) :
    readAtom (l ++ rest) = some (.number l, rest) := by
  have hread := readNumber_of_isNumber h hr
  obtain ⟨b, bs, rfl, hb⟩ := h.cons
  obtain ⟨-, -, -, hquote, htrue, hfalse, hnull⟩ := startsNumber_spec b hb
  rw [List.cons_append] at hread ⊢
  rw [readAtom.eq_def]
  simp [hquote, htrue, hfalse, hnull, hread]

theorem skipSpace_comma {s : Bytes} (hs : Blank s) (rest : Bytes) :
    skipSpace (s ++ 0x2C :: rest) = 0x2C :: rest :=
  skipSpace_blank hs (by decide) rest

/-- In this many steps, the readers take all that the grammar has, up
to a length: two steps for each byte. -/
structure ReadsAll (n : Nat) : Prop where
  value : ∀ {v : Json} {s t rest : Bytes}, Blank s → Spells v t → 2 * t.length ≤ n →
    endsBefore rest v →
    readValue n (s ++ (t ++ rest)) = some (v, rest)
  items : ∀ {is : List Json} {t rest : Bytes}, SpellsItems is t → 2 * t.length + 1 ≤ n →
    readItems n (t ++ 0x5D :: rest) = some (is, rest)
  members : ∀ {ms : List (List Piece × Json)} {t rest : Bytes}, SpellsMembers ms t →
    2 * t.length + 1 ≤ n →
    readMembers n (t ++ 0x7D :: rest) = some (ms, rest)

namespace ReadsAll

variable {n : Nat} {s t rest : Bytes} (hn : ReadsAll n)
include hn

theorem value_succ {v : Json} (hs : Blank s) (h : Spells v t) (hlength : 2 * t.length ≤ n + 1)
    (hr : endsBefore rest v) : readValue (n + 1) (s ++ (t ++ rest)) = some (v, rest) := by
  cases h with
  | null => exact readValue_succ_atom n (by decide) (by decide) (by decide) hs
  | true => exact readValue_succ_atom n (by decide) (by decide) (by decide) hs
  | false => exact readValue_succ_atom n (by decide) (by decide) (by decide) hs
  | number h =>
    have hatom := readAtom_of_number h hr
    obtain ⟨b, bs, rfl, hb⟩ := h.cons
    obtain ⟨hstart, hopen, hopen', -⟩ := startsNumber_spec b hb
    rw [List.cons_append] at hatom ⊢
    rw [readValue_succ_atom n (isSpace_of_startsValue b hstart).1 hopen hopen' hs, hatom]
  | string h =>
    obtain ⟨hpieces⟩ := h
    have hread := readString_of_spells hpieces rest
    rw [List.cons_append, List.append_assoc,
      readValue_succ_atom n (by decide) (by decide) (by decide) hs]
    simp [readAtom, hread]
  | emptyArray hblank =>
    have hclose := skipSpace_blank hblank (show isSpace 0x5D = false by decide) rest
    rw [List.cons_append, readValue, skipSpace_blank hs (by decide)]
    simp [hclose]
  | emptyObject hblank =>
    have hclose := skipSpace_blank hblank (show isSpace 0x7D = false by decide) rest
    rw [List.cons_append, readValue, skipSpace_blank hs (by decide)]
    simp [hclose]
  | @array _ u h =>
    simp only [List.length_cons, List.length_append, List.length_nil] at hlength
    have hitems : readItems n (u ++ 0x5D :: rest) = some (_, rest) := hn.items h (by omega)
    obtain ⟨s', b, bs, hs', hu, hb⟩ := h.cons
    obtain ⟨hspace, hne, -⟩ := isSpace_of_startsValue b hb
    have hfirst : skipSpace (u ++ 0x5D :: rest) = b :: (bs ++ 0x5D :: rest) := by
      rw [hu, List.append_assoc, List.cons_append, skipSpace_blank hs' hspace]
    rw [List.cons_append, List.append_assoc, readValue, skipSpace_blank hs (by decide)]
    simp [hfirst, hne, hitems]
  | @object _ u h =>
    simp only [List.length_cons, List.length_append, List.length_nil] at hlength
    have hmembers : readMembers n (u ++ 0x7D :: rest) = some (_, rest) := hn.members h (by omega)
    obtain ⟨s', bs, hs', hu⟩ := h.cons
    have hfirst : skipSpace (u ++ 0x7D :: rest) = 0x22 :: (bs ++ 0x7D :: rest) := by
      rw [hu, List.append_assoc, List.cons_append, skipSpace_blank hs' (by decide)]
    rw [List.cons_append, List.append_assoc, readValue, skipSpace_blank hs (by decide)]
    simp [hfirst, hmembers]

theorem items_succ {is : List Json} (h : SpellsItems is t) (hlength : 2 * t.length + 1 ≤ n + 1) :
    readItems (n + 1) (t ++ 0x5D :: rest) = some (is, rest) := by
  cases h with
  | last hs h hs' =>
    simp only [List.length_append] at hlength
    have hclose := skipSpace_blank hs' (show isSpace 0x5D = false by decide) rest
    rw [readItems, List.append_assoc, List.append_assoc,
      hn.value hs h (by omega) (endsBefore_blank hs' (by decide) rest _)]
    simp [hclose]
  | next hs h hs' hu =>
    simp only [List.length_append, List.length_cons] at hlength
    rw [readItems, List.append_assoc, List.append_assoc, List.append_assoc, List.cons_append,
      hn.value hs h (by omega) (endsBefore_blank hs' (by decide) _ _)]
    simp [skipSpace_comma hs', hn.items hu (show _ ≤ n by omega)]

theorem members_succ {ms : List (List Piece × Json)} (h : SpellsMembers ms t)
    (hlength : 2 * t.length + 1 ≤ n + 1) :
    readMembers (n + 1) (t ++ 0x7D :: rest) = some (ms, rest) := by
  cases h with
  | last hs hk hs' hp h hp' =>
    simp only [List.length_append, List.length_cons] at hlength
    have hclose := skipSpace_blank hp' (show isSpace 0x7D = false by decide) rest
    rw [readMembers, List.append_assoc, List.append_assoc, List.append_assoc, List.cons_append,
      readKey_of_spells hs hk hs', Option.bind_some, List.append_assoc, List.append_assoc,
      hn.value hp h (by omega) (endsBefore_blank hp' (by decide) rest _)]
    simp [hclose]
  | next hs hk hs' hp h hp' hu =>
    simp only [List.length_append, List.length_cons] at hlength
    rw [readMembers, List.append_assoc, List.append_assoc, List.append_assoc, List.cons_append,
      readKey_of_spells hs hk hs', Option.bind_some, List.append_assoc, List.append_assoc,
      List.append_assoc,
      List.cons_append, hn.value hp h (by omega) (endsBefore_blank hp' (by decide) _ _)]
    simp [skipSpace_comma hp', hn.members hu (show _ ≤ n by omega)]

end ReadsAll

theorem readsAll (n : Nat) : ReadsAll n := by
  induction n with
  | zero =>
    refine ⟨fun hs h hn _ ↦ ?_, fun _ hn ↦ by omega, fun _ hn ↦ by omega⟩
    obtain ⟨b, bs, rfl, -⟩ := h.cons
    simp at hn
  | succ n ih => exact ⟨ih.value_succ, ih.items_succ, ih.members_succ⟩

variable {n : Nat} {bs r s t rest : Bytes} {v : Json}

theorem spells_of_readValue (h : readValue n bs = some (v, r)) :
    ∃ s t, Blank s ∧ Spells v t ∧ bs = s ++ (t ++ r) :=
  (readsOnly n).value h

theorem readValue_of_spells (hs : Blank s) (h : Spells v t) (hn : 2 * t.length ≤ n)
    (hr : endsBefore rest v) :
    readValue n (s ++ (t ++ rest)) = some (v, rest) := (readsAll n).value hs h hn hr

/-- The texts that `parse?` reads are those of the grammar, and what it reads is what they spell. -/
theorem parse?_eq_some_iff :
    parse? bs = some v ↔ ∃ s t s', Blank s ∧ Spells v t ∧ Blank s' ∧ bs = s ++ (t ++ s') := by
  constructor
  · intro h
    obtain ⟨⟨w, r⟩, hread, hend⟩ := Option.bind_eq_some_iff.1 h
    obtain ⟨s, t, hs, ht, rfl⟩ := spells_of_readValue hread
    simp only [Option.ite_none_right_eq_some, Option.some.injEq] at hend
    obtain ⟨hr, rfl⟩ := hend
    exact ⟨s, t, r, hs, ht, blank_of_skipSpace hr, rfl⟩
  · rintro ⟨s, t, s', hs, ht, hs', rfl⟩
    have hr : endsBefore s' v := by
      cases s' with
      | nil => cases v <;> rfl
      | cons b s' =>
        exact endsBefore_delimiter (by simp [isDelimiter, hs' b List.mem_cons_self]) s' v
    have hread := readValue_of_spells hs ht (n := steps (s ++ (t ++ s')))
      (by simp [steps]; omega) hr
    rw [parse?, readFront?, hread, Option.bind_some, if_pos (skipSpace_of_blank hs')]

end TableLog.Json
