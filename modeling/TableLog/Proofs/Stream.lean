import TableLog.Proofs.Spelling

namespace TableLog

open Json

/-- The action stands at the front of the bytes, behind blanks, and
its text ends where the rest begins. -/
def Action.Begins (a : Action) (bs rest : Bytes) : Prop :=
  ∃ s t v, Blank s ∧ Spells v t ∧ Action.ofJson? v = some a ∧ bs = s ++ (t ++ rest)

namespace Action.Begins

variable {a b : Action} {bs cs rest r : Bytes}

theorem readValue (h : a.Begins bs rest) {n : Nat} (hn : 2 * bs.length ≤ n) :
    ∃ v, Json.readValue n bs = some (v, rest) ∧ ofJson? v = some a := by
  obtain ⟨s, t, v, hs, ht, ha, rfl⟩ := h
  simp only [List.length_append] at hn
  obtain ⟨k, w, kind, rfl, -, -⟩ := ofJson?_eq_some_iff.1 ha
  exact ⟨_, readValue_of_spells hs ht (by omega) rfl, ha⟩

theorem of_readValue {n : Nat} {v : Json} (h : Json.readValue n bs = some (v, rest))
    (ha : ofJson? v = some a) :
    a.Begins bs rest := by
  obtain ⟨s, t, hs, ht, rfl⟩ := spells_of_readValue h
  exact ⟨s, t, v, hs, ht, ha, rfl⟩

theorem of_spells {s t : Bytes} {ms : List (List Piece × Json)} (h : a.Begins (s ++ (t ++ rest)) r)
    (hs : Blank s) (ht : Spells (.object ms) t) : ofJson? (.object ms) = some a := by
  obtain ⟨v, hv, ha⟩ := h.readValue (Nat.le_refl _)
  have hobject : Json.readValue (2 * (s ++ (t ++ rest)).length) (s ++ (t ++ rest)) =
      some (.object ms, rest) :=
    readValue_of_spells hs ht (by simp only [List.length_append]; omega) rfl
  obtain ⟨rfl, -⟩ := Prod.mk.inj (Option.some.inj (hobject.symm.trans hv))
  exact ha

theorem unique (h : a.Begins bs rest) (h' : b.Begins bs r) : a = b ∧ rest = r := by
  obtain ⟨v, hv, ha⟩ := h.readValue (Nat.le_refl _)
  obtain ⟨w, hw, hb⟩ := h'.readValue (Nat.le_refl _)
  obtain ⟨rfl, rfl⟩ := Prod.mk.inj (Option.some.inj (hv.symm.trans hw))
  exact ⟨Option.some.inj (ha.symm.trans hb), rfl⟩

theorem append (h : a.Begins bs rest) (more : Bytes) : a.Begins (bs ++ more) (rest ++ more) := by
  obtain ⟨s, t, v, hs, ht, ha, rfl⟩ := h
  exact ⟨s, t, v, hs, ht, ha, by simp⟩

theorem not_blank (h : a.Begins bs rest) : ¬ Blank bs := by
  obtain ⟨s, t, v, -, ht, -, rfl⟩ := h
  obtain ⟨b, t, rfl, hb⟩ := ht.cons
  intro hblank
  have hspace : isSpace b := hblank b (by simp)
  rw [(isSpace_of_startsValue b hb).1] at hspace
  cases hspace

theorem length_lt (h : a.Begins bs rest) : rest.length < bs.length := by
  obtain ⟨s, t, v, -, ht, -, rfl⟩ := h
  obtain ⟨b, t, rfl, -⟩ := ht.cons
  simp only [List.length_append, List.length_cons]
  omega

theorem of_skipSpace (h : a.Begins bs rest) (he : skipSpace bs = skipSpace cs) :
    a.Begins cs rest := by
  obtain ⟨v, hv, ha⟩ := h.readValue (Nat.le_succ (2 * bs.length))
  have hsame : Json.readValue (2 * bs.length + 1) bs = Json.readValue (2 * bs.length + 1) cs := by
    rw [Json.readValue, Json.readValue, he]
  exact .of_readValue (hsame ▸ hv) ha

end Action.Begins

/-- What there is to read: actions, up to the end or to the first place where no action stands. -/
inductive Reads : Bytes → List (Outcome Action) → Prop
  | done {bs : Bytes} (h : Blank bs) : Reads bs []
  | broken {bs : Bytes} (h : ¬ Blank bs) (hn : ∀ (a : Action) (rest : Bytes), ¬ a.Begins bs rest) :
    Reads bs [.error .malformedJson]
  | next {a : Action} {bs rest : Bytes} {items : List (Outcome Action)} (h : a.Begins bs rest)
    (hr : Reads rest items) : Reads bs (.ok a :: items)

variable {bs rest : Bytes} {items items' : List (Outcome Action)}

theorem Reads.unique (h : Reads bs items) (h' : Reads bs items') : items = items' := by
  induction h generalizing items' with
  | done h =>
    cases h' with
    | done => rfl
    | broken h' => exact absurd h h'
    | next h' => exact absurd h h'.not_blank
  | broken h hn =>
    cases h' with
    | done h' => exact absurd h' h
    | broken => rfl
    | next h' => exact absurd h' (hn _ _)
  | next h _ ih =>
    cases h' with
    | done h' => exact absurd h' h.not_blank
    | broken _ hn => exact absurd h (hn _ _)
    | next h' hr =>
      obtain ⟨rfl, rfl⟩ := h.unique h'
      rw [ih hr]

/-- Each action takes at least one byte, so there are enough rounds for all of them. -/
theorem reads_readActionsWith {steps n : Nat} (hs : 2 * bs.length ≤ steps) (hn : bs.length < n) :
    Reads bs (readActionsWith steps n bs) := by
  induction n generalizing bs with
  | zero => omega
  | succ n ih =>
    rw [readActionsWith]
    split
    · rename_i hend
      exact .done (blank_of_skipSpace hend)
    · rename_i hend
      have hblank : ¬ Blank bs := fun h ↦ hend (skipSpace_of_blank h)
      split
      · rename_i hv
        refine .broken hblank fun a rest h ↦ ?_
        obtain ⟨w, hw, -⟩ := h.readValue hs
        rw [hv] at hw
        cases hw
      · rename_i v r hv
        split
        · rename_i hnone
          refine .broken hblank fun a rest h ↦ ?_
          obtain ⟨w, hw, ha⟩ := h.readValue hs
          obtain ⟨rfl, -⟩ := Prod.mk.inj (Option.some.inj (hv.symm.trans hw))
          rw [hnone] at ha
          cases ha
        · rename_i a ha
          have hbegins := Action.Begins.of_readValue hv ha
          have hlt := hbegins.length_lt
          exact .next hbegins (ih (by omega) (by omega))

theorem reads_readActions (bs : Bytes) : Reads bs (readActions bs) :=
  reads_readActionsWith (by unfold steps; omega) (Nat.lt_succ_self _)

theorem reads_iff : Reads bs items ↔ readActions bs = items := by
  refine ⟨fun h ↦ (reads_readActions bs).unique h, fun h ↦ ?_⟩
  rw [← h]
  exact reads_readActions bs

theorem Reads.shape (h : Reads bs items) :
    ∃ as : List Action, items = as.map .ok ∨ items = as.map .ok ++ [.error .malformedJson] := by
  induction h with
  | done => exact ⟨[], .inl rfl⟩
  | broken => exact ⟨[], .inr rfl⟩
  | @next a _ _ _ _ _ ih =>
    obtain ⟨as, rfl | rfl⟩ := ih
    · exact ⟨a :: as, .inl rfl⟩
    · exact ⟨a :: as, .inr rfl⟩

theorem readActions_nil : readActions [] = [] := reads_iff.1 (.done blank_nil)

theorem readActions_begins {a : Action} (h : a.Begins bs rest) :
    readActions bs = .ok a :: readActions rest :=
  reads_iff.1 (.next h (reads_readActions rest))

theorem Reads.blank {s : Bytes} (h : Blank s) (hr : Reads bs items) : Reads (s ++ bs) items := by
  have he : skipSpace bs = skipSpace (s ++ bs) := (skipSpace_append h bs).symm
  cases hr with
  | done hb => exact .done (List.forall_mem_append.2 ⟨h, hb⟩)
  | broken hb hn =>
    exact .broken (fun hs ↦ hb (List.forall_mem_append.1 hs).2) fun a rest ha ↦
      hn a rest (ha.of_skipSpace he.symm)
  | next ha hr => exact .next (ha.of_skipSpace he) hr

theorem readActions_blank {s : Bytes} (h : Blank s) (bs : Bytes) :
    readActions (s ++ bs) = readActions bs :=
  reads_iff.1 ((reads_readActions bs).blank h)

theorem Reads.append {as : List Action} (h : Reads bs (as.map .ok)) (hr : Reads rest items) :
    Reads (bs ++ rest) (as.map .ok ++ items) := by
  induction as generalizing bs with
  | nil =>
    cases h with
    | done hb => exact hr.blank hb
  | cons a as ih =>
    cases h with
    | next ha h => exact .next (ha.append rest) (ih h)

theorem readActions_append {as : List Action} (h : readActions bs = as.map .ok) (rest : Bytes) :
    readActions (bs ++ rest) = as.map .ok ++ readActions rest :=
  reads_iff.1 ((reads_iff.2 h).append (reads_readActions rest))

theorem readActions_lineEnd (bs : Bytes) : readActions (0x0A :: bs) = readActions bs :=
  readActions_blank (List.forall_mem_singleton.2 (by decide)) bs

theorem Action.line_cons (a : Action) : ∃ bs, a.line = 0x7B :: bs := ⟨_, rfl⟩

theorem Action.SpelledBy.cons {a : Action} {line : Bytes} (h : a.SpelledBy line) :
    ∃ bs, line = 0x7B :: bs := by
  obtain ⟨v, -, ha, rfl⟩ := h.exists_printed
  obtain ⟨k, w, -, rfl, -⟩ := Action.ofJson?_eq_some_iff.1 ha
  exact ⟨_, rfl⟩

theorem Action.SpelledBy.begins {a : Action} {line : Bytes} (h : a.SpelledBy line) (rest : Bytes) :
    a.resolved.Begins (line ++ rest) rest := by
  obtain ⟨v, hv, ha, rfl⟩ := h.exists_printed
  exact ⟨[], v.render, v, blank_nil, hv.spells, ha, rfl⟩

/-- What begins a proper part of a line would begin the whole line
too, and leave something of it. -/
theorem readActions_cut {a : Action} {line cut more : Bytes} (hl : a.SpelledBy line)
    (h : cut ++ more = line) (hc : cut ≠ []) (hm : more ≠ []) :
    readActions cut = [.error .malformedJson] := by
  refine reads_iff.1 (.broken (fun hblank ↦ ?_) fun b rest hb ↦ ?_)
  · obtain ⟨c, cs, rfl⟩ := List.exists_cons_of_ne_nil hc
    obtain ⟨bs, hbs⟩ := hl.cons
    obtain ⟨rfl, -⟩ := List.cons.inj (h.trans hbs)
    exact absurd (hblank 0x7B List.mem_cons_self) (by decide)
  · have hwhole := hl.begins []
    rw [List.append_nil, ← h] at hwhole
    have hrest := (hwhole.unique (hb.append more)).2
    exact hm (List.append_eq_nil_iff.1 hrest.symm).2

def writeLines (lines : List Bytes) : Bytes := lines.flatMap (· ++ [0x0A])

theorem writeLines_cons (line : Bytes) (lines : List Bytes) :
    writeLines (line :: lines) = line ++ 0x0A :: writeLines lines := by simp [writeLines]

theorem writeActions_eq (as : List Action) : writeActions as = writeLines (as.map Action.line) := by
  simp [writeActions, writeLines, List.flatMap_map]

theorem writeActions_cons (a : Action) (as : List Action) :
    writeActions (a :: as) = a.line ++ 0x0A :: writeActions as := by simp [writeActions]

theorem readActions_line {a : Action} {line : Bytes} (hl : a.SpelledBy line) (rest : Bytes) :
    readActions (line ++ 0x0A :: rest) = .ok a.resolved :: readActions rest := by
  rw [readActions_begins (hl.begins _), readActions_lineEnd]

theorem readActions_lines_append {as : List Action} {lines : List Bytes}
    (hl : List.Forall₂ Action.SpelledBy as lines) (rest : Bytes) :
    readActions (writeLines lines ++ rest) =
      (as.map Action.resolved).map .ok ++ readActions rest := by
  induction hl with
  | nil => rfl
  | cons hline _ ih =>
    rw [writeLines_cons, List.append_assoc, List.cons_append, readActions_line hline, ih]
    rfl

theorem readActions_lines {as : List Action} {lines : List Bytes} (hc : ∀ a ∈ as, a.Canonical)
    (hl : List.Forall₂ Action.SpelledBy as lines) :
    readActions (writeLines lines) = as.map .ok := by
  have hresolved : as.map Action.resolved = as :=
    (List.map_congr_left fun a ha ↦ Action.resolved_of_canonical (hc a ha)).trans (List.map_id as)
  have hread := readActions_lines_append hl []
  rwa [List.append_nil, readActions_nil, List.append_nil, hresolved] at hread

theorem spelledBy_lines (as : List Action) :
    List.Forall₂ Action.SpelledBy as (as.map Action.line) := by
  rw [List.forall₂_map_right_iff, List.forall₂_same]
  exact fun a _ ↦ a.spelledBy_line

theorem readActions_write {as : List Action} (hc : ∀ a ∈ as, a.Canonical) :
    readActions (writeActions as) = as.map .ok := by
  rw [writeActions_eq]
  exact readActions_lines hc (spelledBy_lines as)

theorem cut_cases {line rest bs todo : Bytes} (h : bs ++ todo = line ++ 0x0A :: rest) :
    (∃ more, more ≠ [] ∧ bs ++ more = line ∧ todo = more ++ 0x0A :: rest) ∨
      (bs = line ∧ todo = 0x0A :: rest) ∨
      ∃ t, bs = line ++ 0x0A :: t ∧ t ++ todo = rest := by
  obtain ⟨more, rfl, rfl⟩ | ⟨t, rfl, ht⟩ := List.append_eq_append_iff.1 h
  · by_cases hm : more = []
    · subst hm
      exact .inr (.inl ⟨(List.append_nil bs).symm, rfl⟩)
    · exact .inl ⟨more, hm, rfl, rfl⟩
  · cases t with
    | nil => exact .inr (.inl ⟨List.append_nil line, ht.symm⟩)
    | cons b t =>
      obtain ⟨rfl, rfl⟩ := List.cons.inj ht
      exact .inr (.inr ⟨t, rfl, rfl⟩)

/-- A commit file that is being written can be read as a whole once no more
than the end of its last line is missing. -/
theorem readActions_eq_ok_iff {as : List Action} (hc : ∀ a ∈ as, a.Canonical) {bs todo : Bytes}
    (h : bs ++ todo = writeActions as) : readActions bs = as.map .ok ↔ todo.length ≤ 1 := by
  induction as generalizing bs with
  | nil =>
    obtain ⟨rfl, rfl⟩ := List.append_eq_nil_iff.1 h
    exact ⟨fun _ ↦ Nat.zero_le 1, fun _ ↦ readActions_nil⟩
  | cons a as ih =>
    obtain ⟨ha, has⟩ := List.forall_mem_cons.1 hc
    rw [writeActions_cons] at h
    have hline := a.spelledBy_line
    obtain ⟨more, hm, hcut, rfl⟩ | ⟨rfl, rfl⟩ | ⟨t, rfl, ht⟩ := cut_cases h
    · have hlong : ¬ (more ++ 0x0A :: writeActions as).length ≤ 1 := by
        have := List.length_pos_of_ne_nil hm
        simp only [List.length_append, List.length_cons]
        omega
      refine iff_of_false (fun hread ↦ ?_) hlong
      by_cases hb : bs = []
      · subst hb
        rw [readActions_nil] at hread
        cases hread
      · rw [readActions_cut hline hcut hb hm] at hread
        cases hread
    · have hread := readActions_begins (hline.begins [])
      rw [List.append_nil, readActions_nil, Action.resolved_of_canonical ha] at hread
      rw [hread]
      cases as with
      | nil => simp [writeActions]
      | cons b as => simp [writeActions_cons]
    · rw [readActions_line hline, Action.resolved_of_canonical ha, List.map_cons,
        List.cons_inj_right]
      exact ih has ht

end TableLog
