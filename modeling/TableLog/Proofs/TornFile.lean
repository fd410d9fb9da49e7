import TableLog.Proofs.CommitFile

namespace TableLog

/-- Where the texts of the lines stand in a file of them: from which byte up to which. -/
def lineSpans : Nat → List Bytes → List (Nat × Nat)
  | _, [] => []
  | start, line :: lines =>
    (start, start + line.length) :: lineSpans (start + line.length + 1) lines

theorem le_of_mem_lineSpans {start : Nat} {lines : List Bytes} :
    ∀ s ∈ lineSpans start lines, start ≤ s.1 ∧ s.1 ≤ s.2 := by
  induction lines generalizing start with
  | nil => exact List.forall_mem_nil _
  | cons line lines ih =>
    refine List.forall_mem_cons.2 ⟨⟨Nat.le_refl _, Nat.le_add_right _ _⟩, fun s hs ↦ ?_⟩
    obtain ⟨hfirst, hlast⟩ := ih s hs
    exact ⟨by omega, hlast⟩

def completeBefore (place : Nat) (spans : List (Nat × Nat)) : Nat := spans.countP (·.2 ≤ place)

def Inside (place : Nat) (spans : List (Nat × Nat)) : Prop := ∃ s ∈ spans, s.1 < place ∧ place < s.2

instance (place : Nat) (spans : List (Nat × Nat)) : Decidable (Inside place spans) :=
  inferInstanceAs (Decidable (∃ s ∈ spans, s.1 < place ∧ place < s.2))

theorem inside_cons {place : Nat} {s : Nat × Nat} {spans : List (Nat × Nat)} :
    Inside place (s :: spans) ↔ (s.1 < place ∧ place < s.2) ∨ Inside place spans :=
  List.exists_mem_cons_iff ..

section Spans

variable {place start : Nat} (line : Bytes) (lines : List Bytes)

theorem completeBefore_of_lt (h : place < start) :
    completeBefore place (lineSpans start lines) = 0 := by
  refine List.countP_eq_zero.2 fun s hs ↦ ?_
  obtain ⟨hfirst, hlast⟩ := le_of_mem_lineSpans s hs
  rw [decide_eq_true_eq]
  omega

theorem not_inside_of_lt (h : place < start) : ¬ Inside place (lineSpans start lines) := by
  rintro ⟨s, hs, hlt, -⟩
  have hfirst := (le_of_mem_lineSpans s hs).1
  omega

theorem spans_before (h : place < start + line.length) :
    completeBefore place (lineSpans start (line :: lines)) = 0 ∧
      (Inside place (lineSpans start (line :: lines)) ↔ start < place) := by
  have hlt : place < start + line.length + 1 := by omega
  have hcount : ¬ start + line.length ≤ place := by omega
  constructor
  · rw [lineSpans, completeBefore, List.countP_cons_of_neg (by simpa using hcount)]
    exact completeBefore_of_lt lines hlt
  · rw [lineSpans, inside_cons, or_iff_left (not_inside_of_lt lines hlt)]
    exact and_iff_left h

theorem spans_at : completeBefore (start + line.length) (lineSpans start (line :: lines)) = 1 ∧
    ¬ Inside (start + line.length) (lineSpans start (line :: lines)) := by
  have hlt : start + line.length < start + line.length + 1 := Nat.lt_succ_self _
  constructor
  · rw [lineSpans, completeBefore, List.countP_cons_of_pos (by simp)]
    exact congrArg (· + 1) (completeBefore_of_lt lines hlt)
  · rw [lineSpans, inside_cons]
    exact not_or.2 ⟨fun h ↦ Nat.lt_irrefl _ h.2, not_inside_of_lt lines hlt⟩

theorem spans_behind (h : start + line.length ≤ place) :
    completeBefore place (lineSpans start (line :: lines)) =
        completeBefore place (lineSpans (start + line.length + 1) lines) + 1 ∧
      (Inside place (lineSpans start (line :: lines)) ↔
        Inside place (lineSpans (start + line.length + 1) lines)) := by
  constructor
  · rw [lineSpans, completeBefore, List.countP_cons_of_pos (by simpa using h)]
    rfl
  · rw [lineSpans, inside_cons]
    exact or_iff_right fun hinside ↦ absurd hinside.2 (Nat.not_lt.2 h)

end Spans

/-- What is read of a torn file: the lines that are complete, and an
error if the last one is torn. -/
theorem readActions_torn {as : List Action} {lines : List Bytes}
    (hl : List.Forall₂ Action.SpelledBy as lines) (start : Nat) {p : Bytes}
    (hp : p <+: writeLines lines) :
    readActions p =
      ((as.take (completeBefore (start + p.length) (lineSpans start lines))).map
        Action.resolved).map .ok ++
      if Inside (start + p.length) (lineSpans start lines) then [.error .malformedJson]
        else [] := by
  induction hl generalizing start p with
  | nil =>
    rw [List.prefix_nil.1 hp, readActions_nil]
    simp [lineSpans, Inside]
  | @cons a line as lines hline _ ih =>
    obtain ⟨todo, htodo⟩ := hp
    rw [writeLines_cons] at htodo
    obtain ⟨more, hm, hcut, -⟩ | ⟨rfl, -⟩ | ⟨t, rfl, ht⟩ := cut_cases htodo
    · have hlength : p.length < line.length := by
        rw [← hcut, List.length_append]
        exact Nat.lt_add_of_pos_right (List.length_pos_of_ne_nil hm)
      obtain ⟨hcount, hinside⟩ := spans_before line lines (Nat.add_lt_add_left hlength start)
      rw [hcount]
      by_cases hempty : p = []
      · subst hempty
        rw [if_neg fun h ↦ Nat.lt_irrefl start (hinside.1 h), readActions_nil]
        rfl
      · have hpos := List.length_pos_of_ne_nil hempty
        rw [if_pos (hinside.2 (Nat.lt_add_of_pos_right hpos)), readActions_cut hline hcut hempty hm]
        rfl
    · have hread := readActions_begins (hline.begins [])
      rw [List.append_nil, readActions_nil] at hread
      obtain ⟨hcount, hinside⟩ := @spans_at start p lines
      rw [hcount, if_neg hinside, hread]
      simp
    · have hplace : start + (line ++ 0x0A :: t).length = start + line.length + 1 + t.length := by
        simp only [List.length_append, List.length_cons]
        omega
      have hbehind : start + line.length ≤ start + line.length + 1 + t.length := by omega
      obtain ⟨hcount, hinside⟩ := spans_behind line lines hbehind
      rw [readActions_line hline, ih (start + line.length + 1) ⟨todo, ht⟩, hplace, hcount]
      simp only [hinside, List.take_succ_cons, List.map_cons, List.cons_append]

theorem Action.resolved_eq_iff {a : Action} :
    a.resolved = a ↔ ∀ s, Feature.unknown s ∈ a.features → s ∉ Feature.known.map Feature.name := by
  rw [← canonical_iff]
  exact ⟨fun h ↦ h ▸ a.resolved_canonical, resolved_of_canonical⟩

/-- No tail changes what is read of a commit file, and no tear makes an
action up or loses one that is complete. -/
theorem commit_file_self_delimiting {as : List Action} {lines : List Bytes}
    (hl : List.Forall₂ Action.SpelledBy as lines) (turn : Nat) :
    let traversal (bs : Bytes) := (Source.file (some (.file bs))).traverse turn
    (∀ g, ∃ items, Reads g items ∧ traversal g = { result := .ok (Trace.ofItems items) } ∧
      traversal (writeLines lines ++ g) =
        { result := .ok (Trace.ofActions (as.map Action.resolved) ++ Trace.ofItems items) }) ∧
      (∀ p, p <+: writeLines lines → traversal p =
        { result := .ok (Trace.ofActions
            ((as.take (completeBefore p.length (lineSpans 0 lines))).map Action.resolved) ++
            if Inside p.length (lineSpans 0 lines) then [.item (.error .malformedJson)]
              else []) }) ∧
      (∀ bs, ∃ found, traversal bs = { result := .ok (Trace.ofActions found) } ∨
        traversal bs =
          { result := .ok (Trace.ofActions found ++ [.item (.error .malformedJson)]) }) ∧
      (writeActions as = writeLines (as.map Action.line) ∧
        List.Forall₂ Action.SpelledBy as (as.map Action.line)) ∧
      ∀ a : Action, a.resolved = a ↔
        ∀ s, Feature.unknown s ∈ a.features → s ∉ Feature.known.map Feature.name := by
  intro traversal
  have htraversal (bs : Bytes) :
    traversal bs = { result := .ok (Trace.ofItems (readActions bs)) } := rfl
  have hactions (found : List Action) (more : List (Outcome Action)) :
      Trace.ofItems (found.map .ok ++ more) = Trace.ofActions found ++ Trace.ofItems more := by
    simp [Trace.ofItems, Trace.ofActions]
  refine ⟨fun g ↦ ⟨readActions g, reads_readActions g, rfl, ?_⟩, fun p hp ↦ ?_, fun bs ↦ ?_,
    ⟨writeActions_eq as, spelledBy_lines as⟩, fun a ↦ Action.resolved_eq_iff⟩
  · rw [htraversal, readActions_lines_append hl, hactions]
  · have htorn := readActions_torn hl 0 hp
    rw [Nat.zero_add] at htorn
    rw [htraversal, htorn, hactions]
    split <;> rfl
  · obtain ⟨found, hfound | hfound⟩ := (reads_readActions bs).shape
    · have hnone := hactions found []
      rw [List.append_nil] at hnone
      refine ⟨found, .inl ?_⟩
      rw [htraversal, hfound, hnone]
      simp [Trace.ofItems]
    · refine ⟨found, .inr ?_⟩
      rw [htraversal, hfound, hactions]
      rfl

open Sample in
theorem commit_file_self_delimiting_turned :
    let lines := [turnedOrigin.render, (Action.protocol futureProtocol).line]
    let traversal (bs : Bytes) := (Source.file (some (.file bs))).traverse 0
    List.Forall₂ Action.SpelledBy [.commitInfo origin, .protocol futureProtocol] lines ∧
      traversal (writeLines lines ++ utf8 "\x7b") =
        { result := .ok [.item (.ok (.commitInfo origin)), .item (.ok (.protocol futureProtocol)),
          .item (.error .malformedJson)] } ∧
      traversal turnedOrigin.render = { result := .ok [.item (.ok (.commitInfo origin))] } ∧
      traversal (turnedOrigin.render ++ utf8 "\n\x7b\"protocol\"") =
        { result := .ok [.item (.ok (.commitInfo origin)), .item (.error .malformedJson)] } := by
  intro lines traversal
  have hlines := List.Forall₂.cons spelledBy_turned
    (.cons (Action.protocol futureProtocol).spelledBy_line .nil)
  obtain ⟨htail, htorn, -⟩ := commit_file_self_delimiting hlines 0
  obtain ⟨items, hitems, -, hread⟩ := htail (utf8 "\x7b")
  have hbroken : readActions (utf8 "\x7b") = [.error .malformedJson] := by decide
  rw [← reads_iff.1 hitems, hbroken] at hread
  have hwhole := htorn turnedOrigin.render ⟨_, (writeLines_cons _ _).symm⟩
  have hpart := htorn (turnedOrigin.render ++ utf8 "\n\x7b\"protocol\"") (by decide)
  have hbetween : completeBefore turnedOrigin.render.length (lineSpans 0 lines) = 1 ∧
      ¬ Inside turnedOrigin.render.length (lineSpans 0 lines) := by decide +kernel
  have hwithin :
      completeBefore (turnedOrigin.render ++ utf8 "\n\x7b\"protocol\"").length
        (lineSpans 0 lines) = 1 ∧
      Inside (turnedOrigin.render ++ utf8 "\n\x7b\"protocol\"").length (lineSpans 0 lines) := by
    decide +kernel
  rw [hbetween.1, if_neg hbetween.2] at hwhole
  rw [hwithin.1, if_pos hwithin.2] at hpart
  exact ⟨hlines, hread, hwhole, hpart⟩

/-- An unknown feature with the name of a known one is written as the
known one is, and read as it. -/
theorem commit_file_renamed_feature :
    let renamed := Action.protocol ⟨1, 7, none, some [.unknown "rowTracking"]⟩
    (Source.file (some (.file (writeActions [renamed])))).traverse 0 =
        { result := .ok (Trace.ofActions [.protocol ⟨1, 7, none, some [.rowTracking]⟩]) } ∧
      (Source.file (some (.file (writeActions [renamed])))).traverse 0 ≠
        { result := .ok (Trace.ofActions [renamed]) } := by
  intro renamed
  have hread := readActions_lines_append (spelledBy_lines [renamed]) []
  rw [List.append_nil, ← writeActions_eq, readActions_nil] at hread
  have htraverse : (Source.file (some (.file (writeActions [renamed])))).traverse 0 =
      { result := .ok (Trace.ofActions [.protocol ⟨1, 7, none, some [.rowTracking]⟩]) } := by
    rw [Source.traverse, Source.openFile, hread]
    rfl
  refine ⟨htraverse, fun h ↦ ?_⟩
  rw [htraverse] at h
  simp [renamed, Trace.ofActions] at h

end TableLog
