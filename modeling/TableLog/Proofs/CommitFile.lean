import TableLog.Proofs.Stream
import TableLog.Traversal.Source

namespace TableLog

open Json

theorem splitOn_lines {as : List Action} {lines : List Bytes}
    (hl : List.Forall₂ Action.SpelledBy as lines) :
    (writeLines lines).splitOn 0x0A = lines ++ [[]] := by
  induction hl with
  | nil => rfl
  | cons hline _ ih =>
    rw [writeLines_cons, List.splitOn_append_cons_self_of_not_mem hline.lineEnd_not_mem, ih]
    rfl

theorem parse_lines {as : List Action} {lines : List Bytes} (hc : ∀ a ∈ as, a.Canonical)
    (hl : List.Forall₂ Action.SpelledBy as lines) :
    List.Forall₂ (fun a line ↦ Action.parse line = .ok a) as lines := by
  have hboth := (List.forall₂_and_left as lines).2 ⟨hc, hl⟩
  exact hboth.imp fun a line h ↦ h.2.parse h.1

namespace Action

def features : Action → List Feature
  | protocol p => p.readerFeatures.getD [] ++ p.writerFeatures.getD []
  | _ => []

theorem canonical_iff {a : Action} :
    a.Canonical ↔ ∀ s, Feature.unknown s ∈ a.features → s ∉ Feature.known.map Feature.name := by
  have hfeatures : a.Canonical ↔ ∀ f ∈ a.features, f.Canonical := by
    cases a with
    | protocol p =>
      obtain ⟨_, _, readers, writers⟩ := p
      simp only [Canonical, Protocol.Canonical, features, List.forall_mem_append]
      cases readers <;> cases writers <;> simp
    | _ => simp [Canonical, features]
  simp only [hfeatures, Feature.canonical_iff]
  exact ⟨fun h s hs ↦ h _ hs s rfl, fun h f hf s he ↦ h s (he ▸ hf)⟩

end Action

/-- Nothing is lost in a commit file: not in reading it as a whole, not in reading it line by line,
and not in writing again what was read. -/
theorem commit_file_lossless {as : List Action}
    (hf : ∀ a ∈ as, ∀ s, Feature.unknown s ∈ a.features → s ∉ Feature.known.map Feature.name)
    {lines : List Bytes} (hl : List.Forall₂ Action.SpelledBy as lines) :
    (∀ turn, (Source.file (some (.file (writeLines lines)))).traverse turn =
        { result := .ok (Trace.ofActions as) }) ∧
      (writeLines lines).splitOn 0x0A = lines ++ [[]] ∧
      List.Forall₂ (fun a line ↦ Action.parse line = .ok a) as lines ∧
      (writeActions as = writeLines (as.map Action.line) ∧
        List.Forall₂ Action.SpelledBy as (as.map Action.line)) ∧
      ∀ text a, Action.parse text = .ok a →
        (∀ s, Feature.unknown s ∈ a.features → s ∉ Feature.known.map Feature.name) ∧
          ∀ line, a.SpelledBy line → Action.parse line = .ok a := by
  have hc : ∀ a ∈ as, a.Canonical := fun a ha ↦ Action.canonical_iff.2 (hf a ha)
  refine ⟨fun turn ↦ ?_, splitOn_lines hl, parse_lines hc hl,
    ⟨writeActions_eq as, spelledBy_lines as⟩, ?_⟩
  · have hitems : Trace.ofItems (as.map .ok) = Trace.ofActions as := List.map_map
    rw [Source.traverse, Source.openFile, readActions_lines hc hl, hitems]
  · intro text a h
    have ha := Action.canonical_of_parse h
    exact ⟨Action.canonical_iff.1 ha, fun line hline ↦ hline.parse ha⟩

namespace Sample

def origin : CommitInfo :=
  { operationParameters := some (.ofList [("a", "line\n"), ("b", "\u0000")]) }

def turnedOrigin : Json :=
  .object [(Piece.ofText "commitInfo", .object [(Piece.ofText "operationParameters",
    .object [(Piece.ofText "b", .ofText "\u0000"), (Piece.ofText "a", .ofText "line\n")])])]

theorem spelledBy_turned : (Action.commitInfo origin).SpelledBy turnedOrigin.render := by
  refine ⟨turnedOrigin, .single (@Reorders.inside [] [] _ _ _ (@Reorders.inside [] [] _ _ _ ?_)),
    rfl⟩
  exact .permute (by decide) (.swap _ _ _)

def futureProtocol : Protocol := ⟨1, 7, none, some [.rowTracking, .unknown "newest"]⟩

end Sample

open Sample in
theorem commit_file_lossless_turned :
    let lines := [turnedOrigin.render, (Action.protocol futureProtocol).line]
    List.Forall₂ Action.SpelledBy [.commitInfo origin, .protocol futureProtocol] lines ∧
      turnedOrigin.render ≠ (Action.commitInfo origin).line ∧
      (Source.file (some (.file (writeLines lines)))).traverse 0 =
        { result := .ok (Trace.ofActions [.commitInfo origin, .protocol futureProtocol]) } ∧
      (writeLines lines).splitOn 0x0A = lines ++ [[]] ∧
      Action.parse turnedOrigin.render = .ok (.commitInfo origin) ∧
      Action.parse (Action.commitInfo origin).line = .ok (.commitInfo origin) := by
  intro lines
  have hfeatures : ∀ a ∈ [Action.commitInfo origin, .protocol futureProtocol],
      ∀ s, Feature.unknown s ∈ a.features → s ∉ Feature.known.map Feature.name := by
    simp [Action.features, futureProtocol, Feature.known, Feature.name]
  have hlines := List.Forall₂.cons spelledBy_turned
    (.cons (Action.protocol futureProtocol).spelledBy_line .nil)
  obtain ⟨hread, hsplit, hparse, -, hagain⟩ := commit_file_lossless hfeatures hlines
  obtain ⟨hfirst, -⟩ := List.forall₂_cons.1 hparse
  have hown := (hagain _ _ hfirst).2 _ (Action.commitInfo origin).spelledBy_line
  exact ⟨hlines, by decide, hread 0, hsplit, hfirst, hown⟩

end TableLog
