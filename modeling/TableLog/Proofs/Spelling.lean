import TableLog.Proofs.Encoding
import TableLog.Proofs.Json.Order

namespace TableLog

open Json

theorem Add.ofJson?_unmoved : Unmoved Add.ofJson? := by
  refine fun v w hr ↦ Record.bind_unmoved (fun {r r'} h ↦ ?_) hr
  simp only [h.required text?_unmoved, h.required int64?_unmoved, h.required bool?_unmoved,
    h.defaulted dict?_unmoved, h.optional text?_unmoved, h.optional dict?_unmoved,
    h.optional int64?_unmoved]

theorem Remove.ofJson?_unmoved : Unmoved Remove.ofJson? := by
  refine fun v w hr ↦ Record.bind_unmoved (fun {r r'} h ↦ ?_) hr
  simp only [h.required text?_unmoved, h.required bool?_unmoved, h.optional text?_unmoved,
    h.optional dict?_unmoved, h.optional int64?_unmoved, h.optional bool?_unmoved]

theorem Format.ofJson?_unmoved : Unmoved Format.ofJson? := by
  refine fun v w hr ↦ Record.bind_unmoved (fun {r r'} h ↦ ?_) hr
  simp only [h.required text?_unmoved, h.defaulted dict?_unmoved]

theorem Metadata.ofJson?_unmoved : Unmoved Metadata.ofJson? := by
  refine fun v w hr ↦ Record.bind_unmoved (fun {r r'} h ↦ ?_) hr
  simp only [h.required text?_unmoved, h.defaulted dict?_unmoved,
    h.defaulted Format.ofJson?_unmoved, h.defaulted (list?_unmoved _), h.optional text?_unmoved,
    h.optional int64?_unmoved]

theorem Protocol.ofJson?_unmoved : Unmoved Protocol.ofJson? := by
  refine fun v w hr ↦ Record.bind_unmoved (fun {r r'} h ↦ ?_) hr
  simp only [h.required int32?_unmoved, h.optional (list?_unmoved _)]

theorem DomainMetadata.ofJson?_unmoved : Unmoved DomainMetadata.ofJson? := by
  refine fun v w hr ↦ Record.bind_unmoved (fun {r r'} h ↦ ?_) hr
  simp only [h.required text?_unmoved, h.required bool?_unmoved]

theorem CommitInfo.ofJson?_unmoved : Unmoved CommitInfo.ofJson? := by
  refine fun v w hr ↦ Record.bind_unmoved (fun {r r'} h ↦ ?_) hr
  simp only [h.optional text?_unmoved, h.optional int64?_unmoved, h.optional dict?_unmoved]

theorem AppVersion.ofJson?_unmoved : Unmoved AppVersion.ofJson? := by
  refine fun v w hr ↦ Record.bind_unmoved (fun {r r'} h ↦ ?_) hr
  simp only [h.required text?_unmoved, h.required int64?_unmoved, h.optional int64?_unmoved]

theorem Action.ofPayload?_unmoved (kind : String) : Unmoved (ofPayload? kind) := by
  intro v w hr
  unfold ofPayload?
  split
  · rw [Add.ofJson?_unmoved hr]
  · rw [Remove.ofJson?_unmoved hr]
  · rw [Metadata.ofJson?_unmoved hr]
  · rw [Protocol.ofJson?_unmoved hr]
  · rw [DomainMetadata.ofJson?_unmoved hr]
  · rw [CommitInfo.ofJson?_unmoved hr]
  · rw [AppVersion.ofJson?_unmoved hr]
  · rfl

theorem Action.ofJson?_eq_some_iff {v : Json} {a : Action} :
    ofJson? v = some a ↔
      ∃ k w kind, v = .object [(k, w)] ∧ Piece.text? k = some kind ∧
        ofPayload? kind w = some a := by
  unfold ofJson?
  split
  · simp only [Option.bind_eq_some_iff, Json.object.injEq, List.cons.injEq, Prod.mk.injEq, and_true]
    exact ⟨fun ⟨kind, hk, ha⟩ ↦ ⟨_, _, kind, ⟨rfl, rfl⟩, hk, ha⟩,
      fun ⟨_, _, kind, ⟨hv, hw⟩, hk, ha⟩ ↦
      ⟨kind, hv ▸ hk, hw ▸ ha⟩⟩
  · rename_i hne
    exact ⟨nofun, fun ⟨k, w, _, hv, _⟩ ↦ absurd hv (hne k w)⟩

theorem Action.ofJson?_unmoved : Unmoved Action.ofJson? := by
  refine unmoved_of_imp fun {v w a} hr h ↦ ?_
  obtain ⟨k, u, kind, rfl, hk, ha⟩ := ofJson?_eq_some_iff.1 h
  generalize hv : Json.object [(k, u)] = v at hr
  cases hr with
  | permute _ hp =>
    obtain rfl := Json.object.inj hv
    rw [List.singleton_perm.1 hp] at h
    exact h
  | @inside front back l u' w hinside =>
    have hmembers := Json.object.inj hv
    cases front with
    | nil =>
      obtain ⟨hhead, rfl⟩ := List.cons.inj hmembers
      obtain ⟨rfl, rfl⟩ := Prod.mk.inj hhead
      exact ofJson?_eq_some_iff.2 ⟨k, w, kind, rfl, hk, ofPayload?_unmoved kind hinside ▸ ha⟩
    | cons m front => simp at hmembers

namespace Feature

theorem canonical_of_named? {n : String} {f : Feature} (h : named? n = some f) :
    f.Canonical ∧ f.isUnknown = false := by
  have hknown : ∀ f ∈ known, f.isUnknown = false := by decide
  have hf := hknown f (List.mem_of_find?_eq_some h)
  exact ⟨canonical_of_known hf, hf⟩

theorem ofName_canonical (n : String) : (ofName n).Canonical := by
  unfold ofName
  cases h : named? n with
  | none => exact congrArg (Option.getD · (unknown n)) h
  | some f => exact (canonical_of_named? h).1

theorem canonical_iff {f : Feature} : f.Canonical ↔ ∀ s, f = unknown s → s ∉ known.map name := by
  constructor
  · intro h s hs
    subst hs
    have hnone : named? s = none := by
      cases hn : named? s with
      | none => rfl
      | some f =>
        have hf : f = unknown s := by
          rw [← h, ofName, name.eq_def, hn]
          rfl
        rw [hf] at hn
        exact absurd (canonical_of_named? hn).2 nofun
    simpa [named?] using hnone
  · intro h
    cases f with
    | unknown s =>
      have hnone : named? s = none := by simpa [named?] using h s rfl
      exact congrArg (Option.getD · (unknown s)) hnone
    | _ => rfl

theorem name_ofName (n : String) : (ofName n).name = n := by
  unfold ofName
  cases h : named? n with
  | none => rfl
  | some f => simpa using List.find?_some h

/-- The feature that the name of this one stands for. -/
def resolved (f : Feature) : Feature := ofName f.name

theorem toJson_resolved (f : Feature) :
    f.resolved.toJson = f.toJson := by rw [toJson, resolved, name_ofName, toJson]

theorem canonical_of_ofJson? {v : Json} {f : Feature} (h : ofJson? v = some f) : f.Canonical := by
  unfold ofJson? at h
  split at h
  · obtain ⟨n, -, rfl⟩ := Option.map_eq_some_iff.1 h
    exact ofName_canonical n
  · obtain ⟨n, -, hn⟩ := Option.bind_eq_some_iff.1 h
    exact (canonical_of_named? hn).1
  · cases h

end Feature

theorem Json.list?_eq_some {α : Type} {read : Json → Option α} {v : Json} {xs : List α}
    (h : v.list? read = some xs) :
    ∀ x ∈ xs, ∃ w, read w = some x := by
  unfold list? at h
  split at h
  · rename_i vs
    intro x hx
    have hall := mapM_eq_some_iff.1 h
    clear h
    induction hall with
    | nil => cases hx
    | cons hv _ ih =>
      rcases List.mem_cons.1 hx with rfl | hx
      · exact ⟨_, hv⟩
      · exact ih hx
  · cases h

theorem Record.optional_eq_some {α : Type} {r : Record} {name : String} {read : Json → Option α}
    {x : Option α} (h : r.optional name read = some x) : ∀ a ∈ x, ∃ v, read v = some a := by
  rintro a rfl
  unfold Record.optional at h
  split at h
  · cases h
  · obtain ⟨b, hb, hab⟩ := Option.map_eq_some_iff.1 h
    exact ⟨_, Option.some.inj hab ▸ hb⟩
  · split at h <;> cases h

theorem Protocol.canonical_of_ofJson? {v : Json} {p : Protocol} (h : ofJson? v = some p) :
    p.Canonical := by
  simp only [ofJson?, Option.bind_eq_bind, Option.bind_eq_some_iff, Option.pure_def,
    Option.some.injEq] at h
  obtain ⟨r, -, _, -, _, -, readers, hreaders, writers, hwriters, rfl⟩ := h
  have hfeatures {name : String} {x : Option (List Feature)}
      (hx : r.optional name (list? Feature.ofJson?) = some x) :
      ∀ fs ∈ x, ∀ f ∈ fs, f.Canonical := by
    intro fs hfs f hf
    obtain ⟨u, hu⟩ := Record.optional_eq_some hx fs hfs
    obtain ⟨w, hw⟩ := list?_eq_some hu f hf
    exact Feature.canonical_of_ofJson? hw
  exact ⟨hfeatures hreaders, hfeatures hwriters⟩

namespace Protocol

def resolved (p : Protocol) : Protocol :=
  { p with
    readerFeatures := p.readerFeatures.map (·.map Feature.resolved)
    writerFeatures := p.writerFeatures.map (·.map Feature.resolved) }

theorem toJson_resolved (p : Protocol) : p.resolved.toJson = p.toJson := by
  obtain ⟨_, _, readers, writers⟩ := p
  rw [toJson_eq, toJson_eq]
  simp [written, resolved, Option.map_map, Function.comp_def, Feature.toJson_resolved]

theorem resolved_canonical (p : Protocol) : p.resolved.Canonical := by
  have hfeatures (x : Option (List Feature)) :
      ∀ fs ∈ x.map (·.map Feature.resolved), ∀ f ∈ fs, f.Canonical := by
    intro fs hfs f hf
    obtain ⟨gs, -, rfl⟩ := Option.map_eq_some_iff.1 hfs
    obtain ⟨g, -, rfl⟩ := List.mem_map.1 hf
    exact Feature.ofName_canonical g.name
  exact ⟨hfeatures p.readerFeatures, hfeatures p.writerFeatures⟩

theorem resolved_of_canonical {p : Protocol} (h : p.Canonical) : p.resolved = p := by
  have hfeatures {x : Option (List Feature)} (hx : ∀ fs ∈ x, ∀ f ∈ fs, f.Canonical) :
      x.map (·.map Feature.resolved) = x := by
    cases x with
    | none => rfl
    | some fs => exact congrArg some ((List.map_congr_left (hx fs rfl)).trans (List.map_id fs))
  rw [resolved, hfeatures h.1, hfeatures h.2]

end Protocol

namespace Action

def resolved : Action → Action
  | protocol p => protocol p.resolved
  | a => a

theorem toJson_resolved (a : Action) : a.resolved.toJson = a.toJson := by
  cases a with
  | protocol p => rw [resolved, toJson, toJson, payload, payload, p.toJson_resolved]; rfl
  | _ => rfl

theorem resolved_canonical (a : Action) : a.resolved.Canonical := by
  cases a with
  | protocol p => exact p.resolved_canonical
  | _ => trivial

theorem resolved_of_canonical {a : Action} (h : a.Canonical) : a.resolved = a := by
  cases a with
  | protocol p => exact congrArg protocol (Protocol.resolved_of_canonical h)
  | _ => rfl

theorem canonical_of_ofPayload? {kind : String} {v : Json} {a : Action}
    (h : ofPayload? kind v = some a) :
    a.Canonical := by
  cases a with
  | protocol p =>
    unfold ofPayload? at h
    split at h
    case h_4 =>
      obtain ⟨q, hq, he⟩ := Option.map_eq_some_iff.1 h
      cases he
      exact Protocol.canonical_of_ofJson? hq
    case h_8 => cases h
    all_goals
      obtain ⟨_, -, he⟩ := Option.map_eq_some_iff.1 h
      cases he
  | _ => trivial

theorem parse_eq_ok_iff {text : Bytes} {a : Action} :
    parse text = .ok a ↔ ∃ v, Json.parse? text = some v ∧ ofJson? v = some a := by
  rw [parse, ← Option.bind_eq_some_iff]
  cases (Json.parse? text).bind ofJson? with
  | none => exact ⟨nofun, nofun⟩
  | some b => simp only [Except.ok.injEq, Option.some.injEq]

theorem canonical_of_parse {text : Bytes} {a : Action} (h : parse text = .ok a) : a.Canonical := by
  obtain ⟨v, -, hv⟩ := parse_eq_ok_iff.1 h
  obtain ⟨_, _, _, -, -, ha⟩ := ofJson?_eq_some_iff.1 hv
  exact canonical_of_ofPayload? ha

/-- A line that the action may be written as: each map has its entries in some order. -/
def SpelledBy (a : Action) (line : Bytes) : Prop := ∃ v, a.toJson.Reordered v ∧ v.render = line

theorem spelledBy_line (a : Action) : a.SpelledBy a.line := ⟨a.toJson, .refl, rfl⟩

variable {a : Action} {line : Bytes}

theorem SpelledBy.exists_printed (h : a.SpelledBy line) :
    ∃ v, v.Printed ∧ ofJson? v = some a.resolved ∧ v.render = line := by
  obtain ⟨v, hv, rfl⟩ := h
  have hread := ofJson?_toJson a.resolved_canonical
  rw [a.toJson_resolved, ofJson?_unmoved.reordered hv] at hread
  exact ⟨v, hv.printed a.toJson_printed, hread, rfl⟩

theorem SpelledBy.lineEnd_not_mem (h : a.SpelledBy line) : 0x0A ∉ line := by
  obtain ⟨v, hv, -, rfl⟩ := h.exists_printed
  exact fun hb ↦ absurd (hv.render_visible _ hb) (by decide)

theorem SpelledBy.parse (h : a.SpelledBy line) (hc : a.Canonical) : parse line = .ok a := by
  obtain ⟨v, hv, ha, rfl⟩ := h.exists_printed
  rw [resolved_of_canonical hc] at ha
  exact parse_eq_ok_iff.2 ⟨v, hv.parse?_render, ha⟩

end Action

end TableLog
