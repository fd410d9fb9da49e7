import TableLog.Action
import TableLog.Proofs.Json.Utf8

namespace TableLog

open Json

namespace Add

def written (a : Add) : Fields :=
  [("path", some (ofText a.path)), ("partitionValues", some (ofDict a.partitionValues)),
    ("size", some (ofInt a.size.toInt)),
    ("modificationTime", some (ofInt a.modificationTime.toInt)),
    ("dataChange", some (.bool a.dataChange)), ("stats", a.stats.map ofText),
    ("tags", a.tags.map ofDict), ("baseRowId", a.baseRowId.map fun n ↦ ofInt n.toInt),
    ("defaultRowCommitVersion", a.defaultRowCommitVersion.map fun n ↦ ofInt n.toInt),
    ("clusteringProvider", a.clusteringProvider.map ofText)]

theorem toJson_eq (a : Add) : a.toJson = .object a.written.members := by
  obtain ⟨_, _, _, _, _, stats, tags, base, version, provider⟩ := a
  cases stats <;> cases tags <;> cases base <;> cases version <;> cases provider <;> rfl

theorem ofJson?_toJson (a : Add) : ofJson? a.toJson = some a := by
  have hf : a.written.map (·.1) = fields := rfl
  have hd : (a.written.map (·.1)).Nodup := hf ▸ by decide
  rw [toJson_eq, ofJson?, Record.ofJson?_fields hf (hf ▸ hd)]
  simp only [Option.bind_eq_bind, Option.bind_some, Record.required_given hd,
    Record.defaulted_given hd, Record.optional_given hd]
  simp [written, List.lookup_cons]

theorem toJson_printed (a : Add) : a.toJson.Printed := by
  rw [toJson_eq]
  exact printed_fields (by simp [written])

end Add

namespace Remove

def written (r : Remove) : Fields :=
  [("path", some (ofText r.path)),
    ("deletionTimestamp", r.deletionTimestamp.map fun n ↦ ofInt n.toInt),
    ("dataChange", some (.bool r.dataChange)),
    ("extendedFileMetadata", r.extendedFileMetadata.map .bool),
    ("partitionValues", r.partitionValues.map ofDict), ("size", r.size.map fun n ↦ ofInt n.toInt),
    ("stats", r.stats.map ofText), ("tags", r.tags.map ofDict),
    ("baseRowId", r.baseRowId.map fun n ↦ ofInt n.toInt),
    ("defaultRowCommitVersion", r.defaultRowCommitVersion.map fun n ↦ ofInt n.toInt)]

theorem toJson_eq (r : Remove) : r.toJson = .object r.written.members := by
  obtain ⟨_, time, _, extended, values, size, stats, tags, base, version⟩ := r
  cases time <;> cases extended <;> cases values <;> cases size <;> cases stats <;> cases tags <;>
    cases base <;>
    cases version <;> rfl

theorem ofJson?_toJson (r : Remove) : ofJson? r.toJson = some r := by
  have hf : r.written.map (·.1) = fields := rfl
  have hd : (r.written.map (·.1)).Nodup := hf ▸ by decide
  rw [toJson_eq, ofJson?, Record.ofJson?_fields hf (hf ▸ hd)]
  simp only [Option.bind_eq_bind, Option.bind_some, Record.required_given hd,
    Record.optional_given hd]
  simp [written, List.lookup_cons]

theorem toJson_printed (r : Remove) : r.toJson.Printed := by
  rw [toJson_eq]
  apply printed_fields
  simp [written]
  rintro v (⟨-, rfl⟩ | ⟨-, rfl⟩) <;> exact printed_bool _

end Remove

namespace Format

def written (f : Format) : Fields :=
  [("provider", some (ofText f.provider)), ("options", some (ofDict f.options))]

@[simp] theorem ofJson?_toJson (f : Format) : ofJson? f.toJson = some f := by
  have hf : f.written.map (·.1) = fields := rfl
  have hd : (f.written.map (·.1)).Nodup := hf ▸ by decide
  have he : f.toJson = .object f.written.members := rfl
  rw [he, ofJson?, Record.ofJson?_fields hf (hf ▸ hd)]
  simp only [Option.bind_eq_bind, Option.bind_some, Record.required_given hd,
    Record.defaulted_given hd]
  simp [written, List.lookup_cons]

@[simp] theorem toJson_printed (f : Format) : f.toJson.Printed := by
  have he : f.toJson = .object f.written.members := rfl
  rw [he]
  exact printed_fields (by simp [written])

end Format

namespace Metadata

def written (m : Metadata) : Fields :=
  [("id", some (ofText m.id)), ("name", m.name.map ofText),
    ("description", m.description.map ofText), ("format", some m.format.toJson),
    ("schemaString", some (ofText m.schemaString)),
    ("partitionColumns", some (.array (m.partitionColumns.map .ofText))),
    ("createdTime", m.createdTime.map fun n ↦ ofInt n.toInt),
    ("configuration", some (ofDict m.configuration))]

theorem toJson_eq (m : Metadata) : m.toJson = .object m.written.members := by
  obtain ⟨_, name, description, _, _, _, time, _⟩ := m
  cases name <;> cases description <;> cases time <;> rfl

theorem ofJson?_toJson (m : Metadata) : ofJson? m.toJson = some m := by
  have hf : m.written.map (·.1) = fields := rfl
  have hd : (m.written.map (·.1)).Nodup := hf ▸ by decide
  have hc : (Json.array (m.partitionColumns.map ofText)).list? text? = some m.partitionColumns :=
    list?_map fun s _ ↦ text?_ofText s
  rw [toJson_eq, ofJson?, Record.ofJson?_fields hf (hf ▸ hd)]
  simp only [Option.bind_eq_bind, Option.bind_some, Record.required_given hd,
    Record.defaulted_given hd, Record.optional_given hd]
  simp [written, List.lookup_cons, hc]

theorem toJson_printed (m : Metadata) : m.toJson.Printed := by
  have hc : (Json.array (m.partitionColumns.map ofText)).Printed := by
    refine .array fun i hi ↦ ?_
    obtain ⟨s, -, rfl⟩ := List.mem_map.1 hi
    exact printed_ofText s
  rw [toJson_eq]
  exact printed_fields (by simp [written, hc])

end Metadata

theorem Feature.ofJson?_toJson {f : Feature} (h : f.Canonical) : ofJson? f.toJson = some f := by
  have ht : Piece.text? (Piece.ofText f.name) = some f.name := Piece.text?_ofText _
  simp only [toJson, ofText, ofJson?, ht, Option.map_some]
  exact congrArg some h

namespace Protocol

def Canonical (p : Protocol) : Prop :=
  (∀ fs ∈ p.readerFeatures, ∀ f ∈ fs, f.Canonical) ∧ ∀ fs ∈ p.writerFeatures, ∀ f ∈ fs, f.Canonical

def written (p : Protocol) : Fields :=
  [("minReaderVersion", some (ofInt p.readerVersion.toInt)),
    ("minWriterVersion", some (ofInt p.writerVersion.toInt)),
    ("readerFeatures", p.readerFeatures.map fun fs ↦ .array (fs.map Feature.toJson)),
    ("writerFeatures", p.writerFeatures.map fun fs ↦ .array (fs.map Feature.toJson))]

theorem toJson_eq (p : Protocol) : p.toJson = .object p.written.members := by
  obtain ⟨_, _, reader, writer⟩ := p
  cases reader <;> cases writer <;> rfl

theorem option?_features {x : Option (List Feature)} (h : ∀ fs ∈ x, ∀ f ∈ fs, f.Canonical) :
    Record.option? (list? Feature.ofJson?)
      (x.map fun fs ↦ .array (fs.map Feature.toJson)) = some x := by
  cases x with
  | none => rfl
  | some fs =>
    have hl : (Json.array (fs.map Feature.toJson)).list? Feature.ofJson? = some fs :=
      list?_map fun f hf ↦ Feature.ofJson?_toJson (h fs rfl f hf)
    simp [Record.option?, hl]

theorem ofJson?_toJson {p : Protocol} (h : p.Canonical) : ofJson? p.toJson = some p := by
  have hf : p.written.map (·.1) = fields := rfl
  have hd : (p.written.map (·.1)).Nodup := hf ▸ by decide
  rw [toJson_eq, ofJson?, Record.ofJson?_fields hf (hf ▸ hd)]
  simp only [Option.bind_eq_bind, Option.bind_some, Record.required_given hd,
    Record.optional_given hd]
  simp [written, List.lookup_cons, option?_features h.1, option?_features h.2]

theorem features_printed (fs : List Feature) : (Json.array (fs.map Feature.toJson)).Printed := by
  refine .array fun i hi ↦ ?_
  obtain ⟨f, -, rfl⟩ := List.mem_map.1 hi
  exact printed_ofText f.name

theorem toJson_printed (p : Protocol) : p.toJson.Printed := by
  rw [toJson_eq]
  exact printed_fields (by simp [written, features_printed])

end Protocol

namespace DomainMetadata

def written (d : DomainMetadata) : Fields :=
  [("domain", some (ofText d.domain)), ("configuration", some (ofText d.configuration)),
    ("removed", some (.bool d.removed))]

theorem toJson_eq (d : DomainMetadata) : d.toJson = .object d.written.members := rfl

theorem ofJson?_toJson (d : DomainMetadata) : ofJson? d.toJson = some d := by
  have hf : d.written.map (·.1) = fields := rfl
  have hd : (d.written.map (·.1)).Nodup := hf ▸ by decide
  rw [toJson_eq, ofJson?, Record.ofJson?_fields hf (hf ▸ hd)]
  simp only [Option.bind_eq_bind, Option.bind_some, Record.required_given hd]
  simp [written, List.lookup_cons]

theorem toJson_printed (d : DomainMetadata) : d.toJson.Printed := by
  rw [toJson_eq]
  exact printed_fields (by simp [written])

end DomainMetadata

namespace CommitInfo

def written (c : CommitInfo) : Fields :=
  [("timestamp", c.timestamp.map fun n ↦ ofInt n.toInt),
    ("inCommitTimestamp", c.inCommitTimestamp.map fun n ↦ ofInt n.toInt),
    ("operation", c.operation.map ofText),
    ("operationParameters", c.operationParameters.map ofDict),
    ("kernelVersion", c.kernelVersion.map ofText),
    ("engineInfo", c.engineInfo.map ofText), ("txnId", c.txnId.map ofText)]

theorem toJson_eq (c : CommitInfo) : c.toJson = .object c.written.members := by
  obtain ⟨time, inCommit, operation, parameters, version, info, id⟩ := c
  cases time <;> cases inCommit <;> cases operation <;> cases parameters <;> cases version <;>
    cases info <;>
    cases id <;> rfl

theorem ofJson?_toJson (c : CommitInfo) : ofJson? c.toJson = some c := by
  have hf : c.written.map (·.1) = fields := rfl
  have hd : (c.written.map (·.1)).Nodup := hf ▸ by decide
  rw [toJson_eq, ofJson?, Record.ofJson?_fields hf (hf ▸ hd)]
  simp only [Option.bind_eq_bind, Option.bind_some, Record.optional_given hd]
  simp [written, List.lookup_cons]

theorem toJson_printed (c : CommitInfo) : c.toJson.Printed := by
  rw [toJson_eq]
  exact printed_fields (by simp [written])

end CommitInfo

namespace AppVersion

def written (a : AppVersion) : Fields :=
  [("appId", some (ofText a.appId)), ("version", some (ofInt a.version.toInt)),
    ("lastUpdated", a.lastUpdated.map fun n ↦ ofInt n.toInt)]

theorem toJson_eq (a : AppVersion) : a.toJson = .object a.written.members := by
  obtain ⟨_, _, time⟩ := a
  cases time <;> rfl

theorem ofJson?_toJson (a : AppVersion) : ofJson? a.toJson = some a := by
  have hf : a.written.map (·.1) = fields := rfl
  have hd : (a.written.map (·.1)).Nodup := hf ▸ by decide
  rw [toJson_eq, ofJson?, Record.ofJson?_fields hf (hf ▸ hd)]
  simp only [Option.bind_eq_bind, Option.bind_some, Record.required_given hd,
    Record.optional_given hd]
  simp [written, List.lookup_cons]

theorem toJson_printed (a : AppVersion) : a.toJson.Printed := by
  rw [toJson_eq]
  exact printed_fields (by simp [written])

end AppVersion

namespace Action

/-- An action that its JSON leads back to. Only the features of a protocol can stand in the way. -/
def Canonical : Action → Prop
  | protocol p => p.Canonical
  | _ => True

theorem ofPayload?_payload {a : Action} (h : a.Canonical) :
    ofPayload? a.kind a.payload = some a := by
  cases a with
  | add a => simp [ofPayload?, kind, payload, Add.ofJson?_toJson]
  | remove r => simp [ofPayload?, kind, payload, Remove.ofJson?_toJson]
  | metadata m => simp [ofPayload?, kind, payload, Metadata.ofJson?_toJson]
  | protocol p => simp [ofPayload?, kind, payload, Protocol.ofJson?_toJson h]
  | domainMetadata d => simp [ofPayload?, kind, payload, DomainMetadata.ofJson?_toJson]
  | commitInfo c => simp [ofPayload?, kind, payload, CommitInfo.ofJson?_toJson]
  | appVersion a => simp [ofPayload?, kind, payload, AppVersion.ofJson?_toJson]

theorem ofJson?_toJson {a : Action} (h : a.Canonical) : ofJson? a.toJson = some a := by
  have ht : Piece.text? (Piece.ofText a.kind) = some a.kind := Piece.text?_ofText _
  rw [toJson, ofJson?, ht, Option.bind_some, ofPayload?_payload h]

theorem toJson_printed (a : Action) : a.toJson.Printed := by
  have hp : a.payload.Printed := by
    cases a with
    | add a => exact a.toJson_printed
    | remove r => exact r.toJson_printed
    | metadata m => exact m.toJson_printed
    | protocol p => exact p.toJson_printed
    | domainMetadata d => exact d.toJson_printed
    | commitInfo c => exact c.toJson_printed
    | appVersion a => exact a.toJson_printed
  refine .object (fun m hm ↦ ?_) fun m hm ↦ ?_
  · rw [List.mem_singleton.1 hm]
    exact Piece.ofText_plain a.kind
  · rw [List.mem_singleton.1 hm]
    exact hp

end Action

namespace Record

theorem ofJson?_value (name : String) (v : Json) :
    ofJson? [name] (Json.record [.value name v]) = some ⟨false, [(name, v)]⟩ :=
  @ofJson?_fields [(name, some v)] [name] rfl (by simp)

theorem required_value {α : Type} (name : String) (v : Json) (read : Json → Option α) :
    required ⟨false, [(name, v)]⟩ name read = read v := by
  rw [required, List.lookup_cons_self, Option.bind_some]

end Record

theorem HighWaterMark.decode?_encode (m : HighWaterMark) : decode? m.encode = some m := by
  have hread : parse? (utf8 m.encode) =
      some (Json.record [.value "rowIdHighWaterMark" (ofInt m.rowId.toInt)]) :=
    (Textual.int _).parse?_record _
  simp only [decode?, hread, Option.bind_eq_bind, Option.bind_some, Record.ofJson?_value,
    Record.required_value, int64?_ofInt]
  rfl

theorem Clustering.decode?_encode (c : Clustering) : decode? c.encode = some c := by
  have htextual : (Json.array (c.columns.map fun p ↦ .array (p.map ofText))).Textual := by
    refine .array (List.forall_mem_map.2 fun p _ ↦ ?_)
    exact .array (List.forall_mem_map.2 fun s _ ↦ .text s)
  have hread := htextual.parse?_record "clusteringColumns"
  have hcolumns : (Json.array (c.columns.map fun p ↦ .array (p.map ofText))).list? (list? text?) =
      some c.columns :=
    list?_map fun p _ ↦ list?_map fun s _ ↦ text?_ofText s
  simp only [decode?, encode, hread, Option.bind_eq_bind, Option.bind_some, Record.ofJson?_value,
    Record.required_value, hcolumns]
  rfl

end TableLog
