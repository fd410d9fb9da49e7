import TableLog.Proofs.CommitFile
import TableLog.Proofs.Json.Layout

namespace TableLog

open Json

namespace Add

def shape : Shape := ⟨fields, ["path", "size", "modificationTime", "dataChange"]⟩

def layout (a : Add) : Layout :=
  [("path", Required DenotesText a.path),
    ("partitionValues", Defaulted DenotesDict .empty a.partitionValues),
    ("size", Required DenotesLong a.size),
    ("modificationTime", Required DenotesLong a.modificationTime),
    ("dataChange", Required DenotesBool a.dataChange), ("stats", Optional DenotesText a.stats),
    ("tags", Optional DenotesDict a.tags), ("baseRowId", Optional DenotesLong a.baseRowId),
    ("defaultRowCommitVersion", Optional DenotesLong a.defaultRowCommitVersion),
    ("clusteringProvider", Optional DenotesText a.clusteringProvider)]

theorem ofJson?_carries {a : Add} {ms : List (List Piece × Json)} (hn : Named ms)
    (hc : Carries a.layout ms) :
    ofJson? (.object ms) = some a := by
  obtain ⟨r, hr, hobject, hf⟩ := Record.ofJson?_carries hn hc
  simp only [layout, List.forall_mem_cons] at hf
  obtain ⟨hpath, hvalues, hsize, htime, hchange, hstats, htags, hid, hversion, hprovider, -⟩ := hf
  rw [ofJson?, show Record.ofJson? fields (.object ms) = some r from hr]
  simp only [Option.bind_eq_bind, Option.bind_some, Record.required_eq understands_text hpath,
    Record.defaulted_eq understands_dict hvalues, Record.required_eq understands_long hsize,
    Record.required_eq understands_long htime, Record.required_eq understands_bool hchange,
    Record.optional_eq understands_text rfl hobject hstats,
    Record.optional_eq understands_dict rfl hobject htags,
    Record.optional_eq understands_long rfl hobject hid,
    Record.optional_eq understands_long rfl hobject hversion,
    Record.optional_eq understands_text rfl hobject hprovider]
  rfl

theorem not_flawed {a : Add} {ms : List (List Piece × Json)} (h : ofJson? (.object ms) = some a) :
    ¬ shape.Flawed ms := by
  simp only [ofJson?, Option.bind_eq_bind, Option.bind_eq_some_iff] at h
  obtain ⟨r, hr, _, hpath, _, -, _, hsize, _, htime, _, hchange, -⟩ := h
  refine Shape.not_flawed (by decide) hr ?_
  simp [shape, Record.gives_of_required hpath, Record.gives_of_required hsize,
    Record.gives_of_required htime, Record.gives_of_required hchange]

end Add

namespace Remove

def shape : Shape := ⟨fields, ["path", "dataChange"]⟩

def layout (r : Remove) : Layout :=
  [("path", Required DenotesText r.path),
    ("deletionTimestamp", Optional DenotesLong r.deletionTimestamp),
    ("dataChange", Required DenotesBool r.dataChange),
    ("extendedFileMetadata", Optional DenotesBool r.extendedFileMetadata),
    ("partitionValues", Optional DenotesDict r.partitionValues),
    ("size", Optional DenotesLong r.size),
    ("stats", Optional DenotesText r.stats), ("tags", Optional DenotesDict r.tags),
    ("baseRowId", Optional DenotesLong r.baseRowId),
    ("defaultRowCommitVersion", Optional DenotesLong r.defaultRowCommitVersion)]

theorem ofJson?_carries {a : Remove} {ms : List (List Piece × Json)} (hn : Named ms)
    (hc : Carries a.layout ms) :
    ofJson? (.object ms) = some a := by
  obtain ⟨r, hr, hobject, hf⟩ := Record.ofJson?_carries hn hc
  simp only [layout, List.forall_mem_cons] at hf
  obtain ⟨hpath, htime, hchange, hextended, hvalues, hsize, hstats, htags, hid, hversion, -⟩ := hf
  rw [ofJson?, show Record.ofJson? fields (.object ms) = some r from hr]
  simp only [Option.bind_eq_bind, Option.bind_some, Record.required_eq understands_text hpath,
    Record.optional_eq understands_long rfl hobject htime,
    Record.required_eq understands_bool hchange,
    Record.optional_eq understands_bool rfl hobject hextended,
    Record.optional_eq understands_dict rfl hobject hvalues,
    Record.optional_eq understands_long rfl hobject hsize,
    Record.optional_eq understands_text rfl hobject hstats,
    Record.optional_eq understands_dict rfl hobject htags,
    Record.optional_eq understands_long rfl hobject hid,
    Record.optional_eq understands_long rfl hobject hversion]
  rfl

theorem not_flawed {a : Remove} {ms : List (List Piece × Json)}
    (h : ofJson? (.object ms) = some a) :
    ¬ shape.Flawed ms := by
  simp only [ofJson?, Option.bind_eq_bind, Option.bind_eq_some_iff] at h
  obtain ⟨r, hr, _, hpath, _, -, _, hchange, -⟩ := h
  refine Shape.not_flawed (by decide) hr ?_
  simp [shape, Record.gives_of_required hpath, Record.gives_of_required hchange]

end Remove

namespace Format

def shape : Shape := ⟨fields, ["provider"]⟩

def layout (f : Format) : Layout :=
  [("provider", Required DenotesText f.provider),
    ("options", Defaulted DenotesDict .empty f.options)]

def Denotes (f : Format) (v : Json) : Prop := ∃ ms, v = .object ms ∧ Named ms ∧ Carries f.layout ms

theorem understands : Understands ofJson? Denotes := by
  rintro f v ⟨ms, rfl, hn, hc⟩
  obtain ⟨r, hr, -, hf⟩ := Record.ofJson?_carries hn hc
  simp only [layout, List.forall_mem_cons] at hf
  obtain ⟨hprovider, hoptions, -⟩ := hf
  rw [ofJson?, show Record.ofJson? fields (.object ms) = some r from hr]
  simp only [Option.bind_eq_bind, Option.bind_some, Record.required_eq understands_text hprovider,
    Record.defaulted_eq understands_dict hoptions]
  rfl

theorem not_flawed {f : Format} {ms : List (List Piece × Json)}
    (h : ofJson? (.object ms) = some f) :
    ¬ shape.Flawed ms := by
  simp only [ofJson?, Option.bind_eq_bind, Option.bind_eq_some_iff] at h
  obtain ⟨r, hr, _, hprovider, -⟩ := h
  refine Shape.not_flawed (by decide) hr ?_
  simp [shape, Record.gives_of_required hprovider]

end Format

namespace Metadata

def shape : Shape := ⟨fields, ["id", "schemaString"]⟩

def layout (m : Metadata) : Layout :=
  [("id", Required DenotesText m.id), ("name", Optional DenotesText m.name),
    ("description", Optional DenotesText m.description),
    ("format", Defaulted Format.Denotes {} m.format),
    ("schemaString", Required DenotesText m.schemaString),
    ("partitionColumns", Defaulted (DenotesList DenotesText) [] m.partitionColumns),
    ("createdTime", Optional DenotesLong m.createdTime),
    ("configuration", Defaulted DenotesDict .empty m.configuration)]

theorem ofJson?_carries {m : Metadata} {ms : List (List Piece × Json)} (hn : Named ms)
    (hc : Carries m.layout ms) :
    ofJson? (.object ms) = some m := by
  obtain ⟨r, hr, hobject, hf⟩ := Record.ofJson?_carries hn hc
  simp only [layout, List.forall_mem_cons] at hf
  obtain ⟨hid, hname, hdescription, hformat, hschema, hcolumns, htime, hconfiguration, -⟩ := hf
  rw [ofJson?, show Record.ofJson? fields (.object ms) = some r from hr]
  simp only [Option.bind_eq_bind, Option.bind_some, Record.required_eq understands_text hid,
    Record.optional_eq understands_text rfl hobject hname,
    Record.optional_eq understands_text rfl hobject hdescription,
    Record.defaulted_eq Format.understands hformat, Record.required_eq understands_text hschema,
    Record.defaulted_eq (understands_list understands_text) hcolumns,
    Record.optional_eq understands_long rfl hobject htime,
    Record.defaulted_eq understands_dict hconfiguration]
  rfl

theorem not_flawed {m : Metadata} {ms : List (List Piece × Json)}
    (h : ofJson? (.object ms) = some m) :
    ¬ shape.Flawed ms ∧ ∀ ns, .object ns ∈ valuesOf "format" ms → ¬ Format.shape.Flawed ns := by
  simp only [ofJson?, Option.bind_eq_bind, Option.bind_eq_some_iff] at h
  obtain ⟨r, hr, _, hid, _, -, _, -, f, hformat, _, hschema, -⟩ := h
  refine ⟨Shape.not_flawed (by decide) hr ?_, fun ns hns ↦ ?_⟩
  · simp [shape, Record.gives_of_required hid, Record.gives_of_required hschema]
  · rw [Record.valuesOf_eq hr (by decide), Option.mem_toList] at hns
    rw [Record.defaulted, hns] at hformat
    exact Format.not_flawed hformat

end Metadata

def Feature.Denotes (f : Feature) (v : Json) : Prop := DenotesText f.name v

namespace Protocol

def shape : Shape := ⟨fields, ["minReaderVersion", "minWriterVersion"]⟩

def layout (p : Protocol) : Layout :=
  [("minReaderVersion", Required DenotesInt p.readerVersion),
    ("minWriterVersion", Required DenotesInt p.writerVersion),
    ("readerFeatures", Optional (DenotesList Feature.Denotes) p.readerFeatures),
    ("writerFeatures", Optional (DenotesList Feature.Denotes) p.writerFeatures)]

theorem understands_feature : Understands Feature.ofJson? fun f v ↦ f.Canonical ∧ f.Denotes v := by
  rintro f v ⟨hc, ps, rfl, h⟩
  rw [Feature.ofJson?, h]
  exact congrArg some hc

theorem canonical_features {x : Option (List Feature)} {y : Option Json}
    (hc : ∀ fs ∈ x, ∀ f ∈ fs, f.Canonical) (h : Optional (DenotesList Feature.Denotes) x y) :
    Optional (DenotesList fun f v ↦ f.Canonical ∧ f.Denotes v) x y := by
  cases h with
  | absent => exact .absent
  | null => exact .null
  | given h =>
    obtain ⟨vs, rfl, hall⟩ := h
    exact .given ⟨vs, rfl, (List.forall₂_and_left _ _).2 ⟨hc _ rfl, hall⟩⟩

theorem ofJson?_carries {p : Protocol} (hp : p.Canonical) {ms : List (List Piece × Json)}
    (hn : Named ms) (hc : Carries p.layout ms) : ofJson? (.object ms) = some p := by
  obtain ⟨r, hr, hobject, hf⟩ := Record.ofJson?_carries hn hc
  simp only [layout, List.forall_mem_cons] at hf
  obtain ⟨hreader, hwriter, hreaders, hwriters, -⟩ := hf
  have hlist := understands_list understands_feature
  rw [ofJson?, show Record.ofJson? fields (.object ms) = some r from hr]
  simp only [Option.bind_eq_bind, Option.bind_some, Record.required_eq understands_int hreader,
    Record.required_eq understands_int hwriter,
    Record.optional_eq hlist rfl hobject (canonical_features hp.1 hreaders),
    Record.optional_eq hlist rfl hobject (canonical_features hp.2 hwriters)]
  rfl

theorem not_flawed {p : Protocol} {ms : List (List Piece × Json)}
    (h : ofJson? (.object ms) = some p) :
    ¬ shape.Flawed ms := by
  simp only [ofJson?, Option.bind_eq_bind, Option.bind_eq_some_iff] at h
  obtain ⟨r, hr, _, hreader, _, hwriter, -⟩ := h
  refine Shape.not_flawed (by decide) hr ?_
  simp [shape, Record.gives_of_required hreader, Record.gives_of_required hwriter]

end Protocol

namespace DomainMetadata

def shape : Shape := ⟨fields, fields⟩

def layout (d : DomainMetadata) : Layout :=
  [("domain", Required DenotesText d.domain),
    ("configuration", Required DenotesText d.configuration),
    ("removed", Required DenotesBool d.removed)]

theorem ofJson?_carries {d : DomainMetadata} {ms : List (List Piece × Json)} (hn : Named ms)
    (hc : Carries d.layout ms) : ofJson? (.object ms) = some d := by
  obtain ⟨r, hr, -, hf⟩ := Record.ofJson?_carries hn hc
  simp only [layout, List.forall_mem_cons] at hf
  obtain ⟨hdomain, hconfiguration, hremoved, -⟩ := hf
  rw [ofJson?, show Record.ofJson? fields (.object ms) = some r from hr]
  simp only [Option.bind_eq_bind, Option.bind_some, Record.required_eq understands_text hdomain,
    Record.required_eq understands_text hconfiguration,
    Record.required_eq understands_bool hremoved]
  rfl

theorem not_flawed {d : DomainMetadata} {ms : List (List Piece × Json)}
    (h : ofJson? (.object ms) = some d) :
    ¬ shape.Flawed ms := by
  simp only [ofJson?, Option.bind_eq_bind, Option.bind_eq_some_iff] at h
  obtain ⟨r, hr, _, hdomain, _, hconfiguration, _, hremoved, -⟩ := h
  refine Shape.not_flawed (List.Subset.refl fields) hr ?_
  simp [shape, fields, Record.gives_of_required hdomain, Record.gives_of_required hconfiguration,
    Record.gives_of_required hremoved]

end DomainMetadata

namespace CommitInfo

def shape : Shape := ⟨fields, []⟩

def layout (c : CommitInfo) : Layout :=
  [("timestamp", Optional DenotesLong c.timestamp),
    ("inCommitTimestamp", Optional DenotesLong c.inCommitTimestamp),
    ("operation", Optional DenotesText c.operation),
    ("operationParameters", Optional DenotesDict c.operationParameters),
    ("kernelVersion", Optional DenotesText c.kernelVersion),
    ("engineInfo", Optional DenotesText c.engineInfo), ("txnId", Optional DenotesText c.txnId)]

theorem ofJson?_carries {c : CommitInfo} {ms : List (List Piece × Json)} (hn : Named ms)
    (hc : Carries c.layout ms) :
    ofJson? (.object ms) = some c := by
  obtain ⟨r, hr, hobject, hf⟩ := Record.ofJson?_carries hn hc
  simp only [layout, List.forall_mem_cons] at hf
  obtain ⟨htime, hinCommit, hoperation, hparameters, hkernel, hengine, hid, -⟩ := hf
  rw [ofJson?, show Record.ofJson? fields (.object ms) = some r from hr]
  simp only [Option.bind_eq_bind, Option.bind_some,
    Record.optional_eq understands_long rfl hobject htime,
    Record.optional_eq understands_long rfl hobject hinCommit,
    Record.optional_eq understands_text rfl hobject hoperation,
    Record.optional_eq understands_dict rfl hobject hparameters,
    Record.optional_eq understands_text rfl hobject hkernel,
    Record.optional_eq understands_text rfl hobject hengine,
    Record.optional_eq understands_text rfl hobject hid]
  rfl

theorem not_flawed {c : CommitInfo} {ms : List (List Piece × Json)}
    (h : ofJson? (.object ms) = some c) :
    ¬ shape.Flawed ms := by
  simp only [ofJson?, Option.bind_eq_bind, Option.bind_eq_some_iff] at h
  obtain ⟨r, hr, -⟩ := h
  exact Shape.not_flawed (List.nil_subset _) hr (List.forall_mem_nil _)

end CommitInfo

namespace AppVersion

def shape : Shape := ⟨fields, ["appId", "version"]⟩

def layout (a : AppVersion) : Layout :=
  [("appId", Required DenotesText a.appId), ("version", Required DenotesLong a.version),
    ("lastUpdated", Optional DenotesLong a.lastUpdated)]

theorem ofJson?_carries {a : AppVersion} {ms : List (List Piece × Json)} (hn : Named ms)
    (hc : Carries a.layout ms) :
    ofJson? (.object ms) = some a := by
  obtain ⟨r, hr, hobject, hf⟩ := Record.ofJson?_carries hn hc
  simp only [layout, List.forall_mem_cons] at hf
  obtain ⟨hid, hversion, htime, -⟩ := hf
  rw [ofJson?, show Record.ofJson? fields (.object ms) = some r from hr]
  simp only [Option.bind_eq_bind, Option.bind_some, Record.required_eq understands_text hid,
    Record.required_eq understands_long hversion,
    Record.optional_eq understands_long rfl hobject htime]
  rfl

theorem not_flawed {a : AppVersion} {ms : List (List Piece × Json)}
    (h : ofJson? (.object ms) = some a) :
    ¬ shape.Flawed ms := by
  simp only [ofJson?, Option.bind_eq_bind, Option.bind_eq_some_iff] at h
  obtain ⟨r, hr, _, hid, _, hversion, -⟩ := h
  refine Shape.not_flawed (by decide) hr ?_
  simp [shape, Record.gives_of_required hid, Record.gives_of_required hversion]

end AppVersion

namespace Action

def layout : Action → Layout
  | add a => a.layout
  | remove r => r.layout
  | metadata m => m.layout
  | protocol p => p.layout
  | domainMetadata d => d.layout
  | commitInfo c => c.layout
  | appVersion a => a.layout

def shape : String → Shape
  | "add" => Add.shape
  | "remove" => Remove.shape
  | "metaData" => Metadata.shape
  | "protocol" => Protocol.shape
  | "domainMetadata" => DomainMetadata.shape
  | "commitInfo" => CommitInfo.shape
  | "txn" => AppVersion.shape
  | _ => ⟨[], []⟩

/-- A payload that is flawed in itself or in the format that it holds. -/
inductive Flawed : String → List (List Piece × Json) → Prop
  | payload {kind : String} {ms : List (List Piece × Json)}
      (h : (shape kind).Flawed ms) : Flawed kind ms
  | format {ms ns : List (List Piece × Json)} (h : .object ns ∈ valuesOf "format" ms)
    (hf : Format.shape.Flawed ns) :
    Flawed "metaData" ms

variable {a : Action} {kind : String} {ms : List (List Piece × Json)} {text : Bytes}

theorem ofPayload?_carries (ha : a.Canonical) (hn : Named ms) (hc : Carries a.layout ms) :
    ofPayload? a.kind (.object ms) = some a := by
  cases a with
  | add a => simp [ofPayload?, kind, Add.ofJson?_carries hn hc]
  | remove r => simp [ofPayload?, kind, Remove.ofJson?_carries hn hc]
  | metadata m => simp [ofPayload?, kind, Metadata.ofJson?_carries hn hc]
  | protocol p => simp [ofPayload?, kind, Protocol.ofJson?_carries ha hn hc]
  | domainMetadata d => simp [ofPayload?, kind, DomainMetadata.ofJson?_carries hn hc]
  | commitInfo c => simp [ofPayload?, kind, CommitInfo.ofJson?_carries hn hc]
  | appVersion a => simp [ofPayload?, kind, AppVersion.ofJson?_carries hn hc]

theorem not_flawed (h : ofPayload? kind (.object ms) = some a) : ¬ Flawed kind ms := by
  rintro (hflawed | ⟨hns, hflawed⟩)
  · unfold ofPayload? at h
    split at h
    case h_8 => cases h
    all_goals
      obtain ⟨x, hx, -⟩ := Option.map_eq_some_iff.1 h
    · exact Add.not_flawed hx hflawed
    · exact Remove.not_flawed hx hflawed
    · exact (Metadata.not_flawed hx).1 hflawed
    · exact Protocol.not_flawed hx hflawed
    · exact DomainMetadata.not_flawed hx hflawed
    · exact CommitInfo.not_flawed hx hflawed
    · exact AppVersion.not_flawed hx hflawed
  · obtain ⟨m, hm, -⟩ := Option.map_eq_some_iff.1 h
    exact (Metadata.not_flawed hm).2 _ hns hflawed

/-- A text of an action of this kind, its payload an object of these
members, with blanks between any tokens. -/
def WrittenAs (kind : String) (ms : List (List Piece × Json)) (text : Bytes) : Prop :=
  ∃ k s t s', Piece.text? k = some kind ∧ Blank s ∧
    Spells (.object [(k, .object ms)]) t ∧ Blank s' ∧
    text = s ++ (t ++ s')

theorem writtenAs_iff :
    WrittenAs kind ms text ↔
    ∃ k, Piece.text? k = some kind ∧ parse? text = some (.object [(k, .object ms)]) := by
  simp only [WrittenAs, parse?_eq_some_iff]
  constructor
  · rintro ⟨k, s, t, s', hk, h⟩
    exact ⟨k, hk, s, t, s', h⟩
  · rintro ⟨k, hk, s, t, s', h⟩
    exact ⟨k, s, t, s', hk, h⟩

theorem ofJson?_eq_some_iff_payload {k : List Piece} (hk : Piece.text? k = some kind) :
    ofJson? (.object [(k, .object ms)]) = some a ↔ ofPayload? kind (.object ms) = some a := by
  rw [ofJson?, hk, Option.bind_some]

theorem WrittenAs.readActions (h : WrittenAs kind ms text)
    (ha : ofPayload? kind (.object ms) = some a) (rest : Bytes) :
    readActions (text ++ rest) = .ok a :: TableLog.readActions rest := by
  obtain ⟨k, s, t, s', hk, hs, ht, hs', rfl⟩ := h
  have hbegins : a.Begins (s ++ (t ++ s') ++ rest) (s' ++ rest) :=
    ⟨s, t, _, hs, ht, (ofJson?_eq_some_iff_payload hk).2 ha, by simp⟩
  rw [readActions_begins hbegins, readActions_blank hs']

theorem WrittenAs.readActions_flawed (h : WrittenAs kind ms text) (hf : Flawed kind ms)
    (rest : Bytes) :
    TableLog.readActions (text ++ rest) = [.error .malformedJson] := by
  obtain ⟨k, s, t, s', hk, hs, ht, -, rfl⟩ := h
  refine reads_iff.1 (.broken (fun hblank ↦ ?_) fun b r hb ↦ ?_)
  · obtain ⟨c, t, rfl, hc⟩ := ht.cons
    have hspace : isSpace c := hblank c (by simp)
    rw [(isSpace_of_startsValue c hc).1] at hspace
    cases hspace
  · rw [List.append_assoc, List.append_assoc] at hb
    exact not_flawed ((ofJson?_eq_some_iff_payload hk).1 (hb.of_spells hs ht)) hf

theorem WrittenAs.parse_flawed (h : WrittenAs kind ms text) (hf : Flawed kind ms) :
    parse text = .error .malformedJson := by
  obtain ⟨k, hk, hparse⟩ := writtenAs_iff.1 h
  have hnone : ofJson? (.object [(k, .object ms)]) = none :=
    Option.eq_none_iff_forall_ne_some.2 fun b hb ↦
      not_flawed ((ofJson?_eq_some_iff_payload hk).1 hb) hf
  rw [parse, hparse, Option.bind_some, hnone]

/-- Whoever wrote it, a text that carries an action is read as that
action, and a flawed one is refused. -/
theorem read_foreign
    (hf : ∀ s, Feature.unknown s ∈ a.features → s ∉ Feature.known.map Feature.name) :
    (∀ ms text, Named ms → Carries a.layout ms → WrittenAs a.kind ms text →
      parse text = .ok a ∧
        ∀ rest, TableLog.readActions (text ++ rest) = .ok a :: TableLog.readActions rest) ∧
      ∀ kind ms text, Flawed kind ms → WrittenAs kind ms text →
        parse text = .error .malformedJson ∧
          ∀ rest, TableLog.readActions (text ++ rest) = [.error .malformedJson] := by
  refine ⟨fun ms text hn hc ht ↦ ?_, fun kind ms text hflawed ht ↦
    ⟨ht.parse_flawed hflawed, ht.readActions_flawed hflawed⟩⟩
  have hpayload := ofPayload?_carries (canonical_iff.2 hf) hn hc
  refine ⟨?_, ht.readActions hpayload⟩
  obtain ⟨k, hk, hparse⟩ := writtenAs_iff.1 ht
  exact parse_eq_ok_iff.2 ⟨_, hparse, (ofJson?_eq_some_iff_payload hk).2 hpayload⟩

end Action

namespace Sample

/-- Fields out of order, fields that are not known, and an option that is null. -/
def foreignMembers : List (List Piece × Json) :=
  [(Piece.ofText "schemaString", .ofText "s"),
    (Piece.ofText "x", .array [.object [(Piece.ofText "a", .null)], .number (utf8 "1.5e3")]),
    (Piece.ofText "name", .null),
    (Piece.ofText "format",
      .object [(Piece.ofText "x", .bool true), (Piece.ofText "provider", .ofText "parquet")]),
    (Piece.ofText "id", .ofText "m")]

def foreignText : Bytes :=
  utf8 (" \x7b \"metaData\" : \x7b\"schemaString\":\"s\", \"x\":[\x7b\"a\":null\x7d,1.5e3], " ++
    "\"name\": null,\n\"format\":\x7b\"x\":true,\"provider\":\"parquet\"\x7d,\t" ++
    "\"id\":\"m\"\x7d \x7d ")

set_option maxRecDepth 20000 in
theorem parse?_foreignText :
    parse? foreignText = some (.object [(Piece.ofText "metaData", .object foreignMembers)]) := by
  rfl

def foreign : Metadata := { id := "m", schemaString := "s" }

def lackingText : Bytes := utf8 "\x7b\"metaData\":\x7b\"id\":\"m\"\x7d\x7d"

theorem parse?_lackingText :
    parse? lackingText =
      some (.object [(Piece.ofText "metaData", .object [(Piece.ofText "id", .ofText "m")])]) := by
  rfl

/-- The name of the last member is half of a pair. -/
def unnamedMembers : List (List Piece × Json) :=
  [(Piece.ofText "appId", .ofText "a"), (Piece.ofText "version", .ofInt 1),
    ([.codeUnit 0xD800], .ofInt 1)]

def unnamedText : Bytes :=
  utf8 "\x7b\"txn\":\x7b\"appId\":\"a\",\"version\":1,\"\\ud800\":1\x7d\x7d"

theorem parse?_unnamedText :
    parse? unnamedText = some (.object [(Piece.ofText "txn", .object unnamedMembers)]) := by
  have hprinted : (Json.object [(Piece.ofText "txn", .object unnamedMembers)]).Printed := by
    have hunnamed : Piece.Plain (.codeUnit 0xD800) := show 0xD800 < 0x10000 by decide
    have hnames := And.intro (Piece.ofText_plain "txn")
      (And.intro (Piece.ofText_plain "appId") (Piece.ofText_plain "version"))
    simpa [printed_object_iff, unnamedMembers, hunnamed] using hnames
  have htext : unnamedText =
      (Json.object [(Piece.ofText "txn", .object unnamedMembers)]).render := by
    decide +kernel
  rw [htext, hprinted.parse?_render]

end Sample

open Sample in
theorem Action.read_foreign_metadata :
    Named foreignMembers ∧ Carries (Action.metadata foreign).layout foreignMembers ∧
      WrittenAs "metaData" foreignMembers foreignText ∧
      parse foreignText = .ok (.metadata foreign) ∧
      TableLog.readActions (foreignText ++ utf8 "\n\x7b") =
        [.ok (.metadata foreign), .error .malformedJson] ∧
      parse lackingText = .error .malformedJson := by
  have hnamed : Named foreignMembers := by
    intro m hm
    simp only [foreignMembers, List.mem_cons, List.not_mem_nil, or_false] at hm
    rcases hm with rfl | rfl | rfl | rfl | rfl <;> exact ⟨_, Piece.text?_ofText _⟩
  have hformat : Format.Denotes {} (.object
      [(Piece.ofText "x", .bool true), (Piece.ofText "provider", .ofText "parquet")]) := by
    refine ⟨_, rfl, ?_, ?_⟩
    · simp [Named]
    · simp only [Format.layout, Carries, List.forall_mem_cons]
      exact ⟨⟨some (.ofText "parquet"), by simp [valuesOf], .given ⟨_, rfl, Piece.text?_ofText _⟩⟩,
        ⟨none, by simp [valuesOf], .absent⟩, List.forall_mem_nil _⟩
  have hcarries : Carries (Action.metadata foreign).layout foreignMembers := by
    simp only [Action.layout, Metadata.layout, Carries, List.forall_mem_cons]
    refine ⟨⟨some (.ofText "m"), ?_, .given ⟨_, rfl, Piece.text?_ofText _⟩⟩,
      ⟨some .null, ?_, .null⟩, ⟨none, ?_, .absent⟩, ⟨some _, ?_, .given hformat⟩,
      ⟨some (.ofText "s"), ?_, .given ⟨_, rfl, Piece.text?_ofText _⟩⟩, ⟨none, ?_, .absent⟩,
      ⟨none, ?_, .absent⟩,
      ⟨none, ?_, .absent⟩, List.forall_mem_nil _⟩ <;> simp [valuesOf, foreignMembers]
  have hwritten : WrittenAs "metaData" foreignMembers foreignText :=
    writtenAs_iff.2 ⟨_, Piece.text?_ofText _, parse?_foreignText⟩
  have hlacking : Flawed "metaData" [(Piece.ofText "id", .ofText "m")] :=
    .payload (.lacking (show "schemaString" ∈ Metadata.shape.needed by decide) (by simp [valuesOf]))
  have hlackingText : WrittenAs "metaData" [(Piece.ofText "id", .ofText "m")] lackingText :=
    writtenAs_iff.2 ⟨_, Piece.text?_ofText _, parse?_lackingText⟩
  obtain ⟨hread, hrefused⟩ :=
    read_foreign (a := .metadata foreign) (fun s hs ↦ absurd hs List.not_mem_nil)
  obtain ⟨hparse, hfile⟩ := hread _ _ hnamed hcarries hwritten
  have hbroken : TableLog.readActions (utf8 "\n\x7b") = [.error .malformedJson] := by decide
  have htail := hfile (utf8 "\n\x7b")
  rw [hbroken] at htail
  exact ⟨hnamed, hcarries, hwritten, hparse, htail, (hrefused _ _ _ hlacking hlackingText).1⟩

open Sample in
/-- A member without a name is not skipped: the names of all members
are read, to find the fields among them. -/
theorem Action.unnamed_member_refused :
    Carries (Action.appVersion { appId := "a", version := 1 }).layout unnamedMembers ∧
      WrittenAs "txn" unnamedMembers unnamedText ∧ parse unnamedText = .error .malformedJson := by
  have hunnamed : Piece.text? [.codeUnit 0xD800] = none := by decide
  have hcarries : Carries (Action.appVersion { appId := "a", version := 1 }).layout
      unnamedMembers := by
    simp only [Action.layout, AppVersion.layout, Carries, List.forall_mem_cons]
    refine ⟨⟨some (.ofText "a"), ?_, .given ⟨_, rfl, Piece.text?_ofText _⟩⟩,
      ⟨some (.ofInt 1), ?_, .given rfl⟩, ⟨none, ?_, .absent⟩,
      List.forall_mem_nil _⟩ <;> simp [valuesOf, unnamedMembers, hunnamed]
  have hwritten : WrittenAs "txn" unnamedMembers unnamedText :=
    writtenAs_iff.2 ⟨_, Piece.text?_ofText _, parse?_unnamedText⟩
  exact ⟨hcarries, hwritten,
    hwritten.parse_flawed (.payload (.unnamed (by simp [Named, unnamedMembers, hunnamed])))⟩

end TableLog
