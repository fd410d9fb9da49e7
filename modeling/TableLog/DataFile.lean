import TableLog.Error
import TableLog.Json.Record

namespace TableLog

structure Add where
  path : String
  partitionValues : Dict String := .empty
  size : Int64
  modificationTime : Int64
  dataChange : Bool
  stats : Option String := none
  tags : Option (Dict String) := none
  baseRowId : Option Int64 := none
  defaultRowCommitVersion : Option Int64 := none
  clusteringProvider : Option String := none
  deriving DecidableEq, Repr

namespace Add

def fields : List String :=
  ["path", "partitionValues", "size", "modificationTime", "dataChange", "stats", "tags",
    "baseRowId", "defaultRowCommitVersion", "clusteringProvider"]

def ofJson? (v : Json) : Option Add := do
  let r ← Record.ofJson? fields v
  let path ← r.required "path" Json.text?
  let partitionValues ← r.defaulted "partitionValues" Json.dict? .empty
  let size ← r.required "size" Json.int64?
  let modificationTime ← r.required "modificationTime" Json.int64?
  let dataChange ← r.required "dataChange" Json.bool?
  let stats ← r.optional "stats" Json.text?
  let tags ← r.optional "tags" Json.dict?
  let baseRowId ← r.optional "baseRowId" Json.int64?
  let defaultRowCommitVersion ← r.optional "defaultRowCommitVersion" Json.int64?
  let clusteringProvider ← r.optional "clusteringProvider" Json.text?
  pure { path, partitionValues, size, modificationTime, dataChange, stats, tags, baseRowId,
         defaultRowCommitVersion, clusteringProvider }

def toJson (a : Add) : Json :=
  .record [.text "path" a.path, .dict "partitionValues" a.partitionValues, .long "size" a.size,
    .long "modificationTime" a.modificationTime, .bool "dataChange" a.dataChange,
    .optional .text "stats" a.stats,
    .optional .dict "tags" a.tags, .optional .long "baseRowId" a.baseRowId,
    .optional .long "defaultRowCommitVersion" a.defaultRowCommitVersion,
    .optional .text "clusteringProvider" a.clusteringProvider]

/-- The record count that a statistics text gives, if any; `none`
outside when the text is malformed. -/
def recordCount? (stats : String) : Option (Option Int64) := do
  let v ← Json.parse? (utf8 stats)
  let r ← Record.ofJson? ["numRecords"] v
  r.optional "numRecords" Json.int64?

def countText (n : Int64) : String :=
  (ofUtf8? (Json.record [.long "numRecords" n]).render).getD ""

def withRecordCount (a : Add) (n : Int64) : Add := { a with stats := some (countText n) }

def recordCount (a : Add) : Outcome (Option Int64) :=
  match a.stats with
  | none => .ok none
  | some s =>
    match recordCount? s with
    | none => .error .malformedJson
    | some n => .ok n

def requiredCount (a : Add) : Outcome Int64 :=
  match a.recordCount with
  | .error e => .error e
  | .ok none => .error (.missingStatistics a.path)
  | .ok (some n) =>
    if n < 0 then
      .error (.generic s!"numRecords must not be negative (path: {a.path}, numRecords: {n.toInt})")
    else .ok n

end Add

structure Remove where
  path : String
  deletionTimestamp : Option Int64 := none
  dataChange : Bool
  extendedFileMetadata : Option Bool := none
  partitionValues : Option (Dict String) := none
  size : Option Int64 := none
  stats : Option String := none
  tags : Option (Dict String) := none
  baseRowId : Option Int64 := none
  defaultRowCommitVersion : Option Int64 := none
  deriving DecidableEq, Repr

namespace Remove

def fields : List String :=
  ["path", "deletionTimestamp", "dataChange", "extendedFileMetadata", "partitionValues", "size",
    "stats", "tags", "baseRowId", "defaultRowCommitVersion"]

def ofJson? (v : Json) : Option Remove := do
  let r ← Record.ofJson? fields v
  let path ← r.required "path" Json.text?
  let deletionTimestamp ← r.optional "deletionTimestamp" Json.int64?
  let dataChange ← r.required "dataChange" Json.bool?
  let extendedFileMetadata ← r.optional "extendedFileMetadata" Json.bool?
  let partitionValues ← r.optional "partitionValues" Json.dict?
  let size ← r.optional "size" Json.int64?
  let stats ← r.optional "stats" Json.text?
  let tags ← r.optional "tags" Json.dict?
  let baseRowId ← r.optional "baseRowId" Json.int64?
  let defaultRowCommitVersion ← r.optional "defaultRowCommitVersion" Json.int64?
  pure { path, deletionTimestamp, dataChange, extendedFileMetadata, partitionValues, size, stats,
         tags, baseRowId, defaultRowCommitVersion }

def toJson (r : Remove) : Json :=
  .record [.text "path" r.path, .optional .long "deletionTimestamp" r.deletionTimestamp,
    .bool "dataChange" r.dataChange, .optional .bool "extendedFileMetadata" r.extendedFileMetadata,
    .optional .dict "partitionValues" r.partitionValues, .optional .long "size" r.size,
    .optional .text "stats" r.stats, .optional .dict "tags" r.tags,
    .optional .long "baseRowId" r.baseRowId,
    .optional .long "defaultRowCommitVersion" r.defaultRowCommitVersion]

/-- Takes an added file out again. Its rows keep their identity. -/
def ofAdd (a : Add) (deletionTimestamp : Int64) (dataChange : Bool) : Remove where
  path := a.path
  deletionTimestamp := some deletionTimestamp
  dataChange := dataChange
  extendedFileMetadata := some true
  partitionValues := some a.partitionValues
  size := some a.size
  stats := a.stats
  tags := a.tags
  baseRowId := a.baseRowId
  defaultRowCommitVersion := a.defaultRowCommitVersion

end Remove

end TableLog
