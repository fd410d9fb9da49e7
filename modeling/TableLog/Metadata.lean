import TableLog.Json.Record
import TableLog.Properties

namespace TableLog

structure Format where
  provider : String := "parquet"
  options : Dict String := .empty
  deriving DecidableEq, Repr

namespace Format

def fields : List String := ["provider", "options"]

def ofJson? (v : Json) : Option Format := do
  let r ← Record.ofJson? fields v
  let provider ← r.required "provider" Json.text?
  let options ← r.defaulted "options" Json.dict? .empty
  pure { provider, options }

def toJson (f : Format) : Json := .record [.text "provider" f.provider, .dict "options" f.options]

end Format

structure Metadata where
  id : String
  name : Option String := none
  description : Option String := none
  format : Format := {}
  schemaString : String
  partitionColumns : List String := []
  createdTime : Option Int64 := none
  configuration : Dict String := .empty
  deriving DecidableEq, Repr

namespace Metadata

def fields : List String :=
  ["id", "name", "description", "format", "schemaString", "partitionColumns", "createdTime",
    "configuration"]

def ofJson? (v : Json) : Option Metadata := do
  let r ← Record.ofJson? fields v
  let id ← r.required "id" Json.text?
  let name ← r.optional "name" Json.text?
  let description ← r.optional "description" Json.text?
  let format ← r.defaulted "format" Format.ofJson? {}
  let schemaString ← r.required "schemaString" Json.text?
  let partitionColumns ← r.defaulted "partitionColumns" (Json.list? Json.text?) []
  let createdTime ← r.optional "createdTime" Json.int64?
  let configuration ← r.defaulted "configuration" Json.dict? .empty
  pure { id, name, description, format, schemaString, partitionColumns, createdTime, configuration }

def toJson (m : Metadata) : Json :=
  .record [.text "id" m.id, .optional .text "name" m.name,
    .optional .text "description" m.description, .value "format" m.format.toJson,
    .text "schemaString" m.schemaString,
    .value "partitionColumns" (.array (m.partitionColumns.map .ofText)),
    .optional .long "createdTime" m.createdTime, .dict "configuration" m.configuration]

def properties (m : Metadata) : Properties := .ofDict m.configuration

end Metadata

end TableLog
