import TableLog.Json.Record

namespace TableLog

structure DomainMetadata where
  domain : String
  configuration : String
  removed : Bool
  deriving DecidableEq, Repr

def isSystemDomain (domain : String) : Bool := "delta.".toList.isPrefixOf domain.toList

namespace DomainMetadata

def fields : List String := ["domain", "configuration", "removed"]

def ofJson? (v : Json) : Option DomainMetadata := do
  let r ← Record.ofJson? fields v
  let domain ← r.required "domain" Json.text?
  let configuration ← r.required "configuration" Json.text?
  let removed ← r.required "removed" Json.bool?
  pure { domain, configuration, removed }

def toJson (d : DomainMetadata) : Json :=
  .record [.text "domain" d.domain, .text "configuration" d.configuration,
    .bool "removed" d.removed]

def set (domain configuration : String) : DomainMetadata := ⟨domain, configuration, false⟩

/-- A tombstone keeps the configuration it ends. -/
def remove (domain configuration : String) : DomainMetadata := ⟨domain, configuration, true⟩

def isSystem (d : DomainMetadata) : Bool := isSystemDomain d.domain

end DomainMetadata

/-- The highest row id that the table has given out. -/
structure HighWaterMark where
  rowId : Int64
  deriving DecidableEq, Repr

namespace HighWaterMark

def domain : String := "delta.rowTracking"

/-- The mark of a table that never gave out a row id. -/
def missing : Int64 := -1

def decode? (configuration : String) : Option HighWaterMark := do
  let v ← Json.parse? (utf8 configuration)
  let r ← Record.ofJson? ["rowIdHighWaterMark"] v
  let rowId ← r.required "rowIdHighWaterMark" Json.int64?
  pure { rowId }

def encode (m : HighWaterMark) : String :=
  (ofUtf8? (Json.record [.long "rowIdHighWaterMark" m.rowId]).render).getD ""

def toDomain (m : HighWaterMark) : DomainMetadata := .set domain m.encode

end HighWaterMark

structure Clustering where
  columns : List (List String)
  deriving DecidableEq, Repr

namespace Clustering

def domain : String := "delta.clustering"

def decode? (configuration : String) : Option Clustering := do
  let v ← Json.parse? (utf8 configuration)
  let r ← Record.ofJson? ["clusteringColumns"] v
  let columns ← r.required "clusteringColumns" (Json.list? (Json.list? Json.text?))
  pure { columns }

def encode (c : Clustering) : String :=
  (ofUtf8? (Json.record
    [.value "clusteringColumns"
      (.array (c.columns.map fun p ↦ .array (p.map .ofText)))]).render).getD ""

def toDomain (c : Clustering) : DomainMetadata := .set domain c.encode

end Clustering

end TableLog
