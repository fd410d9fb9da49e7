import TableLog.Error
import TableLog.Feature

namespace TableLog

structure Protocol where
  readerVersion : Int32
  writerVersion : Int32
  readerFeatures : Option (List Feature) := none
  writerFeatures : Option (List Feature) := none
  deriving DecidableEq, Repr

namespace Protocol

def fields : List String :=
  ["minReaderVersion", "minWriterVersion", "readerFeatures", "writerFeatures"]

def ofJson? (v : Json) : Option Protocol := do
  let r ← Record.ofJson? fields v
  let readerVersion ← r.required "minReaderVersion" Json.int32?
  let writerVersion ← r.required "minWriterVersion" Json.int32?
  let readerFeatures ← r.optional "readerFeatures" (Json.list? Feature.ofJson?)
  let writerFeatures ← r.optional "writerFeatures" (Json.list? Feature.ofJson?)
  pure { readerVersion, writerVersion, readerFeatures, writerFeatures }

def features (name : String) (fs : List Feature) : Member :=
  .value name (.array (fs.map Feature.toJson))

def toJson (p : Protocol) : Json :=
  .record [.value "minReaderVersion" (.ofInt p.readerVersion.toInt),
    .value "minWriterVersion" (.ofInt p.writerVersion.toInt),
    .optional features "readerFeatures" p.readerFeatures,
    .optional features "writerFeatures" p.writerFeatures]

/-- Feature lists belong to reader version 3 and writer version 7, and to no other. -/
def validate (p : Protocol) : Outcome Unit :=
  if (p.readerVersion == 3) != p.readerFeatures.isSome then
    .error (.invalidProtocol "Reader features must be present iff minReaderVersion is 3")
  else if (p.writerVersion == 7) != p.writerFeatures.isSome then
    .error (.invalidProtocol "Writer features must be present iff minWriterVersion is 7")
  else .ok ()

def make (readerVersion writerVersion : Int32)
    (readerFeatures writerFeatures : Option (List Feature)) :
    Outcome Protocol := do
  let p : Protocol := { readerVersion, writerVersion, readerFeatures, writerFeatures }
  p.validate
  pure p

def lists (p : Protocol) (f : Feature) : Bool :=
  (p.readerFeatures.getD []).contains f || (p.writerFeatures.getD []).contains f

def supportsRowTracking (p : Protocol) : Bool :=
  p.writerVersion == 7 && (p.writerFeatures.getD []).contains .rowTracking

/-- Row tracking keeps its high water mark as domain metadata, so it needs that feature too. -/
def checkWritable (p : Protocol) : Outcome Unit :=
  if p.writerVersion = 1 ∨ p.writerVersion = 2 then .ok ()
  else if p.writerVersion = 7 then
    let fs := p.writerFeatures.getD []
    match fs.find? (!·.writable) with
    | some f => .error (.unsupported s!"Unknown or unsupported writer feature: {f.name}")
    | none =>
      if fs.contains .rowTracking && !fs.contains .domainMetadata then
        .error (.invalidProtocol
          "The rowTracking writer feature requires the domainMetadata writer feature")
      else .ok ()
  else .error (.unsupported s!"Unsupported minimum writer version {p.writerVersion.toInt}")

end Protocol

end TableLog
