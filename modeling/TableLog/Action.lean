import TableLog.DataFile
import TableLog.Domain
import TableLog.Metadata
import TableLog.Protocol
import TableLog.Provenance

namespace TableLog

inductive Action
  | add (a : Add)
  | remove (r : Remove)
  | metadata (m : Metadata)
  | protocol (p : Protocol)
  | domainMetadata (d : DomainMetadata)
  | commitInfo (c : CommitInfo)
  | appVersion (a : AppVersion)
  deriving DecidableEq, Repr

namespace Action

def kind : Action → String
  | add _ => "add"
  | remove _ => "remove"
  | metadata _ => "metaData"
  | protocol _ => "protocol"
  | domainMetadata _ => "domainMetadata"
  | commitInfo _ => "commitInfo"
  | appVersion _ => "txn"

def payload : Action → Json
  | add a => a.toJson
  | remove r => r.toJson
  | metadata m => m.toJson
  | protocol p => p.toJson
  | domainMetadata d => d.toJson
  | commitInfo c => c.toJson
  | appVersion a => a.toJson

def ofPayload? (kind : String) (v : Json) : Option Action :=
  match kind with
  | "add" => (Add.ofJson? v).map add
  | "remove" => (Remove.ofJson? v).map remove
  | "metaData" => (Metadata.ofJson? v).map metadata
  | "protocol" => (Protocol.ofJson? v).map protocol
  | "domainMetadata" => (DomainMetadata.ofJson? v).map domainMetadata
  | "commitInfo" => (CommitInfo.ofJson? v).map commitInfo
  | "txn" => (AppVersion.ofJson? v).map appVersion
  | _ => none

def toJson (a : Action) : Json := .object [(Piece.ofText a.kind, a.payload)]

def ofJson? : Json → Option Action
  | .object [(k, v)] => (Piece.text? k).bind fun kind ↦ ofPayload? kind v
  | _ => none

/-- One line of a commit file, without its end. -/
def line (a : Action) : Bytes := a.toJson.render

def parse (text : Bytes) : Outcome Action :=
  match (Json.parse? text).bind ofJson? with
  | some a => .ok a
  | none => .error .malformedJson

end Action

/-- A commit file: each action on a line of its own. -/
def writeActions (as : List Action) : Bytes := as.flatMap fun a ↦ a.line ++ [0x0A]

/-- Reads actions up to the end or the first thing that is none.
Blanks between actions do not matter. -/
def readActionsWith (steps : Nat) : Nat → Bytes → List (Outcome Action)
  | 0, _ => []
  | n + 1, bs =>
    if Json.skipSpace bs = [] then []
    else
      match Json.readValue steps bs with
      | none => [.error .malformedJson]
      | some (v, r) =>
        match Action.ofJson? v with
        | none => [.error .malformedJson]
        | some a => .ok a :: readActionsWith steps n r

def readActions (bs : Bytes) : List (Outcome Action) :=
  readActionsWith (Json.steps bs) (bs.length + 1) bs

end TableLog
