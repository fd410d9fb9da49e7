import TableLog.Json.Record

namespace TableLog

structure CommitInfo where
  timestamp : Option Int64 := none
  inCommitTimestamp : Option Int64 := none
  operation : Option String := none
  operationParameters : Option (Dict String) := none
  kernelVersion : Option String := none
  engineInfo : Option String := none
  txnId : Option String := none
  deriving DecidableEq, Repr

namespace CommitInfo

def fields : List String :=
  ["timestamp", "inCommitTimestamp", "operation", "operationParameters", "kernelVersion",
    "engineInfo", "txnId"]

def ofJson? (v : Json) : Option CommitInfo := do
  let r ← Record.ofJson? fields v
  let timestamp ← r.optional "timestamp" Json.int64?
  let inCommitTimestamp ← r.optional "inCommitTimestamp" Json.int64?
  let operation ← r.optional "operation" Json.text?
  let operationParameters ← r.optional "operationParameters" Json.dict?
  let kernelVersion ← r.optional "kernelVersion" Json.text?
  let engineInfo ← r.optional "engineInfo" Json.text?
  let txnId ← r.optional "txnId" Json.text?
  pure { timestamp, inCommitTimestamp, operation, operationParameters, kernelVersion, engineInfo,
         txnId }

def toJson (c : CommitInfo) : Json :=
  .record [.optional .long "timestamp" c.timestamp,
    .optional .long "inCommitTimestamp" c.inCommitTimestamp,
    .optional .text "operation" c.operation,
    .optional .dict "operationParameters" c.operationParameters,
    .optional .text "kernelVersion" c.kernelVersion, .optional .text "engineInfo" c.engineInfo,
    .optional .text "txnId" c.txnId]

def writerName : String := "v0.1.0"

def new (timestamp : Int64) (operation engineInfo : Option String) (txnId : String) :
    CommitInfo where
  timestamp := some timestamp
  operation := some (operation.getD "UNKNOWN")
  operationParameters := some .empty
  kernelVersion := some writerName
  engineInfo := engineInfo
  txnId := some txnId

end CommitInfo

structure AppVersion where
  appId : String
  version : Int64
  lastUpdated : Option Int64 := none
  deriving DecidableEq, Repr

namespace AppVersion

def fields : List String := ["appId", "version", "lastUpdated"]

def ofJson? (v : Json) : Option AppVersion := do
  let r ← Record.ofJson? fields v
  let appId ← r.required "appId" Json.text?
  let version ← r.required "version" Json.int64?
  let lastUpdated ← r.optional "lastUpdated" Json.int64?
  pure { appId, version, lastUpdated }

def toJson (a : AppVersion) : Json :=
  .record [.text "appId" a.appId, .long "version" a.version,
    .optional .long "lastUpdated" a.lastUpdated]

end AppVersion

end TableLog
