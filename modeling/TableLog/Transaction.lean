import TableLog.Log

namespace TableLog

structure Transaction where
  snapshot : Snapshot
  timestamp : Int64
  operation : Option String := none
  engineInfo : Option String := none
  added : List Source := []
  removed : List Remove := []
  appVersions : List AppVersion := []
  domainsSet : List DomainMetadata := []
  domainsRemoved : List String := []

/-- A commit to be made: the directory of the log, the version, and
the actions, not yet traversed. -/
structure Proposal where
  log : Location
  version : Version
  timestamp : Int64
  actions : Trace

/-- What came of an attempt, and the traffic of its traversals. -/
structure Attempt (α : Type) where
  traffic : Trace := []
  result : Outcome α

namespace Transaction

def start (s : Snapshot) (timestamp : Int64) : Outcome Transaction := do
  s.configuration.protocol.checkWritable
  pure { snapshot := s, timestamp }

variable (t : Transaction)

def withOperation (operation : String) : Transaction := { t with operation := some operation }

def withEngineInfo (engineInfo : String) : Transaction := { t with engineInfo := some engineInfo }

def withAppVersion (appId : String) (version : Int64) : Transaction :=
  { t with appVersions := t.appVersions ++ [{ appId, version, lastUpdated := some t.timestamp }] }

def setDomain (domain configuration : String) : Transaction :=
  { t with domainsSet := t.domainsSet ++ [.set domain configuration] }

def removeDomain (domain : String) : Transaction :=
  { t with domainsRemoved := t.domainsRemoved ++ [domain] }

def addFiles (s : Source) : Transaction := { t with added := t.added ++ [s] }

def removeFiles (rs : List Remove) : Transaction := { t with removed := t.removed ++ rs }

def describe : String :=
  "Transaction \x7b read_snapshot version: " ++ toString t.snapshot.version ++ ", engine_info: " ++
    toString t.engineInfo.isSome ++ " \x7d"

def firstRepeated (seen : List String) : List String → Option String
  | [] => none
  | x :: r => if seen.contains x then some x else firstRepeated (x :: seen) r

def checkAppVersions : Outcome Unit :=
  match firstRepeated [] (t.appVersions.map (·.appId)) with
  | some appId => .error (.generic s!"app_id {appId} already exists in transaction")
  | none => .ok ()

def checkRemovals : Outcome Unit :=
  if t.removed ≠ [] ∧ t.snapshot.configuration.appendOnly then
    .error (.unsupported "Cannot remove files from an append-only table (delta.appendOnly = true)")
  else .ok ()

def checkDomains (seen : List String) : List String → Outcome Unit
  | [] => .ok ()
  | d :: r =>
    if isSystemDomain d then
      .error (.generic
        "Cannot modify domains that start with \x27delta.\x27 as those are system controlled")
    else if seen.contains d then
      .error (.generic s!"Metadata for domain {d} already specified in this transaction")
    else checkDomains (d :: seen) r

def tombstone? (domain : String) : Option DomainMetadata :=
  (t.snapshot.domains.get? domain).map (DomainMetadata.remove domain)

def userDomains : Outcome (List DomainMetadata) :=
  if t.domainsSet = [] ∧ t.domainsRemoved = [] then .ok []
  else if t.snapshot.configuration.domainMetadataSupported then do
    checkDomains [] (t.domainsSet.map (·.domain) ++ t.domainsRemoved)
    pure (t.domainsSet ++ t.domainsRemoved.filterMap t.tombstone?)
  else
    .error (.unsupported ("Domain metadata operations require writer version 7 and the " ++
      "\x27domainMetadata\x27 writer feature"))

/-- Adding data and removing data in one commit would take change data
files, which are never written. -/
def rejectsDataChange : Bool :=
  t.snapshot.configuration.changeDataFeed && t.removed.any (·.dataChange)

def checkStaged : Action → Outcome Action
  | .add a =>
    if t.rejectsDataChange && a.dataChange then
      .error (.generic (
        "Cannot add and remove data in the same transaction when Change Data Feed is enabled " ++
          "(delta.enableChangeDataFeed = true). Adding " ++ a.path ++
          " would require writing CDC files, which is not supported. " ++
          "Use separate transactions to add and remove files."))
    else .ok (.add a)
  | x =>
    .error (.generic s!"Only add actions can be staged with add_files, found a {x.kind} action")

def files (turn : Nat) : Opening where
  result := .ok (
    (Trace.closed (Source.traverseEach turn t.added)).mapItems (·.bind t.checkStaged) ++
      Trace.ofActions (t.removed.map .remove))

def stream (txnId : String) (domains : List DomainMetadata) (files : Trace) : Trace :=
  .item (.ok (.commitInfo (.new t.timestamp t.operation t.engineInfo txnId))) ::
    Trace.closed files ++
    Trace.ofActions (t.appVersions.map .appVersion ++ domains.map .domainMetadata)

def commitVersion : Outcome Version :=
  match t.snapshot.version.next? with
  | none => .error (.overflow "Table version exceeds u64")
  | some v => .ok v

/-- The checks that no traversal is needed for: the commit's version,
its domains and its row tracking. -/
def prepare : Outcome (Version × List DomainMetadata × RowTracking) := do
  let version ← t.commitVersion
  t.checkAppVersions
  t.checkRemovals
  let domains ← t.userDomains
  let tracking ← RowTracking.make t.snapshot.configuration.writesRowTracking t.snapshot version
  pure (version, domains, tracking)

/-- The commit of all that is staged. The high water mark is recomputed before anything is
committed, so a failure of it leaves nothing behind. -/
def propose (txnId : String) : Attempt Proposal :=
  match t.prepare with
  | .error e => { result := .error e }
  | .ok (version, domains, tracking) =>
    -- a turn only names the pass: the write is turn 1 also where the recomputation reads nothing
    let (traffic, mark) := tracking.update (t.files 0)
    match mark with
    | .error e => { traffic, result := .error e }
    | .ok mark =>
      let o := tracking.wrap (t.files 1)
      match o.result with
      | .error e => { traffic := traffic ++ o.start, result := .error e }
      | .ok body =>
        match Log.directory t.snapshot.root with
        | .error e => { traffic := traffic ++ Trace.closed o.start, result := .error e }
        | .ok log =>
          { traffic
            result := .ok
              { log, version, timestamp := t.timestamp
                actions := t.stream txnId (domains ++ mark.toList) (o.start ++ body) } }

end Transaction

end TableLog
