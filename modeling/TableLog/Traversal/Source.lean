import TableLog.FileSystem
import TableLog.RowTracking

namespace TableLog

/-- Where actions come from. A source can be traversed any number of
times, each time at some turn. -/
inductive Source
  /-- Actions at hand. -/
  | actions (as : List Action)
  /-- A file of actions, or what else is where the file should be. -/
  | file (found : Option Node)
  /-- Whatever each turn of asking gives. -/
  | turns (ask : Nat → Outcome (List (Outcome Action)))
  /-- Holds a tag while its inner source is open. -/
  | tagged (tag : String) (inner : Source)
  | chain (members : List Source)
  | rowTracking (tracking : RowTracking) (inner : Source)

namespace Source

/-- Reading a directory as a file fails at the first item. -/
def openFile : Option Node → Opening
  | none => { result := .error .fileSystem }
  | some .directory => { result := .ok [.item (.error .malformedJson)] }
  | some (.file bs) => { result := .ok (Trace.ofItems (readActions bs)) }

def openTagged (tag : String) (o : Opening) : Opening :=
  match o.result with
  | .ok t => { start := o.start ++ [.acquired tag], result := .ok t }
  | .error e => { start := o.start, result := .error e }

mutual

def traverse (turn : Nat) : Source → Opening
  | actions as => { result := .ok (Trace.ofActions as) }
  | file found => openFile found
  | turns ask => { result := (ask turn).map Trace.ofItems }
  | tagged tag inner => openTagged tag (traverse turn inner)
  | chain members => { result := .ok (traverseEach turn members) }
  | rowTracking w inner => w.wrap (traverse turn inner)

/-- One after the other. Each is opened only when the one before it has ended and is released. -/
def traverseEach (turn : Nat) : List Source → Trace
  | [] => []
  | s :: r => (traverse turn s).inline ++ traverseEach turn r

end

def describeChain (members : List Source) : String :=
  "ChainedActionSource \x7b num_sources: " ++ toString members.length ++ " \x7d"

end Source

end TableLog
