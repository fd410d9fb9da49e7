import TableLog.Json.Record

namespace TableLog

inductive Feature
  | appendOnly
  | invariants
  | changeDataFeed
  | inCommitTimestamp
  | rowTracking
  | domainMetadata
  | clustering
  | columnMapping
  | deletionVectors
  | v2Checkpoint
  | unknown (name : String)
  deriving DecidableEq, Repr

/-- Whom a feature binds. -/
inductive Audience
  | writer
  | readerWriter
  | unknown
  deriving DecidableEq, Repr

namespace Feature

def known : List Feature :=
  [appendOnly, invariants, changeDataFeed, inCommitTimestamp, rowTracking, domainMetadata,
    clustering, columnMapping, deletionVectors, v2Checkpoint]

def name : Feature → String
  | appendOnly => "appendOnly"
  | invariants => "invariants"
  | changeDataFeed => "changeDataFeed"
  | inCommitTimestamp => "inCommitTimestamp"
  | rowTracking => "rowTracking"
  | domainMetadata => "domainMetadata"
  | clustering => "clustering"
  | columnMapping => "columnMapping"
  | deletionVectors => "deletionVectors"
  | v2Checkpoint => "v2Checkpoint"
  | unknown n => n

def label : Feature → String
  | unknown _ => "unknown"
  | f => f.name

def named? (n : String) : Option Feature := known.find? (·.name = n)

def ofName (n : String) : Feature := (named? n).getD (unknown n)

def isUnknown : Feature → Bool
  | unknown _ => true
  | _ => false

def audience : Feature → Audience
  | columnMapping | deletionVectors | v2Checkpoint => .readerWriter
  | unknown _ => .unknown
  | _ => .writer

/-- Invariants are never checked and in-commit timestamps never written. -/
def writable : Feature → Bool
  | invariants | inCommitTimestamp | unknown _ => false
  | _ => true

/-- A feature is a string; a known one may also be the key of an object that holds null. -/
def ofJson? : Json → Option Feature
  | .string ps => (Piece.text? ps).map ofName
  | .object [(k, .null)] => (Piece.text? k).bind named?
  | _ => none

def toJson (f : Feature) : Json := .ofText f.name

/-- A feature that its name leads back to: not an unknown feature with the name of a known one. -/
def Canonical (f : Feature) : Prop := ofName f.name = f

instance (f : Feature) : Decidable f.Canonical := inferInstanceAs (Decidable (_ = _))

theorem canonical_of_known {f : Feature} (h : f.isUnknown = false) : f.Canonical := by
  cases f with
  | unknown n => cases h
  | _ => rfl

end Feature

end TableLog
