namespace TableLog

inductive Error
  | generic (detail : String)
  | internal (detail : String)
  | malformedJson
  | fileSystem
  | invalidUrl
  | invalidLogPath (detail : String)
  | unsupported (detail : String)
  | invalidProtocol (detail : String)
  | missingData (detail : String)
  | missingStatistics (path : String)
  | overflow (detail : String)
  deriving DecidableEq, Repr

abbrev Outcome := Except Error

instance {α : Type} [DecidableEq α] : DecidableEq (Outcome α)
  | .ok a, .ok b => decidable_of_iff (a = b) (by simp)
  | .error e, .error f => decidable_of_iff (e = f) (by simp)
  | .ok _, .error _ => isFalse nofun
  | .error _, .ok _ => isFalse nofun

namespace Error

/-- Failures whose details come from outside have no wording of their own. -/
def message : Error → Option String
  | .generic d => some s!"Generic delta kernel error: {d}"
  | .internal d => some s!"Internal error {d}. This is a kernel bug, please report."
  | .malformedJson | .fileSystem | .invalidUrl => none
  | .invalidLogPath d => some s!"Invalid log path: {d}"
  | .unsupported d => some s!"Unsupported: {d}"
  | .invalidProtocol d => some s!"Invalid protocol action: {d}"
  | .missingData d => some s!"Missing data: {d}"
  | .missingStatistics p =>
    some s!"numRecords must be present in Add actions when row tracking is enabled (path: {p})"
  | .overflow d => some s!"Integer overflow: {d}"

end Error

end TableLog
