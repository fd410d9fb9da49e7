import TableLog.Committer
import TableLog.Location.Reader
import TableLog.Proofs.Json.Printed
import TableLog.Proofs.Json.Fields
import TableLog.Proofs.Encoding
import TableLog.Proofs.Stream
import TableLog.Proofs.CommitName
import TableLog.Proofs.CommitPath
import TableLog.Proofs.FileSystem
import TableLog.Proofs.Log
import TableLog.Proofs.Committer
import TableLog.Proofs.RowTracking
import TableLog.Proofs.Transaction
import TableLog.Proofs.Effect
import TableLog.Proofs.Session
import TableLog.Proofs.RowIds
import TableLog.Proofs.Writers
import TableLog.Proofs.Readers
import TableLog.Proofs.Atomicity
import TableLog.Proofs.Rollback
import TableLog.Proofs.Json.Order
import TableLog.Proofs.Spelling
import TableLog.Proofs.CommitFile
import TableLog.Proofs.Passes
import TableLog.Proofs.Composition
import TableLog.Proofs.Conformance
import TableLog.Proofs.Exhaustion
import TableLog.Proofs.Assignment
import TableLog.Proofs.Recount
import TableLog.Proofs.Loading
import TableLog.Proofs.Verdict
import TableLog.Proofs.Replay
import TableLog.Proofs.Traffic
import TableLog.Proofs.Streaming
import TableLog.Proofs.Openings
import TableLog.Proofs.Readings
import TableLog.Proofs.Reassignment
import TableLog.Proofs.Independence
import TableLog.Proofs.TornFile
import TableLog.Proofs.Json.Layout
import TableLog.Proofs.Tolerance
import TableLog.Proofs.Properties
import TableLog.Proofs.Failures
import TableLog.Proofs.SystemDomains
