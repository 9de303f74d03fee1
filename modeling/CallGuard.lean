import CallGuard.Config
import CallGuard.Engine
import CallGuard.Json.Basic
import CallGuard.Value.OfJson
import CallGuard.Value.Printer
import CallGuard.Proofs.Lists
import CallGuard.Proofs.Ancestry
import CallGuard.Proofs.Execution
import CallGuard.Proofs.Matching
import CallGuard.Proofs.Enforcement
import CallGuard.Proofs.Currying
import CallGuard.Proofs.Defaults
import CallGuard.Proofs.Declarations
import CallGuard.Proofs.Counts
import CallGuard.Proofs.Grammar
import CallGuard.Proofs.Reading
import CallGuard.Proofs.Recognition
import CallGuard.Proofs.RoundTrip
import CallGuard.Proofs.Extent
import CallGuard.Proofs.TypeReference
import CallGuard.Proofs.Subtyping
import CallGuard.Proofs.UnionOrder
import CallGuard.Proofs.Shape
import CallGuard.Proofs.Classification
import CallGuard.Proofs.Resolution
import CallGuard.Proofs.Cycles
import CallGuard.Proofs.Reach
import CallGuard.Proofs.EagerReading
import CallGuard.Proofs.Unions
import CallGuard.Proofs.NormalForm
import CallGuard.Proofs.Grouping
import CallGuard.Proofs.ClassContracts
import CallGuard.Proofs.Renaming
import CallGuard.Proofs.Runs
import CallGuard.Proofs.Receiver
import CallGuard.Proofs.Access
import CallGuard.Proofs.Rewrapping
import CallGuard.Proofs.Hierarchy
import CallGuard.Proofs.Lookup
import CallGuard.Proofs.Stopping
import CallGuard.Proofs.Positions
import CallGuard.Proofs.Holding
import CallGuard.Proofs.Sessions
import CallGuard.Proofs.Freshness
