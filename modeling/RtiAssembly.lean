import RtiAssembly.Assembly.Constraints
import RtiAssembly.Assembly.Horizon
import RtiAssembly.Assembly.NodeInput
import RtiAssembly.Assembly.Objective
import RtiAssembly.Assembly.Phases
import RtiAssembly.CommandLine
import RtiAssembly.Description.Basic
import RtiAssembly.Description.Canonical
import RtiAssembly.Description.Reading
import RtiAssembly.Diagnostic
import RtiAssembly.Digest
import RtiAssembly.Directory
import RtiAssembly.Emission.Files
import RtiAssembly.Emission.Header
import RtiAssembly.Emission.Instruction
import RtiAssembly.Emission.Lowering
import RtiAssembly.Emission.Names
import RtiAssembly.Emission.Source
import RtiAssembly.Emission.Term
import RtiAssembly.Emission.Usage
import RtiAssembly.Generation.Pass
import RtiAssembly.Generation.Session
import RtiAssembly.Identifier
import RtiAssembly.Json.Mismatch
import RtiAssembly.Json.Reading
import RtiAssembly.Json.Record
import RtiAssembly.Json.Text
import RtiAssembly.Json.Token
import RtiAssembly.Json.Tree
import RtiAssembly.Machine.Execution
import RtiAssembly.Machine.Fault
import RtiAssembly.Machine.Frame
import RtiAssembly.Machine.Memory
import RtiAssembly.Machine.Run
import RtiAssembly.Main
import RtiAssembly.Matrix
import RtiAssembly.NodeMap
import RtiAssembly.Number.Double
import RtiAssembly.Number.Numeral
import RtiAssembly.Number.Rounding
import RtiAssembly.Number.Scalar
import RtiAssembly.Number.Shortest
import RtiAssembly.Number.Spelling
import RtiAssembly.Problem.Basic
import RtiAssembly.Problem.Validation
import RtiAssembly.Program.Basic
import RtiAssembly.Program.Certificate
import RtiAssembly.Program.Listing
import RtiAssembly.Provenance
import RtiAssembly.Quotation
import RtiAssembly.Routine.Basic
import RtiAssembly.Routine.Declaration
import RtiAssembly.Routine.Expr
import RtiAssembly.Routine.Index
import RtiAssembly.Routine.Listing
import RtiAssembly.Routine.Sweep
import RtiAssembly.Routine.Window
import RtiAssembly.Storage.Blocks
import RtiAssembly.Storage.Listing
import RtiAssembly.Storage.Plan
import RtiAssembly.Storage.Quantity
import RtiAssembly.Storage.Table
import RtiAssembly.Text.Printable
import RtiAssembly.Text.UpperCase
import RtiAssembly.Proofs.Problem.WellFormed
import RtiAssembly.Proofs.Storage.Plan
import RtiAssembly.Proofs.Program.Fitting
import RtiAssembly.Proofs.Assembly.Objective
import RtiAssembly.Proofs.Problem.Rows
import RtiAssembly.Proofs.Assembly.Constraints
import RtiAssembly.Proofs.Assembly.Horizon
import RtiAssembly.Proofs.Assembly.Phases
import RtiAssembly.Proofs.Program.Certified
import RtiAssembly.Proofs.Program.Calls
import RtiAssembly.Proofs.Generation.History
import RtiAssembly.Proofs.Generation.Session
import RtiAssembly.Proofs.Machine.Effect
import RtiAssembly.Proofs.Machine.Safety
import RtiAssembly.Proofs.Machine.Correctness
import RtiAssembly.Proofs.Machine.Recording
import RtiAssembly.Proofs.Machine.Cells
import RtiAssembly.Proofs.Machine.OwnArrays
import RtiAssembly.Proofs.Machine.Transposition
import RtiAssembly.Proofs.Program.Safe
import RtiAssembly.Proofs.Program.Faultless
import RtiAssembly.Proofs.Storage.Windows
import RtiAssembly.Proofs.Storage.Contents
import RtiAssembly.Proofs.Program.Steps
import RtiAssembly.Proofs.Solver.Blocks
import RtiAssembly.Proofs.Solver.Nodes
import RtiAssembly.Proofs.Solver.Objective
import RtiAssembly.Proofs.Solver.Constraints
import RtiAssembly.Proofs.Number.Laws
import RtiAssembly.Proofs.Problem.Bounds
import RtiAssembly.Proofs.Solver.Initialization
import RtiAssembly.Proofs.Solver.Preparation
import RtiAssembly.Proofs.Solver.Hessian
import RtiAssembly.Proofs.Solver.AffineBounds
import RtiAssembly.Proofs.Problem.Given
import RtiAssembly.Proofs.Solver.Gradient
import RtiAssembly.Proofs.Solver.Feedback
import RtiAssembly.Proofs.Solver.FeedbackStep
import RtiAssembly.Proofs.Program.Soundness
import RtiAssembly.Proofs.Number.Exact
import RtiAssembly.Proofs.Emission.Semantics
import RtiAssembly.Proofs.Emission.Terms
import RtiAssembly.Proofs.Emission.Stores
import RtiAssembly.Proofs.Emission.Assignments
import RtiAssembly.Proofs.Emission.Orderly
import RtiAssembly.Proofs.Emission.Following
import RtiAssembly.Proofs.Emission.Calling
import RtiAssembly.Proofs.Emission.Functions
import RtiAssembly.Proofs.Emission.Quantities
import RtiAssembly.Proofs.Emission.NamedArrays
import RtiAssembly.Proofs.Emission.Objective
import RtiAssembly.Proofs.Emission.Constraints
import RtiAssembly.Proofs.Emission.Solver
import RtiAssembly.Proofs.Emission.FileScope
import RtiAssembly.Proofs.Problem.Acceptance
import RtiAssembly.Proofs.Json.Scanning
import RtiAssembly.Proofs.Json.Documents
import RtiAssembly.Proofs.Number.Numerals
import RtiAssembly.Proofs.Json.Records
import RtiAssembly.Proofs.Json.Conditions
import RtiAssembly.Proofs.Json.Arrangement
import RtiAssembly.Proofs.Json.NodeKeys
import RtiAssembly.Proofs.Description.RoundTrip
import RtiAssembly.Proofs.Description.Representable
import RtiAssembly.Proofs.Description.Arrangement
import RtiAssembly.Proofs.Machine.Writes
import RtiAssembly.Proofs.Machine.Untouched
import RtiAssembly.Proofs.Program.Targets
import RtiAssembly.Proofs.Solver.StateBlocks
import RtiAssembly.Proofs.Solver.Requests
import RtiAssembly.Proofs.Solver.AnyHost
import RtiAssembly.Proofs.Solver.ArrivalCost
import RtiAssembly.Proofs.Program.Ownership
import RtiAssembly.Proofs.Solver.ControlLoop
import RtiAssembly.Proofs.Program.Extremes
import RtiAssembly.Proofs.Program.Descent
import RtiAssembly.Proofs.Problem.BoxBounds
import RtiAssembly.Proofs.Solver.BoxBounds
import RtiAssembly.Proofs.Emission.Grammar
import RtiAssembly.Proofs.Emission.ReadingBack
import RtiAssembly.Proofs.Emission.Elements
import RtiAssembly.Proofs.Solver.KnownState
import RtiAssembly.Proofs.Solver.Accumulation
import RtiAssembly.Proofs.Solver.Optimality
import RtiAssembly.Proofs.Machine.Unread
import RtiAssembly.Proofs.Program.Readers
import RtiAssembly.Proofs.Solver.Inspection
import RtiAssembly.Proofs.Solver.Simulation
import RtiAssembly.Proofs.Solver.Shifts
import RtiAssembly.Proofs.Emission.ConstantParameters
import RtiAssembly.Proofs.Emission.DefinedConstants
import RtiAssembly.Proofs.Emission.Overlaps
