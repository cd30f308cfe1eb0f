import Trivalent.Ascending
import Trivalent.CheckError
import Trivalent.CommandLine.Arguments
import Trivalent.CommandLine.Run
import Trivalent.CommandLine.Switch
import Trivalent.Configuration
import Trivalent.Decimal.Binary
import Trivalent.Decimal.Shortest
import Trivalent.Diagnostic
import Trivalent.Encoding.State
import Trivalent.Encoding.Template
import Trivalent.Encoding.Term
import Trivalent.Event
import Trivalent.Expr.Basic
import Trivalent.Expr.Kleene
import Trivalent.Expr.Parser
import Trivalent.Expr.Printer
import Trivalent.Expr.Weight
import Trivalent.Feedback
import Trivalent.FileName
import Trivalent.Formula.Atom
import Trivalent.Formula.Basic
import Trivalent.Formula.Printer
import Trivalent.Grammar.Input
import Trivalent.Grammar.Rule
import Trivalent.Json.Container
import Trivalent.Json.Document
import Trivalent.Json.Problem
import Trivalent.Json.Reader
import Trivalent.Json.Skip
import Trivalent.Json.Value
import Trivalent.Loop
import Trivalent.Main
import Trivalent.ModelFile.Layout
import Trivalent.ModelFile.Loader
import Trivalent.NameTable
import Trivalent.Proofs.Encoding.Instance
import Trivalent.Proofs.Encoding.Kleene
import Trivalent.Proofs.Encoding.Location
import Trivalent.Proofs.Encoding.State
import Trivalent.Proofs.Encoding.Template
import Trivalent.Proofs.Encoding.Term
import Trivalent.Proofs.Encoding.Update
import Trivalent.Proofs.Expr.Carrying
import Trivalent.Proofs.Expr.Folding
import Trivalent.Proofs.Expr.Normal
import Trivalent.Proofs.Expr.Operands
import Trivalent.Proofs.Expr.Parsing
import Trivalent.Proofs.Expr.Reading
import Trivalent.Proofs.Expr.Spelling
import Trivalent.Proofs.Expr.Terms
import Trivalent.Proofs.Expr.Words
import Trivalent.Proofs.Expr.Writing
import Trivalent.Proofs.Formula.Built
import Trivalent.Proofs.Formula.Denotation
import Trivalent.Proofs.Formula.Evaluation
import Trivalent.Proofs.Formula.Names
import Trivalent.Proofs.Formula.Occurrence
import Trivalent.Proofs.Formula.Operations
import Trivalent.Proofs.Formula.Truth
import Trivalent.Proofs.Formula.Writing
import Trivalent.Proofs.Grammar.Reading
import Trivalent.Proofs.Json.Ensured
import Trivalent.Proofs.Json.Equality
import Trivalent.Proofs.Json.Nesting
import Trivalent.Proofs.ModelFile.Conventions
import Trivalent.Proofs.ModelFile.Draft
import Trivalent.Proofs.ModelFile.Failures
import Trivalent.Proofs.ModelFile.Interchange
import Trivalent.Proofs.ModelFile.Parts
import Trivalent.Proofs.ModelFile.Reading
import Trivalent.Proofs.ModelFile.Unknown
import Trivalent.Proofs.ModelFile.WellFormed
import Trivalent.Proofs.Refinement.Candidate
import Trivalent.Proofs.Refinement.Certain
import Trivalent.Proofs.Refinement.Evaluation
import Trivalent.Proofs.Refinement.Exclusion
import Trivalent.Proofs.Refinement.Independence
import Trivalent.Proofs.Refinement.Lockstep
import Trivalent.Proofs.Refinement.Loops
import Trivalent.Proofs.Refinement.Paths
import Trivalent.Proofs.Refinement.Reflexive
import Trivalent.Proofs.Refinement.Round
import Trivalent.Proofs.Refinement.Rounds
import Trivalent.Proofs.Refinement.Soundness
import Trivalent.Proofs.Refinement.Targets
import Trivalent.Proofs.Refinement.Termination
import Trivalent.Proofs.Sat.Answering
import Trivalent.Proofs.Sat.Correct
import Trivalent.Proofs.Sat.Incremental
import Trivalent.Proofs.Sat.Preferring
import Trivalent.Proofs.Sat.Requests
import Trivalent.Proofs.Sat.Tseytin
import Trivalent.Proofs.Search.Action
import Trivalent.Proofs.Search.Called
import Trivalent.Proofs.Search.Certain
import Trivalent.Proofs.Search.Confined
import Trivalent.Proofs.Search.Continued
import Trivalent.Proofs.Search.Counted
import Trivalent.Proofs.Search.Definite
import Trivalent.Proofs.Search.Exact
import Trivalent.Proofs.Search.Inquiries
import Trivalent.Proofs.Search.Interrupted
import Trivalent.Proofs.Search.Kept
import Trivalent.Proofs.Search.Logged
import Trivalent.Proofs.Search.Query
import Trivalent.Proofs.Search.Reached
import Trivalent.Proofs.Search.Recorded
import Trivalent.Proofs.Search.Repeated
import Trivalent.Proofs.Search.Reported
import Trivalent.Proofs.Search.Resumed
import Trivalent.Proofs.Search.Shown
import Trivalent.Proofs.Search.Single
import Trivalent.Proofs.Search.Sweep
import Trivalent.Proofs.Semantics.Carrying
import Trivalent.Proofs.Semantics.Information
import Trivalent.Proofs.Semantics.Known
import Trivalent.Proofs.Semantics.Repetition
import Trivalent.Proofs.Semantics.Run
import Trivalent.Proofs.Semantics.Term
import Trivalent.Proofs.System.Accepted
import Trivalent.Proofs.System.Declared
import Trivalent.Proofs.System.Equality
import Trivalent.Proofs.System.Predicates
import Trivalent.Proofs.System.Printing
import Trivalent.Proofs.System.Referring
import Trivalent.Proofs.Task.Basic
import Trivalent.Proofs.Task.Enabled
import Trivalent.Proofs.Task.Faultless
import Trivalent.Proofs.Task.Formulas
import Trivalent.Proofs.Task.History
import Trivalent.Proofs.Task.Interleaving
import Trivalent.Proofs.Task.Lassos
import Trivalent.Proofs.Task.Optimistic
import Trivalent.Proofs.Task.Range
import Trivalent.Proofs.Task.Registers
import Trivalent.Proofs.Task.Remembering
import Trivalent.Proofs.Task.Simulation
import Trivalent.Proofs.Task.Steps
import Trivalent.Proofs.Task.Unrolling
import Trivalent.Proofs.Task.Violations
import Trivalent.Proofs.Timing.Report
import Trivalent.Proofs.Witness.Built
import Trivalent.Proofs.Witness.Path
import Trivalent.Proofs.Witness.Pattern
import Trivalent.Proofs.Witness.Pinned
import Trivalent.Proofs.Witness.Shown
import Trivalent.Refinement
import Trivalent.Report
import Trivalent.Sat.Code
import Trivalent.Sat.FirstModel
import Trivalent.Sat.Incremental
import Trivalent.Sat.Learning
import Trivalent.Sat.Propagation
import Trivalent.Sat.Ranking
import Trivalent.Sat.Solver
import Trivalent.Sat.Trail
import Trivalent.Sat.Tseytin
import Trivalent.Search.Action
import Trivalent.Search.Basic
import Trivalent.Status
import Trivalent.System.Basic
import Trivalent.System.Printer
import Trivalent.Task
import Trivalent.Term
import Trivalent.Text.Blank
import Trivalent.Text.Bytes
import Trivalent.Text.Extender
import Trivalent.Text.Numeral
import Trivalent.Text.Printable
import Trivalent.Text.Quoted
import Trivalent.Text.Ranges
import Trivalent.Text.Split
import Trivalent.Text.Width
import Trivalent.Timing
import Trivalent.Verdict
import Trivalent.Witness
import Trivalent.Word
