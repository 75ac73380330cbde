import Multilevel.CommandLine.Cell
import Multilevel.CommandLine.Fit
import Multilevel.CommandLine.Options
import Multilevel.CommandLine.Report
import Multilevel.CommandLine.Table
import Multilevel.Data.Column
import Multilevel.Data.Error
import Multilevel.Data.Factor
import Multilevel.Data.Frame
import Multilevel.Data.Inferred
import Multilevel.Data.Lags
import Multilevel.Data.Order
import Multilevel.Data.Source
import Multilevel.Digest.Identity
import Multilevel.Digest.Sha256
import Multilevel.Draws.Dataset
import Multilevel.Draws.Error
import Multilevel.Draws.Posterior
import Multilevel.Draws.Rename
import Multilevel.Draws.Summary
import Multilevel.Engine.Basic
import Multilevel.Engine.Build
import Multilevel.Engine.CmdStan
import Multilevel.Engine.Compiled
import Multilevel.Engine.Error
import Multilevel.Engine.Log
import Multilevel.Engine.Rehearsal
import Multilevel.Entries
import Multilevel.Failure
import Multilevel.Family.Basic
import Multilevel.Fit.Basic
import Multilevel.Fit.Description
import Multilevel.Fit.Run
import Multilevel.Fit.Session
import Multilevel.Formula.Basic
import Multilevel.Formula.Error
import Multilevel.Formula.Reader
import Multilevel.Inits.Error
import Multilevel.Inits.Function
import Multilevel.Inits.Resolve
import Multilevel.Main
import Multilevel.Model.Cleaning
import Multilevel.Model.Covariance
import Multilevel.Model.Description
import Multilevel.Model.Error
import Multilevel.Model.Fragment
import Multilevel.Model.Knots
import Multilevel.Model.Reuse
import Multilevel.Model.Specification
import Multilevel.Number.Binary64
import Multilevel.Number.Decimal
import Multilevel.Number.Layout
import Multilevel.Number.Reader
import Multilevel.Prior.Basic
import Multilevel.Prior.Error
import Multilevel.Prior.Slots
import Multilevel.Program.Basic
import Multilevel.Program.BuildData
import Multilevel.Program.Expression
import Multilevel.Program.Line
import Multilevel.Program.PriorStatement
import Multilevel.Program.Statement
import Multilevel.Program.Variable
import Multilevel.Proofs.Data.Cells
import Multilevel.Proofs.Data.Cleaning
import Multilevel.Proofs.Data.Counted
import Multilevel.Proofs.Data.Lags
import Multilevel.Proofs.Data.Recleaned
import Multilevel.Proofs.Data.Retained
import Multilevel.Proofs.Data.RowOrder
import Multilevel.Proofs.Data.Same
import Multilevel.Proofs.Data.Time
import Multilevel.Proofs.Digest.Identity
import Multilevel.Proofs.Draws.Alignment
import Multilevel.Proofs.Draws.Complete
import Multilevel.Proofs.Draws.Element
import Multilevel.Proofs.Draws.Exact
import Multilevel.Proofs.Draws.Merge
import Multilevel.Proofs.Draws.NewNames
import Multilevel.Proofs.Draws.Parts
import Multilevel.Proofs.Draws.Pooling
import Multilevel.Proofs.Draws.Rename
import Multilevel.Proofs.Draws.Stack
import Multilevel.Proofs.Draws.Summary
import Multilevel.Proofs.EndAlike
import Multilevel.Proofs.Engine.Answer
import Multilevel.Proofs.Engine.Build
import Multilevel.Proofs.Engine.Builds
import Multilevel.Proofs.Engine.Captures
import Multilevel.Proofs.Engine.Executables
import Multilevel.Proofs.Engine.Identity
import Multilevel.Proofs.Engine.Rehearsal
import Multilevel.Proofs.Engine.Writable
import Multilevel.Proofs.Entries
import Multilevel.Proofs.Fit.Equal
import Multilevel.Proofs.Fit.Plan
import Multilevel.Proofs.Fit.Refusals
import Multilevel.Proofs.Fit.Reused
import Multilevel.Proofs.Fit.Shape
import Multilevel.Proofs.Fit.Steps
import Multilevel.Proofs.Fit.Store
import Multilevel.Proofs.Formula.Canonical
import Multilevel.Proofs.Formula.Grammar
import Multilevel.Proofs.Formula.Reader
import Multilevel.Proofs.Formula.Reading
import Multilevel.Proofs.Formula.Sides
import Multilevel.Proofs.Inits.Binding
import Multilevel.Proofs.Model.Comparison
import Multilevel.Proofs.Model.Covariance
import Multilevel.Proofs.Model.Labelled
import Multilevel.Proofs.Model.Normalize
import Multilevel.Proofs.Model.OwnErrors
import Multilevel.Proofs.Model.Reuse
import Multilevel.Proofs.Model.ReuseSound
import Multilevel.Proofs.Model.RowOrder
import Multilevel.Proofs.Model.Shape
import Multilevel.Proofs.Model.Specification
import Multilevel.Proofs.Number.Alike
import Multilevel.Proofs.Number.Nearest
import Multilevel.Proofs.Number.Unpacked
import Multilevel.Proofs.Outcome
import Multilevel.Proofs.Prior.Effective
import Multilevel.Proofs.Prior.Merge
import Multilevel.Proofs.Prior.Slots
import Multilevel.Proofs.Program.Accesses
import Multilevel.Proofs.Program.Arrays
import Multilevel.Proofs.Program.BuildData
import Multilevel.Proofs.Program.Counts
import Multilevel.Proofs.Program.DataBlock
import Multilevel.Proofs.Program.Declared
import Multilevel.Proofs.Program.Dropped
import Multilevel.Proofs.Program.Evaluation
import Multilevel.Proofs.Program.Feedback
import Multilevel.Proofs.Program.FlatPriors
import Multilevel.Proofs.Program.Increments
import Multilevel.Proofs.Program.Kept
import Multilevel.Proofs.Program.Labels
import Multilevel.Proofs.Program.Meaning
import Multilevel.Proofs.Program.Names
import Multilevel.Proofs.Program.Packed
import Multilevel.Proofs.Program.Pasted
import Multilevel.Proofs.Program.Predictor
import Multilevel.Proofs.Program.Residuals
import Multilevel.Proofs.Program.RowOrder
import Multilevel.Proofs.Program.Same
import Multilevel.Proofs.Program.SameBuildData
import Multilevel.Proofs.Program.SameData
import Multilevel.Proofs.Program.Scope
import Multilevel.Proofs.Program.Scoped
import Multilevel.Proofs.Program.Sparse
import Multilevel.Proofs.Program.Start
import Multilevel.Proofs.Run.Configured
import Multilevel.Proofs.Run.Dispatch
import Multilevel.Proofs.Run.Futures
import Multilevel.Proofs.Run.Options
import Multilevel.Proofs.Run.Steady
import Multilevel.Proofs.Run.Strategies
import Multilevel.Proofs.Store.Keeps
import Multilevel.Proofs.Store.Path
import Multilevel.Proofs.Store.Settles
import Multilevel.Proofs.Store.Unheard
import Multilevel.Proofs.Terms.Design
import Multilevel.Proofs.Terms.LevelOrder
import Multilevel.Proofs.Terms.Related
import Multilevel.Proofs.Terms.Same
import Multilevel.Proofs.Terms.Span
import Multilevel.Proofs.Terms.Tree
import Multilevel.Proofs.Text.Lines
import Multilevel.Proofs.Text.Spaced
import Multilevel.Proofs.Value.Decoding
import Multilevel.Proofs.Value.Equal
import Multilevel.Proofs.Value.Tokens
import Multilevel.Run.Arguments
import Multilevel.Run.Config
import Multilevel.Run.Dispatch
import Multilevel.Run.Error
import Multilevel.Run.Options
import Multilevel.Run.Reader
import Multilevel.Store.Disk
import Multilevel.Store.Path
import Multilevel.Store.Workspace
import Multilevel.Terms.Design
import Multilevel.Terms.Tree
import Multilevel.Text.Blank
import Multilevel.Text.Digit
import Multilevel.Text.Lower
import Multilevel.Text.Quoted
import Multilevel.Text.Search
import Multilevel.Text.Split
import Multilevel.Value.Arrays
import Multilevel.Value.Basic
import Multilevel.Value.Canonical
import Multilevel.Value.Display
import Multilevel.Value.Expect
import Multilevel.Value.Quantity
import Multilevel.Value.Reader
