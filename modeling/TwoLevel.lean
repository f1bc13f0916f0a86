import TwoLevel.Word
import TwoLevel.Ascending
import TwoLevel.Positions
import TwoLevel.Text.Blank
import TwoLevel.Text.Number
import TwoLevel.Text.Lines
import TwoLevel.Text.Quoted
import TwoLevel.Label
import TwoLevel.Dialect
import TwoLevel.Settings
import TwoLevel.Implicant.Basic
import TwoLevel.Implicant.Text
import TwoLevel.Implicant.Coverage
import TwoLevel.Implicant.Set
import TwoLevel.Primes
import TwoLevel.Chart.Basic
import TwoLevel.Chart.Greedy
import TwoLevel.Chart.Exact
import TwoLevel.Cover.Text
import TwoLevel.IoFailure
import TwoLevel.Table.Error
import TwoLevel.Table.Value
import TwoLevel.Table.Labels
import TwoLevel.Table.Basic
import TwoLevel.Table.Line
import TwoLevel.Table.Text
import TwoLevel.Minimization
import TwoLevel.Expr.Basic
import TwoLevel.Expr.Display
import TwoLevel.Expr.OfCover
import TwoLevel.Expr.Index
import TwoLevel.Expr.Token
import TwoLevel.Expr.Error
import TwoLevel.Expr.Parser
import TwoLevel.Error
import TwoLevel.Verification
import TwoLevel.Karnaugh.Layout
import TwoLevel.Karnaugh.Drawing
import TwoLevel.Verilog.Module
import TwoLevel.Verilog.Testbench
import TwoLevel.Files.Path
import TwoLevel.Files.Tree
import TwoLevel.CommandLine.Invocation
import TwoLevel.CommandLine.Run
import TwoLevel.Main
import TwoLevel.Proofs.Scan
import TwoLevel.Proofs.Text.Number
import TwoLevel.Proofs.Text.Fields
import TwoLevel.Proofs.Text.Bytes
import TwoLevel.Proofs.Label
import TwoLevel.Proofs.Implicant.Coverage
import TwoLevel.Proofs.Implicant.Combination
import TwoLevel.Proofs.Implicant.Prime
import TwoLevel.Proofs.Implicant.Set
import TwoLevel.Proofs.Implicant.Literals
import TwoLevel.Proofs.Implicant.Expansion
import TwoLevel.Proofs.Implicant.Alignment
import TwoLevel.Proofs.Implicant.WordBounds
import TwoLevel.Proofs.Implicant.Insertion
import TwoLevel.Proofs.Primes.Joins
import TwoLevel.Proofs.Primes.Generation
import TwoLevel.Proofs.Primes.Rounds
import TwoLevel.Proofs.Chart.Incidence
import TwoLevel.Proofs.Chart.Greedy
import TwoLevel.Proofs.Chart.Cost
import TwoLevel.Proofs.Chart.Exact
import TwoLevel.Proofs.Chart.Solution
import TwoLevel.Proofs.Chart.Limit
import TwoLevel.Proofs.Chart.Outcome
import TwoLevel.Proofs.Chart.Harmonic
import TwoLevel.Proofs.Chart.Essential
import TwoLevel.Proofs.Chart.Calls
import TwoLevel.Proofs.Chart.Picks
import TwoLevel.Proofs.Cover.Text
import TwoLevel.Proofs.Table.Rows
import TwoLevel.Proofs.Table.Labels
import TwoLevel.Proofs.Table.Format
import TwoLevel.Proofs.Table.Following
import TwoLevel.Proofs.Table.Reading
import TwoLevel.Proofs.Table.Writing
import TwoLevel.Proofs.Table.Edits
import TwoLevel.Proofs.Table.Retention
import TwoLevel.Proofs.Minimization.PrimeCover
import TwoLevel.Proofs.Minimization.Soundness
import TwoLevel.Proofs.Minimization.Minimum
import TwoLevel.Proofs.Minimization.Determinacy
import TwoLevel.Proofs.Expr.Cutting
import TwoLevel.Proofs.Expr.LongestMatch
import TwoLevel.Proofs.Expr.Grammar
import TwoLevel.Proofs.Expr.Writing
import TwoLevel.Proofs.Expr.Recognition
import TwoLevel.Proofs.Expr.Names
import TwoLevel.Proofs.Expr.OfCover
import TwoLevel.Proofs.Expr.Index
import TwoLevel.Proofs.Expr.Grouping
import TwoLevel.Proofs.Expr.Display
import TwoLevel.Proofs.Expr.Viable
import TwoLevel.Proofs.Expr.Refusal
import TwoLevel.Proofs.Expr.Equivalence
import TwoLevel.Proofs.Expr.Labelling
import TwoLevel.Proofs.Verification
import TwoLevel.Proofs.Karnaugh.Layout
import TwoLevel.Proofs.Karnaugh.Drawing
import TwoLevel.Proofs.Verilog.Testbench
import TwoLevel.Proofs.Verilog.Declarations
