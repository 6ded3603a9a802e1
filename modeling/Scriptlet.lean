import Scriptlet.Calendar.Moment
import Scriptlet.Cli.Check
import Scriptlet.Cli.Command
import Scriptlet.Cli.Options
import Scriptlet.Cli.Script
import Scriptlet.Cli.SourceContext
import Scriptlet.Cli.Usage
import Scriptlet.Cli.Watch
import Scriptlet.Config.Basic
import Scriptlet.Config.Duration
import Scriptlet.Config.Interpolation
import Scriptlet.Config.Load
import Scriptlet.Diagnostic.Basic
import Scriptlet.Diagnostic.Catalog
import Scriptlet.Diagnostic.EditDistance
import Scriptlet.Diagnostic.Printer
import Scriptlet.Diagnostic.Suggestion
import Scriptlet.Eval.Action
import Scriptlet.Eval.Basic
import Scriptlet.Eval.Machine
import Scriptlet.Eval.Native
import Scriptlet.Eval.Operator
import Scriptlet.Files.Basic
import Scriptlet.Files.Path
import Scriptlet.Grammar.Expression
import Scriptlet.Grammar.Parse
import Scriptlet.Grammar.Parser
import Scriptlet.Grammar.Statement
import Scriptlet.Host
import Scriptlet.Interpreter
import Scriptlet.Log.Handler
import Scriptlet.Log.Record
import Scriptlet.Log.Sink
import Scriptlet.Main
import Scriptlet.Number.Binary
import Scriptlet.Number.Reading
import Scriptlet.Number.Shortest
import Scriptlet.Output.Effect
import Scriptlet.Output.Logger
import Scriptlet.Output.Printed
import Scriptlet.Position
import Scriptlet.Proofs.Addition
import Scriptlet.Proofs.Attribution
import Scriptlet.Proofs.Balancing
import Scriptlet.Proofs.Blame
import Scriptlet.Proofs.Bound
import Scriptlet.Proofs.Buffering
import Scriptlet.Proofs.Canonical
import Scriptlet.Proofs.Characters
import Scriptlet.Proofs.Checking
import Scriptlet.Proofs.Completeness
import Scriptlet.Proofs.Completing
import Scriptlet.Proofs.Confinement
import Scriptlet.Proofs.Consumption
import Scriptlet.Proofs.Containment
import Scriptlet.Proofs.Coverage
import Scriptlet.Proofs.Cutting
import Scriptlet.Proofs.Debouncing
import Scriptlet.Proofs.Derivation
import Scriptlet.Proofs.Effects
import Scriptlet.Proofs.Entries
import Scriptlet.Proofs.Enumeration
import Scriptlet.Proofs.Equality
import Scriptlet.Proofs.Erasure
import Scriptlet.Proofs.Fallbacks
import Scriptlet.Proofs.Frames
import Scriptlet.Proofs.Grouping
import Scriptlet.Proofs.Hinting
import Scriptlet.Proofs.Histories
import Scriptlet.Proofs.Inspection
import Scriptlet.Proofs.Interference
import Scriptlet.Proofs.Joining
import Scriptlet.Proofs.Layout
import Scriptlet.Proofs.LineEnds
import Scriptlet.Proofs.Listing
import Scriptlet.Proofs.Locality
import Scriptlet.Proofs.Lookahead
import Scriptlet.Proofs.Lowering
import Scriptlet.Proofs.Memory
import Scriptlet.Proofs.Nearness
import Scriptlet.Proofs.Nesting
import Scriptlet.Proofs.Observation
import Scriptlet.Proofs.Offsets
import Scriptlet.Proofs.Outcome
import Scriptlet.Proofs.Parameters
import Scriptlet.Proofs.Parentheses
import Scriptlet.Proofs.Persistence
import Scriptlet.Proofs.Placement
import Scriptlet.Proofs.Places
import Scriptlet.Proofs.Pointing
import Scriptlet.Proofs.Progress
import Scriptlet.Proofs.Reading
import Scriptlet.Proofs.Refusal
import Scriptlet.Proofs.Replay
import Scriptlet.Proofs.Reprinting
import Scriptlet.Proofs.Reset
import Scriptlet.Proofs.RoundTrip
import Scriptlet.Proofs.Rounds
import Scriptlet.Proofs.Runs
import Scriptlet.Proofs.Scheduling
import Scriptlet.Proofs.Shadowing
import Scriptlet.Proofs.Soundness
import Scriptlet.Proofs.Spacing
import Scriptlet.Proofs.Spelling
import Scriptlet.Proofs.Stability
import Scriptlet.Proofs.StopFree
import Scriptlet.Proofs.Subevaluation
import Scriptlet.Proofs.Substitution
import Scriptlet.Proofs.Succession
import Scriptlet.Proofs.Tasks
import Scriptlet.Proofs.Termination
import Scriptlet.Proofs.Trimming
import Scriptlet.Proofs.Unwinding
import Scriptlet.Proofs.WellFormed
import Scriptlet.Proofs.Whereabouts
import Scriptlet.Proofs.Writing
import Scriptlet.Repl.Balance
import Scriptlet.Repl.Completion
import Scriptlet.Repl.Entry
import Scriptlet.Repl.Session
import Scriptlet.Terminal.DateText
import Scriptlet.Terminal.Document
import Scriptlet.Terminal.Lines
import Scriptlet.Terminal.Surroundings
import Scriptlet.Terminal.Yaml
import Scriptlet.Text.Basic
import Scriptlet.Text.Case
import Scriptlet.Text.JsonString
import Scriptlet.Text.Pattern
import Scriptlet.Text.Printable
import Scriptlet.Text.Quoted
import Scriptlet.Text.Space
import Scriptlet.Text.Utf8
import Scriptlet.Token.Basic
import Scriptlet.Token.Cursor
import Scriptlet.Token.Lexeme
import Scriptlet.Token.Scanner
import Scriptlet.Tree.Basic
import Scriptlet.Tree.Printer
import Scriptlet.Value.Basic
import Scriptlet.Value.Equality
import Scriptlet.Value.Forest
import Scriptlet.Value.Frame
import Scriptlet.Value.Printer
