import Runsheet.Engine.Snapshot
import Runsheet.Plan.File
import Runsheet.Settings
import Runsheet.Terminal.Style
import Runsheet.Directory
import Runsheet.Execution
import Runsheet.Report
import Runsheet.Request
import Runsheet.CommandLine.Usage
import Runsheet.Display
import Runsheet.Program.Plain
import Runsheet.Shell.Lexeme
import Runsheet.Shell.Run
import Runsheet.Launcher
import Runsheet.Invocation
import Runsheet.Main
import Runsheet.Proofs.Axis
import Runsheet.Proofs.Selection
import Runsheet.Proofs.Engine.Steps
import Runsheet.Proofs.Engine.Soundness
import Runsheet.Proofs.Engine.Ending
import Runsheet.Proofs.Engine.Contract
import Runsheet.Proofs.Script.Spelling
import Runsheet.Proofs.Script.Reads
import Runsheet.Proofs.Script.Constructs
import Runsheet.Proofs.Script.Grammar
import Runsheet.Proofs.Engine.Reading
import Runsheet.Proofs.Engine.Calls
import Runsheet.Proofs.Engine.Invariant
import Runsheet.Proofs.Selection.Requests
import Runsheet.Proofs.Engine.History
import Runsheet.Proofs.Engine.Resolution
import Runsheet.Proofs.Text.Utf8
import Runsheet.Proofs.Shell.Words
import Runsheet.Proofs.Shell.Quote
import Runsheet.Proofs.Engine.Run
import Runsheet.Proofs.Script.Meaning
import Runsheet.Proofs.Engine.Meaning
import Runsheet.Proofs.Token.Writing
import Runsheet.Proofs.Token.Layout
import Runsheet.Proofs.Token.Utf8
import Runsheet.Proofs.Script.Exactness
import Runsheet.Proofs.Cbor
import Runsheet.Proofs.Plan.File
import Runsheet.Proofs.Plan.Reading
import Runsheet.Proofs.Script.Texts
import Runsheet.Proofs.Engine.PlanFile
import Runsheet.Proofs.Engine.Refusal
import Runsheet.Proofs.Execution.Chronicle
import Runsheet.Proofs.Execution.Accounts
import Runsheet.Proofs.Execution.Results
import Runsheet.Proofs.Execution.Interrupts
import Runsheet.Proofs.Execution.Completion
import Runsheet.Proofs.Token.Position
import Runsheet.Proofs.Token.Lexeme
import Runsheet.Proofs.Token.Tiling
import Runsheet.Proofs.Token.Place
import Runsheet.Proofs.Token.Kind
import Runsheet.Proofs.Token.Line
import Runsheet.Proofs.Token.Literal
import Runsheet.Proofs.Token.Join
import Runsheet.Proofs.Token.Spacing
import Runsheet.Proofs.CaseCheck
import Runsheet.Proofs.Engine.Precedence
import Runsheet.Proofs.Script.Relocation
import Runsheet.Proofs.Script.Continuation
import Runsheet.Proofs.Script.Completion
import Runsheet.Proofs.Script.Fragments
import Runsheet.Proofs.Script.Mending
import Runsheet.Proofs.Token.Cut
import Runsheet.Proofs.Script.Blame
import Runsheet.Proofs.Script.Excerpt
import Runsheet.Proofs.Script.Stopping
import Runsheet.Proofs.Plan.Identity
import Runsheet.Proofs.Plan.Canonical
import Runsheet.Proofs.Shell.Inert
import Runsheet.Proofs.Script.Order
import Runsheet.Proofs.Engine.Order
import Runsheet.Proofs.Engine.Assigned
import Runsheet.Proofs.Engine.Wanting
import Runsheet.Proofs.Suggestion.Distance
import Runsheet.Proofs.Suggestion
import Runsheet.Proofs.Engine.Objection
import Runsheet.Proofs.Engine.Respelling
import Runsheet.Proofs.Script.Pointing
import Runsheet.Proofs.Engine.Warnings
import Runsheet.Proofs.Engine.Origin
import Runsheet.Proofs.Text.Runes
import Runsheet.Proofs.Text.Blank
import Runsheet.Proofs.Selection.Directive
import Runsheet.Proofs.Settings.Selects
