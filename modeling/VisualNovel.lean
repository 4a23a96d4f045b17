import VisualNovel.Binary64.Basic
import VisualNovel.Binary64.Decimal
import VisualNovel.Cache.Basic
import VisualNovel.Cache.Block
import VisualNovel.Cache.Digest
import VisualNovel.Cache.Record
import VisualNovel.Command.Arguments
import VisualNovel.Command.Basic
import VisualNovel.Command.Error
import VisualNovel.Command.Listing
import VisualNovel.Command.Outlook
import VisualNovel.Command.Run
import VisualNovel.Command.Style
import VisualNovel.Command.Upkeep
import VisualNovel.Conductor.Basic
import VisualNovel.Conductor.Describe
import VisualNovel.Conductor.Dispatch
import VisualNovel.Conductor.Error
import VisualNovel.Conductor.Run
import VisualNovel.Config.Basic
import VisualNovel.Config.Expand
import VisualNovel.Config.Project
import VisualNovel.Cursor.Basic
import VisualNovel.Cursor.Branch
import VisualNovel.Cursor.Definition
import VisualNovel.Cursor.Error
import VisualNovel.Cursor.Loop
import VisualNovel.Cursor.Mark
import VisualNovel.Cursor.Reading
import VisualNovel.Cursor.Trace
import VisualNovel.Directive
import VisualNovel.Disk.Access
import VisualNovel.Disk.Basic
import VisualNovel.Expr.Basic
import VisualNovel.Expr.Error
import VisualNovel.Expr.Eval
import VisualNovel.Expr.Lexer
import VisualNovel.Expr.Parser
import VisualNovel.Expr.Token
import VisualNovel.Grammar.Basic
import VisualNovel.Grammar.Bracket
import VisualNovel.Grammar.Line
import VisualNovel.Grammar.Parser
import VisualNovel.Json.Basic
import VisualNovel.Json.Exchange
import VisualNovel.Json.Printer
import VisualNovel.Json.Reader
import VisualNovel.Json.Record
import VisualNovel.Library.Basic
import VisualNovel.Library.Load
import VisualNovel.Library.Preload
import VisualNovel.Macro
import VisualNovel.Main
import VisualNovel.Parameter
import VisualNovel.Path
import VisualNovel.Proofs.Computation
import VisualNovel.Proofs.Inlining
import VisualNovel.Proofs.Reading
import VisualNovel.Reactor.Basic
import VisualNovel.Reactor.Performs
import VisualNovel.Reactor.Run
import VisualNovel.Reactor.Step
import VisualNovel.Save
import VisualNovel.Session
import VisualNovel.Setting
import VisualNovel.Tag
import VisualNovel.Taken
import VisualNovel.Terminal
import VisualNovel.Text.Blank
import VisualNovel.Text.Letter
import VisualNovel.Text.Numeral
import VisualNovel.Text.Quoted
import VisualNovel.Text.Range
import VisualNovel.Text.Unprintable
import VisualNovel.Toml.Basic
import VisualNovel.Toml.Moment
import VisualNovel.Toml.Number
import VisualNovel.Toml.Reader
import VisualNovel.Toml.Text
import VisualNovel.Value.Basic
import VisualNovel.Value.Coercion
import VisualNovel.Value.Path
import VisualNovel.Variables
import VisualNovel.Variables.Storage
import VisualNovel.Proofs.Structured.Drive
import VisualNovel.Proofs.Structured.Scan
import VisualNovel.Proofs.Structured.Obeying
import VisualNovel.Proofs.Structured.Simulation
import VisualNovel.Proofs.Structured.Refinement
import VisualNovel.Proofs.Playing.Verdict
import VisualNovel.Proofs.Promises
import VisualNovel.Proofs.Playing.Calls
import VisualNovel.Proofs.Playing.Moment
import VisualNovel.Proofs.Playing.Suspension
import VisualNovel.Proofs.Playing.Transparency
import VisualNovel.Proofs.Literal
import VisualNovel.Proofs.Playing.Characters
import VisualNovel.Proofs.Playing.Telling
import VisualNovel.Proofs.Handling.Change
import VisualNovel.Proofs.Handling.Chronicle
import VisualNovel.Proofs.Handling.Coherence
import VisualNovel.Proofs.Playing.Order
import VisualNovel.Proofs.Playing.Returning
import VisualNovel.Proofs.Playing.Failure
import VisualNovel.Proofs.Reacting.Course
import VisualNovel.Proofs.Reacting.Uses
import VisualNovel.Proofs.Reacting.Agenda
import VisualNovel.Proofs.Reacting.Notice
import VisualNovel.Proofs.Reacting.Joined
import VisualNovel.Proofs.Reacting.Tally
import VisualNovel.Proofs.Reacting.Joining
import VisualNovel.Proofs.Reacting.Ending
import VisualNovel.Proofs.Handling.Marks
import VisualNovel.Proofs.Playing.Saves
import VisualNovel.Proofs.Evaluating.Footprint
import VisualNovel.Proofs.Parsing.Composition
import VisualNovel.Proofs.Caching.Bytes
import VisualNovel.Proofs.Caching.Entries
import VisualNovel.Proofs.Caching.Keys
import VisualNovel.Proofs.Caching.Transparency
import VisualNovel.Proofs.Invoking.Arguments
import VisualNovel.Proofs.Invoking.Evaluator
import VisualNovel.Proofs.Invoking.Ledger
import VisualNovel.Proofs.Invoking.Parameters
import VisualNovel.Proofs.Evaluating.Paths
import VisualNovel.Proofs.Parsing.Agreement
import VisualNovel.Proofs.Printing.Inversion
import VisualNovel.Proofs.Waiting.Liveness
import VisualNovel.Proofs.Evaluating.Accesses
import VisualNovel.Proofs.Evaluating.Assignments
import VisualNovel.Proofs.Handling.Conditions
import VisualNovel.Proofs.Handling.Balance
import VisualNovel.Proofs.Handling.Refusals
import VisualNovel.Proofs.Writing.Numerals
import VisualNovel.Proofs.Parsing.Verbatim
import VisualNovel.Proofs.Peeking
import VisualNovel.Proofs.Handling.Definitions
import VisualNovel.Proofs.Handling.Jumps
import VisualNovel.Proofs.Validation
import VisualNovel.Proofs.Storing.ReadMarks
import VisualNovel.Proofs.Playing.LatestMark
import VisualNovel.Proofs.Caching.Preloading
import VisualNovel.Proofs.Caching.PreloadingLater
import VisualNovel.Proofs.Parsing.SaveMarks
import VisualNovel.Proofs.Parsing.Streams
import VisualNovel.Proofs.Reacting.Apart
import VisualNovel.Proofs.Reacting.Joint
import VisualNovel.Proofs.Rounds
import VisualNovel.Proofs.Recognizing.Literals
