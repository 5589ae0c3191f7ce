import Concatenative.CommandLine.Argument
import Concatenative.CommandLine.Console
import Concatenative.CommandLine.Count
import Concatenative.CommandLine.Run
import Concatenative.CommandLine.Settings
import Concatenative.CommandLine.Snapshot
import Concatenative.CommandLine.Switch
import Concatenative.Dictionary.Basic
import Concatenative.Dictionary.Entry
import Concatenative.Dictionary.Index
import Concatenative.Dictionary.Store
import Concatenative.Dictionary.Table
import Concatenative.Directive
import Concatenative.Error.Cause
import Concatenative.Error.Failure
import Concatenative.Error.Kind
import Concatenative.Error.Report
import Concatenative.Files.Path
import Concatenative.Files.Refusal
import Concatenative.Files.Tree
import Concatenative.Machine.Basic
import Concatenative.Machine.CallStack
import Concatenative.Machine.DepthLimit
import Concatenative.Machine.Division
import Concatenative.Machine.Effect
import Concatenative.Machine.Operands
import Concatenative.Machine.Workspace
import Concatenative.Main
import Concatenative.Outcome
import Concatenative.Primitive.Basic
import Concatenative.Primitive.Card
import Concatenative.Proofs.Alike
import Concatenative.Proofs.Ambience
import Concatenative.Proofs.Assignment
import Concatenative.Proofs.Attribution
import Concatenative.Proofs.Callability
import Concatenative.Proofs.Catalogue
import Concatenative.Proofs.Chronicle
import Concatenative.Proofs.Closedness
import Concatenative.Proofs.Compilation
import Concatenative.Proofs.Containment
import Concatenative.Proofs.Conversation
import Concatenative.Proofs.Deferral
import Concatenative.Proofs.DepthLimit
import Concatenative.Proofs.Dictionary
import Concatenative.Proofs.Division
import Concatenative.Proofs.EarlyBinding
import Concatenative.Proofs.Effect
import Concatenative.Proofs.Evaluation
import Concatenative.Proofs.Forms
import Concatenative.Proofs.Grammar
import Concatenative.Proofs.History
import Concatenative.Proofs.Inclusion
import Concatenative.Proofs.Index
import Concatenative.Proofs.Legibility
import Concatenative.Proofs.Lexing
import Concatenative.Proofs.Listing
import Concatenative.Proofs.Locality
import Concatenative.Proofs.Moment
import Concatenative.Proofs.Nesting
import Concatenative.Proofs.Notes
import Concatenative.Proofs.OperandSafety
import Concatenative.Proofs.Operands
import Concatenative.Proofs.Operation
import Concatenative.Proofs.Output
import Concatenative.Proofs.Passage
import Concatenative.Proofs.Pieces
import Concatenative.Proofs.Prelude
import Concatenative.Proofs.Printing
import Concatenative.Proofs.ReadBack
import Concatenative.Proofs.Recursion
import Concatenative.Proofs.Reference
import Concatenative.Proofs.Rendering
import Concatenative.Proofs.Representation
import Concatenative.Proofs.Run
import Concatenative.Proofs.StaticError
import Concatenative.Proofs.Stopping
import Concatenative.Proofs.TailForm
import Concatenative.Proofs.Values
import Concatenative.Proofs.Word
import Concatenative.Reader
import Concatenative.Session.Basic
import Concatenative.Session.Loader
import Concatenative.Session.Note
import Concatenative.Session.Repl
import Concatenative.Session.Start
import Concatenative.Text.Alphanumeric
import Concatenative.Text.Blank
import Concatenative.Text.CodeRanges
import Concatenative.Text.Color
import Concatenative.Text.DecimalDigit
import Concatenative.Text.Numeral
import Concatenative.Text.Printable
import Concatenative.Text.Quoted
import Concatenative.Token.Basic
import Concatenative.Token.Cursor
import Concatenative.Token.Lexer
import Concatenative.Token.Stream
import Concatenative.Value.Basic
import Concatenative.Value.Display
import Concatenative.Value.Kind
