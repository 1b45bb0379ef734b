import TemplateSyntax.Command
import TemplateSyntax.Diagnostic
import TemplateSyntax.Dump
import TemplateSyntax.Log
import TemplateSyntax.Main
import TemplateSyntax.Number.Binary64
import TemplateSyntax.Number.Decimal
import TemplateSyntax.Number.Integer
import TemplateSyntax.Number.Layout
import TemplateSyntax.Number.Shortest
import TemplateSyntax.Parse.Basic
import TemplateSyntax.Parse.Block
import TemplateSyntax.Parse.Cursor
import TemplateSyntax.Parse.Error
import TemplateSyntax.Parse.Expression
import TemplateSyntax.Parse.Machine
import TemplateSyntax.Parse.Parsing
import TemplateSyntax.Parse.Program
import TemplateSyntax.Proofs.Command.TokenLines
import TemplateSyntax.Proofs.Grammar.Basic
import TemplateSyntax.Proofs.Grammar.Complete
import TemplateSyntax.Proofs.Grammar.Exact
import TemplateSyntax.Proofs.Grammar.Nodes.Basic
import TemplateSyntax.Proofs.Grammar.Nodes.Complete
import TemplateSyntax.Proofs.Grammar.Nodes.Exact
import TemplateSyntax.Proofs.Grammar.Nodes.Sound
import TemplateSyntax.Proofs.Grammar.Sound
import TemplateSyntax.Proofs.Machine.Refines
import TemplateSyntax.Proofs.Machine.Related
import TemplateSyntax.Proofs.Nesting.Basic
import TemplateSyntax.Proofs.Nesting.Height
import TemplateSyntax.Proofs.Nesting.Limit
import TemplateSyntax.Proofs.Parse.Blame
import TemplateSyntax.Proofs.Parse.Built.Ahead
import TemplateSyntax.Proofs.Parse.Built.Basic
import TemplateSyntax.Proofs.Parse.Built.Block
import TemplateSyntax.Proofs.Parse.Built.Expression
import TemplateSyntax.Proofs.Parse.Calls
import TemplateSyntax.Proofs.Parse.Concat
import TemplateSyntax.Proofs.Parse.Contract
import TemplateSyntax.Proofs.Parse.Faults
import TemplateSyntax.Proofs.Parse.Firm.Basic
import TemplateSyntax.Proofs.Parse.Firm.Block
import TemplateSyntax.Proofs.Parse.Firm.Expression
import TemplateSyntax.Proofs.Parse.Firm.Program
import TemplateSyntax.Proofs.Parse.Implied
import TemplateSyntax.Proofs.Parse.InStep.Basic
import TemplateSyntax.Proofs.Parse.InStep.Block
import TemplateSyntax.Proofs.Parse.InStep.Expression
import TemplateSyntax.Proofs.Parse.InStep.Program
import TemplateSyntax.Proofs.Parse.Lawful.Block
import TemplateSyntax.Proofs.Parse.Lawful.Expression
import TemplateSyntax.Proofs.Parse.Lawful.Header
import TemplateSyntax.Proofs.Parse.Lawful.Program
import TemplateSyntax.Proofs.Parse.Outcomes
import TemplateSyntax.Proofs.Parse.Passing
import TemplateSyntax.Proofs.Parse.Places
import TemplateSyntax.Proofs.Parse.Progress
import TemplateSyntax.Proofs.Parse.Reads
import TemplateSyntax.Proofs.Parse.Seeking
import TemplateSyntax.Proofs.Parse.Spans
import TemplateSyntax.Proofs.Parse.Standing
import TemplateSyntax.Proofs.Parse.Stored
import TemplateSyntax.Proofs.Print.Basic
import TemplateSyntax.Proofs.Print.Expression
import TemplateSyntax.Proofs.Print.RoundTrip
import TemplateSyntax.Proofs.Scan.Automaton
import TemplateSyntax.Proofs.Scan.Coverage
import TemplateSyntax.Proofs.Scan.Cut
import TemplateSyntax.Proofs.Scan.Discipline
import TemplateSyntax.Proofs.Scan.Extend
import TemplateSyntax.Proofs.Scan.Layout
import TemplateSyntax.Proofs.Scan.Lexemes
import TemplateSyntax.Proofs.Scan.LineEnds
import TemplateSyntax.Proofs.Scan.Lines
import TemplateSyntax.Proofs.Scan.Local
import TemplateSyntax.Proofs.Scan.Munch
import TemplateSyntax.Proofs.Scan.Place
import TemplateSyntax.Proofs.Scan.Progress
import TemplateSyntax.Proofs.Scan.Quotes
import TemplateSyntax.Proofs.Scan.Schedules
import TemplateSyntax.Proofs.Scan.Spelled
import TemplateSyntax.Proofs.Scan.Step
import TemplateSyntax.Proofs.Scan.TextRuns
import TemplateSyntax.Proofs.Scan.Tiles
import TemplateSyntax.Proofs.Serial.Data
import TemplateSyntax.Proofs.Serial.Trees
import TemplateSyntax.Proofs.Shape.Basic
import TemplateSyntax.Proofs.Shape.Grammar
import TemplateSyntax.Proofs.Shape.Tokens
import TemplateSyntax.Proofs.Source.Bytes
import TemplateSyntax.Proofs.Text.Quoted
import TemplateSyntax.Proofs.Texts.Accounts
import TemplateSyntax.Proofs.Texts.Basic
import TemplateSyntax.Proofs.Texts.Exact
import TemplateSyntax.Proofs.Texts.Found
import TemplateSyntax.Source.Position
import TemplateSyntax.Text.Casing
import TemplateSyntax.Text.Extender
import TemplateSyntax.Text.Ignorable
import TemplateSyntax.Text.Quoted
import TemplateSyntax.Text.Ranges
import TemplateSyntax.Text.Unprintable
import TemplateSyntax.Token.Basic
import TemplateSyntax.Token.Kind
import TemplateSyntax.Token.Lexeme.Basic
import TemplateSyntax.Token.Lexeme.Lemmas
import TemplateSyntax.Token.Mode
import TemplateSyntax.Token.Scan
import TemplateSyntax.Tree.Basic
import TemplateSyntax.Tree.Dump
import TemplateSyntax.Tree.Equal
import TemplateSyntax.Tree.Operator
import TemplateSyntax.Tree.Serial
