import SharpLexer.Position
import SharpLexer.Text.Blank
import SharpLexer.Text.Lines
import SharpLexer.Text.Quoted
import SharpLexer.Binary64.Shortest
import SharpLexer.Token.Basic
import SharpLexer.Token.Operator
import SharpLexer.Token.Word
import SharpLexer.Scan.Trivia
import SharpLexer.Scan.Item
import SharpLexer.Cursor
import SharpLexer.Stream
import SharpLexer.Diagnostic
import SharpLexer.Command.Run
import SharpLexer.Main
import SharpLexer.Proofs.Gap
import SharpLexer.Proofs.LongestMatch
import SharpLexer.Proofs.Outcome
import SharpLexer.Proofs.Run
import SharpLexer.Proofs.Tiling
import SharpLexer.Proofs.Place
import SharpLexer.Proofs.Lookahead
import SharpLexer.Proofs.Resumption
import SharpLexer.Proofs.Tokenize
import SharpLexer.Proofs.RoundTrip
import SharpLexer.Proofs.Concatenation
import SharpLexer.Proofs.Progress
import SharpLexer.Proofs.Alike
import SharpLexer.Proofs.Rename
import SharpLexer.Proofs.LetterCase
import SharpLexer.Proofs.Agreement
import SharpLexer.Proofs.SourceLine
import SharpLexer.Proofs.Caret
import SharpLexer.Proofs.Numeral
import SharpLexer.Proofs.Binary64.Value
import SharpLexer.Proofs.Binary64.Nearest
import SharpLexer.Proofs.CaretWidth
import SharpLexer.Proofs.TokenLine
import SharpLexer.Proofs.Listing
import SharpLexer.Proofs.Window.Basic
import SharpLexer.Proofs.Window.Moves
import SharpLexer.Proofs.Window.Items
import SharpLexer.Proofs.Window.Turns
import SharpLexer.Proofs.Window.Lockstep
import SharpLexer.Proofs.FloatNumeral
import SharpLexer.Proofs.Skipping
import SharpLexer.Proofs.WordKind
import SharpLexer.Proofs.StringLiteral
import SharpLexer.Proofs.OperatorRun
import SharpLexer.Proofs.Documentation
import SharpLexer.Proofs.TokenShape
import SharpLexer.Proofs.Binary64.Decimal
import SharpLexer.Proofs.Quoting
import SharpLexer.Proofs.TokenText
import SharpLexer.Proofs.LineJoin
import SharpLexer.Proofs.Account
import SharpLexer.Proofs.Window.Account
import SharpLexer.Proofs.Records
import SharpLexer.Proofs.LineRecord
