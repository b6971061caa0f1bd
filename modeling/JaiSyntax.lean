import JaiSyntax.Main
import JaiSyntax.Text.Cursor
import JaiSyntax.Proofs.Audit.Parser
import JaiSyntax.Proofs.Brackets.Arrow
import JaiSyntax.Proofs.Building.Leaves
import JaiSyntax.Proofs.Calls.Frames
import JaiSyntax.Proofs.Errors.Bounds
import JaiSyntax.Proofs.Errors.Lexical
import JaiSyntax.Proofs.Errors.Resync
import JaiSyntax.Proofs.Errors.Settlement
import JaiSyntax.Proofs.Expression.RoundTrip
import JaiSyntax.Proofs.Layout.Hidden
import JaiSyntax.Proofs.Layout.Labels
import JaiSyntax.Proofs.Lexer.Groups
import JaiSyntax.Proofs.Lexer.Reports
import JaiSyntax.Proofs.Lexer.Tiling
import JaiSyntax.Proofs.Locality.Source
import JaiSyntax.Proofs.Lossless
import JaiSyntax.Proofs.Operators.Completeness
import JaiSyntax.Proofs.Operators.Follow
import JaiSyntax.Proofs.Precedence
import JaiSyntax.Proofs.Progress.Source
import JaiSyntax.Proofs.Scanner.Safety
import JaiSyntax.Proofs.Spans.Exact
import JaiSyntax.Proofs.Statement.RoundTrip
import JaiSyntax.Proofs.Statement.Semicolons
import JaiSyntax.Proofs.Type.Constant
import JaiSyntax.Proofs.Type.Positions
import JaiSyntax.Proofs.Type.RoundTrip
import JaiSyntax.Proofs.Heredoc.Closing
import JaiSyntax.Proofs.Heredoc.RoundTrip
import JaiSyntax.Proofs.Strings.RoundTrip
import JaiSyntax.Proofs.Cursor.Partition
import JaiSyntax.Proofs.Comment.Nesting
import JaiSyntax.Proofs.Comment.Line
import JaiSyntax.Proofs.Lexer.Driver
import JaiSyntax.Proofs.Strings.Unterminated
import JaiSyntax.Proofs.Grammar.Conflict
import JaiSyntax.Proofs.Grammar.TokenSet
import JaiSyntax.Proofs.Number.Pattern
import JaiSyntax.Proofs.Tree.Walk
import JaiSyntax.Proofs.Tree.TypeReading
import JaiSyntax.Proofs.Tree.Sexp
import JaiSyntax.Proofs.Command.Arguments
import JaiSyntax.Proofs.Command.Input
