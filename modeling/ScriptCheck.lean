import ScriptCheck.Main
import ScriptCheck.Syntax.Agreement
import ScriptCheck.Syntax.Walk
import ScriptCheck.Proofs.Syntax.Depth
import ScriptCheck.Proofs.Expression.Reading
import ScriptCheck.Proofs.Statement.Forming
import ScriptCheck.Proofs.Statement.Reading
import ScriptCheck.Proofs.Grammar.Closure
import ScriptCheck.Proofs.Grammar.Failure
import ScriptCheck.Proofs.Grammar.Locality
import ScriptCheck.Proofs.Expression.Canonical
import ScriptCheck.Proofs.Expression.Exact
import ScriptCheck.Proofs.Program.Reading
import ScriptCheck.Proofs.Expression.Words
import ScriptCheck.Proofs.Program.Grammar
import ScriptCheck.Proofs.Statement.Canonical
import ScriptCheck.Proofs.Syntax.Written
import ScriptCheck.Proofs.Program.Printing
import ScriptCheck.Proofs.Program.Lines
import ScriptCheck.Proofs.Reading.Failing
import ScriptCheck.Proofs.Expression.Unfinished
import ScriptCheck.Proofs.Statement.Blocks
import ScriptCheck.Proofs.Statement.Detaching
import ScriptCheck.Proofs.Statement.Unfinished
import ScriptCheck.Proofs.Program.Owed
import ScriptCheck.Proofs.Program.Pieces
import ScriptCheck.Proofs.Program.Prefix
import ScriptCheck.Proofs.Grammar.Budget
import ScriptCheck.Proofs.Statement.Around
import ScriptCheck.Proofs.Statement.Breaking
import ScriptCheck.Proofs.Program.Remainder
import ScriptCheck.Proofs.Statement.Locating
import ScriptCheck.Proofs.Lexer.Place
import ScriptCheck.Proofs.Lexer.Extent
import ScriptCheck.Proofs.Lexer.Reading
import ScriptCheck.Proofs.Lexer.Tiling
import ScriptCheck.Proofs.Lexer.Rendering
import ScriptCheck.Proofs.Statement.Placed
import ScriptCheck.Proofs.Program.Raising
import ScriptCheck.Proofs.Program.FailFast
import ScriptCheck.Proofs.Program.SourceOrder
import ScriptCheck.Proofs.Statement.FirstBranch
import ScriptCheck.Proofs.Program.Orphan
import ScriptCheck.Proofs.Lexer.Digits
import ScriptCheck.Proofs.Lexer.Failing
import ScriptCheck.Proofs.Lexer.Lowering
import ScriptCheck.Proofs.Program.Lexed
import ScriptCheck.Proofs.Check.Stages
import ScriptCheck.Proofs.Check.Verdict
import ScriptCheck.Proofs.Check.Outgrowing
import ScriptCheck.Proofs.Check.Channels
import ScriptCheck.Proofs.Syntax.Congruence
import ScriptCheck.Proofs.Reading.Mirroring
import ScriptCheck.Proofs.Grammar.Mirroring
import ScriptCheck.Proofs.Program.Mirroring
import ScriptCheck.Proofs.Program.BlankLines
import ScriptCheck.Proofs.Grammar.Frame
import ScriptCheck.Proofs.Expression.Separating
import ScriptCheck.Proofs.Expression.Severing
import ScriptCheck.Proofs.Expression.Slots
import ScriptCheck.Proofs.Statement.LastLine
import ScriptCheck.Proofs.Program.Expansion
import ScriptCheck.Proofs.Lexer.Returns
import ScriptCheck.Proofs.Check.Files
import ScriptCheck.Proofs.Program.Progress
import ScriptCheck.Proofs.Lexer.Malformed
import ScriptCheck.Proofs.Lexer.Escaping
import ScriptCheck.Proofs.Lexer.Numbers
import ScriptCheck.Proofs.Syntax.Agreement
import ScriptCheck.Proofs.Text.ReadingBack
import ScriptCheck.Proofs.Check.TokenDump
import ScriptCheck.Proofs.Text.Documents
import ScriptCheck.Proofs.Syntax.Outline
import ScriptCheck.Proofs.Syntax.Traversal
import ScriptCheck.Proofs.Program.Resuming
import ScriptCheck.Proofs.Program.Beyond
import ScriptCheck.Proofs.Program.Operations
