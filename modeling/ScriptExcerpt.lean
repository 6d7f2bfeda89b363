import ScriptExcerpt.Text.Name
import ScriptExcerpt.Text.Quoted
import ScriptExcerpt.Text.CaseFolding
import ScriptExcerpt.Text.Character
import ScriptExcerpt.Text.Offset
import ScriptExcerpt.Text.CodeUnit
import ScriptExcerpt.Language.Vocabulary
import ScriptExcerpt.Report
import ScriptExcerpt.Reading.Recognizer
import ScriptExcerpt.Lexeme.Name
import ScriptExcerpt.Lexeme.Number
import ScriptExcerpt.Lexeme.Quotation
import ScriptExcerpt.Lexeme.RegExp
import ScriptExcerpt.Lexeme.Operator
import ScriptExcerpt.Lexeme.Reader
import ScriptExcerpt.Excerpt
import ScriptExcerpt.Search
import ScriptExcerpt.Proofs.Place
import ScriptExcerpt.Proofs.Extent
import ScriptExcerpt.Proofs.Alike
import ScriptExcerpt.Proofs.Again
import ScriptExcerpt.Proofs.CodeUnit
import ScriptExcerpt.Proofs.Offset
import ScriptExcerpt.Proofs.Lines
import ScriptExcerpt.Proofs.Report
import ScriptExcerpt.Proofs.Run
import ScriptExcerpt.Proofs.Tape
import ScriptExcerpt.Proofs.Drive
import ScriptExcerpt.Proofs.Standing
import ScriptExcerpt.Proofs.Lexeme.Local
import ScriptExcerpt.Proofs.Lexeme.Reader
import ScriptExcerpt.Proofs.Lexeme.Extent
import ScriptExcerpt.Proofs.Lexeme.Lossless
import ScriptExcerpt.Proofs.Lexeme.Shift
import ScriptExcerpt.Proofs.Lexeme.Alike
import ScriptExcerpt.Proofs.Lexeme.LineEnds
import ScriptExcerpt.Proofs.Lexeme.Invisible
import ScriptExcerpt.Proofs.Lexeme.Spelling
import ScriptExcerpt.Proofs.Lexeme.Again
import ScriptExcerpt.Proofs.Lexeme.Version
import ScriptExcerpt.Proofs.Lexeme.Piece
import ScriptExcerpt.Proofs.Lexeme.Quotation
import ScriptExcerpt.Proofs.Lexeme.Written
import ScriptExcerpt.Proofs.Lexeme.RegExp
import ScriptExcerpt.Proofs.Lexeme.Number
import ScriptExcerpt.Proofs.Lexeme.Name
import ScriptExcerpt.Proofs.Lexeme.Longest
import ScriptExcerpt.Proofs.Lexeme.CommentOpening
import ScriptExcerpt.Proofs.Lexeme.LineStart
import ScriptExcerpt.Proofs.Lexeme.LineNumber
import ScriptExcerpt.Proofs.Lexeme.Comment
import ScriptExcerpt.Proofs.Lexeme.LastCharacter
import ScriptExcerpt.Proofs.Lexeme.Problem
import ScriptExcerpt.Proofs.Lexeme.Character
import ScriptExcerpt.Proofs.Lexeme.Alone
import ScriptExcerpt.Proofs.Lexeme.Tape
import ScriptExcerpt.Proofs.Lexeme.Fit
import ScriptExcerpt.Proofs.Lexeme.Standing
import ScriptExcerpt.Proofs.Token.Step
import ScriptExcerpt.Proofs.Token.Calls
import ScriptExcerpt.Proofs.Token.Extent
import ScriptExcerpt.Proofs.Token.History
import ScriptExcerpt.Proofs.Token.Balance
import ScriptExcerpt.Proofs.Token.Role
import ScriptExcerpt.Proofs.Token.Slash
import ScriptExcerpt.Proofs.Token.Suffix
import ScriptExcerpt.Proofs.Token.Alike
import ScriptExcerpt.Proofs.Token.LineCount
import ScriptExcerpt.Proofs.Token.LineEnds
import ScriptExcerpt.Proofs.Token.Invisible
import ScriptExcerpt.Proofs.Token.Layout
import ScriptExcerpt.Proofs.Token.Version
import ScriptExcerpt.Proofs.Token.Quotation
import ScriptExcerpt.Proofs.Token.RegExp
import ScriptExcerpt.Proofs.Token.Number
import ScriptExcerpt.Proofs.Token.Word
import ScriptExcerpt.Proofs.Token.Name
import ScriptExcerpt.Proofs.Token.LastCharacter
import ScriptExcerpt.Proofs.Token.Problem
import ScriptExcerpt.Proofs.Token.Character
import ScriptExcerpt.Proofs.Token.Flags
import ScriptExcerpt.Proofs.Excerpt.Closing
import ScriptExcerpt.Proofs.Excerpt.Function
import ScriptExcerpt.Proofs.Excerpt.Script
import ScriptExcerpt.Proofs.Token.Embedding
import ScriptExcerpt.Proofs.Excerpt.Local
import ScriptExcerpt.Proofs.Excerpt.Name
