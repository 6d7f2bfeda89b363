import ScriptExcerpt.Language.Keyword
import ScriptExcerpt.Language.Symbol

/-!
# Kinds of lexemes

What a stretch of a script can be.

* `Kind.isTrivia`: line ends and comments, which the grammar does not see.
* `Kind.isOperator`, `Kind.isPunctuation`, `Kind.isKeyword`, `Kind.takesTest`:
  the classes of kinds that decide what a slash or a brace means.
-/

namespace ScriptExcerpt

/-- What a stretch of a script is. -/
inductive Kind
  | endOfInput
  | lineEnd
  | number
  | string
  | template
  | regExp
  | identifier
  | lineComment
  | blockComment
  | symbol (s : Symbol)
  | keyword (k : Keyword)
  /-- A word that is kept for later use in the grammar. -/
  | reserved
  | literal (w : LiteralWord)
deriving DecidableEq

namespace Kind

/-- The name of the kind. -/
def name : Kind → String
  | endOfInput => "EOF"
  | lineEnd => "EOL"
  | number => "Number"
  | string => "String"
  | template => "TemplateLiteral"
  | regExp => "RegExp"
  | identifier => "Identifier"
  | lineComment => "LineComment"
  | blockComment => "BlockComment"
  | symbol s => s.name
  | keyword k => k.spelling.capitalize
  | reserved => "Reserved"
  | literal w => w.spelling.capitalize

/-- All kinds. -/
def all : List Kind :=
  [endOfInput, lineEnd, number, string, template, regExp, identifier, lineComment, blockComment,
    reserved] ++
  Symbol.all.map symbol ++ Keyword.all.map keyword ++ LiteralWord.all.map literal

/-- The kind of a given name. -/
def ofName? (s : String) : Option Kind :=
  all.find? (·.name == s)

/-- The grammar does not see lexemes of the kind. -/
def isTrivia : Kind → Bool
  | lineEnd | lineComment | blockComment => true
  | _ => false

/-- The kind is a keyword or a reserved word. The literal words are none. -/
def isKeyword : Kind → Bool
  | keyword _ | reserved => true
  | _ => false

/-- The kind is written with signs. -/
def isPunctuation : Kind → Bool
  | symbol _ => true
  | _ => false

/-- After the kind an operand is still expected. -/
def isOperator : Kind → Bool
  | symbol s => s.isOperator
  | keyword k => k.isOperator
  | _ => false

/-- The parentheses after the kind hold a test or a header. -/
def takesTest : Kind → Bool
  | keyword k => k.takesTest
  | _ => false

end Kind

end ScriptExcerpt
