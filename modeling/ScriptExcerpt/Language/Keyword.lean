/-!
# Keywords

The words that have a meaning of their own in the grammar, and the three words
that are literals.

* `Keyword.spelling`: how a keyword is written.
* `Keyword.isOperator`: the keywords after which an operand is expected.
* `Keyword.takesTest`: the keywords whose parentheses hold a test or a header.
-/

namespace ScriptExcerpt

/-- A word with a meaning of its own in the grammar. -/
inductive Keyword
  | «break» | case | «catch» | const | «continue» | debugger | default | delete | «do» | «else»
  | «export» | «finally» | «for» | function | «if» | «import» | «in» | instanceof | «let» | new
  | «return» | switch | this | throw | «try» | typeof | var | void | while | «with» | yield
deriving DecidableEq

namespace Keyword

/-- All keywords. -/
def all : List Keyword :=
  [.break, .case, .catch, .const, .continue, .debugger, .default, .delete, .do, .else, .export,
    .finally, .for, .function, .if, .import, .in, .instanceof, .let, .new, .return, .switch,
    .this, .throw, .try, .typeof, .var, .void, .while, .with, .yield]

theorem mem_all (k : Keyword) : k ∈ all := by
  cases k <;> decide

/-- How the keyword is written. -/
def spelling : Keyword → String
  | .break => "break"
  | .case => "case"
  | .catch => "catch"
  | .const => "const"
  | .continue => "continue"
  | .debugger => "debugger"
  | .default => "default"
  | .delete => "delete"
  | .do => "do"
  | .else => "else"
  | .export => "export"
  | .finally => "finally"
  | .for => "for"
  | .function => "function"
  | .if => "if"
  | .import => "import"
  | .in => "in"
  | .instanceof => "instanceof"
  | .let => "let"
  | .new => "new"
  | .return => "return"
  | .switch => "switch"
  | .this => "this"
  | .throw => "throw"
  | .try => "try"
  | .typeof => "typeof"
  | .var => "var"
  | .void => "void"
  | .while => "while"
  | .with => "with"
  | .yield => "yield"

/-- After the keyword an operand is expected. -/
def isOperator : Keyword → Bool
  | .delete | .in | .instanceof | .new | .typeof | .void | .yield => true
  | _ => false

/-- The parentheses after the keyword hold a test or a header. -/
def takesTest : Keyword → Bool
  | .if | .while | .for | .switch | .with | .catch => true
  | _ => false

end Keyword

/-- A word that is a literal. -/
inductive LiteralWord
  | true | false | null
deriving DecidableEq

namespace LiteralWord

/-- All words that are literals. -/
def all : List LiteralWord := [.true, .false, .null]

theorem mem_all (w : LiteralWord) : w ∈ all := by
  cases w <;> decide

/-- How the word is written. -/
def spelling : LiteralWord → String
  | .true => "true"
  | .false => "false"
  | .null => "null"

end LiteralWord

end ScriptExcerpt
