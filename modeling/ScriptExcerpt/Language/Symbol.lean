/-!
# Versions and symbols

What a script may contain depends on the version of the language: its reserved
words, the forms of numbers, and the power operator. The symbols are brackets,
separators and the operators that are written with signs.

* `Symbol.spelling`: how a symbol is written.
* `Symbol.allowed`: the power operators came with ECMAScript 6.
* `Symbol.isOperator`: the symbols after which an operand is still expected.
-/

namespace ScriptExcerpt

/-! ## Versions -/

/-- A version of JavaScript. -/
inductive Version
  /-- Before 1.7: `let` and `yield` are plain names. -/
  | legacy
  /-- Versions 1.7 and 1.8. -/
  | js17
  /-- ECMAScript 6 and later: binary and octal prefixes, big integers, `**`. -/
  | es6
deriving DecidableEq

/-- The version that is meant where none is given. -/
instance : Inhabited Version := ⟨.legacy⟩

/-! ## Symbols -/

/-- A bracket, separator or sign operator. -/
inductive Symbol
  | tilde
  | openBracket | closeBracket | openCurly | closeCurly | openParen | closeParen
  | assignment | equals | strictEquals | not | notEquals | strictNotEquals
  | less | lessEquals | greater | greaterEquals
  | shiftLeft | shiftRight | unsignedShiftRight
  | or | and | pipe | caret | ampersand
  | dot | semicolon | colon | question | comma | arrow
  | plusPlus | minusMinus
  | plusEquals | minusEquals | slashEquals | starEquals | percentEquals | starStarEquals
  | pipeEquals | caretEquals | ampersandEquals
  | shiftLeftEquals | shiftRightEquals | unsignedShiftRightEquals
  | plus | dash | slash | star | starStar | percent
deriving DecidableEq

namespace Symbol

/-- All symbols. -/
def all : List Symbol :=
  [tilde, openBracket, closeBracket, openCurly, closeCurly, openParen, closeParen,
    assignment, equals, strictEquals, not, notEquals, strictNotEquals,
    less, lessEquals, greater, greaterEquals, shiftLeft, shiftRight, unsignedShiftRight,
    or, and, pipe, caret, ampersand, dot, semicolon, colon, question, comma, arrow,
    plusPlus, minusMinus, plusEquals, minusEquals, slashEquals, starEquals, percentEquals,
    starStarEquals, pipeEquals, caretEquals, ampersandEquals,
    shiftLeftEquals, shiftRightEquals, unsignedShiftRightEquals,
    plus, dash, slash, star, starStar, percent]

theorem mem_all (s : Symbol) : s ∈ all := by
  cases s <;> decide

/-- How the symbol is written. -/
def spelling : Symbol → String
  | tilde => "~"
  | openBracket => "["
  | closeBracket => "]"
  | openCurly => "\x7b"
  | closeCurly => "\x7d"
  | openParen => "("
  | closeParen => ")"
  | assignment => "="
  | equals => "=="
  | strictEquals => "==="
  | not => "!"
  | notEquals => "!="
  | strictNotEquals => "!=="
  | less => "<"
  | lessEquals => "<="
  | greater => ">"
  | greaterEquals => ">="
  | shiftLeft => "<<"
  | shiftRight => ">>"
  | unsignedShiftRight => ">>>"
  | or => "||"
  | and => "&&"
  | pipe => "|"
  | caret => "^"
  | ampersand => "&"
  | dot => "."
  | semicolon => ";"
  | colon => ":"
  | question => "?"
  | comma => ","
  | arrow => "=>"
  | plusPlus => "++"
  | minusMinus => "--"
  | plusEquals => "+="
  | minusEquals => "-="
  | slashEquals => "/="
  | starEquals => "*="
  | percentEquals => "%="
  | starStarEquals => "**="
  | pipeEquals => "|="
  | caretEquals => "^="
  | ampersandEquals => "&="
  | shiftLeftEquals => "<<="
  | shiftRightEquals => ">>="
  | unsignedShiftRightEquals => ">>>="
  | plus => "+"
  | dash => "-"
  | slash => "/"
  | star => "*"
  | starStar => "**"
  | percent => "%"

/-- The name of the symbol. -/
def name : Symbol → String
  | tilde => "Tilde"
  | openBracket => "OpenBracket"
  | closeBracket => "CloseBracket"
  | openCurly => "OpenCurly"
  | closeCurly => "CloseCurly"
  | openParen => "OpenParen"
  | closeParen => "CloseParen"
  | assignment => "Assignment"
  | equals => "Equals"
  | strictEquals => "StrictEquals"
  | not => "Not"
  | notEquals => "NotEquals"
  | strictNotEquals => "StrictNotEquals"
  | less => "Less"
  | lessEquals => "LessEquals"
  | greater => "Greater"
  | greaterEquals => "GreaterEquals"
  | shiftLeft => "ShiftLeft"
  | shiftRight => "ShiftRight"
  | unsignedShiftRight => "UnsignedShiftRight"
  | or => "Or"
  | and => "And"
  | pipe => "Pipe"
  | caret => "Caret"
  | ampersand => "Ampersand"
  | dot => "Dot"
  | semicolon => "Semicolon"
  | colon => "Colon"
  | question => "Question"
  | comma => "Comma"
  | arrow => "Arrow"
  | plusPlus => "PlusPlus"
  | minusMinus => "MinusMinus"
  | plusEquals => "PlusEquals"
  | minusEquals => "MinusEquals"
  | slashEquals => "SlashEquals"
  | starEquals => "StarEquals"
  | percentEquals => "PercentEquals"
  | starStarEquals => "StarStarEquals"
  | pipeEquals => "PipeEquals"
  | caretEquals => "CaretEquals"
  | ampersandEquals => "AmpersandEquals"
  | shiftLeftEquals => "ShiftLeftEquals"
  | shiftRightEquals => "ShiftRightEquals"
  | unsignedShiftRightEquals => "UnsignedShiftRightEquals"
  | plus => "Plus"
  | dash => "Dash"
  | slash => "Slash"
  | star => "Star"
  | starStar => "StarStar"
  | percent => "Percent"

/-- The symbol exists in the version. -/
def allowed (v : Version) : Symbol → Bool
  | starStar | starStarEquals => v == .es6
  | _ => true

/-- After the symbol an operand is still expected. The brackets, the dot, the
    semicolon and the arrow are no operators. -/
def isOperator : Symbol → Bool
  | openBracket | closeBracket | openCurly | closeCurly | openParen | closeParen
  | dot | semicolon | arrow => false
  | _ => true

end Symbol

end ScriptExcerpt
