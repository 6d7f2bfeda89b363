import ScriptExcerpt.Text.Offset
import ScriptExcerpt.Text.Quoted

/-!
# Problems

What can be wrong with a script, with the request for a part of it, or with a
search pattern. A problem has a cause, a position and, if it was met while a
lexeme was read, the excerpt of the script before the position.

* `Cause.name`, `Cause.text`: the name of a cause and what it says.
* `Cause.tip?`: advice for the causes that allow one.
* `Problem.message`: the whole message.
-/

namespace ScriptExcerpt

/-- What is wrong. -/
inductive Cause
  /-- The text that marks the beginning of an excerpt does not occur. -/
  | markerNotFound (marker : String)
  /-- A literal or comment has no end. -/
  | unterminatedLiteral (literal : String)
  /-- A character starts no lexeme, or follows a backslash that starts no
      escape. -/
  | illegalCharacter (character : Char)
  /-- A number breaks off. -/
  | numberFormat (reason : String)
  /-- `\u` is not followed by four hexadecimal digits that name a character. -/
  | invalidUnicodeEscape
  /-- A letter after a regular expression is no flag. -/
  | invalidRegExpFlag (flag : Char)
  /-- Brackets do not match. -/
  | unbalancedBrackets (text : String)
  /-- A search pattern matches nowhere. -/
  | patternNotMatched (pattern : String)
  /-- A search pattern is not well formed. -/
  | invalidPattern (pattern : String) (text : String)
deriving DecidableEq

/-- Something wrong at a position. -/
structure Problem where
  /-- What is wrong. -/
  cause : Cause
  /-- The byte offset at which it is. -/
  position : Nat
  /-- The excerpt of the script before the position, if one is attached. -/
  excerpt : Option String
deriving DecidableEq

namespace Cause

/-- The name of the cause. -/
def name : Cause → String
  | markerNotFound _ => "MarkerNotFound"
  | unterminatedLiteral _ => "UnterminatedLiteral"
  | illegalCharacter _ => "IllegalCharacter"
  | numberFormat _ => "NumberFormatError"
  | invalidUnicodeEscape => "InvalidUnicodeEscape"
  | invalidRegExpFlag _ => "InvalidRegexFlag"
  | unbalancedBrackets _ => "UnbalancedBrackets"
  | patternNotMatched _ => "PatternNotMatched"
  | invalidPattern _ _ => "InvalidPattern"

/-- What the cause says. -/
def text : Cause → String
  | markerNotFound marker => "start marker " ++ Text.quote marker ++ " not found"
  | unterminatedLiteral literal => "unterminated " ++ literal
  | illegalCharacter c => "illegal character: " ++ Text.quoteChar c
  | numberFormat reason => "number format error: " ++ reason
  | invalidUnicodeEscape => "invalid unicode escape"
  | invalidRegExpFlag c => "invalid regular expression flag: " ++ Text.quoteChar c
  | unbalancedBrackets text => "unbalanced brackets: " ++ text
  | patternNotMatched pattern => "pattern " ++ Text.quote pattern ++ " did not match"
  | invalidPattern pattern text => "invalid pattern " ++ Text.quote pattern ++ ": " ++ text

/-- Advice on the cause, if there is any to give. -/
def tip? : Cause → Option String
  | markerNotFound marker =>
    some ("`" ++ marker ++ "` does not occur in the script, has the player code changed?")
  | unterminatedLiteral literal =>
    some ("The " ++ literal ++ " is never closed before the end of the line or input")
  | illegalCharacter _ => none
  | numberFormat reason => some ("Invalid number literal: " ++ reason)
  | invalidUnicodeEscape => some "A `\\u` escape must be followed by exactly 4 hex digits"
  | invalidRegExpFlag c =>
    some ("`" ++ String.singleton c ++
      "` is not a regular expression flag, expected one of `gimysu`")
  | unbalancedBrackets text => some ("Brackets do not match: " ++ text)
  | patternNotMatched _ => none
  | invalidPattern _ text => some ("The pattern does not compile: " ++ text)

end Cause

namespace Problem

/-- A problem met at `position` while the lexemes of `source` were read. -/
def lexical (source : List Char) (cause : Cause) (position : Nat) : Problem :=
  ⟨cause, position, some (String.ofList (Text.excerptBefore source position))⟩

/-- Brackets that do not match at `position`, which the message repeats. -/
def unbalanced (text : String) (position : Nat) : Problem :=
  ⟨.unbalancedBrackets (text ++ " at " ++ toString position), position, none⟩

/-- A problem of a whole request, which has no position of its own. -/
def ofRequest (cause : Cause) : Problem :=
  ⟨cause, 0, none⟩

/-- The message of a problem. -/
def message (p : Problem) : String :=
  p.cause.text ++ " at offset " ++ toString p.position ++
    match p.excerpt with
    | none => ""
    | some e => ", after " ++ Text.quote e

end Problem

end ScriptExcerpt
