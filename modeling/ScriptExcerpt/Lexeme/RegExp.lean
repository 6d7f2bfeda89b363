import ScriptExcerpt.Lexeme.Fault
import ScriptExcerpt.Text.Word

/-!
# Regular expression literals

A regular expression stands between slashes on one line, and its flags follow.
A slash does not end it inside a class or behind a backslash. The opening slash
was read as a symbol before; if that symbol was `/=`, the body starts with `=`.

* `RegExp.recognizer`: reads the body and the flags. A fault comes with the
  flags that were read before it.
-/

namespace ScriptExcerpt.RegExp

open Text

/-- What was read of a literal; body and flags come in reverse. -/
inductive State
  /-- Nothing behind the opening slash. -/
  | opening
  /-- Part of the body; `inClass` tells whether a class is open. -/
  | body (text : List Char) (inClass : Bool)
  /-- Part of the body that ends in a backslash. -/
  | backslash (text : List Char) (inClass : Bool)
  /-- The body, and part of the flags. -/
  | flags (text flags : List Char)

/-- A literal that was read. -/
structure Literal where
  /-- The text between the slashes. -/
  body : List Char
  /-- The letters behind the closing slash. -/
  flags : List Char
deriving DecidableEq

/-- The flags that a regular expression may have. -/
def knownFlags : List Char := ['g', 'i', 'm', 'y', 's', 'u']

/-- The fault of a literal without end. -/
def unterminated : Fault × List Char :=
  (.unterminated "regular expression literal", [])

/-- What a character does in the body behind the text `text`. -/
def stepBody (text : List Char) (inClass : Bool) (c : Char) :
    Move State Literal (Fault × List Char) :=
  if c = '/' && !inClass then .take (.flags text [])
  else if isLineEnd c then .fail unterminated
  else if c = '\\' then .take (.backslash (c :: text) inClass)
  else .take (.body (c :: text) (c = '[' || (inClass && c ≠ ']')))

/-- What a character does to the state. A body cannot start with `*`, which
    would make the slash a comment. -/
def step : State → Char → Move State Literal (Fault × List Char)
  | .opening, c => if c = '*' then .refuse unterminated else stepBody [] false c
  | .body text inClass, c => stepBody text inClass c
  | .backslash text inClass, c =>
    if isLineEnd c then .fail unterminated else .take (.body (c :: text) inClass)
  | .flags text flags, c =>
    if knownFlags.contains c then .take (.flags text (c :: flags))
    else if isAlphabetic c then
      .fail (⟨.invalidRegExpFlag c, .back c.utf8Size⟩, flags.reverse)
    else .stop ⟨text.reverse, flags.reverse⟩

/-- What the end of the script does to the state. -/
def atEnd : State → Ending Literal (Fault × List Char)
  | .flags text flags => .accept ⟨text.reverse, flags.reverse⟩
  | _ => .fail unterminated

/-- Reads a literal whose opening slash was read. -/
def recognizer : Recognizer State Literal (Fault × List Char) :=
  ⟨fun _ => true, step, atEnd⟩

end ScriptExcerpt.RegExp
