import ScriptExcerpt.Language.Kind
import ScriptExcerpt.Lexeme.Fault

/-!
# Symbols and comments

Of the spellings that a script may go on with, the longest one counts. Comments
open with a spelling of their own; `-->` opens one only where nothing but blanks
stands before it on the line. The spelling `<!--` is the only one with beginnings
that are no spellings, `<!` and `<!-`: after these, what was looked at is left
unread. So it is, too, where the script ends in `<!` or `<!-` and invisible
characters. What becomes of that end is this library's own choice: one that gave
back the signs, but not the invisible characters behind them, would have to cut a
character in two, and could tell no symbol there.

A line comment ends before the end of its line, a block comment with the first
`*/` behind its opening.

* `Operator.spellings`: the spellings of a version.
* `Operator.recognizer`: reads the longest spelling.
* `Comment.lineRecognizer`, `Comment.blockRecognizer`: read the rest of a comment.
-/

namespace ScriptExcerpt

open Text

/-! ## Symbols -/

namespace Operator

/-- The spellings that open a comment. -/
def commentOpenings (lineIsBlank : Bool) : List (List Char × Kind) :=
  [(['/', '/'], .lineComment), (['/', '*'], .blockComment), (['<', '!', '-', '-'], .lineComment)] ++
    if lineIsBlank then [(['-', '-', '>'], .lineComment)] else []

/-- All spellings of a version, with what they mean. `lineIsBlank` tells that
    nothing but blanks stands before the lexeme on its line. -/
def spellings (v : Version) (lineIsBlank : Bool) : List (List Char × Kind) :=
  (Symbol.all.filter (·.allowed v)).map (fun s => (s.spelling.toList, .symbol s)) ++
    commentOpenings lineIsBlank

/-- The meaning of a spelling. -/
def kindOf? (table : List (List Char × Kind)) (text : List Char) : Option Kind :=
  table.lookup text

/-- A longer spelling starts with `text`. -/
def extends? (table : List (List Char × Kind)) (text : List Char) : Bool :=
  table.any fun (spelling, _) => text.isPrefixOf spelling && text.length < spelling.length

/-- What was read: a text, and the meaning of the longest spelling that it
    starts with. -/
structure State where
  /-- The text. -/
  text : List Char
  /-- What its longest spelling means. -/
  kind : Kind

/-- What a character does to the state. -/
def step (table : List (List Char × Kind)) (s : State) (c : Char) : Move State Kind Fault :=
  let text := s.text ++ [c]
  match kindOf? table text with
  | some kind => if extends? table text then .take ⟨text, kind⟩ else .finish kind
  | none => if extends? table text then .probe ⟨text, s.kind⟩ else .stop s.kind

/-- What the end of the script does to the state. -/
def atEnd (table : List (List Char × Kind)) (s : State) : Ending Kind Fault :=
  if kindOf? table s.text = some s.kind then .accept s.kind else .back s.kind

/-- Reads the longest spelling. -/
def recognizer (table : List (List Char × Kind)) : Recognizer State Kind Fault :=
  ⟨fun _ => true, step table, atEnd table⟩

end Operator

/-! ## Comments -/

namespace Comment

/-- Reads the rest of a line. -/
def lineRecognizer : Recognizer Unit Unit Fault where
  skips _ := true
  step _ c := if isLineEnd c then .stop () else .take ()
  atEnd _ := .accept ()

/-- Reads up to the end of a block comment. The state tells whether a star was
    read last. -/
def blockRecognizer : Recognizer Bool Unit Fault where
  skips _ := true
  step star c := if star && c = '/' then .finish () else .take (c = '*')
  atEnd _ := .fail (.unterminated "block comment")

end Comment

end ScriptExcerpt
