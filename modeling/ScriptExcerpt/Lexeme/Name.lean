import ScriptExcerpt.Language.Vocabulary
import ScriptExcerpt.Lexeme.Fault
import ScriptExcerpt.Text.Character
import ScriptExcerpt.Text.Name

/-!
# Names

A name is a run of name characters, each of which may also be written as `\u`
and four hexadecimal digits. Any character that the digits name is accepted,
whether it could stand in a name or not. A keyword with an escape is a name; its
value is spelled with the last character escaped, so that it does not read as
the keyword.

* `Name.recognizer`: reads the word of a name, and whether it has an escape.
* `Name.kind`, `Name.value`: what a word is, and its value.
-/

namespace ScriptExcerpt.Name

open Text

/-- What was read of a name; the characters of the word come in reverse. -/
inductive State
  /-- The backslash that opens the name. -/
  | opening
  /-- Part of a word. -/
  | inside (word : List Char) (escaped : Bool)
  /-- Part of a word, and a backslash. -/
  | backslash (word : List Char)
  /-- Part of a word, and an escape of which `left` digits are missing, with
      the value of those before. -/
  | digits (word : List Char) (left value : Nat)

/-- The state behind the first character of a name. -/
def start (c : Char) : State :=
  if c = '\\' then .opening else .inside [c] false

/-- The fault of a backslash with which no name starts. -/
def strayBackslash : Fault :=
  ⟨.illegalCharacter '\\', .opening⟩

/-- The fault of the character `c` behind a backslash inside a name. -/
def strayEscape (c : Char) : Fault :=
  ⟨.illegalCharacter (if isLineEnd c then '\n' else c), .back 0⟩

/-- What a character does to the state. -/
def step : State → Char → Move State (List Char × Bool) Fault
  | .opening, c => if c = 'u' then .take (.digits [] 4 0) else .refuse strayBackslash
  | .inside word escaped, c =>
    if c = '\\' then .take (.backslash word)
    else if isNamePart c then .take (.inside (c :: word) escaped)
    else .stop (word.reverse, escaped)
  | .backslash word, c => if c = 'u' then .take (.digits word 4 0) else .fail (strayEscape c)
  | .digits word left value, c =>
    match digitOf? 16 c with
    | none => .fail .unicodeEscape
    | some d =>
      let n := 16 * value + d
      if left ≠ 1 then .take (.digits word (left - 1) n)
      else if n.isValidChar then .take (.inside (Char.ofNat n :: word) true)
      else .fail .unicodeEscape

/-- What the end of the script does to the state. -/
def atEnd : State → Ending (List Char × Bool) Fault
  | .opening => .fail strayBackslash
  | .inside word escaped => .accept (word.reverse, escaped)
  | .backslash _ => .fail ⟨.illegalCharacter '\\', .back 0⟩
  | .digits _ _ _ => .fail .unicodeEscape

/-- Reads the word of a name, and whether a part of it is escaped. -/
def recognizer : Recognizer State (List Char × Bool) Fault :=
  ⟨fun _ => true, step, atEnd⟩

/-- The kind of a word. -/
def kind (v : Version) (word : List Char) (escaped : Bool) : Kind :=
  if escaped then .identifier else nameKind v (String.ofList word)

/-- Four hexadecimal digits of `n`. -/
def fourDigits (n : Nat) : List Char :=
  (Nat.toDigits 16 n).leftpad 4 '0'

/-- The word with its last character escaped. -/
def escapeLast (word : List Char) : List Char :=
  match word.getLast? with
  | none => []
  | some c => word.dropLast ++ ['\\', 'u'] ++ fourDigits c.toNat

/-- The value of a word. -/
def value (v : Version) (word : List Char) (escaped : Bool) : List Char :=
  if escaped && (wordKind? v false (String.ofList word)).isSome then escapeLast word else word

end ScriptExcerpt.Name
