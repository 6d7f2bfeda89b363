import ScriptExcerpt.Lexeme.Fault
import ScriptExcerpt.Text.Character
import ScriptExcerpt.Text.CodeUnit

/-!
# Quotations

String literals stand between single or double quotes on one line, template
literals between backticks. Every character counts, so none is passed over
outside escapes. An escape may write half of a surrogate pair, so the value is
decoded as characters and UTF-16 code units come.

* `Quotation.recognizer`: reads the value of a literal up to its closing quote.
-/

namespace ScriptExcerpt.Quotation

open Text Text.CodeUnit

/-- What was read of a literal, and what was decoded of it before the last
    escape. -/
inductive State
  /-- Complete characters and escapes. -/
  | text (decoded : Decoder)
  /-- A backslash. -/
  | backslash (decoded : Decoder)
  /-- A backslash at the end of a line. -/
  | continued (decoded : Decoder)
  /-- An escape by four digits, of which `left` are missing, with the value of
      those before. -/
  | unicode (decoded : Decoder) (left value : Nat)
  /-- An escape by two digits without a digit. -/
  | byte (decoded : Decoder)
  /-- An escape by two digits with its first digit. -/
  | halfByte (decoded : Decoder) (first : Char) (value : Nat)
  /-- An escape by up to three octal digits, of which `count` were read. -/
  | octal (decoded : Decoder) (count value : Nat)

/-- The characters of the literal are taken as they are in the state. -/
def State.isPlain : State → Bool
  | .text _ => true
  | _ => false

/-- The name of a literal between two characters `quote`. -/
def literal (quote : Char) : String :=
  if quote = '`' then "template literal" else "string literal"

/-- The character that a letter behind a backslash stands for, if it is not
    itself. -/
def controlOf? (c : Char) : Option Char :=
  if c = 'b' then some '\x08'
  else if c = 'f' then some '\x0c'
  else if c = 'n' then some '\n'
  else if c = 'r' then some '\r'
  else if c = 't' then some '\t'
  else if c = 'v' then some '\x0b'
  else none

/-- What a character outside escapes does. The line and paragraph separators may
    stand in any literal, the other line ends only in a template, where each
    counts as a newline. -/
def stepText (quote : Char) (decoded : Decoder) (c : Char) : Move State Decoder Fault :=
  if c = quote then .finish decoded
  else if c = '\\' then .take (.backslash decoded)
  else if c = '\u2028' || c = '\u2029' || !isLineEnd c then .take (.text (decoded.char c))
  else if quote = '`' then .take (.text (decoded.char '\n'))
  else .fail (.unterminated (literal quote))

/-- What a character behind a backslash does. -/
def stepBackslash (decoded : Decoder) (c : Char) : State :=
  match controlOf? c with
  | some d => .text (decoded.char d)
  | none =>
    if c = 'u' then .unicode decoded 4 0
    else if c = 'x' then .byte decoded
    else if isLineEnd c then .continued decoded
    else
      match digitOf? 8 c with
      | some d => .octal decoded 1 d
      | none => .text (decoded.char c)

/-- What a character does to the state. An escape by two digits that lacks one
    is the text of what was read of it, and an octal escape has a third digit
    only if its value stays below 256. -/
def step (quote : Char) : State → Char → Move State Decoder Fault
  | .text decoded, c | .continued decoded, c => stepText quote decoded c
  | .backslash decoded, c => .take (stepBackslash decoded c)
  | .unicode decoded left value, c =>
    match digitOf? 16 c with
    | none => .fail .unicodeEscape
    | some d =>
      let n := 16 * value + d
      if left ≠ 1 then .take (.unicode decoded (left - 1) n)
      else .take (.text (decoded.unit n.toUInt16))
  | .byte decoded, c =>
    match digitOf? 16 c with
    | none => stepText quote (decoded.char 'x') c
    | some d => .take (.halfByte decoded c d)
  | .halfByte decoded first value, c =>
    match digitOf? 16 c with
    | none => stepText quote ((decoded.char 'x').char first) c
    | some d => .take (.text (decoded.char (Char.ofNat (16 * value + d))))
  | .octal decoded count value, c =>
    match digitOf? 8 c with
    | some d =>
      if count = 1 || (count = 2 && value ≤ 31) then
        .take (.octal decoded (count + 1) (8 * value + d))
      else stepText quote (decoded.char (Char.ofNat value)) c
    | none => stepText quote (decoded.char (Char.ofNat value)) c

/-- What the end of the script does to the state. -/
def atEnd (quote : Char) : State → Ending Decoder Fault
  | .unicode _ _ _ => .fail .unicodeEscape
  | _ => .fail (.unterminated (literal quote))

/-- Reads the value of a literal whose opening quote was read. -/
def recognizer (quote : Char) : Recognizer State Decoder Fault :=
  ⟨fun s => !s.isPlain, step quote, atEnd quote⟩

end ScriptExcerpt.Quotation
