import ScriptExcerpt.Language.Symbol
import ScriptExcerpt.Lexeme.Fault
import ScriptExcerpt.Text.Character

/-!
# Numbers

A number is decimal, with a fraction and an exponent if it has them, or it has a
prefix that names its base. A zero in front of other digits makes the base
eight, until a digit shows that ten was meant. Single separators may stand
between two digits, and from ECMAScript 6 on an `n` may follow a whole number.

The value of a number is its text without separators, without the prefix or the
leading zero, and without the `n`.

* `Number.recognizer`: reads the value of a number, or a point that stands
  alone.
-/

namespace ScriptExcerpt.Number

open Text

/-- The part of a number that a run of digits belongs to. -/
inductive Part
  | whole | fraction | exponent
deriving DecidableEq

/-- What was read of a number; the characters of the value come in reverse. -/
inductive State
  /-- A point that nothing stands before. -/
  | lonePoint
  /-- A zero that nothing stands before. -/
  | zero
  /-- The prefix of a base. -/
  | basePrefix (base : Nat)
  /-- A leading zero and digits less than eight. -/
  | octal (value : List Char)
  /-- A value that ends in a digit of `base`. -/
  | digits (base : Nat) (part : Part) (value : List Char)
  /-- The same, and a separator. -/
  | separator (base : Nat) (part : Part) (value : List Char)
  /-- A whole number, and `n`. -/
  | bigInteger (value : List Char)
  /-- A value that ends in a point. -/
  | point (value : List Char)
  /-- A value that ends in the `e` of an exponent. -/
  | exponent (value : List Char)
  /-- A value that ends in the sign of an exponent. -/
  | sign (value : List Char)

/-- The state behind the first character of a number, a digit or a point. -/
def start (c : Char) : State :=
  if c = '.' then .lonePoint else if c = '0' then .zero else .digits 10 .whole [c]

/-- The fault of a prefix without digits. -/
def missingDigits : Fault := .number "missing digits after base prefix"

/-- The fault of an exponent without digits. -/
def missingExponent : Fault := .number "missing exponent"

/-- The fault of a separator behind which the line ends. -/
def separatorAtLineEnd : Fault := .number "numeric separator at end of line"

/-- The base that the character behind a zero names, if it names one. -/
def baseOf? (v : Version) (c : Char) : Option Nat :=
  if c = 'x' || c = 'X' then some 16
  else if v = .es6 && (c = 'o' || c = 'O') then some 8
  else if v = .es6 && (c = 'b' || c = 'B') then some 2
  else none

/-- `c` introduces an exponent. -/
def isExponentMark (c : Char) : Bool :=
  c == 'e' || c == 'E'

/-- What the character `c`, which is no digit, does behind a whole number. -/
def stepBehindWhole (v : Version) (base : Nat) (value : List Char) (c : Char) :
    Move State (Option (List Char)) Fault :=
  if v = .es6 && c = 'n' then .take (.bigInteger value)
  else if base = 10 && c = '.' then .take (.point (c :: value))
  else if base = 10 && isExponentMark c then .take (.exponent (c :: value))
  else .stop (some value.reverse)

/-- What a character does to the state. -/
def step (v : Version) : State → Char → Move State (Option (List Char)) Fault
  | .lonePoint, c =>
    if isDigitOf 10 c then .take (.digits 10 .fraction [c, '.']) else .stop none
  | .zero, c =>
    match baseOf? v c with
    | some base => .take (.basePrefix base)
    | none =>
      if isDigitOf 8 c then .take (.octal [c])
      else if isDigitOf 10 c then .take (.digits 10 .whole [c])
      else stepBehindWhole v 10 ['0'] c
  | .basePrefix base, c =>
    if isDigitOf base c then .take (.digits base .whole [c]) else .fail missingDigits
  | .octal value, c =>
    if isDigitOf 8 c then .take (.octal (c :: value))
    else if isDigitOf 10 c then .take (.digits 10 .whole (c :: value))
    else stepBehindWhole v 8 value c
  | .digits base part value, c =>
    if isDigitOf base c then .take (.digits base part (c :: value))
    else if c = '_' then .probe (.separator base part value)
    else
      match part with
      | .whole => stepBehindWhole v base value c
      | .fraction =>
        if isExponentMark c then .take (.exponent (c :: value)) else .stop (some value.reverse)
      | .exponent => .stop (some value.reverse)
  | .separator base part value, c =>
    if isDigitOf base c then .take (.digits base part (c :: value))
    else if isLineEnd c then .fail separatorAtLineEnd
    else .stop (some value.reverse)
  | .bigInteger value, _ => .stop (some value.reverse)
  | .point value, c =>
    if isDigitOf 10 c then .take (.digits 10 .fraction (c :: value))
    else if isExponentMark c then .take (.exponent (c :: value))
    else .stop (some value.reverse)
  | .exponent value, c =>
    if c = '+' || c = '-' then .take (.sign (c :: value))
    else if isDigitOf 10 c then .take (.digits 10 .exponent (c :: value))
    else .fail missingExponent
  | .sign value, c =>
    if isDigitOf 10 c then .take (.digits 10 .exponent (c :: value)) else .fail missingExponent

/-- What the end of the script does to the state. -/
def atEnd : State → Ending (Option (List Char)) Fault
  | .lonePoint => .accept none
  | .zero => .accept (some ['0'])
  | .basePrefix _ => .fail missingDigits
  | .octal value | .digits _ _ value | .bigInteger value | .point value =>
    .accept (some value.reverse)
  | .separator _ _ _ => .fail separatorAtLineEnd
  | .exponent _ | .sign _ => .fail missingExponent

/-- Reads the value of a number; a point that no digit follows has none. -/
def recognizer (v : Version) : Recognizer State (Option (List Char)) Fault :=
  ⟨fun _ => true, step v, atEnd⟩

end ScriptExcerpt.Number
