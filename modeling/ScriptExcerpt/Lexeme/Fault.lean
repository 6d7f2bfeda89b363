import ScriptExcerpt.Problem
import ScriptExcerpt.Reading.Recognizer

/-!
# Faults of lexemes

A lexeme that cannot be read has a fault. Its position is that of the lexeme,
if the lexeme has no end, or lies where the reading broke off.
-/

namespace ScriptExcerpt

/-- Where the fault of a lexeme lies. -/
inductive Blame
  /-- Where the lexeme starts. -/
  | opening
  /-- The given number of bytes before the place where the reading broke off. -/
  | back (bytes : Nat)
deriving DecidableEq

/-- What is wrong with a lexeme. -/
structure Fault where
  /-- What is wrong. -/
  cause : Cause
  /-- Where it is. -/
  blame : Blame
deriving DecidableEq

/-- The offset of the fault of a lexeme that starts at `start`, if the reading
    broke off at `stop`. -/
def Fault.position (f : Fault) (start stop : Nat) : Nat :=
  match f.blame with
  | .opening => start
  | .back bytes => stop - bytes

/-- The fault of a literal that has no end. -/
def Fault.unterminated (literal : String) : Fault :=
  ⟨.unterminatedLiteral literal, .opening⟩

/-- The fault of an escape without four digits that name a character. -/
def Fault.unicodeEscape : Fault :=
  ⟨.invalidUnicodeEscape, .back 0⟩

/-- The fault of a number that breaks off. -/
def Fault.number (reason : String) : Fault :=
  ⟨.numberFormat reason, .back 0⟩

end ScriptExcerpt
