/-!
# UTF-16 code units

The value of a string literal is a sequence of 16-bit units: an escape may
write half of a surrogate pair. Read as text, a pair is one character and a
surrogate that stands alone is the replacement character.

* `Decoder`: decodes a text as its characters and units come.
-/

namespace ScriptExcerpt.Text.CodeUnit

/-- The character that stands for what cannot be decoded. -/
def replacement : Char := '\ufffd'

/-- `u` is the first half of a surrogate pair. -/
def isHigh (u : UInt16) : Bool := 0xd800 ≤ u && u < 0xdc00

/-- `u` is the second half of a surrogate pair. -/
def isLow (u : UInt16) : Bool := 0xdc00 ≤ u && u < 0xe000

/-- The character of a surrogate pair. -/
def pair (high low : UInt16) : Char :=
  Char.ofNat (0x10000 + (high.toNat - 0xd800) * 0x400 + (low.toNat - 0xdc00))

/-- A text that is being decoded. -/
structure Decoder where
  /-- What was decoded, in reverse. -/
  text : List Char
  /-- The first half of a surrogate pair behind it, of which the second half has
      not come. -/
  pending : Option UInt16

namespace Decoder

/-- Nothing was decoded. -/
def empty : Decoder := ⟨[], none⟩

/-- No second half follows: the first one stands alone. -/
def flush (d : Decoder) : Decoder :=
  match d.pending with
  | none => d
  | some _ => ⟨replacement :: d.text, none⟩

/-- The character `c` follows. -/
def char (d : Decoder) (c : Char) : Decoder :=
  { d.flush with text := c :: d.flush.text }

/-- The unit `u` follows. -/
def unit (d : Decoder) (u : UInt16) : Decoder :=
  if isHigh u then { d.flush with pending := some u }
  else if isLow u then
    match d.pending with
    | some high => ⟨pair high u :: d.text, none⟩
    | none => ⟨replacement :: d.text, none⟩
  else d.char (Char.ofNat u.toNat)

/-- The whole text. -/
def value (d : Decoder) : List Char :=
  d.flush.text.reverse

end Decoder

end ScriptExcerpt.Text.CodeUnit
