/-!
# Classes of characters

A small class is told by comparisons, a large one by a table of the ranges of its
code points, in increasing order, so that a search ends at the first range that
starts behind the code point (`Ranges.has`).

Four disjoint uses of a character that leaves no ink:

* a *line end* closes a line (`isLineEnd`);
* a *blank* separates two lexemes (`isBlank`); the byte order mark is one;
* an *invisible* format character is passed over outside literals
  (`isInvisible`); the joiners are not among them, since a name may need them;
* `isWhiteSpace` is the wider notion of the Unicode standard, used where text is
  trimmed for display and in search patterns.

The digits are the ten digits of ASCII, followed by its letters in either case
(`isDigitOf`).
-/

namespace ScriptExcerpt.Text

/-! ## Tables of code points -/

/-- Ranges of code points, both ends included, in increasing order. -/
abbrev Ranges := List (Nat × Nat)

/-- `n` lies in one of the ranges. -/
def Ranges.has : Ranges → Nat → Bool
  | [], _ => false
  | (first, last) :: rest, n =>
    if n < first then false else if n ≤ last then true else Ranges.has rest n

/-! ## Characters without ink -/

/-- `c` ends a line. -/
def isLineEnd (c : Char) : Bool :=
  c == '\n' || c == '\r' || c == '\u2028' || c == '\u2029'

/-- `c` separates lexemes on a line. -/
def isBlank (c : Char) : Bool :=
  c == ' ' || c == '\t' || c == '\x0b' || c == '\x0c' || c == '\u00a0' || c == '\ufeff' ||
    c == '\u1680' || ('\u2000' ≤ c && c ≤ '\u200a') || c == '\u202f' || c == '\u205f' ||
    c == '\u3000'

/-- `c` is a format character that is passed over outside literals. -/
def isInvisible (c : Char) : Bool :=
  c == '\u00ad' || ('\u0600' ≤ c && c ≤ '\u0605') || c == '\u061c' || c == '\u180e' ||
    c == '\u200b' || c == '\u200e' || c == '\u200f' || ('\u202a' ≤ c && c ≤ '\u202e') ||
    ('\u2060' ≤ c && c ≤ '\u2064') || ('\u2066' ≤ c && c ≤ '\u206f')

/-- `c` has the Unicode property `White_Space`. -/
def isWhiteSpace (c : Char) : Bool :=
  ('\t' ≤ c && c ≤ '\r') || c == ' ' || c == '\u0085' || c == '\u00a0' || c == '\u1680' ||
    ('\u2000' ≤ c && c ≤ '\u200a') || c == '\u2028' || c == '\u2029' || c == '\u202f' ||
    c == '\u205f' || c == '\u3000'

/-! ## Digits -/

/-- The value of `c` as a digit of the largest base, 36. -/
def digitValue? (c : Char) : Option Nat :=
  if '0' ≤ c && c ≤ '9' then some (c.toNat - '0'.toNat)
  else if 'a' ≤ c && c ≤ 'z' then some (c.toNat - 'a'.toNat + 10)
  else if 'A' ≤ c && c ≤ 'Z' then some (c.toNat - 'A'.toNat + 10)
  else none

/-- The value of `c` as a digit of `base`. -/
def digitOf? (base : Nat) (c : Char) : Option Nat :=
  (digitValue? c).filter (· < base)

/-- `c` is a digit of `base`. -/
def isDigitOf (base : Nat) (c : Char) : Bool :=
  (digitOf? base c).isSome

end ScriptExcerpt.Text
