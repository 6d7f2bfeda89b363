import ScriptExcerpt.Text.Word

/-!
# Characters of names

A name starts with a letter, `$` or `_`, and goes on with letters, digits,
marks and connecting punctuation. Outside ASCII the classes are `XID_Start` and
`XID_Continue` of the Unicode identifier rules, as of Unicode 17.0; the two
joiners may stand inside a name.

* `isNamePart_of_isNameStart`: what may start a name may go on with it.
-/

namespace ScriptExcerpt.Text

/-- The characters that start a name without being letters or letter numbers. -/
def nameStartersNotLetters : Ranges :=
  [(0x1885, 0x1886), (0x2118, 0x2118), (0x212e, 0x212e)]

/-- The letters that start no name, because their compatibility form starts
    with a blank or a mark. -/
def lettersNotNameStarters : Ranges :=
  [(0x37a, 0x37a), (0xe33, 0xe33), (0xeb3, 0xeb3), (0x2e2f, 0x2e2f), (0xfc5e, 0xfc63),
    (0xfdfa, 0xfdfb), (0xfe70, 0xfe70), (0xfe72, 0xfe72), (0xfe74, 0xfe74), (0xfe76, 0xfe76),
    (0xfe78, 0xfe78), (0xfe7a, 0xfe7a), (0xfe7c, 0xfe7c), (0xfe7e, 0xfe7e), (0xff9e, 0xff9f)]

/-- The characters that go on with a name and are in none of the classes
    letter, mark, digit and connector that do. -/
def furtherNameParts : Ranges :=
  [(0xb7, 0xb7), (0x387, 0x387), (0xe33, 0xe33), (0xeb3, 0xeb3), (0x1369, 0x1371),
    (0x19da, 0x19da), (0x200c, 0x200d), (0x30fb, 0x30fb), (0xff65, 0xff65), (0xff9e, 0xff9f)]

/-- `c` is in `XID_Start`. -/
def isUniversalStart (c : Char) : Bool :=
  ((isLetter c || isLetterNumber c) && !lettersNotNameStarters.has c.toNat) ||
    nameStartersNotLetters.has c.toNat

/-- `c` is in `XID_Continue`. -/
def isUniversalPart (c : Char) : Bool :=
  isUniversalStart c || (isMark c && !enclosingMarks.has c.toNat) || isDecimalDigit c ||
    isConnector c || furtherNameParts.has c.toNat

/-- `c` is an ASCII character. -/
def isASCII (c : Char) : Bool :=
  c.toNat < 0x80

/-- `c` may start a name. -/
def isNameStart (c : Char) : Bool :=
  c == '$' || c == '_' || c.isAlpha || (!isASCII c && isUniversalStart c)

/-- `c` may stand in a name. -/
def isNamePart (c : Char) : Bool :=
  c == '$' || c == '_' || isJoiner c || c.isAlphanum || (!isASCII c && isUniversalPart c)

theorem isNamePart_of_isNameStart {c : Char} (h : isNameStart c) : isNamePart c := by
  simp only [isNameStart, isNamePart, isUniversalPart, Char.isAlphanum, Bool.or_eq_true,
    Bool.and_eq_true] at h ⊢
  grind

end ScriptExcerpt.Text
