import ScriptExcerpt.Text.CaseFolding
import ScriptExcerpt.Text.Character
import ScriptExcerpt.Text.Word

/-!
# Sets of characters

What a search pattern accepts for one character: ranges and classes of
characters, combined by the operations on sets.

* `CharSet.mem`: the characters of a set.
-/

namespace ScriptExcerpt.Pattern

open Text

/-- A class of characters that has a name. -/
inductive CharClass
  | digit | space | word | letter | mark | letterNumber | connector | alphabetic
deriving DecidableEq

/-- `c` is in the class. -/
def CharClass.mem : CharClass → Char → Bool
  | digit, c => isDecimalDigit c
  | space, c => isWhiteSpace c
  | word, c => isWordChar c
  | letter, c => isLetter c
  | mark, c => isMark c
  | letterNumber, c => isLetterNumber c
  | connector, c => isConnector c
  | alphabetic, c => isAlphabetic c

/-- A set of characters. -/
inductive CharSet
  | empty
  | range (first last : Char)
  | named (name : CharClass)
  | union (a b : CharSet)
  | inter (a b : CharSet)
  | diff (a b : CharSet)
  | symm (a b : CharSet)
  | complement (a : CharSet)
  /-- The characters of a set in any case. -/
  | anyCase (a : CharSet)
  /-- The same, where only the letters of ASCII have a case. -/
  | anyCaseASCII (a : CharSet)
deriving DecidableEq

namespace CharSet

/-- The other case of a letter of ASCII, and any other character itself. -/
def otherCase (c : Char) : Char :=
  if c.isUpper then c.toLower else c.toUpper

/-- `c` is in the set. -/
def mem : CharSet → Char → Bool
  | empty, _ => false
  | range first last, c => first ≤ c && c ≤ last
  | named name, c => name.mem c
  | union a b, c => a.mem c || b.mem c
  | inter a b, c => a.mem c && b.mem c
  | diff a b, c => a.mem c && !b.mem c
  | symm a b, c => a.mem c != b.mem c
  | complement a, c => !a.mem c
  | anyCase a, c => a.mem c || (caseVariants c).any a.mem
  | anyCaseASCII a, c => a.mem c || a.mem (otherCase c)

/-- The set of one character. -/
def single (c : Char) : CharSet := range c c

/-- The union of sets. -/
def unions (sets : List CharSet) : CharSet :=
  sets.foldr union empty

/-- The set of all characters. -/
def all : CharSet := complement empty

end CharSet

end ScriptExcerpt.Pattern
