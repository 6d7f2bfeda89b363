import ScriptExcerpt.Text.Character
import ScriptExcerpt.Text.Offset

/-!
# Cursors

A cursor stands in a script: it knows how many bytes lie before it, which line
it is on, and the text that is still to be read.

A line is begun by the first character after a line end, not by the line end
itself. So a place remembers that a line end was passed whose line is not begun
yet (`owed`), and that the line end was a carriage return, which a newline
directly after it would complete (`afterReturn`).

* `Place.past`: the place behind a character.
* `Place.completes`: the newline of a carriage return and newline, which is
  passed over without being read.
* `Cursor.skipGap`: the cursor at the next lexeme, behind blanks and invisible
  characters.
-/

namespace ScriptExcerpt

open Text

/-- A place in a script. -/
structure Place where
  /-- The number of bytes before the place. -/
  offset : Nat
  /-- The number of lines begun before the one that the place is on. -/
  line : UInt32
  /-- A line end was passed, and no character behind it looked at. -/
  owed : Bool
  /-- The line end passed last was a carriage return, and nothing was read
      behind it. -/
  afterReturn : Bool
deriving DecidableEq

namespace Place

/-- The place at the offset `n`, on the first line. -/
def atOffset (n : Nat) : Place :=
  ⟨n, 0, false, false⟩

/-- The same place once the character behind it was looked at: its line is
    begun. -/
def look (p : Place) : Place :=
  { p with line := if p.owed then p.line + 1 else p.line, owed := false }

/-- The place behind the character `c` at `p`. -/
def past (p : Place) (c : Char) : Place where
  offset := p.offset + c.utf8Size
  line := p.look.line
  owed := isLineEnd c
  afterReturn := c == '\r'

/-- The character `c` at `p` completes the line end before it. -/
def completes (p : Place) (c : Char) : Bool :=
  p.afterReturn && c == '\n'

/-- The place behind the newline that completes the line end before it. -/
def complete (p : Place) : Place :=
  { p with offset := p.offset + 1, afterReturn := false }

end Place

/-- A place in a script, and the text behind it. -/
structure Cursor where
  /-- Where the cursor stands. -/
  place : Place
  /-- The text behind it. -/
  rest : List Char
deriving DecidableEq

namespace Cursor

/-- The number of bytes before the cursor. -/
def offset (cur : Cursor) : Nat :=
  cur.place.offset

/-- The cursor at the byte `n` of a script, or at the last character before it
    if `n` is inside a character or past the end. -/
def startingAt (source : List Char) (n : Nat) : Cursor :=
  ⟨.atOffset (byteLength (takeBytes n source)), dropBytes n source⟩

/-- The same cursor once the character behind it was looked at. -/
def look (cur : Cursor) : Cursor :=
  { cur with place := cur.place.look }

/-- The text from the cursor to the offset `n`. -/
def textTo (cur : Cursor) (n : Nat) : List Char :=
  takeBytes (n - cur.offset) cur.rest

/-- The cursor at the first character from `p` on that is neither blank nor
    invisible, or at the end of the script. -/
def skipGapFrom (p : Place) : List Char → Cursor
  | [] => ⟨p, []⟩
  | c :: cs =>
    if p.completes c then skipGapFrom p.complete cs
    else if isBlank c || isInvisible c then skipGapFrom (p.past c) cs
    else ⟨p.look, c :: cs⟩

/-- The cursor at the next lexeme, behind blanks and invisible characters. -/
def skipGap (cur : Cursor) : Cursor :=
  skipGapFrom cur.place cur.rest

theorem length_skipGapFrom_le (p : Place) (cs : List Char) :
    (skipGapFrom p cs).rest.length ≤ cs.length := by
  induction cs generalizing p with
  | nil => exact Nat.le_refl _
  | cons c cs ih =>
    rw [skipGapFrom]
    split
    · exact Nat.le_succ_of_le (ih _)
    · split
      · exact Nat.le_succ_of_le (ih _)
      · exact Nat.le_refl _

theorem length_skipGap_le (cur : Cursor) : cur.skipGap.rest.length ≤ cur.rest.length :=
  length_skipGapFrom_le _ _

end Cursor

end ScriptExcerpt
