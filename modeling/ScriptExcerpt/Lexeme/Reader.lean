import ScriptExcerpt.Lexeme.Name
import ScriptExcerpt.Lexeme.Number
import ScriptExcerpt.Lexeme.Operator
import ScriptExcerpt.Lexeme.Quotation
import ScriptExcerpt.Lexeme.RegExp

/-!
# Reading lexemes

A script is read lexeme by lexeme: line ends, comments, names, numbers,
quotations and symbols. The first character tells which of them it is. Whether
a slash opens a regular expression is not decided here: who knows that it does
asks for the rest of the literal (`LexemeReader.readRegExp`).

A reader goes on after a fault, from where the reading broke off.

* `lexemeAt`: one lexeme, from its first character on.
* `LexemeReader.next`: the next lexeme of a script.
* `LexemeReader.length_next_lt`: every lexeme but the end of the script uses up
  some of it.
-/

namespace ScriptExcerpt

open Text

/-- A lexeme that was read. -/
structure Lexeme where
  /-- What it is, or what is wrong with it. -/
  verdict : Except Fault Kind
  /-- The offset behind it. -/
  stop : Nat
  /-- Where the reading goes on. -/
  cursor : Cursor
  /-- Its value, if it has one that differs from its text. -/
  value : Option (List Char)

/-- The name that starts with `c`. -/
def Lexeme.name (v : Version) (c : Char) (behind : Cursor) : Lexeme :=
  let o := Name.recognizer.runFrom (Name.start c) behind
  match o.verdict with
  | .ok (word, escaped) =>
    ⟨.ok (Name.kind v word escaped), o.cursor.offset, o.cursor, some (Name.value v word escaped)⟩
  | .error f => ⟨.error f, behind.offset, o.cursor, none⟩

/-- The number or the point that starts with `c`. -/
def Lexeme.number (v : Version) (c : Char) (behind : Cursor) : Lexeme :=
  let o := (Number.recognizer v).runFrom (Number.start c) behind
  match o.verdict with
  | .ok (some value) => ⟨.ok .number, o.cursor.offset, o.cursor, some value⟩
  | .ok none => ⟨.ok (.symbol .dot), behind.offset, o.cursor, none⟩
  | .error f => ⟨.error f, behind.offset, o.cursor, none⟩

/-- The quotation that starts with the quote `c`. -/
def Lexeme.quotation (c : Char) (behind : Cursor) : Lexeme :=
  let o := (Quotation.recognizer c).runFrom (.text .empty) behind
  match o.verdict with
  | .ok decoded =>
    ⟨.ok (if c = '`' then .template else .string), o.cursor.offset, o.cursor, some decoded.value⟩
  | .error f => ⟨.error f, behind.offset, o.cursor, none⟩

/-- The line comment whose opening was read. -/
def Lexeme.lineComment (behind : Cursor) : Lexeme :=
  let o := Comment.lineRecognizer.runFrom () behind
  ⟨o.verdict.map fun _ => .lineComment, o.cursor.offset, o.cursor, none⟩

/-- The block comment whose opening was read. -/
def Lexeme.blockComment (behind : Cursor) : Lexeme :=
  let o := Comment.blockRecognizer.runFrom false behind
  ⟨o.verdict.map fun _ => .blockComment, o.cursor.offset, o.cursor, none⟩

/-- The symbol or comment that starts with `c`, by a table of spellings. -/
def Lexeme.symbol (table : List (List Char × Kind)) (c : Char) (behind : Cursor) : Lexeme :=
  match Operator.kindOf? table [c] with
  | none => ⟨.error ⟨.illegalCharacter c, .opening⟩, behind.offset, behind, none⟩
  | some kind =>
    if Operator.extends? table [c] then
      let o := (Operator.recognizer table).runFrom ⟨[c], kind⟩ behind
      match o.verdict with
      | .ok .lineComment => .lineComment o.cursor
      | .ok .blockComment => .blockComment o.cursor
      | .ok k => ⟨.ok k, o.taken, o.cursor, none⟩
      | .error f => ⟨.error f, behind.offset, o.cursor, none⟩
    else ⟨.ok kind, behind.offset, behind, none⟩

/-- `c` opens a quotation. -/
def isQuote (c : Char) : Bool :=
  c == '"' || c == '\'' || c == '`'

/-- The lexeme that starts with `c`, of which `behind` is the cursor behind `c`.
    `lineIsBlank` tells that nothing but blanks stands before it on its line. -/
def lexemeAt (v : Version) (lineIsBlank : Bool) (c : Char) (behind : Cursor) : Lexeme :=
  if c = '\\' || isNameStart c then .name v c behind
  else if isDigitOf 10 c || c = '.' then .number v c behind
  else if isQuote c then .quotation c behind
  else .symbol (Operator.spellings v lineIsBlank) c behind

theorem length_lexemeAt_le (v : Version) (lineIsBlank : Bool) (c : Char) (behind : Cursor) :
    (lexemeAt v lineIsBlank c behind).cursor.rest.length ≤ behind.rest.length := by
  have line (cur : Cursor) : (Lexeme.lineComment cur).cursor.rest.length ≤ cur.rest.length :=
    Recognizer.length_runFrom_le ..
  have block (cur : Cursor) : (Lexeme.blockComment cur).cursor.rest.length ≤ cur.rest.length :=
    Recognizer.length_runFrom_le ..
  rw [lexemeAt]
  split
  · rw [Lexeme.name]
    split <;> exact Recognizer.length_runFrom_le ..
  · split
    · rw [Lexeme.number]
      split <;> exact Recognizer.length_runFrom_le ..
    · split
      · rw [Lexeme.quotation]
        split <;> exact Recognizer.length_runFrom_le ..
      · rw [Lexeme.symbol]
        split
        · exact Nat.le_refl _
        · split
          · have h := (Operator.recognizer (Operator.spellings v lineIsBlank)).length_runFrom_le
              ⟨[c], ‹Kind›⟩ behind
            dsimp only
            split
            · exact Nat.le_trans (line _) h
            · exact Nat.le_trans (block _) h
            · exact h
            · exact h
          · exact Nat.le_refl _

/-- A script that is read lexeme by lexeme, and what the last reading left. -/
structure LexemeReader where
  /-- The whole script. -/
  source : List Char
  /-- The version of the language. -/
  version : Version
  /-- Where the reading goes on. -/
  cursor : Cursor
  /-- Nothing but blanks and comment ends was read on the line. -/
  lineIsBlank : Bool
  /-- Where the lexeme read last starts. -/
  opening : Cursor
  /-- The offset behind the lexeme read last. -/
  stop : Nat
  /-- The value of the last lexeme that had one. -/
  value : List Char
  /-- The flags of the last regular expression. -/
  flags : List Char

namespace LexemeReader

/-- A reader at the byte `offset` of a script. Offsets that it tells count from
    the start of the script all the same. -/
def startingAt (source : List Char) (offset : Nat) (v : Version) : LexemeReader :=
  let cursor := Cursor.startingAt source offset
  ⟨source, v, cursor, true, cursor, cursor.offset, [], []⟩

/-- The text of the lexeme read last. -/
def lexeme (r : LexemeReader) : List Char :=
  r.opening.textTo r.stop

/-- The number of lines begun before the cursor. -/
def line (r : LexemeReader) : UInt32 :=
  r.cursor.place.line

/-- The problem of a lexeme that starts at `start` and was read up to `stop`. -/
def problem (r : LexemeReader) (f : Fault) (start stop : Nat) : Problem :=
  .lexical r.source f.cause (f.position start stop)

/-- What reading the lexeme `l` at `opening` leaves, where `c` is its first
    character. A line stays blank behind a comment that `-->` opens. -/
def accept (r : LexemeReader) (opening : Cursor) (c : Char) (l : Lexeme) :
    Except Problem Kind × LexemeReader :=
  (l.verdict.mapError fun f => r.problem f opening.offset l.cursor.offset,
    { r with
      cursor := l.cursor
      lineIsBlank := c = '-' && l.verdict matches .ok .lineComment
      opening := opening
      stop := l.stop
      value := l.value.getD r.value })

/-- What passing the line end `c` at `opening` leaves; `rest` is the text behind
    it. -/
def passLineEnd (r : LexemeReader) (opening : Cursor) (c : Char) (rest : List Char) :
    LexemeReader :=
  { r with
    cursor := ⟨opening.place.past c, rest⟩
    lineIsBlank := true
    opening := opening
    stop := (opening.place.past c).offset }

/-- What reaching the end of the script leaves. -/
def reachEnd (r : LexemeReader) (here : Cursor) : LexemeReader :=
  { r with cursor := here, opening := here, stop := here.offset }

/-- The next lexeme of the script. -/
def next (r : LexemeReader) : Except Problem Kind × LexemeReader :=
  let here := r.cursor.skipGap
  match here.rest with
  | [] => (.ok .endOfInput, r.reachEnd here)
  | c :: cs =>
    if isLineEnd c then (.ok .lineEnd, r.passLineEnd here c cs)
    else r.accept here c (lexemeAt r.version r.lineIsBlank c ⟨here.place.past c, cs⟩)

/-- Reads the rest of a regular expression whose opening slash was the last
    symbol, or, if `equals` holds, the slash of the symbol `/=`. -/
def readRegExp (r : LexemeReader) (equals : Bool) : Except Problem Unit × LexemeReader :=
  let o := RegExp.recognizer.runFrom (if equals then .body ['='] false else .opening) r.cursor
  match o.verdict with
  | .ok l =>
    (.ok (),
      { r with cursor := o.cursor, stop := o.cursor.offset, value := l.body, flags := l.flags })
  | .error (f, flags) =>
    (.error (r.problem f r.opening.offset o.cursor.offset),
      { r with cursor := o.cursor, flags := flags })

theorem length_next_lt {r r' : LexemeReader} {k : Kind} (h : r.next = (.ok k, r'))
    (hk : k ≠ .endOfInput) : r'.cursor.rest.length < r.cursor.rest.length := by
  have gap := r.cursor.length_skipGap_le
  rw [next] at h
  split at h
  · exact absurd (Except.ok.inj (Prod.mk.inj h).1).symm hk
  · next c cs he =>
    have hlt : cs.length < r.cursor.rest.length := by
      rw [he, List.length_cons] at gap
      omega
    split at h
    · obtain rfl := (Prod.mk.inj h).2
      exact hlt
    · obtain rfl := (Prod.mk.inj h).2
      exact Nat.lt_of_le_of_lt (length_lexemeAt_le ..) hlt

theorem length_readRegExp_le (r : LexemeReader) (equals : Bool) :
    (r.readRegExp equals).2.cursor.rest.length ≤ r.cursor.rest.length := by
  rw [readRegExp]
  split <;> exact Recognizer.length_runFrom_le ..

end LexemeReader

end ScriptExcerpt
