import ScriptExcerpt.Lexeme.Reader
import ScriptExcerpt.Proofs.Drive

/-!
# Lexemes on a tape

A script can be read lexeme by lexeme from a tape (`TapeReader`). What was read too much is given
back: the character that ends a name, a number or a line comment, what is tried behind a symbol, and
the beginning of a `<!--` that does not come.

* `tapeLexemeAt`: one lexeme, from its first character on.
* `TapeReader.next`, `TapeReader.readRegExp`: lexemes and regular expressions.
* `TapeReader.turn`: a lexeme, and the regular expression that it opens.
* `TapeReader.goes_behind`: a tape is only read and given back to.
-/

namespace ScriptExcerpt

open Text

/-! ## Manners -/

/-- A name ends before a character that is given back. -/
def Name.manner : Manner Name.State :=
  ⟨fun _ => false, fun _ => true, fun _ _ => 0, fun _ => 0⟩

/-- Behind a point that stands alone, a digit is tried first. -/
def Number.manner : Manner Number.State where
  ignores _ := false
  guarded _ := true
  looks s c :=
    match s with
    | .lonePoint => if c.any (isDigitOf 10) then 1 else 0
    | _ => 0
  looksBehind _ := 0

/-- What ends an octal escape is given back, and read again as part of the literal. -/
def Quotation.manner : Manner Quotation.State where
  ignores s :=
    match s with
    | .text decoded => decoded.text.isEmpty && decoded.pending.isNone
    | _ => false
  guarded _ := true
  looks s c :=
    match s with
    | .octal _ count value =>
      if (c.bind (digitOf? 8)).isSome && (count = 1 || (count = 2 && value ≤ 31)) then 0 else 1
    | _ => 0
  looksBehind _ := 0

/-- A line comment ends before a line end that is given back. -/
def Comment.lineManner : Manner Unit :=
  ⟨fun _ => false, fun _ => true, fun _ _ => 0, fun _ => 0⟩

/-- Nothing is given back behind a block comment. -/
def Comment.blockManner : Manner Bool :=
  ⟨fun _ => false, fun _ => false, fun _ _ => 0, fun _ => 0⟩

/-- Behind the opening slash a star is tried first. What ends the flags is given back, even behind
    a line end. -/
def RegExp.manner : Manner RegExp.State where
  ignores s := s matches .flags _ _
  guarded s := s matches .opening
  looks s c :=
    match s with
    | .opening => if c = some '*' then 0 else 1
    | _ => 0
  looksBehind _ := 0

namespace Operator

/-- The characters that are tried in turn behind a text. -/
def trials (v : Version) (lineIsBlank : Bool) (text : List Char) : List Char :=
  match text with
  | ['|'] => ['|', '=']
  | ['&'] => ['&', '=']
  | ['='] => ['=', '>']
  | ['<'] => ['!', '<', '=']
  | ['<', '!'] | ['<', '!', '-'] => ['-']
  | ['>'] | ['>', '>'] => ['>', '=']
  | ['*'] => if v = .es6 then ['*', '='] else ['=']
  | ['/'] => ['/', '*', '=']
  | ['+'] => ['=', '+']
  | ['-'] => ['=', '-']
  | ['-', '-'] => if lineIsBlank then ['>'] else []
  | _ => ['=']

/-- A character is read once for each trial, up to the one that it stands, and given back each time
    but then. Where `<!--` was tried in vain, two more trials follow. -/
def manner (v : Version) (lineIsBlank : Bool) : Manner State where
  ignores _ := true
  guarded _ := false
  looks s c :=
    let trials := trials v lineIsBlank s.text
    min (c.elim trials.length trials.idxOf) (trials.length - 1)
  looksBehind _ := 2

end Operator

/-- Whether the character `d` comes next, and the tape behind it if it does. -/
def Tape.readIf (d : Char) (t : Tape) : Bool × Tape :=
  let (c, behind) := t.read true true
  if c = some d then (true, behind) else (false, behind.putBack false c)

theorem Tape.goes_readIf (d : Char) (t : Tape) : t.Goes (t.readIf d).2 := by
  rw [readIf]
  dsimp only
  split
  · exact t.goes_read _ _
  · exact .putBack _ _ (t.goes_read _ _)

/-! ## Lexemes -/

/-- A lexeme that was read from a tape. -/
structure TapeLexeme where
  /-- What it is, or what is wrong with it. -/
  verdict : Except Fault Kind
  /-- The offset behind it. -/
  stop : Nat
  /-- The tape on which the reading goes on. -/
  tape : Tape
  /-- Its value, if it has one that differs from its text. -/
  value : Option (List Char)

namespace TapeLexeme

/-- The name that starts with `c`. -/
def name (v : Version) (c : Char) (t : Tape) : TapeLexeme :=
  let o := Name.recognizer.drive Name.manner (Name.start c) [] t.offset t
  match o.verdict with
  | .ok (word, escaped) =>
    ⟨.ok (Name.kind v word escaped), o.tape.offset, o.tape, some (Name.value v word escaped)⟩
  | .error f => ⟨.error f, t.offset, o.tape, none⟩

/-- The number or the point that starts with `c`. -/
def number (v : Version) (c : Char) (t : Tape) : TapeLexeme :=
  let o := (Number.recognizer v).drive Number.manner (Number.start c) [] t.offset t
  match o.verdict with
  | .ok (some value) => ⟨.ok .number, o.tape.offset, o.tape, some value⟩
  | .ok none => ⟨.ok (.symbol .dot), t.offset, o.tape, none⟩
  | .error f => ⟨.error f, t.offset, o.tape, none⟩

/-- The quotation that starts with the quote `c`. -/
def quotation (c : Char) (t : Tape) : TapeLexeme :=
  let o := (Quotation.recognizer c).drive Quotation.manner (.text .empty) [] t.offset t
  match o.verdict with
  | .ok decoded =>
    ⟨.ok (if c = '`' then .template else .string), o.tape.offset, o.tape, some decoded.value⟩
  | .error f => ⟨.error f, t.offset, o.tape, none⟩

/-- The line comment whose opening was read. -/
def lineComment (t : Tape) : TapeLexeme :=
  let o := Comment.lineRecognizer.drive Comment.lineManner () [] t.offset t
  ⟨o.verdict.map fun _ => .lineComment, o.tape.offset, o.tape, none⟩

/-- The block comment whose opening was read. A star is tried before anything else is read. -/
def blockComment (t : Tape) : TapeLexeme :=
  let p := t.readIf '*'
  let o := Comment.blockRecognizer.drive Comment.blockManner p.1 [] p.2.offset p.2
  ⟨o.verdict.map fun _ => .blockComment, o.tape.offset, o.tape, none⟩

/-- What an operator is, once its longest spelling was read. -/
def afterOperator (start : Nat) (o : TapeOutcome Kind Fault) : TapeLexeme :=
  match o.verdict with
  | .ok .lineComment => lineComment o.tape
  | .ok .blockComment => blockComment o.tape
  | .ok k => ⟨.ok k, o.taken, o.tape, none⟩
  | .error f => ⟨.error f, start, o.tape, none⟩

/-- The longest spelling that goes on with `c`, which alone means `k`. -/
def longest (v : Version) (lineIsBlank : Bool) (c : Char) (k : Kind) (t : Tape) :
    TapeOutcome Kind Fault :=
  (Operator.recognizer (Operator.spellings v lineIsBlank)).drive (Operator.manner v lineIsBlank)
    ⟨[c], k⟩ [] t.offset t

/-- The symbol or comment that starts with `c`. -/
def symbol (v : Version) (lineIsBlank : Bool) (c : Char) (t : Tape) : TapeLexeme :=
  let table := Operator.spellings v lineIsBlank
  match Operator.kindOf? table [c] with
  | none => ⟨.error ⟨.illegalCharacter c, .opening⟩, t.offset, t, none⟩
  | some kind =>
    if Operator.extends? table [c] then afterOperator t.offset (longest v lineIsBlank c kind t)
    else ⟨.ok kind, t.offset, t, none⟩

end TapeLexeme

/-- The lexeme that starts with `c`, behind which the tape stands. -/
def tapeLexemeAt (v : Version) (lineIsBlank : Bool) (c : Char) (t : Tape) : TapeLexeme :=
  if c = '\\' || isNameStart c then .name v c t
  else if isDigitOf 10 c || c = '.' then .number v c t
  else if isQuote c then .quotation c t
  else .symbol v lineIsBlank c t

namespace TapeLexeme

theorem goes_lineComment (t : Tape) : t.Goes (lineComment t).tape :=
  Recognizer.goes_drive ..

theorem goes_blockComment (t : Tape) : t.Goes (blockComment t).tape :=
  (t.goes_readIf '*').trans (Recognizer.goes_drive ..)

theorem goes_afterOperator (start : Nat) (o : TapeOutcome Kind Fault) :
    o.tape.Goes (afterOperator start o).tape := by
  rw [afterOperator]
  split
  · exact goes_lineComment o.tape
  · exact goes_blockComment o.tape
  · exact .refl
  · exact .refl

theorem goes_symbol (v : Version) (lineIsBlank : Bool) (c : Char) (t : Tape) :
    t.Goes (symbol v lineIsBlank c t).tape := by
  rw [symbol]
  split
  · exact .refl
  · split
    · exact (Recognizer.goes_drive ..).trans (goes_afterOperator ..)
    · exact .refl

end TapeLexeme

/-- Whatever lexeme is read, a tape is only read and given back to. -/
theorem goes_tapeLexemeAt (v : Version) (lineIsBlank : Bool) (c : Char) (t : Tape) :
    t.Goes (tapeLexemeAt v lineIsBlank c t).tape := by
  rw [tapeLexemeAt]
  split
  · rw [TapeLexeme.name]
    split <;> exact Recognizer.goes_drive ..
  · split
    · rw [TapeLexeme.number]
      split <;> exact Recognizer.goes_drive ..
    · split
      · rw [TapeLexeme.quotation]
        split <;> exact Recognizer.goes_drive ..
      · exact TapeLexeme.goes_symbol ..

theorem Tape.left_lt_of_read {skips ignores : Bool} {t t' : Tape} {c : Char}
    (h : t.read skips ignores = (some c, t')) : t'.left < t.left := by
  have hle := t.left_read_le skips ignores
  rwa [h] at hle

/-- The next character that is not blank, and the tape behind it. -/
def Tape.readInk (t : Tape) : Option Char × Tape :=
  match _h : t.read true false with
  | (none, t) => (none, t)
  | (some c, t) => if isBlank c then t.readInk else (some c, t)
termination_by t.left
decreasing_by exact left_lt_of_read _h

theorem Tape.goes_readInk (t : Tape) : t.Goes t.readInk.2 := by
  have hread {t t' : Tape} {c : Option Char} (h : t.read true false = (c, t')) : t.Goes t' := by
    have hgoes := t.goes_read true false
    rwa [h] at hgoes
  fun_induction readInk t with
  | case1 t t' h => exact hread h
  | case2 t c t' h _ ih => exact (hread h).trans ih
  | case3 t c t' h => exact hread h

/-- The kind is a slash that may open a regular expression. -/
def Kind.isSlash : Kind → Bool
  | .symbol .slash | .symbol .slashEquals => true
  | _ => false

/-! ## Readers -/

/-- A script that is read lexeme by lexeme from a tape, and what the last reading left. -/
structure TapeReader where
  /-- The whole script. -/
  source : List Char
  /-- The version of the language. -/
  version : Version
  /-- The tape on which the reading goes on. -/
  tape : Tape
  /-- Nothing but blanks and comment ends was read on the line. -/
  lineIsBlank : Bool
  /-- The offset before the lexeme read last. -/
  start : Nat
  /-- The offset behind it. -/
  stop : Nat
  /-- The value of the last lexeme that had one. -/
  value : List Char
  /-- The flags of the last regular expression. -/
  flags : List Char

namespace TapeReader

/-- A reader at the byte `n` of a script. -/
def startingAt (source : List Char) (n : Nat) (v : Version) : TapeReader :=
  let tape := Tape.startingAt source n
  ⟨source, v, tape, true, tape.offset, tape.offset, [], []⟩

/-- The problem of a lexeme that starts at `start` and was read up to `stop`. -/
def problem (r : TapeReader) (f : Fault) (start stop : Nat) : Problem :=
  .lexical r.source f.cause (f.position start stop)

/-- What reading the lexeme `l` at `start` leaves, where `c` is its first character. -/
def accept (r : TapeReader) (start : Nat) (c : Char) (l : TapeLexeme) :
    Except Problem Kind × TapeReader :=
  (l.verdict.mapError fun f => r.problem f start l.tape.offset,
    { r with
      tape := l.tape
      lineIsBlank := c = '-' && l.verdict matches .ok .lineComment
      start
      stop := l.stop
      value := l.value.getD r.value })

/-- The next lexeme of the script. It starts as many bytes before the tape as its first character,
    which was read last, has. -/
def next (r : TapeReader) : Except Problem Kind × TapeReader :=
  match r.tape.readInk with
  | (none, t) => (.ok .endOfInput, { r with tape := t, start := t.offset, stop := t.offset })
  | (some c, t) =>
    let start := t.offset - t.recent.head?.elim 0 Read.width
    if c = '\n' then
      (.ok .lineEnd, { r with tape := t, lineIsBlank := true, start, stop := t.offset })
    else r.accept start c (tapeLexemeAt r.version r.lineIsBlank c t)

/-- Reads the rest of a regular expression whose opening slash was the last symbol, or, if `equals`
    holds, the slash of the symbol `/=`. -/
def readRegExp (r : TapeReader) (equals : Bool) : Except Problem Unit × TapeReader :=
  let o := RegExp.recognizer.drive RegExp.manner (if equals then .body ['='] false else .opening) []
    r.tape.offset r.tape
  match o.verdict with
  | .ok l =>
    (.ok (), { r with tape := o.tape, stop := o.tape.offset, value := l.body, flags := l.flags })
  | .error (f, flags) =>
    (.error (r.problem f r.start o.tape.offset), { r with tape := o.tape, flags })

/-- Reads the next lexeme and, if it is a slash and `regExp` holds, the rest of the regular
    expression that it opens. -/
def turn (r : TapeReader) (regExp : Bool) : TapeReader :=
  match r.next.1 with
  | .ok k =>
    if regExp && k.isSlash then (r.next.2.readRegExp (k = .symbol .slashEquals)).2 else r.next.2
  | .error _ => r.next.2

/-- The reader behind some turns. -/
def behind (r : TapeReader) (turns : List Bool) : TapeReader :=
  turns.foldl turn r

theorem goes_next (r : TapeReader) : r.tape.Goes r.next.2.tape := by
  have hink := r.tape.goes_readInk
  rw [next]
  split
  · next t h =>
    rw [h] at hink
    exact hink
  · next c t h =>
    rw [h] at hink
    dsimp only
    split
    · exact hink
    · exact hink.trans (goes_tapeLexemeAt ..)

theorem goes_readRegExp (r : TapeReader) (equals : Bool) :
    r.tape.Goes (r.readRegExp equals).2.tape := by
  rw [readRegExp]
  split <;> exact Recognizer.goes_drive ..

theorem goes_turn (r : TapeReader) (regExp : Bool) : r.tape.Goes (r.turn regExp).tape := by
  rw [turn]
  split
  · split
    · exact r.goes_next.trans (goes_readRegExp ..)
    · exact r.goes_next
  · exact r.goes_next

/-- Whatever turns are taken, the tape is only read and given back to. -/
theorem goes_behind (r : TapeReader) (turns : List Bool) : r.tape.Goes (r.behind turns).tape := by
  induction turns generalizing r with
  | nil => exact .refl
  | cons regExp turns ih => exact (r.goes_turn regExp).trans (ih _)

end TapeReader

end ScriptExcerpt
