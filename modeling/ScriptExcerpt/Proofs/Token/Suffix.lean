import ScriptExcerpt.Proofs.Lexeme.Shift
import ScriptExcerpt.Proofs.Offset
import ScriptExcerpt.Proofs.Token.Calls

/-!
# Reading the rest of a script

A script that is read from an offset on tells what its rest tells when it is read
alone, every position counted from the offset. This holds of whatever is asked,
and in whatever order, behind problems too.

* `LexemeReader.afterCalls_shift`, `TokenStream.after_shift`: moved to a later
  offset of another script, readers and streams go through the same states.
* `read_behind_offset`: what is told behind an offset.
-/

namespace ScriptExcerpt

open Text

/-! ## Lexemes -/

namespace LexemeReader

/-- What can be asked of a reader: the next lexeme, or the rest of a regular
    expression whose opening slash, or whose `/=`, was read. -/
inductive Call
  | next
  | regExp (equals : Bool)

/-- What a call tells, and the reader behind it. -/
def call (r : LexemeReader) : Call → Except Problem Kind × LexemeReader
  | .next => r.next
  | .regExp equals => ((r.readRegExp equals).1.map fun _ => .regExp, (r.readRegExp equals).2)

/-- The reader behind the calls. -/
def afterCalls (r : LexemeReader) (calls : List Call) : LexemeReader :=
  calls.foldl (fun r c => (r.call c).2) r

/-- The second reader tells what the first one does, `d` bytes further on. -/
structure Beside (d : Nat) (r r' : LexemeReader) : Prop where
  lexeme : r'.lexeme = r.lexeme
  value : r'.value = r.value
  line : r'.line = r.line
  flags : r'.flags = r.flags
  start : r'.opening.offset = r.opening.offset + d
  stop : r'.stop = r.stop + d
  cursor : r'.cursor.offset = r.cursor.offset + d

variable (source : List Char) (d : Nat) (r : LexemeReader)

theorem beside_shift : Beside d r (r.shift source d) where
  lexeme := lexeme_shift source d r
  value := rfl
  line := rfl
  flags := rfl
  start := rfl
  stop := rfl
  cursor := rfl

theorem source_next : r.next.2.source = r.source := by
  rw [next]
  split
  · rfl
  · split <;> rfl

theorem source_readRegExp (equals : Bool) : (r.readRegExp equals).2.source = r.source := by
  rw [readRegExp]
  split <;> rfl

theorem source_call (c : Call) : (r.call c).2.source = r.source := by
  cases c with
  | next => exact source_next r
  | regExp equals => exact source_readRegExp r equals

theorem source_afterCalls (calls : List Call) : (r.afterCalls calls).source = r.source := by
  induction calls generalizing r with
  | nil => rfl
  | cons c calls ih => exact (ih (r.call c).2).trans (source_call r c)

theorem call_shift (c : Call) :
    ShiftedAnswer r.source source d id (r.call c).1 ((r.shift source d).call c).1 ∧
      ((r.shift source d).call c).2 = (r.call c).2.shift source d := by
  cases c with
  | next => exact next_shift source d r
  | regExp equals =>
    obtain ⟨hanswer, hreader⟩ := readRegExp_shift source d r equals
    refine ⟨?_, hreader⟩
    -- That the literal was read is all that its answer tells.
    change ShiftedAnswer _ _ _ _ ((r.readRegExp equals).1.map _)
      (((r.shift source d).readRegExp equals).1.map _)
    generalize (r.readRegExp equals).1 = x,
      ((r.shift source d).readRegExp equals).1 = y at hanswer ⊢
    cases hanswer with
    | ok => exact .ok _
    | error h => exact .error h

theorem afterCalls_shift (calls : List Call) :
    (r.shift source d).afterCalls calls = (r.afterCalls calls).shift source d := by
  induction calls generalizing r with
  | nil => rfl
  | cons c calls ih =>
    have hcall := (call_shift source d r c).2
    change ((r.shift source d).call c).2.afterCalls calls = _
    rw [hcall, ih]
    rfl

/-- Trivia are passed over alike. -/
theorem nextSignificant_shift :
    ShiftedAnswer r.source source d id r.nextSignificant.1 (r.shift source d).nextSignificant.1 ∧
      (r.shift source d).nextSignificant.2 = r.nextSignificant.2.shift source d := by
  fun_induction nextSignificant r with
  | case1 r p r₁ h₁ =>
    obtain ⟨hanswer, hreader⟩ := next_shift source d r
    rw [h₁] at hanswer hreader
    rcases hn : (r.shift source d).next with ⟨x, r₂⟩
    rw [hn] at hanswer hreader
    cases hanswer with
    | error h =>
      rw [nextSignificant_of_problem hn]
      exact ⟨.error h, hreader⟩
  | case2 r k r₁ h₁ ht ih =>
    obtain ⟨hanswer, hreader⟩ := next_shift source d r
    have hsource : r₁.source = r.source := by rw [← source_next r, h₁]
    rw [h₁] at hanswer hreader
    rcases hn : (r.shift source d).next with ⟨x, r₂⟩
    rw [hn] at hanswer hreader
    cases hanswer with
    | ok =>
      obtain rfl : r₂ = r₁.shift source d := hreader
      rw [nextSignificant_of_next hn, id, if_pos ht, ← hsource]
      exact ih
  | case3 r k r₁ h₁ ht =>
    obtain ⟨hanswer, hreader⟩ := next_shift source d r
    rw [h₁] at hanswer hreader
    rcases hn : (r.shift source d).next with ⟨x, r₂⟩
    rw [hn] at hanswer hreader
    cases hanswer with
    | ok =>
      rw [nextSignificant_of_next hn, id, if_neg ht]
      exact ⟨.ok k, hreader⟩

theorem source_nextSignificant : r.nextSignificant.2.source = r.source := by
  fun_induction nextSignificant r with
  | case1 r p r₁ h₁ => rw [← source_next r, h₁]
  | case2 r k r₁ h₁ ht ih => rw [ih, ← source_next r, h₁]
  | case3 r k r₁ h₁ ht => rw [← source_next r, h₁]

end LexemeReader

/-! ## Tokens -/

/-- The same token, `d` bytes further on. -/
def Token.shift (d : Nat) (t : Token) : Token :=
  { t with span := ⟨t.span.start + d, t.span.stop + d⟩ }

/-- What a token that starts further on does to the books. -/
theorem Grouping.enter_shift (rest source : List Char) (g : Grouping) (k : Kind) (line : UInt32)
    (start d : Nat) :
    ShiftedAnswer rest source d id (g.enter k line start) (g.enter k line (start + d)) := by
  rcases h : g.enter k line start with p | g'
  · rcases enter_eq_error_iff.1 h with ⟨hk, hopen, rfl⟩ | ⟨hk, hopen, rfl⟩
    · rw [enter_eq_error_iff.2 (.inl ⟨hk, hopen, rfl⟩)]
      exact .error (.unbalanced _ _)
    · rw [enter_eq_error_iff.2 (.inr ⟨hk, hopen, rfl⟩)]
      exact .error (.unbalanced _ _)
  · rw [enter_eq_ok_iff.2 (enter_eq_ok_iff.1 h)]
    exact .ok g'

namespace TokenStream

/-- The same stream in the script `source`, `d` bytes further on. -/
def shift (source : List Char) (d : Nat) (s : TokenStream) : TokenStream :=
  ⟨s.reader.shift source d, s.grouping⟩

/-- The second stream tells what the first one does. -/
structure Beside (s s' : TokenStream) : Prop where
  line : s'.reader.line = s.reader.line
  flags : s'.flags = s.flags
  isBalanced : s'.isBalanced = s.isBalanced

variable (source : List Char) (d : Nat) (s : TokenStream)

theorem beside_shift : Beside s (s.shift source d) := ⟨rfl, rfl, rfl⟩

theorem token_shift (r : LexemeReader) (k : Kind) :
    token (r.shift source d) k = (token r k).shift d := by
  rw [token, LexemeReader.lexeme_shift]
  rfl

theorem read_shift :
    ShiftedAnswer s.reader.source source d id s.read.1 (s.shift source d).read.1 ∧
      (s.shift source d).read.2 = s.read.2.shift source d := by
  obtain ⟨hanswer, hreader⟩ := s.reader.nextSignificant_shift source d
  have hsource := s.reader.source_nextSignificant
  rcases hn : s.reader.nextSignificant with ⟨x, r⟩
  rcases hn' : (s.shift source d).reader.nextSignificant with ⟨y, r'⟩
  rw [hn] at hanswer hreader hsource
  rw [show (s.reader.shift source d).nextSignificant = (y, r') from hn'] at hanswer hreader
  obtain rfl : r' = r.shift source d := hreader
  simp only [read, hn, hn']
  cases hanswer with
  | error h => exact ⟨.error h, rfl⟩
  | ok k =>
    have hopens : (s.shift source d).opensRegExp (id k) = s.opensRegExp k := rfl
    simp only [hopens]
    split
    · -- The slash opens a regular expression, whose rest is read alike.
      obtain ⟨hrest, hreader'⟩ := r.readRegExp_shift source d (k = .symbol .slashEquals)
      rw [hsource] at hrest
      rcases hr : r.readRegExp (k = .symbol .slashEquals) with ⟨x, r₁⟩
      rcases hr' : (r.shift source d).readRegExp (k = .symbol .slashEquals) with ⟨y, r₁'⟩
      rw [hr, hr'] at hrest hreader'
      simp only [id, hr']
      cases hrest with
      | error h => exact ⟨.error h, hreader'⟩
      | ok => exact ⟨.ok _, hreader'⟩
    · exact ⟨.ok k, rfl⟩

theorem source_read : s.read.2.source = s.reader.source := by
  have hsource := s.reader.source_nextSignificant
  rcases hn : s.reader.nextSignificant with ⟨p | k, r⟩
  · rw [hn] at hsource
    simp only [read, hn]
    exact hsource
  · rw [hn] at hsource
    have hregExp := r.source_readRegExp (k = .symbol .slashEquals)
    simp only [read, hn]
    split
    · rcases hr : r.readRegExp (k = .symbol .slashEquals) with ⟨p | u, r₁⟩ <;>
      · rw [hr] at hregExp
        exact hregExp.trans hsource
    · exact hsource

/-- The next token does not depend on where the text starts that is read. -/
theorem next_shift :
    ShiftedAnswer s.reader.source source d (Token.shift d) s.next.1 (s.shift source d).next.1 ∧
      (s.shift source d).next.2 = s.next.2.shift source d := by
  obtain ⟨hanswer, hreader⟩ := read_shift source d s
  rcases hn : s.read with ⟨x, r⟩
  rcases hn' : (s.shift source d).read with ⟨y, r'⟩
  rw [hn, hn'] at hanswer hreader
  obtain rfl : r' = r.shift source d := hreader
  rw [next_eq_read, next_eq_read, hn, hn']
  cases hanswer with
  | error h => exact ⟨.error h, rfl⟩
  | ok k =>
    have henter :=
      Grouping.enter_shift s.reader.source source s.grouping k r.line r.opening.offset d
    change ShiftedAnswer _ _ _ _ (s.enter r k).1 ((s.shift source d).enter (r.shift source d) k).1 ∧
      ((s.shift source d).enter (r.shift source d) k).2 = (s.enter r k).2.shift source d
    have hbooks : (s.shift source d).grouping.enter k (r.shift source d).line
        (r.shift source d).opening.offset =
          s.grouping.enter k r.line (r.opening.offset + d) := rfl
    rw [enter, enter, hbooks, token_shift]
    generalize s.grouping.enter k r.line r.opening.offset = a,
      s.grouping.enter k r.line (r.opening.offset + d) = b at henter ⊢
    cases henter with
    | ok => exact ⟨.ok _, rfl⟩
    | error h => exact ⟨.error h, rfl⟩

theorem source_next : s.next.2.reader.source = s.reader.source := by
  rw [reader_next]
  exact source_read s

theorem source_after (n : Nat) : (s.after n).reader.source = s.reader.source := by
  induction n with
  | zero => rfl
  | succ n ih => exact (source_next (s.after n)).trans ih

theorem after_shift (n : Nat) : (s.shift source d).after n = (s.after n).shift source d := by
  induction n with
  | zero => rfl
  | succ n ih => rw [after, ih, (next_shift source d (s.after n)).2, after]

end TokenStream

/-! ## Behind an offset -/

theorem LexemeReader.startingAt_eq_shift (source : List Char) (offset : Nat) (v : Version) :
    startingAt source offset v = (startingAt (dropBytes offset source) 0 v).shift source
      (byteLength (takeBytes offset source)) := by
  have hzero : Cursor.startingAt (dropBytes offset source) 0 =
      ⟨.atOffset 0, dropBytes offset source⟩ := by
    rw [Cursor.startingAt, takeBytes_zero, dropBytes_zero, byteLength]
  have hcursor : Cursor.startingAt source offset =
      (Cursor.startingAt (dropBytes offset source) 0).shift
        (byteLength (takeBytes offset source)) := by
    rw [hzero, Cursor.startingAt, Cursor.shift, Place.shift, Place.atOffset, Place.atOffset,
      Nat.zero_add]
  rw [startingAt, startingAt, hcursor]
  rfl

/-- Read from an offset on, a script tells what its rest tells alone, whatever is
    asked of readers or streams, and behind problems, too. The offset may lie inside a
    character; `d` is where that character starts. -/
theorem read_behind_offset (source : List Char) (offset : Nat) (v : Version) :
    ∃ d, IsFloor source offset d ∧
      (∀ calls c,
        let r := (LexemeReader.startingAt (dropBytes d source) 0 v).afterCalls calls
        let r' := (LexemeReader.startingAt source offset v).afterCalls calls
        ShiftedAnswer (dropBytes d source) source d id (r.call c).1 (r'.call c).1 ∧
          LexemeReader.Beside d (r.call c).2 (r'.call c).2) ∧
      ∀ n,
        let s := (TokenStream.startingAt (dropBytes d source) 0 v).after n
        let s' := (TokenStream.startingAt source offset v).after n
        ShiftedAnswer (dropBytes d source) source d (Token.shift d) s.next.1 s'.next.1 ∧
          TokenStream.Beside s.next.2 s'.next.2 := by
  have hreader := LexemeReader.startingAt_eq_shift source offset v
  have hstream : TokenStream.startingAt source offset v =
      (TokenStream.startingAt (dropBytes offset source) 0 v).shift source
        (byteLength (takeBytes offset source)) := congrArg (TokenStream.mk · .empty) hreader
  refine ⟨byteLength (takeBytes offset source), isFloor_takeBytes source offset,
    fun calls c => ?_, fun n => ?_⟩
  · rw [dropBytes_floor, hreader, LexemeReader.afterCalls_shift]
    generalize hr : (LexemeReader.startingAt (dropBytes offset source) 0 v).afterCalls calls = r
    have hsource : r.source = dropBytes offset source := by
      rw [← hr, LexemeReader.source_afterCalls]
      rfl
    obtain ⟨hanswer, hbehind⟩ := r.call_shift source (byteLength (takeBytes offset source)) c
    rw [hsource] at hanswer
    exact ⟨hanswer, hbehind ▸ LexemeReader.beside_shift ..⟩
  · rw [dropBytes_floor, hstream, TokenStream.after_shift]
    generalize hs : (TokenStream.startingAt (dropBytes offset source) 0 v).after n = s
    have hsource : s.reader.source = dropBytes offset source := by
      rw [← hs, TokenStream.source_after]
      rfl
    obtain ⟨hanswer, hbehind⟩ := s.next_shift source (byteLength (takeBytes offset source))
    rw [hsource] at hanswer
    exact ⟨hanswer, hbehind ▸ TokenStream.beside_shift ..⟩

end ScriptExcerpt
