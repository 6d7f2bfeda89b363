import Mathlib.Data.List.DropRight
import ScriptExcerpt.Proofs.Lexeme.CommentOpening
import ScriptExcerpt.Proofs.Lexeme.Lossless
import ScriptExcerpt.Proofs.Lexeme.Written

/-!
# What stands before a lexeme on its line

Whether `-->` opens a comment depends on the text before it: behind the last line end there must
be nothing but a gap (`Text.lastLine`). A reader looks at no text twice. It remembers a flag, which
a line end sets and a lexeme clears: every lexeme leaves ink on the line that it ends on, even if
it begins on another one. Only behind a comment that `-->` opened the flag stays set, and there
the line ends.

* `Text.LeavesInk`, `Text.KeepsInk`: what a text makes of the line that it ends on;
* `keepsInk_lexemeAt`: every lexeme leaves ink;
* `LexemeReader.TellsLine`: what the flag means, kept by each lexeme;
* `LexemeReader.arrow_lineComment_iff`: where `-->` opens a comment.
-/

namespace ScriptExcerpt

open Text

/-! ## The last line of a text -/

namespace Text

variable {a b u w : List Char} {c : Char}

/-- What stands behind the last line end of a text. -/
def lastLine (cs : List Char) : List Char :=
  cs.rtakeWhile fun c => !isLineEnd c

/-- On its last line the text is more than a gap. -/
def LeavesInk (cs : List Char) : Prop :=
  ¬ IsGap (lastLine cs)

/-- Behind a text that leaves ink, the two together do. -/
def KeepsInk (w : List Char) : Prop :=
  ∀ u, LeavesInk u → LeavesInk (u ++ w)

theorem lastLine_append (h : ∀ c ∈ b, isLineEnd c = false) :
    lastLine (a ++ b) = lastLine a ++ b := by
  rw [lastLine, lastLine, List.rtakeWhile, List.rtakeWhile, List.reverse_append,
    List.takeWhile_append_of_pos fun c hc => by simp [h c (List.mem_reverse.1 hc)],
    List.reverse_append, List.reverse_reverse]

theorem lastLine_of_lineEnd (hc : isLineEnd c) : lastLine (a ++ [c]) = [] :=
  List.rtakeWhile_concat_neg _ _ _ (by simp [hc])

theorem not_leavesInk_nil : ¬ LeavesInk [] :=
  fun h => h isGap_nil

/-- Behind a line end nothing but a gap stands on the line. -/
theorem not_leavesInk_of_lineEnd (hc : isLineEnd c) (hb : IsGap b) :
    ¬ LeavesInk (a ++ c :: b) := fun h => h (by
  rwa [← List.singleton_append, ← List.append_assoc,
    lastLine_append fun d hd => not_isLineEnd_of_gap (hb d hd), lastLine_of_lineEnd hc])

/-- A gap changes nothing. -/
theorem leavesInk_append_gap (hb : IsGap b) : LeavesInk (a ++ b) ↔ LeavesInk a := by
  refine not_congr ?_
  rw [lastLine_append fun d hd => not_isLineEnd_of_gap (hb d hd), IsGap, List.forall_mem_append]
  exact and_iff_left hb

theorem leavesInk_concat (hc : Inked c) : LeavesInk (a ++ [c]) := fun h => by
  rw [lastLine_append (by simpa using hc.not_lineEnd)] at h
  have hgap := h c (by simp)
  simp [hc.not_blank, hc.not_invisible] at hgap

/-- A text that stays on its line keeps the ink on it. -/
theorem keepsInk_of_not_isLineEnd (h : ∀ c ∈ w, isLineEnd c = false) : KeepsInk w :=
  fun u hu hgap => hu fun c hc => hgap c (by
    rw [lastLine_append h]
    exact List.mem_append_left w hc)

theorem keepsInk_concat (hc : Inked c) (w : List Char) : KeepsInk (w ++ [c]) := fun u _ => by
  rw [← List.append_assoc]
  exact leavesInk_concat hc

theorem KeepsInk.append (ha : KeepsInk a) (hb : KeepsInk b) : KeepsInk (a ++ b) := fun u hu => by
  rw [← List.append_assoc]
  exact hb _ (ha u hu)

end Text

/-! ## What runs pass -/

/-- The way from the cursor `a` to `b` keeps the ink before it. -/
def Cursor.KeepsInk (a b : Cursor) : Prop :=
  ∃ w, a.Passes w b ∧ Text.KeepsInk w

theorem Cursor.KeepsInk.trans {a b c : Cursor} (h : a.KeepsInk b) (h' : b.KeepsInk c) :
    a.KeepsInk c := by
  obtain ⟨u, hu, hukeeps⟩ := h
  obtain ⟨w, hw, hwkeeps⟩ := h'
  exact ⟨u ++ w, hu.trans hw, hukeeps.append hwkeeps⟩

/-- From the cursor `a` on, no line ends before `b`. -/
def Cursor.StaysOnLine (a b : Cursor) : Prop :=
  ∃ w, a.Passes w b ∧ ∀ c ∈ w, isLineEnd c = false

namespace Cursor.StaysOnLine

variable {a b : Cursor} {p : Place} {c : Char} {cs : List Char}

theorem refl (a : Cursor) : a.StaysOnLine a := ⟨[], .refl a, by simp⟩

theorem past (h : a.StaysOnLine ⟨p, c :: cs⟩) (hp : ¬ p.completes c) (hc : isLineEnd c = false) :
    a.StaysOnLine ⟨p.past c, cs⟩ := by
  obtain ⟨w, hw, hline⟩ := h
  refine ⟨w ++ [c], hw.trans (passes_past hp cs), fun d hd => ?_⟩
  rcases List.mem_append.1 hd with hd | hd
  · exact hline d hd
  · rwa [List.mem_singleton.1 hd]

theorem keepsInk (h : a.StaysOnLine b) : a.KeepsInk b := by
  obtain ⟨w, hw, hline⟩ := h
  exact ⟨w, hw, keepsInk_of_not_isLineEnd hline⟩

/-- A cursor on the same line is not directly behind a carriage return. -/
theorem afterReturn_eq (h : a.StaysOnLine b) (ha : a.place.OnLine) :
    b.place.afterReturn = false := by
  obtain ⟨w, hw, hline⟩ := h
  rw [hw.afterReturn_eq]
  exact (Place.onLine_through ha hline).afterReturn

end Cursor.StaysOnLine

namespace Recognizer

variable {σ ρ ε : Type} {M : Recognizer σ ρ ε} {settled : σ → Prop} {s : σ} {cur : Cursor} {r : ρ}

/-- No line ends in what a run passes that keeps to its line. -/
theorem OneLine.invariant_staysOnLine (hM : M.OneLine settled) (hcur : cur.place.OnLine) :
    M.Invariant fun _ mark here => cur.StaysOnLine mark ∧ cur.StaysOnLine here where
  complete h hc :=
    absurd hc (Place.not_completes_of_afterReturn (h.2.afterReturn_eq hcur) _)
  skip h hp hc := ⟨h.1, h.2.past hp (not_isLineEnd_of_isInvisible hc)⟩
  take h hp he :=
    have hpast := h.2.past hp (hM.not_isLineEnd (by rw [he]; exact id))
    ⟨hpast, hpast⟩
  probe h hp he := ⟨h.1, h.2.past hp (hM.not_isLineEnd (by rw [he]; exact id))⟩

theorem OneLine.staysOnLine (hM : M.OneLine settled) (hcur : cur.place.OnLine)
    (h : (M.runFrom s cur).verdict = .ok r) : cur.StaysOnLine (M.runFrom s cur).cursor := by
  obtain ⟨s', mark, here, ⟨hmark, hhere⟩, hend⟩ :=
    (hM.invariant_staysOnLine hcur).halts (s := s) ⟨.refl cur, .refl cur⟩
  rw [runFrom] at h ⊢
  generalize M.run s cur cur.place cur.rest = o at h hend ⊢
  cases hend with
  | accept => exact hhere
  | back => exact hmark
  | finish hp he => exact hhere.past hp (hM.not_isLineEnd (by rw [he]; exact id))
  | stop => exact hmark
  | breakOff | fail | refuse => simp at h

/-- What closes itself ends with the character that closes it. -/
theorem SelfClosing.exists_finish (hM : M.SelfClosing) (h : (M.runFrom s cur).verdict = .ok r) :
    ∃ w c s', cur.Passes (w ++ [c]) (M.runFrom s cur).cursor ∧ M.step s' c = .finish r := by
  obtain ⟨s', mark, here, ⟨-, hhere⟩, hend⟩ :=
    (invariant_leads M cur).halts (s := s) ⟨.refl cur, .refl cur⟩
  rw [runFrom] at h ⊢
  generalize M.run s cur cur.place cur.rest = o at h hend ⊢
  cases hend with
  | finish hp he =>
    obtain rfl := Except.ok.inj h
    obtain ⟨w, hw⟩ := hhere
    exact ⟨w, _, s', hw.trans (Cursor.passes_past hp _), he⟩
  | stop _ he => exact absurd he hM.stop
  | accept he | back he =>
    obtain ⟨e, hfail⟩ := hM.atEnd (s := s')
    simp [hfail] at he
  | breakOff | fail | refuse => simp at h

end Recognizer

theorem Quotation.eq_of_finish {quote c : Char} {s : State} {d : Text.CodeUnit.Decoder}
    (h : (recognizer quote).step s c = .finish d) : c = quote := by
  cases s <;> simp only [recognizer, step, stepText] at h <;> grind

theorem Comment.eq_of_finish {c : Char} {s : Bool} {r : Unit}
    (h : blockRecognizer.step s c = .finish r) : c = '/' := by
  simp only [blockRecognizer] at h
  grind

/-! ## Lexemes -/

namespace Lexeme

variable {v : Version} {lineIsBlank : Bool} {c : Char} {behind : Cursor} {k : Kind}

theorem keepsInk_name (hb : behind.place.OnLine) (h : (name v c behind).verdict = .ok k) :
    behind.KeepsInk (name v c behind).cursor := by
  rw [name] at h ⊢
  split
  · next ho => exact (Name.oneLine.staysOnLine hb ho).keepsInk
  · next ho => simp [ho] at h

theorem keepsInk_number (hb : behind.place.OnLine) (h : (number v c behind).verdict = .ok k) :
    behind.KeepsInk (number v c behind).cursor := by
  rw [number] at h ⊢
  split
  · next ho => exact ((Number.oneLine v).staysOnLine hb ho).keepsInk
  · next ho => exact ((Number.oneLine v).staysOnLine hb ho).keepsInk
  · next ho => simp [ho] at h

theorem keepsInk_quotation (hquote : isQuote c) (h : (quotation c behind).verdict = .ok k) :
    behind.KeepsInk (quotation c behind).cursor := by
  rw [quotation] at h ⊢
  split
  · next ho =>
    obtain ⟨w, d, s, hw, hfinish⟩ :=
      (Quotation.selfClosing (not_isLineEnd_of_isQuote hquote)).exists_finish ho
    obtain rfl := Quotation.eq_of_finish hfinish
    exact ⟨w ++ [d], hw, keepsInk_concat (inked_of_isQuote hquote) w⟩
  · next ho => simp [ho] at h

theorem keepsInk_lineComment (hb : behind.place.OnLine)
    (h : (lineComment behind).verdict = .ok k) : behind.KeepsInk (lineComment behind).cursor := by
  rw [lineComment] at h ⊢
  cases ho : (Comment.lineRecognizer.runFrom () behind).verdict with
  | error f => simp [ho, Except.map] at h
  | ok u => exact (Comment.oneLine_line.staysOnLine hb ho).keepsInk

theorem keepsInk_blockComment (h : (blockComment behind).verdict = .ok k) :
    behind.KeepsInk (blockComment behind).cursor := by
  rw [blockComment] at h ⊢
  cases ho : (Comment.blockRecognizer.runFrom false behind).verdict with
  | error f => simp [ho, Except.map] at h
  | ok u =>
    obtain ⟨w, d, s, hw, hfinish⟩ := Comment.selfClosing_block.exists_finish ho
    obtain rfl := Comment.eq_of_finish hfinish
    exact ⟨w ++ ['/'], hw, keepsInk_concat ⟨rfl, rfl, rfl⟩ w⟩

theorem keepsInk_symbol {table : List (List Char × Kind)}
    (ht : ∀ p ∈ table, ∀ c ∈ p.1, isLineEnd c = false) (hb : behind.place.OnLine)
    (h : (symbol table c behind).verdict = .ok k) :
    behind.KeepsInk (symbol table c behind).cursor := by
  rw [symbol] at h ⊢
  split
  · exact (Cursor.StaysOnLine.refl behind).keepsInk
  · next kind hk =>
    simp only [hk] at h
    split
    · next hlong =>
      rw [if_pos hlong] at h
      dsimp only at h ⊢
      -- A comment goes on where its opening was read.
      split
      · next ho =>
        have hopening := (Operator.oneLine ht).staysOnLine hb ho
        have hline := ((Operator.oneLine ht).extent hb ho).1.onLine
        exact hopening.keepsInk.trans (keepsInk_lineComment hline (by rwa [ho] at h))
      · next ho =>
        have hopening := (Operator.oneLine ht).staysOnLine hb ho
        exact hopening.keepsInk.trans (keepsInk_blockComment (by rwa [ho] at h))
      · next ho => exact ((Operator.oneLine ht).staysOnLine hb ho).keepsInk
      · next ho => simp [ho] at h
    · exact (Cursor.StaysOnLine.refl behind).keepsInk

end Lexeme

/-- Every lexeme keeps the ink before it. -/
theorem keepsInk_lexemeAt {v : Version} {lineIsBlank : Bool} {c : Char} {behind : Cursor} {k : Kind}
    (hb : behind.place.OnLine) (h : (lexemeAt v lineIsBlank c behind).verdict = .ok k) :
    behind.KeepsInk (lexemeAt v lineIsBlank c behind).cursor := by
  revert h
  refine lexemeAt_cases (P := fun l => l.verdict = .ok k → behind.KeepsInk l.cursor)
    (fun _ => ?_) (fun _ => ?_) (fun hquote => ?_) ?_
  · exact Lexeme.keepsInk_name hb
  · exact Lexeme.keepsInk_number hb
  · exact Lexeme.keepsInk_quotation hquote
  · exact Lexeme.keepsInk_symbol (fun p hp c hc => Operator.not_isLineEnd_of_mem_spelling hp hc) hb

/-! ## Comments that end with their line -/

namespace Cursor

variable {cur : Cursor} {p : Place} {gap cs : List Char} {c : Char}

/-- Behind a gap the line ends, or the script does. -/
def AtLineEnd (cur : Cursor) : Prop :=
  ∀ c ∈ cur.skipGap.rest.head?, isLineEnd c

theorem rest_skipGapFrom (hgap : IsGap gap) (hp : p.afterReturn = false)
    (hc : (isBlank c || isInvisible c) = false) (cs : List Char) :
    (skipGapFrom p (gap ++ c :: cs)).rest = c :: cs := by
  induction gap generalizing p with
  | nil =>
    rw [List.nil_append, skipGapFrom, if_neg (Place.not_completes_of_afterReturn hp c), hc]
    rfl
  | cons x gap ih =>
    obtain ⟨hx, hgap⟩ := List.forall_mem_cons.1 hgap
    rw [List.cons_append, skipGapFrom, if_neg (Place.not_completes_of_afterReturn hp x), if_pos hx]
    exact ih hgap (ne_return_of_not_isLineEnd (not_isLineEnd_of_gap hx))

/-- A gap ends before a line end. -/
theorem not_gap_of_isLineEnd (hc : isLineEnd c) : (isBlank c || isInvisible c) = false := by
  rw [← Bool.not_eq_true]
  intro hgap
  exact absurd (hc.symm.trans (not_isLineEnd_of_gap hgap)) (by decide)

theorem atLineEnd_of_rest_nil (h : cur.rest = []) : cur.AtLineEnd := by
  simp [AtLineEnd, skipGap, h, skipGapFrom]

theorem atLineEnd_of_gap (hgap : IsGap gap) (hret : cur.place.afterReturn = false)
    (hrest : cur.rest = gap ++ c :: cs) (hc : isLineEnd c) : cur.AtLineEnd := by
  rw [AtLineEnd, skipGap, hrest, rest_skipGapFrom hgap hret (not_gap_of_isLineEnd hc)]
  rintro d ⟨⟩
  exact hc

end Cursor

/-- Behind a line comment nothing is left but invisible characters up to the end of the line, if
    the script does not end. -/
theorem Comment.exists_lineEnd {cur : Cursor} (hcur : cur.place.OnLine) :
    (lineRecognizer.runFrom () cur).cursor.place.OnLine ∧
      ((lineRecognizer.runFrom () cur).cursor.rest = [] ∨ ∃ gap c cs,
        (lineRecognizer.runFrom () cur).cursor.rest = gap ++ c :: cs ∧
          (∀ x ∈ gap, isInvisible x) ∧ isLineEnd c) := by
  obtain ⟨s, mark, here, hI, hend⟩ := (oneLine_line.invariant cur).halts (s := ()) (.refl hcur)
  rw [Recognizer.runFrom]
  generalize lineRecognizer.run () cur cur.place cur.rest = o at hend ⊢
  cases hend with
  | accept he => exact ⟨hI.here_onLine, .inl rfl⟩
  | stop hp he =>
    obtain ⟨gap, hgap, hinvisible⟩ := hI.gap trivial
    have hlook : mark.look.place = mark.place := hI.mark_onLine.look_eq
    refine ⟨hlook ▸ hI.mark_onLine, .inr ⟨gap, _, _, hgap.1, hinvisible, ?_⟩⟩
    simp only [lineRecognizer] at he
    split at he
    · assumption
    · simp at he
  | back he | breakOff he => simp [lineRecognizer] at he
  | finish hp he | fail hp he | refuse hp he =>
    simp only [lineRecognizer] at he
    split at he <;> simp at he

/-- A line comment ends where its line does. -/
theorem Comment.atLineEnd {cur : Cursor} (hcur : cur.place.OnLine) :
    (lineRecognizer.runFrom () cur).cursor.AtLineEnd := by
  obtain ⟨hline, hnil | ⟨gap, c, cs, hrest, hgap, hc⟩⟩ := exists_lineEnd hcur
  · exact Cursor.atLineEnd_of_rest_nil hnil
  · exact Cursor.atLineEnd_of_gap (isGap_of_isInvisible hgap) hline.afterReturn hrest hc

theorem atLineEnd_lexemeAt {v : Version} {lineIsBlank : Bool} {c : Char} {behind : Cursor}
    (hb : behind.place.OnLine)
    (h : (lexemeAt v lineIsBlank c behind).verdict = .ok .lineComment) :
    (lexemeAt v lineIsBlank c behind).cursor.AtLineEnd := by
  obtain ⟨q, hq, hkind, hbegins⟩ := begins_of_lexemeAt hb rfl h
  obtain ⟨w, m, -, hm, -, hlexeme⟩ := lexemeAt_of_begins v hb hq hbegins
  rw [hlexeme, hkind]
  exact Comment.atLineEnd hm

/-! ## Arrows -/

namespace Operator

variable {v : Version}

/-- Where the line is blank, `-->` opens a comment. -/
theorem symbol_arrow {behind : Cursor} (hb : behind.place.OnLine)
    (h : "-->".toList <+: '-' :: visible behind.rest) :
    (Lexeme.symbol (spellings v true) '-' behind).verdict = .ok .lineComment := by
  have hopening : ("-->".toList, .lineComment) ∈ commentOpenings true := by decide
  obtain ⟨w, m, -, -, -, hlexeme⟩ := lexemeAt_of_begins v hb hopening h
  have hsymbol : lexemeAt v true '-' behind = Lexeme.symbol (spellings v true) '-' behind :=
    lexemeAt_eq_symbol (s := .dash) rfl (by decide) behind
  rw [← hsymbol, hlexeme]
  exact Lexeme.verdict_lineComment m

/-- Where it is not blank, no comment begins with a hyphen. -/
theorem symbol_dash_ne_lineComment {behind : Cursor} :
    (Lexeme.symbol (spellings v false) '-' behind).verdict ≠ .ok .lineComment := fun h => by
  have hall : ∀ q ∈ spellings v false, q.1.head? = some '-' → q.2 ≠ .lineComment := by
    cases v <;> decide
  obtain ⟨rest, hmem⟩ := (Lexeme.ensures_symbol (spellings v false) '-' behind).ok h
  exact hall _ hmem rfl rfl

end Operator

/-! ## Readers -/

/-- Only behind a carriage return a newline is passed that begins no line. -/
theorem Cursor.Passes.exists_return {a b : Cursor} {u : List Char} (h : a.Passes u b)
    (ha : a.place.afterReturn = false) (hb : b.place.afterReturn = true) :
    ∃ u', u = u' ++ ['\r'] := by
  rw [h.afterReturn_eq] at hb
  rcases List.eq_nil_or_concat u with rfl | ⟨u', c, rfl⟩
  · exact absurd (ha.symm.trans hb) (by decide)
  · rw [List.concat_eq_append, Place.through_append, Place.through, Place.through] at hb
    split at hb
    · simp [Place.complete] at hb
    · obtain rfl : c = '\r' := by simpa [Place.past] using hb
      exact ⟨u', by simp⟩

namespace LexemeReader

variable {start : Cursor} {r r' : LexemeReader} {u : List Char} {k : Kind} {ks : List Kind}
  {c : Char} {cs : List Char}

/-- The flag of a reader, which passed the text `u`, tells whether that leaves ink on its last
    line; but where nothing else can stand on the line, it may stay set. -/
structure TellsLine (start : Cursor) (r : LexemeReader) (u : List Char) : Prop where
  passes : start.Passes u r.cursor
  leavesInk : r.lineIsBlank = false → LeavesInk u
  atLineEnd : r.lineIsBlank → LeavesInk u → r.cursor.AtLineEnd

theorem tellsLine_startingAt (source : List Char) (offset : Nat) (v : Version) :
    TellsLine (startingAt source offset v).cursor (startingAt source offset v) [] where
  passes := .refl _
  leavesInk h := absurd h.symm Bool.false_ne_true
  atLineEnd _ h := absurd h not_leavesInk_nil

/-- A gap changes nothing: neither does the newline that belongs to a carriage return. -/
theorem TellsLine.skipGap (h : TellsLine start r u) (hstart : start.place.afterReturn = false) :
    ∃ u', start.Passes u' r.cursor.skipGap ∧ (r.lineIsBlank = false → LeavesInk u') ∧
      (r.lineIsBlank → LeavesInk u' → r.cursor.AtLineEnd) := by
  obtain ⟨passed, hpassed, hgap | ⟨hret, gap, rfl, hgap⟩⟩ := r.cursor.passes_skipGap
  · have hink : LeavesInk (u ++ passed) ↔ LeavesInk u := leavesInk_append_gap hgap
    exact ⟨_, h.passes.trans hpassed, fun hb => hink.2 (h.leavesInk hb),
      fun hb hu' => h.atLineEnd hb (hink.1 hu')⟩
  · have hnone := not_leavesInk_of_lineEnd (a := u) (c := '\n') rfl hgap
    refine ⟨_, h.passes.trans hpassed, fun hb => ?_, fun _ hink => absurd hink hnone⟩
    -- Behind the carriage return nothing was read, so that the flag is set.
    obtain ⟨u', rfl⟩ := h.passes.exists_return hstart hret
    exact absurd (h.leavesInk hb) (not_leavesInk_of_lineEnd rfl isGap_nil)

/-- Directly behind a line end the line is blank. -/
theorem tellsLine_passLineEnd {opening : Cursor} (hc : isLineEnd c)
    (hu : start.Passes (u ++ [c]) ⟨opening.place.past c, cs⟩) :
    TellsLine start (r.passLineEnd opening c cs) (u ++ [c]) where
  passes := hu
  leavesInk h := absurd h.symm Bool.false_ne_true
  atLineEnd _ h := absurd h (not_leavesInk_of_lineEnd hc isGap_nil)

/-- A lexeme leaves ink. Only behind a comment the flag may be set, and there the line ends. -/
theorem exists_tellsLine_accept {v : Version} {lineIsBlank : Bool} {opening behind : Cursor}
    (hc : Inked c) (hb : behind.place.OnLine) (hu : start.Passes (u ++ [c]) behind)
    (h : (lexemeAt v lineIsBlank c behind).verdict = .ok k) :
    ∃ u', TellsLine start (r.accept opening c (lexemeAt v lineIsBlank c behind)).2 u' := by
  obtain ⟨w, hw, hkeeps⟩ := keepsInk_lexemeAt hb h
  refine ⟨u ++ [c] ++ w, hu.trans hw, fun _ => hkeeps _ (leavesInk_concat hc), fun hblank _ => ?_⟩
  have hcomment : k = .lineComment := by
    have hflag := (Bool.and_eq_true_iff.1 hblank).2
    rw [h] at hflag
    split at hflag
    · next hk => exact Except.ok.inj hk
    · exact absurd hflag Bool.false_ne_true
  exact atLineEnd_lexemeAt hb (hcomment ▸ h)

/-- Each lexeme keeps to what the flag means. -/
theorem TellsLine.step (h : TellsLine start r u) (hstart : start.place.afterReturn = false)
    (hn : r.next = (.ok k, r')) : ∃ u', TellsLine start r' u' := by
  obtain ⟨u', hpasses, hink, hend⟩ := h.skipGap hstart
  rcases hgap : r.cursor.skipGap with ⟨place, _ | ⟨c, cs⟩⟩
  · rw [next_of_gap_nil (by rw [hgap])] at hn
    obtain ⟨-, rfl⟩ := Prod.mk.inj hn
    exact ⟨u', hpasses, hink, fun _ _ => Cursor.atLineEnd_of_rest_nil (by rw [reachEnd, hgap])⟩
  · rw [hgap] at hpasses
    have hfirst : start.Passes (u' ++ [c]) ⟨place.past c, cs⟩ :=
      hpasses.trans (Cursor.passes_past (Cursor.not_completes_skipGapFrom hgap) cs)
    rw [next_of_gap hgap] at hn
    split at hn
    · next hc =>
      obtain ⟨-, rfl⟩ := Prod.mk.inj hn
      exact ⟨_, tellsLine_passLineEnd hc hfirst⟩
    · next hc =>
      rw [Bool.not_eq_true] at hc
      obtain ⟨hblank, hvisible⟩ := Bool.or_eq_false_iff.1 (Cursor.not_gap_skipGapFrom hgap)
      obtain ⟨hverdict, rfl⟩ := Prod.mk.inj hn
      exact exists_tellsLine_accept ⟨hc, hblank, hvisible⟩ (Place.onLine_past place hc) hfirst
        (ok_of_mapError hverdict)

/-- Up to the first problem the flag of a reader tells the line. -/
theorem Lexes.tellsLine {source : List Char} {offset : Nat} {v : Version}
    (h : Lexes (startingAt source offset v) ks r) :
    ∃ u, TellsLine (startingAt source offset v).cursor r u := by
  induction h with
  | nil => exact ⟨[], tellsLine_startingAt source offset v⟩
  | snoc _ hn ih =>
    obtain ⟨u, hu⟩ := ih
    exact hu.step rfl hn

/-- Up to the first problem, what `-->` begins is a comment exactly if nothing but a gap stands
    between the last line end before it, or the start of the reading, and itself. -/
theorem arrow_lineComment_iff {source : List Char} {offset : Nat} {v : Version}
    (h : Lexes (startingAt source offset v) ks r)
    (harrow : "-->".toList <+: visible r.next.2.opening.rest) :
    let before := slice (startingAt source offset v).cursor.offset r.next.2.opening.offset source
    r.next.1 = .ok .lineComment ↔ IsGap (lastLine before) := by
  intro before
  obtain ⟨u, hu⟩ := h.tellsLine
  obtain ⟨u', hpasses, hink, hend⟩ := hu.skipGap rfl
  have hbefore : before = u' := by
    have hslice := (Cursor.standsIn_startingAt source offset).slice_eq hpasses
    rwa [← opening_next] at hslice
  rw [opening_next] at harrow
  rw [hbefore]
  rcases hgap : r.cursor.skipGap with ⟨place, _ | ⟨c, cs⟩⟩
  · simp [hgap, visible] at harrow
  · have hvisible : isInvisible c = false :=
      (Bool.or_eq_false_iff.1 (Cursor.not_gap_skipGapFrom hgap)).2
    rw [hgap, visible_cons hvisible] at harrow
    obtain rfl : '-' = c := (List.cons_prefix_cons.1 harrow).1
    have hsymbol : lexemeAt r.version r.lineIsBlank '-' ⟨place.past '-', cs⟩ =
        Lexeme.symbol (Operator.spellings r.version r.lineIsBlank) '-' ⟨place.past '-', cs⟩ :=
      Operator.lexemeAt_eq_symbol (s := .dash) rfl (by decide) _
    rw [next_of_gap hgap, if_neg (by decide), accept, hsymbol]
    cases hb : r.lineIsBlank with
    | true =>
      rw [Operator.symbol_arrow (Place.onLine_past _ rfl) harrow]
      refine iff_of_true rfl (Classical.byContradiction fun hink => ?_)
      -- The line does not end here.
      have hline := hend hb hink '-' (by rw [hgap]; rfl)
      exact absurd hline (by decide)
    | false =>
      refine iff_of_false (fun hok => ?_) (hink hb)
      exact Operator.symbol_dash_ne_lineComment (ok_of_mapError hok)

/-- Behind a line end and a gap, an arrow opens a comment, invisible characters inside it or not. -/
theorem arrow_lineComment_behind_gap :
    let source := "a\n \u00ad-\u00ad-> b".toList
    let s := startingAt source 0 .js17
    let r := s.next.2.next.2
    Lexes s [.lineEnd, .identifier] r ∧ "-->".toList <+: visible r.next.2.opening.rest ∧
      r.next.1 = .ok .lineComment := by
  intro source s r
  have hname : s.next = (.ok .identifier, s.next.2) := Prod.ext (by decide +kernel) rfl
  have hline : s.next.2.next = (.ok .lineEnd, r) := Prod.ext (by decide +kernel) rfl
  have hlexes : Lexes s [.lineEnd, .identifier] r := .snoc (.snoc (.nil s) hname) hline
  have harrow : "-->".toList <+: visible r.next.2.opening.rest :=
    List.isPrefixOf_iff_prefix.1 (by decide +kernel)
  have hgap : (lastLine (slice s.cursor.offset r.next.2.opening.offset source)).all
      fun c => isBlank c || isInvisible c := by
    decide +kernel
  exact ⟨hlexes, harrow, (arrow_lineComment_iff hlexes harrow).2 (List.all_eq_true.1 hgap)⟩

/-- A comment that ends on another line leaves ink there. -/
example : (startingAt "/*\n*/ -->".toList 0 .js17).next.2.next.1 = .ok (.symbol .minusMinus) := by
  decide +kernel

end LexemeReader

end ScriptExcerpt
