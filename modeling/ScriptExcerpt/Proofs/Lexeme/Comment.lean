import ScriptExcerpt.Proofs.Lexeme.LineStart

/-!
# How far comments reach

A block comment ends with the first `*/` behind its opening, and a line comment before the end of
its line, invisible characters apart. The reader of a block comment remembers only whether it read
a star last; so what it has to find is the first `*/` of the star and the text that is still to be
read (`Comment.infix_held_cons`). The star of the opening does not count.

* `Comment.run_block`: a block comment, by induction on the text;
* `Comment.exists_lineEnd`: what stands behind a line comment;
* `LexemeReader.comments_delimited`: comments anywhere in a script.
-/

namespace ScriptExcerpt

open Text

/-! ## Block comments -/

namespace Comment

variable {star : Bool} {c : Char} {cs u w : List Char}

/-- What ends a block comment. -/
def closing : List Char :=
  ['*', '/']

/-- The star that was read last, if it was one. -/
def held (star : Bool) : List Char :=
  if star then ['*'] else []

/-- With one character more, a comment ends at it, or goes on behind it. -/
theorem infix_held_cons (star : Bool) (c : Char) (u : List Char) :
    closing <:+: held star ++ c :: u ↔
      star = true ∧ c = '/' ∨ closing <:+: held (c = '*') ++ u := by
  have hcons : closing <:+: c :: u ↔ closing <:+: held (c = '*') ++ u := by
    by_cases hc : c = '*'
    · rw [hc]
      rfl
    · rw [List.infix_cons_iff]
      simp [closing, held, hc, Ne.symm hc]
  cases star with
  | false => simpa [held] using hcons
  | true =>
    change closing <:+: '*' :: c :: u ↔ _
    rw [List.infix_cons_iff, hcons]
    simp [closing, List.cons_prefix_cons, eq_comm]

/-- What is visible of the text, read behind a star or not, ends a comment with its last
    character, and not before. -/
def EndsFirst (star : Bool) (w : List Char) : Prop :=
  ∃ u, visible w = u ++ ['/'] ∧ (held star ++ u).getLast? = some '*' ∧ ¬ closing <:+: held star ++ u

theorem endsFirst_slash : EndsFirst true ['/'] :=
  ⟨[], rfl, rfl, by decide⟩

theorem EndsFirst.cons_of_isInvisible (hc : isInvisible c) (h : EndsFirst star w) :
    EndsFirst star (c :: w) := by
  rwa [EndsFirst, visible_cons_of_isInvisible hc]

theorem EndsFirst.cons (hc : isInvisible c = false) (hnot : ¬ (star = true ∧ c = '/'))
    (h : EndsFirst (c = '*') w) : EndsFirst star (c :: w) := by
  obtain ⟨u, hu, hstar, hfirst⟩ := h
  refine ⟨c :: u, by rw [visible_cons hc, hu]; rfl, ?_, ?_⟩
  · -- The star stands in `u`, or it is `c`.
    cases hu : u.getLast? with
    | some x =>
      rw [List.getLast?_append, hu] at hstar
      rw [List.getLast?_append, List.getLast?_cons, hu]
      exact hstar
    | none =>
      obtain rfl := List.getLast?_eq_none_iff.1 hu
      have hc : c = '*' := by
        by_contra hne
        simp [held, hne] at hstar
      rw [List.getLast?_append, hc]
      rfl
  · rw [infix_held_cons]
    exact fun h => h.elim hnot hfirst

/-- A comment without a star before it ends with the two signs. -/
theorem EndsFirst.exists_body (h : EndsFirst false w) :
    ∃ x, visible w = x ++ closing ∧ ¬ closing <:+: x ++ ['*'] := by
  obtain ⟨u, hu, hstar, hfirst⟩ := h
  obtain ⟨x, rfl⟩ := List.getLast?_eq_some_iff.1 hstar
  exact ⟨x, by simpa [closing] using hu, hfirst⟩

/-- The reading of a block comment from `p` on, behind a star or not, ends with the first end of
    the comment, or finds none. -/
inductive Searches (star : Bool) (p : Place) : List Char → Outcome Unit Fault → Prop
  | finds {w : List Char} (t : List Char) : EndsFirst star w →
    Searches star p (w ++ t) ⟨.ok (), (p.through w).offset, ⟨p.through w, t⟩⟩
  | fails {cs : List Char} {o : Outcome Unit Fault} :
    o.verdict = .error (.unterminated "block comment") → ¬ closing <:+: held star ++ visible cs →
      Searches star p cs o

namespace Searches

variable {p p' : Place} {o : Outcome Unit Fault}

theorem cons (hc : isInvisible c = false) (hnot : ¬ (star = true ∧ c = '/'))
    (hp : ∀ w, p.through (c :: w) = p'.through w) (h : Searches (c = '*') p' cs o) :
    Searches star p (c :: cs) o := by
  cases h with
  | finds t hw => exact hp _ ▸ finds t (.cons hc hnot hw)
  | fails ho hnone =>
    refine fails ho ?_
    rw [visible_cons hc, infix_held_cons]
    exact fun h => h.elim hnot hnone

theorem cons_of_isInvisible (hc : isInvisible c) (hp : ∀ w, p.through (c :: w) = p'.through w)
    (h : Searches star p' cs o) : Searches star p (c :: cs) o := by
  cases h with
  | finds t hw => exact hp _ ▸ finds t (hw.cons_of_isInvisible hc)
  | fails ho hnone => exact fails ho (by rwa [visible_cons_of_isInvisible hc])

end Searches

/-- A run searches for the first end of the comment. A star is held only if it was the character
    before, so that no newline completes a carriage return then. -/
theorem searches_run {mark : Cursor} {p : Place} (hp : p.afterReturn → star = false) :
    Searches star p cs (blockRecognizer.run star mark p cs) := by
  induction cs generalizing star mark p with
  | nil => exact .fails rfl (by cases star <;> decide)
  | cons c cs ih =>
    rw [Recognizer.run]
    split
    · next hc =>
      obtain ⟨hret, rfl⟩ := Place.eq_newline_of_completes hc
      obtain rfl := hp hret
      exact .cons rfl (by decide) (fun w => by rw [Place.through, if_pos hc]) (ih fun _ => rfl)
    · next hc =>
      have hthrough (w : List Char) : p.through (c :: w) = (p.past c).through w := by
        rw [Place.through, if_neg hc]
      split
      · next hskip =>
        have hinvisible : isInvisible c := (Bool.and_eq_true_iff.1 hskip).2
        have hret : (p.past c).afterReturn = false :=
          ne_return_of_not_isLineEnd (not_isLineEnd_of_isInvisible hinvisible)
        exact .cons_of_isInvisible hinvisible hthrough (ih fun h => by simp [hret] at h)
      · next hskip =>
        have hvisible : isInvisible c = false := Bool.not_eq_true _ ▸ hskip
        by_cases hend : star = true ∧ c = '/'
        · obtain ⟨rfl, rfl⟩ := hend
          have hfinds : Searches true p (['/'] ++ cs) _ := .finds cs endsFirst_slash
          rw [hthrough []] at hfinds
          exact hfinds
        · have hstep : blockRecognizer.step star c = .take (decide (c = '*')) :=
            if_neg (by simpa using hend)
          rw [hstep]
          refine .cons hvisible hend hthrough (ih fun h => ?_)
          obtain rfl : c = '\r' := by simpa [Place.past] using h
          rfl

end Comment

namespace Lexeme

variable {m : Cursor}

/-- A block comment ends with the first `*/` behind its opening; without one it has no end. -/
theorem blockComment_cases (m : Cursor) :
    ((blockComment m).verdict = .ok .blockComment ∧ ∃ w x, m.Passes w (blockComment m).cursor ∧
      visible w = x ++ Comment.closing ∧ ¬ Comment.closing <:+: x ++ ['*']) ∨
    (blockComment m).verdict = .error (.unterminated "block comment") ∧
      ¬ Comment.closing <:+: visible m.rest := by
  obtain ⟨p, cs⟩ := m
  have hrun : Comment.Searches false p cs (Comment.blockRecognizer.runFrom false ⟨p, cs⟩) :=
    Comment.searches_run fun _ => rfl
  rw [blockComment]
  generalize Comment.blockRecognizer.runFrom false ⟨p, cs⟩ = o at hrun
  cases hrun with
  | @finds w t hw =>
    obtain ⟨x, hx, hfirst⟩ := hw.exists_body
    exact .inl ⟨rfl, w, x, Cursor.passes_through p w t, hx, hfirst⟩
  | fails ho hnone => exact .inr ⟨by rw [ho]; rfl, hnone⟩

theorem blockComment_iff (m : Cursor) :
    (blockComment m).verdict = .ok .blockComment ↔ Comment.closing <:+: visible m.rest := by
  rcases blockComment_cases m with ⟨hok, w, x, hw, hx, -⟩ | ⟨herror, hnone⟩
  · refine iff_of_true hok ⟨x, visible (blockComment m).cursor.rest, ?_⟩
    rw [hw.1, visible_append, hx]
  · exact iff_of_false (by simp [herror]) hnone

end Lexeme

/-! ## Readers -/

namespace LexemeReader

variable {r r' : LexemeReader} {q : List Char × Kind} {k : Kind} {text u : List Char} {m : Cursor}
  {l : Lexeme}

/-- What `r` reads next has the opening `text`, up to `m`, and then the rest of a comment, which
    alone would be read as `l`. -/
structure ReadsComment (r : LexemeReader) (text : List Char) (m : Cursor) (l : Lexeme) : Prop where
  opening : ∃ w, r.next.2.opening.Passes w m ∧ visible w = text
  onLine : m.place.OnLine
  told : r.next.1 =
    l.verdict.mapError fun f => r.problem f r.next.2.opening.offset l.cursor.offset
  cursor : r.next.2.cursor = l.cursor
  stop : r.next.2.stop = l.stop

/-- A comment begins with an opening. -/
theorem begins_of_next (h : r.next.1 = .ok k) (hk : k.isTrivia) (hline : k ≠ .lineEnd) :
    ∃ q ∈ Operator.commentOpenings r.lineIsBlank, q.2 = k ∧
      q.1 <+: visible r.next.2.opening.rest := by
  have hend : k ≠ .endOfInput := by
    rintro rfl
    exact absurd hk Bool.false_ne_true
  obtain ⟨c, cs, hread⟩ := hasRead_of_next (Prod.ext h rfl : r.next = (.ok k, r.next.2)) hend hline
  have hb := Place.onLine_past r.next.2.opening.place hread.inked.not_lineEnd
  rw [hread.opening, visible_cons hread.inked.not_invisible]
  exact begins_of_lexemeAt hb hk hread.verdict

/-- Where the visible text begins with an opening, a comment is read. -/
theorem readsComment_of_begins (hq : q ∈ Operator.commentOpenings r.lineIsBlank)
    (h : q.1 <+: visible r.next.2.opening.rest) :
    ∃ m start, r.ReadsComment q.1 m (Lexeme.afterOperator start ⟨.ok q.2, m.offset, m⟩) := by
  rcases hgap : r.cursor.skipGap with ⟨place, _ | ⟨c, cs⟩⟩
  · rw [opening_next, hgap] at h
    exact absurd (List.prefix_nil.1 h) (Operator.ne_nil_of_mem hq)
  · have hopening : r.next.2.opening = ⟨place, c :: cs⟩ := r.opening_next.trans hgap
    have hvisible : isInvisible c = false :=
      (Bool.or_eq_false_iff.1 (Cursor.not_gap_skipGapFrom hgap)).2
    rw [hopening, visible_cons hvisible] at h
    have hmem : c ∈ q.1 := List.mem_of_head? (Operator.head?_of_begins hq h)
    have hc : Inked c :=
      Operator.inked_of_mem_spelling (v := r.version) (List.mem_append_right _ hq) hmem
    have hb : (⟨place.past c, cs⟩ : Cursor).place.OnLine := place.onLine_past hc.not_lineEnd
    obtain ⟨w, m, hw, hm, htext, hlexeme⟩ := lexemeAt_of_begins r.version hb hq h
    have hnext := next_of_gap hgap
    rw [hc.not_lineEnd, if_neg Bool.false_ne_true, hlexeme] at hnext
    have hpast := Cursor.passes_past (Cursor.not_completes_skipGapFrom hgap) cs
    refine ⟨m, (place.past c).offset,
      { opening := ⟨[c] ++ w, ?_, ?_⟩, onLine := hm, told := ?_, cursor := ?_, stop := ?_ }⟩
    · rw [hopening]
      exact hpast.trans hw
    · rw [List.singleton_append, visible_cons hvisible, htext]
    · rw [hnext]
      rfl
    · rw [hnext]
      rfl
    · rw [hnext]
      rfl

namespace ReadsComment

theorem visible_eq (h : r.ReadsComment text m l) :
    visible r.next.2.opening.rest = text ++ visible m.rest := by
  obtain ⟨w, hw, htext⟩ := h.opening
  rw [hw.1, visible_append, htext]

/-- The text of the comment is that of the opening and of the rest. -/
theorem exists_lexeme (h : r.ReadsComment text m l) (hu : m.Passes u l.cursor)
    (hstop : l.stop = l.cursor.offset) : ∃ w, visible w = text ∧ r.next.2.lexeme = w ++ u := by
  obtain ⟨w, hw, htext⟩ := h.opening
  have hall : r.next.2.opening.Passes (w ++ u) r.next.2.cursor := h.cursor ▸ hw.trans hu
  exact ⟨w, htext, lexeme_eq hall (by rw [h.cursor, h.stop, hstop])⟩

/-- A block comment ends with the first `*/` behind its opening; without one it has no end. -/
theorem block (h : r.ReadsComment text m (.blockComment m)) :
    (r.next.1 = .ok .blockComment ∧ Comment.closing <:+: visible m.rest ∧
      ∃ x, visible r.next.2.lexeme = text ++ x ++ Comment.closing ∧
        ¬ Comment.closing <:+: x ++ ['*']) ∨
    (∃ p, r.next.1 = .error p ∧ p.cause = .unterminatedLiteral "block comment") ∧
      ¬ Comment.closing <:+: visible m.rest := by
  have htold := h.told
  rcases Lexeme.blockComment_cases m with ⟨hok, u, x, hu, hx, hfirst⟩ | ⟨herror, hnone⟩
  · obtain ⟨w, htext, hlexeme⟩ := h.exists_lexeme hu rfl
    rw [hok] at htold
    refine .inl ⟨htold, (Lexeme.blockComment_iff m).1 hok, x, ?_, hfirst⟩
    rw [hlexeme, visible_append, htext, hx, List.append_assoc]
  · rw [herror] at htold
    exact .inr ⟨⟨_, htold, rfl⟩, hnone⟩

end ReadsComment

/-- Behind a gap, a line end is told as a lexeme of its own. -/
theorem next_lineEnd {gap cs : List Char} {c : Char} (hret : r.cursor.place.afterReturn = false)
    (hrest : r.cursor.rest = gap ++ c :: cs) (hgap : IsGap gap) (hc : isLineEnd c) :
    r.next.1 = .ok .lineEnd ∧ r.next.2.lexeme = [c] ∧
      r.next.2.opening.offset = r.cursor.offset + byteLength gap := by
  have hskip : r.cursor.skipGap = ⟨r.cursor.skipGap.place, c :: cs⟩ := by
    have hbehind : r.cursor.skipGap.rest = c :: cs := by
      rw [Cursor.skipGap, hrest,
        Cursor.rest_skipGapFrom hgap hret (Cursor.not_gap_of_isLineEnd hc)]
    rw [← hbehind]
  have hopening : r.next.2.opening.rest = c :: cs := by rw [opening_next, hskip]
  have hnext := next_of_gap hskip
  rw [if_pos hc] at hnext
  refine ⟨by rw [hnext], ?_, ?_⟩
  · refine lexeme_eq (passes_opening rfl hopening) ?_
    rw [hnext]
    rfl
  · obtain ⟨passed, hpassed, -⟩ := r.cursor.passes_skipGap
    rw [← opening_next] at hpassed
    obtain rfl : passed = gap :=
      List.append_cancel_right (by rw [← hrest, hpassed.1, hopening] : passed ++ c :: cs = _)
    exact hpassed.offset_eq

/-- How far a comment reaches that `r` reads next in the script. -/
structure DelimitsComments (source : List Char) (r : LexemeReader) : Prop where
  /-- A block comment ends with the first `*/` behind its opening. -/
  block : r.next.1 = .ok .blockComment →
    ∃ x, visible r.next.2.lexeme = ['/', '*'] ++ x ++ Comment.closing ∧
      ¬ Comment.closing <:+: x ++ ['*']
  /-- Where the text begins with the opening of one, it is read if it has an end. -/
  closed {text : List Char} :
    visible (dropBytes r.next.2.opening.offset source) = ['/', '*'] ++ text →
      (r.next.1 = .ok .blockComment ↔ Comment.closing <:+: text)
  /-- If it has none, that is the problem. -/
  unterminated {text : List Char} :
    visible (dropBytes r.next.2.opening.offset source) = ['/', '*'] ++ text →
      ((∃ p, r.next.1 = .error p ∧ p.cause = .unterminatedLiteral "block comment") ↔
        ¬ Comment.closing <:+: text)
  /-- A line comment begins with an opening. -/
  opening : r.next.1 = .ok .lineComment →
    ∃ q ∈ Operator.commentOpenings r.lineIsBlank, q.2 = .lineComment ∧
      q.1 <+: visible r.next.2.lexeme
  /-- No line ends in it. -/
  onLine : r.next.1 = .ok .lineComment → ∀ c ∈ r.next.2.lexeme, isLineEnd c = false
  /-- Behind it the script ends, or else the line does, which is told next. -/
  lineEnd : r.next.1 = .ok .lineComment →
    (r.next.2.stop = byteLength source ∧ r.next.2.next.1 = .ok .endOfInput) ∨
      ∃ gap c cs, dropBytes r.next.2.stop source = gap ++ c :: cs ∧ (∀ x ∈ gap, isInvisible x) ∧
        isLineEnd c ∧ r.next.2.next.1 = .ok .lineEnd ∧ r.next.2.next.2.lexeme = [c] ∧
          r.next.2.next.2.opening.offset = r.next.2.stop + byteLength gap

/-- A line comment is an opening and the text behind it up to the end of the line. -/
theorem ReadsComment.line (h : r.ReadsComment text m (.lineComment m))
    (htext : ∀ c ∈ text, isLineEnd c = false) :
    text <+: visible r.next.2.lexeme ∧ (∀ c ∈ r.next.2.lexeme, isLineEnd c = false) ∧
      r.next.2.stop = r.next.2.cursor.offset ∧ r.next.2.cursor.place.OnLine ∧
        (r.next.2.cursor.rest = [] ∨ ∃ gap c cs, r.next.2.cursor.rest = gap ++ c :: cs ∧
          (∀ x ∈ gap, isInvisible x) ∧ isLineEnd c) := by
  obtain ⟨u, hu, hline⟩ := Comment.oneLine_line.staysOnLine h.onLine (Comment.verdict_line m)
  obtain ⟨w, hw, hlexeme⟩ := h.exists_lexeme (l := .lineComment m) hu rfl
  rw [hlexeme, h.stop, h.cursor]
  refine ⟨⟨visible u, by rw [visible_append, hw]⟩, fun c hc => ?_, rfl,
    Comment.exists_lineEnd h.onLine⟩
  rcases List.mem_append.1 hc with hc | hc
  · rw [← Bool.not_eq_true]
    intro hend
    obtain ⟨d, hd, hdend⟩ := (exists_isLineEnd_visible w).2 ⟨c, hc, hend⟩
    exact absurd ((htext d (hw ▸ hd)).symm.trans hdend) Bool.false_ne_true
  · exact hline c hc

/-- What is read as a line comment. -/
theorem exists_readsComment_line (h : r.next.1 = .ok .lineComment) :
    ∃ q ∈ Operator.commentOpenings r.lineIsBlank, q.2 = .lineComment ∧
      ∃ m, r.ReadsComment q.1 m (.lineComment m) := by
  obtain ⟨q, hq, hkind, hbegins⟩ := begins_of_next h rfl (by decide)
  obtain ⟨m, start, hread⟩ := readsComment_of_begins hq hbegins
  rw [hkind] at hread
  exact ⟨q, hq, hkind, m, hread⟩

/-- What begins like a block comment. -/
theorem exists_readsComment_block (h : ['/', '*'] <+: visible r.next.2.opening.rest) :
    ∃ m, r.ReadsComment ['/', '*'] m (.blockComment m) := by
  have hq : (['/', '*'], .blockComment) ∈ Operator.commentOpenings r.lineIsBlank := by
    cases r.lineIsBlank <;> decide
  obtain ⟨m, start, hread⟩ := readsComment_of_begins hq h
  exact ⟨m, hread⟩

/-- Only one opening is that of a block comment. -/
theorem begins_of_next_block (h : r.next.1 = .ok .blockComment) :
    ['/', '*'] <+: visible r.next.2.opening.rest := by
  obtain ⟨q, hq, hkind, hbegins⟩ := begins_of_next h rfl (by decide)
  have hall : ∀ q ∈ Operator.commentOpenings r.lineIsBlank, q.2 = .blockComment →
      q.1 = ['/', '*'] := by
    cases r.lineIsBlank <;> decide
  rwa [hall q hq hkind] at hbegins

/-- Wherever comments are read in a script, they reach as far as they should. -/
theorem comments_delimited (source : List Char) (offset : Nat) (v : Version) (calls : List Call) :
    DelimitsComments source ((startingAt source offset v).afterCalls calls) := by
  have hstands := standsIn_afterCalls source offset v calls
  generalize (startingAt source offset v).afterCalls calls = r at hstands
  obtain ⟨hopening, hcursor⟩ := leads_next (Prod.ext rfl rfl : r.next = (r.next.1, r.next.2))
  have hopening := hstands.leads hopening
  have hcursor := hopening.leads hcursor
  -- What begins like a block comment has an end behind the opening, or none.
  have hblock {text : List Char}
      (h : visible (dropBytes r.next.2.opening.offset source) = ['/', '*'] ++ text) :
      (r.next.1 = .ok .blockComment ∧ Comment.closing <:+: text) ∨
        (∃ p, r.next.1 = .error p ∧ p.cause = .unterminatedLiteral "block comment") ∧
          ¬ Comment.closing <:+: text := by
    rw [hopening.dropBytes_eq] at h
    obtain ⟨m, hread⟩ := exists_readsComment_block ⟨text, h.symm⟩
    obtain rfl : visible m.rest = text := List.append_cancel_left (hread.visible_eq.symm.trans h)
    exact hread.block.imp_left fun hok => ⟨hok.1, hok.2.1⟩
  refine
    { block := fun h => ?_, closed := fun h => ?_, unterminated := fun h => ?_,
      opening := fun h => ?_, onLine := fun h => ?_, lineEnd := fun h => ?_ }
  · obtain ⟨m, hread⟩ := exists_readsComment_block (begins_of_next_block h)
    rcases hread.block with ⟨-, -, hbody⟩ | ⟨⟨p, herror, -⟩, -⟩
    · exact hbody
    · simp [h] at herror
  · rcases hblock h with ⟨hok, hend⟩ | ⟨⟨p, herror, -⟩, hnone⟩
    · exact iff_of_true hok hend
    · exact iff_of_false (by simp [herror]) hnone
  · rcases hblock h with ⟨hok, hend⟩ | ⟨herror, hnone⟩
    · exact iff_of_false (by simp [hok]) (not_not_intro hend)
    · exact iff_of_true herror hnone
  all_goals
    obtain ⟨q, hq, hkind, m, hread⟩ := exists_readsComment_line h
    obtain ⟨hbegins, honLine, hstop, hline, hend⟩ := hread.line fun c hc =>
      Operator.not_isLineEnd_of_mem_spelling (v := r.version) (List.mem_append_right _ hq) hc
  · exact ⟨q, hq, hkind, hbegins⟩
  · exact honLine
  · rcases hend with hnil | ⟨gap, c, cs, hrest, hgap, hc⟩
    · refine .inl ⟨hstop.trans (hcursor.offset_eq_of_rest_nil hnil), ?_⟩
      rw [next_of_rest_nil hnil]
    · refine .inr ⟨gap, c, cs, ?_, hgap, hc, ?_⟩
      · rw [hstop, hcursor.dropBytes_eq, hrest]
      · rw [hstop]
        exact next_lineEnd hline.afterReturn hrest (isGap_of_isInvisible hgap) hc

/-- The star of its opening does not end a block comment, and invisible characters neither hide
    the end of a comment nor begin a line. -/
theorem comments_delimited_slash :
    let source := "/*/*\u00ad/ /\u00ad/a\u00ad\n".toList
    let r := startingAt source 0 .js17
    (r.next.1 = .ok .blockComment ∧
      ∃ x, visible r.next.2.lexeme = ['/', '*'] ++ x ++ Comment.closing ∧
        ¬ Comment.closing <:+: x ++ ['*']) ∧
    r.next.2.next.1 = .ok .lineComment ∧ r.next.2.next.2.next.1 = .ok .lineEnd := by
  intro source r
  have hblock : r.next.1 = .ok .blockComment := by decide +kernel
  have hline : r.next.2.next.1 = .ok .lineComment := by decide +kernel
  have hnext : ¬ (r.next.2.next.2.stop = byteLength source ∧
      r.next.2.next.2.next.1 = .ok .endOfInput) := by decide +kernel
  have hbehind : DelimitsComments source r.next.2 := comments_delimited source 0 .js17 [.next]
  obtain ⟨gap, c, cs, -, -, -, hend, -⟩ := (hbehind.lineEnd hline).resolve_left hnext
  exact ⟨⟨hblock, (comments_delimited source 0 .js17 []).block hblock⟩, hline, hend⟩

end LexemeReader

end ScriptExcerpt
