import ScriptExcerpt.Proofs.Lexeme.Again
import ScriptExcerpt.Proofs.Lexeme.Comment

/-!
# Lexemes that stand alone

The text of a lexeme, taken out of its script, is read as the same lexeme, and nothing of it is
left: what the reader looked at behind the lexeme, and what it knew of the line before it, makes no
difference to it. For a lexeme that the grammar sees this is a case of reading it again
(`lexemeAt_again`). A comment cannot be followed by any text that stands apart from it, since a line
comment takes a space in; but nothing is left to take behind its own text.

* `Lexeme.lineComment_alone`, `Lexeme.blockComment_alone`: the rest of a comment;
* `lexemeAt_alone`: a lexeme, read from its own text alone;
* `LexemeReader.lexeme_stands_alone`: any lexeme of any script.
-/

namespace ScriptExcerpt

open Text

/-! ## Comments -/

namespace Lexeme

variable {k : Kind} {m : Cursor}

/-- The lexeme, read from the cursor `a` on as `l`, has a text from which alone `read` reads a
    lexeme of the same kind and value, which has all of it. -/
def ReadAlone (read : Cursor → Lexeme) (a : Cursor) (k : Kind) (l : Lexeme) : Prop :=
  ∃ w m, a.Passes w m ∧ m.offset = l.stop ∧
    ∀ p : Place, p.OnLine → (read ⟨p, w⟩).Takes ⟨p, w⟩ w k l.value

/-- No line ends in the text of a line comment, so that nothing ends it alone. -/
theorem lineComment_alone (hm : m.place.OnLine) :
    ReadAlone lineComment m .lineComment (lineComment m) := by
  obtain ⟨w, hw, hline⟩ := Comment.oneLine_line.staysOnLine hm (Comment.verdict_line m)
  refine ⟨w, _, hw, rfl, fun p hp => ⟨verdict_lineComment _, rfl, ?_, rfl⟩⟩
  obtain ⟨u, hu, -⟩ :=
    Comment.oneLine_line.staysOnLine hp (Comment.verdict_line ⟨p, w⟩)
  have hpassed : w = u ++ (lineComment ⟨p, w⟩).cursor.rest := hu.1
  rcases (@Comment.exists_lineEnd ⟨p, w⟩ hp).2 with hnil | ⟨gap, c, cs, hrest, -, hc⟩
  · have hnil : (lineComment ⟨p, w⟩).cursor.rest = [] := hnil
    rw [hnil, List.append_nil] at hpassed
    exact hpassed ▸ hu
  · have hrest : (lineComment ⟨p, w⟩).cursor.rest = gap ++ c :: cs := hrest
    have hmem : c ∈ w := by
      rw [hpassed, hrest]
      simp
    exact absurd ((hline c hmem).symm.trans hc) Bool.false_ne_true

/-- A block comment ends with a sign of its own. -/
theorem blockComment_alone (hm : m.place.OnLine) (h : (blockComment m).verdict = .ok k) :
    ReadAlone blockComment m k (blockComment m) := by
  rw [blockComment] at h
  cases ho : (Comment.blockRecognizer.runFrom false m).verdict with
  | error f => simp [ho, Except.map] at h
  | ok r =>
    rw [ho] at h
    obtain rfl : Kind.blockComment = k := Except.ok.inj h
    obtain ⟨w, hw, hagain⟩ := Comment.selfClosing_block.separable.runFrom_again
      (fun hquits => absurd hquits Comment.selfClosing_block.not_quits) hm.afterReturn ho
    refine ⟨w, _, hw, rfl, fun p hp => ?_⟩
    obtain ⟨hverdict, hcursor⟩ := hagain p [] hp.afterReturn (.inl rfl) fun _ => rfl
    rw [List.append_nil] at hverdict hcursor
    exact ⟨by rw [blockComment, hverdict]; rfl, rfl, hcursor, rfl⟩

/-- The rest of the comment of the kind `k` whose opening was read. -/
def comment (k : Kind) (behind : Cursor) : Lexeme :=
  if k = .blockComment then blockComment behind else lineComment behind

theorem comment_alone (hk : k = .lineComment ∨ k = .blockComment) (hm : m.place.OnLine)
    (h : (comment k m).verdict = .ok k) : ReadAlone (comment k) m k (comment k m) := by
  rcases hk with rfl | rfl
  · exact lineComment_alone hm
  · exact blockComment_alone hm h

end Lexeme

namespace Operator

variable {v : Version} {lineIsBlank : Bool} {c : Char} {k : Kind} {w : List Char}
  {q : List Char × Kind}

theorem kind_of_mem_commentOpenings (hq : q ∈ commentOpenings lineIsBlank) :
    q.2 = .lineComment ∨ q.2 = .blockComment := by
  have hall : ∀ q ∈ commentOpenings lineIsBlank, q.2 = .lineComment ∨ q.2 = .blockComment := by
    cases lineIsBlank <;> decide
  exact hall q hq

/-- What opens a comment somewhere on a line opens it where the line is blank. -/
theorem kindOf?_of_mem_commentOpenings (hq : q ∈ commentOpenings lineIsBlank) :
    kindOf? (spellings v true) q.1 = some q.2 := by
  have hall : ∀ q ∈ commentOpenings lineIsBlank, kindOf? (spellings v true) q.1 = some q.2 := by
    cases v <;> cases lineIsBlank <;> decide +kernel
  exact hall q hq

/-- The opening that a comment was read by. -/
theorem exists_opening_of_lexemeAt {behind : Cursor} (hb : behind.place.OnLine) (hk : k.isTrivia)
    (h : (lexemeAt v lineIsBlank c behind).verdict = .ok k) :
    ∃ w m, Spells (spellings v lineIsBlank) c w k ∧ behind.Passes w m := by
  obtain ⟨q, hq, -, hbegins⟩ := begins_of_lexemeAt hb hk h
  obtain ⟨hsymbol, hlong, k₀, hc⟩ := lexemeAt_of_mem (v := v) hq (head?_of_begins hq hbegins) behind
  rw [hsymbol, Lexeme.symbol_eq_afterOperator hc hlong] at h
  obtain ⟨k', ho⟩ := exists_verdict (spellings v lineIsBlank) ⟨[c], k₀⟩ behind
  obtain rfl := Lexeme.eq_of_afterOperator ho h
  obtain ⟨w, m, hw, hm, -, -⟩ := spells_of_run inked_spellings hc hb ho
  exact ⟨w, m, hw, hm⟩

/-- The opening of a comment is read, whatever follows it, and then the rest of the comment. -/
theorem lexemeAt_of_opening (hw : Spells (spellings v lineIsBlank) c w k) (hk : k.isTrivia)
    {p : Place} (hp : p.OnLine) (t : List Char) :
    lexemeAt v lineIsBlank c ⟨p, w ++ t⟩ = Lexeme.comment k ⟨p.through w, t⟩ := by
  have hopening := mem_commentOpenings hk hw.kind
  obtain ⟨hsymbol, hlong, k₀, hc⟩ := lexemeAt_of_mem (v := v) hopening rfl ⟨p, w ++ t⟩
  have hrun := runFrom_of_spells inked_spellings hw hc hlong hp t
  rw [not_extends_of_mem hopening, if_neg Bool.false_ne_true] at hrun
  rw [hsymbol, Lexeme.symbol_eq_afterOperator hc hlong, hrun]
  rcases kind_of_mem_commentOpenings hopening with rfl | rfl <;> rfl

end Operator

/-! ## Lexemes -/

section Lexemes

variable {v : Version} {lineIsBlank : Bool} {c : Char} {behind : Cursor} {k : Kind}

/-- Where a comment stands on its line makes no difference to its text. -/
theorem lexemeAt_alone_of_isTrivia (hb : behind.place.OnLine) (hk : k.isTrivia)
    (h : (lexemeAt v lineIsBlank c behind).verdict = .ok k) :
    Lexeme.ReadAlone (lexemeAt v true c) behind k (lexemeAt v lineIsBlank c behind) := by
  obtain ⟨w, m, hw, hm⟩ := Operator.exists_opening_of_lexemeAt hb hk h
  have hopening := Operator.mem_commentOpenings hk hw.kind
  have hblank : Operator.Spells (Operator.spellings v true) c w k :=
    ⟨Operator.kindOf?_of_mem_commentOpenings hopening, hw.last⟩
  have honLine {p : Place} (hp : p.OnLine) : (p.through w).OnLine :=
    Place.onLine_through hp fun x hx =>
      (hw.inked_or_isInvisible Operator.inked_spellings hx).elim (fun h => h.not_lineEnd)
        not_isLineEnd_of_isInvisible
  obtain ⟨p, rest⟩ := behind
  obtain rfl : rest = w ++ m.rest := hm.1
  rw [Operator.lexemeAt_of_opening hw hk hb] at h ⊢
  obtain ⟨u, m', hu, hstop, halone⟩ :=
    Lexeme.comment_alone (Operator.kind_of_mem_commentOpenings hopening) (honLine hb) h
  refine ⟨w ++ u, m', (Cursor.passes_through p w m.rest).trans hu, hstop, fun p' hp' => ?_⟩
  obtain ⟨hverdict, hvalue, hcursor, hend⟩ := halone (p'.through w) (honLine hp')
  rw [Operator.lexemeAt_of_opening hblank hk hp' u]
  exact ⟨hverdict, hvalue, (Cursor.passes_through p' w u).trans hcursor, hend⟩

/-- A lexeme has all of its own text. -/
theorem lexemeAt_alone (hb : behind.place.OnLine)
    (h : (lexemeAt v lineIsBlank c behind).verdict = .ok k) :
    Lexeme.ReadAlone (lexemeAt v true c) behind k (lexemeAt v lineIsBlank c behind) := by
  cases hk : k.isTrivia with
  | true => exact lexemeAt_alone_of_isTrivia hb hk h
  | false =>
    obtain ⟨-, w, m, hw, hm, hagain⟩ := lexemeAt_again hb h hk
    refine ⟨w, m, hw, hm, fun p hp => ?_⟩
    have htakes := hagain true p [] hp (.inl rfl) fun _ => rfl
    rwa [List.append_nil] at htakes

/-- Words have values, as literals do. -/
theorem isSome_value_lexemeAt (hb : behind.place.OnLine)
    (h : (lexemeAt v lineIsBlank c behind).verdict = .ok k)
    (hk : k.isWord ∨ TokenStream.hasValue k) : (lexemeAt v lineIsBlank c behind).value.isSome := by
  rcases hk with hk | hk
  · revert h
    refine lexemeAt_cases (P := fun l => l.verdict = .ok k → l.value.isSome) (fun _ h => ?_)
      (fun _ h => ?_) (fun _ h => ?_) fun h => ?_
    · rw [Lexeme.name] at h ⊢
      split
      · rfl
      · next ho => simp [ho] at h
    · rcases (Lexeme.ensures_number v c behind).ok h with rfl | rfl <;>
        exact absurd hk Bool.false_ne_true
    · rcases (Lexeme.ensures_quotation c behind).ok h with rfl | rfl <;>
        exact absurd hk Bool.false_ne_true
    · obtain ⟨rest, hmem⟩ :=
        (Lexeme.ensures_symbol (Operator.spellings v lineIsBlank) c behind).ok h
      have hall : ∀ p ∈ Operator.spellings v lineIsBlank, p.2.isWord = false := by
        cases v <;> cases lineIsBlank <;> decide
      exact absurd ((hall _ hmem).symm.trans hk) Bool.false_ne_true
  · have htrivia : k.isTrivia = false := by
      cases k <;> first | rfl | exact absurd hk Bool.false_ne_true
    exact (lexemeAt_again hb h htrivia).value hk

end Lexemes

/-! ## Readers -/

namespace LexemeReader

variable {r r' : LexemeReader} {k : Kind} {v : Version} {w : List Char} {c : Char}

/-- Alone, the text `w` is a lexeme of the kind `k`, which has all of it, and then the script
    ends. -/
structure IsLexeme (v : Version) (w : List Char) (k : Kind) : Prop where
  kind : (startingAt w 0 v).next.1 = .ok k
  start : (startingAt w 0 v).next.2.opening.offset = 0
  stop : (startingAt w 0 v).next.2.stop = byteLength w
  next : (startingAt w 0 v).next.2.next.1 = .ok .endOfInput

/-- A line end is a lexeme alone. -/
theorem isLexeme_lineEnd (hc : isLineEnd c) : IsLexeme v [c] .lineEnd := by
  have hskip : (startingAt [c] 0 v).cursor.skipGap = ⟨.atOffset 0, [c]⟩ := by
    rw [startingAt, Cursor.startingAt_zero, Cursor.skipGap, Cursor.skipGapFrom,
      if_neg (Place.not_completes_of_afterReturn rfl c), Cursor.not_gap_of_isLineEnd hc]
    rfl
  have hnext := next_of_gap hskip
  rw [if_pos hc] at hnext
  have hstop : ((Place.atOffset 0).past c).offset = byteLength [c] := Nat.zero_add c.utf8Size
  exact ⟨by rw [hnext], by rw [hnext]; rfl, by rw [hnext]; exact hstop,
    by rw [hnext, next_of_rest_nil rfl]⟩

/-- What is told to be a line end is one. -/
theorem lexeme_of_next_lineEnd (h : r.next = (.ok .lineEnd, r')) :
    ∃ c, isLineEnd c ∧ r'.lexeme = [c] := by
  rcases hgap : r.cursor.skipGap with ⟨place, _ | ⟨c, cs⟩⟩
  · rw [next_of_gap_nil (congrArg Cursor.rest hgap)] at h
    simp at h
  · have hr : r.next.2 = r' := congrArg Prod.snd h
    have hrest : r'.opening.rest = c :: cs := by
      rw [← hr, opening_next, hgap]
    have hpasses := passes_opening hr hrest
    rw [next_of_gap hgap] at h
    split at h
    · next hc =>
      obtain ⟨-, rfl⟩ := Prod.mk.inj h
      exact ⟨c, hc, lexeme_eq hpasses rfl⟩
    · next hc =>
      -- The only trivia among the other lexemes are comments.
      have hb := place.onLine_past (Bool.not_eq_true _ ▸ hc)
      obtain ⟨q, hq, hkind, -⟩ := begins_of_lexemeAt hb rfl
        (ok_of_mapError (Prod.mk.inj h).1)
      rcases Operator.kind_of_mem_commentOpenings hq with hk | hk <;> simp [hk] at hkind

/-- A text that is read as one lexeme is that lexeme alone. -/
theorem isLexeme_of_takes {value : Option (List Char)} (hc : Inked c)
    (h : (lexemeAt v true c ⟨(Place.atOffset 0).past c, w⟩).Takes
      ⟨(Place.atOffset 0).past c, w⟩ w k value) :
    IsLexeme v (c :: w) k ∧ (startingAt (c :: w) 0 v).next.2.value = value.getD [] := by
  have hcursor : (startingAt (c :: w) 0 v).cursor = ⟨.atOffset 0, c :: w⟩ :=
    Cursor.startingAt_zero _
  have hnext := next_of_inked (r := startingAt (c :: w) 0 v) hc (congrArg Cursor.rest hcursor)
    (by rw [hcursor]; rfl)
  rw [hcursor] at hnext
  have hrest : (lexemeAt v true c ⟨(Place.atOffset 0).past c, w⟩).cursor.rest = [] :=
    List.append_right_eq_self.1 h.cursor.1.symm
  have hoffset : (lexemeAt v true c ⟨(Place.atOffset 0).past c, w⟩).stop = byteLength (c :: w) := by
    rw [h.stop, h.cursor.offset_eq]
    exact congrArg (· + byteLength w) (Nat.zero_add c.utf8Size)
  refine ⟨{ kind := ?_, start := ?_, stop := ?_, next := ?_ }, ?_⟩
  · rw [hnext]
    exact congrArg (Except.mapError _) h.verdict
  · rw [hnext]
    rfl
  · rw [hnext]
    exact hoffset
  · rw [hnext, next_of_rest_nil hrest]
  · rw [hnext]
    exact congrArg (Option.getD · []) h.value

/-- Wherever a lexeme is read in a script, its text alone is a lexeme of the same kind, and of the
    same value if it is a word, a number or a quotation. -/
theorem lexeme_stands_alone (source : List Char) (offset : Nat) (v : Version) (calls : List Call)
    (h : ((startingAt source offset v).afterCalls calls).next.1 = .ok k) (hend : k ≠ .endOfInput) :
    let r := ((startingAt source offset v).afterCalls calls).next.2
    IsLexeme v r.lexeme k ∧ (k.isWord ∨ TokenStream.hasValue k →
      (startingAt r.lexeme 0 v).next.2.value = r.value) := by
  intro r
  have hversion : ((startingAt source offset v).afterCalls calls).version = v :=
    version_afterCalls _ calls
  have hn : ((startingAt source offset v).afterCalls calls).next = (.ok k, r) := Prod.ext h rfl
  by_cases hline : k = .lineEnd
  · subst hline
    obtain ⟨c, hc, hlexeme⟩ := lexeme_of_next_lineEnd hn
    rw [hlexeme]
    exact ⟨isLexeme_lineEnd hc, fun hk => absurd hk (by decide)⟩
  · obtain ⟨c, cs, hread⟩ := hasRead_of_next hn hend hline
    have hb := Place.onLine_past r.opening.place hread.inked.not_lineEnd
    rw [hversion] at hread
    obtain ⟨w, m, hw, hm, halone⟩ := lexemeAt_alone hb hread.verdict
    have hlexeme : r.lexeme = c :: w :=
      lexeme_eq (hread.passes.trans hw) (hm.trans hread.stop.symm)
    obtain ⟨hisLexeme, hvalue⟩ := isLexeme_of_takes hread.inked
      (halone _ (Place.onLine_past (.atOffset 0) hread.inked.not_lineEnd))
    rw [hlexeme]
    refine ⟨hisLexeme, fun hk => ?_⟩
    obtain ⟨value, hsome⟩ := Option.isSome_iff_exists.1 (isSome_value_lexemeAt hb hread.verdict hk)
    rw [hvalue, hsome, hread.value hsome]
    rfl

/-- The last hexadecimal digit of a number may be an invisible character away from the others, and a
    name may follow the number at once. -/
theorem lexeme_stands_alone_before_name :
    let r := ((startingAt "a=0x1\u00adFp1".toList 2 .legacy).afterCalls []).next.2
    ((startingAt "a=0x1\u00adFp1".toList 2 .legacy).afterCalls []).next.1 = .ok .number ∧
      Kind.number ≠ .endOfInput ∧ IsLexeme .legacy r.lexeme .number ∧
      (startingAt r.lexeme 0 .legacy).next.2.value = r.value :=
  have h : ((startingAt "a=0x1\u00adFp1".toList 2 .legacy).afterCalls []).next.1 = .ok .number := by
    decide +kernel
  have hend : Kind.number ≠ .endOfInput := by decide
  have hlexeme := lexeme_stands_alone _ _ _ _ h hend
  ⟨h, hend, hlexeme.1, hlexeme.2 (.inr rfl)⟩

end LexemeReader

end ScriptExcerpt
