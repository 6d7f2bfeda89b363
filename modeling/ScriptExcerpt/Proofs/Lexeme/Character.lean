import ScriptExcerpt.Proofs.Lexeme.CommentOpening
import ScriptExcerpt.Proofs.Lexeme.Name
import ScriptExcerpt.Proofs.Lexeme.RegExp

/-!
# Characters that problems name

Three problems with lexemes name a character of the script: a character that begins no lexeme, a
letter that is no flag, and a character behind a backslash. The first two lie at that character. The
last one is read before it is blamed, so that the problem lies behind it (`Text.StrayEscape`),
unless the backslash begins the lexeme: then the backslash is blamed, and lies there.

* `Name.fault_of_run`: what is wrong with a name;
* `faulty_lexemeAt`: what is wrong with a lexeme;
* `LexemeReader.breaksOff_or_points_next`, `LexemeReader.unterminated_or_flag_of_readRegExp`:
  problems that readers meet.
-/

namespace ScriptExcerpt

open Text

/-! ## Causes -/

namespace Cause

/-- The character that the cause names. -/
def character? : Cause → Option Char
  | illegalCharacter c | invalidRegExpFlag c => some c
  | _ => none

/-- Only a regular expression can have the cause. -/
def isOfRegExp : Cause → Bool
  | unterminatedLiteral literal => literal = "regular expression literal"
  | invalidRegExpFlag _ => true
  | _ => false

/-- A lexeme other than a regular expression breaks off. -/
def breaksOff : Cause → Bool
  | unterminatedLiteral literal => literal ≠ "regular expression literal"
  | numberFormat _ | invalidUnicodeEscape => true
  | _ => false

theorem character?_of_breaksOff {cause : Cause} (h : cause.breaksOff) :
    cause.character? = none := by
  cases cause <;> first | rfl | cases h

theorem not_isOfRegExp_of_breaksOff {cause : Cause} (h : cause.breaksOff) :
    cause.isOfRegExp = false := by
  cases cause <;> simp_all [breaksOff, isOfRegExp]

end Cause

/-! ## Texts -/

namespace Text

variable {w u gap rest : List Char} {c d : Char}

/-- As far as the text can be seen, its last character is one of a name. -/
def EndsInName (w : List Char) : Prop :=
  ∃ c ∈ (visible w).getLast?, isNamePart c

theorem endsInName_concat (w : List Char) (hc : isNamePart c) : EndsInName (w ++ [c]) := by
  refine ⟨c, ?_, hc⟩
  rw [visible_append, visible_cons (inked_of_isNamePart hc).not_invisible]
  exact List.getLast?_concat ..

theorem EndsInName.append_left (h : EndsInName w) (u : List Char) : EndsInName (u ++ w) := by
  obtain ⟨c, hc, hpart⟩ := h
  refine ⟨c, ?_, hpart⟩
  rw [visible_append, List.getLast?_append, Option.mem_def.1 hc]
  rfl

theorem EndsInName.append_unseen (h : EndsInName w) (hgap : ∀ x ∈ gap, isInvisible x) :
    EndsInName (w ++ gap) := by
  rwa [EndsInName, visible_append, visible_eq_nil_iff.2 hgap, List.append_nil]

/-- The text ends behind a backslash that begins no escape in a name, although it stands behind a
    part of one: the character behind it is no `u`, and named by `c`, or there is none, and the
    backslash is named. Behind the text stands `rest`. -/
inductive StrayEscape : List Char → Char → List Char → Prop
  | before {w gap rest : List Char} {d : Char} : EndsInName w → (∀ x ∈ gap, isInvisible x) →
    isInvisible d = false → d ≠ 'u' →
      StrayEscape (w ++ '\\' :: (gap ++ [d])) (if isLineEnd d then '\n' else d) rest
  | atEnd {w gap : List Char} : EndsInName w → (∀ x ∈ gap, isInvisible x) →
    StrayEscape (w ++ '\\' :: gap) '\\' []

theorem StrayEscape.append_left (h : StrayEscape w c rest) (u : List Char) :
    StrayEscape (u ++ w) c rest := by
  cases h with
  | before hw hgap hd hu =>
    rw [← List.append_assoc]
    exact .before (hw.append_left u) hgap hd hu
  | atEnd hw hgap =>
    rw [← List.append_assoc]
    exact .atEnd (hw.append_left u) hgap

end Text

/-! ## Names -/

namespace Name

variable {s t : State} {w gap : List Char} {c d : Char} {behind : Cursor} {f : Fault}

/-- What was read of a name, if that is the text `w`. -/
def State.Behind (w : List Char) : State → Prop
  | .opening => w = ['\\']
  | .inside _ _ => EndsInName w
  | .backslash _ => ∃ u, w = u ++ ['\\'] ∧ EndsInName u
  | .digits _ _ _ => True

theorem behind_start (hc : c = '\\' || isNameStart c) : (start c).Behind [c] := by
  rw [start]
  split
  · next hback => rw [hback]; rfl
  · next hback =>
    have hstart : isNameStart c := by simpa [hback] using hc
    exact endsInName_concat [] (isNamePart_of_isNameStart hstart)

theorem behind_of_take (h : s.Behind w) (hgap : ∀ x ∈ gap, isInvisible x)
    (hs : recognizer.step s d = .take t) : t.Behind (w ++ gap ++ [d]) := by
  cases s with
  | opening | backslash word =>
    simp only [recognizer, step] at hs
    split at hs
    · obtain rfl := Move.take.inj hs
      trivial
    · simp at hs
  | inside word escaped =>
    simp only [recognizer, step] at hs
    split at hs
    · next hback =>
      obtain rfl := Move.take.inj hs
      exact ⟨w ++ gap, by rw [hback], EndsInName.append_unseen h hgap⟩
    · split at hs
      · next hpart =>
        obtain rfl := Move.take.inj hs
        exact endsInName_concat _ hpart
      · simp at hs
  | digits word left value =>
    simp only [recognizer, step] at hs
    split at hs
    · simp at hs
    · next n hn =>
      have hpart : isNamePart d := by
        have hdigit : isDigitOf 16 d := Option.isSome_iff_exists.2 ⟨n, hn⟩
        simp [isNamePart, isAlphanum_of_isDigitOf hdigit]
      split at hs
      · obtain rfl := Move.take.inj hs
        trivial
      · split at hs
        · obtain rfl := Move.take.inj hs
          exact endsInName_concat _ hpart
        · simp at hs

/-- What the end of the script makes of a name that was read, and of the gap behind it. -/
theorem fault_of_atEnd (h : s.Behind w) (hgap : ∀ x ∈ gap, isInvisible x)
    (hs : recognizer.atEnd s = .fail f) :
    f = .unicodeEscape ∨ f = strayBackslash ∧ w = ['\\'] ∨
      f = ⟨.illegalCharacter '\\', .back 0⟩ ∧ StrayEscape (w ++ gap) '\\' [] := by
  cases s with
  | opening => exact .inr (.inl ⟨(Ending.fail.inj hs).symm, h⟩)
  | inside word escaped => simp [recognizer, atEnd] at hs
  | backslash word =>
    obtain ⟨u, rfl, hu⟩ := h
    rw [List.append_assoc]
    exact .inr (.inr ⟨(Ending.fail.inj hs).symm, .atEnd hu hgap⟩)
  | digits word left value => exact .inl (Ending.fail.inj hs).symm

/-- Only the backslash that opens a name is blamed and leaves the character behind it unread. -/
theorem fault_of_refuse (h : s.Behind w) (hs : recognizer.step s d = .refuse f) :
    f = strayBackslash ∧ w = ['\\'] := by
  cases s with
  | opening =>
    simp only [recognizer, step] at hs
    split at hs
    · simp at hs
    · exact ⟨(Move.refuse.inj hs).symm, h⟩
  | inside word escaped | backslash word | digits word left value =>
    simp only [recognizer, step] at hs
    grind

/-- A character that is wrong is no digit of an escape, or stands behind a backslash, and is
    blamed. -/
theorem fault_of_fail (h : s.Behind w) (hgap : ∀ x ∈ gap, isInvisible x)
    (hd : isInvisible d = false) (hs : recognizer.step s d = .fail f) :
    f = .unicodeEscape ∨ ∃ e, f = ⟨.illegalCharacter e, .back 0⟩ ∧
      ∀ rest, StrayEscape (w ++ gap ++ [d]) e rest := by
  cases s with
  | backslash word =>
    simp only [recognizer, step] at hs
    split at hs
    · simp at hs
    · next hne =>
      obtain ⟨u, rfl, hu⟩ := h
      rw [List.append_assoc, List.append_assoc]
      exact .inr ⟨_, (Move.fail.inj hs).symm, fun rest => .before hu hgap hd hne⟩
  | opening | inside word escaped | digits word left value =>
    simp only [recognizer, step] at hs
    grind

/-- A run that reads a name behind its first character `c`. -/
structure Reads (c : Char) (behind : Cursor) (s : State) (mark here : Cursor) : Prop
    extends Recognizer.OnItsLine behind (fun _ => True) s mark here where
  read : ∃ u, behind.Passes u mark ∧ s.Behind (c :: u)

theorem invariant_reads (c : Char) (behind : Cursor) : recognizer.Invariant (Reads c behind) where
  complete h hp := ⟨(oneLine.invariant behind).complete h.toOnItsLine hp, h.read⟩
  skip h hp hc := ⟨(oneLine.invariant behind).skip h.toOnItsLine hp hc, h.read⟩
  take {s t mark p d cs} h hp hs := by
    obtain ⟨u, hu, hbehind⟩ := h.read
    obtain ⟨gap, hgap, hinv⟩ := h.gap trivial
    have hpast := (hu.trans hgap).trans (Cursor.passes_past hp cs)
    exact ⟨(oneLine.invariant behind).take h.toOnItsLine hp hs, u ++ gap ++ [d], hpast,
      behind_of_take hbehind hinv hs⟩
  probe _ _ hs := absurd trivial (oneLine.probe hs)

/-- The three faults of names. A backslash that opens a name is blamed itself; one inside a name
    is not, unless the script ends. -/
theorem fault_of_run (hc : c = '\\' || isNameStart c) (hb : behind.place.OnLine)
    (h : (recognizer.runFrom (start c) behind).verdict = .error f) :
    f = .unicodeEscape ∨ f = strayBackslash ∧ c = '\\' ∨
      ∃ u d, f = ⟨.illegalCharacter d, .back 0⟩ ∧
        behind.Passes u (recognizer.runFrom (start c) behind).cursor ∧
          StrayEscape (c :: u) d (recognizer.runFrom (start c) behind).cursor.rest := by
  obtain ⟨s, mark, here, hreads, hend, hshown⟩ := (invariant_reads c behind).halts_shown
    (s := start c) ⟨.refl hb, [], .refl behind, behind_start hc⟩
  obtain ⟨u, hu, hbehind⟩ := hreads.read
  obtain ⟨gap, hgap, hinv⟩ := hreads.gap trivial
  rw [Recognizer.runFrom] at h ⊢
  generalize recognizer.run (start c) behind behind.place behind.rest = o at h hend ⊢
  cases hend with
  | breakOff he =>
    obtain rfl := Except.error.inj h
    rcases fault_of_atEnd hbehind hinv he with hf | ⟨hf, hw⟩ | ⟨hf, hstray⟩
    · exact .inl hf
    · exact .inr (.inl ⟨hf, (List.cons.inj hw).1⟩)
    · exact .inr (.inr ⟨u ++ gap, _, hf, hu.trans hgap, hstray⟩)
  | @fail p d cs e hp he =>
    obtain rfl := Except.error.inj h
    have hd : isInvisible d = false := by simpa [recognizer] using hshown d rfl
    rcases fault_of_fail hbehind hinv hd he with hf | ⟨e, hf, hstray⟩
    · exact .inl hf
    · exact .inr (.inr ⟨u ++ gap ++ [d], e, hf,
        (hu.trans hgap).trans (Cursor.passes_past hp cs), hstray cs⟩)
  | refuse hp he =>
    obtain rfl := Except.error.inj h
    obtain ⟨hf, hw⟩ := fault_of_refuse hbehind he
    exact .inr (.inl ⟨hf, (List.cons.inj hw).1⟩)
  | accept | back | finish | stop => simp at h

end Name

/-! ## Other lexemes -/

/-- Whatever the state, every fault is that the lexeme breaks off. -/
abbrev Recognizer.BreaksOff {σ ρ : Type} (M : Recognizer σ ρ Fault) : Prop :=
  M.Ensures (fun _ => True) (fun _ => True) fun f => f.cause.breaksOff

theorem Number.breaksOff (v : Version) : (Number.recognizer v).BreaksOff where
  step s c _ := by
    cases s <;> simp only [recognizer, step, stepBehindWhole] <;>
      grind [Move.Ensures, Cause.breaksOff, missingDigits, missingExponent, separatorAtLineEnd,
        Fault.number]
  atEnd s _ := by cases s <;> trivial

/-- A quotation is no regular expression. -/
theorem Quotation.breaksOff_unterminated (quote : Char) :
    (Fault.unterminated (literal quote)).cause.breaksOff := by
  rw [literal]
  split <;> decide

theorem Quotation.breaksOff (quote : Char) : (Quotation.recognizer quote).BreaksOff where
  step s c _ := by
    have hquote := breaksOff_unterminated quote
    cases s <;> simp only [recognizer, step, stepText] <;>
      grind [Move.Ensures, Cause.breaksOff, Fault.unicodeEscape]
  atEnd s _ := by
    cases s with
    | unicode decoded left value => exact rfl
    | _ => exact breaksOff_unterminated quote

theorem Comment.breaksOff_block : Comment.blockRecognizer.BreaksOff where
  step s c _ := by simp only [blockRecognizer]; split <;> trivial
  atEnd _ _ := by
    change (Fault.unterminated "block comment").cause.breaksOff
    decide

/-- What is wrong with the lexeme that begins with `c` is that it breaks off, or `c`, or the
    character of a stray escape behind which its reading goes on at `cur`. -/
inductive Lexeme.Faulty (c : Char) (behind cur : Cursor) (f : Fault) : Prop
  | broken : f.cause.breaksOff → Faulty c behind cur f
  | first : f = ⟨.illegalCharacter c, .opening⟩ → Faulty c behind cur f
  | stray {u : List Char} {d : Char} : f = ⟨.illegalCharacter d, .back 0⟩ →
    behind.Passes u cur → StrayEscape (c :: u) d cur.rest → Faulty c behind cur f

namespace Lexeme

variable {v : Version} {c : Char} {behind : Cursor} {f : Fault} {table : List (List Char × Kind)}

theorem faulty_name (hc : c = '\\' || isNameStart c) (hb : behind.place.OnLine)
    (h : (name v c behind).verdict = .error f) : Faulty c behind (name v c behind).cursor f := by
  have hrun := fault_name h
  have hcursor : (name v c behind).cursor =
      (Name.recognizer.runFrom (Name.start c) behind).cursor := by
    rw [name, hrun]
  rcases Name.fault_of_run hc hb hrun with rfl | ⟨rfl, rfl⟩ | ⟨u, d, rfl, hu, hstray⟩
  · exact .broken rfl
  · exact .first rfl
  · rw [← hcursor] at hu hstray
    exact .stray rfl hu hstray

theorem faulty_number (h : (number v c behind).verdict = .error f) :
    Faulty c behind (number v c behind).cursor f :=
  .broken (((Number.breaksOff v).runFrom trivial behind).error (fault_number h))

theorem faulty_quotation (h : (quotation c behind).verdict = .error f) :
    Faulty c behind (quotation c behind).cursor f :=
  .broken (((Quotation.breaksOff c).runFrom trivial behind).error (fault_quotation h))

/-- A symbol that is none is named. Anything else that is wrong is wrong with the block comment that
    a symbol opens. -/
theorem faulty_symbol (h : (symbol table c behind).verdict = .error f) :
    Faulty c behind (symbol table c behind).cursor f := by
  rw [symbol] at h
  split at h
  · exact .first (Except.error.inj h).symm
  · next kind _ =>
    split at h
    · obtain ⟨k, ho⟩ := Operator.exists_verdict table ⟨[c], kind⟩ behind
      dsimp only at h
      split at h
      · simp [verdict_lineComment] at h
      · exact .broken ((Comment.breaksOff_block.runFrom trivial _).error (fault_blockComment h))
      · simp at h
      · next hf => simp [ho] at hf
    · simp at h

end Lexeme

/-- What can be wrong with a lexeme. -/
theorem faulty_lexemeAt {v : Version} {lineIsBlank : Bool} {c : Char} {behind : Cursor} {f : Fault}
    (hb : behind.place.OnLine) (h : (lexemeAt v lineIsBlank c behind).verdict = .error f) :
    Lexeme.Faulty c behind (lexemeAt v lineIsBlank c behind).cursor f := by
  revert h
  refine lexemeAt_cases (P := fun l => l.verdict = .error f → Lexeme.Faulty c behind l.cursor f)
    (fun hc => ?_) (fun _ => ?_) (fun _ => ?_) ?_
  · exact Lexeme.faulty_name hc hb
  · exact Lexeme.faulty_number
  · exact Lexeme.faulty_quotation
  · exact Lexeme.faulty_symbol

/-! ## Readers -/

namespace LexemeReader

variable {r r' : LexemeReader} {p : Problem}

/-- The cause names a character that stands at the offset, or the character of a stray escape that
    ends there. -/
inductive Points (r : LexemeReader) : Cause → Nat → Prop
  | here {here : Cursor} {cause : Cause} {c : Char} {cs : List Char} :
    cause.character? = some c → r.opening.Leads here → here.rest = c :: cs →
      Points r cause here.offset
  | behind {u : List Char} {c : Char} : r.opening.Passes u r.cursor →
    StrayEscape u c r.cursor.rest → Points r (.illegalCharacter c) r.cursor.offset

/-- What is wrong with a lexeme: it breaks off, or the problem names a character. -/
theorem breaksOff_or_points_next (h : r.next = (.error p, r')) :
    p.cause.breaksOff ∨ ∃ c, p.cause = .illegalCharacter c ∧ r'.Points p.cause p.position := by
  obtain ⟨c, cs, _, f, hrest, hc, rfl, hl, hcursor, rfl⟩ := next_error h
  have hfaulty := faulty_lexemeAt (Place.onLine_past r'.opening.place hc) hl
  rw [← hcursor] at hfaulty
  cases hfaulty with
  | broken hbroken => exact .inl hbroken
  | first hf =>
    subst hf
    exact .inr ⟨c, rfl, .here rfl (.refl _) hrest⟩
  | @stray u d hf hu hstray =>
    subst hf
    have hopening := passes_opening (congrArg Prod.snd h) hrest
    exact .inr ⟨d, rfl, .behind (hopening.trans hu) hstray⟩

/-- What is wrong with a regular expression: it has no end, or a letter is no flag. The problem lies
    before that letter; visibly the literal was read up to there, and ends with the flags. -/
theorem unterminated_or_flag_of_readRegExp {equals : Bool}
    (h : r.readRegExp equals = (.error p, r')) (hline : r.cursor.place.OnLine) :
    p.cause = .unterminatedLiteral "regular expression literal" ∧ r'.flags = [] ∨
      ∃ w place d ds text, r.cursor.Passes w ⟨place, d :: ds⟩ ∧ p.cause = .invalidRegExpFlag d ∧
        p.position = place.offset ∧
          (if equals then ['='] else []) ++ visible w = visible (text ++ '/' :: r'.flags) := by
  obtain ⟨f, ho, hcursor, rfl⟩ := readRegExp_error h
  rcases RegExp.fault_of_run hline ho with he | ⟨w, place, d, ds, text, hw, hend, hf, hwritten⟩
  · obtain ⟨rfl, hflags⟩ := Prod.mk.inj he
    exact .inl ⟨rfl, hflags⟩
  · obtain rfl : f = _ := hf
    refine .inr ⟨w, place, d, ds, text, hw, rfl, ?_, ?_⟩
    · rw [hcursor, hend]
      exact Nat.add_sub_cancel ..
    · rw [← hwritten]
      cases equals <;> rfl

/-- A letter that is no flag stands where the problem with it lies. -/
theorem points_readRegExp {equals : Bool} (h : r.readRegExp equals = (.error p, r'))
    (hr : r.opening.Leads r.cursor) (hline : r.cursor.place.OnLine)
    (hp : p.cause.character? ≠ none) : r'.Points p.cause p.position := by
  have hopen : r'.opening = r.opening := by rw [← r.opening_readRegExp equals, h]
  rcases unterminated_or_flag_of_readRegExp h hline with
    ⟨hcause, -⟩ | ⟨w, place, d, ds, -, hw, hcause, hposition, -⟩
  · exact absurd (congrArg Cause.character? hcause) hp
  · rw [hcause, hposition]
    change r'.Points _ (Cursor.offset ⟨place, d :: ds⟩)
    exact .here rfl (hopen ▸ hr.trans hw.leads) rfl

end LexemeReader

end ScriptExcerpt
