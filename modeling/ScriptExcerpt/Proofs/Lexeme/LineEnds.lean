import ScriptExcerpt.Proofs.Lexeme.Alike
import ScriptExcerpt.Proofs.Lexeme.Extent

/-!
# One form of line end

A carriage return, with or without the newline that completes it, is read as a
newline is (`Recognizer.BlindToReturns`). So a text is read like the one that has
a newline instead (`Text.unifyLineEnds`).

* `Text.unifyLineEnds_eq`: the text, from one character to the next.
* `Cursor.Unified`: cursors in the two texts.
* `Cursor.Unified.skipGap`: gaps in them.
* `respected_onLine`: what the recognizers make of lexemes in them.
-/

namespace ScriptExcerpt

open Text

/-! ## Texts -/

namespace Text

/-- The text with a newline for each carriage return and newline. -/
def joinReturns : List Char → List Char
  | '\r' :: '\n' :: cs => '\n' :: joinReturns cs
  | c :: cs => c :: joinReturns cs
  | [] => []

/-- A newline for a carriage return. -/
def unifyReturn (c : Char) : Char :=
  if c = '\r' then '\n' else c

/-- The text with a newline for each carriage return and newline, and then for each other
    carriage return. -/
def unifyLineEnds (cs : List Char) : List Char :=
  (joinReturns cs).map unifyReturn

/-- The same, if the text may stand behind a carriage return, which a newline at its start
    completes. -/
def unifyBehind (afterReturn : Bool) : List Char → List Char
  | [] => []
  | c :: cs =>
    if afterReturn && c == '\n' then unifyBehind false cs
    else unifyReturn c :: unifyBehind (c == '\r') cs

theorem unifyLineEnds_eq (cs : List Char) : unifyLineEnds cs = unifyBehind false cs := by
  rw [unifyLineEnds]
  fun_induction joinReturns cs with
  | case1 cs ih =>
    rw [List.map_cons, ih]
    rfl
  | case2 c cs hpair ih =>
    rw [List.map_cons, ih, unifyBehind]
    -- A carriage return here has no newline behind it.
    have hrest : unifyBehind (c == '\r') cs = unifyBehind false cs := by
      by_cases hc : c = '\r'
      · subst hc
        cases cs with
        | nil => rfl
        | cons d ds =>
          have hd : d ≠ '\n' := by
            rintro rfl
            exact hpair ds rfl rfl
          simp [unifyBehind, hd]
      · rw [beq_eq_false_iff_ne.2 hc]
    rw [hrest, Bool.false_and]
    rfl
  | case3 => rfl

theorem unifyReturn_of_not_isLineEnd {c : Char} (h : isLineEnd c = false) : unifyReturn c = c :=
  if_neg (ne_of_beq_false (ne_return_of_not_isLineEnd h))

theorem isLineEnd_unifyReturn (c : Char) : isLineEnd (unifyReturn c) = isLineEnd c := by
  rw [unifyReturn]
  split
  · next h => rw [h]; rfl
  · rfl

theorem unifyReturn_ne_return (c : Char) : (unifyReturn c == '\r') = false := by
  rw [unifyReturn]
  split
  · rfl
  · next h => exact beq_eq_false_iff_ne.2 h

theorem isBlank_unifyReturn (c : Char) : isBlank (unifyReturn c) = isBlank c := by
  rw [unifyReturn]
  split
  · next h => rw [h]; rfl
  · rfl

theorem isInvisible_unifyReturn (c : Char) : isInvisible (unifyReturn c) = isInvisible c := by
  rw [unifyReturn]
  split
  · next h => rw [h]; rfl
  · rfl

end Text

/-! ## Cursors -/

namespace Cursor

/-- The second cursor stands at the same place as the first one, in the text with one form
    of line end. -/
structure Unified (a b : Cursor) : Prop where
  rest : b.rest = unifyBehind a.place.afterReturn a.rest
  line : b.place.line = a.place.line
  owed : b.place.owed = a.place.owed
  afterReturn : b.place.afterReturn = false

namespace Unified

variable {a b : Cursor} {p q : Place} {c : Char} {cs rest : List Char}

theorem look (h : Unified a b) : Unified a.look b.look where
  rest := h.rest
  line := by
    simp only [Cursor.look, Place.look, h.line, h.owed]
  owed := rfl
  afterReturn := h.afterReturn

/-- Nothing completes a line end in the second text. -/
theorem not_completes (h : Unified a b) (d : Char) : ¬ b.place.completes d :=
  Place.not_completes_of_afterReturn h.afterReturn d

theorem complete (h : Unified ⟨p, c :: cs⟩ b) (hc : p.completes c) :
    Unified ⟨p.complete, cs⟩ b where
  rest := h.rest.trans (if_pos hc)
  line := h.line
  owed := h.owed
  afterReturn := h.afterReturn

/-- A character that completes nothing stands in both texts, but for its form. -/
theorem rest_cons (h : Unified ⟨p, c :: cs⟩ ⟨q, rest⟩) (hc : ¬ p.completes c) :
    rest = unifyReturn c :: unifyBehind (c == '\r') cs :=
  h.rest.trans (if_neg hc)

theorem past (h : Unified ⟨p, c :: cs⟩ ⟨q, rest⟩) :
    Unified ⟨p.past c, cs⟩ ⟨q.past (unifyReturn c), unifyBehind (c == '\r') cs⟩ where
  rest := rfl
  line := h.look.line
  owed := isLineEnd_unifyReturn c
  afterReturn := unifyReturn_ne_return c

/-- Gaps are passed alike. -/
theorem skipGapFrom (h : Unified ⟨p, cs⟩ b) :
    Unified (Cursor.skipGapFrom p cs) (Cursor.skipGapFrom b.place b.rest) := by
  induction cs generalizing p b with
  | nil =>
    obtain ⟨q, rest⟩ := b
    obtain rfl : rest = [] := h.rest
    exact h
  | cons c cs ih =>
    rw [Cursor.skipGapFrom]
    split
    · next hc => exact ih (h.complete hc)
    · next hc =>
      obtain ⟨q, rest⟩ := b
      obtain rfl := h.rest_cons hc
      rw [Cursor.skipGapFrom, if_neg (h.not_completes _), isBlank_unifyReturn,
        isInvisible_unifyReturn]
      split
      · exact ih h.past
      · exact h.look

theorem skipGap (h : Unified a b) : Unified a.skipGap b.skipGap :=
  skipGapFrom h

end Unified

end Cursor

/-! ## Recognizers -/

section Recognizers

variable {σ ρ ε : Type}

/-- A carriage return is read as a newline is. -/
def Recognizer.BlindToReturns (M : Recognizer σ ρ ε) : Prop :=
  ∀ s, M.step s '\r' = M.step s '\n'

/-- Related cursors in the middle of a line. -/
def Cursor.UnifiedOnLine (a b : Cursor) : Prop :=
  a.Unified b ∧ a.place.OnLine

theorem Recognizer.BlindToReturns.step_unifyReturn {M : Recognizer σ ρ ε} (h : M.BlindToReturns)
    (s : σ) (c : Char) : M.step s (unifyReturn c) = M.step s c := by
  rw [unifyReturn]
  split
  · next hc => rw [hc, h s]
  · rfl

/-- A recognizer that is blind to returns goes along with the two texts. -/
theorem Recognizer.BlindToReturns.isSimulation {M : Recognizer σ ρ ε} (h : M.BlindToReturns) :
    M.IsSimulation Cursor.Unified fun _ _ => True where
  nil_nil := trivial
  look := Cursor.Unified.look
  nil hab := hab.rest
  cons := by
    intro p c cs b hab
    by_cases hc : p.completes c
    · exact .complete hc (hab.complete hc) fun _ _ _ => trivial
    · obtain ⟨q, rest⟩ := b
      obtain rfl := hab.rest_cons hc
      exact .both hc (hab.not_completes _) (isInvisible_unifyReturn c)
        (fun s => h.step_unifyReturn s c) hab.past fun _ _ _ => trivial

/-- If the lexeme also keeps to its line, it has the same text in both. -/
theorem Recognizer.BlindToReturns.isSimulation_onLine {M : Recognizer σ ρ ε}
    (h : M.BlindToReturns) {settled : σ → Prop} (hM : M.OneLine settled) :
    M.IsSimulation Cursor.UnifiedOnLine Eq where
  nil_nil := rfl
  look hab := ⟨hab.1.look, rfl, hab.2.afterReturn⟩
  nil hab := hab.1.rest
  cons := by
    intro p c cs b hab
    have hc := hab.2.not_completes c
    obtain ⟨q, rest⟩ := b
    obtain rfl := hab.1.rest_cons hc
    have hstep (s : σ) := h.step_unifyReturn s c
    cases hline : isLineEnd c with
    | true =>
      have hvisible : isInvisible c = false := by
        rw [← Bool.not_eq_true]
        intro hi
        simp [not_isLineEnd_of_isInvisible hi] at hline
      exact .ends hc (hab.1.not_completes _) hvisible
        ((isInvisible_unifyReturn c).trans hvisible) hstep fun s => hM.ends hline
    | false =>
      have hpast := hab.1.past
      rw [unifyReturn_of_not_isLineEnd hline] at hstep hpast ⊢
      refine .both hc (hab.1.not_completes _) rfl hstep ⟨hpast, p.onLine_past hline⟩ ?_
      rintro u _ rfl
      rfl

/-- If it ends with a character of its own, it ends in the middle of a line. -/
theorem Recognizer.BlindToReturns.respects_of_selfClosing {M : Recognizer σ ρ ε}
    (h : M.BlindToReturns) (hM : M.SelfClosing) :
    M.Respects Cursor.UnifiedOnLine fun _ _ => True := by
  intro s a b hab
  have ho := h.isSimulation.respects s a b hab.1
  refine hM.alike ho.verdict fun hr => ?_
  obtain ⟨hcursor, hpassed⟩ := ho.cursor hr
  exact ⟨⟨hcursor, (hM.extent hr).onLine⟩, hpassed⟩

theorem Name.blindToReturns : Name.recognizer.BlindToReturns := by
  intro s
  cases s with
  | inside word escaped =>
    have hreturn : isNamePart '\r' = false := not_isNamePart_of_isLineEnd rfl
    have hnewline : isNamePart '\n' = false := not_isNamePart_of_isLineEnd rfl
    simp [recognizer, step, hreturn, hnewline]
  | _ => rfl

theorem Number.blindToReturns (v : Version) : (Number.recognizer v).BlindToReturns := by
  intro s
  have hreturn (base : Nat) : isDigitOf base '\r' = false := not_isDigitOf_of_isLineEnd rfl base
  have hnewline (base : Nat) : isDigitOf base '\n' = false := not_isDigitOf_of_isLineEnd rfl base
  have hwhole (base : Nat) (value : List Char) :
      stepBehindWhole v base value '\r' = stepBehindWhole v base value '\n' := by
    simp [stepBehindWhole, isExponentMark]
  cases s with
  | digits base part value =>
    cases part <;> simp [recognizer, step, hreturn, hnewline, hwhole, isExponentMark]
  | _ =>
    simp [recognizer, step, hreturn, hnewline, hwhole, isExponentMark, baseOf?, isLineEnd]

theorem Quotation.blindToReturns {quote : Char} (h : isQuote quote) :
    (Quotation.recognizer quote).BlindToReturns := by
  intro s
  have htext (decoded : CodeUnit.Decoder) :
      stepText quote decoded '\r' = stepText quote decoded '\n' := by
    simp only [isQuote, Bool.or_eq_true, beq_iff_eq] at h
    rcases h with (rfl | rfl) | rfl <;> rfl
  cases s with
  | octal decoded count value => exact htext _
  | unicode | backslash => rfl
  | _ => exact htext _

theorem Comment.blindToReturns_line : Comment.lineRecognizer.BlindToReturns := fun _ => rfl

theorem Comment.blindToReturns_block : Comment.blockRecognizer.BlindToReturns := by
  intro star
  simp [blockRecognizer]

theorem RegExp.blindToReturns : RegExp.recognizer.BlindToReturns := by
  intro s
  cases s with
  | flags text flags =>
    have hreturn : isAlphabetic '\r' = false := by decide +kernel
    have hnewline : isAlphabetic '\n' = false := by decide +kernel
    have hknown : knownFlags.contains '\r' = knownFlags.contains '\n' := by decide
    simp only [recognizer, step, hreturn, hnewline, hknown]
    rfl
  | _ => rfl

theorem Operator.not_mem_spelling_of_isLineEnd {v : Version} {lineIsBlank : Bool} {c : Char}
    (hc : isLineEnd c) {p : List Char × Kind} (hp : p ∈ spellings v lineIsBlank) : c ∉ p.1 := by
  intro hmem
  simp [not_isLineEnd_of_mem_spelling hp hmem] at hc

theorem Operator.blindToReturns (v : Version) (lineIsBlank : Bool) :
    (Operator.recognizer (spellings v lineIsBlank)).BlindToReturns := by
  intro s
  have hreturn : step (spellings v lineIsBlank) s '\r' = .stop s.kind :=
    step_of_not_mem (fun p hp => not_mem_spelling_of_isLineEnd rfl hp) s
  have hnewline : step (spellings v lineIsBlank) s '\n' = .stop s.kind :=
    step_of_not_mem (fun p hp => not_mem_spelling_of_isLineEnd rfl hp) s
  exact hreturn.trans hnewline.symm

/-- What the recognizers make of lexemes in a text with one form of line end. -/
theorem respected_onLine (v : Version) : Lexeme.Respected Cursor.UnifiedOnLine Eq v where
  nil_nil := rfl
  name := (Name.blindToReturns.isSimulation_onLine Name.oneLine).respects
  operator lineIsBlank :=
    ((Operator.blindToReturns v lineIsBlank).isSimulation_onLine
      (Operator.oneLine fun _ hp _ hc => Operator.not_isLineEnd_of_mem_spelling hp hc)).respects
  number := ((Number.blindToReturns v).isSimulation_onLine (Number.oneLine v)).respects.anyhow
  lineComment :=
    (Comment.blindToReturns_line.isSimulation_onLine Comment.oneLine_line).respects.anyhow
  blockComment := Comment.blindToReturns_block.respects_of_selfClosing Comment.selfClosing_block
  regExp := (RegExp.blindToReturns.isSimulation_onLine RegExp.oneLine).respects.anyhow

theorem respects_quotation_onLine {quote : Char} (h : isQuote quote) :
    (Quotation.recognizer quote).Respects Cursor.UnifiedOnLine fun _ _ => True :=
  (Quotation.blindToReturns h).respects_of_selfClosing
    (Quotation.selfClosing (not_isLineEnd_of_isQuote h))

end Recognizers

end ScriptExcerpt
