import ScriptExcerpt.Proofs.Lexeme.Quotation
import ScriptExcerpt.Proofs.Token.Calls
import ScriptExcerpt.Proofs.Token.Layout

/-!
# Literals among the tokens

The text of a string or template token is written by pieces that fit, and its
value is what their code units are decoded to. So the invisible characters that
stand in the text as they are, stand in the value, too; those that stand behind a
backslash, inside an escape or right behind an open one, do not.

* `Quotation.countP_units`: the invisible characters of one piece;
* `Quotation.countP_units_add`: those of all pieces;
* `TokenStream.writes_of_told`: every literal that is told is written by pieces;
* `TokenStream.invisible_kept_iff`: when its value has all invisible characters.
-/

namespace ScriptExcerpt

open Text Text.CodeUnit

namespace Quotation

/-- The text is written by pieces that fit, between two quotes. -/
structure Writes (quote : Char) (ps : List Piece) (lexeme : List Char) : Prop where
  isQuote : isQuote quote
  fits : Fits quote ps
  lexeme_eq : lexeme = quote :: (text ps ++ [quote])

namespace Piece

/-- A backslash opens the piece. -/
def isBackslashed : Piece → Bool
  | continuation _ _ _ | escape _ _ => true
  | char _ | lineEnd _ => false

/-- The piece writes a code unit by its number. -/
def isNumeric : Piece → Bool
  | escape (.unicode _ _) _ | escape (.byte _ _) _ | escape (.octal _ _) _ => true
  | _ => false

end Piece

variable {quote next : Char} {x : Piece} {ps : List Piece}

theorem mem_controls {c d : Char} (h : controlOf? c = some d) : (c, d) ∈ controls := by
  rw [controlOf?] at h
  repeat' split at h
  all_goals simp_all [controls, eq_comm]

/-- A character that is escaped by itself stands for a visible one. -/
theorem countP_units_single {c : Char} (h : IsSingle c) :
    (ofChar ((controlOf? c).getD c)).countP isInvisibleUnit = 0 := by
  have hvisible : isInvisible ((controlOf? c).getD c) = false := by
    cases hc : controlOf? c with
    | none => exact h.not_invisible
    | some d =>
      have hall : ∀ p ∈ controls, isInvisible p.2 = false := by decide +kernel
      exact hall (c, d) (mem_controls hc)
  rw [countP_isInvisibleUnit_ofChar, List.countP_singleton, hvisible, if_neg Bool.false_ne_true]

/-- Behind a backslash no invisible character is written, unless by its number; any other piece
    stands for the invisible characters of its text. -/
theorem countP_units (hx : x.FitsBefore quote next)
    (hnumeric : x.isNumeric → ∀ u ∈ x.units, isInvisibleUnit u = false) :
    x.units.countP isInvisibleUnit =
      if x.isBackslashed then 0 else x.text.countP isInvisible := by
  cases x with
  | char c => exact countP_isInvisibleUnit_ofChar c
  | lineEnd e =>
    obtain ⟨-, rfl | rfl | ⟨rfl, -⟩⟩ := hx <;> rfl
  | continuation before e behind => rfl
  | escape e written =>
    cases e with
    | single c h => exact countP_units_single h
    | unicode ds h => exact List.countP_eq_zero.2 fun u hu => Bool.not_eq_true _ ▸ hnumeric rfl u hu
    | byte ds h => exact List.countP_eq_zero.2 fun u hu => Bool.not_eq_true _ ▸ hnumeric rfl u hu
    | octal ds h => exact List.countP_eq_zero.2 fun u hu => Bool.not_eq_true _ ▸ hnumeric rfl u hu

/-- The pieces stand for the invisible characters of their text that do not stand behind a
    backslash. -/
theorem countP_units_add (hps : Fits quote ps)
    (hnumeric : ∀ x ∈ ps, x.isNumeric → ∀ u ∈ x.units, isInvisibleUnit u = false) :
    (units ps).countP isInvisibleUnit + (text (ps.filter Piece.isBackslashed)).countP isInvisible =
      (text ps).countP isInvisible := by
  induction ps with
  | nil => rfl
  | cons x ps ih =>
    obtain ⟨hx, hps⟩ := hps
    obtain ⟨hnumeric, hnumerics⟩ := List.forall_mem_cons.1 hnumeric
    have ih := ih hps hnumerics
    have hcount := countP_units hx hnumeric
    have hunits : units (x :: ps) = x.units ++ units ps := List.flatMap_cons
    have htext (ps : List Piece) : text (x :: ps) = x.text ++ text ps := List.flatMap_cons
    rw [hunits, List.filter_cons, htext, List.countP_append, List.countP_append, ← ih, hcount]
    cases x.isBackslashed with
    | false =>
      simp only [Bool.false_eq_true, if_false]
      omega
    | true =>
      simp only [if_true, htext, List.countP_append]
      omega

end Quotation

namespace LexemeReader

open Quotation

/-- A quotation that was read has the text of its pieces and the value of their code units. -/
theorem HasRead.quotation {r : LexemeReader} {v : Version} {lineIsBlank : Bool} {k : Kind}
    {c : Char} {ps : List Piece} {rest : List Char}
    (h : r.HasRead v lineIsBlank k c (Quotation.text ps ++ c :: rest)) (hc : isQuote c)
    (hps : Fits c ps) :
    r.lexeme = c :: (Quotation.text ps ++ [c]) ∧ r.value = decodeLossy (Quotation.units ps) := by
  have hret := (Place.onLine_past r.opening.place h.inked.not_lineEnd).afterReturn
  have hlexeme : lexemeAt v lineIsBlank c
      ⟨r.opening.place.past c, Quotation.text ps ++ c :: rest⟩ = _ :=
    (lexemeAt_of_isQuote hc v lineIsBlank _).trans (Lexeme.quotation_pieces hc hps hret rest)
  have hstop := h.stop
  rw [hlexeme] at hstop
  refine ⟨?_, h.value (by rw [hlexeme])⟩
  have hpasses : Cursor.Passes ⟨r.opening.place.past c, Quotation.text ps ++ c :: rest⟩
      (Quotation.text ps ++ [c])
        ⟨(r.opening.place.past c).through (Quotation.text ps ++ [c]), rest⟩ :=
    ⟨by simp, rfl⟩
  exact lexeme_eq (h.passes.trans hpasses) hstop.symm

end LexemeReader

namespace TokenStream

variable {source : List Char} {offset n : Nat} {v : Version} {t : Token}

open Quotation

/-- The text of a literal that is told is written by pieces, and any that write it stand for its
    value. -/
theorem writes_of_told (h : ((startingAt source offset v).after n).next.1 = .ok t)
    (hk : t.kind.isQuotation) :
    (∃ quote ps, Writes quote ps (t.lexeme source)) ∧
      ∀ quote ps, Writes quote ps (t.lexeme source) → t.value.toList = decodeLossy (units ps) := by
  have hs := standsIn_after source offset v n
  obtain ⟨k, hread, rfl, -⟩ := next_ok (Prod.ext h rfl)
  have hlead := leads_read ((startingAt source offset v).after n)
  rw [hread] at hlead
  rw [lexeme_token (hs.leads hlead.1)]
  obtain ⟨hsig, -⟩ | ⟨rfl, -⟩ := read_ok hread
  · have hend : k ≠ .endOfInput := by
      rintro rfl
      exact Bool.false_ne_true hk
    obtain ⟨lineIsBlank, c, cs, hread⟩ := LexemeReader.hasRead_of_nextSignificant hsig hend
    have hc := isQuote_of_lexemeAt hread.verdict hk
    have hverdict := hread.verdict
    rw [lexemeAt_of_isQuote hc] at hverdict
    obtain ⟨ps, rest, rfl, hps⟩ :=
      Lexeme.exists_pieces hc (Place.onLine_past _ hread.inked.not_lineEnd).afterReturn hverdict
    obtain ⟨hlexeme, -⟩ := hread.quotation hc hps
    refine ⟨⟨c, ps, hc, hps, hlexeme⟩, fun quote ps' hps' => ?_⟩
    -- The same text may be cut into pieces differently.
    have heq := hps'.lexeme_eq
    rw [hlexeme] at heq
    obtain ⟨rfl, heq⟩ := List.cons.inj heq
    rw [List.append_cancel_right heq] at hread
    have hvalue : hasValue k := by cases k <;> first | rfl | exact absurd hk Bool.false_ne_true
    rw [token, if_pos hvalue, String.toList_ofList, (hread.quotation hc hps'.fits).2]
  · exact absurd hk Bool.false_ne_true

/-- A literal keeps the invisible characters of its text, unless it writes some by their
    numbers, exactly if none of them stands behind a backslash: in an escape, behind an open
    one, or around the end of a continued line. -/
theorem invisible_kept_iff (h : ((startingAt source offset v).after n).next.1 = .ok t)
    (hk : t.kind = .string ∨ t.kind = .template) :
    (∃ quote ps, Writes quote ps (t.lexeme source)) ∧
      ∀ quote ps, Writes quote ps (t.lexeme source) →
        t.value.toList = decodeLossy (units ps) ∧
        ((∀ x ∈ ps, x.isNumeric → ∀ u ∈ x.units, isInvisibleUnit u = false) →
          (t.value.toList.countP isInvisible = (t.lexeme source).countP isInvisible ↔
            ∀ x ∈ ps, x.isBackslashed → ∀ c ∈ x.text, isInvisible c = false)) := by
  have hquotation : t.kind.isQuotation := by
    rcases hk with hk | hk <;> rw [hk] <;> rfl
  obtain ⟨hwrites, hvalue⟩ := writes_of_told h hquotation
  refine ⟨hwrites, fun quote ps hps => ⟨hvalue quote ps hps, fun hnumeric => ?_⟩⟩
  have hcount := countP_units_add hps.fits hnumeric
  have hquote : isInvisible quote = false := (inked_of_isQuote hps.isQuote).not_invisible
  have hlexeme : (t.lexeme source).countP isInvisible = (text ps).countP isInvisible := by
    rw [hps.lexeme_eq]
    simp [hquote]
  have hlost : (text (ps.filter Piece.isBackslashed)).countP isInvisible = 0 ↔
      ∀ x ∈ ps, x.isBackslashed → ∀ c ∈ x.text, isInvisible c = false := by
    simp only [List.countP_eq_zero, text, List.mem_flatMap, List.mem_filter, Bool.not_eq_true]
    constructor
    · intro h x hx hb c hc
      exact h c ⟨x, ⟨hx, hb⟩, hc⟩
    · rintro h c ⟨x, ⟨hx, hb⟩, hc⟩
      exact h x hx hb c hc
  rw [hvalue quote ps hps, countP_isInvisible_decodeLossy, hlexeme, ← hlost]
  omega

/-- An invisible character between the letters of a literal stays, one before the end of a
    continued line does not. -/
theorem invisible_lost_before_line_end :
    let source := "\"a\u00adb\\\u200b\nc\"".toList
    let t : Token := ⟨.string, "a\u00adbc", ⟨0, 12⟩⟩
    ((startingAt source 0 .legacy).after 0).next.1 = .ok t ∧
      (∃ quote ps, Writes quote ps (t.lexeme source)) ∧
        ∀ quote ps, Writes quote ps (t.lexeme source) →
          t.value.toList = decodeLossy (units ps) ∧
          ((∀ x ∈ ps, x.isNumeric → ∀ u ∈ x.units, isInvisibleUnit u = false) →
            (t.value.toList.countP isInvisible = (t.lexeme source).countP isInvisible ↔
              ∀ x ∈ ps, x.isBackslashed → ∀ c ∈ x.text, isInvisible c = false)) := by
  intro source t
  have hnext : ((startingAt source 0 .legacy).after 0).next.1 = .ok t := by decide +kernel
  exact ⟨hnext, invisible_kept_iff hnext (.inl rfl)⟩

/-- The invisible character behind an octal escape is lost, although the escape is over. -/
theorem invisible_lost_behind_octal :
    let source := "\"\\1\u00ada\"".toList
    let t : Token := ⟨.string, "\x01a", ⟨0, 7⟩⟩
    let ps : List Piece := [.escape (.octal [⟨'1', rfl⟩] (.singleton _)) ['1', '\u00ad'], .char 'a']
    (startingAt source 0 .legacy).next.1 = .ok t ∧ Writes '"' ps (t.lexeme source) ∧
      (∀ x ∈ ps, x.isNumeric → ∀ u ∈ x.units, isInvisibleUnit u = false) ∧
        t.value.toList.countP isInvisible ≠ (t.lexeme source).countP isInvisible := by
  intro source t ps
  have hover : ¬ (Escape.octal [⟨'1', rfl⟩] (.singleton _)).GoesOn 'a' := by
    rintro ⟨⟨_, hdigit⟩, rfl, -⟩
    exact Bool.false_ne_true hdigit
  have hfits : Fits '"' ps := ⟨⟨rfl, rfl, hover⟩, ⟨by decide, by decide, .inr (.inr rfl)⟩, trivial⟩
  refine ⟨by decide +kernel, ⟨rfl, hfits, by decide +kernel⟩, ?_, by decide +kernel⟩
  -- The escape is numeric, and the other piece is not.
  refine List.forall_mem_cons.2 ⟨fun _ => List.forall_mem_singleton.2 (by decide +kernel), ?_⟩
  exact List.forall_mem_singleton.2 fun h => absurd h Bool.false_ne_true

end TokenStream

end ScriptExcerpt
