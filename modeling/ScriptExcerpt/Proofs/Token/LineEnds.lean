import ScriptExcerpt.Proofs.Lexeme.LineEnds
import ScriptExcerpt.Proofs.Token.Alike
import ScriptExcerpt.Proofs.Token.Embedding

/-!
# Line ends of any form

Scripts that write their line ends differently have the same tokens.

* `LexemeReader.Unified`: a reader of a script, and one of the script with one
  form of line end. They go on line by line together.
* `tokenize_unifyLineEnds`: the tokens of the two scripts.
-/

namespace ScriptExcerpt

open Text

namespace LexemeReader

/-- The second reader stands at the same place as the first one, in the script with one form
    of line end. -/
structure Unified (r r' : LexemeReader) : Prop where
  version : r'.version = r.version
  lineIsBlank : r'.lineIsBlank = r.lineIsBlank
  value : r'.value = r.value
  cursor : r.cursor.Unified r'.cursor

namespace Unified

variable {r r' : LexemeReader} {k : Kind}

theorem of_alike (h : Alike Cursor.UnifiedOnLine Eq k r r') (hk : k ≠ .endOfInput) :
    Unified r r' where
  version := h.version
  lineIsBlank := h.lineIsBlank
  value := h.value
  cursor := (h.cursor hk).1

/-- The next lexeme is told alike, or is a line end in both scripts. -/
theorem next (h : Unified r r') : ReadAlike Cursor.UnifiedOnLine Eq r.next r'.next ∨ ∃ r₁ r₁',
    r.next = (.ok .lineEnd, r₁) ∧ r'.nextSignificant = r₁'.nextSignificant ∧
      Unified r₁ r₁' := by
  have hgap := h.cursor.skipGap
  rcases hhere : r.cursor.skipGap with ⟨place, _ | ⟨c, cs⟩⟩
  · rw [hhere] at hgap
    rw [next_of_gap_nil (congrArg Cursor.rest hhere), next_of_gap_nil hgap.rest]
    refine .inl (.ok ⟨h.version, h.lineIsBlank, h.value, fun hk => absurd rfl hk, fun _ => ?_⟩)
    rw [lexeme_eq (.refl _) rfl, lexeme_eq (.refl _) rfl]
  · rcases hhere' : r'.cursor.skipGap with ⟨place', rest⟩
    have hc := Cursor.not_completes_skipGapFrom hhere
    rw [hhere, hhere'] at hgap
    obtain rfl := hgap.rest_cons hc
    have hpast := hgap.past
    rw [next_of_gap hhere, next_of_gap hhere', isLineEnd_unifyReturn]
    cases hline : isLineEnd c with
    | true =>
      -- Both readers pass a line end.
      have hnext := next_of_gap hhere'
      rw [isLineEnd_unifyReturn, hline, if_pos rfl] at hnext
      refine .inr ⟨_, _, rfl, nextSignificant_of_next hnext, ?_⟩
      exact ⟨h.version, rfl, h.value, hpast⟩
    | false =>
      have hc' := hgap.not_completes c
      rw [unifyReturn_of_not_isLineEnd hline] at hpast ⊢
      exact .inl (accept_alike (respected_onLine _) respects_quotation_onLine
        (fun u u' => congrArg (List.cons c)) h.version h.lineIsBlank h.value hc hc'
        ⟨hpast, place.onLine_past hline⟩)

theorem nextSignificant (h : Unified r r') :
    ReadAlike Cursor.UnifiedOnLine Eq r.nextSignificant r'.nextSignificant := by
  refine nextSignificant_alike next (fun halike ht => of_alike halike ?_) h
  rintro rfl
  simp [Kind.isTrivia] at ht

theorem startingAt (source : List Char) (v : Version) :
    Unified (.startingAt source 0 v) (.startingAt (unifyLineEnds source) 0 v) where
  version := rfl
  lineIsBlank := rfl
  value := rfl
  cursor := by
    have hsource : Cursor.startingAt source 0 = ⟨.atOffset 0, source⟩ :=
      Cursor.startingAt_append [] source
    have hunified : Cursor.startingAt (unifyLineEnds source) 0 =
        ⟨.atOffset 0, unifyLineEnds source⟩ := Cursor.startingAt_append [] _
    rw [LexemeReader.startingAt, LexemeReader.startingAt, hsource, hunified]
    exact ⟨unifyLineEnds_eq source, rfl, rfl, rfl⟩

end Unified

end LexemeReader

namespace TokenStream

variable {s s' : TokenStream}

/-- The second stream stands at the same place as the first one, in the script with one form
    of line end; its books are the same. -/
structure Unified (s s' : TokenStream) : Prop where
  reader : s.reader.Unified s'.reader
  grouping : s'.grouping = s.grouping

/-- The next token is told alike. -/
theorem Unified.next (h : Unified s s') : StepsAlike id Unified s.next s'.next := by
  have hbooks : s.grouping.Alike s'.grouping := h.grouping ▸ .refl _
  have hread := read_alike respected_onLine hbooks h.reader.nextSignificant
  rcases hr : s.read with ⟨x, r⟩
  rcases hr' : s'.read with ⟨y, r'⟩
  rw [hr, hr'] at hread
  cases hread with
  | error hc => exact next_alike_of_problem hr hr' hc
  | @ok k _ _ halike =>
    have htells : (token r' k).tells id = (token r k).tells id :=
      token_alike halike (isTrivia_read hr) fun _ hlexeme => congrArg String.ofList hlexeme.symm
    have hline (hk : k ≠ .endOfInput) : r'.line = r.line := (halike.cursor hk).1.line
    refine next_alike hr hr' htells hbooks ?_ fun g g' hg hg' _ hk => ?_
    · rintro rfl t t' ht ht'
      obtain rfl : t' = t := Option.some.inj (ht'.symm.trans ((congrArg _ h.grouping).trans ht))
      rw [hline (by simp)]
    · refine ⟨.of_alike halike hk, ?_⟩
      rw [h.grouping, hline hk] at hg'
      exact Except.ok.inj (hg'.symm.trans (Grouping.enter_of_start hg r'.opening.offset))

end TokenStream

/-- A script in which carriage returns, with and without newlines, are replaced by newlines
    has tokens of the same kinds with the same values, or the same is wrong with it. -/
theorem tokenize_unifyLineEnds (source : List Char) (v : Version) :
    SameTokens id (tokenize source v) (tokenize (unifyLineEnds source) v) :=
  TokenStream.tokens_alike TokenStream.Unified.next ⟨.startingAt source v, rfl⟩

end ScriptExcerpt
