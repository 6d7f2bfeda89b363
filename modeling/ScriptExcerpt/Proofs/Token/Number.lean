import ScriptExcerpt.Proofs.Lexeme.Number
import ScriptExcerpt.Proofs.Token.Balance
import ScriptExcerpt.Proofs.Token.Layout

/-!
# Separators at the end of a line

A separator behind digits, at the end of a line or of the script, is a problem if the
digits are those of a decimal number. An octal number, be it a zero, ends before the
separator, which is then read as a name.

* `LexemeReader.next_digits`: the two things that digits and a separator can be read as;
* `TokenStream.next_behind_octal`: the two tokens, where they are read as such;
* `TokenStream.separator_rejected_iff`: when a script of digits and a separator is refused.
-/

namespace ScriptExcerpt

open Text

/-! ## Readers -/

namespace LexemeReader

variable {r : LexemeReader} {d t : List Char}

/-- A separator at the end of a line is read as a problem, or as the beginning of another
    lexeme, by the digits before it. -/
theorem next_digits (hd : d ≠ []) (hdigits : ∀ c ∈ d, isDigitOf 10 c)
    (ht : ∀ e ∈ t.head?, isLineEnd e) (hrest : r.cursor.rest = d ++ '_' :: t)
    (hret : r.cursor.place.afterReturn = false) :
    (Number.IsDecimal d ∧ ∃ p, r.next.1 = .error p ∧
      p.cause = .numberFormat "numeric separator at end of line") ∨
      ¬ Number.IsDecimal d ∧ ∃ value r', r.next = (.ok .number, r') ∧ r.ReadsText d value r' := by
  obtain ⟨c, w, rfl⟩ := List.exists_cons_of_ne_nil hd
  obtain ⟨hc, hw⟩ := List.forall_mem_cons.1 hdigits
  obtain ⟨-, -, hinked⟩ := start_of_isDigitOf_ten hc
  have hline := Place.onLine_past r.cursor.place hinked.not_lineEnd
  rcases Number.carries_or_stops hc hw r.version with
    ⟨hdecimal, value, hcarries⟩ | ⟨hoctal, s, value, hcarries, hstop⟩
  · have hfails := hcarries.failsOn (Number.failsOn_separator value ht)
    exact .inl ⟨hdecimal, next_of_fault hinked hrest hret (lexemeAt_of_failsOn hc hfails hline)⟩
  · obtain ⟨r', hnext⟩ := next_of_takes hinked hrest hret
      (lexemeAt_of_carries (.inl hc) hcarries ⟨rfl, hstop⟩ hline)
    exact .inr ⟨hoctal, _, r', hnext⟩

/-- A separator by itself is a name. -/
theorem next_separator (ht : ∀ e ∈ t.head?, isLineEnd e) (hrest : r.cursor.rest = '_' :: t)
    (hret : r.cursor.place.afterReturn = false) :
    ∃ r', r.next = (.ok .identifier, r') ∧ r.ReadsText ['_'] (some ['_']) r' := by
  have hend : ∀ e ∈ t.head?, e ≠ '\\' ∧ isNamePart e = false ∧ isInvisible e = false := by
    intro e he
    rcases eq_of_isLineEnd (ht e he) with rfl | rfl | rfl | rfl <;> decide +kernel
  have hkind : nameKind r.version (String.ofList ['_']) = .identifier := by
    cases r.version <;> decide +kernel
  have htakes : (lexemeAt r.version r.lineIsBlank '_' ⟨r.cursor.place.past '_', [] ++ t⟩).Takes
      ⟨r.cursor.place.past '_', [] ++ t⟩ [] .identifier (some ['_']) := by
    rw [← hkind]
    exact lexemeAt_name rfl (by decide) (by simp) hend (Place.onLine_past _ rfl)
  exact next_of_takes (w := []) (by decide) hrest hret htakes

end LexemeReader

/-! ## Streams -/

namespace TokenStream

variable {s : TokenStream} {r : LexemeReader} {k : Kind} {x d t : List Char}
  {value : Option (List Char)}

/-- A number or a name that stands next is the next token. -/
theorem next_of_readsText (h : s.reader.next = (.ok k, r)) (hr : s.reader.ReadsText x value r)
    (hk : k = .number ∨ k = .identifier) :
    ∃ s', s.next = (.ok (token r k), s') ∧ s'.reader = r ∧ s'.isBalanced = s.isBalanced ∧
      (token r k).span = ⟨s.reader.cursor.offset, s.reader.cursor.offset + byteLength x⟩ := by
  have hsig := LexemeReader.nextSignificant_of_next h
  have hspan : (token r k).span =
      ⟨s.reader.cursor.offset, s.reader.cursor.offset + byteLength x⟩ := by
    rw [token, hr.opening, hr.stop, hr.cursor.offset_eq]
    rfl
  rcases hk with rfl | rfl
  · exact ⟨_, next_of_read (read_of_nextSignificant hsig rfl) rfl, rfl, rfl, hspan⟩
  · exact ⟨_, next_of_read (read_of_nextSignificant hsig rfl) rfl, rfl, rfl, hspan⟩

/-- Behind an octal number, a separator at the end of the line is the next token. -/
theorem next_behind_octal (hd : d ≠ []) (hdigits : ∀ c ∈ d, isDigitOf 10 c)
    (hoctal : ¬ Number.IsDecimal d) (ht : ∀ e ∈ t.head?, isLineEnd e)
    (hrest : s.reader.cursor.rest = d ++ '_' :: t) (hline : s.reader.cursor.place.OnLine) :
    let start := s.reader.cursor.offset
    let stop := start + byteLength d
    ∃ u s₁ s₂, s.next = (.ok u, s₁) ∧ u.kind = .number ∧ u.span = ⟨start, stop⟩ ∧
      s₁.next = (.ok ⟨.identifier, "_", ⟨stop, stop + 1⟩⟩, s₂) ∧ s₂.reader.cursor.rest = t ∧
        s₂.isBalanced = s.isBalanced := by
  intro start stop
  obtain ⟨-, value, r₁, hnext, hr₁⟩ :=
    (LexemeReader.next_digits hd hdigits ht hrest hline.afterReturn).resolve_left
      fun h => hoctal h.1
  obtain ⟨s₁, hs₁, rfl, hbalanced₁, hspan₁⟩ := next_of_readsText hnext hr₁ (.inl rfl)
  have hline₁ : (s.reader.cursor.place.through d).OnLine :=
    Place.onLine_through hline fun c hc => (Number.plain_of_isDigitOf (hdigits c hc)).not_lineEnd
  have hret₁ : s₁.reader.cursor.place.afterReturn = false :=
    hr₁.cursor.afterReturn_eq.trans hline₁.afterReturn
  have hrest₁ : s₁.reader.cursor.rest = '_' :: t := hr₁.rest_eq hrest
  obtain ⟨r₂, hnext₂, hr₂⟩ := LexemeReader.next_separator ht hrest₁ hret₁
  obtain ⟨s₂, hs₂, rfl, hbalanced₂, hspan₂⟩ := next_of_readsText hnext₂ hr₂ (.inr rfl)
  refine ⟨_, s₁, s₂, hs₁, rfl, hspan₁, ?_, hr₂.rest_eq hrest₁, hbalanced₂.trans hbalanced₁⟩
  have htoken : token s₂.reader .identifier = ⟨.identifier, String.ofList s₂.reader.value,
      (token s₂.reader .identifier).span⟩ := rfl
  rw [hs₂, htoken, hspan₂, hr₁.cursor.offset_eq, show s₂.reader.value = ['_'] from hr₂.value]
  rfl

/-- A separator at the end of a line, behind digits, is refused exactly if they are those of a
    decimal number. Otherwise the digits are a number, and the separator is a name. -/
theorem separator_rejected_iff (hd : d ≠ []) (hdigits : ∀ c ∈ d, isDigitOf 10 c)
    (ht : ∀ e ∈ t.head?, isLineEnd e) (v : Version) :
    let source := d ++ '_' :: t
    let s := ofSource source v
    let cause := Cause.numberFormat "numeric separator at end of line"
    ((∃ p, s.next.1 = .error p ∧ p.cause = cause) ↔ Number.IsDecimal d) ∧
      (Number.IsDecimal d → ∃ p, tokenize source v = .error p ∧ p.cause = cause) ∧
      (¬ Number.IsDecimal d →
        (∃ u, s.next.1 = .ok u ∧ u.kind = .number ∧ u.span = ⟨0, byteLength d⟩) ∧
        s.next.2.next.1 = .ok ⟨.identifier, "_", ⟨byteLength d, byteLength d + 1⟩⟩ ∧
        (t = [] → ∃ us, tokenize source v = .ok us ∧
          us.map Token.kind = [.number, .identifier, .endOfInput])) := by
  intro source s cause
  have hrest : s.reader.cursor.rest = source := dropBytes_zero source
  have hline : s.reader.cursor.place.OnLine := ⟨rfl, rfl⟩
  by_cases hdecimal : Number.IsDecimal d
  · obtain ⟨-, p, hp, hcause⟩ :=
      (LexemeReader.next_digits hd hdigits ht hrest hline.afterReturn).resolve_right
        fun h => h.1 hdecimal
    have hproblem := LexemeReader.nextSignificant_of_problem (Prod.ext hp rfl)
    have hs : s.next.1 = .error p := by rw [next_eq_read, read, hproblem]
    exact ⟨iff_of_true ⟨p, hs, hcause⟩ hdecimal,
      fun _ => ⟨p, tokens_of_problem (Prod.ext hs rfl), hcause⟩, absurd hdecimal⟩
  · obtain ⟨u, s₁, s₂, hs₁, hu, hspan, hs₂, hrest₂, hbalanced₂⟩ :=
      next_behind_octal hd hdigits hdecimal ht hrest hline
    have hzero : s.reader.cursor.offset = 0 := congrArg byteLength (takeBytes_zero source)
    rw [hzero, Nat.zero_add] at hspan hs₂
    refine ⟨iff_of_false ?_ hdecimal, fun h => absurd h hdecimal,
      fun _ => ⟨⟨u, congrArg Prod.fst hs₁, hu, hspan⟩, ?_, ?_⟩⟩
    · rintro ⟨p, hp, -⟩
      simp [hs₁] at hp
    · rw [hs₁, hs₂]
    · rintro rfl
      obtain ⟨w, s₃, hs₃, hw, -, hparens, hbraces⟩ := next_of_rest_nil hrest₂
      have hbalanced : s₃.isBalanced = true := by
        rw [isBalanced, Grouping.isBalanced, hparens, hbraces]
        exact hbalanced₂
      have htokens := (Reads.cons hs₁ (.cons hs₂ (.nil s₂))).tokens_eq (by simp [hu]) hs₃ hw
        hbalanced
      exact ⟨_, htokens, by simp [hu, hw]⟩

/-- A decimal number goes on with a separator, so that the line must not end behind it. -/
theorem separator_rejected_behind_nine :
    let d := "019".toList
    let source := "019_\n1".toList
    d ≠ [] ∧ (∀ c ∈ d, isDigitOf 10 c) ∧ (∀ e ∈ "\n1".toList.head?, isLineEnd e) ∧
      Number.IsDecimal d ∧ ∃ p, tokenize source .legacy = .error p ∧
        p.cause = .numberFormat "numeric separator at end of line" := by
  intro d source
  have hd : d ≠ [] := by decide
  have hdigits : ∀ c ∈ d, isDigitOf 10 c := List.all_eq_true.1 (by decide)
  have ht : ∀ e ∈ "\n1".toList.head?, isLineEnd e := by
    rintro e ⟨⟩
    rfl
  have hdecimal : Number.IsDecimal d := by decide
  exact ⟨hd, hdigits, ht, hdecimal, (separator_rejected_iff hd hdigits ht .legacy).2.1 hdecimal⟩

/-- A zero and a separator are a number and a name. -/
theorem separator_accepted_behind_zero :
    tokenize "0_".toList .legacy =
      .ok [⟨.number, "0", ⟨0, 1⟩⟩, ⟨.identifier, "_", ⟨1, 2⟩⟩, ⟨.endOfInput, "", ⟨2, 2⟩⟩] := by
  decide +kernel

end TokenStream

end ScriptExcerpt
