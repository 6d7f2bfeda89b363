import ScriptExcerpt.Proofs.Token.History

/-!
# Books that balance

Behind any calls, problems among them, the open brackets that a stream knows are
those that the tokens told so far open and do not close; a problem with brackets
is a bracket that closes none of them.

* `TokenStream.depth_after`: what the calls so far add to the counts.
* `TokenStream.exists_reads`: reading on, the script ends, or a problem comes
  first.
* `TokenStream.tokens_eq_error_iff`, `TokenStream.tokens_eq_ok_iff`: what the
  tokens of a script are in each case.
* `brackets_counted`: all of this, for a script.
-/

namespace ScriptExcerpt

open Text

namespace TokenStream

variable {s s₁ s₂ s' : TokenStream} {t : Token} {ts : List Token} {p : Problem}

/-! ## Call after call -/

/-- The books count the brackets that were told. -/
theorem depth_after (s : TokenStream) (n : Nat) :
    Grows ((s.told n).map Token.kind) s.grouping.parens.length s.grouping.braces.length
      (s.after n).grouping.parens.length (s.after n).grouping.braces.length := by
  induction n with
  | zero => exact ⟨rfl, rfl⟩
  | succ n ih =>
    rcases hnext : (s.after n).next with ⟨p | t, s'⟩
    · -- A problem changes neither the books nor what was told.
      rw [told_succ_of_problem hnext, after, hnext, (next_error hnext).1]
      exact ih
    · obtain ⟨k, -, rfl, hg⟩ := next_ok hnext
      rw [told_succ_of_token hnext, after, hnext]
      exact ih.cons (Grouping.depth_enter hg)

theorem isBalanced_after_iff (hs : s.grouping = .empty) (n : Nat) :
    (s.after n).isBalanced ↔ Balanced ((s.told n).map Token.kind) := by
  have hdepth := s.depth_after n
  rw [hs] at hdepth
  exact hdepth.isBalanced_iff

/-! ## All tokens of a script -/

theorem tokens_of_problem (h : s.next = (.error p, s')) : s.tokens = .error p := by
  rw [tokens]
  split
  · next he => exact congrArg Except.error (Except.error.inj (Prod.mk.inj (he.symm.trans h)).1)
  · next he => simp [h] at he

/-- Reading on, the script ends, or a problem comes first. -/
theorem exists_reads (s : TokenStream) : ∃ ts s₁, Reads s ts s₁ ∧
    (∀ u ∈ ts, u.kind ≠ .endOfInput) ∧ ((∃ p s₂, s₁.next = (.error p, s₂)) ∨
      ∃ t s₂, s₁.next = (.ok t, s₂) ∧ t.kind = .endOfInput) := by
  rcases hnext : s.next with ⟨p | t, s'⟩
  · exact ⟨[], s, .nil s, by simp, .inl ⟨p, s', hnext⟩⟩
  · by_cases ht : t.kind = .endOfInput
    · exact ⟨[], s, .nil s, by simp, .inr ⟨t, s', hnext, ht⟩⟩
    · obtain ⟨ts, s₁, h, he, hend⟩ := exists_reads s'
      exact ⟨t :: ts, s₁, .cons hnext h, List.forall_mem_cons.2 ⟨ht, he⟩, hend⟩
termination_by s.reader.cursor.rest.length
decreasing_by exact length_next_lt hnext ht

/-- A history goes from `s` up to the problem `p`. -/
def Fails (s : TokenStream) (p : Problem) : Prop :=
  ∃ ts s₁, Reads s ts s₁ ∧ (∀ u ∈ ts, u.kind ≠ .endOfInput) ∧ s₁.next.1 = .error p

/-- The tokens `ts` go from `s` up to the end of the script, the token of the end
    being the last of them. -/
def Ends (s : TokenStream) (ts : List Token) : Prop :=
  ∃ us t s', ts = us ++ [t] ∧ Reads s ts s' ∧ (∀ u ∈ us, u.kind ≠ .endOfInput) ∧
    t.kind = .endOfInput

theorem Fails.tokens_eq (h : s.Fails p) : s.tokens = .error p := by
  obtain ⟨ts, s₁, h, he, hp⟩ := h
  rw [h.tokens_append he, tokens_of_problem (Prod.ext hp rfl)]
  rfl

/-- The tokens of a script that ends are told if they balance. -/
theorem Ends.tokens_eq {source : List Char} (h : s.Ends ts) (hs : s.grouping = .empty)
    (hstands : s.reader.cursor.StandsIn source) :
    s.tokens = if Balanced (ts.map Token.kind) then .ok ts
      else .error (.unbalanced "unclosed brackets at end of input" (byteLength source)) := by
  obtain ⟨us, t, s', rfl, h, he, ht⟩ := h
  have hbalanced := h.isBalanced_iff hs
  obtain ⟨s₁, h₁, hnext⟩ := h.split_last
  have hspan := span_of_endOfInput (hstands.leads h₁.leads) hnext ht
  rw [h₁.tokens_append he, tokens_of_token hnext, if_pos ht, hspan]
  simp only [hbalanced]
  split <;> rfl

/-- The tokens of a script cannot be told if a problem comes before its end, or
    its brackets do not balance. -/
theorem tokens_eq_error_iff {source : List Char} (hs : s.grouping = .empty)
    (hstands : s.reader.cursor.StandsIn source) : s.tokens = .error p ↔ s.Fails p ∨
      ∃ ts, s.Ends ts ∧ ¬ Balanced (ts.map Token.kind) ∧
        p = .unbalanced "unclosed brackets at end of input" (byteLength source) := by
  constructor
  · intro h
    obtain ⟨ts, s₁, hr, he, ⟨q, s₂, hnext⟩ | ⟨t, s₂, hnext, ht⟩⟩ := s.exists_reads
    · have hfails : s.Fails q := ⟨ts, s₁, hr, he, congrArg Prod.fst hnext⟩
      exact .inl (Except.error.inj (hfails.tokens_eq.symm.trans h) ▸ hfails)
    · have hends : s.Ends (ts ++ [t]) := ⟨ts, t, s₂, rfl, hr.snoc hnext, he, ht⟩
      rw [hends.tokens_eq hs hstands] at h
      split at h
      · simp at h
      · next hb => exact .inr ⟨_, hends, hb, (Except.error.inj h).symm⟩
  · rintro (h | ⟨ts, h, hb, rfl⟩)
    · exact h.tokens_eq
    · rw [h.tokens_eq hs hstands, if_neg hb]

/-- The tokens of a script are told if they balance, and no problem comes before
    its end. -/
theorem tokens_eq_ok_iff {source : List Char} (hs : s.grouping = .empty)
    (hstands : s.reader.cursor.StandsIn source) :
    s.tokens = .ok ts ↔ s.Ends ts ∧ Balanced (ts.map Token.kind) := by
  constructor
  · intro h
    obtain ⟨us, s₁, hr, he, ⟨q, s₂, hnext⟩ | ⟨t, s₂, hnext, ht⟩⟩ := s.exists_reads
    · have hfails : s.Fails q := ⟨us, s₁, hr, he, congrArg Prod.fst hnext⟩
      simp [hfails.tokens_eq] at h
    · have hends : s.Ends (us ++ [t]) := ⟨us, t, s₂, rfl, hr.snoc hnext, he, ht⟩
      rw [hends.tokens_eq hs hstands] at h
      split at h
      · next hb =>
        obtain rfl := Except.ok.inj h
        exact ⟨hends, hb⟩
      · simp at h
  · rintro ⟨h, hb⟩
    rw [h.tokens_eq hs hstands, if_pos hb]

end TokenStream

/-- Whatever calls read a script, the open brackets are those that were told and
    not closed; a problem with brackets is a bracket that closes none; and no
    problem changes the books. So the tokens of a script cannot be told if a
    problem comes first, or if brackets are open at its end. -/
theorem brackets_counted (source : List Char) (v : Version) :
    (∀ offset n,
      let s := (TokenStream.startingAt source offset v).after n
      let ks := ((TokenStream.startingAt source offset v).told n).map Token.kind
      Grows ks 0 0 s.grouping.parens.length s.grouping.braces.length ∧
      (s.isBalanced ↔ Balanced ks) ∧
      (∀ p, (s.next.1 = .error p ∧ ∃ text, p.cause = .unbalancedBrackets text) ↔
        ks.count (.symbol .openParen) = ks.count (.symbol .closeParen) ∧
          s.Unmatched .closeParen "unmatched closing paren" p ∨
        ks.count (.symbol .openCurly) = ks.count (.symbol .closeCurly) ∧
          s.Unmatched .closeCurly "unmatched closing brace" p) ∧
      ∀ p, s.next.1 = .error p → s.next.2.grouping = s.grouping) ∧
    (∀ p, tokenize source v = .error p ↔ (TokenStream.ofSource source v).Fails p ∨
      ∃ ts, (TokenStream.ofSource source v).Ends ts ∧ ¬ Balanced (ts.map Token.kind) ∧
        p = .unbalanced "unclosed brackets at end of input" (byteLength source)) ∧
    ∀ ts, tokenize source v = .ok ts ↔
      (TokenStream.ofSource source v).Ends ts ∧ Balanced (ts.map Token.kind) := by
  have hstands := Cursor.standsIn_startingAt source 0
  refine ⟨fun offset n => ?_, fun p => TokenStream.tokens_eq_error_iff rfl hstands,
    fun ts => TokenStream.tokens_eq_ok_iff rfl hstands⟩
  have hdepth := (TokenStream.startingAt source offset v).depth_after n
  refine ⟨hdepth, TokenStream.isBalanced_after_iff rfl n, fun p => ?_,
    fun p hp => (TokenStream.next_error (Prod.ext hp rfl)).1⟩
  rw [TokenStream.next_unbalanced_iff, hdepth.parens_eq_nil_iff, hdepth.braces_eq_nil_iff]

end ScriptExcerpt
