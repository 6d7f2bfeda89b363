import ScriptExcerpt.Proofs.Lexeme.Alike
import ScriptExcerpt.Proofs.Token.Balance
import ScriptExcerpt.Proofs.Token.Role

/-!
# Scripts with the same tokens

Two streams tell the same tokens if they read alike and their books are alike:
these count lines, but use them for one thing only, to tell whether a brace
stands on the line of the token before it.

* `SameTokens`: two scripts have the same tokens, or the same is wrong with
  them.
* `Grouping.enter_alike`: what a token makes of books that are alike.
* `TokenStream.read_alike`, `TokenStream.next_alike`: what two streams tell.
* `TokenStream.tokens_alike`: from steps to all tokens of two scripts.
-/

namespace ScriptExcerpt

/-! ## Answers -/

/-- The two causes are the same, but the message of an unmatched bracket repeats the offset
    of the bracket. -/
inductive Cause.Alike : Cause → Cause → Prop
  | refl (c : Cause) : Alike c c
  | unbalanced (text : String) (m n : Nat) :
    Alike (Problem.unbalanced text m).cause (Problem.unbalanced text n).cause

/-- What a token tells, if `f` forgets what does not count of its value. -/
def Token.tells (f : String → String) (t : Token) : Kind × String :=
  (t.kind, f t.value)

/-- The same tokens, up to what `f` forgets of their values, or problems with the same
    cause. -/
inductive SameTokens (f : String → String) :
    Except Problem (List Token) → Except Problem (List Token) → Prop
  | ok {ts us : List Token} : us.map (Token.tells f) = ts.map (Token.tells f) →
    SameTokens f (.ok ts) (.ok us)
  | error {p q : Problem} : Cause.Alike p.cause q.cause → SameTokens f (.error p) (.error q)

/-! ## The books -/

/-- What a trace tells, but for its line. -/
def Trace.sign (t : Trace) : Kind × Option Role :=
  (t.kind, t.role)

namespace Grouping

/-- The same is known, but for the lines of the last tokens. -/
structure Alike (g g' : Grouping) : Prop where
  recent : g'.recent.map Trace.sign = g.recent.map Trace.sign
  parens : g'.parens = g.parens
  braces : g'.braces = g.braces

namespace Alike

variable {g g' : Grouping} {line line' : UInt32}

theorem refl (g : Grouping) : Alike g g := ⟨rfl, rfl, rfl⟩

theorem isBalanced (h : Alike g g') : g'.isBalanced = g.isBalanced := by
  rw [Grouping.isBalanced, Grouping.isBalanced, h.parens, h.braces]

theorem last? (h : Alike g g') : g'.last?.map Trace.sign = g.last?.map Trace.sign := by
  rw [Grouping.last?, Grouping.last?, ← List.getElem?_map, ← List.getElem?_map, h.recent]

theorem kinds (h : Alike g g') : g'.recent.map Trace.kind = g.recent.map Trace.kind := by
  have hfst := congrArg (List.map Prod.fst) h.recent
  rwa [List.map_map, List.map_map] at hfst

theorem parenRole (h : Alike g g') :
    Grouping.parenRole g'.recent = Grouping.parenRole g.recent := by
  have htest (ts : List Trace) : (ts.head?.any fun t => t.kind.takesTest) =
      ((ts.map Trace.kind).head?.any fun k => k.takesTest) := by
    cases ts <;> rfl
  rw [Grouping.parenRole, Grouping.parenRole, htest, htest, h.kinds]

/-- The lines of the last tokens tell the same of the two lines. -/
def Agree (g g' : Grouping) (line line' : UInt32) : Prop :=
  ∀ t t', g.last? = some t → g'.last? = some t' → (t'.line = line' ↔ t.line = line)

theorem cases_last? (h : Alike g g') : (g.last? = none ∧ g'.last? = none) ∨
    ∃ k role l l', g.last? = some ⟨k, l, role⟩ ∧ g'.last? = some ⟨k, l', role⟩ := by
  have hlast := h.last?
  cases ht : g.last? with
  | none =>
    rw [ht] at hlast
    exact .inl ⟨rfl, Option.map_eq_none_iff.1 hlast⟩
  | some t =>
    rw [ht] at hlast
    obtain ⟨t', ht', hsign⟩ := Option.map_eq_some_iff.1 hlast
    obtain ⟨k, l, role⟩ := t
    obtain ⟨k', l', role'⟩ := t'
    obtain ⟨rfl, rfl⟩ := Prod.mk.inj hsign
    exact .inr ⟨_, _, _, _, rfl, ht'⟩

theorem slashOpensRegExp (h : Alike g g') : g'.slashOpensRegExp = g.slashOpensRegExp := by
  rcases h.cases_last? with ⟨ht, ht'⟩ | ⟨k, role, l, l', ht, ht'⟩ <;>
    simp only [Grouping.slashOpensRegExp, ht, ht']

theorem braceRole (h : Alike g g') (hline : Agree g g' line line') :
    g'.braceRole line' = g.braceRole line := by
  rcases h.cases_last? with ⟨ht, ht'⟩ | ⟨k, role, l, l', ht, ht'⟩
  · simp only [Grouping.braceRole, ht, ht', opensBlock]
  · have hne : (l' != line') = (l != line) := by
      rw [bne, bne, Bool.not_inj_iff]
      exact Bool.eq_iff_iff.2 (by simpa using hline _ _ ht ht')
    simp only [Grouping.braceRole, ht, ht', h.braces, opensBlock, hne, Option.bind_some,
      closedParens?]

theorem remember (h : Alike g g') {t t' : Trace} (ht : t'.sign = t.sign) :
    Alike (g.remember t) (g'.remember t') where
  recent := by
    simp only [Grouping.remember, List.map_take, List.map_cons, ht, h.recent]
  parens := h.parens
  braces := h.braces

end Alike

/-- A token makes the same of books that are alike. -/
inductive EntersAlike : Except Problem Grouping → Except Problem Grouping → Prop
  | ok {g g' : Grouping} : Alike g g' → EntersAlike (.ok g) (.ok g')
  | error {p q : Problem} : Cause.Alike p.cause q.cause → EntersAlike (.error p) (.error q)

theorem enter_alike {g g' : Grouping} {line line' : UInt32} (h : Alike g g') (k : Kind)
    (hline : k = .symbol .openCurly → Alike.Agree g g' line line') (start start' : Nat) :
    EntersAlike (g.enter k line start) (g'.enter k line' start') := by
  rw [enter.eq_def, enter.eq_def]
  split
  · have hbooks : Alike { g with parens := parenRole g.recent :: g.parens }
        { g' with parens := parenRole g'.recent :: g'.parens } :=
      ⟨h.recent, by rw [h.parenRole, h.parens], h.braces⟩
    exact .ok (hbooks.remember (by rw [Trace.sign, Trace.sign, h.parenRole]))
  · have hbooks : Alike { g with braces := g.braceRole line :: g.braces }
        { g' with braces := g'.braceRole line' :: g'.braces } :=
      ⟨h.recent, h.parens, by rw [h.braceRole (hline rfl), h.braces]⟩
    exact .ok (hbooks.remember (by rw [Trace.sign, Trace.sign, h.braceRole (hline rfl)]))
  · rw [h.parens]
    split
    · exact .error (.unbalanced _ _ _)
    · next role parens _ =>
      have hbooks : Alike { g with parens := parens } { g' with parens := parens } :=
        ⟨h.recent, rfl, h.braces⟩
      exact .ok (hbooks.remember rfl)
  · rw [h.braces]
    split
    · exact .error (.unbalanced _ _ _)
    · next role braces _ =>
      have hbooks : Alike { g with braces := braces } { g' with braces := braces } :=
        ⟨h.recent, h.parens, rfl⟩
      exact .ok (hbooks.remember rfl)
  · exact .ok (h.remember rfl)

end Grouping

/-! ## Streams -/

namespace LexemeReader

variable {S : Cursor → Cursor → Prop} {T : List Char → List Char → Prop} {r r' : LexemeReader}
  {k : Kind}

/-- The grammar does not see trivia. -/
theorem isTrivia_nextSignificant (h : r.nextSignificant = (.ok k, r')) : k.isTrivia = false := by
  fun_induction nextSignificant r with
  | case1 => simp at h
  | case2 r k₁ r₁ h₁ ht ih => exact ih h
  | case3 r k₁ r₁ h₁ ht =>
    obtain rfl := Except.ok.inj (Prod.mk.inj h).1
    simpa using ht

/-- Two readers read alike up to the next token, if they do so up to the next lexeme, or up
    to a line end that may be one to the first reader only. -/
theorem nextSignificant_alike {W : LexemeReader → LexemeReader → Prop}
    (step : ∀ {r r'}, W r r' → ReadAlike S T r.next r'.next ∨ ∃ r₁ r₁',
      r.next = (.ok .lineEnd, r₁) ∧ r'.nextSignificant = r₁'.nextSignificant ∧ W r₁ r₁')
    (comment : ∀ {k r r'}, Alike S T k r r' → k.isTrivia → W r r') (h : W r r') :
    ReadAlike S T r.nextSignificant r'.nextSignificant := by
  have hstep := step h
  fun_induction nextSignificant r generalizing r' with
  | case1 r p r₁ hn =>
    rw [hn] at hstep
    rcases hstep with hread | ⟨_, _, hline, -⟩
    · rcases hn' : r'.next with ⟨y, r₁'⟩
      rw [hn'] at hread
      cases hread with
      | error hc =>
        rw [nextSignificant_of_problem hn']
        exact .error hc
    · simp at hline
  | case2 r k r₁ hn ht ih =>
    rw [hn] at hstep
    rcases hstep with hread | ⟨r₂, r₂', hline, hsame, hW⟩
    · rcases hn' : r'.next with ⟨y, r₁'⟩
      rw [hn'] at hread
      cases hread with
      | ok halike =>
        have hW := comment halike ht
        rw [nextSignificant_of_next hn', if_pos ht]
        exact ih hW (step hW)
    · obtain rfl := (Prod.mk.inj hline).2
      rw [hsame]
      exact ih hW (step hW)
  | case3 r k r₁ hn ht =>
    rw [hn] at hstep
    rcases hstep with hread | ⟨_, _, hline, -⟩
    · rcases hn' : r'.next with ⟨y, r₁'⟩
      rw [hn'] at hread
      cases hread with
      | ok halike =>
        rw [nextSignificant_of_next hn', if_neg ht]
        exact .ok halike
    · obtain rfl := Except.ok.inj (Prod.mk.inj hline).1
      exact absurd rfl ht

end LexemeReader

namespace TokenStream

variable {f : String → String} {s s' : TokenStream} {r r' : LexemeReader} {k : Kind}
  {S : Cursor → Cursor → Prop} {T : List Char → List Char → Prop}

/-- Where readers read alike, so do streams whose books are alike. -/
theorem read_alike (hM : ∀ v, Lexeme.Respected S T v) (hbooks : s.grouping.Alike s'.grouping)
    (h : LexemeReader.ReadAlike S T s.reader.nextSignificant s'.reader.nextSignificant) :
    LexemeReader.ReadAlike S T s.read s'.read := by
  rcases hn : s.reader.nextSignificant with ⟨x, r⟩
  rcases hn' : s'.reader.nextSignificant with ⟨y, r'⟩
  rw [hn, hn'] at h
  cases h with
  | error hc =>
    simp only [read, hn, hn']
    exact .error hc
  | @ok k _ _ halike =>
    have hopens : s'.opensRegExp k = s.opensRegExp k := by
      rw [opensRegExp, opensRegExp, hbooks.slashOpensRegExp]
    simp only [read, hn, hn', hopens]
    split
    · next hslash =>
      -- The slash opens a regular expression, whose rest is read alike.
      have hk : k ≠ .endOfInput := by
        rintro rfl
        simp [opensRegExp] at hslash
      have hrest := LexemeReader.readRegExp_alike (hM r.version) halike hk
        (k = .symbol .slashEquals)
      generalize r.readRegExp (k = .symbol .slashEquals) = x at hrest ⊢
      generalize r'.readRegExp (k = .symbol .slashEquals) = y at hrest ⊢
      rcases x with ⟨p | u, r₁⟩ <;> rcases y with ⟨q | u', r₁'⟩ <;> exact hrest
    · exact .ok halike

/-- The stream stands in the middle of a line, on which the last token ended. -/
structure OnLine (s : TokenStream) : Prop where
  line {t : Trace} : s.grouping.last? = some t → t.line = s.reader.line
  onLine {t : Trace} : s.grouping.last? = some t → s.reader.cursor.place.OnLine

theorem OnLine.of_enter {g g' : Grouping} {r : LexemeReader} {k : Kind} {start : Nat}
    (h : g.enter k r.line start = .ok g') (hr : r.cursor.place.OnLine) : OnLine ⟨r, g'⟩ := by
  obtain ⟨trace, hlast, -, hline⟩ := Grouping.last?_enter h
  refine ⟨fun ht => ?_, fun _ => hr⟩
  obtain rfl := Option.some.inj (hlast.symm.trans ht)
  exact hline

theorem OnLine.ofSource (source : List Char) (v : Version) : OnLine (.ofSource source v) where
  line ht := nomatch ht
  onLine ht := nomatch ht

variable (f) (R : TokenStream → TokenStream → Prop) in
/-- Two steps tell the same token and leave related streams, unless the scripts end, or
    they meet problems with the same cause. -/
inductive StepsAlike :
    Except Problem Token × TokenStream → Except Problem Token × TokenStream → Prop
  | ok {t t' : Token} {s s' : TokenStream} : t'.tells f = t.tells f →
    s'.isBalanced = s.isBalanced → (t.kind ≠ .endOfInput → R s s') →
      StepsAlike (.ok t, s) (.ok t', s')
  | error {p q : Problem} {s s' : TokenStream} : Cause.Alike p.cause q.cause →
    StepsAlike (.error p, s) (.error q, s')

/-- Tokens that are read alike tell the same. -/
theorem token_alike (hr : LexemeReader.Alike S T k r r') (hk : k.isTrivia = false)
    (hT : k.isSpelled → T r.lexeme r'.lexeme →
      f (String.ofList r'.lexeme) = f (String.ofList r.lexeme)) :
    (token r' k).tells f = (token r k).tells f := by
  rw [token, token, Token.tells, Token.tells, hr.value]
  split
  · rfl
  · next hvalue =>
    have hs : k.isSpelled := by
      simpa [Kind.isSpelled, hk] using hvalue
    exact congrArg (Prod.mk k) (hT hs (hr.lexeme hs))

/-- No token is a trivium. -/
theorem isTrivia_read (h : s.read = (.ok k, r)) : k.isTrivia = false := by
  rcases read_ok h with ⟨hn, -⟩ | ⟨rfl, -⟩
  · exact LexemeReader.isTrivia_nextSignificant hn
  · rfl

/-- A step of two streams that meet problems with the same cause. -/
theorem next_alike_of_problem {R : TokenStream → TokenStream → Prop} {p q : Problem}
    (hread : s.read = (.error p, r)) (hread' : s'.read = (.error q, r'))
    (hc : q.cause = p.cause) : StepsAlike f R s.next s'.next := by
  rw [next_eq_read, next_eq_read, hread, hread']
  exact .error (hc ▸ .refl _)

/-- A step of two streams that read a token that tells the same. -/
theorem next_alike {R : TokenStream → TokenStream → Prop} (hread : s.read = (.ok k, r))
    (hread' : s'.read = (.ok k, r')) (htells : (token r' k).tells f = (token r k).tells f)
    (hbooks : s.grouping.Alike s'.grouping)
    (hline : k = .symbol .openCurly →
      Grouping.Alike.Agree s.grouping s'.grouping r.line r'.line)
    (hR : ∀ g g', s.grouping.enter k r.line r.opening.offset = .ok g →
      s'.grouping.enter k r'.line r'.opening.offset = .ok g' → g.Alike g' →
        k ≠ .endOfInput → R ⟨r, g⟩ ⟨r', g'⟩) :
    StepsAlike f R s.next s'.next := by
  have henter := Grouping.enter_alike hbooks k hline r.opening.offset r'.opening.offset
  rw [next_eq_read, next_eq_read, hread, hread']
  simp only [enter]
  cases hg : s.grouping.enter k r.line r.opening.offset <;>
    cases hg' : s'.grouping.enter k r'.line r'.opening.offset <;> rw [hg, hg'] at henter
  · cases henter with
    | error h => exact .error h
  · cases henter
  · cases henter
  · cases henter with
    | ok h => exact .ok htells h.isBalanced fun hk => hR _ _ hg hg' h hk

/-- If the steps of related streams tell the same, so do the streams in the end. -/
theorem tokens_alike {R : TokenStream → TokenStream → Prop}
    (step : ∀ {s s'}, R s s' → StepsAlike f R s.next s'.next) (h : R s s') :
    SameTokens f s.tokens s'.tokens := by
  have hstep := step h
  rcases hn' : s'.next with ⟨y, s₁'⟩
  fun_induction tokens s generalizing s' y s₁' with
  | case1 s p s₁ hn =>
    rw [hn, hn'] at hstep
    cases hstep with
    | error hc =>
      rw [tokens_of_problem hn']
      exact .error hc
  | case2 s t s₁ hn ht hb =>
    rw [hn, hn'] at hstep
    cases hstep with
    | @ok _ t' _ _ htells hbalanced hR =>
      have hkind : t'.kind = t.kind := congrArg Prod.fst htells
      rw [tokens_of_token hn', hkind, if_pos ht, hbalanced, if_pos hb]
      exact .ok (by rw [List.map_singleton, List.map_singleton, htells])
  | case3 s t s₁ hn ht hb =>
    rw [hn, hn'] at hstep
    cases hstep with
    | @ok _ t' _ _ htells hbalanced hR =>
      have hkind : t'.kind = t.kind := congrArg Prod.fst htells
      rw [tokens_of_token hn', hkind, if_pos ht, hbalanced, if_neg hb]
      exact .error (.unbalanced _ _ _)
  | case4 s t s₁ hn ht ih =>
    rw [hn, hn'] at hstep
    cases hstep with
    | @ok _ t' _ _ htells hbalanced hR =>
      have hkind : t'.kind = t.kind := congrArg Prod.fst htells
      have hrest := ih (hR ht) (step (hR ht)) _ _ rfl
      rw [tokens_of_token hn', hkind, if_neg ht]
      generalize s₁.tokens = x at hrest ⊢
      generalize s₁'.tokens = y at hrest ⊢
      cases hrest with
      | error hc => exact .error hc
      | ok hmap => exact .ok (by rw [List.map_cons, List.map_cons, htells, hmap])

end TokenStream

end ScriptExcerpt
