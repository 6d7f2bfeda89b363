import ScriptExcerpt.Proofs.Excerpt.Closing

/-!
# Excerpts of functions

Behind an anchor such as `f=function` stand the parameters of a function, in
parentheses, and its body, in braces. Where these are properly nested
(`Nested`), the excerpt is the whole function, unless there is a brace among
the parameters: the search does not tell the braces of a default value or of a
pattern from those of the body.

* `Nested.ahead_of_prefix`, `Nested.balanced`: what counting tells of brackets
  that are properly nested.
* `firstCloses_function`, `firstCloses_parameters`: the first token that closes
  is the brace behind the body or, if a brace is among the parameters, the
  parenthesis behind them.
* `excerpt_eq_function_iff`: when the excerpt is the whole function.
-/

namespace ScriptExcerpt

open Text

/-! ## Proper nesting -/

/-- The kind is that of a parenthesis or a brace. -/
def Kind.isGrouping : Kind → Bool
  | .symbol .openParen | .symbol .closeParen | .symbol .openCurly | .symbol .closeCurly => true
  | _ => false

/-- The kinds are an opening bracket and the closing one of its form. -/
inductive Pair : Kind → Kind → Prop
  | parens : Pair (.symbol .openParen) (.symbol .closeParen)
  | braces : Pair (.symbol .openCurly) (.symbol .closeCurly)

/-- Parentheses and braces are properly nested. -/
inductive Nested : List Kind → Prop
  | nil : Nested []
  | other {k : Kind} {ks : List Kind} : k.isGrouping = false → Nested ks → Nested (k :: ks)
  | pair {o c : Kind} {inner ks : List Kind} : Pair o c → Nested inner → Nested ks →
    Nested (o :: inner ++ c :: ks)

variable {js ks ls inner : List Kind} {k o c : Kind}

/-- A prefix ends in the first part of a text or in the second. -/
theorem prefix_append_cases (h : js <+: ks ++ ls) :
    js <+: ks ∨ ∃ is, js = ks ++ is ∧ is <+: ls := by
  obtain ⟨ms, hms⟩ := h
  rcases List.append_eq_append_iff.1 hms with ⟨is, hks, -⟩ | ⟨is, hjs, hls⟩
  · exact .inl ⟨is, hks.symm⟩
  · exact .inr ⟨is, hjs, ms, hls.symm⟩

/-- A token that is no bracket does not count. -/
theorem count_cons_of_not_isGrouping (hk : k.isGrouping = false) (ks : List Kind) :
    (k :: ks).count (.symbol .openParen) = ks.count (.symbol .openParen) ∧
      (k :: ks).count (.symbol .closeParen) = ks.count (.symbol .closeParen) ∧
      (k :: ks).count (.symbol .openCurly) = ks.count (.symbol .openCurly) ∧
      (k :: ks).count (.symbol .closeCurly) = ks.count (.symbol .closeCurly) := by
  refine ⟨?_, ?_, ?_, ?_⟩ <;>
  · refine List.count_cons_of_ne fun h => ?_
    simp [h, Kind.isGrouping] at hk

namespace Nested

/-- As many brackets are closed as opened. -/
theorem balanced (h : Nested ks) : Balanced ks := by
  induction h with
  | nil => exact ⟨rfl, rfl⟩
  | other hk _ ih =>
    have hc := count_cons_of_not_isGrouping hk
    simpa only [Balanced, hc] using ih
  | pair hp _ _ ihi ihk =>
    rw [Balanced] at ihi ihk
    cases hp <;>
    · simp [Balanced]
      omega

/-- Up to any token, no bracket is closed that was not opened. -/
theorem ahead_of_prefix (h : Nested ks) (hj : js <+: ks) : Ahead js := by
  have hnil : Ahead [] := ⟨Nat.le_refl _, Nat.le_refl _⟩
  induction h generalizing js with
  | nil => rwa [List.prefix_nil.1 hj]
  | other hk _ ih =>
    rcases List.prefix_cons_iff.1 hj with rfl | ⟨is, rfl, his⟩
    · exact hnil
    · have hc := count_cons_of_not_isGrouping hk
      simpa only [Ahead, hc] using ih his
  | pair hp hi _ ihi ihk =>
    rcases List.prefix_cons_iff.1 hj with rfl | ⟨is, rfl, his⟩
    · exact hnil
    · -- The prefix ends inside the pair, or right before its end, or behind it.
      rcases prefix_append_cases his with his | ⟨ls, rfl, hls⟩
      · obtain ⟨hap, hab⟩ := ihi his
        cases hp <;>
        · simp [Ahead]
          omega
      · obtain ⟨hbp, hbb⟩ := hi.balanced
        rcases List.prefix_cons_iff.1 hls with rfl | ⟨ms, rfl, hms⟩
        · cases hp <;>
          · simp [Ahead]
            omega
        · obtain ⟨hap, hab⟩ := ihk hms
          cases hp <;>
          · simp [Ahead]
            omega

/-- Tokens among which there is no bracket are properly nested. -/
theorem of_not_isGrouping (h : ∀ k ∈ ks, k.isGrouping = false) : Nested ks := by
  induction ks with
  | nil => exact .nil
  | cons k ks ih =>
    obtain ⟨hk, hks⟩ := List.forall_mem_cons.1 h
    exact .other hk (ih hks)

/-- Brackets stay properly nested when others follow that are. -/
theorem append (h : Nested ks) (hl : Nested ls) : Nested (ks ++ ls) := by
  induction h with
  | nil => exact hl
  | other hk _ ih => exact .other hk ih
  | pair hp hi _ _ ihk =>
    rw [List.append_assoc, List.cons_append]
    exact .pair hp hi ihk

/-- What is properly nested may stand between two brackets. -/
theorem enclosed (hp : Pair o c) (hi : Nested inner) : Nested (o :: inner ++ [c]) :=
  .pair hp hi .nil

end Nested

/-! ## Where a function closes -/

/-- No prefix closes in which no brace is opened. -/
theorem neverCloses_of_not_mem (h : .symbol .openCurly ∉ ks) : NeverCloses ks :=
  fun _ hjs hc => h (hjs.subset (List.dropLast_subset _ hc.1))

variable {ps bs : List Kind}

/-- Without a brace among the parameters, a function closes with its body. -/
theorem firstCloses_function (hp : Nested ps) (hb : Nested bs) (hm : .symbol .openCurly ∉ ps) :
    FirstCloses (.symbol .openParen :: ps ++ [.symbol .closeParen] ++ .symbol .openCurly :: bs ++
      [.symbol .closeCurly]) := by
  obtain ⟨hpp, hpb⟩ := hp.balanced
  refine firstCloses_concat.2 ⟨fun js hjs hc => ?_, closes_concat.2 ⟨by simp, ?_⟩⟩
  · have hhead : .symbol .openCurly ∉ .symbol .openParen :: ps ++ [.symbol .closeParen] := by
      simp [hm]
    rcases prefix_append_cases hjs with hjs | ⟨is, rfl, his⟩
    · exact neverCloses_of_not_mem hhead _ hjs hc
    · rcases List.prefix_cons_iff.1 his with rfl | ⟨ms, rfl, hms⟩
      · rw [List.append_nil] at hc
        exact neverCloses_of_not_mem hhead _ (List.prefix_refl _) hc
      · -- Inside the body, its opening brace is still to be closed.
        obtain ⟨-, hab⟩ := hb.ahead_of_prefix hms
        have hbal := hc.2.2
        simp at hbal
        omega
  · obtain ⟨hbp, hbb⟩ := hb.balanced
    simp [Balanced]
    omega

/-- With a brace among the parameters, a function closes with these. -/
theorem firstCloses_parameters (hp : Nested ps) (hm : .symbol .openCurly ∈ ps) :
    FirstCloses (.symbol .openParen :: ps ++ [.symbol .closeParen]) := by
  refine firstCloses_concat.2 ⟨fun js hjs hc => ?_, closes_concat.2 ⟨by simp [hm], ?_⟩⟩
  · rcases List.prefix_cons_iff.1 hjs with rfl | ⟨is, rfl, his⟩
    · exact List.not_mem_nil hc.1
    · -- Among the parameters, their opening parenthesis is still to be closed.
      obtain ⟨hap, -⟩ := hp.ahead_of_prefix his
      have hbal := hc.2.1
      simp at hbal
      omega
  · obtain ⟨hpp, hpb⟩ := hp.balanced
    simp [Balanced]
    omega

/-! ## Excerpts -/

/-- Behind the first occurrence of the anchor, let the tokens be those of a
    function: parameters in parentheses and a body in braces, the brackets in
    both properly nested. Then the excerpt is the whole function exactly if
    there is no brace among the parameters; otherwise it is only these. -/
theorem excerpt_eq_function_iff {v : Version} {source anchor before : List Char}
    (hocc : FirstOccurrence anchor source before)
    {head body : List Token} {c c' : Token} {s' : TokenStream}
    (hr : (TokenStream.startingAt source (byteLength (before ++ anchor)) v).Reads
      (head ++ [c] ++ body ++ [c']) s')
    (hhead : head.map Token.kind = .symbol .openParen :: ps) (hp : Nested ps)
    (hc : c.kind = .symbol .closeParen)
    (hbody : body.map Token.kind = .symbol .openCurly :: bs) (hb : Nested bs)
    (hc' : c'.kind = .symbol .closeCurly) :
    (excerpt v source anchor = .ok (slice (byteLength (before ++ anchor)) c'.span.stop source) ↔
        .symbol .openCurly ∉ ps) ∧
      (.symbol .openCurly ∈ ps → excerpt v source anchor =
        .ok (slice (byteLength (before ++ anchor)) c.span.stop source)) := by
  have hparams (hm : .symbol .openCurly ∈ ps) : ∃ s₁,
      (TokenStream.startingAt source (byteLength (before ++ anchor)) v).Reads (head ++ [c]) s₁ ∧
        s₁.Reads (body ++ [c']) s' ∧ excerpt v source anchor =
          .ok (slice (byteLength (before ++ anchor)) c.span.stop source) := by
    rw [List.append_assoc] at hr
    obtain ⟨s₁, h₁, h₂⟩ := hr.split
    refine ⟨s₁, h₁, h₂, excerpt_of_firstCloses hocc h₁ ?_⟩
    rw [List.map_append, hhead, List.map_singleton, hc]
    exact firstCloses_parameters hp hm
  -- What is found is different with a brace among the parameters and without.
  refine ⟨⟨fun hok hm => ?_, fun hm => ?_⟩, fun hm => ?_⟩
  · -- The parameters end before the function does, so their text is another.
    obtain ⟨s₁, h₁, h₂, he⟩ := hparams hm
    have heq := Except.ok.inj (he.symm.trans hok)
    have hlt := h₂.length_lt (by simp [hc'])
    have hparen : Closer ')' c.kind := hc ▸ .paren
    have hcurly : Closer '}' c'.kind := hc' ▸ .curly
    obtain ⟨rest, rfl⟩ := hocc.1
    have hs₁ := h₁.slice_eq hparen
    have hs' := hr.slice_eq hcurly
    rw [heq] at hs₁
    rw [List.append_cancel_left (hs₁.symm.trans hs')] at hlt
    exact Nat.lt_irrefl _ hlt
  · refine excerpt_of_firstCloses hocc hr ?_
    simp only [List.map_append, hhead, hbody, List.map_singleton, hc, hc']
    exact firstCloses_function hp hb hm
  · obtain ⟨-, -, -, he⟩ := hparams hm
    exact he

/-- A function with a parameter and an empty body is its own excerpt. -/
theorem excerpt_function_of_plain_parameter :
    excerpt .legacy "f(a)\x7b\x7d".toList "f".toList = .ok "(a)\x7b\x7d".toList := by
  have hocc : FirstOccurrence "f".toList "f(a)\x7b\x7d".toList [] :=
    before?_eq_some_iff.1 (by decide)
  obtain ⟨s', hr⟩ : ∃ s', (TokenStream.startingAt "f(a)\x7b\x7d".toList 1 .legacy).Reads
      ([⟨.symbol .openParen, "(", ⟨1, 2⟩⟩, ⟨.identifier, "a", ⟨2, 3⟩⟩] ++
        [⟨.symbol .closeParen, ")", ⟨3, 4⟩⟩] ++ [⟨.symbol .openCurly, "\x7b", ⟨4, 5⟩⟩] ++
        [⟨.symbol .closeCurly, "\x7d", ⟨5, 6⟩⟩]) s' := by
    decide +kernel
  exact (excerpt_eq_function_iff hocc hr rfl (.other rfl .nil) rfl rfl .nil rfl).1.2 (by decide)

/-- Where a parameter has braces of its own, the excerpt lacks the body. -/
theorem excerpt_function_of_braced_parameter :
    let source := "f=function(a=\x7b\x7d)\x7breturn 1\x7d".toList
    let anchor := "f=function".toList
    FirstOccurrence anchor source [] ∧
    ∃ (head body : List Token) (c c' : Token) (s' : TokenStream) (ps bs : List Kind),
      (TokenStream.startingAt source (byteLength ([] ++ anchor)) .legacy).Reads
        (head ++ [c] ++ body ++ [c']) s' ∧
      head.map Token.kind = .symbol .openParen :: ps ∧ Nested ps ∧
      c.kind = .symbol .closeParen ∧
      body.map Token.kind = .symbol .openCurly :: bs ∧ Nested bs ∧
      c'.kind = .symbol .closeCurly ∧
      excerpt .legacy source anchor ≠
        .ok (slice (byteLength ([] ++ anchor)) c'.span.stop source) := by
  intro source anchor
  obtain ⟨s', hr⟩ : ∃ s',
      (TokenStream.startingAt source (byteLength ([] ++ anchor)) .legacy).Reads
        ([⟨.symbol .openParen, "(", ⟨10, 11⟩⟩, ⟨.identifier, "a", ⟨11, 12⟩⟩,
            ⟨.symbol .assignment, "=", ⟨12, 13⟩⟩, ⟨.symbol .openCurly, "\x7b", ⟨13, 14⟩⟩,
            ⟨.symbol .closeCurly, "\x7d", ⟨14, 15⟩⟩] ++
          [⟨.symbol .closeParen, ")", ⟨15, 16⟩⟩] ++
          [⟨.symbol .openCurly, "\x7b", ⟨16, 17⟩⟩, ⟨.keyword .return, "return", ⟨17, 23⟩⟩,
            ⟨.number, "1", ⟨24, 25⟩⟩] ++
          [⟨.symbol .closeCurly, "\x7d", ⟨25, 26⟩⟩]) s' := by
    decide +kernel
  refine ⟨before?_eq_some_iff.1 (by decide), _, _, _, _, s', _, _, hr, rfl,
    .other rfl (.other rfl (.pair .braces .nil .nil)), rfl, rfl,
    .other rfl (.other rfl .nil), rfl, ?_⟩
  intro h
  -- The excerpt ends behind the parameters.
  have hex : (excerpt .legacy source anchor).toOption = some "(a=\x7b\x7d)".toList := by
    decide +kernel
  rw [h] at hex
  exact absurd hex (by decide)

end ScriptExcerpt
