import ScriptExcerpt.Proofs.Token.Calls

/-!
# Histories of tokens

A stream that reads on gives a history of tokens (`TokenStream.Reads`). The
books that it keeps count the brackets of its history:

* `Grouping.depth_enter`: what one token adds to the count;
* `Grows.isBalanced_iff`: what the count tells of the balance;
* `Reads.depth`: what a whole history adds;
* `Reads.isBalanced_iff`: no bracket is open exactly if the history is
  `Balanced`, as many brackets of either form being closed as opened;
* `Reads.ahead`: no bracket is closed that was not opened.
-/

namespace ScriptExcerpt

open Text

/-! ## Counting brackets -/

/-- As many parentheses are closed as opened, and as many braces. -/
def Balanced (ks : List Kind) : Prop :=
  ks.count (.symbol .openParen) = ks.count (.symbol .closeParen) ∧
    ks.count (.symbol .openCurly) = ks.count (.symbol .closeCurly)

instance (ks : List Kind) : Decidable (Balanced ks) := inferInstanceAs (Decidable (_ ∧ _))

/-- No more brackets of either form are closed than opened. -/
def Ahead (ks : List Kind) : Prop :=
  ks.count (.symbol .closeParen) ≤ ks.count (.symbol .openParen) ∧
    ks.count (.symbol .closeCurly) ≤ ks.count (.symbol .openCurly)

/-- The counts of open brackets `parens` and `braces` grow, by the brackets
    among `ks`, to `parens'` and `braces'`. -/
def Grows (ks : List Kind) (parens braces parens' braces' : Nat) : Prop :=
  parens' + ks.count (.symbol .closeParen) = parens + ks.count (.symbol .openParen) ∧
    braces' + ks.count (.symbol .closeCurly) = braces + ks.count (.symbol .openCurly)

theorem Grows.append {ks ls : List Kind} {p b p' b' p'' b'' : Nat} (h : Grows ks p b p' b')
    (h' : Grows ls p' b' p'' b'') : Grows (ks ++ ls) p b p'' b'' := by
  simp only [Grows, List.count_append] at h h' ⊢
  omega

/-- What is counted last may stand first: an order is not counted. -/
theorem Grows.cons {ks : List Kind} {k : Kind} {p b p' b' p'' b'' : Nat} (h : Grows ks p b p' b')
    (h' : Grows [k] p' b' p'' b'') : Grows (k :: ks) p b p'' b'' := by
  rw [← List.singleton_append]
  simp only [Grows, List.count_append] at h h' ⊢
  omega

/-- A token counts as nothing but what it is. -/
theorem count_singleton_of_ne {k l : Kind} (h : k ≠ l) : [k].count l = 0 :=
  List.count_eq_zero.2 fun hm => h (List.mem_singleton.1 hm).symm

namespace Grouping

variable {g g' : Grouping} {k : Kind} {line : UInt32} {start : Nat}

/-- A token that is entered counts as the bracket that it is. -/
theorem depth_enter (h : g.enter k line start = .ok g') :
    Grows [k] g.parens.length g.braces.length g'.parens.length g'.braces.length := by
  cases enter_eq_ok_iff.1 h with
  | openParen hk | openCurly hk => subst hk; exact ⟨rfl, rfl⟩
  | closeParen hk hopen | closeCurly hk hopen =>
    subst hk
    rw [hopen]
    exact ⟨rfl, rfl⟩
  | other h₁ h₂ h₃ h₄ =>
    -- Any other token leaves the counts alone.
    refine ⟨?_, ?_⟩
    · rw [count_singleton_of_ne h₁, count_singleton_of_ne h₃]
      rfl
    · rw [count_singleton_of_ne h₂, count_singleton_of_ne h₄]
      rfl

end Grouping

section Grows

variable {ks : List Kind} {g : Grouping} (h : Grows ks 0 0 g.parens.length g.braces.length)
include h

/-- No parenthesis is open if as many are closed as opened. -/
theorem Grows.parens_eq_nil_iff :
    g.parens = [] ↔ ks.count (.symbol .openParen) = ks.count (.symbol .closeParen) := by
  have hcount := h.1
  rw [← List.length_eq_zero_iff]
  omega

/-- No brace is open if as many are closed as opened. -/
theorem Grows.braces_eq_nil_iff :
    g.braces = [] ↔ ks.count (.symbol .openCurly) = ks.count (.symbol .closeCurly) := by
  have hcount := h.2
  rw [← List.length_eq_zero_iff]
  omega

theorem Grows.isBalanced_iff : g.isBalanced ↔ Balanced ks := by
  rw [Balanced, ← h.parens_eq_nil_iff, ← h.braces_eq_nil_iff]
  simp [Grouping.isBalanced]

end Grows

/-! ## Histories -/

namespace TokenStream

/-- Reading on from `s` gives the tokens `ts`, one after the other, and leaves
    `s'`. -/
inductive Reads : TokenStream → List Token → TokenStream → Prop
  | nil (s : TokenStream) : Reads s [] s
  | cons {s s₁ s' : TokenStream} {t : Token} {ts : List Token} :
    s.next = (.ok t, s₁) → Reads s₁ ts s' → Reads s (t :: ts) s'

namespace Reads

variable {s s₁ s' : TokenStream} {t : Token} {ts us : List Token}

theorem append (h : Reads s ts s₁) (h' : Reads s₁ us s') : Reads s (ts ++ us) s' := by
  induction h with
  | nil => exact h'
  | cons hn _ ih => exact .cons hn (ih h')

theorem snoc (h : Reads s ts s₁) (h' : s₁.next = (.ok t, s')) : Reads s (ts ++ [t]) s' :=
  h.append (.cons h' (.nil _))

/-- A history splits anywhere. -/
theorem split (h : Reads s (ts ++ us) s') : ∃ s₁, Reads s ts s₁ ∧ Reads s₁ us s' := by
  induction ts generalizing s with
  | nil => exact ⟨s, .nil s, h⟩
  | cons t ts ih =>
    cases h with
    | cons hn h =>
      obtain ⟨s₁, h₁, h₂⟩ := ih h
      exact ⟨s₁, .cons hn h₁, h₂⟩

theorem split_last (h : Reads s (ts ++ [t]) s') :
    ∃ s₁, Reads s ts s₁ ∧ s₁.next = (.ok t, s') := by
  obtain ⟨s₁, h₁, h₂⟩ := h.split
  cases h₂ with
  | cons hn h => cases h; exact ⟨s₁, h₁, hn⟩

/-- Reading on only moves on in the script. -/
theorem leads (h : Reads s ts s') : s.reader.cursor.Leads s'.reader.cursor := by
  induction h with
  | nil => exact .refl _
  | cons hn _ ih => exact ((leads_next hn).1.trans (leads_next hn).2).trans ih

/-- A history counts as the brackets in it. -/
theorem depth (h : Reads s ts s') :
    Grows (ts.map Token.kind) s.grouping.parens.length s.grouping.braces.length
      s'.grouping.parens.length s'.grouping.braces.length := by
  induction h with
  | nil => exact ⟨rfl, rfl⟩
  | cons hn _ ih =>
    obtain ⟨k, -, rfl, hg⟩ := next_ok hn
    exact (Grouping.depth_enter hg).append ih

/-- No bracket is open exactly if the history is balanced. -/
theorem isBalanced_iff (h : Reads s ts s') (hs : s.grouping = .empty) :
    s'.isBalanced ↔ Balanced (ts.map Token.kind) := by
  have hdepth := h.depth
  rw [hs] at hdepth
  exact hdepth.isBalanced_iff

/-- No bracket is closed that was not opened. -/
theorem ahead (h : Reads s ts s') (hs : s.grouping = .empty) : Ahead (ts.map Token.kind) := by
  obtain ⟨hp, hb⟩ := h.depth
  rw [hs] at hp hb
  simp only [Grouping.empty, List.length_nil] at hp hb
  rw [Ahead]
  omega

/-- Once the end of the script was told, nothing is left to read. -/
theorem rest_of_endOfInput (h : Reads s ts s') (ht : t ∈ ts) (hk : t.kind = .endOfInput) :
    s'.reader.cursor.rest = [] := by
  induction h with
  | nil => simp at ht
  | cons hn h ih =>
    rcases List.mem_cons.1 ht with rfl | ht
    · have hle := h.leads.length_le
      rw [(atEnd_of_next hn hk).1.rest] at hle
      exact List.length_eq_zero_iff.1 (Nat.le_zero.1 hle)
    · exact ih ht

/-- Before any other token the end of the script was not told. -/
theorem kind_ne_endOfInput (h : Reads s (ts ++ [t]) s') (ht : t.kind ≠ .endOfInput) :
    ∀ u ∈ ts, u.kind ≠ .endOfInput := by
  intro u hu hk
  obtain ⟨s₁, h₁, hn⟩ := h.split_last
  obtain ⟨t₂, s₂, hn₂, ht₂, -⟩ := next_of_rest_nil (h₁.rest_of_endOfInput hu hk)
  obtain rfl := Except.ok.inj (Prod.mk.inj (hn.symm.trans hn₂)).1
  exact ht ht₂

/-- Before a problem the end of the script was not told. -/
theorem kind_ne_endOfInput_of_problem {p : Problem} {s₂ : TokenStream} (h : Reads s ts s')
    (hp : s'.next = (.error p, s₂)) : ∀ u ∈ ts, u.kind ≠ .endOfInput := by
  intro u hu hk
  obtain ⟨t, s₃, hn, -⟩ := next_of_rest_nil (h.rest_of_endOfInput hu hk)
  simp [hn] at hp

/-- The end of a script that is read from some part on is told at its end. -/
theorem start_endOfInput {pre rest : List Char} {v : Version}
    (h : Reads (startingAt (pre ++ rest) (byteLength pre) v) (ts ++ [t]) s')
    (ht : t.kind = .endOfInput) : t.span.start = byteLength (pre ++ rest) := by
  obtain ⟨s₁, h₁, hn⟩ := h.split_last
  rw [span_of_endOfInput ((Cursor.standsIn_startingAt ..).leads h₁.leads) hn ht]

/-- Every token before a last one that is not the end of the script uses up some
    of it. -/
theorem length_lt (h : Reads s (ts ++ [t]) s') (ht : t.kind ≠ .endOfInput) :
    s'.reader.cursor.rest.length < s.reader.cursor.rest.length := by
  obtain ⟨s₁, h₁, hn⟩ := h.split_last
  exact Nat.lt_of_lt_of_le (length_next_lt hn ht) h₁.leads.length_le

/-- The text from the start of a history up to a closing bracket. -/
theorem slice_eq {pre rest : List Char} {v : Version} {c : Char} (hc : Closer c t.kind)
    (h : Reads (startingAt (pre ++ rest) (byteLength pre) v) (ts ++ [t]) s') :
    rest = slice (byteLength pre) t.span.stop (pre ++ rest) ++ s'.reader.cursor.rest := by
  have hlead := h.leads
  obtain ⟨s₁, -, hn⟩ := h.split_last
  rw [startingAt, LexemeReader.startingAt, Cursor.startingAt_append] at hlead
  rw [(opening_of_next_closer hc hn).2]
  exact hlead.slice_eq

end Reads

/-! ## All tokens of a script -/

theorem tokens_of_token {s s' : TokenStream} {t : Token} (h : s.next = (.ok t, s')) :
    s.tokens =
      if t.kind = .endOfInput then
        if s'.isBalanced then .ok [t]
        else .error (.unbalanced "unclosed brackets at end of input" t.span.stop)
      else s'.tokens.map (t :: ·) := by
  rw [tokens]
  split
  · next he => simp [h] at he
  · next he =>
    obtain ⟨ht, rfl⟩ := Prod.mk.inj (h.symm.trans he)
    obtain rfl := Except.ok.inj ht
    split <;> rfl

/-- Behind a history that does not end the script, its tokens go on. -/
theorem Reads.tokens_append {s s' : TokenStream} {ts : List Token} (h : Reads s ts s')
    (he : ∀ u ∈ ts, u.kind ≠ .endOfInput) : s.tokens = s'.tokens.map (ts ++ ·) := by
  induction h with
  | nil s => cases s.tokens <;> rfl
  | @cons _ _ s' _ _ hnext _ ih =>
    obtain ⟨hu, hus⟩ := List.forall_mem_cons.1 he
    rw [tokens_of_token hnext, if_neg hu, ih hus]
    cases s'.tokens <;> rfl

/-- A history up to the end of the script gives all tokens, if they balance. -/
theorem Reads.tokens_eq {s s₁ s' : TokenStream} {t : Token} {ts : List Token} (h : Reads s ts s₁)
    (he : ∀ u ∈ ts, u.kind ≠ .endOfInput) (hn : s₁.next = (.ok t, s'))
    (ht : t.kind = .endOfInput) (hb : s'.isBalanced) : s.tokens = .ok (ts ++ [t]) := by
  rw [h.tokens_append he, tokens_of_token hn, if_pos ht, if_pos hb]
  rfl

/-! ## Histories can be checked -/

/-- Reading on from the stream gives the tokens. -/
def tells (s : TokenStream) : List Token → Bool
  | [] => true
  | t :: ts =>
    match s.next with
    | (.ok t', s') => t' = t && s'.tells ts
    | (.error _, _) => false

theorem tells_iff {s : TokenStream} {ts : List Token} : s.tells ts ↔ ∃ s', Reads s ts s' := by
  induction ts generalizing s with
  | nil => exact ⟨fun _ => ⟨s, .nil s⟩, fun _ => rfl⟩
  | cons t ts ih =>
    rw [tells]
    constructor
    · intro h
      split at h
      · next t' s₁ hn =>
        rw [Bool.and_eq_true, decide_eq_true_iff] at h
        obtain ⟨s', hr⟩ := ih.1 h.2
        exact ⟨s', .cons (h.1 ▸ hn) hr⟩
      · simp at h
    · rintro ⟨s', hr⟩
      cases hr with
      | cons hn hr =>
        rw [hn]
        simpa using ih.2 ⟨s', hr⟩

instance (s : TokenStream) (ts : List Token) : Decidable (∃ s', Reads s ts s') :=
  decidable_of_iff _ tells_iff

end TokenStream

end ScriptExcerpt
