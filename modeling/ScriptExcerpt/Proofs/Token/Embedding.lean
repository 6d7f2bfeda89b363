import ScriptExcerpt.Proofs.Token.History

/-!
# Histories in other scripts

What is read of a text that ends with a closing bracket does not depend on the
script that the text is part of. A stream is put in another script by
`TokenStream.embed`; up to the bracket, it then reads tokens of the same kinds.

* `TokenStream.next_embed`: a step that leaves the bracket unread.
* `TokenStream.next_embed_closer`: the step that reads it.
* `Reads.embed_closer`: a whole history that ends with the bracket.
-/

namespace ScriptExcerpt

open Text

variable {c : Char} {kc : Kind} {source tail : List Char} {d : Nat}

namespace LexemeReader

variable {r r' : LexemeReader} {k : Kind}

theorem nextSignificant_embed (hc : Closer c kc)
    (h : (r.embed source d (c :: tail)).nextSignificant = (.ok k, r'))
    (hr : (c :: tail).length ≤ r'.cursor.rest.length) :
    ∃ r₁ : LexemeReader, ∀ source' d' tail',
      (r.embed source' d' (c :: tail')).nextSignificant =
        (.ok k, r₁.embed source' d' (c :: tail')) := by
  generalize he : r.embed source d (c :: tail) = re at h
  fun_induction nextSignificant re generalizing r with
  | case1 => simp at h
  | case2 re k₁ r₁ h₁ ht ih =>
    -- What is left unread behind the token was unread behind the comment.
    have hunread : (c :: tail).length ≤ r₁.cursor.rest.length := by
      have hlead := leads_nextSignificant h
      exact Nat.le_trans hr (hlead.1.trans hlead.2).length_le
    subst he
    obtain ⟨r₂, h₂⟩ := next_embed hc h₁ hunread
    have he₂ : r₂.embed source d (c :: tail) = r₁ := (Prod.mk.inj ((h₂ _ _ _).symm.trans h₁)).2
    obtain ⟨r₃, h₃⟩ := ih he₂ h
    refine ⟨r₃, fun source' d' tail' => ?_⟩
    rw [nextSignificant_of_next (h₂ ..), if_pos ht, h₃]
  | case3 re k₁ r₁ h₁ ht =>
    subst he
    obtain ⟨hk, rfl⟩ := Prod.mk.inj h
    obtain rfl := Except.ok.inj hk
    obtain ⟨r₂, h₂⟩ := next_embed hc h₁ hr
    refine ⟨r₂, fun source' d' tail' => ?_⟩
    rw [nextSignificant_of_next (h₂ ..), if_neg ht]

theorem nextSignificant_embed_closer (hc : Closer c kc)
    (h : (r.embed source d (c :: tail)).nextSignificant = (.ok kc, r'))
    (ho : r'.opening.rest = c :: tail) :
    ∃ r₁ : LexemeReader, r₁.cursor.rest = [] ∧ ∀ source' d' tail',
      (r.embed source' d' (c :: tail')).nextSignificant = (.ok kc, r₁.embed source' d' tail') := by
  have hkc : kc.isTrivia = false := by cases hc <;> rfl
  generalize he : r.embed source d (c :: tail) = re at h
  fun_induction nextSignificant re generalizing r with
  | case1 => simp at h
  | case2 re k₁ r₁ h₁ ht ih =>
    -- The bracket is read behind the comment, so it is unread there.
    have hunread : (c :: tail).length ≤ r₁.cursor.rest.length :=
      ho ▸ (leads_nextSignificant h).1.length_le
    subst he
    obtain ⟨r₂, h₂⟩ := next_embed hc h₁ hunread
    have he₂ : r₂.embed source d (c :: tail) = r₁ := (Prod.mk.inj ((h₂ _ _ _).symm.trans h₁)).2
    obtain ⟨r₃, hr₃, h₃⟩ := ih he₂ h
    refine ⟨r₃, hr₃, fun source' d' tail' => ?_⟩
    rw [nextSignificant_of_next (h₂ ..), if_pos ht, h₃]
  | case3 re k₁ r₁ h₁ ht =>
    subst he
    obtain ⟨hk, rfl⟩ := Prod.mk.inj h
    obtain rfl := Except.ok.inj hk
    obtain ⟨r₂, hr₂, h₂⟩ := next_embed_closer hc h₁ ho
    refine ⟨r₂, hr₂, fun source' d' tail' => ?_⟩
    rw [nextSignificant_of_next (h₂ ..), if_neg ht]

end LexemeReader

/-- What a token adds to the books does not depend on where it starts. -/
theorem Grouping.enter_of_start {g g' : Grouping} {k : Kind} {line : UInt32} {start : Nat}
    (h : g.enter k line start = .ok g') (start' : Nat) : g.enter k line start' = .ok g' :=
  enter_eq_ok_iff.2 (enter_eq_ok_iff.1 h)

namespace TokenStream

variable {s s' : TokenStream} {r : LexemeReader} {k : Kind} {t : Token} {ts : List Token}

/-- The stream in the script `source` in which the text that `s` reads starts at
    the offset `d`, and is followed by `tail`. -/
def embed (source : List Char) (d : Nat) (tail : List Char) (s : TokenStream) : TokenStream :=
  ⟨s.reader.embed source d tail, s.grouping⟩

theorem read_embed (hc : Closer c kc) (h : (s.embed source d (c :: tail)).read = (.ok k, r))
    (hr : (c :: tail).length ≤ r.cursor.rest.length) :
    ∃ r₁ : LexemeReader, ∀ source' d' tail',
      (s.embed source' d' (c :: tail')).read = (.ok k, r₁.embed source' d' (c :: tail')) := by
  rcases read_ok h with ⟨hn, hk⟩ | ⟨rfl, k₁, r₁, hn, hk, hre⟩
  -- The token is a lexeme, or a slash and the rest of a regular expression.
  · obtain ⟨r₁, h₁⟩ := LexemeReader.nextSignificant_embed hc hn hr
    exact ⟨r₁, fun source' d' tail' => read_of_nextSignificant (h₁ ..) hk⟩
  · have hlead := r₁.leads_readRegExp (k₁ = .symbol .slashEquals)
    rw [hre] at hlead
    obtain ⟨r₂, h₂⟩ := LexemeReader.nextSignificant_embed hc hn (Nat.le_trans hr hlead.length_le)
    obtain rfl : r₂.embed source d (c :: tail) = r₁ :=
      (Prod.mk.inj ((h₂ ..).symm.trans hn)).2
    obtain ⟨r₃, h₃⟩ := LexemeReader.readRegExp_embed hc hre hr
    exact ⟨r₃, fun source' d' tail' => read_of_readRegExp (h₂ ..) hk (h₃ ..)⟩

theorem read_embed_closer (hc : Closer c kc)
    (h : (s.embed source d (c :: tail)).read = (.ok kc, r)) (ho : r.opening.rest = c :: tail) :
    ∃ r₁ : LexemeReader, r₁.cursor.rest = [] ∧ ∀ source' d' tail',
      (s.embed source' d' (c :: tail')).read = (.ok kc, r₁.embed source' d' tail') := by
  rcases read_ok h with ⟨hn, hk⟩ | ⟨rfl, -⟩
  · obtain ⟨r₁, hr₁, h₁⟩ := LexemeReader.nextSignificant_embed_closer hc hn ho
    exact ⟨r₁, hr₁, fun source' d' tail' => read_of_nextSignificant (h₁ ..) hk⟩
  · cases hc

/-- A step that leaves the bracket unread is taken the same in every script. -/
theorem next_embed (hc : Closer c kc) (h : (s.embed source d (c :: tail)).next = (.ok t, s'))
    (hr : (c :: tail).length ≤ s'.reader.cursor.rest.length) :
    ∃ s₁ : TokenStream, ∀ source' d' tail', ∃ t' : Token, t'.kind = t.kind ∧
      (s.embed source' d' (c :: tail')).next = (.ok t', s₁.embed source' d' (c :: tail')) := by
  obtain ⟨k, hread, rfl, hg⟩ := next_ok h
  obtain ⟨r₁, h₁⟩ := read_embed hc hread hr
  -- Behind the token, the lines are counted alike, so the books are kept alike.
  have he : r₁.embed source d (c :: tail) = s'.reader :=
    (Prod.mk.inj ((h₁ ..).symm.trans hread)).2
  refine ⟨⟨r₁, s'.grouping⟩, fun source' d' tail' =>
    ⟨token (r₁.embed source' d' (c :: tail')) k, rfl, next_of_read (h₁ ..) ?_⟩⟩
  rw [← he] at hg
  exact Grouping.enter_of_start hg _

/-- So is the step that reads the bracket. -/
theorem next_embed_closer (hc : Closer c t.kind)
    (h : (s.embed source d (c :: tail)).next = (.ok t, s'))
    (ho : s'.reader.opening.rest = c :: tail) :
    ∃ s₁ : TokenStream, s₁.reader.cursor.rest = [] ∧ ∀ source' d' tail', ∃ t' : Token,
      t'.kind = t.kind ∧
      (s.embed source' d' (c :: tail')).next = (.ok t', s₁.embed source' d' tail') := by
  obtain ⟨k, hread, rfl, hg⟩ := next_ok h
  obtain ⟨r₁, hr₁, h₁⟩ := read_embed_closer hc hread ho
  have he : r₁.embed source d tail = s'.reader :=
    (Prod.mk.inj ((h₁ ..).symm.trans hread)).2
  refine ⟨⟨r₁, s'.grouping⟩, hr₁, fun source' d' tail' =>
    ⟨token (r₁.embed source' d' tail') k, rfl, next_of_read (h₁ ..) ?_⟩⟩
  rw [← he] at hg
  exact Grouping.enter_of_start hg _

namespace Reads

/-- A history that leaves the bracket unread is read in every script. -/
theorem embed (hc : Closer c kc) (h : Reads (s.embed source d (c :: tail)) ts s')
    (hr : (c :: tail).length ≤ s'.reader.cursor.rest.length) :
    ∃ s₁ : TokenStream, s₁.embed source d (c :: tail) = s' ∧ ∀ source' d' tail',
      ∃ ts' : List Token, ts'.map Token.kind = ts.map Token.kind ∧
        Reads (s.embed source' d' (c :: tail')) ts' (s₁.embed source' d' (c :: tail')) := by
  generalize he : s.embed source d (c :: tail) = se at h
  induction h generalizing s with
  | nil => exact ⟨s, he, fun source' d' tail' => ⟨[], rfl, .nil _⟩⟩
  | cons hn h ih =>
    subst he
    obtain ⟨s₁, h₁⟩ := next_embed hc hn (Nat.le_trans hr h.leads.length_le)
    obtain ⟨t₁, ht₁, hn₁⟩ := h₁ source d tail
    obtain ⟨s₂, he₂, h₂⟩ := ih hr (Prod.mk.inj (hn₁.symm.trans hn)).2
    refine ⟨s₂, he₂, fun source' d' tail' => ?_⟩
    obtain ⟨t', ht', hn'⟩ := h₁ source' d' tail'
    obtain ⟨ts', hts', hr'⟩ := h₂ source' d' tail'
    exact ⟨t' :: ts', by rw [List.map_cons, ht', hts', List.map_cons], .cons hn' hr'⟩

/-- A history that ends with the bracket is read in every script. -/
theorem embed_closer (hc : Closer c t.kind)
    (h : Reads (s.embed source d (c :: tail)) (ts ++ [t]) s') (hs' : s'.reader.cursor.rest = tail) :
    ∃ s₁ : TokenStream, s₁.reader.cursor.rest = [] ∧ ∀ source' d' tail',
      ∃ (ts' : List Token) (t' : Token), t'.kind = t.kind ∧
        (ts' ++ [t']).map Token.kind = (ts ++ [t]).map Token.kind ∧
        Reads (s.embed source' d' (c :: tail')) (ts' ++ [t']) (s₁.embed source' d' tail') := by
  -- The bracket is left unread by all tokens but the last.
  obtain ⟨s₀, h₀, hn⟩ := h.split_last
  have ho := (opening_of_next_closer hc hn).1
  rw [hs'] at ho
  obtain ⟨s₁, rfl, h₁⟩ := h₀.embed hc (ho ▸ (leads_next hn).1.length_le)
  obtain ⟨s₂, hs₂, h₂⟩ := next_embed_closer hc hn ho
  refine ⟨s₂, hs₂, fun source' d' tail' => ?_⟩
  obtain ⟨ts', hts', hr'⟩ := h₁ source' d' tail'
  obtain ⟨t', ht', hn'⟩ := h₂ source' d' tail'
  exact ⟨ts', t', ht', by simp [hts', ht'], hr'.snoc hn'⟩

end Reads

end TokenStream

end ScriptExcerpt
