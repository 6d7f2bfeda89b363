import ScriptExcerpt.Excerpt
import ScriptExcerpt.Proofs.Token.History

/-!
# Where an excerpt ends

An excerpt ends with the first token at which, a brace having been opened before
it, as many brackets of either form are closed as opened (`FirstCloses`).

* `Reads.closer`: such a token is a closing parenthesis or brace.
* `Reads.closing_eq`: the search passes over histories that do not close.
* `history_cases`: reading on, a history closes, or a token cannot be read
  before, or the script ends before.
* `excerpt_ok_iff`, `excerpt_error_iff`: what an excerpt is in each of these
  cases; `excerpt_iff_counts` puts them together.
-/

namespace ScriptExcerpt

open Text

/-! ## Closing histories -/

/-- A brace was opened before the last of the tokens, and with it the tokens are
    balanced. -/
def Closes (ks : List Kind) : Prop :=
  .symbol .openCurly ∈ ks.dropLast ∧ Balanced ks

/-- The tokens close, and fewer of them do not. -/
def FirstCloses (ks : List Kind) : Prop :=
  Closes ks ∧ ∀ js, js <+: ks → Closes js → js = ks

/-- Neither the tokens nor fewer of them close. -/
def NeverCloses (ks : List Kind) : Prop :=
  ∀ js, js <+: ks → ¬ Closes js

variable {ks : List Kind} {k : Kind}

theorem closes_concat : Closes (ks ++ [k]) ↔ .symbol .openCurly ∈ ks ∧ Balanced (ks ++ [k]) := by
  rw [Closes, List.dropLast_concat]

theorem neverCloses_nil : NeverCloses [] := by
  intro js hjs h
  rw [List.prefix_nil.1 hjs] at h
  exact List.not_mem_nil h.1

theorem neverCloses_concat (h : NeverCloses ks) (hk : ¬ Closes (ks ++ [k])) :
    NeverCloses (ks ++ [k]) := by
  intro js hjs
  rcases List.prefix_concat_iff.1 hjs with rfl | hjs
  · exact hk
  · exact h js hjs

theorem firstCloses_concat : FirstCloses (ks ++ [k]) ↔ NeverCloses ks ∧ Closes (ks ++ [k]) := by
  constructor
  · rintro ⟨hc, hmin⟩
    refine ⟨fun js hjs hcl => ?_, hc⟩
    have heq := hmin js (hjs.trans (List.prefix_append _ _)) hcl
    have hle := hjs.length_le
    rw [heq, List.length_append] at hle
    exact absurd hle (by simp)
  · rintro ⟨hn, hc⟩
    refine ⟨hc, fun js hjs hcl => ?_⟩
    rcases List.prefix_concat_iff.1 hjs with rfl | hjs
    · rfl
    · exact absurd hcl (hn js hjs)

namespace TokenStream

variable {s s₁ s₂ s' : TokenStream} {t : Token} {ts us : List Token} {p : Problem}

/-! ## What the last token of a closing history is -/

/-- No balance ends with an opening bracket. -/
theorem Reads.kind_ne_open (h : Reads s ts s₁) (hs : s.grouping = .empty)
    (hb : Balanced (ts.map Token.kind ++ [t.kind])) :
    t.kind ≠ .symbol .openCurly ∧ t.kind ≠ .symbol .openParen := by
  obtain ⟨hparen, hcurly⟩ := h.ahead hs
  constructor <;>
  · intro ht
    rw [ht, Balanced, List.count_append, List.count_append, List.count_append,
      List.count_append] at hb
    simp at hb
    omega

/-- A balance in which a brace was opened closes: its last token opens none. -/
theorem Reads.closes (h : Reads s ts s') (hs : s.grouping = .empty)
    (ho : .symbol .openCurly ∈ ts.map Token.kind) (hb : Balanced (ts.map Token.kind)) :
    Closes (ts.map Token.kind) := by
  rcases List.eq_nil_or_concat ts with rfl | ⟨us, t, rfl⟩
  · simp at ho
  · rw [List.concat_eq_append] at h ho hb ⊢
    obtain ⟨s₁, h₁, -⟩ := h.split_last
    rw [List.map_append] at ho hb ⊢
    -- The brace is not the last token, which would leave it open.
    refine closes_concat.2 ⟨?_, hb⟩
    rcases List.mem_append.1 ho with ho | ho
    · exact ho
    · exact absurd (List.mem_singleton.1 ho).symm (h₁.kind_ne_open hs hb).1

/-- The first token that closes is a closing parenthesis or brace. -/
theorem Reads.closer (h : Reads s (ts ++ [t]) s') (hs : s.grouping = .empty)
    (hc : FirstCloses ((ts ++ [t]).map Token.kind)) :
    t.kind = .symbol .closeParen ∨ t.kind = .symbol .closeCurly := by
  rw [List.map_append] at hc
  obtain ⟨hn, hc⟩ := firstCloses_concat.1 hc
  obtain ⟨ho, hb⟩ := closes_concat.1 hc
  obtain ⟨s₁, h₁, -⟩ := h.split_last
  obtain ⟨hcurly, hparen⟩ := h₁.kind_ne_open hs hb
  by_cases hclose : t.kind = .symbol .closeParen
  · exact .inl hclose
  by_cases hcloseCurly : t.kind = .symbol .closeCurly
  · exact .inr hcloseCurly
  -- Any other token leaves the counts alone, so the tokens before it close.
  simp only [Balanced, List.count_append, count_singleton_of_ne hcurly,
    count_singleton_of_ne hparen, count_singleton_of_ne hclose,
    count_singleton_of_ne hcloseCurly, Nat.add_zero] at hb
  exact absurd (h₁.closes hs ho hb) (hn _ (List.prefix_refl _))

/-! ## The search, token by token -/

theorem closing_of_problem (h : s.next = (.error p, s')) (opened : Bool) :
    s.closing opened = .error p := by
  rw [closing]
  split
  · next he => exact congrArg Except.error (Except.error.inj (Prod.mk.inj (he.symm.trans h)).1)
  · next he => simp [h] at he

theorem closing_of_token (h : s.next = (.ok t, s')) (opened : Bool) :
    s.closing opened =
      if t.kind = .symbol .openCurly then s'.closing true
      else if opened && s'.isBalanced then .ok t.span.stop
      else if t.kind = .endOfInput then
        .error ⟨.unbalancedBrackets "could not find matching braces", t.span.start, none⟩
      else s'.closing opened := by
  rw [closing]
  split
  · next he => simp [h] at he
  · next he =>
    obtain ⟨ht, rfl⟩ := Prod.mk.inj (h.symm.trans he)
    obtain rfl := Except.ok.inj ht
    split <;> simp_all

/-- The search passes over a token with which the history does not close. -/
theorem closing_of_not_closes (hu : Reads s us s₁) (hs : s.grouping = .empty)
    (h : s₁.next = (.ok t, s')) (ht : t.kind ≠ .endOfInput)
    (hn : ¬ Closes ((us ++ [t]).map Token.kind)) :
    s₁.closing (.symbol .openCurly ∈ us.map Token.kind) =
      s'.closing (.symbol .openCurly ∈ (us ++ [t]).map Token.kind) := by
  have hbal := (hu.snoc h).isBalanced_iff hs
  rw [List.map_append] at hn hbal ⊢
  rw [closing_of_token h, if_neg ht]
  -- Either the token opens a brace, or it changes nothing about braces opened.
  by_cases hcurly : t.kind = .symbol .openCurly
  · simp [hcurly]
  · rw [if_neg hcurly, if_neg]
    · have hmem : (.symbol .openCurly ∈ us.map Token.kind ++ [t].map Token.kind) ↔
          .symbol .openCurly ∈ us.map Token.kind := by
        simp [Ne.symm hcurly]
      simp only [hmem]
    · intro hstop
      rw [Bool.and_eq_true, decide_eq_true_iff] at hstop
      exact hn (closes_concat.2 ⟨hstop.1, hbal.1 hstop.2⟩)

/-- The search passes over a history that does not close. -/
theorem Reads.closing_eq (hu : Reads s us s₁) (hs : s.grouping = .empty) (h : Reads s₁ ts s')
    (hn : NeverCloses ((us ++ ts).map Token.kind)) (he : ∀ t ∈ ts, t.kind ≠ .endOfInput) :
    s₁.closing (.symbol .openCurly ∈ us.map Token.kind) =
      s'.closing (.symbol .openCurly ∈ (us ++ ts).map Token.kind) := by
  induction h generalizing us with
  | nil => rw [List.append_nil]
  | @cons s₁ s₂ s' t ts hnext _ ih =>
    obtain ⟨ht, hts⟩ := List.forall_mem_cons.1 he
    have happ : us ++ t :: ts = us ++ [t] ++ ts := by simp
    rw [happ] at hn ⊢
    have hpre := (List.prefix_append (us ++ [t]) ts).map Token.kind
    rw [closing_of_not_closes hu hs hnext ht (hn _ hpre)]
    exact ih (hu.snoc hnext) hn hts

/-! ## Where the search stops -/

theorem closing_of_firstCloses (h : Reads s (ts ++ [t]) s') (hs : s.grouping = .empty)
    (hc : FirstCloses ((ts ++ [t]).map Token.kind)) : s.closing false = .ok t.span.stop := by
  have ht : t.kind ≠ .symbol .openCurly ∧ t.kind ≠ .endOfInput := by
    rcases h.closer hs hc with ht | ht <;> simp [ht]
  have hbal := h.isBalanced_iff hs
  obtain ⟨s₁, h₁, hnext⟩ := h.split_last
  rw [List.map_append] at hc hbal
  obtain ⟨hn, hc⟩ := firstCloses_concat.1 hc
  obtain ⟨ho, hb⟩ := closes_concat.1 hc
  have heq := (Reads.nil s).closing_eq hs h₁ hn (h.kind_ne_endOfInput ht.2)
  rw [List.nil_append, closing_of_token hnext, if_neg ht.1, if_pos] at heq
  · exact heq
  · rw [Bool.and_eq_true, decide_eq_true_iff]
    exact ⟨ho, hbal.2 hb⟩

theorem Reads.closing_of_problem (h : Reads s ts s₁) (hs : s.grouping = .empty)
    (hn : NeverCloses (ts.map Token.kind)) (hp : s₁.next = (.error p, s₂)) :
    s.closing false = .error p :=
  ((Reads.nil s).closing_eq hs h hn (h.kind_ne_endOfInput_of_problem hp)).trans
    (TokenStream.closing_of_problem hp _)

theorem closing_of_endOfInput (h : Reads s (ts ++ [t]) s') (hs : s.grouping = .empty)
    (hn : NeverCloses (ts.map Token.kind)) (he : ∀ u ∈ ts, u.kind ≠ .endOfInput)
    (ht : t.kind = .endOfInput) : s.closing false =
      .error ⟨.unbalancedBrackets "could not find matching braces", t.span.start, none⟩ := by
  have hbal := h.isBalanced_iff hs
  obtain ⟨s₁, h₁, hnext⟩ := h.split_last
  have heq := (Reads.nil s).closing_eq hs h₁ hn he
  rw [List.nil_append, closing_of_token hnext, if_neg (by simp [ht]), if_neg, if_pos ht] at heq
  · exact heq
  · -- The end of the script closes no bracket.
    rw [Bool.and_eq_true, decide_eq_true_iff]
    rintro ⟨ho, hb⟩
    have hc : Closes ((ts ++ [t]).map Token.kind) :=
      h.closes hs (by simp [ho]) (hbal.1 hb)
    have hfirst : FirstCloses ((ts ++ [t]).map Token.kind) := by
      rw [List.map_append] at hc ⊢
      exact firstCloses_concat.2 ⟨hn, hc⟩
    rcases h.closer hs hfirst with hk | hk <;> simp [ht] at hk

/-- Reading on, a history closes, or a token cannot be read before, or the
    script ends before. -/
theorem history_cases {s s₁ : TokenStream} {us : List Token} (hs : s.grouping = .empty)
    (hu : Reads s us s₁) (hn : NeverCloses (us.map Token.kind))
    (he : ∀ u ∈ us, u.kind ≠ .endOfInput) :
    (∃ ts t s', Reads s (ts ++ [t]) s' ∧ FirstCloses ((ts ++ [t]).map Token.kind)) ∨
      (∃ ts s₁ p s₂, Reads s ts s₁ ∧ NeverCloses (ts.map Token.kind) ∧
        s₁.next = (.error p, s₂)) ∨
      ∃ ts t s', Reads s (ts ++ [t]) s' ∧ NeverCloses (ts.map Token.kind) ∧
        (∀ u ∈ ts, u.kind ≠ .endOfInput) ∧ t.kind = .endOfInput := by
  -- The next token decides, unless it is one that the search passes over.
  rcases hnext : s₁.next with ⟨p | t, s₂⟩
  · exact .inr (.inl ⟨us, s₁, p, s₂, hu, hn, hnext⟩)
  · by_cases ht : t.kind = .endOfInput
    · exact .inr (.inr ⟨us, t, s₂, hu.snoc hnext, hn, he, ht⟩)
    · by_cases hc : Closes ((us ++ [t]).map Token.kind)
      · refine .inl ⟨us, t, s₂, hu.snoc hnext, ?_⟩
        rw [List.map_append] at hc ⊢
        exact firstCloses_concat.2 ⟨hn, hc⟩
      · refine history_cases hs (hu.snoc hnext) ?_ ?_
        · rw [List.map_append] at hc ⊢
          exact neverCloses_concat hn hc
        · intro u hu
          rcases List.mem_append.1 hu with hu | hu
          · exact he u hu
          · rwa [List.mem_singleton.1 hu]
termination_by s₁.reader.cursor.rest.length
decreasing_by exact length_next_lt hnext ht

end TokenStream

/-! ## Excerpts -/

section Excerpt

variable {v : Version} {source anchor before : List Char}

theorem excerpt_of_no_occurrence (h : ¬ anchor <:+: source) :
    excerpt v source anchor = .error (.ofRequest (.markerNotFound (String.ofList anchor))) := by
  rw [excerpt, before?_eq_none_iff.2 h]

/-- Behind the first occurrence of the anchor, the search decides. -/
theorem excerpt_of_firstOccurrence (h : FirstOccurrence anchor source before) :
    excerpt v source anchor =
      ((TokenStream.startingAt source (byteLength (before ++ anchor)) v).closing false).map
        fun stop => slice (byteLength (before ++ anchor)) stop source := by
  rw [excerpt, before?_eq_some_iff.2 h, byteLength_append]

open TokenStream

variable {s₁ s₂ s' : TokenStream} {ts : List Token} {t : Token} {p : Problem}

theorem excerpt_of_firstCloses (h : FirstOccurrence anchor source before)
    (hr : (startingAt source (byteLength (before ++ anchor)) v).Reads (ts ++ [t]) s')
    (hc : FirstCloses ((ts ++ [t]).map Token.kind)) :
    excerpt v source anchor = .ok (slice (byteLength (before ++ anchor)) t.span.stop source) := by
  rw [excerpt_of_firstOccurrence h, closing_of_firstCloses hr rfl hc]
  rfl

theorem excerpt_of_problem (h : FirstOccurrence anchor source before)
    (hr : (startingAt source (byteLength (before ++ anchor)) v).Reads ts s₁)
    (hn : NeverCloses (ts.map Token.kind)) (hp : s₁.next = (.error p, s₂)) :
    excerpt v source anchor = .error p := by
  rw [excerpt_of_firstOccurrence h, hr.closing_of_problem rfl hn hp]
  rfl

theorem excerpt_of_endOfInput (h : FirstOccurrence anchor source before)
    (hr : (startingAt source (byteLength (before ++ anchor)) v).Reads (ts ++ [t]) s')
    (hn : NeverCloses (ts.map Token.kind)) (he : ∀ u ∈ ts, u.kind ≠ .endOfInput)
    (ht : t.kind = .endOfInput) : excerpt v source anchor =
      .error ⟨.unbalancedBrackets "could not find matching braces", byteLength source, none⟩ := by
  have hstart : t.span.start = byteLength source := by
    obtain ⟨rest, rfl⟩ := h.1
    exact hr.start_endOfInput ht
  rw [excerpt_of_firstOccurrence h, closing_of_endOfInput hr rfl hn he ht, hstart]
  rfl

/-- An excerpt ends with the first token that closes. -/
theorem excerpt_ok_iff (h : FirstOccurrence anchor source before) (text : List Char) :
    excerpt v source anchor = .ok text ↔
      ∃ ts t s', (startingAt source (byteLength (before ++ anchor)) v).Reads (ts ++ [t]) s' ∧
        FirstCloses ((ts ++ [t]).map Token.kind) ∧
        text = slice (byteLength (before ++ anchor)) t.span.stop source := by
  constructor
  · intro hok
    rcases history_cases (s := startingAt source (byteLength (before ++ anchor)) v) rfl (.nil _)
        neverCloses_nil (by simp) with
      ⟨ts, t, s', hr, hc⟩ | ⟨ts, s₁, p, s₂, hr, hn, hp⟩ | ⟨ts, t, s', hr, hn, he, ht⟩
    · exact ⟨ts, t, s', hr, hc, Except.ok.inj (hok.symm.trans (excerpt_of_firstCloses h hr hc))⟩
    · simp [excerpt_of_problem h hr hn hp] at hok
    · simp [excerpt_of_endOfInput h hr hn he ht] at hok
  · rintro ⟨ts, t, s', hr, hc, rfl⟩
    exact excerpt_of_firstCloses h hr hc

/-- An excerpt fails with the first problem that is met before a token closes,
    or with the end of the script. -/
theorem excerpt_error_iff (h : FirstOccurrence anchor source before) (p : Problem) :
    excerpt v source anchor = .error p ↔
      (∃ ts s₁ s₂, (startingAt source (byteLength (before ++ anchor)) v).Reads ts s₁ ∧
        NeverCloses (ts.map Token.kind) ∧ s₁.next = (.error p, s₂)) ∨
      ∃ ts t s', (startingAt source (byteLength (before ++ anchor)) v).Reads (ts ++ [t]) s' ∧
        NeverCloses (ts.map Token.kind) ∧ (∀ u ∈ ts, u.kind ≠ .endOfInput) ∧
        t.kind = .endOfInput ∧
        p = ⟨.unbalancedBrackets "could not find matching braces", byteLength source, none⟩ := by
  constructor
  · intro herr
    rcases history_cases (s := startingAt source (byteLength (before ++ anchor)) v) rfl (.nil _)
        neverCloses_nil (by simp) with
      ⟨ts, t, s', hr, hc⟩ | ⟨ts, s₁, q, s₂, hr, hn, hp⟩ | ⟨ts, t, s', hr, hn, he, ht⟩
    · simp [excerpt_of_firstCloses h hr hc] at herr
    · obtain rfl := Except.error.inj (herr.symm.trans (excerpt_of_problem h hr hn hp))
      exact .inl ⟨ts, s₁, s₂, hr, hn, hp⟩
    · have hq := Except.error.inj (herr.symm.trans (excerpt_of_endOfInput h hr hn he ht))
      exact .inr ⟨ts, t, s', hr, hn, he, ht, hq⟩
  · rintro (⟨ts, s₁, s₂, hr, hn, hp⟩ | ⟨ts, t, s', hr, hn, he, ht, rfl⟩)
    · exact excerpt_of_problem h hr hn hp
    · exact excerpt_of_endOfInput h hr hn he ht

/-- What an excerpt is, told by counting tokens. Behind the first occurrence of
    the anchor, it ends with the first token at which, a brace having been
    opened before it, as many brackets of either form are closed as opened. If
    there is none, the first problem with a token is its problem, and if there
    is none either, the end of the script is. -/
theorem excerpt_iff_counts (v : Version) (source anchor : List Char) :
    ((∃ p marker, excerpt v source anchor = .error p ∧ p.cause = .markerNotFound marker) ↔
        ¬ anchor <:+: source) ∧
      (¬ anchor <:+: source → excerpt v source anchor =
        .error (.ofRequest (.markerNotFound (String.ofList anchor)))) ∧
      ∀ before, FirstOccurrence anchor source before →
        let start := byteLength (before ++ anchor)
        let s := startingAt source start v
        (∀ text, excerpt v source anchor = .ok text ↔
          ∃ ts t s', s.Reads (ts ++ [t]) s' ∧ FirstCloses ((ts ++ [t]).map Token.kind) ∧
            text = slice start t.span.stop source) ∧
        (∀ ts t s', s.Reads (ts ++ [t]) s' → FirstCloses ((ts ++ [t]).map Token.kind) →
          t.kind = .symbol .closeParen ∨ t.kind = .symbol .closeCurly) ∧
        ∀ p, excerpt v source anchor = .error p ↔
          (∃ ts s₁ s₂, s.Reads ts s₁ ∧ NeverCloses (ts.map Token.kind) ∧
            s₁.next = (.error p, s₂)) ∨
          ∃ ts t s', s.Reads (ts ++ [t]) s' ∧ NeverCloses (ts.map Token.kind) ∧
            (∀ u ∈ ts, u.kind ≠ .endOfInput) ∧ t.kind = .endOfInput ∧ p =
              ⟨.unbalancedBrackets "could not find matching braces", byteLength source, none⟩ := by
  refine ⟨⟨?_, fun h => ⟨_, _, excerpt_of_no_occurrence h, rfl⟩⟩, excerpt_of_no_occurrence,
    fun before h => ⟨excerpt_ok_iff h, fun ts t s' hr => hr.closer rfl, excerpt_error_iff h⟩⟩
  rintro ⟨p, marker, herr, hp⟩ hin
  cases hf : before? anchor source with
  | none => exact before?_eq_none_iff.1 hf hin
  | some before =>
    -- Behind an occurrence, the problem is that of a token or of the end.
    rcases (excerpt_error_iff (before?_eq_some_iff.1 hf) p).1 herr with
      ⟨ts, s₁, s₂, -, -, hnext⟩ | ⟨ts, t, s', -, -, -, -, rfl⟩
    · rcases cause_of_next hnext with hc | ⟨text, hc⟩ <;> simp [hp, Cause.isLexical] at hc
    · simp at hp

end Excerpt

end ScriptExcerpt
