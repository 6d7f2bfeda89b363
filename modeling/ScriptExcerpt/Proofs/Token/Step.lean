import ScriptExcerpt.Proofs.Lexeme.Reader
import ScriptExcerpt.Token.Stream

/-!
# One token

A step of a stream first reads a token, deciding what a slash means
(`TokenStream.read`), and then enters it into the books (`next_eq_read`).

* `Grouping.enter_eq_ok_iff`: all that one token can do to the books.
* `next_ok`, `next_error`: all that a step can do.
* `leads_next`, `offset_lt_next`: it only moves on in the script, and always does
  before the end.
* `atEnd_of_next`, `next_of_atEnd`: the end of the script is told there, and
  again and again.
* `opening_of_next_closer`: a closing bracket is a token by itself.
-/

namespace ScriptExcerpt

open Text

/-! ## Lexemes that the grammar sees -/

namespace LexemeReader

variable {r r' : LexemeReader} {k : Kind} {p : Problem} {x : Except Problem Kind}

theorem leads_nextSignificant (h : r.nextSignificant = (x, r')) :
    r.cursor.Leads r'.opening ∧ r'.opening.Leads r'.cursor := by
  fun_induction nextSignificant r with
  | case1 r p r₁ h₁ | case3 r k₁ r₁ h₁ ht =>
    obtain ⟨-, rfl⟩ := Prod.mk.inj h
    exact leads_next h₁
  | case2 r k₁ r₁ h₁ ht ih =>
    have hlead := leads_next h₁
    exact ⟨(hlead.1.trans hlead.2).trans (ih h).1, (ih h).2⟩

theorem version_nextSignificant (r : LexemeReader) :
    r.nextSignificant.2.version = r.version := by
  fun_induction nextSignificant r with
  | case1 r p r₁ h₁ | case3 r k₁ r₁ h₁ ht => rw [← r.version_next, h₁]
  | case2 r k₁ r₁ h₁ ht ih => rw [ih, ← r.version_next, h₁]

/-- Unless the script ends, whatever is told, the reading goes on further on. -/
theorem offset_lt_nextSignificant (h : r.nextSignificant = (x, r')) (hx : x ≠ .ok .endOfInput) :
    r.cursor.offset < r'.cursor.offset := by
  fun_induction nextSignificant r with
  | case1 r p r₁ h₁ | case3 r k₁ r₁ h₁ ht =>
    obtain ⟨rfl, rfl⟩ := Prod.mk.inj h
    exact offset_lt_next h₁ hx
  | case2 r k₁ r₁ h₁ ht ih =>
    have hlead := leads_next h₁
    exact Nat.lt_of_le_of_lt (hlead.1.trans hlead.2).offset_le (ih h)

theorem atEnd_of_nextSignificant (h : r.nextSignificant = (.ok .endOfInput, r')) : r'.AtEnd := by
  fun_induction nextSignificant r with
  | case1 => simp at h
  | case2 r k₁ r₁ h₁ ht ih => exact ih h
  | case3 r k₁ r₁ h₁ ht =>
    obtain ⟨hk, rfl⟩ := Prod.mk.inj h
    obtain rfl := Except.ok.inj hk
    exact atEnd_of_next h₁

theorem cause_of_nextSignificant (h : r.nextSignificant = (.error p, r')) :
    p.cause.isLexical := by
  fun_induction nextSignificant r with
  | case1 r p₁ r₁ h₁ =>
    obtain rfl := Except.error.inj (Prod.mk.inj h).1
    exact cause_of_next h₁
  | case2 r k₁ r₁ h₁ ht ih => exact ih h
  | case3 => simp at h

theorem nextSignificant_of_next (h : r.next = (.ok k, r')) :
    r.nextSignificant = if k.isTrivia then r'.nextSignificant else (.ok k, r') := by
  rw [nextSignificant]
  split
  · next he => rw [h] at he; simp at he
  · next he =>
    obtain ⟨hk, rfl⟩ := Prod.mk.inj (h.symm.trans he)
    obtain rfl := Except.ok.inj hk
    split <;> rfl

theorem nextSignificant_of_problem (h : r.next = (.error p, r')) :
    r.nextSignificant = (.error p, r') := by
  rw [nextSignificant]
  split
  · next he => rw [← he, h]
  · next he => rw [h] at he; simp at he

/-- What a reader tells next depends on its cursor only by where the gap ends. -/
theorem nextSignificant_of_skipGap (cur : Cursor)
    (h : r.cursor.skipGap = cur.skipGap) :
    r.nextSignificant = { r with cursor := cur }.nextSignificant := by
  have hnext : { r with cursor := cur }.next = r.next := by
    rw [next, next, h]
    rfl
  rcases hn : r.next with ⟨p | k, r₁⟩
  · rw [nextSignificant_of_problem hn, nextSignificant_of_problem (hnext.trans hn)]
  · rw [nextSignificant_of_next hn, nextSignificant_of_next (hnext.trans hn)]

theorem nextSignificant_of_rest_nil (h : r.cursor.rest = []) :
    r.nextSignificant = (.ok .endOfInput, r.reachEnd r.cursor) :=
  nextSignificant_of_next (next_of_rest_nil h)

theorem opening_of_nextSignificant_closer {c : Char} (hc : Closer c k)
    (h : r.nextSignificant = (.ok k, r')) :
    r'.opening.rest = c :: r'.cursor.rest ∧ r'.stop = r'.cursor.offset := by
  fun_induction nextSignificant r with
  | case1 => simp at h
  | case2 r k₁ r₁ h₁ ht ih => exact ih h
  | case3 r k₁ r₁ h₁ ht =>
    obtain ⟨hk, rfl⟩ := Prod.mk.inj h
    obtain rfl := Except.ok.inj hk
    exact opening_of_next_closer hc h₁

end LexemeReader

/-! ## The books -/

namespace Grouping

variable {g g' : Grouping} {k : Kind} {line : UInt32} {start : Nat} {p : Problem}

/-- What entering a token of the kind `k`, on the line `line`, makes of the
    books. -/
inductive Entered (g : Grouping) (k : Kind) (line : UInt32) : Grouping → Prop
  | openParen : k = .symbol .openParen →
    Entered g k line (remember { g with parens := parenRole g.recent :: g.parens }
      ⟨k, line, some (.paren (parenRole g.recent))⟩)
  | openCurly : k = .symbol .openCurly →
    Entered g k line (remember { g with braces := g.braceRole line :: g.braces }
      ⟨k, line, some (.brace (g.braceRole line))⟩)
  | closeParen {role : ParenRole} {parens : List ParenRole} : k = .symbol .closeParen →
    g.parens = role :: parens →
      Entered g k line (remember { g with parens := parens } ⟨k, line, some (.paren role)⟩)
  | closeCurly {role : BraceRole} {braces : List BraceRole} : k = .symbol .closeCurly →
    g.braces = role :: braces →
      Entered g k line (remember { g with braces := braces } ⟨k, line, some (.brace role)⟩)
  | other : k ≠ .symbol .openParen → k ≠ .symbol .openCurly → k ≠ .symbol .closeParen →
    k ≠ .symbol .closeCurly → Entered g k line (g.remember ⟨k, line, none⟩)

/-- All that entering a token can do. -/
theorem enter_eq_ok_iff : g.enter k line start = .ok g' ↔ Entered g k line g' := by
  constructor
  · intro h
    rw [enter.eq_def] at h
    split at h
    · exact Except.ok.inj h ▸ .openParen rfl
    · exact Except.ok.inj h ▸ .openCurly rfl
    · split at h
      · simp at h
      · next hopen => exact Except.ok.inj h ▸ .closeParen rfl hopen
    · split at h
      · simp at h
      · next hopen => exact Except.ok.inj h ▸ .closeCurly rfl hopen
    · next h₁ h₂ h₃ h₄ => exact Except.ok.inj h ▸ .other h₁ h₂ h₃ h₄
  · intro h
    cases h with
    | openParen hk | openCurly hk => subst hk; rfl
    | closeParen hk hopen | closeCurly hk hopen => subst hk; simp only [enter, hopen]
    | other h₁ h₂ h₃ h₄ =>
      rw [enter.eq_def]
      split <;> first | rfl | contradiction

/-- A token that is entered is remembered with its line. -/
theorem last?_enter (h : g.enter k line start = .ok g') :
    ∃ trace, g'.last? = some trace ∧ trace.kind = k ∧ trace.line = line := by
  cases enter_eq_ok_iff.1 h <;> exact ⟨_, rfl, rfl, rfl⟩

/-- Only a bracket that closes nothing is not entered into the books. -/
theorem enter_eq_error_iff : g.enter k line start = .error p ↔
      (k = .symbol .closeParen ∧ g.parens = [] ∧
        p = .unbalanced "unmatched closing paren" start) ∨
      k = .symbol .closeCurly ∧ g.braces = [] ∧
        p = .unbalanced "unmatched closing brace" start := by
  rw [enter.eq_def]
  split
  · simp
  · simp
  · cases g.parens <;> simp [eq_comm]
  · cases g.braces <;> simp [eq_comm]
  · next _ _ hparen hcurly =>
    -- Any other token is entered.
    refine ⟨fun h => by simp at h, ?_⟩
    rintro (⟨hk, -⟩ | ⟨hk, -⟩)
    · exact (hparen hk).elim
    · exact (hcurly hk).elim

end Grouping

namespace TokenStream

variable {s s' : TokenStream} {r : LexemeReader} {k : Kind} {t : Token} {p : Problem}

/-- A lexeme of the kind `k` opens a regular expression. -/
def opensRegExp (s : TokenStream) (k : Kind) : Bool :=
  (k = .symbol .slash || k = .symbol .slashEquals) && s.grouping.slashOpensRegExp

theorem eq_slash_of_opensRegExp (h : s.opensRegExp k = true) :
    k = .symbol .slash ∨ k = .symbol .slashEquals := by
  simp only [opensRegExp, Bool.and_eq_true, Bool.or_eq_true, decide_eq_true_eq] at h
  exact h.1

/-- The kind of the next token, in which a slash that opens a regular
    expression is read as one, and the reader behind it. -/
def read (s : TokenStream) : Except Problem Kind × LexemeReader :=
  match s.reader.nextSignificant with
  | (.error p, r) => (.error p, r)
  | (.ok k, r) =>
    if s.opensRegExp k then
      match r.readRegExp (k = .symbol .slashEquals) with
      | (.error p, r') => (.error p, r')
      | (.ok (), r') => (.ok .regExp, r')
    else (.ok k, r)

/-- A step reads a token and enters it into the books. -/
theorem next_eq_read (s : TokenStream) :
    s.next = match s.read with
      | (.error p, r) => (.error p, ⟨r, s.grouping⟩)
      | (.ok k, r) => s.enter r k := by
  rw [next, read]
  rcases s.reader.nextSignificant with ⟨p | k, r⟩
  · rfl
  · change (if s.opensRegExp k then _ else _) = _
    by_cases hslash : s.opensRegExp k
    · simp only [hslash, if_true]
      rcases r.readRegExp (k = .symbol .slashEquals) with ⟨p | u, r'⟩ <;> rfl
    · simp only [hslash]
      rfl

/-- What a step does that gives a token. -/
theorem next_ok (h : s.next = (.ok t, s')) :
    ∃ k, s.read = (.ok k, s'.reader) ∧ t = token s'.reader k ∧
      s.grouping.enter k s'.reader.line s'.reader.opening.offset = .ok s'.grouping := by
  rw [next_eq_read] at h
  rcases hr : s.read with ⟨p | k, r⟩
  · rw [hr] at h; simp at h
  · rw [hr] at h
    simp only [enter] at h
    split at h
    · next g hg =>
      obtain ⟨ht, rfl⟩ := Prod.mk.inj h
      exact ⟨k, rfl, (Except.ok.inj ht).symm, hg⟩
    · simp at h

/-- What a step does that meets a problem: it meets it while reading, or finds a
    bracket that closes nothing. -/
theorem next_error (h : s.next = (.error p, s')) :
    s'.grouping = s.grouping ∧ (s.read = (.error p, s'.reader) ∨ ∃ k,
      s.read = (.ok k, s'.reader) ∧
        s.grouping.enter k s'.reader.line s'.reader.opening.offset = .error p) := by
  rw [next_eq_read] at h
  rcases hr : s.read with ⟨q | k, r⟩
  · rw [hr] at h
    obtain ⟨hp, rfl⟩ := Prod.mk.inj h
    obtain rfl := Except.error.inj hp
    exact ⟨rfl, .inl rfl⟩
  · rw [hr] at h
    simp only [enter] at h
    split at h
    · simp at h
    · next q hq =>
      obtain ⟨hp, rfl⟩ := Prod.mk.inj h
      obtain rfl := Except.error.inj hp
      exact ⟨rfl, .inr ⟨k, rfl, hq⟩⟩

theorem next_of_read {g : Grouping} (h : s.read = (.ok k, r))
    (hg : s.grouping.enter k r.line r.opening.offset = .ok g) :
    s.next = (.ok (token r k), ⟨r, g⟩) := by
  rw [next_eq_read, h]
  simp only [enter, hg]

theorem next_of_read_problem (h : s.read = (.ok k, r))
    (hg : s.grouping.enter k r.line r.opening.offset = .error p) :
    s.next = (.error p, ⟨r, s.grouping⟩) := by
  rw [next_eq_read, h]
  simp only [enter, hg]

/-! ## Moving on -/

/-- What reading a token does: the token is the next lexeme, or the regular
    expression that it opens. -/
theorem read_ok (h : s.read = (.ok k, r)) :
    (s.reader.nextSignificant = (.ok k, r) ∧ s.opensRegExp k = false) ∨
      (k = .regExp ∧ ∃ k₁ r₁, s.reader.nextSignificant = (.ok k₁, r₁) ∧ s.opensRegExp k₁ = true ∧
        r₁.readRegExp (k₁ = .symbol .slashEquals) = (.ok (), r)) := by
  rw [read] at h
  rcases hn : s.reader.nextSignificant with ⟨p | k₁, r₁⟩
  · rw [hn] at h; simp at h
  · simp only [hn] at h
    by_cases hslash : s.opensRegExp k₁
    · simp only [hslash, if_true] at h
      rcases hr : r₁.readRegExp (k₁ = .symbol .slashEquals) with ⟨p | u, r₂⟩
      · rw [hr] at h; simp at h
      · rw [hr] at h
        obtain ⟨hk, rfl⟩ := Prod.mk.inj h
        exact .inr ⟨(Except.ok.inj hk).symm, k₁, r₁, rfl, hslash, hr⟩
    · simp only [hslash] at h
      obtain ⟨hk, rfl⟩ := Prod.mk.inj h
      obtain rfl := Except.ok.inj hk
      exact .inl ⟨rfl, by simpa using hslash⟩

/-- What is wrong with a token is wrong with the next lexeme, or with the regular expression that it
    opens. -/
theorem read_error (h : s.read = (.error p, r)) :
    s.reader.nextSignificant = (.error p, r) ∨
      ∃ k r₁, s.reader.nextSignificant = (.ok k, r₁) ∧ s.opensRegExp k = true ∧
        r₁.readRegExp (k = .symbol .slashEquals) = (.error p, r) := by
  rw [read] at h
  rcases hn : s.reader.nextSignificant with ⟨q | k, r₁⟩
  · rw [hn] at h
    exact .inl h
  · simp only [hn] at h
    by_cases hslash : s.opensRegExp k
    · simp only [hslash, if_true] at h
      rcases hr : r₁.readRegExp (k = .symbol .slashEquals) with ⟨q | u, r₂⟩
      · rw [hr] at h
        obtain ⟨hp, rfl⟩ := Prod.mk.inj h
        obtain rfl := Except.error.inj hp
        exact .inr ⟨k, r₁, rfl, hslash, hr⟩
      · rw [hr] at h; simp at h
    · simp [hslash] at h

theorem read_of_nextSignificant (h : s.reader.nextSignificant = (.ok k, r))
    (hk : s.opensRegExp k = false) : s.read = (.ok k, r) := by
  simp only [read, h, hk]
  rfl

theorem read_of_readRegExp {r₁ : LexemeReader} (h : s.reader.nextSignificant = (.ok k, r₁))
    (hk : s.opensRegExp k = true) (hr : r₁.readRegExp (k = .symbol .slashEquals) = (.ok (), r)) :
    s.read = (.ok .regExp, r) := by
  simp only [read, h, hk, if_true, hr]

/-- A token starts at the cursor or behind it, and the reading goes on behind
    its start. -/
theorem leads_read (s : TokenStream) :
    s.reader.cursor.Leads s.read.2.opening ∧ s.read.2.opening.Leads s.read.2.cursor := by
  rw [read]
  rcases hn : s.reader.nextSignificant with ⟨p | k, r₁⟩
  · exact LexemeReader.leads_nextSignificant hn
  · have h := LexemeReader.leads_nextSignificant hn
    simp only
    split
    · have hr := r₁.leads_readRegExp (k = .symbol .slashEquals)
      have ho := r₁.opening_readRegExp (k = .symbol .slashEquals)
      split <;>
      · next he =>
        rw [he] at hr ho
        exact ⟨ho ▸ h.1, ho ▸ h.2.trans hr⟩
    · exact h

theorem leads_next (h : s.next = (.ok t, s')) :
    s.reader.cursor.Leads s'.reader.opening ∧ s'.reader.opening.Leads s'.reader.cursor := by
  obtain ⟨k, hr, -⟩ := next_ok h
  have hlead := s.leads_read
  rwa [hr] at hlead

/-- A closing bracket is a token by itself. -/
theorem opening_of_next_closer {c : Char} (hc : Closer c t.kind) (h : s.next = (.ok t, s')) :
    s'.reader.opening.rest = c :: s'.reader.cursor.rest ∧
      t.span.stop = s'.reader.cursor.offset := by
  obtain ⟨k, hr, rfl, -⟩ := next_ok h
  rcases read_ok hr with ⟨hn, -⟩ | ⟨rfl, -⟩
  · exact LexemeReader.opening_of_nextSignificant_closer hc hn
  · cases hc

/-- Whatever is told, the reading goes on behind what was read. -/
theorem reader_next (s : TokenStream) : s.next.2.reader = s.read.2 := by
  rw [next_eq_read]
  rcases s.read with ⟨p | k, r⟩
  · rfl
  · simp only [enter]
    split <;> rfl

theorem version_next (s : TokenStream) : s.next.2.reader.version = s.reader.version := by
  rw [reader_next, read, ← s.reader.version_nextSignificant]
  rcases s.reader.nextSignificant with ⟨p | k, r⟩
  · rfl
  · have hregExp := r.version_readRegExp (k = .symbol .slashEquals)
    simp only
    split
    · split <;>
      · next he => rw [← hregExp, he]
    · rfl

theorem leads_reader_next {x : Except Problem Token} (h : s.next = (x, s')) :
    s.reader.cursor.Leads s'.reader.cursor := by
  obtain rfl : s.next.2 = s' := congrArg Prod.snd h
  rw [reader_next]
  exact s.leads_read.1.trans s.leads_read.2

/-- Unless the script ends, whatever is told, the reading goes on further on. -/
theorem offset_lt_read (h : s.read.1 ≠ .ok .endOfInput) :
    s.reader.cursor.offset < s.read.2.cursor.offset := by
  rw [read] at h ⊢
  rcases hn : s.reader.nextSignificant with ⟨p | k, r₁⟩
  · exact LexemeReader.offset_lt_nextSignificant hn (by simp)
  · have hlt := LexemeReader.offset_lt_nextSignificant hn
    rw [hn] at h
    simp only at h ⊢
    by_cases hslash : s.opensRegExp k
    · -- The slash was passed, and the rest of the literal only moves on.
      have hk : k ≠ .endOfInput := by
        rintro rfl
        simp [opensRegExp] at hslash
      have hle := (r₁.leads_readRegExp (k = .symbol .slashEquals)).offset_le
      rw [if_pos hslash]
      split <;>
      · next he =>
        rw [he] at hle
        exact Nat.lt_of_lt_of_le (hlt (by simpa using hk)) hle
    · rw [if_neg hslash] at h ⊢
      exact hlt h

theorem offset_lt_next (h : ∀ t, s.next.1 = .ok t → t.kind ≠ .endOfInput) :
    s.reader.cursor.offset < s.next.2.reader.cursor.offset := by
  rw [reader_next]
  refine offset_lt_read fun hread => ?_
  have hnext := next_of_read (k := .endOfInput) (Prod.ext hread rfl) rfl
  exact h _ (congrArg Prod.fst hnext) rfl

/-! ## The end of the script -/

/-- Where the end of the script is told, nothing is left to read. -/
theorem atEnd_of_next (h : s.next = (.ok t, s')) (ht : t.kind = .endOfInput) :
    s'.reader.AtEnd ∧ t = token s'.reader .endOfInput := by
  obtain ⟨k, hr, rfl, -⟩ := next_ok h
  obtain rfl : k = .endOfInput := ht
  rcases read_ok hr with ⟨hn, -⟩ | ⟨hk, -⟩
  · exact ⟨LexemeReader.atEnd_of_nextSignificant hn, rfl⟩
  · simp at hk

/-- At the end of the script the end is told, and no bracket is opened or
    closed. -/
theorem next_of_rest_nil (h : s.reader.cursor.rest = []) :
    ∃ t s', s.next = (.ok t, s') ∧ t.kind = .endOfInput ∧ s'.reader.cursor = s.reader.cursor ∧
      s'.grouping.parens = s.grouping.parens ∧ s'.grouping.braces = s.grouping.braces := by
  have hread := read_of_nextSignificant (LexemeReader.nextSignificant_of_rest_nil h)
    (show s.opensRegExp .endOfInput = false from rfl)
  exact ⟨_, _, next_of_read hread rfl, rfl, rfl, rfl, rfl⟩

/-- Once the end of the script was told, it is told again, and the reader does
    not change. -/
theorem next_of_atEnd (h : s.reader.AtEnd) :
    s.next = (.ok (token s.reader .endOfInput),
      ⟨s.reader, s.grouping.remember ⟨.endOfInput, s.reader.line, none⟩⟩) := by
  have hread := LexemeReader.nextSignificant_of_rest_nil h.rest
  rw [h.reachEnd_eq] at hread
  exact next_of_read (read_of_nextSignificant hread rfl) rfl

/-! ## What can be wrong -/

theorem cause_of_read (h : s.read = (.error p, r)) : p.cause.isLexical := by
  rcases read_error h with hn | ⟨k, r₁, -, -, hr⟩
  · exact LexemeReader.cause_of_nextSignificant hn
  · exact LexemeReader.cause_of_readRegExp hr

/-- The token that was read is a bracket of the kind `closer`, and none is open
    that it could close. -/
structure Unmatched (s : TokenStream) (closer : Symbol) (text : String) (p : Problem) :
    Prop where
  read : s.read.1 = .ok (.symbol closer)
  problem : p = .unbalanced text s.read.2.opening.offset

/-- A step meets a problem with brackets exactly at one that closes nothing. -/
theorem next_unbalanced_iff :
    (s.next.1 = .error p ∧ ∃ text, p.cause = .unbalancedBrackets text) ↔
      s.grouping.parens = [] ∧ s.Unmatched .closeParen "unmatched closing paren" p ∨
        s.grouping.braces = [] ∧ s.Unmatched .closeCurly "unmatched closing brace" p := by
  constructor
  · rintro ⟨h, text, hp⟩
    obtain ⟨-, hread | ⟨k, hread, hg⟩⟩ := next_error (Prod.ext h rfl)
    · have hlexical := cause_of_read hread
      simp [hp, Cause.isLexical] at hlexical
    · have hread₁ := congrArg Prod.fst hread
      have hread₂ : s.read.2 = s.next.2.reader := congrArg Prod.snd hread
      rcases Grouping.enter_eq_error_iff.1 hg with ⟨rfl, hopen, rfl⟩ | ⟨rfl, hopen, rfl⟩
      · exact .inl ⟨hopen, hread₁, by rw [hread₂]⟩
      · exact .inr ⟨hopen, hread₁, by rw [hread₂]⟩
  · intro h
    have hproblem : s.next.1 = .error p := by
      rcases h with ⟨hopen, hread, hp⟩ | ⟨hopen, hread, hp⟩
      · rw [next_of_read_problem (Prod.ext hread rfl)
          (Grouping.enter_eq_error_iff.2 (.inl ⟨rfl, hopen, hp⟩))]
      · rw [next_of_read_problem (Prod.ext hread rfl)
          (Grouping.enter_eq_error_iff.2 (.inr ⟨rfl, hopen, hp⟩))]
    refine ⟨hproblem, ?_⟩
    rcases h with ⟨-, -, rfl⟩ | ⟨-, -, rfl⟩ <;> exact ⟨_, rfl⟩

/-- What a step does at a slash: it reads a regular expression, or the slash. -/
theorem next_of_slash (h : s.reader.nextSignificant = (.ok k, r))
    (hk : k = .symbol .slash ∨ k = .symbol .slashEquals) :
    s.next.1 = if s.grouping.slashOpensRegExp then
        (r.readRegExp (k = .symbol .slashEquals)).1.map fun _ =>
          token (r.readRegExp (k = .symbol .slashEquals)).2 .regExp
      else .ok (token r k) := by
  have hslash : (decide (k = .symbol .slash) || decide (k = .symbol .slashEquals)) = true := by
    simpa using hk
  rw [next, h]
  simp only [hslash, Bool.true_and]
  split
  · rcases r.readRegExp (k = .symbol .slashEquals) with ⟨p | u, r'⟩ <;> rfl
  · -- Neither of the two symbols is a bracket.
    rcases hk with rfl | rfl <;> rfl

/-- A step meets a problem of a lexeme, or a bracket that closes nothing. -/
theorem cause_of_next (h : s.next = (.error p, s')) :
    p.cause.isLexical ∨ ∃ text, p.cause = .unbalancedBrackets text := by
  obtain ⟨-, hread | ⟨k, -, hg⟩⟩ := next_error h
  · exact .inl (cause_of_read hread)
  · rcases Grouping.enter_eq_error_iff.1 hg with ⟨-, -, rfl⟩ | ⟨-, -, rfl⟩ <;>
      exact .inr ⟨_, rfl⟩

end TokenStream

end ScriptExcerpt
