import ScriptExcerpt.Proofs.Lexeme.Version
import ScriptExcerpt.Proofs.Token.Calls

/-!
# Streams before 1.7

The stream of a script before 1.7 goes along with that of version 1.7 until the
latter tells a `let` or a `yield`. There they part: the former tells a name, and
what a name is followed by may mean something else than behind a keyword.

* `LexemeReader.next_legacy`, `LexemeReader.nextSignificant_legacy`: one lexeme,
  also `let` and `yield`;
* `TokenStream.next_legacy`: one token that is none of the two;
* `TokenStream.after_legacy`: any number of tokens;
* `TokenStream.legacy_agrees_iff`: what the calls for tokens tell.
-/

namespace ScriptExcerpt

open Text

/-! ## Lexemes -/

namespace LexemeReader

variable {r : LexemeReader}

/-- The reader of the same script, in the version before 1.7. -/
def inLegacy (r : LexemeReader) : LexemeReader :=
  { r with version := .legacy }

theorem accept_inLegacy (opening : Cursor) (c : Char) (l : Lexeme) :
    r.inLegacy.accept opening c l.inLegacy =
      ((r.accept opening c l).1.map Kind.inLegacy, (r.accept opening c l).2.inLegacy) := by
  obtain ⟨verdict, stop, cursor, value⟩ := l
  rcases verdict with f | k
  · rfl
  · cases k with
    | keyword w => cases w <;> rfl
    | _ => rfl

theorem next_legacy (hr : r.version = .js17) :
    r.inLegacy.next = (r.next.1.map Kind.inLegacy, r.next.2.inLegacy) := by
  rcases hgap : r.cursor.skipGap with ⟨place, _ | ⟨c, cs⟩⟩
  · have hrest : r.cursor.skipGap.rest = [] := by rw [hgap]
    rw [next_of_gap_nil hrest, next_of_gap_nil (r := r.inLegacy) hrest]
    rfl
  · rw [next_of_gap hgap, next_of_gap (r := r.inLegacy) hgap, hr]
    split
    · rfl
    · change r.inLegacy.accept _ c (lexemeAt .legacy _ c _) = _
      rw [lexemeAt_legacy]
      exact accept_inLegacy ..

theorem nextSignificant_legacy (hr : r.version = .js17) :
    r.inLegacy.nextSignificant =
      (r.nextSignificant.1.map Kind.inLegacy, r.nextSignificant.2.inLegacy) := by
  have hnext := next_legacy hr
  fun_induction nextSignificant r with
  | case1 r p r₁ h₁ =>
    rw [h₁] at hnext
    exact nextSignificant_of_problem hnext
  | case2 r k r₁ h₁ ht ih =>
    have hversion : r₁.version = .js17 := by rw [← hr, ← r.version_next, h₁]
    rw [h₁] at hnext
    rw [nextSignificant_of_next hnext, Kind.isTrivia_inLegacy, if_pos ht]
    exact ih hversion (next_legacy hversion)
  | case3 r k r₁ h₁ ht =>
    rw [h₁] at hnext
    rw [nextSignificant_of_next hnext, Kind.isTrivia_inLegacy, if_neg ht]
    rfl

theorem readRegExp_inLegacy (r : LexemeReader) (equals : Bool) :
    r.inLegacy.readRegExp equals =
      ((r.readRegExp equals).1, (r.readRegExp equals).2.inLegacy) := by
  have hcursor : r.inLegacy.cursor = r.cursor := rfl
  rw [readRegExp, readRegExp, hcursor]
  rcases (RegExp.recognizer.runFrom _ r.cursor).verdict with ⟨f, flags⟩ | l <;> rfl

end LexemeReader

/-! ## Tokens -/

namespace TokenStream

variable {s : TokenStream} {n : Nat}

/-- The stream of the same script, in the version before 1.7. -/
def inLegacy (s : TokenStream) : TokenStream :=
  { s with reader := s.reader.inLegacy }

theorem opensRegExp_inLegacy (s : TokenStream) (k : Kind) :
    s.inLegacy.opensRegExp k.inLegacy = s.opensRegExp k := by
  simp only [opensRegExp, Kind.inLegacy_eq_symbol_iff]
  rfl

theorem read_legacy (hs : s.reader.version = .js17) :
    s.inLegacy.read = (s.read.1.map Kind.inLegacy, s.read.2.inLegacy) := by
  have hnext : s.inLegacy.reader.nextSignificant = _ := LexemeReader.nextSignificant_legacy hs
  rw [read, hnext, read]
  rcases s.reader.nextSignificant with ⟨p | k, r⟩
  · rfl
  · simp only [Except.map, opensRegExp_inLegacy, Kind.inLegacy_eq_symbol_iff,
      LexemeReader.readRegExp_inLegacy]
    split
    · rcases r.readRegExp (k = .symbol .slashEquals) with ⟨p | u, r'⟩ <;> rfl
    · rfl

/-- The kind of a token is that of version 1.7, as it is before that version. -/
theorem inLegacy_kind_of_next {t : Token} (hs : s.reader.version = .js17)
    (h : s.inLegacy.next.1 = .ok t) : t.kind.inLegacy = t.kind := by
  obtain ⟨k, hread, rfl, -⟩ := next_ok (Prod.ext h rfl)
  rw [read_legacy hs] at hread
  rcases hr : s.read with ⟨p | k₁, r⟩
  · simp [hr, Except.map] at hread
  · rw [hr] at hread
    obtain rfl : k₁.inLegacy = k := Except.ok.inj (Prod.mk.inj hread).1
    exact k₁.inLegacy_inLegacy

/-- A token that is neither `let` nor `yield`, and a problem, is told before 1.7,
    too. -/
theorem next_legacy (hs : s.reader.version = .js17)
    (h : ∀ t, s.next.1 = .ok t → t.kind.inLegacy = t.kind) :
    s.inLegacy.next = (s.next.1, s.next.2.inLegacy) := by
  have hread := read_legacy hs
  rcases hr : s.read with ⟨p | k, r⟩
  · rw [next_eq_read, hread, next_eq_read, hr]
    rfl
  · rw [next_eq_read, hr] at h
    -- Neither word is a bracket, so that it would be told.
    have hk : k.inLegacy = k := by
      by_cases hlet : k = .keyword .let
      · subst hlet
        exact absurd (h _ rfl) (by simp [token, Kind.inLegacy])
      by_cases hyield : k = .keyword .yield
      · subst hyield
        exact absurd (h _ rfl) (by simp [token, Kind.inLegacy])
      exact Kind.inLegacy_eq_self_iff.2 ⟨hlet, hyield⟩
    have hread' : s.inLegacy.read = (.ok k, r.inLegacy) := by
      rw [hread, hr, Except.map, hk]
    rcases hg : s.grouping.enter k r.line r.opening.offset with p | g
    · rw [next_of_read_problem hr hg, next_of_read_problem hread' hg]
      rfl
    · rw [next_of_read hr hg, next_of_read hread' hg]
      rfl

/-- Before the first `let` or `yield` both streams stand at the same place. -/
theorem after_legacy (hs : s.reader.version = .js17)
    (h : ∀ i < n, ∀ t, (s.after i).next.1 = .ok t → t.kind.inLegacy = t.kind) :
    s.inLegacy.after n = (s.after n).inLegacy := by
  induction n with
  | zero => rfl
  | succ n ih =>
    rw [after, ih fun i hi => h i (Nat.lt_succ_of_lt hi),
      next_legacy ((version_after s n).trans hs) (h n (Nat.lt_succ_self n))]
    rfl

/-- The calls number `i` of both streams tell the same, and leave the brackets as balanced
    and the same flags. -/
structure SameCall (s s' : TokenStream) (i : Nat) : Prop where
  told : (s.after i).next.1 = (s'.after i).next.1
  isBalanced : (s.after (i + 1)).isBalanced = (s'.after (i + 1)).isBalanced
  flags : (s.after (i + 1)).flags = (s'.after (i + 1)).flags

/-- Whatever calls read a script before 1.7, they tell what they tell in version 1.7, just as
    long as no `let` and no `yield` is told there. -/
theorem legacy_agrees_iff (source : List Char) (offset n : Nat) :
    (∀ i < n, SameCall (startingAt source offset .legacy) (startingAt source offset .js17) i) ↔
      ∀ i < n, ∀ t, ((startingAt source offset .js17).after i).next.1 = .ok t →
        t.kind ≠ .keyword .let ∧ t.kind ≠ .keyword .yield := by
  have hversion : (startingAt source offset .js17).reader.version = .js17 := rfl
  have hlegacy : startingAt source offset .legacy = (startingAt source offset .js17).inLegacy := rfl
  simp only [← Kind.inLegacy_eq_self_iff]
  generalize startingAt source offset .js17 = s at hversion hlegacy ⊢
  rw [hlegacy]
  constructor
  · -- As long as no such token was told, both streams stand at the same place.
    intro h i
    induction i using Nat.strongRecOn with
    | ind i ih =>
      intro hi t ht
      have hafter := after_legacy hversion fun j hj => ih j hj (Nat.lt_trans hj hi)
      have htold := (h i hi).told.trans ht
      rw [hafter] at htold
      exact inLegacy_kind_of_next ((version_after s i).trans hversion) htold
  · intro h i hi
    have hafter (j : Nat) (hj : j ≤ n) : s.inLegacy.after j = (s.after j).inLegacy :=
      after_legacy hversion fun m hm => h m (Nat.lt_of_lt_of_le hm hj)
    have hnext := next_legacy ((version_after s i).trans hversion) (h i hi)
    refine ⟨?_, ?_, ?_⟩
    · rw [hafter i (Nat.le_of_lt hi), hnext]
    · rw [hafter (i + 1) hi]
      rfl
    · rw [hafter (i + 1) hi]
      rfl

end TokenStream

end ScriptExcerpt
