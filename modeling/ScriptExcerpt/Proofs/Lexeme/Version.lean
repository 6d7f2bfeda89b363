import ScriptExcerpt.Proofs.Lexeme.Verdict

/-!
# Lexemes before 1.7

Of what the versions before ECMAScript 6 read, only two words differ: `let` and
`yield` are plain names before 1.7 (`Kind.inLegacy`).

* `nameKind_legacy`, `Number.recognizer_legacy`, `Operator.spellings_legacy`: the
  three places where the version counts;
* `lexemeAt_legacy`: what a lexeme is before 1.7, told from what it is in 1.7.
-/

namespace ScriptExcerpt

open Text

/-- What a lexeme of the kind, read by version 1.7, is before that version. -/
def Kind.inLegacy : Kind → Kind
  | .keyword .let | .keyword .yield => .identifier
  | k => k

namespace Kind

theorem inLegacy_eq_self_iff {k : Kind} :
    k.inLegacy = k ↔ k ≠ .keyword .let ∧ k ≠ .keyword .yield := by
  rw [inLegacy.eq_def]
  split <;> simp_all

theorem inLegacy_inLegacy (k : Kind) : k.inLegacy.inLegacy = k.inLegacy := by
  rw [inLegacy_eq_self_iff, inLegacy.eq_def]
  split <;> simp_all

theorem isTrivia_inLegacy (k : Kind) : k.inLegacy.isTrivia = k.isTrivia := by
  rw [inLegacy.eq_def]
  split <;> rfl

theorem inLegacy_eq_symbol_iff {k : Kind} {s : Symbol} :
    k.inLegacy = .symbol s ↔ k = .symbol s := by
  rw [inLegacy.eq_def]
  split <;> simp

end Kind

/-! ## Words, numbers and spellings -/

theorem wordKind?_legacy : wordKind? .legacy = wordKind? .js17 := by
  have hallowed : Keyword.allowed .legacy = Keyword.allowed .js17 := by
    funext k
    cases k <;> rfl
  funext strict word
  rw [wordKind?, wordKind?, hallowed]
  rfl

theorem nameKind_legacy (word : String) :
    nameKind .legacy word = (nameKind .js17 word).inLegacy := by
  rw [nameKind.eq_def, nameKind.eq_def, wordKind?_legacy]
  simp only [reduceCtorEq, if_false, if_true]
  split
  · rfl
  · rfl
  · rfl
  · rfl
  · next hlet hyield _ => exact (Kind.inLegacy_eq_self_iff.2 ⟨hlet, hyield⟩).symm

theorem Number.recognizer_legacy : Number.recognizer .legacy = Number.recognizer .js17 := by
  have hstep : Number.step .legacy = Number.step .js17 := by
    funext s c
    cases s <;> rfl
  rw [Number.recognizer, hstep, Number.recognizer]

theorem Operator.spellings_legacy (lineIsBlank : Bool) :
    spellings .legacy lineIsBlank = spellings .js17 lineIsBlank := by
  have hallowed : Symbol.allowed .legacy = Symbol.allowed .js17 := by
    funext s
    cases s <;> rfl
  rw [spellings, hallowed, spellings]

/-! ## Lexemes -/

/-- What a lexeme, read by version 1.7, is before that version. -/
def Lexeme.inLegacy (l : Lexeme) : Lexeme :=
  { l with verdict := l.verdict.map Kind.inLegacy }

theorem Lexeme.inLegacy_eq_self {l : Lexeme} (h : ∀ k, l.verdict = .ok k → k.inLegacy = k) :
    l.inLegacy = l := by
  obtain ⟨verdict, stop, cursor, value⟩ := l
  cases verdict with
  | error f => rfl
  | ok k => exact congrArg (fun k => Lexeme.mk (.ok k) stop cursor value) (h k rfl)

theorem Lexeme.name_legacy (c : Char) (behind : Cursor) :
    Lexeme.name .legacy c behind = (Lexeme.name .js17 c behind).inLegacy := by
  rw [Lexeme.name, Lexeme.name]
  rcases (Name.recognizer.runFrom (Name.start c) behind).verdict with f | ⟨word, escaped⟩
  · rfl
  · have hvalue : Name.value .legacy word escaped = Name.value .js17 word escaped := by
      rw [Name.value, Name.value, wordKind?_legacy]
    have hkind : Name.kind .legacy word escaped = (Name.kind .js17 word escaped).inLegacy := by
      cases escaped with
      | true => rfl
      | false => exact nameKind_legacy _
    simp only [hvalue, hkind]
    rfl

theorem Lexeme.number_legacy (c : Char) (behind : Cursor) :
    Lexeme.number .legacy c behind = (Lexeme.number .js17 c behind).inLegacy := by
  rw [Lexeme.number, Lexeme.number, Number.recognizer_legacy]
  split <;> rfl

theorem Lexeme.inLegacy_quotation (c : Char) (behind : Cursor) :
    (Lexeme.quotation c behind).inLegacy = Lexeme.quotation c behind := by
  rw [Lexeme.quotation]
  split
  · by_cases hc : c = '`' <;> simp only [hc, if_true, if_false] <;> rfl
  · rfl

theorem Lexeme.symbol_legacy (lineIsBlank : Bool) (c : Char) (behind : Cursor) :
    Lexeme.symbol (Operator.spellings .legacy lineIsBlank) c behind =
      (Lexeme.symbol (Operator.spellings .js17 lineIsBlank) c behind).inLegacy := by
  have hall : ∀ p ∈ Operator.spellings .js17 lineIsBlank, p.2.inLegacy = p.2 := by
    cases lineIsBlank <;> decide
  rw [Operator.spellings_legacy, Lexeme.inLegacy_eq_self]
  intro k hk
  obtain ⟨rest, hmem⟩ := (Lexeme.ensures_symbol _ c behind).ok hk
  exact hall _ hmem

/-- What a lexeme is before 1.7. -/
theorem lexemeAt_legacy (lineIsBlank : Bool) (c : Char) (behind : Cursor) :
    lexemeAt .legacy lineIsBlank c behind = (lexemeAt .js17 lineIsBlank c behind).inLegacy := by
  rw [lexemeAt, lexemeAt]
  split
  · exact Lexeme.name_legacy c behind
  · split
    · exact Lexeme.number_legacy c behind
    · split
      · exact (Lexeme.inLegacy_quotation c behind).symm
      · exact Lexeme.symbol_legacy lineIsBlank c behind

end ScriptExcerpt
