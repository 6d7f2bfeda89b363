import ScriptExcerpt.Lexeme.Reader
import ScriptExcerpt.Proofs.Reading

/-!
# Verdicts on lexemes

* `lexemeAt_cases`: what reads a lexeme, by its first character.
* `kind_lexemeAt`: what a lexeme can be, given its first character. In
  particular it is never the end of the script (`lexemeAt_ne_endOfInput`).
* `cause_lexemeAt`: what can be wrong with it.
-/

namespace ScriptExcerpt

open Text

/-! ## Single recognizers -/

/-- The cause is one that a problem with a lexeme can have. -/
def Cause.isLexical : Cause → Bool
  | .unterminatedLiteral _ | .illegalCharacter _ | .numberFormat _ | .invalidUnicodeEscape
  | .invalidRegExpFlag _ => true
  | .markerNotFound _ | .unbalancedBrackets _ | .patternNotMatched _ | .invalidPattern _ _ => false

/-- The kind is one that a word can have. -/
def Kind.isWord : Kind → Bool
  | .identifier | .keyword _ | .reserved | .literal _ => true
  | _ => false

theorem Kind.not_isTrivia_of_isWord {k : Kind} (h : k.isWord) : k.isTrivia = false := by
  cases k <;> first | rfl | exact absurd h Bool.false_ne_true

/-- Whatever the state, the result is any, and the fault has a lexical cause. -/
abbrev Recognizer.Lexical {σ ρ : Type} (M : Recognizer σ ρ Fault) : Prop :=
  M.Ensures (fun _ => True) (fun _ => True) (fun f => f.cause.isLexical)

theorem Name.lexical : Name.recognizer.Lexical where
  step s c _ := by
    cases s with
    | opening => simp only [Name.recognizer, Name.step]; split <;> trivial
    | inside word escaped =>
      simp only [Name.recognizer, Name.step]
      split
      · trivial
      · split <;> trivial
    | backslash word => simp only [Name.recognizer, Name.step]; split <;> trivial
    | digits word left value =>
      simp only [Name.recognizer, Name.step]
      split
      · trivial
      · split
        · trivial
        · split <;> trivial
  atEnd s _ := by cases s <;> trivial

/-- Behind a whole number nothing is wrong yet. -/
theorem Number.lexical_stepBehindWhole (v : Version) (base : Nat) (value : List Char) (c : Char) :
    (Number.stepBehindWhole v base value c).Ensures (fun _ => True) (fun _ => True)
      (fun f => f.cause.isLexical) := by
  rw [Number.stepBehindWhole]
  split
  · trivial
  · split
    · trivial
    · split <;> trivial

theorem Number.lexical (v : Version) : (Number.recognizer v).Lexical where
  step s c _ := by
    cases s with
    | lonePoint => simp only [Number.recognizer, Number.step]; split <;> trivial
    | zero =>
      simp only [Number.recognizer, Number.step]
      split
      · trivial
      · split
        · trivial
        · split
          · trivial
          · exact lexical_stepBehindWhole ..
    | basePrefix base => simp only [Number.recognizer, Number.step]; split <;> trivial
    | octal value =>
      simp only [Number.recognizer, Number.step]
      split
      · trivial
      · split
        · trivial
        · exact lexical_stepBehindWhole ..
    | digits base part value =>
      simp only [Number.recognizer, Number.step]
      split
      · trivial
      · split
        · trivial
        · cases part with
          | whole => exact lexical_stepBehindWhole ..
          | fraction => simp only; split <;> trivial
          | exponent => trivial
    | separator base part value =>
      simp only [Number.recognizer, Number.step]
      split
      · trivial
      · split <;> trivial
    | bigInteger value => trivial
    | point value =>
      simp only [Number.recognizer, Number.step]
      split
      · trivial
      · split <;> trivial
    | exponent value =>
      simp only [Number.recognizer, Number.step]
      split
      · trivial
      · split <;> trivial
    | sign value => simp only [Number.recognizer, Number.step]; split <;> trivial
  atEnd s _ := by cases s <;> trivial

theorem Quotation.lexical_stepText (quote : Char) (decoded : CodeUnit.Decoder) (c : Char) :
    (Quotation.stepText quote decoded c).Ensures (fun _ => True) (fun _ => True)
      (fun f => f.cause.isLexical) := by
  rw [Quotation.stepText]
  split
  · trivial
  · split
    · trivial
    · split
      · trivial
      · split <;> trivial

theorem Quotation.lexical (quote : Char) : (Quotation.recognizer quote).Lexical where
  step s c _ := by
    cases s with
    | text decoded => exact lexical_stepText ..
    | continued decoded => exact lexical_stepText ..
    | backslash decoded => trivial
    | unicode decoded left value =>
      simp only [Quotation.recognizer, Quotation.step]
      split
      · trivial
      · split <;> trivial
    | byte decoded =>
      simp only [Quotation.recognizer, Quotation.step]
      split
      · exact lexical_stepText ..
      · trivial
    | halfByte decoded first value =>
      simp only [Quotation.recognizer, Quotation.step]
      split
      · exact lexical_stepText ..
      · trivial
    | octal decoded count value =>
      simp only [Quotation.recognizer, Quotation.step]
      split
      · split
        · trivial
        · exact lexical_stepText ..
      · exact lexical_stepText ..
  atEnd s _ := by cases s <;> trivial

theorem Comment.lexical_line : Comment.lineRecognizer.Lexical where
  step s c _ := by simp only [Comment.lineRecognizer]; split <;> trivial
  atEnd _ _ := trivial

theorem Comment.lexical_block : Comment.blockRecognizer.Lexical where
  step s c _ := by simp only [Comment.blockRecognizer]; split <;> trivial
  atEnd _ _ := rfl

theorem RegExp.lexical_stepBody (text : List Char) (inClass : Bool) (c : Char) :
    (RegExp.stepBody text inClass c).Ensures (fun _ => True) (fun _ => True)
      (fun f => f.1.cause.isLexical) := by
  rw [RegExp.stepBody]
  split
  · trivial
  · split
    · rfl
    · split <;> trivial

theorem RegExp.lexical : RegExp.recognizer.Ensures (fun _ => True) (fun _ => True)
    (fun f => f.1.cause.isLexical) where
  step s c _ := by
    cases s with
    | opening =>
      simp only [RegExp.recognizer, RegExp.step]
      split
      · rfl
      · exact lexical_stepBody ..
    | body text inClass => exact lexical_stepBody ..
    | backslash text inClass => simp only [RegExp.recognizer, RegExp.step]; split <;> trivial
    | flags text flags =>
      simp only [RegExp.recognizer, RegExp.step]
      split
      · trivial
      · split <;> trivial
  atEnd s _ := by cases s <;> trivial

namespace Operator

variable {table : List (List Char × Kind)}

theorem mem_of_kindOf? {text : List Char} {k : Kind} (h : kindOf? table text = some k) :
    (text, k) ∈ table := by
  obtain ⟨a, b, rfl, -⟩ := List.lookup_eq_some_iff.1 h
  exact List.mem_append_right _ List.mem_cons_self

/-- What an operator is read as has a spelling with the same first character. -/
theorem ensures (table : List (List Char × Kind)) (c : Char) :
    (recognizer table).Ensures
      (fun s => (∃ rest, s.text = c :: rest) ∧ ∃ rest, (c :: rest, s.kind) ∈ table)
      (fun k => ∃ rest, (c :: rest, k) ∈ table) (fun f => f.cause.isLexical) where
  step s d := by
    rintro ⟨⟨rest, hs⟩, hk⟩
    simp only [recognizer, step, hs, List.cons_append]
    -- With `d` the text is a spelling, or only begins one, or neither.
    split
    · next kind h =>
      split
      · exact ⟨⟨_, rfl⟩, _, mem_of_kindOf? h⟩
      · exact ⟨_, mem_of_kindOf? h⟩
    · split
      · exact ⟨⟨_, rfl⟩, hk⟩
      · exact hk
  atEnd s := by
    rintro ⟨-, hk⟩
    simp only [recognizer, atEnd]
    split <;> exact hk

end Operator

theorem isWord_nameKind (v : Version) (word : String) : (nameKind v word).isWord := by
  simp only [nameKind, wordKind?]
  cases Keyword.all.find? fun k => k.allowed v && k.spelling == word with
  | some k => cases k <;> cases v <;> rfl
  | none =>
    cases LiteralWord.all.find? (·.spelling == word) with
    | some w => rfl
    | none => cases isReserved v false word <;> cases v <;> rfl

theorem Name.isWord_kind (v : Version) (word : List Char) (escaped : Bool) :
    (Name.kind v word escaped).isWord := by
  rw [Name.kind]
  split
  · rfl
  · exact isWord_nameKind ..

/-! ## Lexemes -/

/-- The first character `c` of a lexeme allows the kind `k`. -/
def Lexeme.Allows (table : List (List Char × Kind)) (c : Char) (k : Kind) : Prop :=
  k.isWord ∨ k = .number ∨ k = .symbol .dot ∨ k = .template ∨ k = .string ∨
    ∃ rest, (c :: rest, k) ∈ table

theorem Lexeme.ensures_lineComment {P : Kind → Prop} (hP : P .lineComment) (cur : Cursor) :
    Verdict.Ensures P (fun f => f.cause.isLexical) (Lexeme.lineComment cur).verdict := by
  have h := Comment.lexical_line.runFrom (s := ()) trivial cur
  rw [Lexeme.lineComment]
  revert h
  cases (Comment.lineRecognizer.runFrom () cur).verdict with
  | ok r => exact fun _ => hP
  | error f => exact id

theorem Lexeme.ensures_blockComment {P : Kind → Prop} (hP : P .blockComment) (cur : Cursor) :
    Verdict.Ensures P (fun f => f.cause.isLexical) (Lexeme.blockComment cur).verdict := by
  have h := Comment.lexical_block.runFrom (s := false) trivial cur
  rw [Lexeme.blockComment]
  revert h
  cases (Comment.blockRecognizer.runFrom false cur).verdict with
  | ok r => exact fun _ => hP
  | error f => exact id

theorem Lexeme.ensures_symbol (table : List (List Char × Kind)) (c : Char) (behind : Cursor) :
    Verdict.Ensures (fun k => ∃ rest, (c :: rest, k) ∈ table) (fun f => f.cause.isLexical)
      (Lexeme.symbol table c behind).verdict := by
  rw [Lexeme.symbol]
  split
  · rfl
  · next kind hk =>
    have hmem := Operator.mem_of_kindOf? hk
    -- A symbol that no longer spelling begins with is read right away.
    split
    · have h := (Operator.ensures table c).runFrom (s := ⟨[c], kind⟩) ⟨⟨_, rfl⟩, _, hmem⟩ behind
      dsimp only
      split
      · next ho => rw [ho] at h; exact ensures_lineComment h _
      · next ho => rw [ho] at h; exact ensures_blockComment h _
      · next ho => rw [ho] at h; exact h
      · next ho => rw [ho] at h; exact h
    · exact ⟨_, hmem⟩

theorem Lexeme.ensures_name (v : Version) (c : Char) (behind : Cursor) :
    Verdict.Ensures (·.isWord = true) (fun f => f.cause.isLexical) (name v c behind).verdict := by
  have h := Name.lexical.runFrom (s := Name.start c) trivial behind
  rw [name]
  split
  · exact Name.isWord_kind ..
  · next f hf => rw [hf] at h; exact h

theorem Lexeme.ensures_number (v : Version) (c : Char) (behind : Cursor) :
    Verdict.Ensures (fun k => k = .number ∨ k = .symbol .dot) (fun f => f.cause.isLexical)
      (number v c behind).verdict := by
  have h := (Number.lexical v).runFrom (s := Number.start c) trivial behind
  rw [number]
  split
  · exact .inl rfl
  · exact .inr rfl
  · next f hf => rw [hf] at h; exact h

theorem Lexeme.ensures_quotation (c : Char) (behind : Cursor) :
    Verdict.Ensures (fun k => k = .template ∨ k = .string) (fun f => f.cause.isLexical)
      (quotation c behind).verdict := by
  have h := (Quotation.lexical c).runFrom (s := .text .empty) trivial behind
  rw [quotation]
  split
  · simp only [Verdict.Ensures]
    split
    · exact .inl rfl
    · exact .inr rfl
  · next f hf => rw [hf] at h; exact h

section Fault

variable {v : Version} {c : Char} {behind : Cursor} {f : Fault}

/-! The fault of a lexeme is that of the run which reads it. -/

theorem Lexeme.fault_name (h : (name v c behind).verdict = .error f) :
    (Name.recognizer.runFrom (Name.start c) behind).verdict = .error f := by
  rw [name] at h
  split at h
  · simp at h
  · next ho => rw [ho, Except.error.inj h]

theorem Lexeme.fault_number (h : (number v c behind).verdict = .error f) :
    ((Number.recognizer v).runFrom (Number.start c) behind).verdict = .error f := by
  rw [number] at h
  split at h
  · simp at h
  · simp at h
  · next ho => rw [ho, Except.error.inj h]

theorem Lexeme.fault_quotation (h : (quotation c behind).verdict = .error f) :
    ((Quotation.recognizer c).runFrom (.text .empty) behind).verdict = .error f := by
  rw [quotation] at h
  split at h
  · simp at h
  · next ho => rw [ho, Except.error.inj h]

theorem Lexeme.fault_lineComment (h : (lineComment behind).verdict = .error f) :
    (Comment.lineRecognizer.runFrom () behind).verdict = .error f := by
  rw [lineComment] at h
  cases ho : (Comment.lineRecognizer.runFrom () behind).verdict with
  | ok r => simp [ho, Except.map] at h
  | error e =>
    rw [ho] at h
    rw [Except.error.inj h]

theorem Lexeme.fault_blockComment (h : (blockComment behind).verdict = .error f) :
    (Comment.blockRecognizer.runFrom false behind).verdict = .error f := by
  rw [blockComment] at h
  cases ho : (Comment.blockRecognizer.runFrom false behind).verdict with
  | ok r => simp [ho, Except.map] at h
  | error e =>
    rw [ho] at h
    rw [Except.error.inj h]

end Fault

/-- By its first character a lexeme is read as a name, as a number or the point, as a quotation,
    or as what the table of spellings tells. -/
theorem lexemeAt_cases {v : Version} {lineIsBlank : Bool} {c : Char} {behind : Cursor}
    {P : Lexeme → Prop} (name : c = '\\' || isNameStart c → P (.name v c behind))
    (number : isDigitOf 10 c || c = '.' → P (.number v c behind))
    (quotation : isQuote c → P (.quotation c behind))
    (symbol : P (.symbol (Operator.spellings v lineIsBlank) c behind)) :
    P (lexemeAt v lineIsBlank c behind) := by
  rw [lexemeAt]
  split
  · next h => exact name h
  · split
    · next h => exact number h
    · split
      · next h => exact quotation h
      · exact symbol

/-- What a lexeme is read as, or what is wrong with it. -/
theorem ensures_lexemeAt (v : Version) (lineIsBlank : Bool) (c : Char) (behind : Cursor) :
    Verdict.Ensures (Lexeme.Allows (Operator.spellings v lineIsBlank) c)
      (fun f => f.cause.isLexical) (lexemeAt v lineIsBlank c behind).verdict := by
  refine lexemeAt_cases (P := fun l => Verdict.Ensures _ _ l.verdict)
    (fun _ => ?_) (fun _ => ?_) (fun _ => ?_) ?_
  · exact (Lexeme.ensures_name v c behind).imp fun h => .inl h
  · refine (Lexeme.ensures_number v c behind).imp fun h => ?_
    exact h.elim (fun h => .inr (.inl h)) fun h => .inr (.inr (.inl h))
  · refine (Lexeme.ensures_quotation c behind).imp fun h => ?_
    exact h.elim (fun h => .inr (.inr (.inr (.inl h)))) fun h => .inr (.inr (.inr (.inr (.inl h))))
  · refine (Lexeme.ensures_symbol (Operator.spellings v lineIsBlank) c behind).imp fun h => ?_
    exact .inr (.inr (.inr (.inr (.inr h))))

/-- What can be wrong with a lexeme. -/
theorem cause_lexemeAt {v : Version} {lineIsBlank : Bool} {c : Char} {behind : Cursor} {f : Fault}
    (h : (lexemeAt v lineIsBlank c behind).verdict = .error f) : f.cause.isLexical :=
  (ensures_lexemeAt v lineIsBlank c behind).error h

/-- What a lexeme can be. -/
theorem kind_lexemeAt {v : Version} {lineIsBlank : Bool} {c : Char} {behind : Cursor} {k : Kind}
    (h : (lexemeAt v lineIsBlank c behind).verdict = .ok k) :
    Lexeme.Allows (Operator.spellings v lineIsBlank) c k :=
  (ensures_lexemeAt v lineIsBlank c behind).ok h

/-- No spelling means the end of the script. -/
theorem Operator.ne_endOfInput_of_mem {v : Version} {lineIsBlank : Bool} {text : List Char}
    {k : Kind} (h : (text, k) ∈ spellings v lineIsBlank) : k ≠ .endOfInput := by
  have hall : ∀ p ∈ spellings v lineIsBlank, p.2 ≠ .endOfInput := by
    cases v <;> cases lineIsBlank <;> decide
  exact hall _ h

/-- A lexeme is never the end of the script. -/
theorem lexemeAt_ne_endOfInput (v : Version) (lineIsBlank : Bool) (c : Char) (behind : Cursor) :
    (lexemeAt v lineIsBlank c behind).verdict ≠ .ok .endOfInput := by
  intro h
  rcases kind_lexemeAt h with hw | hk | hk | hk | hk | ⟨rest, hm⟩
  · simp [Kind.isWord] at hw
  · simp at hk
  · simp at hk
  · simp at hk
  · simp at hk
  · exact Operator.ne_endOfInput_of_mem hm rfl

end ScriptExcerpt
