import ScriptExcerpt.Proofs.Lexeme.Name
import ScriptExcerpt.Proofs.Token.Number

/-!
# Scripts that are a name

A script may be a single name (`ReadsAsName`). Whichever of its characters are escaped, its
value stays the same if the vocabulary of the version does not list its word. A word that is
listed, and is a name all the same because it came into use later, keeps its value only without
escapes.

* `isNameStart_of_nextSignificant`: what is read as a name begins like one;
* `readsAsName_written`: a script that is a name;
* `TokenStream.readsAsName_escaped_iff`: the names that keep their value.
-/

namespace ScriptExcerpt

open Text

/-! ## What begins with a character of a name -/

variable {v : Version} {lineIsBlank : Bool} {c : Char} {cs w : List Char}

/-- No symbol and no comment begins with a character of a name. -/
theorem Operator.not_isNamePart_of_mem {k : Kind} (h : (c :: w, k) ∈ spellings v lineIsBlank) :
    isNamePart c = false := by
  have hall : ∀ p ∈ spellings v lineIsBlank, isNamePart (p.1.headD ' ') = false := by
    cases v <;> cases lineIsBlank <;> decide +kernel
  exact hall _ h

/-- No quote is a character of a name. -/
theorem not_isNamePart_of_isQuote (h : isQuote c) : isNamePart c = false := by
  simp only [isQuote, Bool.or_eq_true, beq_iff_eq] at h
  rcases h with (rfl | rfl) | rfl <;> decide

/-- What begins with a character that goes on with a name, but begins none, is a number. -/
theorem kind_lexemeAt_of_isNamePart {behind : Cursor} {k : Kind} (hc : isNamePart c)
    (hstart : isNameStart c = false) (h : (lexemeAt v lineIsBlank c behind).verdict = .ok k) :
    k = .number ∨ k = .symbol .dot := by
  revert h
  refine lexemeAt_cases (P := fun l => l.verdict = .ok k → k = .number ∨ k = .symbol .dot)
    (fun hname => ?_) (fun _ => ?_) (fun hquote => ?_) fun h => ?_
  · simp [(isWordPart_of_isNamePart hc).not_backslash, hstart] at hname
  · exact (Lexeme.ensures_number v c behind).ok
  · exact absurd (hc.symm.trans (not_isNamePart_of_isQuote hquote)) (by decide)
  · obtain ⟨rest, hmem⟩ := (Lexeme.ensures_symbol _ c behind).ok h
    exact absurd (hc.symm.trans (Operator.not_isNamePart_of_mem hmem)) (by decide)

/-- What is read as a name begins like one, if it is made of characters of names. -/
theorem LexemeReader.isNameStart_of_nextSignificant {r : LexemeReader} (hc : isNamePart c)
    (hrest : r.cursor.rest = c :: cs) (hret : r.cursor.place.afterReturn = false)
    (h : r.nextSignificant.1 = .ok .identifier) : isNameStart c := by
  rw [← Bool.not_eq_false]
  intro hstart
  have hnext := next_of_inked (inked_of_isNamePart hc) hrest hret
  rcases hlexeme : (lexemeAt r.version r.lineIsBlank c ⟨r.cursor.place.past c, cs⟩).verdict
    with f | k
  · rw [accept, hlexeme] at hnext
    rw [nextSignificant_of_problem hnext] at h
    simp at h
  · rw [accept, hlexeme] at hnext
    rw [nextSignificant_of_next hnext] at h
    rcases kind_lexemeAt_of_isNamePart hc hstart hlexeme with rfl | rfl
    · simp [Kind.isTrivia] at h
    · simp [Kind.isTrivia] at h

/-! ## Scripts of one name -/

/-- The script is a name with the value. -/
def ReadsAsName (v : Version) (source value : List Char) : Prop :=
  tokenize source v = .ok [⟨.identifier, String.ofList value, ⟨0, byteLength source⟩⟩,
    ⟨.endOfInput, "", ⟨byteLength source, byteLength source⟩⟩]

instance (v : Version) (source value : List Char) : Decidable (ReadsAsName v source value) :=
  inferInstanceAs (Decidable (tokenize source v = .ok _))

namespace ReadsAsName

variable {source value value' : List Char}

theorem value_eq (h : ReadsAsName v source value) (h' : ReadsAsName v source value') :
    value = value' := by
  have htokens := List.cons.inj (Except.ok.inj (Eq.trans (Eq.symm h) h'))
  exact String.ofList_injective (congrArg Token.value htokens.1)

/-- The first lexeme of the script is a name. -/
theorem nextSignificant (h : ReadsAsName v source value) :
    (LexemeReader.startingAt source 0 v).nextSignificant.1 = .ok .identifier := by
  rw [ReadsAsName, tokenize] at h
  rcases hnext : (TokenStream.ofSource source v).next with ⟨p | t, s'⟩
  · rw [TokenStream.tokens_of_problem hnext] at h
    simp at h
  · rw [TokenStream.tokens_of_token hnext] at h
    have hkind : t.kind = .identifier := by
      split at h
      · split at h <;> simp at h
      · rcases htokens : s'.tokens with p | ts
        · rw [htokens] at h
          cases h
        · rw [htokens] at h
          have hcons := List.cons.inj (Except.ok.inj h)
          rw [hcons.1]
    obtain ⟨k, hread, rfl, -⟩ := TokenStream.next_ok hnext
    obtain rfl : k = .identifier := hkind
    rcases TokenStream.read_ok hread with ⟨hsig, -⟩ | ⟨hk, -⟩
    · exact congrArg Prod.fst hsig
    · simp at hk

end ReadsAsName

/-- The token of the end of a script. -/
theorem TokenStream.token_of_endOfInput {source : List Char} {s s' : TokenStream} {t : Token}
    (hs : s.reader.cursor.StandsIn source) (h : s.next = (.ok t, s')) (ht : t.kind = .endOfInput) :
    t = ⟨.endOfInput, "", ⟨byteLength source, byteLength source⟩⟩ := by
  have hspan := span_of_endOfInput hs h ht
  obtain ⟨hend, rfl⟩ := atEnd_of_next h ht
  have hlexeme : s'.reader.lexeme = [] := by
    rw [LexemeReader.lexeme, hend.opening, hend.stop, Cursor.textTo, Nat.sub_self, takeBytes_zero]
  have htoken : token s'.reader .endOfInput = ⟨.endOfInput, String.ofList s'.reader.lexeme,
      (token s'.reader .endOfInput).span⟩ := rfl
  rw [htoken, hspan, hlexeme, String.ofList_nil]

/-- A script that is a name is read as one, unless its word is more than that. -/
theorem readsAsName_written (n : Name.Written)
    (hkind : Name.kind v n.word n.escaped = .identifier) :
    ReadsAsName v n.text (Name.value v n.word n.escaped) := by
  let s := TokenStream.ofSource n.text v
  have hcursor : s.reader.cursor = ⟨.atOffset 0, n.text⟩ := Cursor.startingAt_zero n.text
  have hrest : s.reader.cursor.rest = n.text ++ [] := by
    rw [hcursor, List.append_nil]
  obtain ⟨r, hnext, hr⟩ := LexemeReader.next_written n hrest
    (congrArg (·.place.afterReturn) hcursor) (fun d hd => by simp at hd)
  have hnext : s.reader.next = (.ok .identifier, r) := hkind ▸ hnext
  obtain ⟨s₁, hs₁, rfl, hbalanced, hspan⟩ := TokenStream.next_of_readsText hnext hr (.inr rfl)
  obtain ⟨t, s₂, hs₂, ht, -, hparens, hbraces⟩ := TokenStream.next_of_rest_nil (hr.rest_eq hrest)
  have hbalanced : s₂.isBalanced := by
    rw [TokenStream.isBalanced, Grouping.isBalanced, hparens, hbraces]
    exact hbalanced
  have hname : TokenStream.token s₁.reader .identifier =
      ⟨.identifier, String.ofList (Name.value v n.word n.escaped), ⟨0, byteLength n.text⟩⟩ := by
    have hspan : (TokenStream.token s₁.reader .identifier).span = ⟨0, byteLength n.text⟩ := by
      rw [hspan, hcursor]
      exact congrArg (Span.mk 0) (Nat.zero_add _)
    rw [← hspan, show Name.value v n.word n.escaped = s₁.reader.value from hr.value.symm]
    rfl
  have hstands : s.reader.cursor.StandsIn n.text := Cursor.standsIn_startingAt n.text 0
  have htokens := (TokenStream.Reads.cons hs₁ (.nil s₁)).tokens_eq
    (by simp [hname]) hs₂ ht hbalanced
  rw [hname, TokenStream.token_of_endOfInput (hstands.leads (TokenStream.leads_reader_next hs₁))
    hs₂ ht] at htokens
  exact htokens

/-! ## Words with escapes -/

/-- A word that is read as a name without escapes begins like one, and its version gives it no
    other meaning. -/
theorem ReadsAsName.nameKind_eq (hw : ∀ c ∈ w, isNamePart c) (h : ReadsAsName v w w) :
    (∃ c cs, w = c :: cs ∧ isNameStart c) ∧ nameKind v (String.ofList w) = .identifier := by
  have hsig := h.nextSignificant
  have hcursor : (LexemeReader.startingAt w 0 v).cursor = ⟨.atOffset 0, w⟩ :=
    Cursor.startingAt_zero w
  rcases w with _ | ⟨c, cs⟩
  · rw [LexemeReader.nextSignificant_of_rest_nil (congrArg Cursor.rest hcursor)] at hsig
    simp at hsig
  · have hc := LexemeReader.isNameStart_of_nextSignificant (hw c List.mem_cons_self)
      (congrArg Cursor.rest hcursor) (congrArg (·.place.afterReturn) hcursor) hsig
    refine ⟨⟨c, cs, rfl, hc⟩, ?_⟩
    obtain ⟨xs, htext, hword, hescape⟩ := Name.exists_plain hw
    obtain ⟨n, rfl⟩ := Name.exists_written hword hc
    have hnext := (LexemeReader.next_written_alone n v).1
    rw [show n.text = c :: cs from htext, show n.word = c :: cs from hword,
      show n.escaped = false from hescape] at hnext
    have htrivia := Kind.not_isTrivia_of_isWord (Name.isWord_kind v (c :: cs) false)
    rw [LexemeReader.nextSignificant_of_next (Prod.ext hnext rfl), if_neg (by simp [htrivia])]
      at hsig
    exact Except.ok.inj hsig

/-- The vocabulary lists no word as a name. -/
theorem wordKind?_ne_identifier (v : Version) (strict : Bool) (word : String) :
    wordKind? v strict word ≠ some .identifier := by
  rw [wordKind?]
  split
  · simp
  · split
    · simp
    · split <;> simp

/-- In ECMAScript 6 a word that the vocabulary lists is no name. -/
theorem wordKind?_eq_none_of_es6 {word : String} (h : nameKind .es6 word = .identifier) :
    wordKind? .es6 false word = none := by
  rw [nameKind] at h
  split at h
  · assumption
  · simp at h
  · simp at h
  · simp at h
  · next hk => exact absurd (h ▸ hk) (wordKind?_ne_identifier .es6 false word)

/-- The value of a word with its last character escaped is not the word. -/
theorem Name.escapeLast_ne (h : wordKind? v false (String.ofList w) ≠ none) :
    escapeLast w ≠ w := by
  obtain ⟨init, c, ds, -, rfl, -, -, hlast, -⟩ := exists_written_escapeLast (mem_vocabulary h)
  rw [hlast]
  simp

namespace TokenStream

/-- A word that is read as a name keeps its value, whichever of its characters are escaped, exactly
    if the vocabulary of the version does not list it. If it does, the value is spelled with the
    last character escaped. In ECMAScript 6 every name keeps its value. -/
theorem readsAsName_escaped_iff (hw : ∀ c ∈ w, isNamePart c) (h : ReadsAsName v w w)
    (xs : List Name.Part) (hword : xs.map Name.Part.char = w)
    (hescape : xs.any Name.Part.isEscape) :
    let text := xs.flatMap Name.Part.text
    (ReadsAsName v text w ↔ wordKind? v false (String.ofList w) = none) ∧
      (wordKind? v false (String.ofList w) ≠ none → ReadsAsName v text (Name.escapeLast w)) ∧
      (v = .es6 → ReadsAsName v text w) := by
  intro text
  obtain ⟨⟨c, cs, hcons, hc⟩, hkind⟩ := h.nameKind_eq hw
  obtain ⟨n, hn⟩ := Name.exists_written (hword.trans hcons) hc
  have htext : n.text = text := congrArg (·.flatMap Name.Part.text) hn
  have hread := readsAsName_written n (v := v)
  rw [Name.Written.word, Name.Written.escaped, hn, hword, hescape, htext] at hread
  have hread : ReadsAsName v text (Name.value v w true) := hread rfl
  by_cases hnone : wordKind? v false (String.ofList w) = none
  · rw [Name.value_eq_self hnone] at hread
    exact ⟨iff_of_true hread hnone, absurd hnone, fun _ => hread⟩
  · rw [Name.value_eq_escapeLast hnone] at hread
    refine ⟨iff_of_false (fun hsame => ?_) hnone, fun _ => hread, ?_⟩
    · exact Name.escapeLast_ne hnone (hread.value_eq hsame)
    · rintro rfl
      exact absurd (wordKind?_eq_none_of_es6 hkind) hnone

/-- Before ECMAScript 6 `of` is listed nowhere, so that it is the same name with its first letter
    escaped. -/
theorem readsAsName_escaped_of :
    let xs : List Name.Part :=
      [.escape [⟨'0', rfl⟩, ⟨'0', rfl⟩, ⟨'6', rfl⟩, ⟨'f', rfl⟩] rfl (by decide), .plain 'f' rfl]
    (∀ c ∈ "of".toList, isNamePart c) ∧ ReadsAsName .js17 "of".toList "of".toList ∧
      xs.map Name.Part.char = "of".toList ∧ xs.any Name.Part.isEscape ∧
      ReadsAsName .js17 "\\u006ff".toList "of".toList := by
  intro xs
  have hw : ∀ c ∈ "of".toList, isNamePart c := List.all_eq_true.1 (by decide)
  have hread : ReadsAsName .js17 "of".toList "of".toList := by decide +kernel
  have hlisted : wordKind? .js17 false (String.ofList "of".toList) = none := by decide
  exact ⟨hw, hread, rfl, rfl, (readsAsName_escaped_iff hw hread xs rfl rfl).1.2 hlisted⟩

/-- Before version 1.7 `let` is a name, but not the same one with its second letter escaped. -/
theorem readsAsName_unescaped_let :
    let xs : List Name.Part := [.plain 'l' rfl,
      .escape [⟨'0', rfl⟩, ⟨'0', rfl⟩, ⟨'6', rfl⟩, ⟨'5', rfl⟩] rfl (by decide), .plain 't' rfl]
    (∀ c ∈ "let".toList, isNamePart c) ∧ ReadsAsName .legacy "let".toList "let".toList ∧
      xs.map Name.Part.char = "let".toList ∧ xs.any Name.Part.isEscape ∧
      ReadsAsName .legacy (xs.flatMap Name.Part.text) "le\\u0074".toList ∧
      ¬ ReadsAsName .legacy (xs.flatMap Name.Part.text) "let".toList := by
  intro xs
  have hw : ∀ c ∈ "let".toList, isNamePart c := List.all_eq_true.1 (by decide)
  exact ⟨hw, by decide +kernel, rfl, rfl, by decide +kernel, by decide +kernel⟩

end TokenStream

end ScriptExcerpt
