import ScriptExcerpt.Proofs.Lexeme.RegExp
import ScriptExcerpt.Proofs.Token.History

/-!
# Words of a script

A script is written word by word: blanks, comments and line ends, and the tokens
that the grammar sees (`Word`). If every word fits where it stands (`Words.Fit`),
then these tokens are read, one after the other. The last word is closed: anything
may stand behind it.

* `Words.Fit.append`: words may be put together.
* `Word.nextSignificant_trivia`, `Word.nextSignificant_token`,
  `Word.nextSignificant_regExp`: one word is read.
* `TokenStream.StandsBefore.next_word`: a step of a stream over one word.
* `TokenStream.exists_reads_words`: the tokens that a stream reads of words.
-/

namespace ScriptExcerpt

open Text

/-! ## Slashes -/

/-- A slash behind a token of the kind opens a regular expression, or does not. Behind closing
    parentheses and braces the kind does not tell. -/
def Kind.opensRegExp? : Kind → Option Bool
  | .keyword k => some (k != .this)
  | .reserved => some true
  | .symbol .closeParen | .symbol .closeCurly => none
  | .symbol s => some (s != .closeBracket)
  | _ => some false

theorem Grouping.slashOpensRegExp_of_kind {g : Grouping} {trace : Trace} {opens : Bool}
    (h : g.last? = some trace) (hk : trace.kind.opensRegExp? = some opens) :
    g.slashOpensRegExp = opens := by
  obtain ⟨k, line, role⟩ := trace
  rw [slashOpensRegExp, h]
  cases k with
  | symbol s => cases s <;> first | exact Option.some.inj hk | simp [Kind.opensRegExp?] at hk
  | _ => exact Option.some.inj hk

theorem Symbol.spelling_ne_nil (s : Symbol) : s.spelling.toList ≠ [] := by
  cases s <;> decide

/-! ## Words -/

/-- A word of a script. -/
inductive Word
  /-- A space. -/
  | blank
  /-- The end of a line. -/
  | newline
  /-- A line comment, without the end of its line. -/
  | lineComment (body : List Char)
  /-- A block comment. -/
  | blockComment (body : List Char)
  /-- A name or keyword. -/
  | name (first : Char) (others : List Char)
  /-- Digits. -/
  | number (first : Char) (others : List Char)
  /-- A symbol. -/
  | symbol (s : Symbol)
  /-- A string or template. -/
  | quotation (quote : { c : Char // isQuote c }) (items : List (Quotation.Item quote.1))
  /-- A regular expression. -/
  | regExp (first : Char) (others flags : List Char)

namespace Word

/-- How the word is written. -/
def text : Word → List Char
  | blank => [' ']
  | newline => ['\n']
  | lineComment body => '/' :: '/' :: body
  | blockComment body => '/' :: '*' :: (body ++ ['*', '/'])
  | name first others | number first others => first :: others
  | symbol s => s.spelling.toList
  | quotation quote items => quote.1 :: (items.flatMap Quotation.Item.text ++ [quote.1])
  | regExp first others flags => '/' :: first :: (others ++ '/' :: flags)

/-- The kind of the token that the word is, if the grammar sees it. -/
def kind? (v : Version) : Word → Option Kind
  | blank | newline | lineComment _ | blockComment _ => none
  | name first others => some (nameKind v (String.ofList (first :: others)))
  | number _ _ => some .number
  | symbol s => some (.symbol s)
  | quotation quote _ => some (if quote.1 = '`' then .template else .string)
  | regExp _ _ _ => some .regExp

/-- The text is that of such a word. -/
def IsWritten (v : Version) : Word → Prop
  | blank | newline | quotation _ _ => True
  | lineComment body => ∀ x ∈ body, Plain x
  | blockComment body => ∀ x ∈ body, Plain x ∧ x ≠ '*'
  | name first others =>
    (isNameStart first ∧ first ≠ '\\' ∧ Inked first) ∧ ∀ x ∈ others, IsWordPart x
  | number first others => isDigitOf 10 first ∧ first ≠ '0' ∧ ∀ x ∈ others, isDigitOf 10 x
  | symbol s => s.allowed v ∧ s ≠ .dot
  | regExp first others flags =>
    (IsRegExpPart first ∧ first ≠ '*' ∧ first ≠ '=') ∧ (∀ x ∈ others, IsRegExpPart x) ∧
      ∀ x ∈ flags, x ∈ RegExp.knownFlags

/-- The word ends before the character `d`. -/
def EndsBefore (v : Version) (d : Char) : Word → Prop
  | blank | newline | blockComment _ | quotation _ _ => True
  | lineComment _ => isLineEnd d
  | name _ _ => d ≠ '\\' ∧ isNamePart d = false ∧ isInvisible d = false
  | number _ _ => EndsNumber v d
  | symbol s => isInvisible d = false ∧ ∀ lineIsBlank,
    Operator.begins (Operator.spellings v lineIsBlank) (s.spelling.toList ++ [d]) = false
  | regExp _ _ _ => isInvisible d = false ∧ d ∉ RegExp.knownFlags ∧ isAlphabetic d = false

/-- The word ends whatever stands behind it. -/
def IsClosed (v : Version) : Word → Prop
  | blank | newline | blockComment _ | quotation _ _ => True
  | symbol s => ∀ lineIsBlank,
    Operator.extends? (Operator.spellings v lineIsBlank) s.spelling.toList = false
  | lineComment _ | name _ _ | number _ _ | regExp _ _ _ => False

/-- The word is what it is behind a token of the kind `prev?`, or behind any token if that is
    not known. -/
def FitsBehind (prev? : Option Kind) : Word → Prop
  | symbol s => s = .slash ∨ s = .slashEquals → prev?.bind Kind.opensRegExp? = some false
  | regExp _ _ _ => prev?.bind Kind.opensRegExp? = some true
  | _ => True

instance (v : Version) : (w : Word) → Decidable (w.IsWritten v)
  | blank | newline | quotation _ _ => inferInstanceAs (Decidable True)
  | lineComment body => List.decidableBAll Plain body
  | blockComment body => List.decidableBAll (fun x => Plain x ∧ x ≠ '*') body
  | name _ others =>
    have := List.decidableBAll IsWordPart others
    inferInstanceAs (Decidable ((_ ∧ _ ∧ _) ∧ ∀ x ∈ others, IsWordPart x))
  | number _ others =>
    have := List.decidableBAll (isDigitOf 10 · = true) others
    inferInstanceAs (Decidable (_ ∧ _ ∧ ∀ x ∈ others, isDigitOf 10 x))
  | symbol _ => inferInstanceAs (Decidable (_ ∧ _))
  | regExp _ others flags =>
    have := List.decidableBAll IsRegExpPart others
    have := List.decidableBAll (· ∈ RegExp.knownFlags) flags
    inferInstanceAs (Decidable
      ((_ ∧ _ ∧ _) ∧ (∀ x ∈ others, IsRegExpPart x) ∧ ∀ x ∈ flags, x ∈ RegExp.knownFlags))

instance (v : Version) (d : Char) : (w : Word) → Decidable (w.EndsBefore v d)
  | blank | newline | blockComment _ | quotation _ _ => inferInstanceAs (Decidable True)
  | lineComment _ => inferInstanceAs (Decidable (isLineEnd d))
  | name _ _ => inferInstanceAs (Decidable (_ ∧ _ ∧ _))
  | number _ _ => inferInstanceAs (Decidable (_ ∧ _ ∧ _ ∧ _ ∧ _ ∧ _))
  | symbol s => inferInstanceAs (Decidable (_ ∧ ∀ lineIsBlank,
      Operator.begins (Operator.spellings v lineIsBlank) (s.spelling.toList ++ [d]) = false))
  | regExp _ _ _ => inferInstanceAs (Decidable (_ ∧ _ ∧ _))

instance (v : Version) : (w : Word) → Decidable (w.IsClosed v)
  | blank | newline | blockComment _ | quotation _ _ => inferInstanceAs (Decidable True)
  | symbol s => inferInstanceAs (Decidable (∀ lineIsBlank,
      Operator.extends? (Operator.spellings v lineIsBlank) s.spelling.toList = false))
  | lineComment _ | name _ _ | number _ _ | regExp _ _ _ => inferInstanceAs (Decidable False)

instance (prev? : Option Kind) : (w : Word) → Decidable (w.FitsBehind prev?)
  | symbol _ => inferInstanceAs (Decidable (_ → _))
  | regExp _ _ _ => inferInstanceAs (Decidable (_ = _))
  | blank | newline | blockComment _ | quotation _ _ | lineComment _ | name _ _ | number _ _ =>
    inferInstanceAs (Decidable True)

end Word

/-- The text of words. -/
def Words.text (ws : List Word) : List Char :=
  ws.flatMap Word.text

/-- The kinds of the tokens among words. -/
def Words.kinds (v : Version) (ws : List Word) : List Kind :=
  ws.filterMap (Word.kind? v)

/-- Every word fits where it stands, behind a token of the kind `prev?`, or behind any token if
    that is not known. The last one is closed. -/
def Words.Fit (v : Version) : Option Kind → List Word → Prop
  | _, [] => True
  | prev?, w :: ws =>
    w.IsWritten v ∧ w.FitsBehind prev? ∧ (w.IsClosed v ∨ ∃ d ∈ (text ws).head?, w.EndsBefore v d) ∧
      Fit v ((w.kind? v).or prev?) ws

instance Words.decidableFit (v : Version) :
    (prev? : Option Kind) → (ws : List Word) → Decidable (Fit v prev? ws)
  | _, [] => inferInstanceAs (Decidable True)
  | prev?, w :: ws =>
    have := decidableFit v ((w.kind? v).or prev?) ws
    have : Decidable (∃ d ∈ (text ws).head?, w.EndsBefore v d) := Option.decidableExistsMem _
    inferInstanceAs (Decidable (_ ∧ _ ∧ (_ ∨ ∃ d ∈ (text ws).head?, w.EndsBefore v d) ∧ _))

/-- A word that may stand behind any token may stand behind this one. -/
theorem Word.FitsBehind.of_none {prev? : Option Kind} {w : Word} (h : w.FitsBehind none) :
    w.FitsBehind prev? := by
  cases w with
  | symbol s =>
    intro hs
    have hnone := h hs
    simp at hnone
  | regExp first others flags => simp [FitsBehind] at h
  | _ => trivial

namespace Words

variable {v : Version} {prev? : Option Kind} {ws ws' : List Word}

theorem text_append : text (ws ++ ws') = text ws ++ text ws' :=
  List.flatMap_append

theorem kinds_append : kinds v (ws ++ ws') = kinds v ws ++ kinds v ws' :=
  List.filterMap_append

/-- Words that fit behind any token fit behind this one. -/
theorem Fit.of_none (h : Fit v none ws) : Fit v prev? ws := by
  induction ws generalizing prev? with
  | nil => trivial
  | cons w ws ih =>
    obtain ⟨hw, hbehind, hends, hws⟩ := h
    refine ⟨hw, hbehind.of_none, hends, ?_⟩
    cases hk : w.kind? v with
    | none =>
      rw [hk] at hws
      exact ih hws
    | some k =>
      rw [hk] at hws
      exact hws

/-- Behind words that fit, others fit that do so behind any token. -/
theorem Fit.append (h : Fit v prev? ws) (h' : Fit v none ws') : Fit v prev? (ws ++ ws') := by
  induction ws generalizing prev? with
  | nil => exact h'.of_none
  | cons w ws ih =>
    obtain ⟨hw, hbehind, hends, hws⟩ := h
    refine ⟨hw, hbehind, hends.imp_right ?_, ih hws⟩
    rintro ⟨d, hd, hend⟩
    have hhead : (text (ws ++ ws')).head? = some d := by
      rw [text_append, List.head?_append, hd]
      rfl
    exact ⟨d, hhead, hend⟩

end Words

/-! ## Readers -/

/-- The reader stands before the text, and not right behind a carriage return. -/
structure LexemeReader.StandsBefore (v : Version) (t : List Char) (r : LexemeReader) : Prop where
  version : r.version = v
  rest : r.cursor.rest = t
  afterReturn : r.cursor.place.afterReturn = false

namespace LexemeReader.StandsBefore

variable {v : Version} {r : LexemeReader} {c : Char} {w t : List Char} {k : Kind}
  {value : Option (List Char)}

/-- A lexeme that is read wherever it stands is read next, or passed over. -/
theorem of_takes (h : r.StandsBefore v (c :: (w ++ t))) (hc : Inked c)
    (hl : ∀ lineIsBlank (p : Place), p.OnLine →
      (lexemeAt v lineIsBlank c ⟨p, w ++ t⟩).Takes ⟨p, w ++ t⟩ w k value)
    (hw : ∀ p : Place, p.OnLine → (p.through w).afterReturn = false) :
    ∃ r' : LexemeReader, r.nextSignificant =
      (if k.isTrivia then r'.nextSignificant else (.ok k, r')) ∧ r'.StandsBefore v t := by
  have hline := Place.onLine_past r.cursor.place hc.not_lineEnd
  have htakes := hl r.lineIsBlank _ hline
  rw [← h.version] at htakes
  obtain ⟨r', hnext, hr'⟩ := next_of_takes hc h.rest h.afterReturn htakes
  have hret := hr'.cursor.afterReturn_eq
  rw [Place.through, if_neg (Place.not_completes_of_afterReturn h.afterReturn c)] at hret
  exact ⟨r', nextSignificant_of_next hnext, hr'.version.trans h.version, hr'.rest_eq h.rest,
    hret.trans (hw _ hline)⟩

/-- A space is passed over. -/
theorem of_blank (h : r.StandsBefore v (' ' :: t)) :
    ∃ r' : LexemeReader, r.nextSignificant = r'.nextSignificant ∧ r'.StandsBefore v t := by
  have hskip : r.cursor.skipGap = Cursor.skipGap ⟨r.cursor.place.past ' ', t⟩ := by
    rw [Cursor.skipGap, h.rest, Cursor.skipGapFrom,
      if_neg (Place.not_completes_of_afterReturn h.afterReturn ' ')]
    rfl
  exact ⟨_, nextSignificant_of_skipGap _ hskip, h.version, rfl, rfl⟩

/-- A newline is passed over. -/
theorem of_newline (h : r.StandsBefore v ('\n' :: t)) :
    ∃ r' : LexemeReader, r.nextSignificant = r'.nextSignificant ∧ r'.StandsBefore v t := by
  have hskip : r.cursor.skipGap = ⟨r.cursor.place.look, '\n' :: t⟩ := by
    rw [Cursor.skipGap, h.rest, Cursor.skipGapFrom,
      if_neg (Place.not_completes_of_afterReturn h.afterReturn '\n')]
    rfl
  have hnext := next_of_gap hskip
  rw [show isLineEnd '\n' = true from rfl, if_pos rfl] at hnext
  exact ⟨_, nextSignificant_of_next hnext, h.version, rfl, rfl⟩

end LexemeReader.StandsBefore

namespace Word

open LexemeReader

variable {v : Version} {r : LexemeReader} {w : Word} {t : List Char} {k : Kind}

/-- What the grammar does not see is passed over. -/
theorem nextSignificant_trivia (hw : w.IsWritten v)
    (ht : w.IsClosed v ∨ ∀ d ∈ t.head?, w.EndsBefore v d) (hk : w.kind? v = none)
    (hr : r.StandsBefore v (w.text ++ t)) :
    ∃ r' : LexemeReader, r.nextSignificant = r'.nextSignificant ∧ r'.StandsBefore v t := by
  cases w with
  | blank => exact hr.of_blank
  | newline => exact hr.of_newline
  | lineComment body =>
    refine StandsBefore.of_takes (w := '/' :: body) hr (by decide)
      (fun lineIsBlank p hp => lexemeAt_lineComment hw (ht.resolve_left id) hp) fun p hp => ?_
    exact (Place.onLine_through_plain hp (List.forall_mem_cons.2 ⟨by decide, hw⟩)).afterReturn
  | blockComment body =>
    refine StandsBefore.of_takes (w := '*' :: (body ++ ['*', '/'])) hr (by decide)
      (fun lineIsBlank p hp => lexemeAt_blockComment hw hp) fun p hp => ?_
    refine (Place.onLine_through_plain hp ?_).afterReturn
    simp only [List.forall_mem_cons, List.forall_mem_append]
    exact ⟨by decide, fun x hx => (hw x hx).1, by decide, by decide, nofun⟩
  | name _ _ | number _ _ | symbol _ | quotation _ _ | regExp _ _ _ => simp [kind?] at hk

/-- The word is a regular expression. -/
def isRegExp : Word → Bool
  | regExp _ _ _ => true
  | _ => false

/-- What the grammar sees is read next, unless it is a regular expression. -/
theorem nextSignificant_token (hw : w.IsWritten v)
    (ht : w.IsClosed v ∨ ∀ d ∈ t.head?, w.EndsBefore v d) (hk : w.kind? v = some k)
    (hr : r.StandsBefore v (w.text ++ t)) (hregExp : w.isRegExp = false) :
    ∃ r', r.nextSignificant = (.ok k, r') ∧ r'.StandsBefore v t := by
  cases w with
  | blank | newline | lineComment _ | blockComment _ => simp [kind?] at hk
  | regExp _ _ _ => simp [isRegExp] at hregExp
  | name first others =>
    obtain ⟨⟨hfirst, hback, hinked⟩, hothers⟩ := hw
    obtain rfl := Option.some.inj hk
    have hplain : ∀ x ∈ others, Plain x := fun x hx => (hothers x hx).toPlain
    obtain ⟨r', hnext, hr'⟩ := StandsBefore.of_takes hr hinked
      (fun lineIsBlank p hp => lexemeAt_name hfirst hback hothers (ht.resolve_left id) hp)
      fun p hp => (Place.onLine_through_plain hp hplain).afterReturn
    rw [Kind.not_isTrivia_of_isWord (isWord_nameKind _ _), if_neg Bool.false_ne_true] at hnext
    exact ⟨r', hnext, hr'⟩
  | number first others =>
    obtain ⟨hfirst, hzero, hothers⟩ := hw
    obtain rfl := Option.some.inj hk
    obtain ⟨-, -, hinked⟩ := start_of_isDigitOf_ten hfirst
    exact StandsBefore.of_takes hr hinked
      (fun lineIsBlank p hp => lexemeAt_number hfirst hzero hothers (ht.resolve_left id) hp)
      fun p hp => (Place.onLine_through hp fun x hx =>
        Digit.not_isLineEnd ⟨x, hothers x hx⟩).afterReturn
  | symbol s =>
    obtain ⟨hallowed, hdot⟩ := hw
    obtain rfl := Option.some.inj hk
    have hkind : Operator.kindOf? (Operator.spellings v true) s.spelling.toList =
      some (.symbol s) := Operator.kindOf?_spelling hallowed
    obtain ⟨c, w, hs⟩ := List.exists_cons_of_ne_nil s.spelling_ne_nil
    have hinked : ∀ x ∈ c :: w, Inked x := fun x hx =>
      Operator.inked_of_mem_spelling (Operator.mem_of_kindOf? hkind) (hs ▸ hx)
    obtain ⟨hc, hw⟩ := List.forall_mem_cons.1 hinked
    rw [text, hs] at hr
    refine StandsBefore.of_takes hr hc (fun lineIsBlank p hp =>
      lexemeAt_symbol hs hallowed hdot (fun hlong d hd => ?_) hp)
      fun p hp => (Place.onLine_through hp fun x hx => (hw x hx).not_lineEnd).afterReturn
    rcases ht with hclosed | ht
    · exact absurd hlong (by rw [hclosed]; exact Bool.false_ne_true)
    · exact ⟨(ht d hd).1, (ht d hd).2 lineIsBlank⟩
  | quotation quote items =>
    obtain rfl := Option.some.inj hk
    have hinked := inked_of_isQuote quote.2
    obtain ⟨r', hnext, hr'⟩ := StandsBefore.of_takes hr hinked
      (fun lineIsBlank p hp => lexemeAt_quotation quote.2 items hp)
      fun p hp => by
        have hquote : ∀ q : Place, q.completes quote.1 ≠ true := fun q => by
          simp [Place.not_completes q hinked]
        rw [Place.through_append, Place.through, if_neg (hquote _)]
        exact ne_return_of_not_isLineEnd hinked.not_lineEnd
    refine ⟨r', ?_, hr'⟩
    rw [hnext]
    split <;> rfl

/-- Of a regular expression the slash is read next, and then the rest. -/
theorem nextSignificant_regExp {first : Char} {others flags : List Char}
    (hw : (regExp first others flags).IsWritten v)
    (ht : ∀ d ∈ t.head?, (regExp first others flags).EndsBefore v d)
    (hr : r.StandsBefore v ((regExp first others flags).text ++ t)) :
    ∃ r₁ r', r.nextSignificant = (.ok (.symbol .slash), r₁) ∧
      r₁.readRegExp false = (.ok (), r') ∧ r'.StandsBefore v t := by
  obtain ⟨⟨hfirst, hstar, hequals⟩, hothers, hflags⟩ := hw
  have htext : (regExp first others flags).text ++ t =
      (symbol .slash).text ++ first :: (others ++ '/' :: (flags ++ t)) := by
    simp [text, Symbol.spelling]
  have hslash : (symbol .slash).EndsBefore v first := by
    refine ⟨hfirst.not_invisible, fun lineIsBlank => ?_⟩
    have hall : ∀ p ∈ Operator.spellings v lineIsBlank, p.1.head? = some '/' →
        p.1[1]? ∈ [none, some '/', some '*', some '='] := by
      cases v <;> cases lineIsBlank <;> decide
    rw [← Bool.not_eq_true]
    intro hbegins
    obtain ⟨p, hp, hstarts⟩ := List.any_eq_true.1 hbegins
    obtain ⟨rest, hrest⟩ := List.isPrefixOf_iff_prefix.1 hstarts
    have hsecond := hall p hp (by rw [← hrest]; rfl)
    rw [show p.1[1]? = some first by rw [← hrest]; rfl] at hsecond
    simp [hfirst.not_slash, hstar, hequals] at hsecond
  rw [htext] at hr
  obtain ⟨r₁, hnext, hr₁⟩ := nextSignificant_token (w := symbol .slash) ⟨rfl, by decide⟩
    (.inr fun d hd => Option.some.inj hd ▸ hslash) rfl hr rfl
  obtain ⟨r', hread, hrest, hret⟩ :=
    readRegExp_literal hfirst hstar hothers hflags ht hr₁.rest hr₁.afterReturn
  refine ⟨r₁, r', hnext, hread, ?_, hrest, hret⟩
  rw [← hr₁.version, ← r₁.version_readRegExp false, hread]

end Word

/-! ## Streams -/

namespace TokenStream

variable {v : Version} {s s₀ : TokenStream} {w : Word} {t : List Char} {k : Kind}
  {prev? : Option Kind}

/-- What the stream reads next is what stands in the text. -/
def StandsBefore (v : Version) (t : List Char) (s : TokenStream) : Prop :=
  ∃ r : LexemeReader, s.reader.nextSignificant = r.nextSignificant ∧ r.StandsBefore v t

/-- The latest token of the stream is of the kind `prev?`, if that is known. -/
def IsBehind (prev? : Option Kind) (s : TokenStream) : Prop :=
  ∀ k ∈ prev?, ∃ trace, s.grouping.last? = some trace ∧ trace.kind = k

theorem isBehind_none : s.IsBehind none :=
  nofun

theorem IsBehind.slashOpensRegExp {opens : Bool} (h : s.IsBehind prev?)
    (hk : prev?.bind Kind.opensRegExp? = some opens) : s.grouping.slashOpensRegExp = opens := by
  obtain ⟨k, hprev, hopens⟩ := Option.bind_eq_some_iff.1 hk
  obtain ⟨trace, hlast, rfl⟩ := h k hprev
  exact Grouping.slashOpensRegExp_of_kind hlast hopens

/-- A word that is no regular expression does not open one. -/
theorem IsBehind.opensRegExp_eq_false (h : s.IsBehind prev?) (hbehind : w.FitsBehind prev?)
    (hk : w.kind? v = some k) (hregExp : w.isRegExp = false) : s.opensRegExp k = false := by
  have hother (hk : k ≠ .symbol .slash) (hk' : k ≠ .symbol .slashEquals) :
      s.opensRegExp k = false := by
    simp [opensRegExp, hk, hk']
  cases w with
  | blank | newline | lineComment _ | blockComment _ => simp [Word.kind?] at hk
  | regExp _ _ _ => simp [Word.isRegExp] at hregExp
  | number _ _ =>
    obtain rfl := Option.some.inj hk
    rfl
  | name first others =>
    obtain rfl := Option.some.inj hk
    have hword := isWord_nameKind v (String.ofList (first :: others))
    refine hother ?_ ?_ <;>
    · intro he
      rw [he] at hword
      exact Bool.false_ne_true hword
  | quotation quote _ =>
    obtain rfl := Option.some.inj hk
    by_cases hquote : quote.1 = '`' <;> simp only [hquote, if_true, if_false] <;> rfl
  | symbol a =>
    obtain rfl := Option.some.inj hk
    by_cases ha : a = .slash ∨ a = .slashEquals
    · rw [opensRegExp, h.slashOpensRegExp (hbehind ha), Bool.and_false]
    · rw [not_or] at ha
      exact hother (fun he => ha.1 (Kind.symbol.inj he)) (fun he => ha.2 (Kind.symbol.inj he))

/-- What the grammar does not see changes nothing. -/
theorem StandsBefore.of_trivia (hs : s.StandsBefore v (w.text ++ t)) (hw : w.IsWritten v)
    (ht : w.IsClosed v ∨ ∀ d ∈ t.head?, w.EndsBefore v d) (hk : w.kind? v = none) :
    s.StandsBefore v t := by
  obtain ⟨r, hnext, hr⟩ := hs
  obtain ⟨r', hnext', hr'⟩ := Word.nextSignificant_trivia hw ht hk hr
  exact ⟨r', hnext.trans hnext', hr'⟩

/-- A word that is a token is read as one. -/
theorem StandsBefore.read_word (hs : s.StandsBefore v (w.text ++ t)) (hw : w.IsWritten v)
    (ht : w.IsClosed v ∨ ∀ d ∈ t.head?, w.EndsBefore v d) (hk : w.kind? v = some k)
    (hprev : s.IsBehind prev?) (hbehind : w.FitsBehind prev?) :
    ∃ r', s.read = (.ok k, r') ∧ r'.StandsBefore v t := by
  obtain ⟨r, hnext, hr⟩ := hs
  cases hregExp : w.isRegExp with
  | false =>
    obtain ⟨r', hnext', hr'⟩ := Word.nextSignificant_token hw ht hk hr hregExp
    exact ⟨r', read_of_nextSignificant (hnext.trans hnext')
      (hprev.opensRegExp_eq_false hbehind hk hregExp), hr'⟩
  | true =>
    cases w with
    | regExp first others flags =>
      obtain rfl := Option.some.inj hk
      obtain ⟨r₁, r', hnext', hread, hr'⟩ :=
        Word.nextSignificant_regExp hw (ht.resolve_left id) hr
      refine ⟨r', read_of_readRegExp (hnext.trans hnext') ?_ hread, hr'⟩
      rw [opensRegExp, hprev.slashOpensRegExp hbehind]
      rfl
    | _ => simp [Word.isRegExp] at hregExp

/-- A closing bracket is entered into the books where one is open. -/
theorem Reads.exists_enter {us : List Token} (hu : Reads s₀ us s) (h₀ : s₀.grouping = .empty)
    (hk : Ahead (us.map Token.kind ++ [k])) (line : UInt32) (start : Nat) :
    ∃ g, s.grouping.enter k line start = .ok g := by
  obtain ⟨hparens, hbraces⟩ := hu.depth
  obtain ⟨hparen, hbrace⟩ := hk
  rw [h₀] at hparens hbraces
  rw [List.count_append, List.count_append] at hparen hbrace
  cases hg : s.grouping.enter k line start with
  | ok g => exact ⟨g, rfl⟩
  | error p =>
    rcases Grouping.enter_eq_error_iff.1 hg with ⟨rfl, hopen, -⟩ | ⟨rfl, hopen, -⟩
    · simp [hopen, Grouping.empty] at hparens hparen
      omega
    · simp [hopen, Grouping.empty] at hbraces hbrace
      omega

/-- A step over a word that is a token. -/
theorem StandsBefore.next_word {us : List Token} (hs : s.StandsBefore v (w.text ++ t))
    (hw : w.IsWritten v) (ht : w.IsClosed v ∨ ∀ d ∈ t.head?, w.EndsBefore v d)
    (hk : w.kind? v = some k) (hprev : s.IsBehind prev?) (hbehind : w.FitsBehind prev?)
    (hu : Reads s₀ us s) (h₀ : s₀.grouping = .empty) (ha : Ahead (us.map Token.kind ++ [k])) :
    ∃ u s', s.next = (.ok u, s') ∧ u.kind = k ∧ s'.reader.StandsBefore v t ∧
      s'.IsBehind (some k) := by
  obtain ⟨r', hread, hr'⟩ := hs.read_word hw ht hk hprev hbehind
  obtain ⟨g, hg⟩ := hu.exists_enter h₀ ha r'.line r'.opening.offset
  obtain ⟨trace, hlast, htrace, -⟩ := Grouping.last?_enter hg
  exact ⟨_, _, next_of_read hread hg, rfl, hr', fun l hl =>
    Option.some.inj hl ▸ ⟨trace, hlast, htrace⟩⟩

/-- A stream reads the tokens among words, one after the other. -/
theorem exists_reads_words {us : List Token} {ws : List Word} (hu : Reads s₀ us s)
    (h₀ : s₀.grouping = .empty) (hs : s.StandsBefore v (Words.text ws ++ t))
    (hprev : s.IsBehind prev?) (hws : Words.Fit v prev? ws)
    (ha : ∀ js, js <+: us.map Token.kind ++ Words.kinds v ws → Ahead js) :
    ∃ ts s', Reads s₀ ts s' ∧ ts.map Token.kind = us.map Token.kind ++ Words.kinds v ws ∧
      s'.StandsBefore v t := by
  induction ws generalizing us s prev? with
  | nil => exact ⟨us, s, hu, (List.append_nil _).symm, hs⟩
  | cons w ws ih =>
    obtain ⟨hw, hbehind, hends, hws⟩ := hws
    have htext : Words.text (w :: ws) ++ t = w.text ++ (Words.text ws ++ t) := by
      rw [Words.text, List.flatMap_cons, List.append_assoc, ← Words.text]
    have hends : w.IsClosed v ∨ ∀ d ∈ (Words.text ws ++ t).head?, w.EndsBefore v d := by
      refine hends.imp_right fun ⟨d, hd, hend⟩ e he => ?_
      rw [List.head?_append, hd] at he
      exact Option.some.inj he ▸ hend
    rw [htext] at hs
    cases hk : w.kind? v with
    | none =>
      -- The grammar does not see the word, so that the stream stays where it is.
      have hkinds : Words.kinds v (w :: ws) = Words.kinds v ws := List.filterMap_cons_none hk
      rw [hk] at hws
      rw [hkinds] at ha ⊢
      exact ih hu (hs.of_trivia hw hends hk) hprev hws ha
    | some k =>
      have hkinds : Words.kinds v (w :: ws) = k :: Words.kinds v ws := List.filterMap_cons_some hk
      rw [hk] at hws
      rw [hkinds, ← List.singleton_append, ← List.append_assoc] at ha ⊢
      obtain ⟨u, s', hnext, rfl, hs', hlast⟩ :=
        hs.next_word hw hends hk hprev hbehind hu h₀ (ha _ (List.prefix_append _ _))
      have hmap : (us ++ [u]).map Token.kind = us.map Token.kind ++ [u.kind] := List.map_append
      rw [← hmap] at ha ⊢
      exact ih (hu.snoc hnext) ⟨_, rfl, hs'⟩ hlast hws ha

end TokenStream

end ScriptExcerpt
