import ScriptExcerpt.Proofs.Lexeme.Again
import ScriptExcerpt.Proofs.Lexeme.Quotation

/-!
# Lexemes as they are written

What is written as a name, a number, a symbol or a comment is read as one, wherever it
stands and whatever stands behind it, if that does not go on with the lexeme.

* `Recognizer.Carries`: a text of which every character is taken;
* `lexemeAt_name`, `lexemeAt_number`, `lexemeAt_symbol`: words, decimal numbers and
  symbols;
* `lexemeAt_lineComment`, `lexemeAt_blockComment`: comments;
* `LexemeReader.next_of_takes`: what a reader makes of a lexeme.
-/

namespace ScriptExcerpt

open Text

/-! ## Texts that are taken -/

/-- The character can be seen, and ends no line. -/
structure Plain (c : Char) : Prop where
  not_lineEnd : isLineEnd c = false
  not_invisible : isInvisible c = false

instance (c : Char) : Decidable (Plain c) :=
  decidable_of_iff (isLineEnd c = false ∧ isInvisible c = false)
    ⟨fun h => ⟨h.1, h.2⟩, fun h => ⟨h.not_lineEnd, h.not_invisible⟩⟩

instance (c : Char) : Decidable (Inked c) :=
  decidable_of_iff (isLineEnd c = false ∧ isBlank c = false ∧ isInvisible c = false)
    ⟨fun h => ⟨h.1, h.2.1, h.2.2⟩, fun h => ⟨h.not_lineEnd, h.not_blank, h.not_invisible⟩⟩

theorem Place.onLine_through_plain {p : Place} (hp : p.OnLine) {w : List Char}
    (hw : ∀ c ∈ w, Plain c) : (p.through w).OnLine :=
  Place.onLine_through hp fun c hc => (hw c hc).not_lineEnd

namespace Recognizer

variable {σ ρ ε : Type} {M : Recognizer σ ρ ε} {s s' : σ} {p : Place} {c : Char} {t : List Char}

/-- A character that is taken. -/
theorem runFrom_take (hp : p.afterReturn = false) (hc : isInvisible c = false)
    (h : M.step s c = .take s') (t : List Char) :
    M.runFrom s ⟨p, c :: t⟩ = M.runFrom s' ⟨p.past c, t⟩ := by
  rw [runFrom, run, if_neg (Place.not_completes_of_afterReturn hp c), hc, Bool.and_false, h]
  rfl

/-- The last character of a lexeme. -/
theorem runFrom_finish {r : ρ} (hp : p.afterReturn = false) (hc : isInvisible c = false)
    (h : M.step s c = .finish r) (t : List Char) :
    M.runFrom s ⟨p, c :: t⟩ = ⟨.ok r, (p.past c).offset, ⟨p.past c, t⟩⟩ := by
  rw [runFrom, run, if_neg (Place.not_completes_of_afterReturn hp c), hc, Bool.and_false, h]
  rfl

/-- The text, which ends no line, takes the recognizer from the state `s` to the state `s'`, and
    all of it belongs to the lexeme. -/
structure Carries (M : Recognizer σ ρ ε) (s : σ) (w : List Char) (s' : σ) : Prop where
  afterReturn {p : Place} : p.afterReturn = false → (p.through w).afterReturn = false
  runFrom_eq {p : Place} (t : List Char) : p.afterReturn = false →
    M.runFrom s ⟨p, w ++ t⟩ = M.runFrom s' ⟨p.through w, t⟩

namespace Carries

variable {s'' : σ} {u w : List Char}

theorem refl (M : Recognizer σ ρ ε) (s : σ) : M.Carries s [] s := ⟨id, fun _ _ => rfl⟩

theorem trans (h : M.Carries s u s') (h' : M.Carries s' w s'') : M.Carries s (u ++ w) s'' where
  afterReturn {p} hp := by
    rw [Place.through_append]
    exact h'.afterReturn (h.afterReturn hp)
  runFrom_eq {p} t hp := by
    rw [List.append_assoc, h.runFrom_eq _ hp, h'.runFrom_eq _ (h.afterReturn hp),
      Place.through_append]

/-- One character. -/
theorem single (hc : Plain c) (hstep : M.step s c = .take s') : M.Carries s [c] s' where
  afterReturn {p} hp := by
    rw [Place.through, if_neg (Place.not_completes_of_afterReturn hp c)]
    exact ne_return_of_not_isLineEnd hc.not_lineEnd
  runFrom_eq {p} t hp := by
    rw [Place.through, if_neg (Place.not_completes_of_afterReturn hp c)]
    exact runFrom_take hp hc.not_invisible hstep t

/-- One character more before a text. -/
theorem cons (hc : Plain c) (hstep : M.step s c = .take s') (h : M.Carries s' w s'') :
    M.Carries s (c :: w) s'' :=
  (single hc hstep).trans h

/-- A state may be exchanged for one that does the same with the first character. -/
theorem of_step_eq {t : σ} (hc : Plain c) (hstep : M.step s c = M.step t c)
    (h : M.Carries t (c :: w) s') : M.Carries s (c :: w) s' where
  afterReturn := h.afterReturn
  runFrom_eq {p} t hp := by
    have hpc := Place.not_completes_of_afterReturn hp c
    rw [← h.runFrom_eq t hp]
    exact run_congr_step (Bool.not_eq_true _ ▸ hpc) hc.not_invisible hstep

/-- A character that belongs to the lexeme because the one behind it does. -/
theorem probe {d : Char} (hc : Plain c) (hd : Plain d) (hprobe : M.step s c = .probe s')
    (htake : M.step s' d = .take s'') : M.Carries s [c, d] s'' := by
  have hpast (p : Place) : (p.past c).afterReturn = false :=
    ne_return_of_not_isLineEnd hc.not_lineEnd
  have hthrough {p : Place} (hp : p.afterReturn = false) :
      p.through [c, d] = (p.past c).past d := by
    rw [Place.through, if_neg (Place.not_completes_of_afterReturn hp c), Place.through,
      if_neg (Place.not_completes_of_afterReturn (hpast p) d), Place.through]
  refine ⟨fun {p} hp => ?_, fun {p} t hp => ?_⟩
  · rw [hthrough hp]
    exact ne_return_of_not_isLineEnd hd.not_lineEnd
  · rw [hthrough hp, List.cons_append, List.singleton_append, runFrom, run,
      if_neg (Place.not_completes_of_afterReturn hp c), hc.not_invisible, Bool.and_false, hprobe]
    simp only [Bool.false_eq_true, if_false]
    rw [run, if_neg (Place.not_completes_of_afterReturn (hpast p) d), hd.not_invisible,
      Bool.and_false, htake]
    rfl

/-- A text of which every character is taken, where the state remembers what was taken. -/
theorem word (state : List Char → σ) (hplain : ∀ c ∈ w, Plain c)
    (hstep : ∀ c ∈ w, ∀ u, M.step (state u) c = .take (state (c :: u))) (u : List Char) :
    M.Carries (state u) w (state (w.reverse ++ u)) := by
  induction w generalizing u with
  | nil => exact refl M _
  | cons c w ih =>
    obtain ⟨hc, hplain⟩ := List.forall_mem_cons.1 hplain
    obtain ⟨hc', hstep⟩ := List.forall_mem_cons.1 hstep
    rw [List.reverse_cons, List.append_assoc, List.singleton_append]
    exact cons hc (hc' u) (ih hplain hstep (c :: u))

/-- A run that takes a text and ends behind it. -/
theorem takes {r : ρ} (h : M.Carries s w s') (hp : p.afterReturn = false)
    (ht : M.EndsBefore s' r t) : (M.runFrom s ⟨p, w ++ t⟩).Takes ⟨p, w ++ t⟩ w r := by
  obtain ⟨cur, hrun, hcur⟩ := ht.run_eq (h.afterReturn hp)
  rw [h.runFrom_eq t hp, runFrom, hrun]
  have hall := (Cursor.passes_through p w t).trans hcur
  rw [List.append_nil] at hall
  exact ⟨rfl, hall⟩

end Carries

/-- The recognizer meets the fault in the text. -/
def FailsOn (M : Recognizer σ ρ ε) (s : σ) (t : List Char) (e : ε) : Prop :=
  ∀ p : Place, p.afterReturn = false → (M.runFrom s ⟨p, t⟩).verdict = .error e

theorem failsOn_nil {e : ε} (h : M.atEnd s = .fail e) : M.FailsOn s [] e := fun p _ => by
  rw [runFrom, run, h]

theorem failsOn_cons {e : ε} (hc : isInvisible c = false) (h : M.step s c = .fail e)
    (t : List Char) : M.FailsOn s (c :: t) e := fun p hp => by
  rw [runFrom, run, if_neg (Place.not_completes_of_afterReturn hp c), hc, Bool.and_false, h]
  rfl

theorem Carries.failsOn {w : List Char} {e : ε} (h : M.Carries s w s') (ht : M.FailsOn s' t e) :
    M.FailsOn s (w ++ t) e := fun p hp => by
  rw [h.runFrom_eq t hp]
  exact ht _ (h.afterReturn hp)

end Recognizer

/-! ## Words, numbers and symbols -/

section Lexemes

variable {v : Version} {lineIsBlank : Bool} {p : Place} {c : Char} {w t : List Char}

/-- The character goes on with a name, as it is. -/
structure IsWordPart (c : Char) : Prop extends Plain c where
  isNamePart : isNamePart c
  not_backslash : c ≠ '\\'

instance (c : Char) : Decidable (IsWordPart c) :=
  decidable_of_iff (Plain c ∧ isNamePart c ∧ c ≠ '\\')
    ⟨fun h => ⟨h.1, h.2.1, h.2.2⟩, fun h => ⟨h.toPlain, h.isNamePart, h.not_backslash⟩⟩

/-- A word is read as a name, or as the keyword that it is, before what goes on with no name. -/
theorem lexemeAt_name (hc : isNameStart c) (hback : c ≠ '\\') (hw : ∀ x ∈ w, IsWordPart x)
    (ht : ∀ d ∈ t.head?, d ≠ '\\' ∧ isNamePart d = false ∧ isInvisible d = false)
    (hp : p.OnLine) :
    (lexemeAt v lineIsBlank c ⟨p, w ++ t⟩).Takes ⟨p, w ++ t⟩ w
      (nameKind v (String.ofList (c :: w))) (some (c :: w)) := by
  have hend : Name.recognizer.EndsBefore (.inside (w.reverse ++ [c]) false) (c :: w, false) t := by
    have hreverse : (w.reverse ++ [c]).reverse = c :: w := by simp
    cases t with
    | nil => exact congrArg (fun u => Ending.accept (u, false)) hreverse
    | cons d t =>
      obtain ⟨hback, hpart, hvisible⟩ := ht d rfl
      refine ⟨hvisible, ?_⟩
      simp only [Name.recognizer, Name.step, if_neg hback, hpart, Bool.false_eq_true, if_false,
        hreverse]
  have hstep : ∀ x ∈ w, ∀ u, Name.recognizer.step (.inside u false) x =
      .take (.inside (x :: u) false) := fun x hx u => by
    simp only [Name.recognizer, Name.step, if_neg (hw x hx).not_backslash, (hw x hx).isNamePart,
      if_true]
  have htakes := (Recognizer.Carries.word (fun u => Name.State.inside u false)
    (fun x hx => (hw x hx).toPlain) hstep [c]).takes hp.afterReturn hend
  have hstart : Name.start c = .inside [c] false := if_neg hback
  rw [lexemeAt, hc, Bool.or_true, if_pos rfl, Lexeme.name, hstart, htakes.verdict]
  exact ⟨rfl, rfl, htakes.cursor, rfl⟩

/-- The digits of base ten, one by one. -/
theorem eq_of_isDigitOf_ten (h : isDigitOf 10 c) : ∃ n < 10, c = Char.ofNat (48 + n) := by
  obtain ⟨n, hn⟩ := Option.isSome_iff_exists.1 h
  obtain ⟨hvalue, hlt⟩ := Option.filter_eq_some_iff.1 hn
  rw [decide_eq_true_eq] at hlt
  refine ⟨n, hlt, ?_⟩
  rw [digitValue?] at hvalue
  split at hvalue
  · next hc =>
    rw [Bool.and_eq_true, decide_eq_true_eq] at hc
    have hle : 48 ≤ c.toNat := CodeUnit.toNat_le_of_le hc.1
    have hsub : c.toNat - 48 = n := Option.some.inj hvalue
    rw [← hsub, Nat.add_sub_cancel' hle, Char.ofNat_toNat]
  · -- Letters stand for more than nine.
    split at hvalue
    · have := Option.some.inj hvalue
      omega
    · split at hvalue
      · have := Option.some.inj hvalue
        omega
      · simp at hvalue

/-- A digit begins a number. -/
theorem start_of_isDigitOf_ten (h : isDigitOf 10 c) :
    (decide (c = '\\') || isNameStart c) = false ∧ c ≠ '.' ∧ Inked c := by
  obtain ⟨n, hn, rfl⟩ := eq_of_isDigitOf_ten h
  have hall : ∀ n < 10, (decide (Char.ofNat (48 + n) = '\\') ||
      isNameStart (Char.ofNat (48 + n))) = false ∧ Char.ofNat (48 + n) ≠ '.' ∧
        Inked (Char.ofNat (48 + n)) := by
    decide +kernel
  exact hall n hn

/-- A number is read if its text leads to a state in which it ends. -/
theorem lexemeAt_of_carries {s : Number.State} {value : List Char}
    (hc : isDigitOf 10 c ∨ c = '.') (hw : (Number.recognizer v).Carries (Number.start c) w s)
    (ht : (Number.recognizer v).EndsBefore s (some value) t) (hp : p.OnLine) :
    (lexemeAt v lineIsBlank c ⟨p, w ++ t⟩).Takes ⟨p, w ++ t⟩ w .number (some value) := by
  have hname : (decide (c = '\\') || isNameStart c) = false := by
    rcases hc with hc | rfl
    · exact (start_of_isDigitOf_ten hc).1
    · decide
  have hnumber : (isDigitOf 10 c || decide (c = '.')) = true := by simpa using hc
  have htakes := hw.takes hp.afterReturn ht
  rw [lexemeAt, hname, if_neg Bool.false_ne_true, hnumber, if_pos rfl, Lexeme.number,
    htakes.verdict]
  exact ⟨rfl, rfl, htakes.cursor, rfl⟩

/-- A fault that a number meets is the fault of the lexeme. -/
theorem lexemeAt_of_failsOn {f : Fault} (hc : isDigitOf 10 c)
    (ht : (Number.recognizer v).FailsOn (Number.start c) t f) (hp : p.OnLine) :
    (lexemeAt v lineIsBlank c ⟨p, t⟩).verdict = .error f := by
  rw [lexemeAt, (start_of_isDigitOf_ten hc).1, if_neg Bool.false_ne_true, hc, Bool.true_or,
    if_pos rfl, Lexeme.number, ht p hp.afterReturn]

theorem Number.plain_of_isDigitOf {base : Nat} (h : isDigitOf base c) : Plain c :=
  ⟨Digit.not_isLineEnd ⟨c, h⟩, not_isInvisible_of_isDigitOf h⟩

/-- Digits go on with a run of digits. -/
theorem Number.carries_digits {base : Nat} {part : Part} (hw : ∀ x ∈ w, isDigitOf base x)
    (value : List Char) :
    (recognizer v).Carries (.digits base part value) w
      (.digits base part (w.reverse ++ value)) := by
  have hplain : ∀ x ∈ w, Plain x := fun x hx => plain_of_isDigitOf (hw x hx)
  have hstep : ∀ x ∈ w, ∀ u, (recognizer v).step (.digits base part u) x =
      .take (.digits base part (x :: u)) := fun x hx u => by
    simp only [recognizer, step, hw x hx, if_true]
  exact .word (fun u => State.digits base part u) hplain hstep value

/-- What goes on with no whole number. -/
def EndsNumber (v : Version) (d : Char) : Prop :=
  isInvisible d = false ∧ isDigitOf 10 d = false ∧ d ≠ '_' ∧ d ≠ '.' ∧
    Number.isExponentMark d = false ∧ (v = .es6 → d ≠ 'n')

/-- Digits are read as a number, if the first one is no zero. -/
theorem lexemeAt_number (hc : isDigitOf 10 c) (hzero : c ≠ '0') (hw : ∀ x ∈ w, isDigitOf 10 x)
    (ht : ∀ d ∈ t.head?, EndsNumber v d) (hp : p.OnLine) :
    (lexemeAt v lineIsBlank c ⟨p, w ++ t⟩).Takes ⟨p, w ++ t⟩ w .number (some (c :: w)) := by
  have hend : (Number.recognizer v).EndsBefore (.digits 10 .whole (w.reverse ++ [c]))
      (some (c :: w)) t := by
    have hreverse : (w.reverse ++ [c]).reverse = c :: w := by simp
    cases t with
    | nil => exact congrArg (fun u => Ending.accept (some u)) hreverse
    | cons d t =>
      obtain ⟨hvisible, hdigit, hseparator, hpoint, hexponent, hbig⟩ := ht d rfl
      refine ⟨hvisible, ?_⟩
      simp only [Number.recognizer, Number.step, Number.stepBehindWhole, hdigit, hexponent,
        hreverse]
      grind
  obtain ⟨-, hpoint, -⟩ := start_of_isDigitOf_ten hc
  have hstart : Number.start c = .digits 10 .whole [c] := by
    rw [Number.start, if_neg hpoint, if_neg hzero]
  exact lexemeAt_of_carries (.inl hc) (hstart ▸ Number.carries_digits hw [c]) hend hp

/-- Some spelling begins with the text. -/
def Operator.begins (table : List (List Char × Kind)) (text : List Char) : Bool :=
  table.any fun p => text.isPrefixOf p.1

/-- A symbol ends where no spelling goes on. -/
theorem Operator.step_of_not_begins {table : List (List Char × Kind)} {text : List Char} {k : Kind}
    {d : Char} (h : begins table (text ++ [d]) = false) : step table ⟨text, k⟩ d = .stop k := by
  have hnone : ∀ p ∈ table, ¬ text ++ [d] <+: p.1 := by
    simpa [begins, List.any_eq_false] using h
  have hkind : kindOf? table (text ++ [d]) = none := by
    rw [Option.eq_none_iff_forall_ne_some]
    exact fun k' hk => hnone _ (mem_of_kindOf? hk) (List.prefix_refl _)
  have hlong : extends? table (text ++ [d]) = false := by
    rw [← Bool.not_eq_true, extends?_iff]
    rintro ⟨p, hp, hstarts, -⟩
    exact hnone p hp hstarts
  simp only [step, hkind, hlong]
  rfl

/-- A symbol has its spelling in every version that allows it. -/
theorem Operator.kindOf?_spelling {s : Symbol} (hs : s.allowed v) :
    kindOf? (spellings v lineIsBlank) s.spelling.toList = some (.symbol s) := by
  have hall : ∀ s ∈ Symbol.all, s.allowed v → kindOf? (spellings v true) s.spelling.toList =
      some (.symbol s) := by
    cases v <;> decide +kernel
  exact kindOf?_spellings rfl (hall s s.mem_all hs)

/-- The first character of a symbol is a symbol of every version. -/
theorem Operator.exists_kindOf?_head {s : Symbol} (hs : s.spelling.toList = c :: w) (v : Version)
    (lineIsBlank : Bool) : ∃ k, kindOf? (spellings v lineIsBlank) [c] = some k := by
  have hall : ∀ s ∈ Symbol.all, ∃ s' ∈ Symbol.all,
      s'.spelling.toList = [s.spelling.toList.headD ' '] ∧ s' ≠ .starStar ∧
        s' ≠ .starStarEquals := by
    decide +kernel
  obtain ⟨s', -, hs', hpower, hpowerEquals⟩ := hall s s.mem_all
  rw [hs, List.headD_cons] at hs'
  have hallowed : s'.allowed v := by
    cases s' <;> first | rfl | contradiction
  exact ⟨_, hs' ▸ kindOf?_spelling hallowed⟩

/-- No symbol but the point begins like another lexeme. -/
theorem Operator.lexemeAt_eq_symbol {s : Symbol} (hs : s.spelling.toList = c :: w)
    (hdot : s ≠ .dot) (behind : Cursor) :
    lexemeAt v lineIsBlank c behind = Lexeme.symbol (spellings v lineIsBlank) c behind := by
  have hall : ∀ s ∈ Symbol.all, s ≠ .dot → let c := s.spelling.toList.headD ' '
      (decide (c = '\\') || isNameStart c) = false ∧
        (isDigitOf 10 c || decide (c = '.')) = false ∧ isQuote c = false := by
    decide +kernel
  have hfirst := hall s s.mem_all hdot
  rw [hs, List.headD_cons] at hfirst
  obtain ⟨hname, hnumber, hquote⟩ := hfirst
  simp only [lexemeAt, hname, hnumber, hquote, Bool.false_eq_true, if_false]

/-- A symbol other than the point is read before what goes on with no spelling. -/
theorem lexemeAt_symbol {s : Symbol} (hs : s.spelling.toList = c :: w) (hv : s.allowed v)
    (hdot : s ≠ .dot)
    (ht : Operator.extends? (Operator.spellings v lineIsBlank) s.spelling.toList →
      ∀ d ∈ t.head?, isInvisible d = false ∧
        Operator.begins (Operator.spellings v lineIsBlank) (s.spelling.toList ++ [d]) = false)
    (hp : p.OnLine) :
    (lexemeAt v lineIsBlank c ⟨p, w ++ t⟩).Takes ⟨p, w ++ t⟩ w (.symbol s) none := by
  have hkind : Operator.kindOf? (Operator.spellings v lineIsBlank) s.spelling.toList =
      some (.symbol s) := Operator.kindOf?_spelling hv
  obtain ⟨k₀, hk₀⟩ := Operator.exists_kindOf?_head hs v lineIsBlank
  rw [hs] at hkind ht
  have hw : ∀ x ∈ w, Inked x := fun x hx =>
    Operator.inked_of_mem_spelling (Operator.mem_of_kindOf? hkind) (List.mem_cons_of_mem c hx)
  have hvisible : visible w = w :=
    visible_eq_self_iff.2 fun x hx => (hw x hx).not_invisible
  have hspells : Operator.Spells (Operator.spellings v lineIsBlank) c w (.symbol s) :=
    ⟨by rw [hvisible, hkind], fun hd => (hw _ (List.mem_of_getLast? hd)).not_invisible⟩
  rw [Operator.lexemeAt_eq_symbol hs hdot]
  refine Operator.symbol_of_spells Operator.inked_spellings hspells hk₀ rfl hp fun hlong => ?_
  rw [hvisible] at hlong ⊢
  cases t with
  | nil => exact (Operator.concludes Operator.inked_spellings hkind).atEnd
  | cons d t =>
    obtain ⟨hd, hbegins⟩ := ht hlong d rfl
    exact ⟨hd, Operator.step_of_not_begins hbegins⟩

/-- A literal of items between two quotes is read whatever stands behind it. -/
theorem lexemeAt_quotation {quote : Char} (hquote : isQuote quote)
    (items : List (Quotation.Item quote)) (hp : p.OnLine) :
    (lexemeAt v lineIsBlank quote
      ⟨p, items.flatMap Quotation.Item.text ++ [quote] ++ t⟩).Takes
      ⟨p, items.flatMap Quotation.Item.text ++ [quote] ++ t⟩
      (items.flatMap Quotation.Item.text ++ [quote]) (if quote = '`' then .template else .string)
      (some (CodeUnit.decodeLossy (items.flatMap Quotation.Item.units))) := by
  obtain ⟨ps, htext, hunits, hps⟩ := Quotation.Item.exists_pieces hquote items
  rw [← htext, ← hunits, lexemeAt_of_isQuote hquote, List.append_assoc, List.singleton_append,
    Lexeme.quotation_pieces hquote hps hp.afterReturn]
  exact ⟨rfl, rfl, ⟨by simp, rfl⟩, rfl⟩

/-! ## Comments -/

/-- The opening of a comment is read by its second character. -/
theorem lexemeAt_of_commentOpening {x : Char} {k : Kind} (hx : isInvisible x = false)
    (hk : Operator.kindOf? (Operator.spellings v lineIsBlank) ['/', x] = some k) (hp : p.OnLine)
    (t : List Char) :
    lexemeAt v lineIsBlank '/' ⟨p, x :: t⟩ =
      Lexeme.afterOperator p.offset ⟨.ok k, (p.past x).offset, ⟨p.past x, t⟩⟩ := by
  have hrun : (Operator.recognizer (Operator.spellings v lineIsBlank)).runFrom
      ⟨['/'], .symbol .slash⟩ ⟨p, x :: t⟩ = ⟨.ok k, (p.past x).offset, ⟨p.past x, t⟩⟩ := by
    refine Recognizer.runFrom_finish hp.afterReturn hx ?_ t
    simp only [Operator.recognizer, Operator.step, List.singleton_append, hk,
      Operator.not_extends_slash]
    rfl
  rw [lexemeAt_slash, Lexeme.symbol, Operator.kindOf?_slash]
  simp only [Operator.extends_slash, if_true, hrun]
  rfl

/-- A line comment is read up to the end of its line. -/
theorem lexemeAt_lineComment (hw : ∀ x ∈ w, Plain x) (ht : ∀ d ∈ t.head?, isLineEnd d)
    (hp : p.OnLine) :
    (lexemeAt v lineIsBlank '/' ⟨p, '/' :: w ++ t⟩).Takes ⟨p, '/' :: w ++ t⟩ ('/' :: w)
      .lineComment none := by
  rw [List.cons_append]
  have hopening : Operator.kindOf? (Operator.spellings v lineIsBlank) ['/', '/'] =
      some .lineComment := by
    cases v <;> cases lineIsBlank <;> decide
  have hend : Comment.lineRecognizer.EndsBefore () () t := by
    cases t with
    | nil => rfl
    | cons d t =>
      have hd := ht d rfl
      refine ⟨?_, if_pos hd⟩
      rcases eq_of_isLineEnd hd with rfl | rfl | rfl | rfl <;> rfl
  have hstep : ∀ x ∈ w, ∀ u : List Char, Comment.lineRecognizer.step () x = .take () :=
    fun x hx _ => if_neg (by rw [(hw x hx).not_lineEnd]; exact Bool.false_ne_true)
  have hpast : (p.past '/').OnLine := p.onLine_past rfl
  have htakes := (Recognizer.Carries.word (fun _ => ()) hw hstep []).takes hpast.afterReturn hend
  rw [lexemeAt_of_commentOpening rfl hopening hp, Lexeme.afterOperator, Lexeme.lineComment,
    htakes.verdict]
  exact ⟨rfl, rfl, (Cursor.passes_past (hp.not_completes '/') _).trans htakes.cursor, rfl⟩

/-- A block comment without a star is read up to its end. -/
theorem lexemeAt_blockComment (hw : ∀ x ∈ w, Plain x ∧ x ≠ '*') (hp : p.OnLine) :
    (lexemeAt v lineIsBlank '/' ⟨p, '*' :: (w ++ ['*', '/']) ++ t⟩).Takes
      ⟨p, '*' :: (w ++ ['*', '/']) ++ t⟩ ('*' :: (w ++ ['*', '/'])) .blockComment none := by
  rw [List.cons_append, List.append_assoc, List.cons_append, List.singleton_append]
  have hopening : Operator.kindOf? (Operator.spellings v lineIsBlank) ['/', '*'] =
      some .blockComment := by
    cases v <;> cases lineIsBlank <;> decide
  have hpast : (p.past '*').OnLine := p.onLine_past rfl
  have hplain : ∀ x ∈ w, Plain x := fun x hx => (hw x hx).1
  have hthrough := Place.onLine_through_plain hpast hplain
  have hstep : ∀ x ∈ w, ∀ u : List Char, Comment.blockRecognizer.step false x = .take false :=
    fun x hx _ => by simp [Comment.blockRecognizer, (hw x hx).2]
  have hbody := Recognizer.Carries.word (fun _ => false) hplain hstep []
  have hrun : Comment.blockRecognizer.runFrom false ⟨p.past '*', w ++ '*' :: '/' :: t⟩ =
      ⟨.ok (), ((((p.past '*').through w).past '*').past '/').offset,
        ⟨(((p.past '*').through w).past '*').past '/', t⟩⟩ := by
    rw [hbody.runFrom_eq _ hpast.afterReturn,
      Recognizer.runFrom_take hthrough.afterReturn rfl rfl]
    exact Recognizer.runFrom_finish rfl rfl rfl t
  rw [lexemeAt_of_commentOpening rfl hopening hp, Lexeme.afterOperator, Lexeme.blockComment, hrun]
  have hopens := Cursor.passes_past (hp.not_completes '*') (w ++ '*' :: '/' :: t)
  have hthroughBody := Cursor.passes_through (p.past '*') w ('*' :: '/' :: t)
  have hstar := Cursor.passes_past (hthrough.not_completes '*') ('/' :: t)
  have hline : (((p.past '*').through w).past '*').OnLine := Place.onLine_past _ rfl
  have hslash := Cursor.passes_past (hline.not_completes '/') t
  exact ⟨rfl, rfl, hopens.trans (hthroughBody.trans (hstar.trans hslash)), rfl⟩

end Lexemes

/-! ## Readers -/

namespace LexemeReader

/-- Where it stands, `r` reads the text `x`, and `r'` is what that leaves. -/
structure ReadsText (r : LexemeReader) (x : List Char) (value : Option (List Char))
    (r' : LexemeReader) : Prop where
  version : r'.version = r.version
  opening : r'.opening = r.cursor.look
  cursor : r.cursor.Passes x r'.cursor
  stop : r'.stop = r'.cursor.offset
  value : r'.value = value.getD r.value

theorem ReadsText.lexeme_eq {r r' : LexemeReader} {x : List Char} {value : Option (List Char)}
    (h : r.ReadsText x value r') : r'.lexeme = x := by
  have hpasses : r'.opening.Passes x r'.cursor := by
    rw [h.opening]
    exact ⟨h.cursor.1, h.cursor.2.trans (Place.look_through_look _ x).symm⟩
  exact LexemeReader.lexeme_eq hpasses h.stop.symm

theorem ReadsText.rest_eq {r r' : LexemeReader} {x t : List Char} {value : Option (List Char)}
    (h : r.ReadsText x value r') (hrest : r.cursor.rest = x ++ t) : r'.cursor.rest = t :=
  (List.append_cancel_left (hrest.symm.trans h.cursor.1)).symm

variable {r : LexemeReader} {c : Char} {w t : List Char}

theorem next_of_takes {k : Kind} {value : Option (List Char)} (hc : Inked c)
    (hrest : r.cursor.rest = c :: (w ++ t)) (hret : r.cursor.place.afterReturn = false)
    (h : (lexemeAt r.version r.lineIsBlank c ⟨r.cursor.place.past c, w ++ t⟩).Takes
      ⟨r.cursor.place.past c, w ++ t⟩ w k value) :
    ∃ r', r.next = (.ok k, r') ∧ r.ReadsText (c :: w) value r' := by
  have hnext := next_of_inked hc hrest hret
  rw [accept, h.verdict] at hnext
  have hcursor : r.cursor = ⟨r.cursor.place, c :: (w ++ t)⟩ := by rw [← hrest]
  have hpast := Cursor.passes_past (Place.not_completes_of_afterReturn hret c) (w ++ t)
  rw [← hcursor] at hpast
  exact ⟨_, hnext,
    { version := rfl
      opening := by rw [Cursor.look, hrest]
      cursor := hpast.trans h.cursor
      stop := h.stop
      value := congrArg (Option.getD · r.value) h.value }⟩

theorem next_of_fault {cs : List Char} {f : Fault} (hc : Inked c)
    (hrest : r.cursor.rest = c :: cs) (hret : r.cursor.place.afterReturn = false)
    (h : (lexemeAt r.version r.lineIsBlank c ⟨r.cursor.place.past c, cs⟩).verdict = .error f) :
    ∃ p, r.next.1 = .error p ∧ p.cause = f.cause := by
  rw [next_of_inked hc hrest hret, accept, h]
  exact ⟨_, rfl, rfl⟩

end LexemeReader

end ScriptExcerpt
