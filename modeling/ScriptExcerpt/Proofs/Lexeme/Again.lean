import ScriptExcerpt.Proofs.Lexeme.Alike
import ScriptExcerpt.Proofs.Lexeme.Spelling

/-!
# Lexemes that are read again

A lexeme that the grammar sees is read again from its text, whatever it followed
and whatever followed it, if a space, a newline or nothing follows it now.

* `Name.separable`, `Number.separable`, `RegExp.separable`: where names, numbers and
  regular expressions may end;
* `lexemeAt_again`: a lexeme, read from its text;
* `LexemeReader.hasRead_of_next`: what a reader has read last;
* `slash_again`: the slash of a regular expression, read before the rest of it.
-/

namespace ScriptExcerpt

open Text

/-! ## Single recognizers -/

section Recognizers

variable {σ ρ ε : Type} {M : Recognizer σ ρ ε}

/-- A lexeme that ends before a line end takes no carriage return. -/
theorem Recognizer.OneLine.separable {settled : σ → Prop} (hM : M.OneLine settled)
    (h : ∀ {s t : σ} {c : Char} {r : ρ}, M.step s c = .take t → M.Quits t r → M.Concludes t r) :
    M.Separable where
  not_return {s t c r} hstep _ := by
    have hline := hM.not_isLineEnd (s := s) (c := c) (by rw [hstep]; exact id)
    exact ne_of_beq_false (ne_return_of_not_isLineEnd hline)
  concludes := h

/-- A lexeme that ends with a character of its own is not ended by another one. -/
theorem Recognizer.SelfClosing.not_quits (hM : M.SelfClosing) {s : σ} {r : ρ} :
    ¬ M.Quits s r := by
  intro h
  induction h with
  | stop he => exact hM.stop he
  | @back s _ he =>
    obtain ⟨e, hfail⟩ := hM.atEnd (s := s)
    simp [hfail] at he
  | probe _ _ ih => exact ih

theorem Recognizer.SelfClosing.separable (hM : M.SelfClosing) : M.Separable where
  not_return _ hquits := absurd hquits hM.not_quits
  concludes _ hquits := absurd hquits hM.not_quits

theorem Name.concludes {s : State} {r : List Char × Bool} (h : recognizer.Quits s r) :
    recognizer.Concludes s r := by
  have hspace : isNamePart ' ' = false := by decide +kernel
  have hnewline : isNamePart '\n' = false := not_isNamePart_of_isLineEnd rfl
  cases h with
  | stop he =>
    cases s with
    | inside word escaped =>
      obtain rfl : (word.reverse, escaped) = r := by
        simp only [recognizer, step] at he
        grind
      constructor <;> simp [recognizer, step, atEnd, hspace, hnewline]
    | _ => simp only [recognizer, step] at he; grind
  | back he => cases s <;> simp [recognizer, atEnd] at he
  | probe he => cases s <;> simp only [recognizer, step] at he <;> grind

theorem Name.separable : Name.recognizer.Separable :=
  Name.oneLine.separable fun _ hquits => concludes hquits

theorem RegExp.concludes {s : State} {l : Literal} (h : recognizer.Quits s l) :
    recognizer.Concludes s l := by
  have hspace : isAlphabetic ' ' = false := by decide +kernel
  have hnewline : isAlphabetic '\n' = false := by decide +kernel
  cases h with
  | stop he =>
    cases s with
    | flags text flags =>
      obtain rfl : ⟨text.reverse, flags.reverse⟩ = l := by
        simp only [recognizer, step] at he
        grind
      constructor <;> simp [recognizer, step, atEnd, hspace, hnewline, knownFlags]
    | _ => simp only [recognizer, step, stepBody] at he; grind
  | back he => cases s <;> simp [recognizer, atEnd] at he
  | probe he => cases s <;> simp only [recognizer, step, stepBody] at he <;> grind

theorem RegExp.separable : RegExp.recognizer.Separable :=
  RegExp.oneLine.separable fun _ hquits => concludes hquits

/-- A number that may end with the script also ends before a space and a newline. -/
theorem Number.concludes_of_accept {v : Version} {s : State} {r : Option (List Char)}
    (h : (recognizer v).atEnd s = .accept r) : (recognizer v).Concludes s r := by
  have hspace (base : Nat) : isDigitOf base ' ' = false := rfl
  have hnewline (base : Nat) : isDigitOf base '\n' = false := rfl
  refine ⟨?_, ?_, h⟩
  · cases s with
    | digits base part value =>
      cases part <;> simp_all [recognizer, step, stepBehindWhole, atEnd, isExponentMark]
    | _ => simp_all [recognizer, step, stepBehindWhole, atEnd, isExponentMark, baseOf?]
  · cases s with
    | digits base part value =>
      cases part <;> simp_all [recognizer, step, stepBehindWhole, atEnd, isExponentMark]
    | _ => simp_all [recognizer, step, stepBehindWhole, atEnd, isExponentMark, baseOf?]

/-- What ends a number before a character, ends it at the end of the script. -/
theorem Number.accept_of_stop {v : Version} {s : State} {c : Char} {r : Option (List Char)}
    (hs : s.IsSettled) (h : (recognizer v).step s c = .stop r) :
    (recognizer v).atEnd s = .accept r := by
  cases s <;> simp only [recognizer, step, stepBehindWhole, atEnd, State.IsSettled] at h hs ⊢ <;>
    grind

/-- A separator that no digit follows does not belong to the number. -/
theorem Number.accept_of_probe {v : Version} {s t : State} {c : Char} {r : Option (List Char)}
    (h : (recognizer v).step s c = .probe t) (hquits : (recognizer v).Quits t r) :
    (recognizer v).atEnd s = .accept r := by
  obtain ⟨base, part, value, rfl, rfl⟩ :
      ∃ base part value, s = .digits base part value ∧ t = .separator base part value := by
    cases s <;> simp only [recognizer, step, stepBehindWhole] at h <;> grind
  cases hquits with
  | stop he => simp only [recognizer, step, atEnd] at he ⊢; grind
  | back he => simp [recognizer, atEnd] at he
  | probe he => simp only [recognizer, step] at he; grind

theorem Number.concludes {v : Version} {s : State} {r : Option (List Char)} (hs : s.IsSettled)
    (h : (recognizer v).Quits s r) : (recognizer v).Concludes s r := by
  cases h with
  | stop he => exact concludes_of_accept (accept_of_stop hs he)
  | back he => cases s <;> simp [recognizer, atEnd] at he
  | probe he hquits => exact concludes_of_accept (accept_of_probe he hquits)

theorem Number.isSettled_of_take {v : Version} {s t : State} {c : Char}
    (h : (recognizer v).step s c = .take t) : t.IsSettled := by
  cases s <;> simp only [recognizer, step, stepBehindWhole] at h <;> grind [State.IsSettled]

theorem Number.isSettled_start (c : Char) : (Number.start c).IsSettled := by
  rw [start]
  split
  · trivial
  · split <;> trivial

theorem Number.separable (v : Version) : (Number.recognizer v).Separable :=
  (Number.oneLine v).separable fun hstep hquits => concludes (isSettled_of_take hstep) hquits

end Recognizers

/-- Symbols and comments have no values but their texts. -/
theorem Operator.not_hasValue_of_kindOf? {v : Version} {lineIsBlank : Bool} {text : List Char}
    {k : Kind} (h : kindOf? (spellings v lineIsBlank) text = some k) :
    TokenStream.hasValue k = false := by
  have hall : ∀ p ∈ spellings v lineIsBlank, TokenStream.hasValue p.2 = false := by
    cases v <;> cases lineIsBlank <;> decide
  exact hall _ (mem_of_kindOf? h)

/-! ## Lexemes -/

/-- The lexeme `l`, read behind its first character from `behind` on, has a text that `read`
    reads again, wherever it stands, if it stands apart from what follows it there. If the
    script ended before, it ends there, too. -/
structure Lexeme.ReadAgain (read : Bool → Cursor → Lexeme) (behind : Cursor) (k : Kind)
    (l : Lexeme) : Prop where
  value : TokenStream.hasValue k → l.value.isSome
  again : ∃ w m, behind.Passes w m ∧ m.offset = l.stop ∧ ∀ lineIsBlank (p : Place) t,
    p.OnLine → Apart t → (l.cursor.rest = [] → t = []) →
      (read lineIsBlank ⟨p, w ++ t⟩).Takes ⟨p, w ++ t⟩ w k l.value

namespace Lexeme

variable {v : Version} {lineIsBlank : Bool} {c : Char} {behind : Cursor} {k : Kind}

theorem name_again (hb : behind.place.OnLine) (h : (name v c behind).verdict = .ok k) :
    ReadAgain (fun _ => name v c) behind k (name v c behind) := by
  rw [name] at h ⊢
  split
  · next word escaped ho =>
    rw [ho] at h
    obtain rfl := Except.ok.inj h
    refine ⟨fun _ => rfl, ?_⟩
    obtain ⟨w, hw, hagain⟩ :=
      Name.separable.runFrom_again (fun hquits => Name.concludes hquits) hb.afterReturn ho
    refine ⟨w, _, hw, rfl, fun _ p t hp ht hend => ?_⟩
    obtain ⟨hverdict, hcursor⟩ := hagain p t hp.afterReturn ht hend
    rw [name, hverdict]
    exact ⟨rfl, rfl, hcursor, rfl⟩
  · next ho => simp [ho] at h

/-- Only a point that no digit follows has no value. -/
theorem start_of_lonePoint
    (h : ((Number.recognizer v).runFrom (Number.start c) behind).verdict = .ok none) :
    Number.start c = .lonePoint := by
  rw [Number.start]
  split
  · rfl
  · -- Behind a digit, every result has a value.
    next hpoint =>
    have hne : Number.start c ≠ .lonePoint := by
      rw [Number.start, if_neg hpoint]
      split <;> simp
    have hM : (Number.recognizer v).Ensures (· ≠ .lonePoint) (· ≠ none) fun _ => True :=
      { step := fun s c hs => by
          have hstep := Number.ensures_step (v := v) (s := s) (c := c) rfl
          revert hstep
          cases (Number.recognizer v).step s c <;> simp only [Move.Ensures] <;> grind
        atEnd := fun s hs => by
          have hend := Number.ensures_atEnd (v := v) (s := s) rfl
          revert hend
          cases (Number.recognizer v).atEnd s <;> simp only [Ending.Ensures] <;> grind }
    have hresult := hM.runFrom hne behind
    rw [h] at hresult
    exact absurd rfl hresult

theorem number_again (hb : behind.place.OnLine) (h : (number v c behind).verdict = .ok k) :
    ReadAgain (fun _ => number v c) behind k (number v c behind) := by
  rw [number] at h ⊢
  split
  · next value ho =>
    rw [ho] at h
    obtain rfl := Except.ok.inj h
    refine ⟨fun _ => rfl, ?_⟩
    obtain ⟨w, hw, hagain⟩ := (Number.separable v).runFrom_again
      (fun hquits => Number.concludes (Number.isSettled_start c) hquits) hb.afterReturn ho
    refine ⟨w, _, hw, rfl, fun _ p t hp ht hend => ?_⟩
    obtain ⟨hverdict, hcursor⟩ := hagain p t hp.afterReturn ht hend
    rw [number, hverdict]
    exact ⟨rfl, rfl, hcursor, rfl⟩
  · next ho =>
    -- The point is its own text; what was looked at behind it is left out.
    rw [ho] at h
    obtain rfl := Except.ok.inj h
    refine ⟨fun hvalue => by simp [TokenStream.hasValue] at hvalue, ?_⟩
    refine ⟨[], behind, .refl _, rfl, fun _ p t hp ht _ => ?_⟩
    have hconcludes : (Number.recognizer v).Concludes (Number.start c) none := by
      rw [start_of_lonePoint ho]
      exact Number.concludes_of_accept rfl
    obtain ⟨cur, hrun, hcur⟩ := (hconcludes.endsBefore ht).run_eq hp.afterReturn
    have hrun : (Number.recognizer v).runFrom (Number.start c) ⟨p, t⟩ = _ := hrun
    rw [number, List.nil_append, hrun]
    exact ⟨rfl, rfl, hcur, hcur.offset_eq.symm⟩
  · next ho => simp [ho] at h

theorem quotation_again (hc : isLineEnd c = false) (hb : behind.place.OnLine)
    (h : (quotation c behind).verdict = .ok k) :
    ReadAgain (fun _ => quotation c) behind k (quotation c behind) := by
  have hM := Quotation.selfClosing hc
  rw [quotation] at h ⊢
  split
  · next decoded ho =>
    rw [ho] at h
    obtain rfl := Except.ok.inj h
    refine ⟨fun _ => rfl, ?_⟩
    obtain ⟨w, hw, hagain⟩ := hM.separable.runFrom_again
      (fun hquits => absurd hquits hM.not_quits) hb.afterReturn ho
    refine ⟨w, _, hw, rfl, fun _ p t hp ht hend => ?_⟩
    obtain ⟨hverdict, hcursor⟩ := hagain p t hp.afterReturn ht hend
    rw [quotation, hverdict]
    exact ⟨rfl, rfl, hcursor, rfl⟩
  · next ho => simp [ho] at h

theorem symbol_again (hb : behind.place.OnLine)
    (h : (symbol (Operator.spellings v lineIsBlank) c behind).verdict = .ok k)
    (hk : k.isTrivia = false) :
    ReadAgain (fun lineIsBlank => symbol (Operator.spellings v lineIsBlank) c) behind k
      (symbol (Operator.spellings v lineIsBlank) c behind) := by
  obtain ⟨⟨k₀, hc⟩, hvalue, w, m, hw, hm, hstop, -⟩ :=
    Operator.spells_of_symbol Operator.inked_spellings hb h hk
  refine ⟨fun hv => ?_, w, m, hm, hstop, fun lineIsBlank' p t hp ht _ => ?_⟩
  · simp [Operator.not_hasValue_of_kindOf? hw.kind] at hv
  · rw [hvalue]
    have hc' : Operator.kindOf? (Operator.spellings v lineIsBlank') [c] = some k₀ :=
      Operator.kindOf?_spellings (Operator.isTrivia_of_kindOf?_singleton hc) hc
    have hw' : Operator.Spells (Operator.spellings v lineIsBlank') c w k := hw.spellings hk
    exact Operator.symbol_of_spells Operator.inked_spellings hw' hc' hk hp
      fun _ => (Operator.concludes Operator.inked_spellings hw'.kind).endsBefore ht

end Lexeme

section Dispatch

variable {v : Version} {lineIsBlank : Bool} {c : Char} {behind : Cursor} {k : Kind}

/-- A lexeme that the grammar sees is read again from its text. -/
theorem lexemeAt_again (hb : behind.place.OnLine)
    (h : (lexemeAt v lineIsBlank c behind).verdict = .ok k) (hk : k.isTrivia = false) :
    Lexeme.ReadAgain (fun lineIsBlank => lexemeAt v lineIsBlank c) behind k
      (lexemeAt v lineIsBlank c behind) := by
  by_cases hname : c = '\\' || isNameStart c
  · have heq (lineIsBlank : Bool) : lexemeAt v lineIsBlank c = Lexeme.name v c :=
      funext fun _ => if_pos hname
    simp only [heq] at h ⊢
    exact Lexeme.name_again hb h
  · by_cases hnumber : isDigitOf 10 c || c = '.'
    · have heq (lineIsBlank : Bool) : lexemeAt v lineIsBlank c = Lexeme.number v c :=
        funext fun _ => by rw [lexemeAt, if_neg hname, if_pos hnumber]
      simp only [heq] at h ⊢
      exact Lexeme.number_again hb h
    · by_cases hquote : isQuote c
      · have heq (lineIsBlank : Bool) : lexemeAt v lineIsBlank c = Lexeme.quotation c :=
          funext fun _ => by rw [lexemeAt, if_neg hname, if_neg hnumber, if_pos hquote]
        simp only [heq] at h ⊢
        exact Lexeme.quotation_again (not_isLineEnd_of_isQuote hquote) hb h
      · have heq (lineIsBlank : Bool) : lexemeAt v lineIsBlank c =
            Lexeme.symbol (Operator.spellings v lineIsBlank) c :=
          funext fun _ => by rw [lexemeAt, if_neg hname, if_neg hnumber, if_neg hquote]
        simp only [heq] at h ⊢
        exact Lexeme.symbol_again hb h hk

theorem lexemeAt_slash (v : Version) (lineIsBlank : Bool) (behind : Cursor) :
    lexemeAt v lineIsBlank '/' behind =
      Lexeme.symbol (Operator.spellings v lineIsBlank) '/' behind := by
  have hname : ('/' = '\\' || isNameStart '/') = false := by decide
  have hnumber : (isDigitOf 10 '/' || '/' = '.') = false := by decide
  have hquote : isQuote '/' = false := by decide
  simp only [lexemeAt, hname, hnumber, hquote, Bool.false_eq_true, if_false]

/-- What is read as a slash, alone or before an equals sign, starts with one. -/
theorem eq_slash_of_lexemeAt (hk : k = .symbol .slash ∨ k = .symbol .slashEquals)
    (h : (lexemeAt v lineIsBlank c behind).verdict = .ok k) : c = '/' := by
  rcases kind_lexemeAt h with hw | hk' | hk' | hk' | hk' | ⟨rest, hm⟩
  · rcases hk with rfl | rfl <;> simp [Kind.isWord] at hw
  · rcases hk with rfl | rfl <;> simp at hk'
  · rcases hk with rfl | rfl <;> simp at hk'
  · rcases hk with rfl | rfl <;> simp at hk'
  · rcases hk with rfl | rfl <;> simp at hk'
  · have hall : ∀ p ∈ Operator.spellings v lineIsBlank,
        p.2 = .symbol .slash ∨ p.2 = .symbol .slashEquals → p.1.head? = some '/' := by
      cases v <;> cases lineIsBlank <;> decide
    exact Option.some.inj (hall _ hm hk)

/-- The slash of a regular expression is read again before the rest of the literal. -/
theorem slash_again (hk : k = .symbol .slash ∨ k = .symbol .slashEquals)
    (hb : behind.place.OnLine) (h : (lexemeAt v lineIsBlank c behind).verdict = .ok k)
    {u rest : List Char} (hu : ∃ x ∈ u, isInvisible x = false)
    (hrest : (lexemeAt v lineIsBlank c behind).cursor.rest = u ++ rest) :
    ∃ w, behind.Passes w (lexemeAt v lineIsBlank c behind).cursor ∧
      ∀ lineIsBlank' (p : Place) t, p.OnLine → ∃ value,
        (lexemeAt v lineIsBlank' c ⟨p, w ++ (u ++ t)⟩).Takes ⟨p, w ++ (u ++ t)⟩ w k value := by
  obtain rfl := eq_slash_of_lexemeAt hk h
  simp only [lexemeAt_slash] at h hrest ⊢
  have htrivia : k.isTrivia = false := by rcases hk with rfl | rfl <;> rfl
  obtain ⟨-, -, w, m, hw, -, -, hcur⟩ :=
    Operator.spells_of_symbol Operator.inked_spellings hb h htrivia
  have hne : u ++ rest ≠ [] := by
    intro he
    simp [(List.append_eq_nil_iff.1 he).1] at hu
  have hcur := hcur (hrest ▸ hne)
  refine ⟨w, hcur, fun lineIsBlank' p t hp => ⟨none, ?_⟩⟩
  rcases hk with rfl | rfl
  · -- Nothing belongs to the slash, whose text is a single character.
    have htext : '/' :: visible w = ['/'] := Operator.eq_spelling_of_kindOf? hw.kind
    obtain rfl : w = [] := by
      refine Decidable.byContradiction fun hne => ?_
      exact hw.visible_ne_nil (u := []) rfl hne (List.cons.inj htext).2
    have hbehind : behind.rest = u ++ rest := hcur.1.trans hrest
    exact Operator.symbol_slash hu hb hp hbehind rfl h
  · exact Operator.symbol_slashEquals (hw.spellings htrivia) hp _

end Dispatch

/-! ## Regular expressions -/

/-- The flags are being read. -/
def RegExp.State.IsFlags : State → Prop
  | .flags _ _ => True
  | _ => False

/-- A literal that was read has a slash behind its body. -/
theorem RegExp.slash_mem {s : State} {cur : Cursor} {l : Literal} (hs : ¬ s.IsFlags)
    (h : (recognizer.runFrom s cur).verdict = .ok l) :
    ∃ w, cur.Passes w (recognizer.runFrom s cur).cursor ∧ '/' ∈ w := by
  let I (s : State) (mark here : Cursor) : Prop :=
    ∃ w u, cur.Passes w mark ∧ mark.Passes u here ∧ (s.IsFlags → '/' ∈ w)
  have hI : recognizer.Invariant I :=
    { complete := fun ⟨w, u, hmark, hhere, hflags⟩ hc =>
        ⟨w, _, hmark, hhere.trans (Cursor.passes_complete hc _), hflags⟩
      skip := fun ⟨w, u, hmark, hhere, hflags⟩ hc _ =>
        ⟨w, _, hmark, hhere.trans (Cursor.passes_past hc _), hflags⟩
      take := fun {s t _ _ c _} ⟨w, u, hmark, hhere, hflags⟩ hc he => by
        have hpast := (hmark.trans hhere).trans (Cursor.passes_past hc _)
        refine ⟨_, [], hpast, .refl _, fun ht => ?_⟩
        -- The flags start behind a slash.
        have hslash : s.IsFlags ∨ c = '/' := by
          cases s <;> simp only [recognizer, step, stepBody, State.IsFlags] at he ⊢ <;>
            grind [State.IsFlags]
        rcases hslash with hs | rfl
        · simp [hflags hs]
        · simp
      probe := fun _ _ he => absurd trivial (oneLine.probe he) }
  have hstart : I s cur ⟨cur.place, cur.rest⟩ :=
    ⟨[], [], .refl _, .refl _, fun hf => absurd hf hs⟩
  obtain ⟨s', mark, here, ⟨w, u, hmark, hhere, hflags⟩, hend⟩ := hI.halts hstart
  rw [Recognizer.runFrom] at h ⊢
  generalize recognizer.run s cur cur.place cur.rest = o at h hend ⊢
  cases hend with
  | accept he =>
    have hs' : s'.IsFlags := by cases s' <;> simp [recognizer, atEnd, State.IsFlags] at he ⊢
    exact ⟨w ++ u, hmark.trans hhere, List.mem_append_left u (hflags hs')⟩
  | stop _ he =>
    have hs' : s'.IsFlags := by
      cases s' <;> simp only [recognizer, step, stepBody, State.IsFlags] at he ⊢ <;> grind
    exact ⟨w, hmark.look, hflags hs'⟩
  | back he => cases s' <;> simp [recognizer, atEnd] at he
  | finish _ he => cases s' <;> simp only [recognizer, step, stepBody] at he <;> grind
  | breakOff | fail | refuse => simp at h

/-! ## What a reader has read -/

namespace LexemeReader

variable {r r' : LexemeReader} {k : Kind} {equals : Bool}

/-- The lexeme of the kind `k` that the reader read last starts with `c`, and `cs` stands
    behind its first character. -/
structure HasRead (v : Version) (lineIsBlank : Bool) (k : Kind) (c : Char) (cs : List Char)
    (r : LexemeReader) : Prop where
  version : r.version = v
  inked : Inked c
  opening : r.opening.rest = c :: cs
  passes : r.opening.Passes [c] ⟨r.opening.place.past c, cs⟩
  verdict : (lexemeAt v lineIsBlank c ⟨r.opening.place.past c, cs⟩).verdict = .ok k
  cursor : r.cursor = (lexemeAt v lineIsBlank c ⟨r.opening.place.past c, cs⟩).cursor
  stop : r.stop = (lexemeAt v lineIsBlank c ⟨r.opening.place.past c, cs⟩).stop
  value {value : List Char} :
    (lexemeAt v lineIsBlank c ⟨r.opening.place.past c, cs⟩).value = some value → r.value = value

theorem hasRead_of_next (h : r.next = (.ok k, r')) (hend : k ≠ .endOfInput)
    (hline : k ≠ .lineEnd) : ∃ c cs, r'.HasRead r.version r.lineIsBlank k c cs := by
  have hopen : r'.opening = r.cursor.skipGap := by
    rw [← opening_next, h]
  rcases hgap : r.cursor.skipGap with ⟨place, _ | ⟨c, cs⟩⟩
  · rw [next_of_gap_nil (congrArg Cursor.rest hgap)] at h
    exact absurd (Except.ok.inj (Prod.mk.inj h).1).symm hend
  · have hrest : r'.opening.rest = c :: cs := by rw [hopen, hgap]
    have hpasses := passes_opening (congrArg Prod.snd h) hrest
    rw [next_of_gap hgap] at h
    split at h
    · exact absurd (Except.ok.inj (Prod.mk.inj h).1).symm hline
    · next hc =>
      rw [Bool.not_eq_true] at hc
      obtain ⟨hblank, hvisible⟩ := Bool.or_eq_false_iff.1 (Cursor.not_gap_skipGapFrom hgap)
      obtain ⟨hv, rfl⟩ := Prod.mk.inj h
      refine ⟨c, cs, rfl, ⟨hc, hblank, hvisible⟩, hrest, hpasses, ok_of_mapError hv, rfl, rfl,
        fun hvalue => ?_⟩
      exact congrArg (Option.getD · r.value) hvalue

/-- The reader `r'` has read the rest of a regular expression from `r` on, the text `w`. -/
structure ReadsRegExp (r : LexemeReader) (equals : Bool) (w : List Char) (r' : LexemeReader) :
    Prop where
  read : r.readRegExp equals = (.ok (), r')
  cursor : r.cursor.Passes w r'.cursor
  stop : r'.stop = r'.cursor.offset

theorem readRegExp_of_verdict {l : RegExp.Literal}
    (h : (RegExp.recognizer.runFrom (if equals then .body ['='] false else .opening)
      r.cursor).verdict = .ok l) :
    ∃ r', r.readRegExp equals = (.ok (), r') ∧ r'.value = l.body ∧
      r'.cursor = (RegExp.recognizer.runFrom (if equals then .body ['='] false else .opening)
        r.cursor).cursor ∧ r'.stop = r'.cursor.offset := by
  rw [readRegExp, h]
  exact ⟨_, rfl, rfl, rfl, rfl⟩

/-- The rest of a regular expression, which has a slash, is read again from its text. -/
theorem readRegExp_again (hr : r.cursor.place.OnLine) (h : r.readRegExp equals = (.ok (), r')) :
    ∃ w, r.ReadsRegExp equals w r' ∧ '/' ∈ w ∧ ∀ (q : LexemeReader) (p : Place) t,
      q.cursor = ⟨p, w ++ t⟩ → p.OnLine → Apart t → (r'.cursor.rest = [] → t = []) →
        ∃ q', q.ReadsRegExp equals w q' ∧ q'.value = r'.value := by
  obtain ⟨ho, -, hstop, hcursor⟩ := readRegExp_ok h
  have hstart : ¬ (if equals then RegExp.State.body ['='] false else .opening).IsFlags := by
    cases equals <;> exact id
  obtain ⟨w, hw, hagain⟩ :=
    RegExp.separable.runFrom_again (fun hquits => RegExp.concludes hquits) hr.afterReturn ho
  obtain ⟨w', hw', hslash⟩ := RegExp.slash_mem hstart ho
  obtain rfl : w' = w := List.append_cancel_right (hw'.1.symm.trans hw.1)
  rw [← hcursor] at hw hagain
  refine ⟨w', ⟨h, hw, hstop⟩, hslash, fun q p t hq hp ht hend => ?_⟩
  obtain ⟨hverdict, hagainAt⟩ := hagain p t hp.afterReturn ht hend
  rw [← hq] at hverdict hagainAt
  obtain ⟨q', hq', hvalue, hcur, hstop'⟩ := readRegExp_of_verdict hverdict
  exact ⟨q', ⟨hq', hcur ▸ hagainAt, hstop'⟩, hvalue⟩

end LexemeReader

end ScriptExcerpt
