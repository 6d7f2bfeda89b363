import ScriptExcerpt.Proofs.Lexeme.Piece

/-!
# Quotations

A quotation is accepted exactly if pieces that fit stand between its quotes, and its
value is the text of their code units.

* `Quotation.exists_pieces`: nothing but pieces that fit is accepted;
* `Lexeme.quotation_pieces`: what is read of pieces that fit;
* `LexemeReader.next_items`: literals without invisible characters in their escapes.
-/

namespace ScriptExcerpt

open Text Text.CodeUnit

namespace Quotation

variable {quote : Char} {d r : Decoder}

/-! ## Accepted escapes -/

/-- The text ends in a visible character. -/
def EndsVisibly (w : List Char) : Prop := ∀ c ∈ w.getLast?, isInvisible c = false

theorem endsVisibly_append {g : List Char} {c : Char} (hc : isInvisible c = false) :
    EndsVisibly (g ++ [c]) := by
  intro x hx
  rw [List.getLast?_concat] at hx
  exact Option.some.inj hx ▸ hc

theorem EndsVisibly.append {u w : List Char} (hu : EndsVisibly u) (hw : EndsVisibly w) :
    EndsVisibly (u ++ w) := by
  intro c hc
  rw [List.getLast?_append] at hc
  cases hl : w.getLast? with
  | none =>
    rw [hl] at hc
    exact hu c hc
  | some x =>
    rw [hl] at hc
    exact hw c (hl.trans hc)

/-- What is visible of a character behind a gap. -/
theorem visible_gap_append {g : List Char} {c : Char} (hg : ∀ x ∈ g, isInvisible x)
    (hc : isInvisible c = false) : visible (g ++ [c]) = [c] := by
  rw [visible_append, visible_eq_nil_iff.2 hg, visible_cons hc]
  rfl

theorem atEnd_fails (s : State) : ∃ f, (recognizer quote).atEnd s = .fail f := by
  cases s <;> exact ⟨_, rfl⟩

theorem not_completes_past {p : Place} {cs : List Char} {c : Char} (hc : isLineEnd c = false) :
    ∀ x ∈ cs.head?, (p.past c).completes x = false :=
  fun x _ => Bool.not_eq_true _ ▸
    Place.not_completes_of_afterReturn (ne_return_of_not_isLineEnd hc) x

/-- A digit that is read. -/
theorem exists_digit {base : Nat} {c : Char} (h : isDigitOf base c) :
    ∃ a : Digit base, a.char = c := ⟨⟨c, h⟩, rfl⟩

/-- The digits of an escape by four that is accepted. -/
theorem exists_unicode {left n : Nat} {p : Place} {mark : Cursor} {cs : List Char}
    (hp : ∀ c ∈ cs.head?, p.completes c = false)
    (h : ((recognizer quote).run (.unicode d (left + 1) n) mark p cs).verdict = .ok r) :
    ∃ (ds : List (Digit 16)) (w : List Char) (next : Char) (cs' : List Char),
      cs = w ++ next :: cs' ∧ ds.length = left + 1 ∧ visible w = Digit.text ds ∧
        EndsVisibly w := by
  obtain ⟨g, c, cs, rfl, hg, hc, hpc, hrun⟩ := Recognizer.exists_visible rfl (atEnd_fails _) hp h
  have hskip (s : State) : ((recognizer quote).skips s && isInvisible c) = false := by
    rw [hc, Bool.and_false]
  obtain ⟨a, rfl⟩ : ∃ a : Digit 16, a.char = c := by
    refine exists_digit (Bool.not_eq_false _ ▸ fun hdigit => ?_)
    have hnone : digitOf? 16 c = none := by simpa [isDigitOf] using hdigit
    refine Recognizer.step_ne_fail (e := .unicodeEscape) hpc (hskip _) hrun ?_
    simp only [recognizer, step, hnone]
  have hvisible := visible_gap_append hg hc
  have hnext : ∀ x ∈ cs.head?, ((p.through g).past a.char).completes x = false :=
    not_completes_past a.not_isLineEnd
  cases left with
  | zero =>
    have hstep : (recognizer quote).step (.unicode d 1 n) a.char =
        .take (.text (d.unit (16 * n + a.value).toUInt16)) := by
      simp [recognizer, step, a.digitOf?_char]
    obtain ⟨next, cs', rfl⟩ := Recognizer.exists_cons (atEnd_fails _)
      (Recognizer.ok_of_take hstep hpc (hskip _) hrun)
    exact ⟨[a], g ++ [a.char], next, cs', by simp, rfl, hvisible, endsVisibly_append hc⟩
  | succ left =>
    have hstep : (recognizer quote).step (.unicode d (left + 2) n) a.char =
        .take (.unicode d (left + 1) (16 * n + a.value)) := by
      simp [recognizer, step, a.digitOf?_char]
    obtain ⟨ds, w, next, cs', rfl, hlength, hw, hlast⟩ :=
      exists_unicode hnext (Recognizer.ok_of_take hstep hpc (hskip _) hrun)
    refine ⟨a :: ds, (g ++ [a.char]) ++ w, next, cs', by simp, by rw [List.length_cons, hlength],
      ?_, (endsVisibly_append hc).append hlast⟩
    rw [visible_append, hvisible, hw]
    rfl

/-- The octal digits of an escape that is accepted, as many as belong to it. -/
theorem exists_octal {ds : List (Digit 8)} (hds : IsOctal ds) {p : Place} {mark : Cursor}
    {cs : List Char}
    (hp : ∀ c ∈ cs.head?, p.completes c = false)
    (h : ((recognizer quote).run (.octal d ds.length (Digit.number ds)) mark p cs).verdict =
      .ok r) :
    ∃ (more : List (Digit 8)) (w : List Char) (next : Char) (cs' : List Char),
      cs = w ++ next :: cs' ∧ visible w = Digit.text more ∧ isInvisible next = false ∧
        ∃ hmore : IsOctal (ds ++ more), ¬ (Escape.octal (ds ++ more) hmore).GoesOn next := by
  obtain ⟨g, c, cs, rfl, hg, hc, hpc, hrun⟩ := Recognizer.exists_visible rfl (atEnd_fails _) hp h
  by_cases hover : (Escape.octal ds hds).GoesOn c
  · obtain ⟨a, rfl, ha⟩ := hover
    have hlt := (IsOctal.append_iff.1 ha).1
    have hrun' := Recognizer.ok_of_take (step_octal hds ha) hpc (by rw [hc, Bool.and_false]) hrun
    obtain ⟨more, w, next, cs', rfl, hw, hnext, hmore⟩ :=
      exists_octal ha (not_completes_past a.not_isLineEnd) hrun'
    rw [List.append_assoc] at hmore
    refine ⟨a :: more, (g ++ [a.char]) ++ w, next, cs', by simp, ?_, hnext, hmore⟩
    rw [visible_append, visible_gap_append hg hc, hw]
    rfl
  · exact ⟨[], g, c, cs, rfl, visible_eq_nil_iff.2 hg, hc, by simpa using ⟨hds, hover⟩⟩
termination_by 3 - ds.length
decreasing_by
  simp
  omega

/-- The digits of an escape by two that is accepted, as many as there are. -/
theorem exists_byte {p : Place} {mark : Cursor} {cs : List Char}
    (hp : ∀ c ∈ cs.head?, p.completes c = false)
    (h : ((recognizer quote).run (.byte d) mark p cs).verdict = .ok r) :
    ∃ (ds : List (Digit 16)) (w : List Char) (next : Char) (cs' : List Char),
      cs = w ++ next :: cs' ∧ visible w = Digit.text ds ∧
        ∃ hds : ds.length ≤ 2, ∀ u, EndsVisibly u →
          (Escape.byte ds hds).EndsBefore next (u ++ w) := by
  obtain ⟨g, c, cs, rfl, hg, hc, hpc, hrun⟩ := Recognizer.exists_visible rfl (atEnd_fails _) hp h
  by_cases hdigit : isDigitOf 16 c
  · obtain ⟨a, rfl⟩ := exists_digit hdigit
    have hstep : (recognizer quote).step (.byte d) a.char = .take (.halfByte d a.char a.value) := by
      simp only [recognizer, step, a.digitOf?_char]
    have hrun := Recognizer.ok_of_take hstep hpc (by rw [hc, Bool.and_false]) hrun
    obtain ⟨g', c', cs, rfl, hg', hc', hpc', hrun⟩ :=
      Recognizer.exists_visible rfl (atEnd_fails _) (not_completes_past a.not_isLineEnd) hrun
    by_cases hdigit' : isDigitOf 16 c'
    · obtain ⟨b, rfl⟩ := exists_digit hdigit'
      have hstep' : (recognizer quote).step (.halfByte d a.char a.value) b.char =
          .take (.text (d.char (Char.ofNat (16 * a.value + b.value)))) := by
        simp only [recognizer, step, b.digitOf?_char]
      obtain ⟨next, cs', rfl⟩ := Recognizer.exists_cons (atEnd_fails _)
        (Recognizer.ok_of_take hstep' hpc' (by rw [hc', Bool.and_false]) hrun)
      refine ⟨[a, b], (g ++ [a.char]) ++ (g' ++ [b.char]), next, cs', by simp, ?_, by simp, ?_⟩
      · rw [visible_append, visible_gap_append hg hc, visible_gap_append hg' hc']
        rfl
      · exact fun u hu => hu.append ((endsVisibly_append hc).append (endsVisibly_append hc'))
    · refine ⟨[a], (g ++ [a.char]) ++ g', c', cs, by simp, ?_, by simp, ?_⟩
      · rw [visible_append, visible_gap_append hg hc, visible_eq_nil_iff.2 hg']
        rfl
      · exact fun _ _ => ⟨hc', fun hover => hdigit' hover.2⟩
  · exact ⟨[], g, c, cs, rfl, visible_eq_nil_iff.2 hg, by simp,
      fun _ _ => ⟨hc, fun hover => hdigit hover.2⟩⟩

/-- What stands behind a line end behind a backslash. -/
theorem exists_continuation {p : Place} {mark : Cursor} {g cs : List Char} {c : Char}
    (hg : ∀ x ∈ g, isInvisible x) (hc : isLineEnd c)
    (h : ((recognizer quote).run (.continued d) mark (p.past c) cs).verdict = .ok r) :
    ∃ (x : Piece) (next : Char) (cs' : List Char),
      '\\' :: (g ++ c :: cs) = x.text ++ next :: cs' ∧ x.FitsBefore quote next := by
  by_cases hret : c = '\r' ∧ cs.head? = some '\n'
  · -- The newline belongs to the line end.
    obtain ⟨rfl, hhead⟩ := hret
    obtain ⟨cs, rfl⟩ := List.head?_eq_some_iff.1 hhead
    have hcomplete : (p.past '\r').completes '\n' = true := rfl
    rw [Recognizer.run, if_pos hcomplete] at h
    obtain ⟨g', next, cs', rfl, hg', hnext, -⟩ := Recognizer.exists_visible rfl (atEnd_fails _)
      (fun x _ => Bool.not_eq_true _ ▸ Place.not_completes_of_afterReturn rfl x) h
    exact ⟨.continuation g ['\r', '\n'] g', next, cs', by simp [Piece.text], hg, .inl rfl, hg',
      hnext, by simp⟩
  · have hp : ∀ x ∈ cs.head?, (p.past c).completes x = false := by
      intro x hx
      rw [← Bool.not_eq_true, Place.completes, Bool.and_eq_true]
      rintro ⟨hreturn, hnewline⟩
      exact hret ⟨beq_iff_eq.1 hreturn, beq_iff_eq.1 hnewline ▸ hx⟩
    obtain ⟨g', next, cs', rfl, hg', hnext, -⟩ :=
      Recognizer.exists_visible rfl (atEnd_fails _) hp h
    refine ⟨.continuation g [c] g', next, cs', by simp [Piece.text], hg, .inr ⟨c, rfl, hc⟩, hg',
      hnext, ?_⟩
    rintro hreturn rfl rfl
    exact hret ⟨List.singleton_inj.1 hreturn, rfl⟩

/-- A backslash that is accepted opens a piece. -/
theorem exists_escape {p : Place} {mark : Cursor} {cs : List Char}
    (hp : ∀ c ∈ cs.head?, p.completes c = false)
    (h : ((recognizer quote).run (.backslash d) mark p cs).verdict = .ok r) :
    ∃ (x : Piece) (next : Char) (cs' : List Char),
      '\\' :: cs = x.text ++ next :: cs' ∧ x.FitsBefore quote next := by
  obtain ⟨g, c, cs, rfl, hg, hc, hpc, hrun⟩ := Recognizer.exists_visible rfl (atEnd_fails _) hp h
  have hvisible := visible_gap_append hg hc
  have hlast := endsVisibly_append (g := g) hc
  have htake {t : State} (hstep : (recognizer quote).step (.backslash d) c = .take t) :=
    Recognizer.ok_of_take hstep hpc (by rw [hc, Bool.and_false]) hrun
  by_cases hu : c = 'u'
  · subst hu
    obtain ⟨ds, w, next, cs', rfl, hlength, hw, hends⟩ :=
      exists_unicode (not_completes_past rfl) (htake rfl)
    refine ⟨.escape (.unicode ds hlength) ((g ++ ['u']) ++ w), next, cs', by simp [Piece.text], ?_,
      hlast.append hends⟩
    rw [visible_append, hvisible, hw]
    rfl
  by_cases hx : c = 'x'
  · subst hx
    obtain ⟨ds, w, next, cs', rfl, hw, hds, hends⟩ :=
      exists_byte (not_completes_past rfl) (htake rfl)
    refine ⟨.escape (.byte ds hds) ((g ++ ['x']) ++ w), next, cs', by simp [Piece.text], ?_,
      hends _ hlast⟩
    rw [visible_append, hvisible, hw]
    rfl
  by_cases hline : isLineEnd c
  · have hstep : (recognizer quote).step (.backslash d) c = .take (.continued d) := by
      rcases eq_of_isLineEnd hline with rfl | rfl | rfl | rfl <;> rfl
    exact exists_continuation hg hline (htake hstep)
  by_cases hoctal : isDigitOf 8 c
  · obtain ⟨a, rfl⟩ := exists_digit hoctal
    obtain ⟨more, w, next, cs', rfl, hw, hnext, hmore, hover⟩ :=
      exists_octal (.singleton a) (not_completes_past a.not_isLineEnd)
        (htake (step_backslash_octal a))
    refine ⟨.escape (.octal _ hmore) ((g ++ [a.char]) ++ w), next, cs', by simp [Piece.text], ?_,
      hnext, hover⟩
    rw [visible_append, hvisible, hw]
    rfl
  · have hsingle : IsSingle c :=
      ⟨hu, hx, Bool.not_eq_true _ ▸ hline, Bool.not_eq_true _ ▸ hoctal, hc⟩
    obtain ⟨next, cs', rfl⟩ := Recognizer.exists_cons (atEnd_fails _)
      (htake (step_backslash_single hsingle))
    exact ⟨.escape (.single c hsingle) (g ++ [c]), next, cs', by simp [Piece.text], hvisible, hlast⟩

/-! ## Accepted quotations -/

/-- A line end that is accepted as it is opens a piece of a template. -/
theorem exists_lineEnd {p : Place} {mark : Cursor} {cs : List Char} {c : Char}
    (hp : p.completes c = false) (hc : c = '\n' ∨ c = '\r') (hquote : c ≠ quote)
    (h : ((recognizer quote).run (.text d) mark p (c :: cs)).verdict = .ok r) :
    ∃ (x : Piece) (next : Char) (cs' : List Char),
      c :: cs = x.text ++ next :: cs' ∧ x.FitsBefore quote next := by
  have hback : c ≠ '\\' := by rcases hc with rfl | rfl <;> decide
  have hline : (c = '\u2028' || c = '\u2029' || !isLineEnd c) = false := by
    rcases hc with rfl | rfl <;> rfl
  obtain rfl : quote = '`' := by
    refine Classical.byContradiction fun htemplate => ?_
    refine Recognizer.step_ne_fail (e := .unterminated (literal quote)) hp rfl h ?_
    simp [recognizer, step, stepText, hquote, hback, hline, htemplate]
  have hstep : (recognizer '`').step (.text d) c = .take (.text (d.char '\n')) := by
    simp [recognizer, step, stepText, hquote, hback, hline]
  have hrun := Recognizer.ok_of_take hstep hp rfl h
  by_cases hret : c = '\r' ∧ cs.head? = some '\n'
  · -- The newline belongs to the line end.
    obtain ⟨rfl, hhead⟩ := hret
    obtain ⟨cs, rfl⟩ := List.head?_eq_some_iff.1 hhead
    have hcomplete : (p.past '\r').completes '\n' = true := rfl
    rw [Recognizer.run, if_pos hcomplete] at hrun
    obtain ⟨next, cs', rfl⟩ := Recognizer.exists_cons (atEnd_fails _) hrun
    exact ⟨.lineEnd ['\r', '\n'], next, cs', rfl, rfl, .inr (.inl rfl)⟩
  · obtain ⟨next, cs', rfl⟩ := Recognizer.exists_cons (atEnd_fails _) hrun
    refine ⟨.lineEnd [c], next, cs', rfl, rfl, ?_⟩
    rcases hc with rfl | rfl
    · exact .inl rfl
    · exact .inr (.inr ⟨rfl, fun hnext => hret ⟨rfl, congrArg some hnext⟩⟩)

/-- What is accepted is the quote, or starts with a piece. -/
theorem exists_piece {p : Place} {mark : Cursor} {cs : List Char}
    (hp : ∀ c ∈ cs.head?, p.completes c = false)
    (h : ((recognizer quote).run (.text d) mark p cs).verdict = .ok r) :
    (∃ rest, cs = quote :: rest) ∨ ∃ (x : Piece) (next : Char) (cs' : List Char),
      cs = x.text ++ next :: cs' ∧ x.FitsBefore quote next := by
  obtain ⟨c, cs, rfl⟩ := Recognizer.exists_cons (atEnd_fails _) h
  have hpc := hp c rfl
  by_cases hquote : c = quote
  · exact .inl ⟨cs, by rw [hquote]⟩
  refine .inr ?_
  have htake {t : State} (hstep : (recognizer quote).step (.text d) c = .take t) :=
    Recognizer.ok_of_take hstep hpc rfl h
  by_cases hback : c = '\\'
  · subst hback
    have hstep : (recognizer quote).step (.text d) '\\' = .take (.backslash d) := by
      simp [recognizer, step, stepText, hquote]
    exact exists_escape (not_completes_past rfl) (htake hstep)
  by_cases hplain : c = '\u2028' ∨ c = '\u2029' ∨ isLineEnd c = false
  · have hfits : (Piece.char c).FitsBefore quote c := ⟨hquote, hback, hplain⟩
    obtain ⟨next, cs', rfl⟩ := Recognizer.exists_cons (atEnd_fails _) (htake (step_text hfits))
    exact ⟨.char c, next, cs', rfl, hfits⟩
  · refine exists_lineEnd hpc ?_ hquote h
    simp only [not_or, Bool.not_eq_false] at hplain
    rcases eq_of_isLineEnd hplain.2.2 with hc | hc | hc | hc
    · exact .inl hc
    · exact .inr hc
    · exact absurd hc hplain.1
    · exact absurd hc hplain.2.1

/-- Nothing but pieces that fit is accepted. -/
theorem exists_pieces {d : Decoder} {us : List UInt16} {p : Place} {mark : Cursor}
    {cs : List Char} (hquote : isQuote quote) (hd : d.Decodes us)
    (hp : ∀ c ∈ cs.head?, p.completes c = false)
    (h : ((recognizer quote).run (.text d) mark p cs).verdict = .ok r) :
    ∃ (ps : List Piece) (rest : List Char), cs = text ps ++ quote :: rest ∧ Fits quote ps := by
  induction hn : cs.length using Nat.strongRecOn generalizing d us p mark cs with
  | ind n ih =>
    rcases exists_piece hp h with ⟨rest, rfl⟩ | ⟨x, next, cs', rfl, hx⟩
    · exact ⟨[], rest, rfl, trivial⟩
    · have hlength := List.length_pos_iff.2 hx.text_ne_nil
      rw [List.length_append] at hn
      obtain ⟨d', hd', hnext, hrun⟩ := goes_piece hd hx (ne_of_isQuote hquote rfl) (p := p)
        fun c hc => hp c (by rw [List.head?_append, hc]; rfl)
      obtain ⟨mark', hrun⟩ := hrun mark cs'
      rw [hrun] at h
      obtain ⟨ps, rest, hcs, hps⟩ := ih _ (by omega) hd'
        (fun c hc => Option.some.inj hc ▸ hnext) h rfl
      have hhead : (text ps).headD quote = next := by
        have hhead := congrArg (List.headD · quote) hcs
        cases htext : text ps <;> simpa [htext] using hhead.symm
      refine ⟨x :: ps, rest, ?_, by rwa [hhead], hps⟩
      rw [hcs, text, text, List.flatMap_cons, List.append_assoc]

end Quotation

/-! ## Lexemes -/

open Quotation

/-- What stands between two quotes, if the pieces fit. -/
theorem Lexeme.quotation_pieces {quote : Char} (hquote : isQuote quote) {ps : List Piece}
    (hps : Fits quote ps) {p : Place} (hp : p.afterReturn = false) (rest : List Char) :
    Lexeme.quotation quote ⟨p, text ps ++ quote :: rest⟩ =
      ⟨.ok (if quote = '`' then .template else .string), (p.through (text ps ++ [quote])).offset,
        ⟨p.through (text ps ++ [quote]), rest⟩, some (decodeLossy (units ps))⟩ := by
  obtain ⟨d, hd, hrun⟩ := run_pieces hps hquote Decoder.decodes_empty
    (fun c _ => Bool.not_eq_true _ ▸ Place.not_completes_of_afterReturn hp c) rest
  rw [List.nil_append] at hd
  rw [Lexeme.quotation, Recognizer.runFrom, hrun, ← hd.value_eq]
  rfl

/-- No other text between quotes is accepted. -/
theorem Lexeme.exists_pieces {quote : Char} (hquote : isQuote quote) {p : Place}
    (hp : p.afterReturn = false) {cs : List Char} {k : Kind}
    (h : (Lexeme.quotation quote ⟨p, cs⟩).verdict = .ok k) :
    ∃ (ps : List Piece) (rest : List Char), cs = text ps ++ quote :: rest ∧ Fits quote ps := by
  rw [Lexeme.quotation] at h
  cases hrun : ((Quotation.recognizer quote).runFrom (.text .empty) ⟨p, cs⟩).verdict with
  | error f => simp [hrun] at h
  | ok d =>
    exact Quotation.exists_pieces hquote Decoder.decodes_empty
      (fun c _ => Bool.not_eq_true _ ▸ Place.not_completes_of_afterReturn hp c) hrun

theorem not_isNameStart_of_isQuote {c : Char} (h : isQuote c) : isNameStart c = false := by
  simp only [isQuote, Bool.or_eq_true, beq_iff_eq] at h
  rcases h with (rfl | rfl) | rfl <;> decide +kernel

theorem inked_of_isQuote {c : Char} (h : isQuote c) : Inked c := by
  simp only [isQuote, Bool.or_eq_true, beq_iff_eq] at h
  rcases h with (rfl | rfl) | rfl <;> exact ⟨rfl, rfl, rfl⟩

/-- A quote opens a quotation. -/
theorem lexemeAt_of_isQuote {c : Char} (h : isQuote c) (v : Version) (lineIsBlank : Bool)
    (behind : Cursor) : lexemeAt v lineIsBlank c behind = .quotation c behind := by
  have hname : (decide (c = '\\') || isNameStart c) = false := by
    rw [not_isNameStart_of_isQuote h, Bool.or_false, decide_eq_false_iff_not]
    exact ne_of_isQuote h rfl
  have hnumber : (isDigitOf 10 c || decide (c = '.')) = false := by
    simp only [isQuote, Bool.or_eq_true, beq_iff_eq] at h
    rcases h with (rfl | rfl) | rfl <;> rfl
  rw [lexemeAt, hname, hnumber, h]
  rfl

/-- The kind is that of a quotation. -/
def Kind.isQuotation : Kind → Bool
  | .string | .template => true
  | _ => false

/-- Nothing else opens a quotation. -/
theorem isQuote_of_lexemeAt {v : Version} {lineIsBlank : Bool} {c : Char} {behind : Cursor}
    {k : Kind} (h : (lexemeAt v lineIsBlank c behind).verdict = .ok k) (hk : k.isQuotation) :
    isQuote c := by
  revert h
  refine lexemeAt_cases (P := fun l => l.verdict = .ok k → isQuote c)
    (fun _ h => ?_) (fun _ h => ?_) (fun hquote _ => hquote) fun h => ?_
  · have hword := (Lexeme.ensures_name v c behind).ok h
    cases k <;> simp_all [Kind.isWord, Kind.isQuotation]
  · rcases (Lexeme.ensures_number v c behind).ok h with rfl | rfl
    · exact absurd hk (by decide)
    · exact absurd hk (by decide)
  · have hall : ∀ p ∈ Operator.spellings v lineIsBlank, p.2.isQuotation = false := by
      cases v <;> cases lineIsBlank <;> decide
    obtain ⟨rest, hmem⟩ := (Lexeme.ensures_symbol _ c behind).ok h
    simp [hall _ hmem] at hk

/-! ## Literals without gaps -/

namespace Quotation

/-- The letters that stand for control characters behind a backslash, and these. -/
def controls : List (Char × Char) :=
  [('b', '\x08'), ('f', '\x0c'), ('n', '\n'), ('r', '\r'), ('t', '\t'), ('v', '\x0b')]

/-- A part of a literal between two quotes. -/
inductive Item (quote : Char)
  /-- A character that stands for itself. -/
  | char (c : Char) (h : c ≠ quote ∧ c ≠ '\\' ∧ c ≠ '\n' ∧ c ≠ '\r')
  /-- `\u` and four digits. -/
  | unicode (a b c d : Digit 16)
  /-- `\x` and two digits. -/
  | byte (a b : Digit 16)
  /-- A backslash and a letter that stands for a control character. -/
  | control (p : Char × Char) (h : p ∈ controls)
  /-- The quote behind a backslash. -/
  | quote
  /-- A backslash behind a backslash. -/
  | backslash

namespace Item

variable {quote : Char}

/-- The text of an item. -/
def text : Item quote → List Char
  | char c _ => [c]
  | unicode a b c d => ['\\', 'u', a.char, b.char, c.char, d.char]
  | byte a b => ['\\', 'x', a.char, b.char]
  | control p _ => ['\\', p.1]
  | .quote => ['\\', quote]
  | backslash => ['\\', '\\']

/-- The code units of an item. -/
def units : Item quote → List UInt16
  | char c _ => ofChar c
  | unicode a b c d => [(Digit.number [a, b, c, d]).toUInt16]
  | byte a b => [(Digit.number [a, b]).toUInt16]
  | control p _ => ofChar p.2
  | .quote => ofChar quote
  | backslash => ofChar '\\'

/-- An escape that is not open, without invisible characters in it, fits before any
    character. -/
theorem fits_escape {e : Escape} (hopen : e.isOpen = false)
    (h : ∀ c ∈ e.text, isInvisible c = false) (next : Char) :
    (Piece.escape e e.text).FitsBefore quote next := by
  refine ⟨visible_eq_self_iff.2 h, ?_⟩
  rw [Escape.EndsBefore, hopen]
  exact fun c hc => h c (List.mem_of_getLast? hc)

theorem isSingle_of_isQuote (h : isQuote quote) : IsSingle quote := by
  simp only [isQuote, Bool.or_eq_true, beq_iff_eq] at h
  rcases h with (rfl | rfl) | rfl <;> exact ⟨by decide, by decide, rfl, rfl, rfl⟩

theorem isSingle_of_mem_controls {p : Char × Char} (h : p ∈ controls) :
    IsSingle p.1 ∧ controlOf? p.1 = some p.2 := by
  simp only [controls, List.mem_cons, List.not_mem_nil, or_false] at h
  rcases h with rfl | rfl | rfl | rfl | rfl | rfl <;>
    exact ⟨⟨by decide, by decide, rfl, rfl, rfl⟩, rfl⟩

/-- An item is a piece, which fits before any character. -/
theorem exists_piece (hquote : isQuote quote) (x : Item quote) :
    ∃ y : Piece, y.text = x.text ∧ y.units = x.units ∧ ∀ next, y.FitsBefore quote next := by
  -- An escape of one character, which stands for `d`.
  have hsingle {c d : Char} (hc : IsSingle c) (hd : (controlOf? c).getD c = d) :
      ∃ y : Piece, y.text = ['\\', c] ∧ y.units = ofChar d ∧
        ∀ next, y.FitsBefore quote next :=
    ⟨.escape (.single c hc) [c], rfl, congrArg ofChar hd,
      fits_escape rfl (List.forall_mem_singleton.2 hc.not_invisible)⟩
  have hdigit {a : Digit 16} : isInvisible a.char = false := not_isInvisible_of_isDigitOf a.isDigit
  cases x with
  | char c h =>
    refine ⟨.char c, rfl, rfl, fun next => ⟨h.1, h.2.1, ?_⟩⟩
    cases hc : isLineEnd c with
    | false => exact .inr (.inr rfl)
    | true =>
      rcases eq_of_isLineEnd hc with he | he | he | he
      · exact absurd he h.2.2.1
      · exact absurd he h.2.2.2
      · exact .inl he
      · exact .inr (.inl he)
  | unicode a b c d =>
    refine ⟨.escape (.unicode [a, b, c, d] rfl) _, rfl, rfl, fits_escape rfl ?_⟩
    have hu : isInvisible 'u' = false := rfl
    simp [Escape.text, Digit.text, hdigit, hu]
  | byte a b =>
    refine ⟨.escape (.byte [a, b] (Nat.le_refl 2)) _, rfl, rfl, fits_escape rfl ?_⟩
    have hx : isInvisible 'x' = false := rfl
    simp [Escape.text, Digit.text, hdigit, hx]
  | control p h =>
    obtain ⟨hc, hp⟩ := isSingle_of_mem_controls h
    exact hsingle hc (by rw [hp]; rfl)
  | quote =>
    refine hsingle (isSingle_of_isQuote hquote) ?_
    simp only [isQuote, Bool.or_eq_true, beq_iff_eq] at hquote
    rcases hquote with (rfl | rfl) | rfl <;> rfl
  | backslash => exact hsingle (c := '\\') ⟨by decide, by decide, rfl, rfl, rfl⟩ rfl

/-- Items are pieces, and fit one after the other. -/
theorem exists_pieces (hquote : isQuote quote) (items : List (Item quote)) :
    ∃ ps : List Piece, Quotation.text ps = items.flatMap text ∧
      Quotation.units ps = items.flatMap units ∧ Fits quote ps := by
  induction items with
  | nil => exact ⟨[], rfl, rfl, trivial⟩
  | cons x items ih =>
    obtain ⟨ps, htext, hunits, hps⟩ := ih
    obtain ⟨y, hy, hy', hfits⟩ := exists_piece hquote x
    refine ⟨y :: ps, ?_, ?_, hfits _, hps⟩
    · rw [List.flatMap_cons, ← htext, ← hy]
      rfl
    · rw [List.flatMap_cons, ← hunits, ← hy']
      rfl

end Item

end Quotation

namespace LexemeReader

/-- A quotation is read wherever it stands. -/
theorem next_quotation {r : LexemeReader} {quote : Char} (hquote : isQuote quote)
    {ps : List Piece} (hps : Fits quote ps) {rest : List Char}
    (hrest : r.cursor.rest = quote :: (Quotation.text ps ++ quote :: rest))
    (hret : r.cursor.place.afterReturn = false) :
    ∃ r', r.next = (.ok (if quote = '`' then .template else .string), r') ∧
      r'.lexeme = quote :: (Quotation.text ps ++ [quote]) ∧ r'.cursor.rest = rest ∧
        r'.value = decodeLossy (Quotation.units ps) := by
  have hinked := inked_of_isQuote hquote
  have hpast : (r.cursor.place.past quote).afterReturn = false :=
    ne_return_of_not_isLineEnd hinked.not_lineEnd
  have hnext := next_of_inked hinked hrest hret
  rw [lexemeAt_of_isQuote hquote, Lexeme.quotation_pieces hquote hps hpast rest, accept] at hnext
  refine ⟨_, hnext, lexeme_eq (m := ⟨_, rest⟩) ⟨?_, ?_⟩ rfl, rfl, rfl⟩
  · simp
  · rw [Place.through, Place.not_completes _ hinked]
    rfl

/-- A literal of items, between two quotes, is read whatever stands behind it. Its value is the
    text of the code units of the items, and so of any text with these code units. -/
theorem next_items (v : Version) (quote : { c : Char // isQuote c })
    (items : List (Item quote.1)) (rest : List Char) :
    let literal := quote.1 :: (items.flatMap Item.text ++ [quote.1])
    let r := (startingAt (literal ++ rest) 0 v).next
    r.1 = .ok (if quote.1 = '`' then .template else .string) ∧
      r.2.lexeme = literal ∧ r.2.cursor.rest = rest ∧
        r.2.value = decodeLossy (items.flatMap Item.units) ∧
          ∀ cs, items.flatMap Item.units = encode cs → r.2.value = cs := by
  obtain ⟨quote, hquote⟩ := quote
  obtain ⟨ps, htext, hunits, hps⟩ := Item.exists_pieces hquote items
  rw [← htext, ← hunits]
  intro literal r
  have hrest : (startingAt (literal ++ rest) 0 v).cursor.rest =
      quote :: (Quotation.text ps ++ quote :: rest) := by
    have hdrop := dropBytes_zero (literal ++ rest)
    exact hdrop.trans (by simp [literal])
  obtain ⟨r', hnext, hlexeme, hrest', hvalue⟩ := next_quotation hquote hps hrest rfl
  have hr : r = _ := hnext
  rw [hr]
  refine ⟨rfl, hlexeme, hrest', hvalue, fun cs hcs => ?_⟩
  rw [hvalue, hcs, decodeLossy_encode]

end LexemeReader

end ScriptExcerpt
