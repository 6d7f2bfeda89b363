import ScriptExcerpt.Proofs.Lexeme.Written

/-!
# Regular expressions as they are written

What stands between the slashes of a regular expression is a sequence of escapes, of
classes in brackets and of other characters (`RegExp.Body`); its flags stand behind it.
A text that stands behind the first slash is split into body, flags and rest in one way
at most, because the recognizer follows every split (`RegExp.Splits.carries`).

* `RegExp.exists_splits_or_failsOn`: a text that cannot be split has no end;
* `RegExp.verdict_eq_ok_iff`, `RegExp.verdict_eq_flag_iff`,
  `RegExp.verdict_eq_unterminated_iff`: what is made of a text whose characters are all
  visible;
* `RegExp.exists_written`: with invisible characters, what is read is what is visible;
* `LexemeReader.readRegExp_literal`: literals without classes and escapes, read by a reader.
-/

namespace ScriptExcerpt

open Text

namespace RegExp

/-! ## The grammar -/

/-- What may stand in a class, before the bracket that closes it. -/
inductive ClassBody : List Char → Prop
  | nil : ClassBody []
  | escape {c : Char} {cs : List Char} : isLineEnd c = false → ClassBody cs →
    ClassBody ('\\' :: c :: cs)
  | char {c : Char} {cs : List Char} : isLineEnd c = false → c ≠ ']' → c ≠ '\\' →
    ClassBody cs → ClassBody (c :: cs)

/-- What may stand between the slashes of a regular expression. -/
inductive Body : List Char → Prop
  | nil : Body []
  | escape {c : Char} {cs : List Char} : isLineEnd c = false → Body cs → Body ('\\' :: c :: cs)
  | bracket {cs ds : List Char} : ClassBody cs → Body ds → Body ('[' :: (cs ++ ']' :: ds))
  | char {c : Char} {cs : List Char} : isLineEnd c = false → c ≠ '/' → c ≠ '[' → c ≠ '\\' →
    Body cs → Body (c :: cs)

/-- Behind the first slash of a regular expression, the text `u` is the body `b`, a slash, the
    flags `f`, and the rest `r`. -/
structure Splits (u b f r : List Char) : Prop where
  eq : u = b ++ '/' :: (f ++ r)
  body : Body b
  flags : ∀ c ∈ f, c ∈ knownFlags

/-- The text has a body and flags, and no letter behind them. -/
def Accepts (u b f : List Char) : Prop :=
  ∃ r, Splits u b f r ∧ ∀ c ∈ r.head?, isAlphabetic c = false

/-- The text has a body and flags, and behind them a letter that is no flag. -/
def Rejects (u : List Char) (c : Char) : Prop :=
  ∃ b f r, Splits u b f (c :: r) ∧ isAlphabetic c ∧ c ∉ knownFlags

/-! ## Texts that are followed -/

variable {c : Char} {cs t u b f r text : List Char} {inClass : Bool}

/-- A backslash and the character behind it, in a class or not. -/
theorem carries_escape (hc : Plain c) (text : List Char) (inClass : Bool) :
    recognizer.Carries (.body text inClass) ['\\', c] (.body (c :: '\\' :: text) inClass) := by
  have hbackslash : recognizer.step (.body text inClass) '\\' =
      .take (.backslash ('\\' :: text) inClass) := rfl
  have hescaped : recognizer.step (.backslash ('\\' :: text) inClass) c =
      .take (.body (c :: '\\' :: text) inClass) := by
    simp only [recognizer, step, hc.not_lineEnd, Bool.false_eq_true, if_false]
  exact .cons ⟨rfl, rfl⟩ hbackslash (.single hc hescaped)

theorem ClassBody.carries (h : ClassBody cs) (hv : ∀ c ∈ cs, isInvisible c = false)
    (text : List Char) :
    recognizer.Carries (.body text true) cs (.body (cs.reverse ++ text) true) := by
  induction h generalizing text with
  | nil => exact .refl _ _
  | @escape c cs hc _ ih =>
    simp only [List.forall_mem_cons] at hv
    simpa using (carries_escape ⟨hc, hv.2.1⟩ text true).trans (ih hv.2.2 (c :: '\\' :: text))
  | @char c cs hc hclose hback _ ih =>
    simp only [List.forall_mem_cons] at hv
    have hstep : recognizer.step (.body text true) c = .take (.body (c :: text) true) := by
      simp [recognizer, step, stepBody, hc, hclose, hback]
    simpa using Recognizer.Carries.cons ⟨hc, hv.1⟩ hstep (ih hv.2 (c :: text))

theorem Body.carries (h : Body b) (hv : ∀ c ∈ b, isInvisible c = false) (text : List Char) :
    recognizer.Carries (.body text false) b (.body (b.reverse ++ text) false) := by
  induction h generalizing text with
  | nil => exact .refl _ _
  | @escape c cs hc _ ih =>
    simp only [List.forall_mem_cons] at hv
    simpa using (carries_escape ⟨hc, hv.2.1⟩ text false).trans (ih hv.2.2 (c :: '\\' :: text))
  | @bracket cs ds hcs _ ih =>
    simp only [List.forall_mem_cons, List.forall_mem_append] at hv
    obtain ⟨-, hvcs, -, hvds⟩ := hv
    have hopen : recognizer.step (.body text false) '[' = .take (.body ('[' :: text) true) := rfl
    have hclose : recognizer.step (.body (cs.reverse ++ '[' :: text) true) ']' =
        .take (.body (']' :: (cs.reverse ++ '[' :: text)) false) := rfl
    have hrest := Recognizer.Carries.cons ⟨rfl, rfl⟩ hclose (ih hvds _)
    simpa using Recognizer.Carries.cons ⟨rfl, rfl⟩ hopen
      ((hcs.carries hvcs ('[' :: text)).trans hrest)
  | @char c cs hc hslash hopen hback _ ih =>
    simp only [List.forall_mem_cons] at hv
    have hstep : recognizer.step (.body text false) c = .take (.body (c :: text) false) := by
      simp [recognizer, step, stepBody, hc, hslash, hopen, hback]
    simpa using Recognizer.Carries.cons ⟨hc, hv.1⟩ hstep (ih hv.2 (c :: text))

/-- Flags are letters of ASCII. -/
theorem of_mem_knownFlags (h : c ∈ knownFlags) : Plain c ∧ isAlphabetic c := by
  have hall : knownFlags.all fun c => Plain c ∧ isAlphabetic c := by decide
  exact of_decide_eq_true (List.all_eq_true.1 hall c h)

/-- The flags behind a body. -/
theorem carries_flags (hf : ∀ c ∈ f, c ∈ knownFlags) (text : List Char) :
    recognizer.Carries (.flags text []) f (.flags text f.reverse) := by
  have hstep : ∀ c ∈ f, ∀ u, recognizer.step (.flags text u) c = .take (.flags text (c :: u)) :=
    fun c hc u => by simp [recognizer, step, hf c hc]
  simpa using Recognizer.Carries.word (fun u => State.flags text u)
    (fun c hc => (of_mem_knownFlags (hf c hc)).1) hstep []

/-- The recognizer follows every split, up to the rest. -/
theorem Splits.carries (h : Splits u b f r) (hv : ∀ c ∈ b, isInvisible c = false) :
    recognizer.Carries (.body [] false) (b ++ '/' :: f) (.flags b.reverse f.reverse) := by
  have hslash : recognizer.step (.body (b.reverse ++ []) false) '/' =
      .take (.flags (b.reverse ++ []) []) := rfl
  simpa using (h.body.carries hv []).trans (.cons ⟨rfl, rfl⟩ hslash (carries_flags h.flags _))

/-! ## Texts that are not followed -/

/-- A backslash stands before a character, or the literal has no end. -/
theorem exists_cons_or_failsOn (hv : ∀ c ∈ t, isInvisible c = false) :
    (∃ c cs, t = c :: cs ∧ isLineEnd c = false) ∨
      ∀ text inClass, recognizer.FailsOn (.backslash text inClass) t unterminated := by
  cases t with
  | nil => exact .inr fun _ _ => Recognizer.failsOn_nil rfl
  | cons c cs =>
    cases hc : isLineEnd c with
    | false => exact .inl ⟨c, cs, rfl, hc⟩
    | true =>
      refine .inr fun text inClass => Recognizer.failsOn_cons (hv c List.mem_cons_self) ?_ cs
      exact if_pos hc

/-- A line end in a body leaves the literal without an end. -/
theorem failsOn_lineEnd (hc : isLineEnd c) (text cs : List Char) (inClass : Bool) :
    recognizer.FailsOn (.body text inClass) (c :: cs) unterminated := by
  have hslash : c ≠ '/' := ne_of_isLineEnd hc rfl
  refine Recognizer.failsOn_cons (isInvisible_of_isLineEnd hc) ?_ cs
  simp [recognizer, step, stepBody, hslash, hc]

/-- An open class is closed, or the literal has no end. -/
theorem exists_classBody_or_failsOn (t : List Char) (hv : ∀ c ∈ t, isInvisible c = false) :
    (∃ cs ds, t = cs ++ ']' :: ds ∧ ClassBody cs) ∨
      ∀ text, recognizer.FailsOn (.body text true) t unterminated := by
  match t with
  | [] => exact .inr fun _ => Recognizer.failsOn_nil rfl
  | c :: t =>
    obtain ⟨hvc, hvt⟩ := List.forall_mem_cons.1 hv
    by_cases hline : isLineEnd c
    · exact .inr fun text => failsOn_lineEnd hline text t true
    rw [Bool.not_eq_true] at hline
    by_cases hclose : c = ']'
    · exact .inl ⟨[], t, by rw [hclose]; rfl, .nil⟩
    by_cases hback : c = '\\'
    · subst hback
      rcases exists_cons_or_failsOn hvt with ⟨d, t', rfl, hd⟩ | hfail
      · have hvd := List.forall_mem_cons.1 hvt
        rcases exists_classBody_or_failsOn t' hvd.2 with ⟨cs, ds, rfl, hcs⟩ | hfail
        · exact .inl ⟨'\\' :: d :: cs, ds, rfl, .escape hd hcs⟩
        · exact .inr fun text =>
            (carries_escape ⟨hd, hvd.1⟩ text true).failsOn (hfail (d :: '\\' :: text))
      · exact .inr fun text =>
          (Recognizer.Carries.single ⟨hline, hvc⟩ rfl).failsOn (hfail ('\\' :: text) true)
    · rcases exists_classBody_or_failsOn t hvt with ⟨cs, ds, rfl, hcs⟩ | hfail
      · exact .inl ⟨c :: cs, ds, rfl, .char hline hclose hback hcs⟩
      · refine .inr fun text => ?_
        have hstep := (ClassBody.char hline hclose hback .nil).carries (by simpa using hvc) text
        exact hstep.failsOn (hfail _)
termination_by t.length

/-- A body is closed, or the literal has no end. -/
theorem exists_body_or_failsOn (t : List Char) (hv : ∀ c ∈ t, isInvisible c = false) :
    (∃ b ds, t = b ++ '/' :: ds ∧ Body b) ∨
      ∀ text, recognizer.FailsOn (.body text false) t unterminated := by
  match t with
  | [] => exact .inr fun _ => Recognizer.failsOn_nil rfl
  | c :: t =>
    obtain ⟨hvc, hvt⟩ := List.forall_mem_cons.1 hv
    by_cases hline : isLineEnd c
    · exact .inr fun text => failsOn_lineEnd hline text t false
    rw [Bool.not_eq_true] at hline
    by_cases hslash : c = '/'
    · exact .inl ⟨[], t, by rw [hslash]; rfl, .nil⟩
    by_cases hback : c = '\\'
    · subst hback
      rcases exists_cons_or_failsOn hvt with ⟨d, t', rfl, hd⟩ | hfail
      · have hvd := List.forall_mem_cons.1 hvt
        rcases exists_body_or_failsOn t' hvd.2 with ⟨b, ds, rfl, hb⟩ | hfail
        · exact .inl ⟨'\\' :: d :: b, ds, rfl, .escape hd hb⟩
        · exact .inr fun text =>
            (carries_escape ⟨hd, hvd.1⟩ text false).failsOn (hfail (d :: '\\' :: text))
      · exact .inr fun text =>
          (Recognizer.Carries.single ⟨hline, hvc⟩ rfl).failsOn (hfail ('\\' :: text) false)
    by_cases hopen : c = '['
    · subst hopen
      rcases exists_classBody_or_failsOn t hvt with ⟨cs, ds, rfl, hcs⟩ | hfail
      · -- The body goes on behind the class.
        have hvds : ∀ c ∈ ds, isInvisible c = false := fun c hc => hvt c (by simp [hc])
        rcases exists_body_or_failsOn ds hvds with ⟨b, es, rfl, hb⟩ | hfail
        · exact .inl ⟨'[' :: (cs ++ ']' :: b), es, by simp, .bracket hcs hb⟩
        · refine .inr fun text => ?_
          have hclass : Body ('[' :: (cs ++ [']'])) := .bracket hcs .nil
          have hcarries := hclass.carries (fun c hc => hv c (by grind)) text
          simpa using hcarries.failsOn (hfail _)
      · exact .inr fun text =>
          (Recognizer.Carries.single ⟨rfl, rfl⟩ rfl).failsOn (hfail ('[' :: text))
    · rcases exists_body_or_failsOn t hvt with ⟨b, ds, rfl, hb⟩ | hfail
      · exact .inl ⟨c :: b, ds, rfl, .char hline hslash hopen hback hb⟩
      · refine .inr fun text => ?_
        have hstep := (Body.char hline hslash hopen hback .nil).carries (by simpa using hvc) text
        exact hstep.failsOn (hfail _)
termination_by t.length
decreasing_by all_goals simp_all; try omega

/-! ## What is made of a text -/

section Verdicts

variable {p : Place} {l : Literal}

theorem Splits.takes (h : Splits u b f r) (hv : ∀ c ∈ b, isInvisible c = false)
    (hr : ∀ c ∈ r.head?, isInvisible c = false ∧ isAlphabetic c = false)
    (hp : p.afterReturn = false) :
    (recognizer.runFrom (.body [] false) ⟨p, u⟩).Takes ⟨p, u⟩ (b ++ '/' :: f) ⟨b, f⟩ := by
  have hu : u = (b ++ '/' :: f) ++ r := by simp [h.eq]
  have hend : recognizer.EndsBefore (.flags b.reverse f.reverse) ⟨b, f⟩ r := by
    cases r with
    | nil => simp [Recognizer.EndsBefore, recognizer, atEnd]
    | cons c r =>
      obtain ⟨hc, hletter⟩ := hr c rfl
      have hflag : c ∉ knownFlags := fun hc => by simp [(of_mem_knownFlags hc).2] at hletter
      exact ⟨hc, by simp [recognizer, step, hflag, hletter]⟩
  have htakes := (h.carries hv).takes hp hend
  rwa [← hu] at htakes

theorem Splits.failsOn (h : Splits u b f (c :: r)) (hv : ∀ c ∈ b, isInvisible c = false)
    (hc : isInvisible c = false) (hletter : isAlphabetic c) (hflag : c ∉ knownFlags) :
    recognizer.FailsOn (.body [] false) u (⟨.invalidRegExpFlag c, .back c.utf8Size⟩, f) := by
  have hu : u = (b ++ '/' :: f) ++ c :: r := by simp [h.eq]
  have hfail : recognizer.FailsOn (.flags b.reverse f.reverse) (c :: r)
      (⟨.invalidRegExpFlag c, .back c.utf8Size⟩, f) :=
    Recognizer.failsOn_cons hc (by simp [recognizer, step, hflag, hletter]) r
  have hall := (h.carries hv).failsOn hfail
  rwa [← hu] at hall

/-- What stands behind a body is split by the first character that is no flag. -/
theorem exists_splits_or_failsOn (hv : ∀ c ∈ u, isInvisible c = false) :
    (∃ b f, Accepts u b f) ∨ (∃ c, Rejects u c) ∨
      recognizer.FailsOn (.body [] false) u unterminated := by
  rcases exists_body_or_failsOn u hv with ⟨b, ds, hu, hb⟩ | hfail
  · have hsplits : Splits u b (ds.takeWhile knownFlags.contains)
        (ds.dropWhile knownFlags.contains) :=
      ⟨by rw [hu, List.takeWhile_append_dropWhile], hb,
        fun c hc => by simpa using List.all_eq_true.1 List.all_takeWhile c hc⟩
    have hflag := List.head?_dropWhile_not knownFlags.contains ds
    rcases hr : ds.dropWhile knownFlags.contains with _ | ⟨c, r⟩
    · exact .inl ⟨b, _, [], hr ▸ hsplits, by simp⟩
    · rw [hr] at hsplits hflag
      cases hc : isAlphabetic c with
      | false => exact .inl ⟨b, _, c :: r, hsplits, by simpa using hc⟩
      | true => exact .inr (.inl ⟨c, b, _, r, hsplits, hc, by simpa using hflag⟩)
  · exact .inr (.inr (hfail []))

variable (hv : ∀ c ∈ u, isInvisible c = false) (hp : p.afterReturn = false)

include hv hp

theorem Accepts.verdict (h : Accepts u b f) :
    (recognizer.runFrom (.body [] false) ⟨p, u⟩).verdict = .ok ⟨b, f⟩ := by
  obtain ⟨r, hsplits, hr⟩ := h
  have hr : ∀ c ∈ r.head?, isInvisible c = false ∧ isAlphabetic c = false := fun c hc =>
    ⟨hv c (by simp [hsplits.eq, List.mem_of_mem_head? hc]), hr c hc⟩
  exact (hsplits.takes (fun c hc => hv c (by simp [hsplits.eq, hc])) hr hp).verdict

theorem Rejects.verdict (h : Rejects u c) :
    ∃ f, (recognizer.runFrom (.body [] false) ⟨p, u⟩).verdict =
      .error (⟨.invalidRegExpFlag c, .back c.utf8Size⟩, f) := by
  obtain ⟨b, f, r, hsplits, hletter, hflag⟩ := h
  have hvb : ∀ c ∈ b, isInvisible c = false := fun c hc => hv c (by simp [hsplits.eq, hc])
  exact ⟨f, hsplits.failsOn hvb (hv c (by simp [hsplits.eq])) hletter hflag p hp⟩

/-- A literal is read exactly if the text splits into it. -/
theorem verdict_eq_ok_iff : (recognizer.runFrom (.body [] false) ⟨p, u⟩).verdict = .ok l ↔
    Accepts u l.body l.flags := by
  refine ⟨fun h => ?_, fun h => h.verdict hv hp⟩
  rcases exists_splits_or_failsOn hv with ⟨b, f, haccepts⟩ | ⟨c, hrejects⟩ | hfail
  · obtain rfl : ⟨b, f⟩ = l := Except.ok.inj ((haccepts.verdict hv hp).symm.trans h)
    exact haccepts
  · obtain ⟨f, hverdict⟩ := hrejects.verdict hv hp
    simp [hverdict] at h
  · simp [hfail p hp] at h

/-- A letter is told to be no flag exactly if it stands behind a body and flags. -/
theorem verdict_eq_flag_iff :
    (∃ e, (recognizer.runFrom (.body [] false) ⟨p, u⟩).verdict = .error e ∧
      e.1.cause = .invalidRegExpFlag c) ↔ Rejects u c := by
  constructor
  · rintro ⟨e, h, he⟩
    rcases exists_splits_or_failsOn hv with ⟨b, f, haccepts⟩ | ⟨d, hrejects⟩ | hfail
    · simp [haccepts.verdict hv hp] at h
    · obtain ⟨f, hverdict⟩ := hrejects.verdict hv hp
      obtain rfl := Except.error.inj (hverdict.symm.trans h)
      obtain rfl := Cause.invalidRegExpFlag.inj he
      exact hrejects
    · obtain rfl := Except.error.inj ((hfail p hp).symm.trans h)
      simp [unterminated, Fault.unterminated] at he
  · intro h
    obtain ⟨f, hverdict⟩ := h.verdict hv hp
    exact ⟨_, hverdict, rfl⟩

/-- A literal has no end exactly if the text does not split. -/
theorem verdict_eq_unterminated_iff :
    (∃ e, (recognizer.runFrom (.body [] false) ⟨p, u⟩).verdict = .error e ∧
      e.1.cause = .unterminatedLiteral "regular expression literal") ↔
      (¬ ∃ b f, Accepts u b f) ∧ ¬ ∃ c, Rejects u c := by
  constructor
  · rintro ⟨e, h, he⟩
    refine ⟨fun ⟨b, f, haccepts⟩ => ?_, fun ⟨c, hrejects⟩ => ?_⟩
    · simp [haccepts.verdict hv hp] at h
    · obtain ⟨f, hverdict⟩ := hrejects.verdict hv hp
      obtain rfl := Except.error.inj (hverdict.symm.trans h)
      simp at he
  · rintro ⟨haccepts, hrejects⟩
    have hfail := ((exists_splits_or_failsOn hv).resolve_left haccepts).resolve_left hrejects
    exact ⟨_, hfail p hp, rfl⟩

end Verdicts

/-- What the symbol `/`, or `/=`, says of the body makes no difference: it is as if all of the
    text behind the first slash were still to be read. -/
theorem runFrom_start {p : Place} (hp : p.afterReturn = false) (equals : Bool)
    (ht : equals = false → ∀ c ∈ t.head?, c ≠ '*' ∧ isInvisible c = false) :
    recognizer.runFrom (if equals then .body ['='] false else .opening)
        ⟨p.through (if equals then ['='] else []), t⟩ =
      recognizer.runFrom (.body [] false) ⟨p, (if equals then ['='] else []) ++ t⟩ := by
  cases equals with
  | true =>
    have hcarries : recognizer.Carries (.body [] false) ['='] (.body ['='] false) :=
      .single ⟨rfl, rfl⟩ rfl
    exact (hcarries.runFrom_eq t hp).symm
  | false =>
    cases t with
    | nil => rfl
    | cons c t =>
      obtain ⟨hstar, hc⟩ := ht rfl c rfl
      have hstep : recognizer.step .opening c = recognizer.step (.body [] false) c := if_neg hstar
      exact Recognizer.run_congr_step
        (Bool.not_eq_true _ ▸ Place.not_completes_of_afterReturn hp c) hc hstep

/-! ## Invisible characters -/

/-- The text that was read, from the first slash on. -/
def State.written : State → List Char
  | .opening => []
  | .body text _ | .backslash text _ => text.reverse
  | .flags text letters => text.reverse ++ '/' :: letters.reverse

theorem written_of_take {s s' : State} (h : recognizer.step s c = .take s') :
    s'.written = s.written ++ [c] := by
  cases s <;> simp only [recognizer, step, stepBody] at h <;> grind [State.written]

/-- Where a literal ends, all of it was read. -/
theorem written_of_stop {s : State} {l : Literal} (h : recognizer.step s c = .stop l) :
    s.written = l.body ++ '/' :: l.flags := by
  cases s <;> simp only [recognizer, step, stepBody] at h <;> grind [State.written]

theorem written_of_accept {s : State} {l : Literal} (h : recognizer.atEnd s = .accept l) :
    s.written = l.body ++ '/' :: l.flags := by
  cases s <;> simp only [recognizer, atEnd] at h <;> grind [State.written]

/-- What is read of a literal is what is visible of the text that is passed. -/
theorem exists_written {s : State} {mark : Cursor} {p : Place} {l : Literal} {gap : List Char}
    (hp : p.OnLine) (hgap : mark.Passes gap ⟨p, cs⟩) (hnone : visible gap = [])
    (h : (recognizer.run s mark p cs).verdict = .ok l) :
    ∃ w, mark.Passes w (recognizer.run s mark p cs).cursor ∧
      s.written ++ visible w = l.body ++ '/' :: l.flags := by
  induction cs generalizing s mark p gap with
  | nil =>
    rw [Recognizer.run] at h ⊢
    cases he : recognizer.atEnd s with
    | accept l' =>
      rw [he] at h
      obtain rfl := Except.ok.inj h
      exact ⟨gap, hgap, by rw [hnone, List.append_nil, written_of_accept he]⟩
    | back l' => cases s <;> simp [recognizer, atEnd] at he
    | fail e => simp [he] at h
  | cons c cs ih =>
    have hpast := hgap.trans (Cursor.passes_past (hp.not_completes c) cs)
    rw [Recognizer.run, if_neg (hp.not_completes c)] at h ⊢
    cases hc : isInvisible c with
    | true =>
      rw [hc] at h
      refine ih (p.onLine_past (not_isLineEnd_of_isInvisible hc)) hpast ?_ h
      rw [visible_append, hnone, visible_cons_of_isInvisible hc]
      rfl
    | false =>
      rw [hc, Bool.and_false] at h
      simp only [Bool.and_false, Bool.false_eq_true, if_false] at h ⊢
      cases hs : recognizer.step s c with
      | take s' =>
        -- The character belongs to the literal, and so does what is visible behind it.
        have hline : isLineEnd c = false := oneLine.not_isLineEnd (by rw [hs]; exact id)
        rw [hs] at h
        obtain ⟨w, hw, hwritten⟩ := ih (p.onLine_past hline) (.refl _) rfl h
        refine ⟨gap ++ [c] ++ w, hpast.trans hw, ?_⟩
        rw [visible_append, visible_append, hnone, visible_cons hc, ← hwritten,
          written_of_take hs]
        simp [visible]
      | stop l' =>
        rw [hs] at h
        obtain rfl := Except.ok.inj h
        exact ⟨[], (Cursor.Passes.refl mark).look, by simpa [visible] using written_of_stop hs⟩
      | probe s' => exact absurd trivial (oneLine.probe hs)
      | finish l' => cases s <;> simp only [recognizer, step, stepBody] at hs <;> grind
      | fail e => simp [hs] at h
      | refuse e => simp [hs] at h

/-- What the end of the script, or a character, makes of a literal that it leaves without end. -/
theorem fault_of_atEnd {s : State} {e : Fault × List Char} (h : recognizer.atEnd s = .fail e) :
    e = unterminated := by
  cases s <;> simp only [recognizer, atEnd] at h <;> grind

theorem fault_of_refuse {s : State} {e : Fault × List Char} (h : recognizer.step s c = .refuse e) :
    e = unterminated := by
  cases s <;> simp only [recognizer, step, stepBody] at h <;> grind

/-- A character that is wrong leaves the literal without end, or stands behind the flags. -/
theorem fault_of_fail {s : State} {e : Fault × List Char} (h : recognizer.step s c = .fail e) :
    e = unterminated ∨ e.1 = ⟨.invalidRegExpFlag c, .back c.utf8Size⟩ ∧
      ∃ text, s.written = text ++ '/' :: e.2 := by
  cases s with
  | flags text letters =>
    simp only [recognizer, step] at h
    split at h
    · simp at h
    · split at h
      · obtain rfl := Move.fail.inj h
        exact .inr ⟨rfl, text.reverse, rfl⟩
      · simp at h
  | opening | body text inClass | backslash text inClass =>
    simp only [recognizer, step, stepBody] at h
    grind

/-- Whether or not a literal is read, the letters that are kept are flags. -/
theorem ensures_flags : recognizer.Ensures
    (fun s => ∀ text letters, s = .flags text letters → ∀ x ∈ letters, x ∈ knownFlags)
    (fun l => ∀ x ∈ l.flags, x ∈ knownFlags) (fun e => ∀ x ∈ e.2, x ∈ knownFlags) where
  step s d hs := by
    cases s with
    | flags text letters =>
      have hletters := hs text letters rfl
      simp only [recognizer, step]
      split
      · next hd =>
        rintro _ _ ⟨rfl, rfl⟩
        exact List.forall_mem_cons.2 ⟨by simpa using hd, hletters⟩
      · split <;> simpa [Move.Ensures] using hletters
    | opening | body text inClass | backslash text inClass =>
      simp only [recognizer, step, stepBody]
      grind [Move.Ensures, unterminated]
  atEnd s hs := by
    cases s with
    | flags text letters => simpa [recognizer, atEnd, Ending.Ensures] using hs text letters rfl
    | _ => simp [recognizer, atEnd, Ending.Ensures, unterminated]

/-- A run from `s₀` and `cur` on, whose state tells what is visible of the text that was passed. -/
structure Writes (s₀ : State) (cur : Cursor) (s : State) (mark here : Cursor) : Prop
    extends Recognizer.OnItsLine cur (fun _ => True) s mark here where
  written : ∃ w, cur.Passes w here ∧ visible s.written = visible s₀.written ++ visible w

theorem invariant_writes (s₀ : State) (cur : Cursor) : recognizer.Invariant (Writes s₀ cur) where
  complete h hp := absurd hp (h.here_onLine.not_completes _)
  skip {s mark p d cs} h hp hd := by
    obtain ⟨w, hw, hwritten⟩ := h.written
    have hnone : visible [d] = [] := visible_cons_of_isInvisible hd
    refine ⟨(oneLine.invariant cur).skip h.toOnItsLine hp hd, w ++ [d],
      hw.trans (Cursor.passes_past hp cs), ?_⟩
    rw [visible_append, hnone, List.append_nil, hwritten]
  take {s t mark p d cs} h hp hs := by
    obtain ⟨w, hw, hwritten⟩ := h.written
    refine ⟨(oneLine.invariant cur).take h.toOnItsLine hp hs, w ++ [d],
      hw.trans (Cursor.passes_past hp cs), ?_⟩
    rw [written_of_take hs, visible_append, visible_append, hwritten, List.append_assoc]
  probe _ _ hs := absurd trivial (oneLine.probe hs)

/-- What is wrong with a literal: it has no end, or its reading ended behind a letter that is no
    flag. What stands before that letter is visibly what was read, and ends with the flags. -/
theorem fault_of_run {s₀ : State} {cur : Cursor} {e : Fault × List Char} (hcur : cur.place.OnLine)
    (h : (recognizer.runFrom s₀ cur).verdict = .error e) :
    e = unterminated ∨ ∃ w p d ds text, cur.Passes w ⟨p, d :: ds⟩ ∧
      (recognizer.runFrom s₀ cur).cursor = ⟨p.past d, ds⟩ ∧
        e.1 = ⟨.invalidRegExpFlag d, .back d.utf8Size⟩ ∧
          visible s₀.written ++ visible w = visible (text ++ '/' :: e.2) := by
  obtain ⟨s, mark, here, hwrites, hend⟩ :=
    (invariant_writes s₀ cur).halts (s := s₀) ⟨.refl hcur, [], .refl cur, by simp [visible]⟩
  rw [Recognizer.runFrom] at h ⊢
  generalize recognizer.run s₀ cur cur.place cur.rest = o at h hend ⊢
  cases hend with
  | breakOff he => exact .inl (Except.error.inj h ▸ fault_of_atEnd he)
  | refuse _ he => exact .inl (Except.error.inj h ▸ fault_of_refuse he)
  | @fail p d ds e' hp he =>
    obtain rfl := Except.error.inj h
    obtain hfault | ⟨hfault, text, htext⟩ := fault_of_fail he
    · exact .inl hfault
    · obtain ⟨w, hw, hwritten⟩ := hwrites.written
      exact .inr ⟨w, p, d, ds, text, hw, rfl, hfault, by rw [← hwritten, htext]⟩
  | accept | back | finish | stop => simp at h

end RegExp

/-! ## Literals without classes and escapes -/

/-- The character stands for itself in a regular expression, outside classes. -/
structure IsRegExpPart (c : Char) : Prop extends Plain c where
  not_slash : c ≠ '/'
  not_backslash : c ≠ '\\'
  not_bracket : c ≠ '['

instance (c : Char) : Decidable (IsRegExpPart c) :=
  decidable_of_iff (Plain c ∧ c ≠ '/' ∧ c ≠ '\\' ∧ c ≠ '[')
    ⟨fun h => ⟨h.1, h.2.1, h.2.2.1, h.2.2.2⟩,
      fun h => ⟨h.toPlain, h.not_slash, h.not_backslash, h.not_bracket⟩⟩

theorem RegExp.body_of_parts {w : List Char} (hw : ∀ x ∈ w, IsRegExpPart x) : Body w := by
  induction w with
  | nil => exact .nil
  | cons c w ih =>
    obtain ⟨hc, hw⟩ := List.forall_mem_cons.1 hw
    exact .char hc.not_lineEnd hc.not_slash hc.not_bracket hc.not_backslash (ih hw)

/-- A regular expression of such characters is read with its flags, before what goes on with
    no flags. -/
theorem LexemeReader.readRegExp_literal {r : LexemeReader} {c : Char} {w flags t : List Char}
    (hc : IsRegExpPart c) (hstar : c ≠ '*') (hw : ∀ x ∈ w, IsRegExpPart x)
    (hflags : ∀ x ∈ flags, x ∈ RegExp.knownFlags)
    (ht : ∀ d ∈ t.head?, isInvisible d = false ∧ d ∉ RegExp.knownFlags ∧ isAlphabetic d = false)
    (hrest : r.cursor.rest = c :: (w ++ '/' :: (flags ++ t)))
    (hp : r.cursor.place.afterReturn = false) :
    ∃ r', r.readRegExp false = (.ok (), r') ∧ r'.cursor.rest = t ∧
      r'.cursor.place.afterReturn = false := by
  have hparts : ∀ x ∈ c :: w, IsRegExpPart x := List.forall_mem_cons.2 ⟨hc, hw⟩
  have hsplits : RegExp.Splits r.cursor.rest (c :: w) flags t :=
    ⟨hrest, RegExp.body_of_parts hparts, hflags⟩
  have hvisible : ∀ x ∈ c :: w, isInvisible x = false := fun x hx => (hparts x hx).not_invisible
  have htakes := hsplits.takes hvisible (fun d hd => ⟨(ht d hd).1, (ht d hd).2.2⟩) hp
  have hstart : RegExp.recognizer.runFrom .opening r.cursor =
      RegExp.recognizer.runFrom (.body [] false) r.cursor :=
    RegExp.runFrom_start hp false fun _ d hd => by
      obtain rfl : c = d := by simpa [hrest] using hd
      exact ⟨hstar, hc.not_invisible⟩
  rw [readRegExp, if_neg Bool.false_ne_true, hstart, htakes.verdict]
  have hrest' : r.cursor.rest = (c :: w ++ '/' :: flags) ++ t := by simp [hrest]
  exact ⟨_, rfl, (List.append_cancel_left (hrest'.symm.trans htakes.cursor.1)).symm,
    htakes.cursor.afterReturn_eq.trans ((hsplits.carries hvisible).afterReturn hp)⟩

end ScriptExcerpt
