import ScriptExcerpt.Proofs.Reading

/-!
# Texts that are read again

What a recognizer recognized in a script, it recognizes again where the same text
stands apart from what follows it (`Text.Apart`). It need not have seen the end
of the lexeme before: another lexeme may have followed it directly, or a character
that was only looked at.

* `Recognizer.Separable`: wherever the lexeme may end, it also ends before a
  space, before a newline, and at the end of the script;
* `Recognizer.Separable.runFrom_again`: what a run makes of the text that it passed
  before.
-/

namespace ScriptExcerpt

open Text

/-- The text is empty, or starts with a space or a newline. -/
def Text.Apart (t : List Char) : Prop :=
  t = [] ∨ ∃ c cs, t = c :: cs ∧ (c = ' ' ∨ c = '\n')

theorem Place.completes_congr {p q : Place} (h : q.afterReturn = p.afterReturn) (c : Char) :
    q.completes c = p.completes c := by
  rw [completes, completes, h]

variable {σ ρ ε : Type}

/-- From the cursor `a` on, the run recognized `r`, and passed the text `w`. -/
structure Outcome.Takes (a : Cursor) (w : List Char) (r : ρ) (o : Outcome ρ ε) : Prop where
  verdict : o.verdict = .ok r
  cursor : a.Passes w o.cursor

namespace Recognizer

variable (M : Recognizer σ ρ ε)

/-- A lexeme that may end behind the state `s` ends there before a space, before a newline,
    and at the end of the script. -/
structure Concludes (s : σ) (r : ρ) : Prop where
  space : M.step s ' ' = .stop r
  newline : M.step s '\n' = .stop r
  atEnd : M.atEnd s = .accept r

/-- Some text, of which nothing belongs to the lexeme, ends it behind the state. -/
inductive Quits : σ → ρ → Prop
  | stop {s : σ} {c : Char} {r : ρ} : M.step s c = .stop r → Quits s r
  | back {s : σ} {r : ρ} : M.atEnd s = .back r → Quits s r
  | probe {s t : σ} {c : Char} {r : ρ} : M.step s c = .probe t → Quits t r → Quits s r

/-- Whatever text may end the lexeme behind a character of it, a space or a newline does,
    too. -/
structure Separable : Prop where
  not_return {s t : σ} {c : Char} {r : ρ} : M.step s c = .take t → M.Quits t r → c ≠ '\r'
  concludes {s t : σ} {c : Char} {r : ρ} : M.step s c = .take t → M.Quits t r → M.Concludes t r

variable {M} {s : σ} {r : ρ} {p q : Place} {c : Char} {t cs : List Char} {mark mark' : Cursor}

variable (M) in
/-- A lexeme that may end behind the state `s` ends there before the text. -/
def EndsBefore (s : σ) (r : ρ) : List Char → Prop
  | [] => M.atEnd s = .accept r
  | c :: _ => isInvisible c = false ∧ M.step s c = .stop r

/-- A run over a text before which the lexeme ends, ends at once. -/
theorem EndsBefore.run_eq (h : M.EndsBefore s r t) (hp : p.afterReturn = false) :
    ∃ cur, M.run s ⟨p, t⟩ p t = ⟨.ok r, p.offset, cur⟩ ∧ Cursor.Passes ⟨p, t⟩ [] cur := by
  cases t with
  | nil =>
    have hend : M.atEnd s = .accept r := h
    rw [run, hend]
    exact ⟨_, rfl, .refl _⟩
  | cons c t =>
    obtain ⟨hc, hstep⟩ := h
    rw [run, if_neg (Place.not_completes_of_afterReturn hp c), hc, Bool.and_false, hstep]
    exact ⟨_, rfl, (Cursor.Passes.refl _).look⟩

/-- Texts that stand apart from a lexeme end it. -/
theorem Concludes.endsBefore (h : M.Concludes s r) (ht : Apart t) : M.EndsBefore s r t := by
  obtain rfl | ⟨c, cs, rfl, rfl | rfl⟩ := ht
  · exact h.atEnd
  · exact ⟨rfl, h.space⟩
  · exact ⟨rfl, h.newline⟩

theorem Concludes.takes (h : M.Concludes s r) (ht : Apart t) (hp : p.afterReturn = false) :
    (M.run s ⟨p, t⟩ p t).Takes ⟨p, t⟩ [] r := by
  obtain ⟨cur, hrun, hcur⟩ := (h.endsBefore ht).run_eq hp
  rw [hrun]
  exact ⟨rfl, hcur⟩

variable (M) in
/-- From the place `p` on, the run from `s` recognized `r` and got to `cur`: it went back to
    the mark, or it passed a text that is recognized again. -/
def Repeats (s : σ) (mark : Cursor) (p : Place) (cs : List Char) (r : ρ) (cur : Cursor) : Prop :=
  (mark.Passes [] cur ∧ M.Quits s r) ∨ ∃ w, Cursor.Passes ⟨p, cs⟩ w cur ∧
    ∀ mark' (q : Place) t, q.afterReturn = p.afterReturn → Apart t → (cur.rest = [] → t = []) →
      (M.run s mark' q (w ++ t)).Takes ⟨q, w ++ t⟩ w r

/-- A run that passes one more character before takes one more. -/
theorem takes_cons {a : Cursor} {w : List Char} {o : Outcome ρ ε}
    (hc : Cursor.Passes ⟨p, c :: cs⟩ [c] a) (h : o.Takes a w r) :
    o.Takes ⟨p, c :: cs⟩ (c :: w) r :=
  ⟨h.verdict, hc.trans h.cursor⟩

namespace Repeats

variable {cur : Cursor}

/-- Nothing happens at a newline that completes a line end. -/
theorem complete (hc : p.completes c) (h : M.Repeats s mark p.complete cs r cur) :
    M.Repeats s mark p (c :: cs) r cur := by
  refine h.imp_right fun ⟨w, hw, hagain⟩ =>
    ⟨c :: w, (Cursor.passes_complete hc cs).trans hw, fun mark' q t hq ht hend => ?_⟩
  have hqc : q.completes c = true := (Place.completes_congr hq c).trans hc
  rw [List.cons_append, run, if_pos hqc]
  exact takes_cons (Cursor.passes_complete hqc _) (hagain mark' q.complete t rfl ht hend)

/-- Nor at an invisible character that is passed over. -/
theorem skip (hc : ¬ p.completes c) (hskip : M.skips s && isInvisible c)
    (h : M.Repeats s mark (p.past c) cs r cur) : M.Repeats s mark p (c :: cs) r cur := by
  refine h.imp_right fun ⟨w, hw, hagain⟩ =>
    ⟨c :: w, (Cursor.passes_past hc cs).trans hw, fun mark' q t hq ht hend => ?_⟩
  have hqc : ¬ q.completes c := by rwa [Place.completes_congr hq c]
  rw [List.cons_append, run, if_neg hqc, if_pos hskip]
  exact takes_cons (Cursor.passes_past hqc _) (hagain mark' (q.past c) t rfl ht hend)

/-- A character that is only looked at belongs to the lexeme if what follows does. -/
theorem probe {s' : σ} (hc : ¬ p.completes c) (hskip : ¬ (M.skips s && isInvisible c))
    (hstep : M.step s c = .probe s') (h : M.Repeats s' mark (p.past c) cs r cur) :
    M.Repeats s mark p (c :: cs) r cur := by
  rcases h with ⟨hcur, hquits⟩ | ⟨w, hw, hagain⟩
  · exact .inl ⟨hcur, .probe hstep hquits⟩
  · refine .inr ⟨c :: w, (Cursor.passes_past hc cs).trans hw, fun mark' q t hq ht hend => ?_⟩
    have hqc : ¬ q.completes c := by rwa [Place.completes_congr hq c]
    rw [List.cons_append, run, if_neg hqc, if_neg hskip, hstep]
    exact takes_cons (Cursor.passes_past hqc _) (hagain mark' (q.past c) t rfl ht hend)

/-- A character that is taken belongs to the lexeme, even if nothing behind it does. -/
theorem take {s' : σ} (hM : M.Separable) (hc : ¬ p.completes c)
    (hskip : ¬ (M.skips s && isInvisible c)) (hstep : M.step s c = .take s')
    (h : M.Repeats s' ⟨p.past c, cs⟩ (p.past c) cs r cur) :
    M.Repeats s mark p (c :: cs) r cur := by
  rcases h with ⟨hcur, hquits⟩ | ⟨w, hw, hagain⟩
  · have hreturn := beq_eq_false_iff_ne.2 (hM.not_return hstep hquits)
    refine .inr ⟨[c], (Cursor.passes_past hc cs).trans hcur, fun mark' q t hq ht hend => ?_⟩
    have hqc : ¬ q.completes c := by rwa [Place.completes_congr hq c]
    rw [List.singleton_append, run, if_neg hqc, if_neg hskip, hstep]
    exact takes_cons (Cursor.passes_past hqc _)
      ((hM.concludes hstep hquits).takes ht hreturn)
  · refine .inr ⟨c :: w, (Cursor.passes_past hc cs).trans hw, fun mark' q t hq ht hend => ?_⟩
    have hqc : ¬ q.completes c := by rwa [Place.completes_congr hq c]
    rw [List.cons_append, run, if_neg hqc, if_neg hskip, hstep]
    exact takes_cons (Cursor.passes_past hqc _) (hagain _ (q.past c) t rfl ht hend)

end Repeats

/-- What is recognized is recognized again, up to where the run went back to the mark. -/
theorem Separable.run_repeats (hM : M.Separable) (h : (M.run s mark p cs).verdict = .ok r) :
    M.Repeats s mark p cs r (M.run s mark p cs).cursor := by
  induction cs generalizing s mark p with
  | nil =>
    rw [run] at h ⊢
    cases he : M.atEnd s with
    | accept r' =>
      obtain rfl : r' = r := by simpa [he] using h
      refine .inr ⟨[], .refl _, fun mark' q t _ _ hend => ?_⟩
      obtain rfl := hend rfl
      rw [List.append_nil, run, he]
      exact ⟨rfl, .refl _⟩
    | back r' =>
      obtain rfl : r' = r := by simpa [he] using h
      exact .inl ⟨.refl _, .back he⟩
    | fail e => simp [he] at h
  | cons c cs ih =>
    rw [run] at h ⊢
    by_cases hc : p.completes c
    · rw [if_pos hc] at h ⊢
      exact .complete hc (ih h)
    · rw [if_neg hc] at h ⊢
      by_cases hskip : M.skips s && isInvisible c
      · rw [if_pos hskip] at h ⊢
        exact .skip hc hskip (ih h)
      · rw [if_neg hskip] at h ⊢
        cases hs : M.step s c with
        | take s' =>
          simp only [hs] at h ⊢
          exact .take hM hc hskip hs (ih h)
        | probe s' =>
          simp only [hs] at h ⊢
          exact .probe hc hskip hs (ih h)
        | finish r' =>
          obtain rfl : r' = r := by simpa [hs] using h
          refine .inr ⟨[c], Cursor.passes_past hc cs, fun mark' q t hq _ _ => ?_⟩
          have hqc : ¬ q.completes c := by rwa [Place.completes_congr hq c]
          rw [List.singleton_append, run, if_neg hqc, if_neg hskip, hs]
          exact ⟨rfl, Cursor.passes_past hqc t⟩
        | stop r' =>
          obtain rfl : r' = r := by simpa [hs] using h
          exact .inl ⟨(Cursor.Passes.refl mark).look, .stop hs⟩
        | fail e | refuse e => simp [hs] at h

/-- What is recognized in the middle of a line is recognized again where its text stands
    apart from what follows. If it ended with the script, it has to do so again. -/
theorem Separable.runFrom_again (hM : M.Separable) {cur : Cursor}
    (hs : ∀ {r}, M.Quits s r → M.Concludes s r) (hcur : cur.place.afterReturn = false)
    (h : (M.runFrom s cur).verdict = .ok r) :
    ∃ w, cur.Passes w (M.runFrom s cur).cursor ∧ ∀ (p : Place) t, p.afterReturn = false →
      Apart t → ((M.runFrom s cur).cursor.rest = [] → t = []) →
        (M.runFrom s ⟨p, w ++ t⟩).Takes ⟨p, w ++ t⟩ w r := by
  rcases hM.run_repeats h with ⟨hback, hquits⟩ | ⟨w, hw, hagain⟩
  · exact ⟨[], hback, fun p t hp ht _ => (hs hquits).takes ht hp⟩
  · exact ⟨w, hw, fun p t hp ht hend => hagain _ p t (hp.trans hcur.symm) ht hend⟩

end Recognizer

end ScriptExcerpt
