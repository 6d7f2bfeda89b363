import ScriptExcerpt.Proofs.Lexeme.Invisible

/-!
# Runs over a text

* `Recognizer.Goes`: a text takes a recognizer from one state to another, whatever
  stands behind it;
* `Recognizer.GoesBefore`: a text does so where a given character follows;
* `Recognizer.exists_visible`: what a run passes over before it sees a character.
-/

namespace ScriptExcerpt

open Text

namespace Recognizer

variable {σ ρ ε : Type} {M : Recognizer σ ρ ε} {s t t' : σ} {p : Place} {c : Char}
  {u w cs : List Char} {mark : Cursor}

/-- From the place `p` on, whatever follows, the text `w` takes the recognizer from the state
    `s` to the state `t`. -/
def Goes (M : Recognizer σ ρ ε) (s : σ) (p : Place) (w : List Char) (t : σ) : Prop :=
  ∀ mark cs, ∃ mark', M.run s mark p (w ++ cs) = M.run t mark' (p.through w) cs

theorem Goes.refl (s : σ) (p : Place) : M.Goes s p [] s := fun mark _ => ⟨mark, rfl⟩

theorem Goes.trans (h : M.Goes s p u t) (h' : M.Goes t (p.through u) w t') :
    M.Goes s p (u ++ w) t' := by
  intro mark cs
  obtain ⟨mark', hu⟩ := h mark (w ++ cs)
  obtain ⟨mark'', hw⟩ := h' mark' cs
  exact ⟨mark'', by rw [List.append_assoc, hu, hw, Place.through_append]⟩

/-- A character that is taken. -/
theorem goes_take (hp : p.completes c = false) (hskip : (M.skips s && isInvisible c) = false)
    (h : M.step s c = .take t) : M.Goes s p [c] t := by
  intro mark cs
  refine ⟨⟨p.past c, cs⟩, ?_⟩
  rw [List.singleton_append, run, hp, hskip, h, Place.through, hp]
  rfl

/-- The newline of a carriage return and newline is not seen. -/
theorem goes_complete (hp : p.completes c) : M.Goes s p [c] s := by
  intro mark cs
  refine ⟨mark, ?_⟩
  rw [List.singleton_append, run, if_pos hp, Place.through, if_pos hp]
  rfl

theorem not_completes_of_isInvisible (p : Place) (hc : isInvisible c) : ¬ p.completes c := by
  intro h
  obtain ⟨-, rfl⟩ := Place.eq_newline_of_completes h
  exact absurd hc (by decide)

/-- Invisible characters are passed over. -/
theorem goes_unseen (hs : M.skips s) (h : ∀ c ∈ w, isInvisible c) : M.Goes s p w s := by
  induction w generalizing p with
  | nil => exact .refl s p
  | cons c w ih =>
    obtain ⟨hc, hw⟩ := List.forall_mem_cons.1 h
    have hpc := not_completes_of_isInvisible p hc
    intro mark cs
    obtain ⟨mark', hrun⟩ := ih hw mark cs (p := p.past c)
    rw [List.cons_append, run, if_neg hpc, hs, hc, Place.through, if_neg hpc]
    exact ⟨mark', hrun⟩

/-- Behind invisible characters no line end is open. -/
theorem afterReturn_through_unseen (h : ∀ c ∈ w, isInvisible c) :
    (p.through w).afterReturn = (w.isEmpty && p.afterReturn) := by
  induction w generalizing p with
  | nil => rfl
  | cons c w ih =>
    obtain ⟨hc, hw⟩ := List.forall_mem_cons.1 h
    have hret := ne_return_of_not_isLineEnd (not_isLineEnd_of_isInvisible hc)
    rw [Place.through, if_neg (not_completes_of_isInvisible p hc), ih hw, Place.past, hret,
      Bool.and_false]
    rfl

theorem afterReturn_through_of_not (h : ∀ c ∈ w, isInvisible c) (hp : p.afterReturn = false) :
    (p.through w).afterReturn = false := by
  rw [afterReturn_through_unseen h, hp, Bool.and_false]

/-- The first visible character of a text is taken. -/
theorem goes_visible {vs : List Char} (hs : M.skips s) (hp : p.afterReturn = false)
    (hw : visible w = c :: vs) (h : M.step s c = .take t) :
    ∃ u w', w = u ++ w' ∧ visible w' = vs ∧ M.Goes s p u t ∧
      (p.through u).afterReturn = (c == '\r') := by
  obtain ⟨g, w', rfl, hg, hc, hw'⟩ := List.filter_eq_cons_iff.1 hw
  have hgap : ∀ x ∈ g, isInvisible x := fun x hx => by simpa using hg x hx
  have hc : isInvisible c = false := by simpa using hc
  have hgoes := goes_unseen (p := p) hs hgap
  have hpc := Place.not_completes_of_afterReturn (afterReturn_through_of_not hgap hp) c
  have htake := goes_take (Bool.not_eq_true _ ▸ hpc) (by rw [hc, Bool.and_false]) h
  refine ⟨g ++ [c], w', by simp, hw', hgoes.trans htake, ?_⟩
  rw [Place.through_append, Place.through, if_neg hpc]
  rfl

/-- Where the states do the same with the next character, they make the same of the text. -/
theorem run_congr_step (hp : p.completes c = false) (hc : isInvisible c = false)
    (h : M.step s c = M.step t c) : M.run s mark p (c :: cs) = M.run t mark p (c :: cs) := by
  simp only [run, hp, hc, Bool.and_false, h, Bool.false_eq_true, if_false]

/-- From the place `p` on, where `next` stands behind the text `w`, the recognizer does in the
    state `s` as it does behind `w` in the state `t`. -/
structure GoesBefore (M : Recognizer σ ρ ε) (s : σ) (p : Place) (w : List Char) (next : Char)
    (t : σ) : Prop where
  not_completes : (p.through w).completes next = false
  run_eq (mark : Cursor) (cs : List Char) :
    ∃ mark', M.run s mark p (w ++ next :: cs) = M.run t mark' (p.through w) (next :: cs)

variable {next : Char}

theorem Goes.before (h : M.Goes s p w t) (hnext : (p.through w).completes next = false) :
    M.GoesBefore s p w next t :=
  ⟨hnext, fun mark cs => h mark (next :: cs)⟩

theorem Goes.trans_before (h : M.Goes s p u t) (h' : M.GoesBefore t (p.through u) w next t') :
    M.GoesBefore s p (u ++ w) next t' := by
  obtain ⟨hnext, hrun⟩ := h'
  rw [← Place.through_append] at hnext
  refine ⟨hnext, fun mark cs => ?_⟩
  obtain ⟨mark₁, h₁⟩ := h mark (w ++ next :: cs)
  obtain ⟨mark₂, h₂⟩ := hrun mark₁ cs
  exact ⟨mark₂, by rw [List.append_assoc, h₁, h₂, Place.through_append]⟩

/-- A state may be exchanged for one that does the same with the next character. -/
theorem Goes.before_of_step (h : M.Goes s p w t) (hnext : (p.through w).completes next = false)
    (hc : isInvisible next = false) (hstep : M.step t next = M.step t' next) :
    M.GoesBefore s p w next t' := by
  refine ⟨hnext, fun mark cs => ?_⟩
  obtain ⟨mark', hrun⟩ := h mark (next :: cs)
  exact ⟨mark', by rw [hrun, run_congr_step hnext hc hstep]⟩

/-- Invisible characters may stand before the next one. -/
theorem Goes.over (h : M.Goes s p u t) (hp : (p.through u).afterReturn = false) (hs : M.skips t)
    (hw : ∀ c ∈ w, isInvisible c) (hc : isInvisible next = false)
    (hstep : M.step t next = M.step t' next) : M.GoesBefore s p (u ++ w) next t' := by
  refine (h.trans (goes_unseen hs hw)).before_of_step ?_ hc hstep
  rw [Place.through_append]
  exact Bool.not_eq_true _ ▸
    Place.not_completes_of_afterReturn (afterReturn_through_of_not hw hp) next

/-! ## What a run accepted -/

section Accepted

variable {r : ρ} {cs : List Char}

/-- A run that accepts, but not at the end of the script, sees a character. -/
theorem exists_cons (hend : ∃ e, M.atEnd s = .fail e) (h : (M.run s mark p cs).verdict = .ok r) :
    ∃ c cs', cs = c :: cs' := by
  cases cs with
  | nil =>
    obtain ⟨e, he⟩ := hend
    simp [run, he] at h
  | cons c cs => exact ⟨c, cs, rfl⟩

/-- In a state that passes over invisible characters, the run goes on with a visible one. -/
theorem exists_visible (hs : M.skips s) (hend : ∃ e, M.atEnd s = .fail e)
    (hp : ∀ c ∈ cs.head?, p.completes c = false) (h : (M.run s mark p cs).verdict = .ok r) :
    ∃ g c cs', cs = g ++ c :: cs' ∧ (∀ x ∈ g, isInvisible x) ∧ isInvisible c = false ∧
      (p.through g).completes c = false ∧
        (M.run s mark (p.through g) (c :: cs')).verdict = .ok r := by
  induction cs generalizing p with
  | nil =>
    obtain ⟨e, he⟩ := hend
    simp [run, he] at h
  | cons c cs ih =>
    have hpc := hp c rfl
    cases hc : isInvisible c with
    | false => exact ⟨[], c, cs, rfl, by simp, hc, hpc, h⟩
    | true =>
      rw [run, hpc, hs, hc] at h
      have hret := ne_return_of_not_isLineEnd (not_isLineEnd_of_isInvisible hc)
      obtain ⟨g, d, cs', rfl, hg, hd, hpd, hrun⟩ := ih
        (fun x _ => Bool.not_eq_true _ ▸ Place.not_completes_of_afterReturn hret x) h
      have hthrough : p.through (c :: g) = (p.past c).through g := by
        rw [Place.through, hpc]
        rfl
      refine ⟨c :: g, d, cs', rfl, List.forall_mem_cons.2 ⟨hc, hg⟩, hd, ?_, ?_⟩
      · rwa [hthrough]
      · rwa [hthrough]

/-- A run that takes a character accepts what stands behind it. -/
theorem ok_of_take (hstep : M.step s c = .take t) (hp : p.completes c = false)
    (hskip : (M.skips s && isInvisible c) = false)
    (h : (M.run s mark p (c :: cs)).verdict = .ok r) :
    (M.run t ⟨p.past c, cs⟩ (p.past c) cs).verdict = .ok r := by
  rwa [run, hp, hskip, hstep] at h

/-- A run that accepts meets no fault. -/
theorem step_ne_fail {e : ε} (hp : p.completes c = false)
    (hskip : (M.skips s && isInvisible c) = false)
    (h : (M.run s mark p (c :: cs)).verdict = .ok r) : M.step s c ≠ .fail e := by
  intro hstep
  rw [run, hp, hskip, hstep] at h
  simp at h

end Accepted

end Recognizer

end ScriptExcerpt
