import ScriptExcerpt.Proofs.Text
import ScriptExcerpt.Reading.Recognizer

/-!
# Laws of cursors and runs

The place that a text leads to (`Place.through`) tells how far, and on which
line, the reading of it gets; `Cursor.Passes` and `Cursor.Leads` relate two
cursors by it. What the steps of a recognizer keep to holds where its run ends
(`Recognizer.Invariant.halts`). So a run only moves on in its text
(`Recognizer.leads_runFrom`), and what its steps guarantee holds of its verdict
(`Recognizer.Ensures.run`). What it makes of a text depends neither on where the
text stands nor on what follows it:

* `Recognizer.run_shift`: a text that starts at a later offset is read the same,
  at the later offsets;
* `Recognizer.run_before`: a run that leaves a character unread, one that no
  state merely probes, does not depend on the text behind that character.
-/

namespace ScriptExcerpt

open Text

/-! ## Cursors that move on -/

namespace Place

/-- The place behind the text, which is read from `p` on. -/
def through (p : Place) : List Char → Place
  | [] => p
  | c :: cs => (if p.completes c then p.complete else p.past c).through cs

theorem past_look (p : Place) (c : Char) : p.look.past c = p.past c := rfl

theorem completes_look (p : Place) (c : Char) : p.look.completes c = p.completes c := rfl

theorem complete_look (p : Place) : p.look.complete = p.complete.look := rfl

theorem through_append (p : Place) (a b : List Char) :
    p.through (a ++ b) = (p.through a).through b := by
  induction a generalizing p with
  | nil => rfl
  | cons c a ih => exact ih _

/-- It makes no difference behind a text that the character at its start was
    looked at. -/
theorem look_through_look (p : Place) (cs : List Char) :
    (p.look.through cs).look = (p.through cs).look := by
  induction cs generalizing p with
  | nil => rfl
  | cons c cs ih =>
    rw [through, through, completes_look, past_look, complete_look]
    split
    · exact ih _
    · rfl

/-- The newline of a carriage return and newline is the only character that
    completes a line end. -/
theorem eq_newline_of_completes {p : Place} {c : Char} (h : p.completes c) :
    p.afterReturn = true ∧ c = '\n' := by
  rwa [completes, Bool.and_eq_true, beq_iff_eq] at h

/-- Nowhere but behind a carriage return is a line end completed. -/
theorem not_completes_of_afterReturn {p : Place} (h : p.afterReturn = false) (c : Char) :
    ¬ p.completes c := by
  rw [completes, h]
  exact Bool.false_ne_true

theorem offset_through (p : Place) (cs : List Char) :
    (p.through cs).offset = p.offset + byteLength cs := by
  induction cs generalizing p with
  | nil => rfl
  | cons c cs ih =>
    rw [through, ih, byteLength, ← Nat.add_assoc]
    split
    · next h =>
      obtain rfl := (eq_newline_of_completes h).2
      rfl
    · rfl

end Place

namespace Cursor

/-- From the cursor `a` on, the text `passed` leads to `b`, where the character
    behind it may have been looked at. -/
def Passes (a : Cursor) (passed : List Char) (b : Cursor) : Prop :=
  a.rest = passed ++ b.rest ∧ b.place.look = (a.place.through passed).look

/-- The cursor `b` lies at `a` or behind it, in the same text. -/
def Leads (a b : Cursor) : Prop := ∃ passed, a.Passes passed b

variable {a b c : Cursor} {u v : List Char}

theorem Passes.refl (a : Cursor) : a.Passes [] a := ⟨rfl, rfl⟩

theorem Passes.trans (h : a.Passes u b) (h' : b.Passes v c) : a.Passes (u ++ v) c := by
  refine ⟨by rw [h.1, h'.1, List.append_assoc], ?_⟩
  calc c.place.look
    _ = (b.place.look.through v).look := by rw [h'.2, Place.look_through_look]
    _ = (a.place.through (u ++ v)).look := by
      rw [h.2, Place.look_through_look, Place.through_append]

theorem Passes.look (h : a.Passes u b) : a.Passes u b.look := h

theorem Passes.offset_eq (h : a.Passes u b) : b.offset = a.offset + byteLength u :=
  (congrArg Place.offset h.2).trans (Place.offset_through _ _)

theorem Passes.afterReturn_eq (h : a.Passes u b) :
    b.place.afterReturn = (a.place.through u).afterReturn :=
  (congrArg Place.afterReturn h.2 :)

theorem Passes.leads (h : a.Passes u b) : a.Leads b := ⟨u, h⟩

theorem Leads.refl (a : Cursor) : a.Leads a := (Passes.refl a).leads

theorem Leads.trans (h : a.Leads b) (h' : b.Leads c) : a.Leads c := by
  obtain ⟨u, hu⟩ := h
  obtain ⟨v, hv⟩ := h'
  exact (hu.trans hv).leads

theorem Leads.look (h : a.Leads b) : a.Leads b.look := h

theorem Leads.length_le (h : a.Leads b) : b.rest.length ≤ a.rest.length := by
  obtain ⟨u, hu, -⟩ := h
  rw [hu, List.length_append]
  exact Nat.le_add_left _ _

theorem Leads.offset_le (h : a.Leads b) : a.offset ≤ b.offset := by
  obtain ⟨u, hu⟩ := h
  rw [hu.offset_eq]
  exact Nat.le_add_right _ _

/-- What is passed is no longer left to read. -/
theorem Leads.offset_add_rest (h : a.Leads b) :
    a.offset + byteLength a.rest = b.offset + byteLength b.rest := by
  obtain ⟨u, hu⟩ := h
  rw [hu.offset_eq, hu.1, byteLength_append, Nat.add_assoc]

/-- Passing a character moves on. -/
theorem passes_past {p : Place} {c : Char} (h : ¬ p.completes c) (cs : List Char) :
    Passes ⟨p, c :: cs⟩ [c] ⟨p.past c, cs⟩ :=
  ⟨rfl, by rw [Place.through, if_neg h]; rfl⟩

/-- Passing the newline that completes a line end moves on. -/
theorem passes_complete {p : Place} {c : Char} (h : p.completes c) (cs : List Char) :
    Passes ⟨p, c :: cs⟩ [c] ⟨p.complete, cs⟩ :=
  ⟨rfl, by rw [Place.through, if_pos h]; rfl⟩

/-- What separates two lexemes is a gap; in front of it may stand the newline
    that completes a line end. -/
theorem passes_skipGapFrom (p : Place) (cs : List Char) :
    ∃ passed, Passes ⟨p, cs⟩ passed (skipGapFrom p cs) ∧
      (IsGap passed ∨ p.afterReturn = true ∧ ∃ gap, passed = '\n' :: gap ∧ IsGap gap) := by
  induction cs generalizing p with
  | nil => exact ⟨[], .refl _, .inl isGap_nil⟩
  | cons c cs ih =>
    rw [skipGapFrom]
    split
    · next hc =>
      obtain ⟨gap, hgap, h⟩ := ih p.complete
      obtain ⟨hret, rfl⟩ := Place.eq_newline_of_completes hc
      have hgap' : IsGap gap := h.resolve_right fun hr => absurd hr.1 Bool.false_ne_true
      exact ⟨_, (passes_complete hc cs).trans hgap, .inr ⟨hret, gap, rfl, hgap'⟩⟩
    · next hc =>
      split
      · next hblank =>
        -- A character of the gap is no carriage return.
        obtain ⟨gap, hgap, h⟩ := ih (p.past c)
        have hret : (p.past c).afterReturn = false :=
          ne_return_of_not_isLineEnd (not_isLineEnd_of_gap hblank)
        have hgap' : IsGap gap := h.resolve_right fun hr => by simp [hret] at hr
        exact ⟨_, (passes_past hc cs).trans hgap, .inl (hgap'.cons hblank)⟩
      · exact ⟨[], (Passes.refl _).look, .inl isGap_nil⟩

theorem passes_skipGap (cur : Cursor) :
    ∃ passed, cur.Passes passed cur.skipGap ∧
      (IsGap passed ∨ cur.place.afterReturn = true ∧ ∃ gap, passed = '\n' :: gap ∧ IsGap gap) :=
  passes_skipGapFrom cur.place cur.rest

theorem leads_skipGap (cur : Cursor) : cur.Leads cur.skipGap := by
  obtain ⟨passed, h, -⟩ := cur.passes_skipGap
  exact h.leads

section

variable {p here : Place} {c : Char} {cs rest : List Char}

/-- A gap ends before a character that does not belong to it. -/
theorem skipGapFrom_of_not_gap (hc : ¬ p.completes c) (hgap : (isBlank c || isInvisible c) = false)
    (cs : List Char) : skipGapFrom p (c :: cs) = ⟨p.look, c :: cs⟩ := by
  rw [skipGapFrom, if_neg hc, hgap, if_neg Bool.false_ne_true]

/-- What ends a gap does not belong to it. -/
theorem ends_skipGapFrom (h : skipGapFrom p cs = ⟨here, c :: rest⟩) :
    ¬ here.completes c ∧ (isBlank c || isInvisible c) = false := by
  induction cs generalizing p with
  | nil => simp [skipGapFrom] at h
  | cons d cs ih =>
    rw [skipGapFrom] at h
    split at h
    · exact ih h
    · next hcompletes =>
      split at h
      · exact ih h
      · next hgap =>
        obtain ⟨rfl, hcs⟩ := Cursor.mk.inj h
        obtain rfl := (List.cons.inj hcs).1
        exact ⟨hcompletes, Bool.eq_false_iff.2 hgap⟩

/-- Behind a gap, no newline completes a line end. -/
theorem not_completes_skipGapFrom (h : skipGapFrom p cs = ⟨here, c :: rest⟩) :
    ¬ here.completes c :=
  (ends_skipGapFrom h).1

/-- What ends a gap is neither blank nor invisible. -/
theorem not_gap_skipGapFrom (h : skipGapFrom p cs = ⟨here, c :: rest⟩) :
    (isBlank c || isInvisible c) = false :=
  (ends_skipGapFrom h).2

end

/-- The character behind a gap was looked at. -/
theorem look_skipGapFrom (p : Place) (cs : List Char) :
    (skipGapFrom p cs).rest ≠ [] → (skipGapFrom p cs).look = skipGapFrom p cs := by
  induction cs generalizing p with
  | nil => exact fun h => absurd rfl h
  | cons c cs ih =>
    rw [skipGapFrom]
    split
    · exact ih _
    · split
      · exact ih _
      · exact fun _ => rfl

/-- The cursor behind a part of a text. -/
theorem startingAt_append (pre rest : List Char) :
    startingAt (pre ++ rest) (byteLength pre) = ⟨.atOffset (byteLength pre), rest⟩ := by
  rw [startingAt, takeBytes_append, dropBytes_append]

theorem startingAt_zero (source : List Char) : startingAt source 0 = ⟨.atOffset 0, source⟩ :=
  startingAt_append [] source

/-- The text between two cursors is what was passed from one to the other. -/
theorem Leads.slice_eq {pre rest : List Char}
    (h : Leads ⟨.atOffset (byteLength pre), rest⟩ b) :
    rest = slice (byteLength pre) b.offset (pre ++ rest) ++ b.rest := by
  obtain ⟨passed, hp⟩ := h
  obtain rfl : rest = passed ++ b.rest := hp.1
  have hoffset : b.offset = byteLength pre + byteLength passed := hp.offset_eq
  rw [hoffset, slice_append]

end Cursor

/-! ## How a run ends -/

namespace Recognizer

variable {σ ρ ε : Type} (M : Recognizer σ ρ ε)

/-- In the state `s`, with the mark `mark`, a run that got to `here` ends with
    the outcome. -/
inductive Halts (s : σ) (mark : Cursor) : Cursor → Outcome ρ ε → Prop
  | accept {p : Place} {r : ρ} :
    M.atEnd s = .accept r → Halts s mark ⟨p, []⟩ ⟨.ok r, mark.offset, ⟨p, []⟩⟩
  | back {p : Place} {r : ρ} :
    M.atEnd s = .back r → Halts s mark ⟨p, []⟩ ⟨.ok r, mark.offset, mark⟩
  | breakOff {p : Place} {e : ε} :
    M.atEnd s = .fail e → Halts s mark ⟨p, []⟩ ⟨.error e, mark.offset, ⟨p, []⟩⟩
  | finish {p : Place} {c : Char} {cs : List Char} {r : ρ} :
    ¬ p.completes c → M.step s c = .finish r →
      Halts s mark ⟨p, c :: cs⟩ ⟨.ok r, (p.past c).offset, ⟨p.past c, cs⟩⟩
  | stop {p : Place} {c : Char} {cs : List Char} {r : ρ} :
    ¬ p.completes c → M.step s c = .stop r →
      Halts s mark ⟨p, c :: cs⟩ ⟨.ok r, mark.offset, mark.look⟩
  | fail {p : Place} {c : Char} {cs : List Char} {e : ε} :
    ¬ p.completes c → M.step s c = .fail e →
      Halts s mark ⟨p, c :: cs⟩ ⟨.error e, mark.offset, ⟨p.past c, cs⟩⟩
  | refuse {p : Place} {c : Char} {cs : List Char} {e : ε} :
    ¬ p.completes c → M.step s c = .refuse e →
      Halts s mark ⟨p, c :: cs⟩ ⟨.error e, mark.offset, mark.look⟩

/-- What a run keeps to: a relation between its state, its mark and the cursor
    that it got to. -/
structure Invariant (I : σ → Cursor → Cursor → Prop) : Prop where
  complete {s : σ} {mark : Cursor} {p : Place} {c : Char} {cs : List Char} :
    I s mark ⟨p, c :: cs⟩ → p.completes c → I s mark ⟨p.complete, cs⟩
  skip {s : σ} {mark : Cursor} {p : Place} {c : Char} {cs : List Char} :
    I s mark ⟨p, c :: cs⟩ → ¬ p.completes c → isInvisible c → I s mark ⟨p.past c, cs⟩
  take {s t : σ} {mark : Cursor} {p : Place} {c : Char} {cs : List Char} :
    I s mark ⟨p, c :: cs⟩ → ¬ p.completes c → M.step s c = .take t →
      I t ⟨p.past c, cs⟩ ⟨p.past c, cs⟩
  probe {s t : σ} {mark : Cursor} {p : Place} {c : Char} {cs : List Char} :
    I s mark ⟨p, c :: cs⟩ → ¬ p.completes c → M.step s c = .probe t → I t mark ⟨p.past c, cs⟩

variable {M}

/-- What a run keeps to holds where it ends, and the character there, if there is one, was shown
    to the state. -/
theorem Invariant.halts_shown {I : σ → Cursor → Cursor → Prop} (h : M.Invariant I) {s : σ}
    {mark : Cursor} {p : Place} {cs : List Char} (hI : I s mark ⟨p, cs⟩) :
    ∃ s' mark' here, I s' mark' here ∧ M.Halts s' mark' here (M.run s mark p cs) ∧
      ∀ c ∈ here.rest.head?, (M.skips s' && isInvisible c) = false := by
  induction cs generalizing s mark p with
  | nil =>
    refine ⟨s, mark, _, hI, ?_, by simp⟩
    rw [run]
    cases he : M.atEnd s with
    | accept r => exact .accept he
    | back r => exact .back he
    | fail e => exact .breakOff he
  | cons c cs ih =>
    rw [run]
    split
    · next hc => exact ih (h.complete hI hc)
    · next hc =>
      split
      · next hskip => exact ih (h.skip hI hc (Bool.and_eq_true_iff.1 hskip).2)
      · next hskip =>
        have hshown : ∀ d ∈ (c :: cs).head?, (M.skips s && isInvisible d) = false := by
          rintro d ⟨⟩
          exact Bool.not_eq_true _ ▸ hskip
        -- The state goes on, or ends the run.
        cases hs : M.step s c with
        | take t => exact ih (h.take hI hc hs)
        | probe t => exact ih (h.probe hI hc hs)
        | finish r => exact ⟨s, mark, _, hI, .finish hc hs, hshown⟩
        | stop r => exact ⟨s, mark, _, hI, .stop hc hs, hshown⟩
        | fail e => exact ⟨s, mark, _, hI, .fail hc hs, hshown⟩
        | refuse e => exact ⟨s, mark, _, hI, .refuse hc hs, hshown⟩

/-- What a run keeps to holds where it ends. -/
theorem Invariant.halts {I : σ → Cursor → Cursor → Prop} (h : M.Invariant I) {s : σ}
    {mark : Cursor} {p : Place} {cs : List Char} (hI : I s mark ⟨p, cs⟩) :
    ∃ s' mark' here, I s' mark' here ∧ M.Halts s' mark' here (M.run s mark p cs) := by
  obtain ⟨s', mark', here, hI', hend, -⟩ := h.halts_shown hI
  exact ⟨s', mark', here, hI', hend⟩

/-- The mark and the cursor of a run lie behind its start. -/
theorem invariant_leads (M : Recognizer σ ρ ε) (a : Cursor) :
    M.Invariant fun _ mark here => a.Leads mark ∧ a.Leads here where
  complete h hc := ⟨h.1, h.2.trans (Cursor.passes_complete hc _).leads⟩
  skip h hc _ := ⟨h.1, h.2.trans (Cursor.passes_past hc _).leads⟩
  take h hc _ :=
    have hpast := h.2.trans (Cursor.passes_past hc _).leads
    ⟨hpast, hpast⟩
  probe h hc _ := ⟨h.1, h.2.trans (Cursor.passes_past hc _).leads⟩

/-- A run only moves on. -/
theorem leads_runFrom (M : Recognizer σ ρ ε) (s : σ) (cur : Cursor) :
    cur.Leads (M.runFrom s cur).cursor := by
  obtain ⟨s', mark, here, ⟨hmark, hhere⟩, hend⟩ :=
    (invariant_leads M cur).halts (s := s) ⟨.refl cur, .refl cur⟩
  rw [runFrom]
  generalize M.run s cur cur.place cur.rest = o at hend
  -- It ends where it got to, a character further on, or goes back to the mark.
  cases hend with
  | accept => exact hhere
  | back => exact hmark
  | breakOff => exact hhere
  | finish hc => exact hhere.trans (Cursor.passes_past hc _).leads
  | stop => exact hmark.look
  | fail hc => exact hhere.trans (Cursor.passes_past hc _).leads
  | refuse => exact hmark.look

end Recognizer

/-! ## What the verdict of a run guarantees -/

section Verdict

variable {σ ρ ε : Type} (Q : σ → Prop) (P : ρ → Prop) (E : ε → Prop)

/-- The move leads to a state with `Q`, or to a result with `P`, or to a fault
    with `E`. -/
def Move.Ensures : Move σ ρ ε → Prop
  | .take t | .probe t => Q t
  | .finish r | .stop r => P r
  | .fail e | .refuse e => E e

/-- The ending gives a result with `P` or a fault with `E`. -/
def Ending.Ensures : Ending ρ ε → Prop
  | .accept r | .back r => P r
  | .fail e => E e

/-- What holds of the result, or of the fault, of a verdict. -/
def Verdict.Ensures : Except ε ρ → Prop
  | .ok r => P r
  | .error e => E e

/-- From states with `Q` on, every result has `P` and every fault `E`. -/
structure Recognizer.Ensures (M : Recognizer σ ρ ε) : Prop where
  /-- Every step keeps to it. -/
  step : ∀ s c, Q s → (M.step s c).Ensures Q P E
  /-- So does the end of the script. -/
  atEnd : ∀ s, Q s → (M.atEnd s).Ensures P E

variable {Q P E}

namespace Verdict.Ensures

variable {o : Except ε ρ}

theorem ok {r : ρ} (h : Verdict.Ensures P E o) (ho : o = .ok r) : P r := by
  rwa [ho] at h

theorem error {e : ε} (h : Verdict.Ensures P E o) (ho : o = .error e) : E e := by
  rwa [ho] at h

theorem imp {P' : ρ → Prop} (h : Verdict.Ensures P E o) (hP : ∀ {r}, P r → P' r) :
    Verdict.Ensures P' E o := by
  cases o with
  | ok r => exact hP h
  | error e => exact h

end Verdict.Ensures

theorem Recognizer.Ensures.of_step {M : Recognizer σ ρ ε} (h : M.Ensures Q P E) {s : σ}
    (hs : Q s) {c : Char} {m : Move σ ρ ε} (he : M.step s c = m) : m.Ensures Q P E :=
  he ▸ h.step s c hs

theorem Recognizer.Ensures.of_atEnd {M : Recognizer σ ρ ε} (h : M.Ensures Q P E) {s : σ}
    (hs : Q s) {m : Ending ρ ε} (he : M.atEnd s = m) : m.Ensures P E :=
  he ▸ h.atEnd s hs

theorem Recognizer.Ensures.run {M : Recognizer σ ρ ε} (h : M.Ensures Q P E) {s : σ}
    (hs : Q s) (mark : Cursor) (p : Place) (cs : List Char) :
    Verdict.Ensures P E (M.run s mark p cs).verdict := by
  let I (s : σ) (_ _ : Cursor) : Prop := Q s
  have hI : M.Invariant I :=
    { complete := fun hs _ => hs
      skip := fun hs _ _ => hs
      take := fun hs _ he => h.of_step hs he
      probe := fun hs _ he => h.of_step hs he }
  obtain ⟨s', mark', here, hs', hend⟩ := hI.halts (show I s mark ⟨p, cs⟩ from hs)
  generalize M.run s mark p cs = o at hend
  cases hend with
  | accept he | back he | breakOff he => exact h.of_atEnd hs' he
  | finish _ he | stop _ he | fail _ he | refuse _ he => exact h.of_step hs' he

theorem Recognizer.Ensures.runFrom {M : Recognizer σ ρ ε} (h : M.Ensures Q P E) {s : σ}
    (hs : Q s) (cur : Cursor) : Verdict.Ensures P E (M.runFrom s cur).verdict :=
  h.run hs _ _ _

end Verdict

/-! ## Texts that start elsewhere -/

namespace Place

/-- The same place, `d` bytes further on. -/
def shift (d : Nat) (p : Place) : Place := { p with offset := p.offset + d }

variable (d : Nat) (p : Place) (c : Char)

theorem shift_past : (p.shift d).past c = (p.past c).shift d :=
  congrArg (fun n => Place.mk n p.look.line (isLineEnd c) (c == '\r')) (Nat.add_right_comm _ _ _)

theorem shift_complete : (p.shift d).complete = p.complete.shift d :=
  congrArg (fun n => Place.mk n p.line p.owed false) (Nat.add_right_comm _ _ _)

theorem shift_completes : (p.shift d).completes c = p.completes c := rfl

end Place

namespace Cursor

/-- The same cursor, `d` bytes further on. -/
def shift (d : Nat) (cur : Cursor) : Cursor := { cur with place := cur.place.shift d }

theorem skipGapFrom_shift (d : Nat) (p : Place) (cs : List Char) :
    skipGapFrom (p.shift d) cs = (skipGapFrom p cs).shift d := by
  induction cs generalizing p with
  | nil => rfl
  | cons c cs ih =>
    rw [skipGapFrom, skipGapFrom, Place.shift_completes]
    split
    · rw [Place.shift_complete, ih]
    · split
      · rw [Place.shift_past, ih]
      · rfl

end Cursor

/-- The same outcome, `d` bytes further on. -/
def Outcome.shift {ρ ε : Type} (d : Nat) (o : Outcome ρ ε) : Outcome ρ ε :=
  { o with taken := o.taken + d, cursor := o.cursor.shift d }

/-- A text that starts `d` bytes further on is read the same. -/
theorem Recognizer.run_shift {σ ρ ε : Type} (M : Recognizer σ ρ ε) (d : Nat) (s : σ)
    (mark : Cursor) (p : Place) (cs : List Char) :
    M.run s (mark.shift d) (p.shift d) cs = (M.run s mark p cs).shift d := by
  induction cs generalizing s mark p with
  | nil =>
    rw [run, run]
    cases M.atEnd s <;> rfl
  | cons c cs ih =>
    rw [run, run, Place.shift_completes]
    split
    · rw [Place.shift_complete, ih]
    · split
      · rw [Place.shift_past, ih]
      · simp only [Place.shift_past]
        -- A character that is taken moves the mark, one that is probed does not.
        cases M.step s c
        case take t => exact ih t ⟨p.past c, cs⟩ (p.past c)
        case probe t => exact ih t mark (p.past c)
        all_goals rfl

theorem Recognizer.runFrom_shift {σ ρ ε : Type} (M : Recognizer σ ρ ε) (d : Nat) (s : σ)
    (cur : Cursor) : M.runFrom s (cur.shift d) = (M.runFrom s cur).shift d :=
  M.run_shift d s cur cur.place cur.rest

/-! ## Texts that go on differently -/

/-- The same cursor, if `t` follows the text behind it. -/
def Cursor.before (t : List Char) (cur : Cursor) : Cursor := { cur with rest := cur.rest ++ t }

/-- The same outcome, if `t` follows the text that was read. -/
def Outcome.before {ρ ε : Type} (t : List Char) (o : Outcome ρ ε) : Outcome ρ ε :=
  { o with cursor := o.cursor.before t }

/-- The character `c` is no line end, no blank and not invisible. -/
structure Text.Inked (c : Char) : Prop where
  not_lineEnd : isLineEnd c = false
  not_blank : isBlank c = false
  not_invisible : isInvisible c = false

theorem Place.not_completes (p : Place) {c : Char} (hc : Inked c) : p.completes c = false := by
  have hne : (c == '\n') = false := by
    have := hc.not_lineEnd
    simp only [isLineEnd, Bool.or_eq_false_iff] at this
    exact this.1.1.1
  rw [completes, hne, Bool.and_false]

/-- A gap ends before a character with ink, whatever follows it. -/
theorem Cursor.skipGapFrom_before {c : Char} (hc : Inked c) (p : Place) (u : List Char) :
    ∃ cur : Cursor, ∀ tail, skipGapFrom p (u ++ c :: tail) = cur.before (c :: tail) := by
  induction u generalizing p with
  | nil =>
    refine ⟨⟨p.look, []⟩, fun tail => ?_⟩
    rw [List.nil_append, skipGapFrom, p.not_completes hc, hc.not_blank, hc.not_invisible]
    rfl
  | cons b u ih =>
    -- The gap goes on over `b`, or it ends there.
    simp only [List.cons_append, skipGapFrom]
    split
    · exact ih p.complete
    · split
      · exact ih (p.past b)
      · exact ⟨⟨p.look, b :: u⟩, fun tail => rfl⟩

/-- A gap ends before a character with ink. -/
theorem Cursor.skipGapFrom_gap {p : Place} {gap : List Char} (hgap : IsGap gap)
    (hp : p.afterReturn = false) {c : Char} (hc : Inked c) (cs : List Char) :
    skipGapFrom p (gap ++ c :: cs) = ⟨(p.through gap).look, c :: cs⟩ := by
  induction gap generalizing p with
  | nil =>
    rw [List.nil_append, skipGapFrom, p.not_completes hc, hc.not_blank, hc.not_invisible]
    rfl
  | cons x gap ih =>
    obtain ⟨hx, hgap⟩ := List.forall_mem_cons.1 hgap
    have hpx := Place.not_completes_of_afterReturn hp x
    rw [List.cons_append, skipGapFrom, if_neg hpx, if_pos hx, Place.through, if_neg hpx]
    exact ih hgap (ne_return_of_not_isLineEnd (not_isLineEnd_of_gap hx))

namespace Recognizer

variable {σ ρ ε : Type} (M : Recognizer σ ρ ε)

/-- No state merely probes the character: it ends the lexeme or belongs to it. -/
def Settles (c : Char) : Prop := ∀ s t, M.step s c ≠ .probe t

variable {M}

/-- A run that leaves `c` unread does not depend on what follows `c`. -/
theorem run_before {c : Char} (hM : M.Settles c) (hc : Inked c) {s : σ} {mark : Cursor}
    {p : Place} {u tail : List Char}
    (h : (c :: tail).length ≤
      (M.run s (mark.before (c :: tail)) p (u ++ c :: tail)).cursor.rest.length) :
    ∃ o : Outcome ρ ε, ∀ tail', M.run s (mark.before (c :: tail')) p (u ++ c :: tail') =
      o.before (c :: tail') := by
  induction u generalizing s mark p with
  | nil =>
    simp only [List.nil_append, run, p.not_completes hc, hc.not_invisible, Bool.and_false,
      Bool.false_eq_true, if_false] at h ⊢
    -- The run decides at `c`. A decision that reads `c` contradicts `h`; the
    -- others go back to the mark.
    cases he : M.step s c with
    | take t =>
      simp only [he] at h
      have hle := M.length_run_le t ⟨p.past c, tail⟩ (p.past c) tail (Nat.le_refl _)
      simp only [List.length_cons] at h hle
      omega
    | probe t => exact absurd he (hM s t)
    | stop r => exact ⟨⟨.ok r, mark.offset, mark.look⟩, fun _ => rfl⟩
    | refuse e => exact ⟨⟨.error e, mark.offset, mark.look⟩, fun _ => rfl⟩
    | finish r =>
      simp only [he] at h
      exact absurd h (Nat.not_succ_le_self _)
    | fail e =>
      simp only [he] at h
      exact absurd h (Nat.not_succ_le_self _)
  | cons b u ih =>
    simp only [List.cons_append, run] at h ⊢
    by_cases hb : p.completes b
    · simp only [hb, if_true] at h ⊢
      exact ih h
    · by_cases hi : M.skips s && isInvisible b
      · simp only [hb, hi, if_true] at h ⊢
        exact ih h
      · simp only [hb, hi] at h ⊢
        -- The run goes on before `c`, or it ends before it is reached.
        cases he : M.step s b with
        | take t =>
          simp only [he] at h ⊢
          exact @ih t ⟨p.past b, u⟩ (p.past b) h
        | probe t =>
          simp only [he] at h ⊢
          exact ih h
        | finish r => exact ⟨⟨.ok r, (p.past b).offset, ⟨p.past b, u⟩⟩, fun _ => rfl⟩
        | stop r => exact ⟨⟨.ok r, mark.offset, mark.look⟩, fun _ => rfl⟩
        | fail e => exact ⟨⟨.error e, mark.offset, ⟨p.past b, u⟩⟩, fun _ => rfl⟩
        | refuse e => exact ⟨⟨.error e, mark.offset, mark.look⟩, fun _ => rfl⟩

theorem runFrom_before {c : Char} (hM : M.Settles c) (hc : Inked c) {s : σ} {cur : Cursor}
    {tail : List Char}
    (h : (c :: tail).length ≤ (M.runFrom s (cur.before (c :: tail))).cursor.rest.length) :
    ∃ o : Outcome ρ ε, ∀ tail', M.runFrom s (cur.before (c :: tail')) = o.before (c :: tail') :=
  run_before hM hc h

end Recognizer

end ScriptExcerpt
