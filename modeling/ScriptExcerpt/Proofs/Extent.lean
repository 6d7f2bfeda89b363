import ScriptExcerpt.Proofs.Place

/-!
# Where runs end

The reading of a lexeme may look further than the lexeme reaches. What it leaves
behind the end of the lexeme is invisible, and the last character it passes over
ends no line (`Extent`). Two kinds of recognizers guarantee this:

* `Recognizer.OneLine`: a line end ends the lexeme, and does not belong to it, so
  that the lexeme also keeps to its line (`Recognizer.OneLine.extent`);
* `Recognizer.SelfClosing`: the lexeme ends only with a character of its own
  (`Recognizer.SelfClosing.extent`).
-/

namespace ScriptExcerpt

open Text

/-! ## Runs that end on their line -/

/-- From the cursor `behind` on, a lexeme reaches up to the offset `stop`, and its
    reading goes on at `cur`: only invisible characters lie between, and the
    last character passed ends no line. -/
structure Extent (behind : Cursor) (stop : Nat) (cur : Cursor) : Prop where
  ends : ∃ m gap, behind.Leads m ∧ m.offset = stop ∧ m.Passes gap cur ∧ ∀ c ∈ gap, isInvisible c
  onLine : cur.place.OnLine

namespace Extent

variable {a b cur : Cursor} {stop : Nat}

/-- A lexeme may reach up to where its reading goes on. -/
theorem ofCursor (h : a.Leads cur) (hcur : cur.place.OnLine) : Extent a cur.offset cur :=
  ⟨⟨cur, [], h, rfl, .refl cur, by simp⟩, hcur⟩

theorem leads (h : Extent a stop cur) : a.Leads cur := by
  obtain ⟨m, gap, hm, -, hgap, -⟩ := h.ends
  exact hm.trans hgap.leads

theorem of_leads (hab : a.Leads b) (h : Extent b stop cur) : Extent a stop cur := by
  obtain ⟨m, gap, hm, hrest⟩ := h.ends
  exact ⟨⟨m, gap, hab.trans hm, hrest⟩, h.onLine⟩

end Extent

section Recognizers

variable {σ ρ ε : Type}

/-- The move ends the lexeme before the character, or with a fault. -/
def Move.Ends : Move σ ρ ε → Prop
  | .stop _ | .fail _ | .refuse _ => True
  | .take _ | .probe _ | .finish _ => False

namespace Recognizer

/-- A line end ends the lexeme, and does not belong to it. In the states
    `settled`, all that was read behind the mark is invisible; at the end of the
    script only they accept. -/
structure OneLine (M : Recognizer σ ρ ε) (settled : σ → Prop) : Prop where
  ends {s : σ} {c : Char} : isLineEnd c → (M.step s c).Ends
  probe {s t : σ} {c : Char} : M.step s c = .probe t → ¬ settled t
  accept {s : σ} {r : ρ} : M.atEnd s = .accept r → settled s

/-- The lexeme ends only with a character of its own, which ends no line. -/
structure SelfClosing (M : Recognizer σ ρ ε) : Prop where
  finish {s : σ} {c : Char} {r : ρ} : M.step s c = .finish r → isLineEnd c = false
  stop {s : σ} {c : Char} {r : ρ} : M.step s c ≠ .stop r
  atEnd {s : σ} : ∃ e, M.atEnd s = .fail e

variable {M : Recognizer σ ρ ε} {settled : σ → Prop} {s : σ} {cur : Cursor} {r : ρ}

theorem OneLine.not_isLineEnd (h : M.OneLine settled) {c : Char} (hc : ¬ (M.step s c).Ends) :
    isLineEnd c = false := by
  rw [← Bool.not_eq_true]
  exact fun hl => hc (h.ends hl)

/-- A run from `cur` on that got to `here` is still on its line. -/
structure OnItsLine (cur : Cursor) (settled : σ → Prop) (s : σ) (mark here : Cursor) : Prop where
  mark_leads : cur.Leads mark
  mark_onLine : mark.place.OnLine
  mark_line : mark.place.line = cur.place.line
  here_leads : cur.Leads here
  here_onLine : here.place.OnLine
  here_line : here.place.line = cur.place.line
  gap : settled s → ∃ gap, mark.Passes gap here ∧ ∀ c ∈ gap, isInvisible c

namespace OnItsLine

variable {mark : Cursor} {p : Place} {c : Char} {cs : List Char}

/-- Passing a character that ends no line keeps to the line. -/
theorem past (h : OnItsLine cur settled s mark ⟨p, c :: cs⟩) (hc : isLineEnd c = false)
    (hp : ¬ p.completes c) : cur.Leads ⟨p.past c, cs⟩ ∧ (p.past c).OnLine ∧
      (p.past c).line = cur.place.line := by
  have hlook : p.look = p := h.here_onLine.look_eq
  have hline : p.look.line = p.line := congrArg Place.line hlook
  exact ⟨h.here_leads.trans (Cursor.passes_past hp cs).leads, p.onLine_past hc,
    hline.trans h.here_line⟩

theorem refl (hcur : cur.place.OnLine) : OnItsLine cur settled s cur cur :=
  ⟨.refl cur, hcur, rfl, .refl cur, hcur, rfl, fun _ => ⟨[], .refl cur, by simp⟩⟩

end OnItsLine

theorem OneLine.invariant (hM : M.OneLine settled) (cur : Cursor) :
    M.Invariant (OnItsLine cur settled) where
  complete h hc := absurd hc (h.here_onLine.not_completes _)
  skip h hp hc := by
    obtain ⟨hleads, hline, heq⟩ := h.past (not_isLineEnd_of_isInvisible hc) hp
    refine { h with here_leads := hleads, here_onLine := hline, here_line := heq, gap := ?_ }
    intro hs
    obtain ⟨gap, hgap, hinv⟩ := h.gap hs
    refine ⟨_, hgap.trans (Cursor.passes_past hp _), fun d hd => ?_⟩
    rcases List.mem_append.1 hd with hd | hd
    · exact hinv d hd
    · rwa [List.mem_singleton.1 hd]
  take h hp he := by
    obtain ⟨hleads, hline, heq⟩ := h.past (hM.not_isLineEnd (by rw [he]; exact id)) hp
    exact ⟨hleads, hline, heq, hleads, hline, heq, fun _ => ⟨[], .refl _, by simp⟩⟩
  probe h hp he := by
    obtain ⟨hleads, hline, heq⟩ := h.past (hM.not_isLineEnd (by rw [he]; exact id)) hp
    exact { h with
      here_leads := hleads, here_onLine := hline, here_line := heq
      gap := fun ht => absurd ht (hM.probe he) }

/-- What is recognized keeps to its line. -/
theorem OneLine.extent (hM : M.OneLine settled) (hcur : cur.place.OnLine)
    (h : (M.runFrom s cur).verdict = .ok r) :
    Extent cur (M.runFrom s cur).taken (M.runFrom s cur).cursor ∧
      (M.runFrom s cur).cursor.place.line = cur.place.line := by
  obtain ⟨s', mark, here, hI, hend⟩ := (hM.invariant cur).halts (s := s) (.refl hcur)
  rw [runFrom] at h ⊢
  generalize M.run s cur cur.place cur.rest = o at h hend ⊢
  cases hend with
  | accept he =>
    obtain ⟨gap, hgap, hinv⟩ := hI.gap (hM.accept he)
    exact ⟨⟨⟨mark, gap, hI.mark_leads, rfl, hgap, hinv⟩, hI.here_onLine⟩, hI.here_line⟩
  | back => exact ⟨.ofCursor hI.mark_leads hI.mark_onLine, hI.mark_line⟩
  | finish hp he =>
    obtain ⟨hleads, hline, heq⟩ := hI.past (hM.not_isLineEnd (by rw [he]; exact id)) hp
    exact ⟨.ofCursor hleads hline, heq⟩
  | stop =>
    have hlook : mark.look.place = mark.place := hI.mark_onLine.look_eq
    exact ⟨.ofCursor hI.mark_leads.look (hlook ▸ hI.mark_onLine), hlook ▸ hI.mark_line⟩
  | breakOff | fail | refuse => simp at h

/-- What is recognized ends with its last character. -/
theorem SelfClosing.extent (hM : M.SelfClosing) (h : (M.runFrom s cur).verdict = .ok r) :
    Extent cur (M.runFrom s cur).taken (M.runFrom s cur).cursor := by
  obtain ⟨s', mark, here, ⟨-, hhere⟩, hend⟩ :=
    (invariant_leads M cur).halts (s := s) ⟨.refl cur, .refl cur⟩
  rw [runFrom] at h ⊢
  generalize M.run s cur cur.place cur.rest = o at h hend ⊢
  cases hend with
  | finish hp he =>
    exact .ofCursor (hhere.trans (Cursor.passes_past hp _).leads)
      (Place.onLine_past _ (hM.finish he))
  | stop _ he => exact absurd he hM.stop
  | accept he | back he =>
    obtain ⟨e, hfail⟩ := hM.atEnd (s := s')
    simp [hfail] at he
  | breakOff | fail | refuse => simp at h

end Recognizer

end Recognizers

end ScriptExcerpt
