import ScriptExcerpt.Proofs.Drive
import ScriptExcerpt.Proofs.Extent
import ScriptExcerpt.Proofs.Lexeme.LineEnds

/-!
# Tapes and cursors

A tape stands where a cursor stands if it tells what is seen from there (`Tape.Stands`). Then a
recognizer that is driven over the tape recognizes what it recognizes behind the cursor, and leaves
the tape where the cursor is left (`Recognizer.Drives.matches_run`).

* `Cursor.see`: what is seen next from a cursor.
* `Recognizer.run_of_see`, `Recognizer.run_of_end`: the run of a recognizer by what is seen.
* `Tape.Stands.read`: where a tape tells a character, it is seen.
* `Manner.Suits`: what a recognizer has to keep to.
-/

namespace ScriptExcerpt

open Text

/-! ## What is seen from a cursor -/

namespace Cursor

/-- The next character of a text at the place `p` that is not passed over, and the cursor behind it.
    Invisible characters are passed over if `skips` holds. -/
def seeFrom (skips : Bool) (p : Place) : List Char → Option Char × Cursor
  | [] => (none, ⟨p, []⟩)
  | c :: cs =>
    if p.completes c then seeFrom skips p.complete cs
    else if skips && isInvisible c then seeFrom skips (p.past c) cs
    else (some c, ⟨p.past c, cs⟩)

/-- The next character that is not passed over, and the cursor behind it. -/
def see (skips : Bool) (cur : Cursor) : Option Char × Cursor :=
  seeFrom skips cur.place cur.rest

section See

variable {skips : Bool} {I : Cursor → Prop} {cur behind : Cursor} {c : Char}

/-- What is kept where something is passed over holds of the cursor that got to the character that
    is seen, or to the end of the script. -/
theorem see_eq (hcomplete : ∀ {p c cs}, I ⟨p, c :: cs⟩ → p.completes c → I ⟨p.complete, cs⟩)
    (hskip : ∀ {p c cs}, I ⟨p, c :: cs⟩ → ¬ p.completes c → skips && isInvisible c →
      I ⟨p.past c, cs⟩) (hcur : I cur) :
    ∃ p cs, I ⟨p, cs⟩ ∧ (cs = [] ∧ cur.see skips = (none, ⟨p, []⟩) ∨
      ∃ c rest, cs = c :: rest ∧ ¬ p.completes c ∧ (skips && isInvisible c) = false ∧
        cur.see skips = (some c, ⟨p.past c, rest⟩)) := by
  obtain ⟨p, cs⟩ := cur
  simp only [see]
  induction cs generalizing p with
  | nil => exact ⟨p, [], hcur, .inl ⟨rfl, rfl⟩⟩
  | cons c cs ih =>
    rw [seeFrom]
    split
    · next hc => exact ih _ (hcomplete hcur hc)
    · next hc =>
      split
      · next hi => exact ih _ (hskip hcur hc hi)
      · next hi =>
        exact ⟨p, c :: cs, hcur, .inr ⟨c, cs, rfl, hc, Bool.not_eq_true _ ▸ hi, rfl⟩⟩

theorem of_see (hcomplete : ∀ {p c cs}, I ⟨p, c :: cs⟩ → p.completes c → I ⟨p.complete, cs⟩)
    (hskip : ∀ {p c cs}, I ⟨p, c :: cs⟩ → ¬ p.completes c → skips && isInvisible c →
      I ⟨p.past c, cs⟩) (hcur : I cur) (h : cur.see skips = (some c, behind)) :
    ∃ p, I ⟨p, c :: behind.rest⟩ ∧ ¬ p.completes c ∧ (skips && isInvisible c) = false ∧
      behind.place = p.past c := by
  obtain ⟨p, cs, hI, ⟨-, hsee⟩ | ⟨d, rest, rfl, hd, hi, hsee⟩⟩ := see_eq hcomplete hskip hcur
  · cases h.symm.trans hsee
  · obtain ⟨hc, rfl⟩ := Prod.mk.inj (h.symm.trans hsee)
    obtain rfl := Option.some.inj hc
    exact ⟨p, hI, hd, hi, rfl⟩

theorem of_see_none (hcomplete : ∀ {p c cs}, I ⟨p, c :: cs⟩ → p.completes c → I ⟨p.complete, cs⟩)
    (hskip : ∀ {p c cs}, I ⟨p, c :: cs⟩ → ¬ p.completes c → skips && isInvisible c →
      I ⟨p.past c, cs⟩) (hcur : I cur) (h : cur.see skips = (none, behind)) :
    I behind ∧ behind.rest = [] := by
  obtain ⟨p, cs, hI, ⟨rfl, hsee⟩ | ⟨d, rest, rfl, hd, hi, hsee⟩⟩ := see_eq hcomplete hskip hcur
  · obtain ⟨-, rfl⟩ := Prod.mk.inj (h.symm.trans hsee)
    exact ⟨hI, rfl⟩
  · cases h.symm.trans hsee

/-- In the middle of a line, everything is seen but invisible characters. -/
theorem isInvisible_of_see (hcur : cur.place.OnLine) (h : cur.see skips = (none, behind)) :
    ∀ c ∈ cur.rest, isInvisible c := by
  obtain ⟨⟨gap, hgap, hinvisible, -⟩, hnil⟩ := of_see_none
    (I := fun here => ∃ gap, cur.rest = gap ++ here.rest ∧ (∀ c ∈ gap, isInvisible c) ∧
      here.place.OnLine)
    (fun ⟨_, _, _, hline⟩ hc => absurd hc (hline.not_completes _))
    (fun {p c cs} ⟨gap, hgap, hall, _⟩ _ hi => by
      have hc : isInvisible c := (Bool.and_eq_true_iff.1 hi).2
      refine ⟨gap ++ [c], by simpa using hgap, ?_, p.onLine_past (not_isLineEnd_of_isInvisible hc)⟩
      simpa [or_imp, forall_and] using ⟨hall, hc⟩)
    ⟨[], rfl, by simp, hcur⟩ h
  rw [hnil, List.append_nil] at hgap
  exact hgap ▸ hinvisible

end See

end Cursor

namespace Recognizer

variable {σ ρ ε : Type} {M : Recognizer σ ρ ε} {s : σ} {mark cur behind : Cursor} {c : Char}

theorem run_complete {p : Place} {cs : List Char} {o : Outcome ρ ε}
    (h : M.run s mark p (c :: cs) = o) (hc : p.completes c) : M.run s mark p.complete cs = o := by
  rwa [run, if_pos hc] at h

theorem run_skip {p : Place} {cs : List Char} {o : Outcome ρ ε}
    (h : M.run s mark p (c :: cs) = o) (hc : ¬ p.completes c) (hi : M.skips s && isInvisible c) :
    M.run s mark (p.past c) cs = o := by
  rwa [run, if_neg hc, if_pos hi] at h

/-- At the end of the script, a run ends. -/
theorem run_of_end (h : cur.see (M.skips s) = (none, behind)) :
    M.run s mark cur.place cur.rest =
      match M.atEnd s with
      | .accept r => ⟨.ok r, mark.offset, behind⟩
      | .back r => ⟨.ok r, mark.offset, mark⟩
      | .fail e => ⟨.error e, mark.offset, behind⟩ := by
  obtain ⟨hrun, hrest⟩ := Cursor.of_see_none
    (I := fun here => M.run s mark here.place here.rest = M.run s mark cur.place cur.rest)
    run_complete run_skip rfl h
  obtain ⟨p, rest⟩ := behind
  obtain rfl : rest = [] := hrest
  exact hrun.symm

/-- A run makes a step with the character that is seen. -/
theorem run_of_see (h : cur.see (M.skips s) = (some c, behind)) :
    M.run s mark cur.place cur.rest =
      match M.step s c with
      | .take t => M.run t behind behind.place behind.rest
      | .probe t => M.run t mark behind.place behind.rest
      | .finish r => ⟨.ok r, behind.offset, behind⟩
      | .stop r => ⟨.ok r, mark.offset, mark.look⟩
      | .fail e => ⟨.error e, mark.offset, behind⟩
      | .refuse e => ⟨.error e, mark.offset, mark.look⟩ := by
  obtain ⟨p, hrun, hc, hi, hplace⟩ := Cursor.of_see
    (I := fun here => M.run s mark here.place here.rest = M.run s mark cur.place cur.rest)
    run_complete run_skip rfl h
  obtain ⟨place, rest⟩ := behind
  obtain rfl : place = p.past c := hplace
  rw [← hrun, run, if_neg hc, hi]
  rfl

/-- What a run keeps to holds where a character is seen. -/
theorem Invariant.see {I : σ → Cursor → Cursor → Prop} (hI : M.Invariant I) (hs : I s mark cur)
    (h : cur.see (M.skips s) = (some c, behind)) :
    ∃ p, ¬ p.completes c ∧ I s mark ⟨p, c :: behind.rest⟩ ∧ behind.place = p.past c := by
  obtain ⟨p, hp, hc, -, hplace⟩ := Cursor.of_see (I := I s mark) hI.complete
    (fun h hc hi => hI.skip h hc (Bool.and_eq_true_iff.1 hi).2) hs h
  exact ⟨p, hc, hp, hplace⟩

end Recognizer

/-! ## Feeds and cursors -/

namespace Feed

/-- The place up to which a script was read off. -/
def place (f : Feed) : Place :=
  ⟨f.reach, f.line, f.lineEnd.isSome, f.lineEnd == some '\r'⟩

/-- The cursor there. -/
def cursor (f : Feed) : Cursor := ⟨f.place, f.rest⟩

section Pull

variable {skips ignores : Bool} {f : Feed} {c : Char}

/-- If no line end is to be ignored, those are completed that the place knows of. -/
theorem completes_place (hf : ignores → f.lineEnd = none) (c : Char) :
    (!ignores && f.lineEnd == some '\r' && c == '\n') = f.place.completes c := by
  cases ignores with
  | true => simp [place, Place.completes, hf rfl]
  | false => rfl

/-- And the line is begun that the place owes. -/
theorem beginLine_eq (hf : ignores → f.lineEnd = none) (cs : List Char) (n : Nat) :
    (if ignores then { f with rest := cs, reach := n }
      else beginLine { f with rest := cs, reach := n }) = ⟨cs, n, f.place.look.line, none⟩ := by
  obtain ⟨rest, reach, line, lineEnd⟩ := f
  cases ignores with
  | true =>
    obtain rfl : lineEnd = none := hf rfl
    rfl
  | false => cases lineEnd <;> rfl

theorem place_complete (hc : f.place.completes c) (cs : List Char) :
    f.place.complete =
      place { f with rest := cs, reach := f.reach + c.utf8Size, lineEnd := some '\n' } := by
  obtain ⟨hreturn, rfl⟩ := Place.eq_newline_of_completes hc
  simp only [place, beq_iff_eq] at hreturn
  simp only [place, Place.complete, hreturn]
  rfl

/-- What is pulled off a feed is what is seen from its place, if no line end is to be ignored. -/
theorem pullFrom_eq_see (hf : ignores → f.lineEnd = none) (cs : List Char) :
    Cursor.seeFrom skips f.place cs =
        ((f.pullFrom skips ignores cs).1, (f.pullFrom skips ignores cs).2.cursor) ∧
      ∀ c, (f.pullFrom skips ignores cs).1 = some c → isLineEnd c →
        (f.pullFrom skips ignores cs).2.lineEnd = some c := by
  induction cs generalizing f with
  | nil => exact ⟨rfl, by simp [pullFrom]⟩
  | cons c cs ih =>
    rw [Cursor.seeFrom, pullFrom, completes_place hf]
    simp only [beginLine_eq hf]
    split
    · next hc =>
      rw [place_complete hc cs]
      refine ih fun hig => ?_
      simp [← completes_place hf, hig] at hc
    · cases hline : isLineEnd c with
      | true =>
        have hvisible : (skips && isInvisible c) = false := by
          rw [← Bool.not_eq_true, Bool.and_eq_true]
          rintro ⟨-, hi⟩
          simp [not_isLineEnd_of_isInvisible hi] at hline
        simp only [hvisible, if_true, Bool.false_eq_true, if_false]
        exact ⟨by simp [cursor, place, Place.past, hline], fun d hd _ => hd⟩
      | false =>
        have hpast : f.place.past c =
            Feed.place ⟨cs, f.reach + c.utf8Size, f.place.look.line, none⟩ := by
          simp [place, Place.past, hline, ne_return_of_not_isLineEnd hline]
        simp only [Bool.false_eq_true, if_false, hpast]
        split
        · exact ih fun _ => rfl
        · refine ⟨rfl, fun d hd hd' => ?_⟩
          obtain rfl := Option.some.inj hd
          exact absurd (hline.symm.trans hd') Bool.false_ne_true

/-- What is pulled off a feed is what is seen from its cursor. -/
theorem pull_eq_see (skips : Bool) (hf : ignores → f.lineEnd = none) :
    f.cursor.see skips = ((f.pull skips ignores).1, (f.pull skips ignores).2.cursor) ∧
      ∀ c, (f.pull skips ignores).1 = some c → isLineEnd c →
        (f.pull skips ignores).2.lineEnd = some c :=
  pullFrom_eq_see hf f.rest

end Pull

end Feed

/-! ## Tapes and cursors -/

/-- From the cursor `a` the character `c` is seen, as `r` tells, and the cursor behind it is `b`. If
    it is a line end, it is `lineEnd`. -/
structure Read.Shows (skips : Bool) (lineEnd : Option Char) (r : Read) (a : Cursor) (c : Char)
    (b : Cursor) : Prop where
  see : a.see skips = (some c, b)
  char : r.char = Tape.tell c
  consumed : b.offset = a.offset + r.consumed
  width : r.width = c.utf8Size
  line : isLineEnd c → lineEnd = some c

/-- Behind a character that ends no line, the cursor is on its line. -/
theorem Read.Shows.onLine {skips : Bool} {l : Option Char} {r : Read} {a b : Cursor} {c : Char}
    (h : r.Shows skips l a c b) (hc : isLineEnd c = false) : b.place.OnLine := by
  obtain ⟨p, -, -, -, hplace⟩ := Cursor.of_see (I := fun _ => True) (fun _ _ => trivial)
    (fun _ _ _ => trivial) trivial h.see
  exact hplace ▸ p.onLine_past hc

/-- The characters `rs` are seen one after the other from the first cursor on, and then the reading
    goes on at the second one. Of line ends, only `lineEnd` may be among them. -/
def Given (lineEnd : Option Char) : List Read → Cursor → Cursor → Prop
  | [], a, b => a = b
  | r :: rs, a, b => ∃ c m, r.Shows true lineEnd a c m ∧ Given lineEnd rs m b

namespace Given

variable {l : Option Char} {rs us : List Read} {a b d : Cursor}

theorem append (h : Given l rs a b) (h' : Given l us b d) : Given l (rs ++ us) a d := by
  induction rs generalizing a with
  | nil =>
    obtain rfl : a = b := h
    exact h'
  | cons r rs ih =>
    obtain ⟨c, m, hr, hrs⟩ := h
    exact ⟨c, m, hr, ih hrs⟩

theorem offset_eq (h : Given l rs a b) : b.offset = a.offset + bytesTaken rs := by
  induction rs generalizing a with
  | nil =>
    obtain rfl : a = b := h
    rfl
  | cons r rs ih =>
    obtain ⟨c, m, hr, hrs⟩ := h
    rw [ih hrs, hr.consumed, bytesTaken, Nat.add_assoc]

/-- Without line ends, it does not matter which one may be among them. -/
theorem of_none (h : Given none rs a b) : Given l rs a b := by
  induction rs generalizing a with
  | nil => exact h
  | cons r rs ih =>
    obtain ⟨c, m, hr, hrs⟩ := h
    exact ⟨c, m, { hr with line := fun hc => absurd (hr.line hc) (by simp) }, ih hrs⟩

end Given

/-- The tape tells what is seen from the cursor. -/
structure Tape.Stands (t : Tape) (cur : Cursor) : Prop where
  offset : t.offset = cur.offset
  given : Given t.feed.lineEnd t.givenBack cur t.feed.cursor

namespace Tape

variable {t t' : Tape} {cur mark : Cursor} {skips ignores : Bool} {c : Char} {r : Read}
  {rs : List Read}

/-- A tape that tells what was given back stands where this was seen. -/
theorem Stands.rewind (ht : t.Stands cur) (h : Given t.feed.lineEnd rs.reverse mark cur) :
    (t.rewind rs).Stands mark where
  offset := by
    have hoffset := h.offset_eq
    rw [bytesTaken_reverse] at hoffset
    simp only [Tape.rewind, ht.offset, hoffset, Nat.add_sub_cancel]
  given := h.append ht.given

/-- Where nothing was given back, what is pulled off the feed is seen. -/
theorem Stands.pull (ht : t.Stands cur) (hback : t.givenBack = [])
    (hignores : ignores → cur.place.owed = false) {p : Option Char × Feed}
    (hp : t.feed.pull skips ignores = p) :
    cur.see skips = (p.1, p.2.cursor) ∧
      (∀ c, p.1 = some c → isLineEnd c → p.2.lineEnd = some c) ∧
      p.2.cursor.offset = cur.offset + (p.2.reach - t.feed.reach) := by
  have hgiven := ht.given
  rw [hback] at hgiven
  obtain rfl : cur = t.feed.cursor := hgiven
  have hreach := t.feed.reach_le_pullFrom skips ignores t.feed.rest
  rw [← Feed.pull, hp] at hreach
  obtain ⟨hsee, hline⟩ := Feed.pull_eq_see (f := t.feed) skips fun hig =>
    Option.isNone_iff_eq_none.1 (Option.isSome_eq_false_iff.1 (hignores hig))
  rw [hp] at hsee hline
  exact ⟨hsee, hline, (Nat.add_sub_cancel' hreach).symm⟩

/-- Where a tape tells a character, it is seen. -/
theorem Stands.read (ht : t.Stands cur) (hskips : t.givenBack = [] ∨ skips)
    (hignores : ignores → cur.place.owed = false) (h : t.read skips ignores = (some c, t'))
    (hr : t.Tells r t') :
    ∃ d behind, r.Shows skips t'.feed.lineEnd cur d behind ∧ t'.Stands behind := by
  rw [Tape.read] at h
  split at h
  · next r' rs hback =>
    obtain ⟨-, rfl⟩ := Prod.mk.inj h
    obtain rfl : r' = r := (List.cons.inj hr.recent).1
    obtain rfl : skips = true := hskips.resolve_left (by simp [hback])
    have hgiven := ht.given
    rw [hback] at hgiven
    obtain ⟨d, behind, hshows, hrest⟩ := hgiven
    exact ⟨d, behind, hshows, ht.offset ▸ hshows.consumed.symm, hrest⟩
  · next hback =>
    rcases hp : t.feed.pull skips ignores with ⟨_ | d, feed⟩ <;> rw [hp] at h
    · simp at h
    · obtain ⟨hsee, hline, hoffset⟩ := ht.pull hback hignores hp
      obtain ⟨-, rfl⟩ := Prod.mk.inj h
      obtain rfl := (List.cons.inj hr.recent).1
      exact ⟨d, feed.cursor, ⟨hsee, rfl, hoffset, rfl, hline d rfl⟩,
        ht.offset ▸ hoffset.symm, congrArg (Given _ · _ _) hback ▸ rfl⟩

/-- Where a tape tells that the script ends, nothing is seen any more. -/
theorem Stands.read_end (ht : t.Stands cur) (hignores : ignores → cur.place.owed = false)
    (h : t.read skips ignores = (none, t')) :
    ∃ behind, cur.see skips = (none, behind) ∧ t'.Stands behind := by
  rw [Tape.read] at h
  split at h
  · simp at h
  · next hback =>
    rcases hp : t.feed.pull skips ignores with ⟨_ | d, feed⟩ <;> rw [hp] at h
    · obtain ⟨hsee, -, hoffset⟩ := ht.pull hback hignores hp
      obtain ⟨-, rfl⟩ := Prod.mk.inj h
      exact ⟨feed.cursor, hsee, ht.offset ▸ hoffset.symm, congrArg (Given _ · _ _) hback ▸ rfl⟩
    · simp at h

end Tape

/-! ## Runs -/

theorem Tape.tell_eq_newline_iff {d : Char} : tell d = '\n' ↔ isLineEnd d := by
  rw [tell]
  split
  · next h => simp [h]
  · next h =>
    refine ⟨?_, fun h' => absurd h' h⟩
    rintro rfl
    rfl

/-- Other characters are told as they are. -/
theorem Tape.tell_of_ne {d : Char} (h : tell d ≠ '\n') : tell d = d :=
  if_neg fun hd => h (tell_eq_newline_iff.2 hd)

/-- A line end that is shown looks like a newline, or like what it is. -/
theorem Tape.shown_tell {t : Tape} {d : Char} (h : isLineEnd d → t.feed.lineEnd = some d) :
    t.shown (tell d) = unifyReturn d := by
  rw [tell]
  cases hd : isLineEnd d with
  | false =>
    have hne : d ≠ '\n' := by
      rintro rfl
      exact absurd hd.symm Bool.false_ne_true
    rw [unifyReturn_of_not_isLineEnd hd]
    exact shown_of_ne hne t
  | true =>
    simp only [isLineEnd, Bool.or_eq_true, beq_iff_eq] at hd
    simp only [shown, h (by simpa [isLineEnd] using hd), if_true, true_and]
    rcases hd with ((rfl | rfl) | rfl) | rfl <;> decide

variable {σ ρ ε : Type} {M : Recognizer σ ρ ε} {m : Manner σ} {s : σ} {rs : List Read}
  {taken : Nat} {t : Tape} {o : TapeOutcome ρ ε} {mark cur : Cursor}

/-- The move leads back to before the character, at once or later. -/
def Move.Returns : Move σ ρ ε → Prop
  | .probe _ | .stop _ | .refuse _ => True
  | .take _ | .finish _ | .fail _ => False

/-- A recognizer that is driven in the manner `m` sees on a tape what it sees behind a cursor:
    invisible characters are passed over where something is given back, and line ends matter only
    where nothing is. -/
structure Manner.Suits (m : Manner σ) (M : Recognizer σ ρ ε) : Prop where
  blind : M.BlindToReturns
  ignores {s u c} : M.step s c = .take u ∨ M.step s c = .probe u → m.ignores u →
    isLineEnd c = false
  returns : (∀ s c, ¬ (M.step s c).Returns) ∨
    (∀ s, M.skips s) ∧ ∀ s c, isLineEnd c → (M.step s c).Ends

/-- The run over a tape ended as the other one did. -/
structure TapeOutcome.Matches (o : TapeOutcome ρ ε) (o' : Outcome ρ ε) : Prop where
  verdict : o.verdict = o'.verdict
  taken : o.taken = o'.taken
  stands : o.tape.Stands o'.cursor

/-- In the state `s`, the tape stands at the cursor, and the characters `rs`, the last one first,
    were told behind the mark. -/
structure Recognizer.Follows (M : Recognizer σ ρ ε) (m : Manner σ) (s : σ) (rs : List Read)
    (taken : Nat) (t : Tape) (mark cur : Cursor) : Prop where
  stands : t.Stands cur
  given : Given none rs.reverse mark cur
  taken : mark.offset = taken
  skips : t.givenBack = [] ∨ ∀ s, M.skips s
  line : m.ignores s → cur.place.owed = false
  returns : (∀ s c, ¬ (M.step s c).Returns) ∨ mark.place.OnLine

namespace Recognizer

variable {t' : Tape} {c d : Char} {r : Read} {u : σ} {behind : Cursor} {p : Place}

/-- The tape tells what is seen from the cursor. -/
theorem Follows.read (h : M.Follows m s rs taken t mark cur) (hm : m.Suits M)
    (hread : t.read (M.skips s) (m.ignores s) = (some r.char, t')) (hr : t.Tells r t') :
    ∃ d behind, r.Shows (M.skips s) t'.feed.lineEnd cur d behind ∧ t'.Stands behind ∧
      (t'.givenBack = [] ∨ ∀ s, M.skips s) ∧ M.step s (t'.shown r.char) = M.step s d := by
  obtain ⟨d, behind, hshows, hstands⟩ :=
    h.stands.read (h.skips.imp_right fun h => h s) h.line hread hr
  refine ⟨d, behind, hshows, hstands, h.skips.imp_left fun hback => ?_, ?_⟩
  · exact givenBack_of_guarded hr (by simp [hback])
  · rw [hshows.char, Tape.shown_tell hshows.line, hm.blind.step_unifyReturn]

/-- Behind a character that belongs to the lexeme. -/
theorem Follows.take (hm : m.Suits M) (hstands : t'.Stands behind)
    (hskips : t'.givenBack = [] ∨ ∀ s, M.skips s) (hplace : behind.place = p.past d)
    (hstep : M.step s d = .take u) : M.Follows m u [] t'.offset t' behind behind where
  stands := hstands
  given := rfl
  taken := hstands.offset.symm
  skips := hskips
  line hig := hplace ▸ hm.ignores (.inl hstep) hig
  returns := hm.returns.imp_right fun hreturns => by
    rw [hplace]
    refine p.onLine_past ?_
    rw [← Bool.not_eq_true]
    intro hline
    have hends := hreturns.2 s d hline
    rwa [hstep] at hends

/-- Where something is given back, the mark is on its line. -/
theorem Follows.onLine (h : M.Follows m s rs taken t mark cur) (hm : m.Suits M)
    (hreturns : (M.step s d).Returns) : (∀ s, M.skips s) ∧ mark.place.OnLine :=
  ⟨(hm.returns.resolve_left fun hnot => hnot s d hreturns).1,
    h.returns.resolve_left fun hnot => hnot s d hreturns⟩

/-- Behind a character that may belong to the lexeme. -/
theorem Follows.probe (h : M.Follows m s rs taken t mark cur) (hm : m.Suits M)
    (hshows : r.Shows (M.skips s) t'.feed.lineEnd cur d behind) (hstands : t'.Stands behind)
    (hskips : t'.givenBack = [] ∨ ∀ s, M.skips s) (hplace : behind.place = p.past d)
    (hstep : M.step s d = .probe u) : M.Follows m u (r :: rs) taken t' mark behind where
  stands := hstands
  given := by
    have hreturns : (M.step s d).Returns := hstep ▸ trivial
    obtain ⟨hall, hends⟩ := hm.returns.resolve_left fun hnot => hnot s d hreturns
    rw [List.reverse_cons]
    refine h.given.append ⟨d, behind, ?_, rfl⟩
    have hshows' := hall s ▸ hshows
    exact { hshows' with line := fun hline => (hstep ▸ hends s d hline).elim }
  taken := h.taken
  skips := hskips
  line hig := hplace ▸ hm.ignores (.inr hstep) hig
  returns := h.returns

/-- The tape is given back what was told behind the mark. -/
theorem Follows.rewind (h : M.Follows m s rs taken t mark cur) (hm : m.Suits M)
    (hshows : r.Shows (M.skips s) t'.feed.lineEnd cur d behind) (hstands : t'.Stands behind)
    (hreturns : (M.step s d).Returns) : (t'.rewind (r :: rs)).Stands mark.look := by
  obtain ⟨hall, hmark⟩ := h.onLine hm hreturns
  have hlook : mark.look = mark := congrArg (Cursor.mk · mark.rest) hmark.look_eq
  rw [hlook]
  refine hstands.rewind ?_
  rw [List.reverse_cons]
  exact h.given.of_none.append ⟨d, behind, hall s ▸ hshows, rfl⟩

/-- A recognizer that is driven over a tape recognizes what it recognizes behind the cursor where
    the tape stands, and leaves the tape where the cursor is left. It must not go back from the end
    of the script to the mark where something was passed over. -/
theorem Drives.matches_run (h : M.Drives m s rs taken t o) (hm : m.Suits M)
    {I : σ → Cursor → Cursor → Prop} (hI : M.Invariant I)
    (hback : ∀ {s mark cur behind r}, I s mark cur → M.atEnd s = .back r →
      cur.see (M.skips s) = (none, behind) → behind = cur)
    (hs : M.Follows m s rs taken t mark cur) (hcur : I s mark cur) :
    o.Matches (M.run s mark cur.place cur.rest) := by
  induction h generalizing mark cur with
  | accept hread hend | breakOff hread hend =>
    obtain ⟨behind, hsee, hstands⟩ := hs.stands.read_end hs.line hread
    rw [run_of_end hsee, hend]
    exact ⟨rfl, hs.taken.symm, hstands⟩
  | back hread hend =>
    obtain ⟨behind, hsee, hstands⟩ := hs.stands.read_end hs.line hread
    obtain rfl := hback hcur hend hsee
    rw [run_of_end hsee, hend]
    have hrewind := hstands.rewind hs.given.of_none
    exact ⟨rfl, hrewind.offset, hrewind⟩
  | take hread hstep hrest ih =>
    obtain ⟨r, rfl, hr⟩ := Tape.tells_read hread
    obtain ⟨d, ⟨place, rest⟩, hshows, hstands, hskips, hd⟩ := hs.read hm hread hr
    obtain ⟨p, hp, hI', hplace⟩ := hI.see hcur hshows.see
    rw [hd] at hstep
    rw [run_of_see hshows.see, hstep]
    obtain rfl : place = p.past d := hplace
    exact ih (.take hm hstands hskips rfl hstep) (hI.take hI' hp hstep)
  | probe hread hr hstep hrest ih =>
    obtain ⟨d, ⟨place, rest⟩, hshows, hstands, hskips, hd⟩ := hs.read hm hread hr
    obtain ⟨p, hp, hI', hplace⟩ := hI.see hcur hshows.see
    rw [hd] at hstep
    rw [run_of_see hshows.see, hstep]
    obtain rfl : place = p.past d := hplace
    exact ih (hs.probe hm hshows hstands hskips rfl hstep) (hI.probe hI' hp hstep)
  | finish hread hstep =>
    obtain ⟨r, rfl, hr⟩ := Tape.tells_read hread
    obtain ⟨d, behind, hshows, hstands, -, hd⟩ := hs.read hm hread hr
    rw [run_of_see hshows.see, ← hd, hstep]
    exact ⟨rfl, hstands.offset, hstands⟩
  | fail hread hstep =>
    obtain ⟨r, rfl, hr⟩ := Tape.tells_read hread
    obtain ⟨d, behind, hshows, hstands, -, hd⟩ := hs.read hm hread hr
    rw [run_of_see hshows.see, ← hd, hstep]
    exact ⟨rfl, hs.taken.symm, hstands⟩
  | stop hread hr hstep | refuse hread hr hstep =>
    obtain ⟨d, behind, hshows, hstands, -, hd⟩ := hs.read hm hread hr
    rw [hd] at hstep
    rw [run_of_see hshows.see, hstep]
    exact ⟨rfl, hs.taken.symm, hs.rewind hm hshows hstands (hstep ▸ trivial)⟩

variable {P : σ → List Char → Prop}

/-- On a tape that stands in the middle of a line, a recognizer recognizes what it does behind the
    cursor there. -/
theorem matches_runFrom (hM : m.Careful M P) (hm : m.Suits M) {I : σ → Cursor → Cursor → Prop}
    (hI : M.Invariant I)
    (hback : ∀ {s mark cur behind r}, I s mark cur → M.atEnd s = .back r →
      cur.see (M.skips s) = (none, behind) → behind = cur)
    (hP : P s []) (ht : t.Holds []) (hguard : ∀ s, m.guarded s → t.givenBack.length ≤ 1)
    (hstands : t.Stands cur) (hcur : cur.place.OnLine)
    (hskips : t.givenBack = [] ∨ ∀ s, M.skips s) (hs : I s cur cur) :
    (M.drive m s [] t.offset t).Matches (M.runFrom s cur) := by
  have hrun : M.Drives m s [] t.offset t _ := drives_of_holds hM hP ht hguard
  exact hrun.matches_run hm hI hback
    ⟨hstands, rfl, hstands.offset.symm, hskips, fun _ => hcur.owed, .inr hcur⟩ hs

end Recognizer

end ScriptExcerpt
