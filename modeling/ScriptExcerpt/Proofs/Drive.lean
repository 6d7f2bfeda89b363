import ScriptExcerpt.Proofs.Reading
import ScriptExcerpt.Proofs.Tape

/-!
# Recognizers on tapes

A recognizer is driven over a tape: what belongs to the lexeme is read, and where the lexeme ended
before what was read, that is given back, the character that shows it and those that were read ahead
of the lexeme. Some states only try a character and give it back before they read it, or try
several (`Manner.looks`).

* `Recognizer.drive`: the run of a recognizer over a tape.
* `Recognizer.Drives`: what it comes to if nothing is objected to.
* `Manner.Careful`: the recognizer looks no further ahead than a tape takes back.
* `Recognizer.drives_drive`: then nothing is objected to.
-/

namespace ScriptExcerpt

open Text

/-- How a tape is read in the states of a recognizer. -/
structure Manner (σ : Type) where
  /-- Nothing is made of a line end before the character that is read. -/
  ignores : σ → Bool
  /-- Nothing is given back behind a line end. -/
  guarded : σ → Bool
  /-- How often what was read is given back and read again before something is made of it. -/
  looks : σ → Option Char → Nat
  /-- How often the tape is looked at behind a lexeme ahead of which more than one character was
      read. -/
  looksBehind : σ → Nat

namespace Tape

/-- The line and paragraph separators are told from other line ends by what was read off. -/
def shown (t : Tape) (c : Char) : Char :=
  match t.feed.lineEnd with
  | some l => if c = '\n' ∧ (l = '\u2028' ∨ l = '\u2029') then l else c
  | none => c

theorem shown_of_ne {c : Char} (h : c ≠ '\n') (t : Tape) : t.shown c = c := by
  rw [shown]
  split
  · simp [h]
  · rfl

/-- Line ends are shown as line ends. -/
theorem isLineEnd_shown_newline (t : Tape) : isLineEnd (t.shown '\n') := by
  rw [shown]
  split
  · split
    · next h => rcases h.2 with rfl | rfl <;> rfl
    · rfl
  · rfl

theorem ne_newline_of_shown {t : Tape} {c : Char} (h : isLineEnd (t.shown c) = false) :
    c ≠ '\n' := by
  rintro rfl
  exact absurd (h.symm.trans t.isLineEnd_shown_newline) Bool.false_ne_true

theorem shown_eq {t : Tape} {c : Char} (h : isLineEnd (t.shown c) = false) : t.shown c = c :=
  shown_of_ne (ne_newline_of_shown h) t

/-- What was told is given back and read again. -/
def again (skips ignores guarded : Bool) (p : Option Char × Tape) : Option Char × Tape :=
  (p.2.putBack guarded p.1).read skips ignores

/-- What is told is given back. -/
def look (skips ignores guarded : Bool) (t : Tape) : Tape :=
  let p := t.read skips ignores
  p.2.putBack guarded p.1

theorem goes_again (skips ignores guarded : Bool) (p : Option Char × Tape) :
    p.2.Goes (again skips ignores guarded p).2 :=
  .read _ _ (.putBack _ _ .refl)

theorem goes_look (skips ignores guarded : Bool) (t : Tape) :
    t.Goes (look skips ignores guarded t) :=
  .putBack _ _ (.read _ _ .refl)

theorem left_again_le (skips ignores guarded : Bool) (n : Nat) (p : Option Char × Tape) :
    ((again skips ignores guarded)^[n] p).2.left +
      ((again skips ignores guarded)^[n] p).1.toList.length ≤ p.2.left + p.1.toList.length := by
  induction n generalizing p with
  | zero => exact Nat.le_refl _
  | succ n ih =>
    exact Nat.le_trans (ih _) (Nat.le_trans (left_read_le _ _ _) (left_putBack_le _ _ _))

end Tape

/-- How a run over a tape ended. -/
structure TapeOutcome (ρ ε : Type) where
  /-- What was recognized, or the fault. -/
  verdict : Except ε ρ
  /-- The offset behind the last character taken. -/
  taken : Nat
  /-- The tape on which the reading goes on. -/
  tape : Tape

namespace Recognizer

variable {σ ρ ε : Type} (M : Recognizer σ ρ ε) (m : Manner σ)

/-- What the recognizer sees next in the state `s`. -/
def view (s : σ) (t : Tape) : Option Char × Tape :=
  let p := t.read (M.skips s) (m.ignores s)
  (Tape.again (M.skips s) (m.ignores s) (m.guarded s))^[m.looks s p.1] p

/-- Gives back what was told last, and the characters `ahead` read before it. -/
def giveBack (s : σ) (ahead : List Char) (c : Option Char) (t : Tape) : Tape :=
  (Tape.look (M.skips s) (m.ignores s) (m.guarded s))^[if ahead = [] then 0 else m.looksBehind s]
    ((t.putBack (m.guarded s) c).putBackAll (m.guarded s) ahead)

theorem goes_view (s : σ) (t : Tape) : t.Goes (M.view m s t).2 :=
  (t.goes_read _ _).trans (.iterate (Tape.goes_again _ _ _) _ _)

theorem goes_giveBack (s : σ) (ahead : List Char) (c : Option Char) (t : Tape) :
    t.Goes (M.giveBack m s ahead c t) :=
  ((t.goes_putBack _ _).trans (Tape.goes_putBackAll _ _ _)).trans
    (.iterate (Tape.goes_look _ _ _) _ _)

theorem left_view {s : σ} {t t' : Tape} {c : Char} (h : M.view m s t = (some c, t')) :
    t'.left < t.left := by
  have hle := Tape.left_again_le (M.skips s) (m.ignores s) (m.guarded s)
    (m.looks s (t.read (M.skips s) (m.ignores s)).1) (t.read (M.skips s) (m.ignores s))
  unfold view at h
  dsimp only at h
  rw [h] at hle
  exact Nat.lt_of_lt_of_le (Nat.lt_succ_self _)
    (Nat.le_trans hle (t.left_read_le (M.skips s) (m.ignores s)))

/-- The run of a recognizer from the state `s` over a tape. The characters `ahead`, the last one
    first, were read behind the offset `taken`, up to which the lexeme goes in any case. -/
def drive (s : σ) (ahead : List Char) (taken : Nat) (t : Tape) : TapeOutcome ρ ε :=
  match _h : M.view m s t with
  | (none, t) =>
    match M.atEnd s with
    | .accept r => ⟨.ok r, taken, M.giveBack m s [] none t⟩
    | .back r =>
      let t := M.giveBack m s ahead none t
      ⟨.ok r, t.offset, t⟩
    | .fail e => ⟨.error e, taken, M.giveBack m s [] none t⟩
  | (some c, t) =>
    match M.step s (t.shown c) with
    | .take u => drive u [] t.offset t
    | .probe u => drive u (c :: ahead) taken t
    | .finish r => ⟨.ok r, t.offset, t⟩
    | .stop r => ⟨.ok r, taken, M.giveBack m s ahead c t⟩
    | .fail e => ⟨.error e, taken, t⟩
    | .refuse e => ⟨.error e, taken, M.giveBack m s ahead c t⟩
termination_by t.left
decreasing_by all_goals exact M.left_view m _h

/-- All that a recognizer does with a tape is to read it and to give back. -/
theorem goes_drive (s : σ) (ahead : List Char) (taken : Nat) (t : Tape) :
    t.Goes (M.drive m s ahead taken t).tape := by
  have hview {s : σ} {t t' : Tape} {c : Option Char} (h : M.view m s t = (c, t')) : t.Goes t' := by
    have hgoes := M.goes_view m s t
    rwa [h] at hgoes
  fun_induction drive M m s ahead taken t with
  | case1 _ _ _ _ _ h | case2 _ _ _ _ _ h | case3 _ _ _ _ _ h =>
    -- The script ends.
    exact (hview h).trans (M.goes_giveBack m _ _ _ _)
  | case4 _ _ _ _ _ _ h _ _ ih | case5 _ _ _ _ _ _ h _ _ ih =>
    -- A character is taken, or tried.
    exact (hview h).trans ih
  | case6 _ _ _ _ _ _ h | case8 _ _ _ _ _ _ h => exact hview h
  | case7 _ _ _ _ _ _ h | case9 _ _ _ _ _ _ h =>
    -- The lexeme ended before it.
    exact (hview h).trans (M.goes_giveBack m _ _ _ _)

variable {M m} {s : σ} {t t' : Tape}

theorem drive_of_end (ahead : List Char) (taken : Nat) (h : M.view m s t = (none, t')) :
    M.drive m s ahead taken t =
      match M.atEnd s with
      | .accept r => ⟨.ok r, taken, M.giveBack m s [] none t'⟩
      | .back r =>
        ⟨.ok r, (M.giveBack m s ahead none t').offset, M.giveBack m s ahead none t'⟩
      | .fail e => ⟨.error e, taken, M.giveBack m s [] none t'⟩ := by
  rw [drive]
  split
  · next h' =>
    obtain ⟨-, rfl⟩ := Prod.mk.inj (h.symm.trans h')
    rfl
  · next h' => cases h.symm.trans h'

theorem drive_of_char (ahead : List Char) (taken : Nat) {c : Char}
    (h : M.view m s t = (some c, t')) :
    M.drive m s ahead taken t =
      match M.step s (t'.shown c) with
      | .take u => M.drive m u [] t'.offset t'
      | .probe u => M.drive m u (c :: ahead) taken t'
      | .finish r => ⟨.ok r, t'.offset, t'⟩
      | .stop r => ⟨.ok r, taken, M.giveBack m s ahead c t'⟩
      | .fail e => ⟨.error e, taken, t'⟩
      | .refuse e => ⟨.error e, taken, M.giveBack m s ahead c t'⟩ := by
  rw [drive]
  split
  · next h' => cases h.symm.trans h'
  · next h' =>
    obtain ⟨hc, rfl⟩ := Prod.mk.inj (h.symm.trans h')
    obtain rfl := Option.some.inj hc
    rfl

end Recognizer

/-! ## Looking again -/

namespace Tape

variable {t t' : Tape} {skips ignores guarded : Bool} {c : Char} {r : Read} {rs : List Read}
  {p : Option Char × Tape}

/-- Behind a character that was told there is room for it. -/
theorem Tells.length_lt (h : t.Tells r t') (ht : t.Balanced) : t'.givenBack.length < depth := by
  have hlength := ht.length_givenBack
  rcases h.source with ⟨hback, -⟩ | ⟨-, hback, -⟩
  · rwa [hback, List.length_cons] at hlength
  · rw [hback]
    decide

/-- Reading again what was given back takes the tape to where it was. -/
theorem read_returned (ht : t.Balanced) (hrecent : t.recent = r :: rs) (skips ignores : Bool) :
    (t.returned r rs).read skips ignores = (some r.char, t) := by
  obtain ⟨feed, offset, givenBack, recent, objections⟩ := t
  obtain rfl : recent = r :: rs := hrecent
  have hconsumed : r.consumed ≤ offset := by
    have hsum := ht.recent
    rw [bytesTaken] at hsum
    exact Nat.le_of_add_right_le hsum
  have hlength : (r :: rs).take depth = r :: rs := List.take_of_length_le ht.length_recent
  simp [read, returned, pass, hlength, Nat.sub_add_cancel hconsumed]

/-- Giving back what was read and reading it again changes nothing. -/
theorem again_eq (ht : t.Balanced) (hp : t.read skips ignores = p)
    (hguard : guarded → ∀ r ∈ p.2.givenBack.head?, r.char ≠ '\n') (skips' ignores' : Bool) :
    again skips' ignores' guarded p = p := by
  obtain ⟨_ | c, t'⟩ := p
  · have hends := ends_read hp
    rw [again, hends.putBack, hends.read]
  · obtain ⟨r, rfl, htells⟩ := tells_read hp
    have hrecent : t'.recent = r :: t.recent.take 2 := htells.recent
    rw [again, putBack_eq (ht.tells htells) hrecent (htells.length_lt ht) hguard,
      read_returned (ht.tells htells) hrecent]

/-- Nor does looking at what was given back, if there is room to remember it. -/
theorem look_eq (ht : t.Balanced) (hback : t.givenBack = r :: rs)
    (hroom : t.recent.length < depth) : look skips ignores false t = t := by
  obtain ⟨feed, offset, givenBack, recent, objections⟩ := t
  obtain rfl : givenBack = r :: rs := hback
  have hread : (Tape.mk feed offset (r :: rs) recent objections).read skips ignores =
      (some r.char, ⟨feed, offset + r.consumed, rs, r :: recent, objections⟩) := by
    simp only [read, pass, List.take_of_length_le (show (r :: recent).length ≤ depth from hroom)]
  have htells : (Tape.mk feed offset (r :: rs) recent objections).Tells r
      ⟨feed, offset + r.consumed, rs, r :: recent, objections⟩ := by
    obtain ⟨r', hr', htells⟩ := tells_read hread
    have := htells.recent
    simp [depth] at this
    rw [← this.1] at htells
    exact htells
  simp only [look, hread]
  rw [putBack_eq (ht.tells htells) rfl ht.length_givenBack (by simp)]
  simp [returned]

/-! ## Runs without objections -/

/-- Nothing was objected to, and the characters `rs`, the last one first, were told last and can be
    given back. -/
structure Holds (t : Tape) (rs : List Read) : Prop where
  balanced : t.Balanced
  objections : t.objections = []
  recent : rs <+: t.recent
  length_le : rs.length + t.givenBack.length ≤ depth

theorem Holds.nil (h : t.Holds rs) : t.Holds [] :=
  ⟨h.balanced, h.objections, List.nil_prefix, by simpa using h.balanced.length_givenBack⟩

/-- A character that was told can be given back as well. -/
theorem Holds.tells (h : t.Holds rs) (hrs : rs.length < depth) (hr : t.Tells r t') :
    t'.Holds (r :: rs) where
  balanced := h.balanced.tells hr
  objections := hr.objections.trans h.objections
  recent := by
    rw [hr.recent, List.prefix_take_iff]
    exact ⟨(List.prefix_cons_inj r).2 h.recent, hrs⟩
  length_le := by
    have hlength := h.length_le
    rcases hr.source with ⟨hback, -⟩ | ⟨-, hback, -⟩
    · rw [hback] at hlength
      simp only [List.length_cons] at hlength ⊢
      omega
    · rw [hback]
      exact hrs

theorem Holds.ends (h : t.Holds rs) (ht : t.Ends t') : t'.Holds rs where
  balanced := h.balanced.ends ht
  objections := ht.objections.trans h.objections
  recent := ht.recent ▸ h.recent
  length_le := by
    have hlength := h.length_le
    rw [ht.givenBack.1] at hlength
    rwa [ht.givenBack.2]

theorem Holds.rewind (h : t.Holds rs) : (t.rewind rs).Holds [] := by
  have hall : t.putBackAll false (rs.map (·.char)) = t.rewind rs :=
    putBackAll_eq h.balanced h.recent h.length_le (by simp)
  have hbalanced : (t.rewind rs).Balanced := hall ▸ (t.goes_putBackAll _ _).balanced h.balanced
  exact ⟨hbalanced, h.objections, List.nil_prefix, by simpa using hbalanced.length_givenBack⟩

/-- The characters `rs` were told since the characters `g` were given back, and there is nothing
    else to be told before the script is read on. -/
def Since (g : List Char) (rs : List Read) (t : Tape) : Prop :=
  (rs.reverse ++ t.givenBack).map (·.char) <:+ g ∨ t.givenBack = []

theorem since_chars (t : Tape) : t.Since t.chars [] :=
  .inl (List.suffix_refl _)

variable {g : List Char}

theorem Since.tells (h : t.Since g rs) (hr : t.Tells r t') : t'.Since g (r :: rs) := by
  rcases hr.source with ⟨hback, -⟩ | ⟨-, hback, -⟩
  · rcases h with h | h
    · rw [hback, List.append_cons, ← List.reverse_cons] at h
      exact .inl h
    · simp [h] at hback
  · exact .inr hback

theorem Since.nil (h : t.Since g rs) : t.Since g [] := by
  rcases h with h | h
  · rw [List.map_append] at h
    exact .inl ((List.suffix_append _ _).trans h)
  · exact .inr h

/-- What is told next was given back before, or only since. -/
theorem Since.chars (h : t.Since g rs) : t.chars <:+ g := by
  rcases h.nil with h | h
  · exact h
  · simp [Tape.chars, h]

theorem Since.rewind (h : t.Since g rs) :
    (t.rewind rs).chars <:+ g ∨ (t.rewind rs).chars = (rs.map (·.char)).reverse := by
  rcases h with h | h
  · exact .inl h
  · exact .inr (by simp [Tape.chars, Tape.rewind, h])

end Tape

/-- A recognizer that is driven in the manner `m` looks ahead of a lexeme no further than a tape
    takes back. In each state it is behind some characters, which `P` tells, the last one first. -/
structure Manner.Careful {σ ρ ε : Type} (m : Manner σ) (M : Recognizer σ ρ ε)
    (P : σ → List Char → Prop) : Prop where
  take {s u ahead c} : P s ahead → M.step s c = .take u → P u []
  probe {s u ahead c} : P s ahead → M.step s c = .probe u → isLineEnd c = false ∧ P u (c :: ahead)
  length_lt {s ahead} : P s ahead → ahead.length < Tape.depth
  not_mem {s ahead} : P s ahead → '\n' ∉ ahead
  stop {s ahead c r} : m.guarded s → P s ahead → ahead ≠ [] → M.step s c = .stop r →
    isLineEnd c = false
  refuse {s ahead c e} : m.guarded s → P s ahead → ahead ≠ [] → M.step s c = .refuse e →
    isLineEnd c = false
  looksBehind {s} : m.guarded s → m.looksBehind s = 0

theorem Manner.Careful.ne_newline {σ ρ ε : Type} {m : Manner σ} {M : Recognizer σ ρ ε}
    {P : σ → List Char → Prop} {s : σ} {rs : List Read} (hM : m.Careful M P)
    (hP : P s (rs.map (·.char))) : ∀ x ∈ rs, x.char ≠ '\n' :=
  fun _ hx hline => hM.not_mem hP (List.mem_map.2 ⟨_, hx, hline⟩)

namespace Recognizer

variable {σ ρ ε : Type} {M : Recognizer σ ρ ε} {m : Manner σ}

/-- The run of a recognizer over a tape, if nothing is objected to. -/
inductive Drives (M : Recognizer σ ρ ε) (m : Manner σ) :
    σ → List Read → Nat → Tape → TapeOutcome ρ ε → Prop
  | accept {s rs taken t t' r} (hread : t.read (M.skips s) (m.ignores s) = (none, t'))
      (hend : M.atEnd s = .accept r) : Drives M m s rs taken t ⟨.ok r, taken, t'⟩
  | back {s rs taken t t' r} (hread : t.read (M.skips s) (m.ignores s) = (none, t'))
      (hend : M.atEnd s = .back r) :
      Drives M m s rs taken t ⟨.ok r, (t'.rewind rs).offset, t'.rewind rs⟩
  | breakOff {s rs taken t t' e} (hread : t.read (M.skips s) (m.ignores s) = (none, t'))
      (hend : M.atEnd s = .fail e) : Drives M m s rs taken t ⟨.error e, taken, t'⟩
  | take {s rs taken t t' c u o} (hread : t.read (M.skips s) (m.ignores s) = (some c, t'))
      (hstep : M.step s (t'.shown c) = .take u) (hrest : Drives M m u [] t'.offset t' o) :
      Drives M m s rs taken t o
  | probe {s rs taken t t' r u o} (hread : t.read (M.skips s) (m.ignores s) = (some r.char, t'))
      (hr : t.Tells r t') (hstep : M.step s (t'.shown r.char) = .probe u)
      (hrest : Drives M m u (r :: rs) taken t' o) : Drives M m s rs taken t o
  | finish {s rs taken t t' c r} (hread : t.read (M.skips s) (m.ignores s) = (some c, t'))
      (hstep : M.step s (t'.shown c) = .finish r) :
      Drives M m s rs taken t ⟨.ok r, t'.offset, t'⟩
  | stop {s rs taken t t' r x} (hread : t.read (M.skips s) (m.ignores s) = (some r.char, t'))
      (hr : t.Tells r t') (hstep : M.step s (t'.shown r.char) = .stop x) :
      Drives M m s rs taken t ⟨.ok x, taken, t'.rewind (r :: rs)⟩
  | fail {s rs taken t t' c e} (hread : t.read (M.skips s) (m.ignores s) = (some c, t'))
      (hstep : M.step s (t'.shown c) = .fail e) : Drives M m s rs taken t ⟨.error e, taken, t'⟩
  | refuse {s rs taken t t' r e} (hread : t.read (M.skips s) (m.ignores s) = (some r.char, t'))
      (hr : t.Tells r t') (hstep : M.step s (t'.shown r.char) = .refuse e) :
      Drives M m s rs taken t ⟨.error e, taken, t'.rewind (r :: rs)⟩

variable {P : σ → List Char → Prop} {s : σ} {rs : List Read} {taken : Nat} {t t' : Tape} {r : Read}
  {o : TapeOutcome ρ ε}

theorem view_eq (ht : t.Balanced) {p : Option Char × Tape}
    (hp : t.read (M.skips s) (m.ignores s) = p)
    (hguard : m.guarded s → p.2.givenBack = []) : M.view m s t = p := by
  have hagain : Tape.again (M.skips s) (m.ignores s) (m.guarded s) p = p :=
    Tape.again_eq ht hp (fun hg => by simp [hguard hg]) _ _
  rw [view, hp]
  exact Function.iterate_fixed hagain _

/-- Looking at what was given back changes nothing. -/
theorem looksBehind_eq (hM : m.Careful M P) (ht : t.Holds rs) (hrs : rs ≠ []) :
    (Tape.look (M.skips s) (m.ignores s) (m.guarded s))^[m.looksBehind s] (t.rewind rs) =
      t.rewind rs := by
  cases hg : m.guarded s with
  | true =>
    rw [hM.looksBehind hg]
    rfl
  | false =>
    obtain ⟨r, l, hback⟩ : ∃ r l, (t.rewind rs).givenBack = r :: l :=
      List.exists_cons_of_ne_nil (by simp [Tape.rewind, hrs])
    refine Function.iterate_fixed (Tape.look_eq ht.rewind.balanced hback ?_) _
    have hlength := ht.balanced.length_recent
    have hpos := List.length_pos_iff.2 hrs
    have hdepth : 0 < Tape.depth := by decide
    simp only [Tape.rewind, List.length_drop]
    omega

/-- What was told last is given back with what was told ahead of the lexeme. -/
theorem giveBack_char (hM : m.Careful M P) (hP : P s (rs.map (·.char))) (ht : t.Holds (r :: rs))
    (hguard : m.guarded s → t.givenBack = [] ∧ (rs ≠ [] → r.char ≠ '\n')) :
    M.giveBack m s (rs.map (·.char)) r.char t = t.rewind (r :: rs) := by
  have hall : t.putBackAll (m.guarded s) ((r :: rs).map (·.char)) = t.rewind (r :: rs) := by
    refine Tape.putBackAll_eq ht.balanced ht.recent ht.length_le fun hg _ => ?_
    obtain ⟨hback, hline⟩ := hguard hg
    refine ⟨by simp [hback], fun x hx => ?_⟩
    by_cases hrs : rs = []
    · simp [hrs] at hx
    · rcases List.mem_cons.1 (List.dropLast_subset _ hx) with rfl | hx
      · exact hline hrs
      · exact hM.ne_newline hP x hx
  have hputs : (t.putBack (m.guarded s) r.char).putBackAll (m.guarded s) (rs.map (·.char)) =
      t.rewind (r :: rs) := hall
  rw [giveBack, hputs]
  split
  · rfl
  · exact looksBehind_eq hM ht (List.cons_ne_nil _ _)

/-- At the end of the script, what was told ahead of the lexeme is given back. -/
theorem giveBack_end (hM : m.Careful M P) (hP : P s (rs.map (·.char))) (ht : t'.Holds rs)
    (hends : t.Ends t') : M.giveBack m s (rs.map (·.char)) none t' = t'.rewind rs := by
  have hall : t'.putBackAll (m.guarded s) (rs.map (·.char)) = t'.rewind rs :=
    Tape.putBackAll_eq ht.balanced ht.recent ht.length_le fun _ _ =>
      ⟨by simp [hends.givenBack.2],
        fun x hx => hM.ne_newline hP x (List.dropLast_subset _ hx)⟩
  rw [giveBack, hends.putBack, hall]
  split
  · rfl
  · next hrs => exact looksBehind_eq hM ht fun h => hrs (by simp [h])

/-- At the end of the script, nothing is to be given back behind a lexeme. -/
theorem giveBack_nil (hends : t.Ends t') (s : σ) : M.giveBack m s [] none t' = t' := by
  simp [giveBack, hends.putBack, Tape.putBackAll]

/-- The characters that are given back behind a line end that must not be left are none. -/
theorem givenBack_of_guarded (hr : t.Tells r t') (h : t.givenBack.length ≤ 1) :
    t'.givenBack = [] := by
  rcases hr.source with ⟨hback, -⟩ | ⟨-, hback, -⟩
  · rw [hback, List.length_cons] at h
    exact List.eq_nil_of_length_eq_zero (by omega)
  · exact hback

/-- Nothing is objected to when a recognizer is driven carefully. -/
theorem drives_drive (hM : m.Careful M P) (hP : P s (rs.map (·.char))) (ht : t.Holds rs)
    (hguard : ∀ s, m.guarded s → t.givenBack.length ≤ 1) :
    M.Drives m s rs taken t (M.drive m s (rs.map (·.char)) taken t) := by
  induction hn : t.left using Nat.strongRecOn generalizing s rs taken t with
  | ind n ih =>
    subst hn
    rcases hp : t.read (M.skips s) (m.ignores s) with ⟨_ | c, t'⟩
    · have hends := Tape.ends_read hp
      have hnil : M.giveBack m s [] none t' = t' := giveBack_nil hends s
      have hback := giveBack_end hM hP (ht.ends hends) hends
      rw [drive_of_end _ _ (view_eq ht.balanced hp fun _ => hends.givenBack.2)]
      split
      · next hatEnd => exact hnil.symm ▸ .accept hp hatEnd
      · next hatEnd => exact hback.symm ▸ .back hp hatEnd
      · next hatEnd => exact hnil.symm ▸ .breakOff hp hatEnd
    · obtain ⟨r, rfl, hr⟩ := Tape.tells_read hp
      have hback (s : σ) (hg : m.guarded s) : t'.givenBack = [] :=
        givenBack_of_guarded hr (hguard s hg)
      have hguard' (s : σ) (hg : m.guarded s) : t'.givenBack.length ≤ 1 := by
        simp [hback s hg]
      have ht' := ht.tells (by simpa using hM.length_lt hP) hr
      have hview := view_eq ht.balanced hp (hback s)
      have hleft : t'.left < t.left := left_view M m hview
      rw [drive_of_char _ _ hview]
      split
      · next u hstep =>
        have hu : P u (([] : List Read).map (·.char)) := hM.take hP hstep
        exact .take hp hstep (ih _ hleft hu ht'.nil hguard' rfl)
      · next u hstep =>
        obtain ⟨hline, hu⟩ := hM.probe hP hstep
        have hu : P u ((r :: rs).map (·.char)) := by
          rwa [Tape.shown_eq hline] at hu
        exact .probe hp hr hstep (ih _ hleft hu ht' hguard' rfl)
      · next hstep => exact .finish hp hstep
      · next hstep =>
        rw [giveBack_char hM hP ht' fun hg => ⟨hback s hg, fun hrs =>
          Tape.ne_newline_of_shown (hM.stop hg hP (by simpa using hrs) hstep)⟩]
        exact .stop hp hr hstep
      · next hstep => exact .fail hp hstep
      · next hstep =>
        rw [giveBack_char hM hP ht' fun hg => ⟨hback s hg, fun hrs =>
          Tape.ne_newline_of_shown (hM.refuse hg hP (by simpa using hrs) hstep)⟩]
        exact .refuse hp hr hstep

theorem drives_of_holds (hM : m.Careful M P) (hP : P s []) (ht : t.Holds [])
    (hguard : ∀ s, m.guarded s → t.givenBack.length ≤ 1) :
    M.Drives m s [] taken t (M.drive m s [] taken t) :=
  drives_drive hM hP ht hguard

/-- Behind a run nothing was objected to. -/
theorem Drives.holds (h : M.Drives m s rs taken t o) (hM : m.Careful M P)
    (hP : P s (rs.map (·.char))) (ht : t.Holds rs) : o.tape.Holds [] := by
  induction h with
  | accept hread hend => exact (ht.ends (Tape.ends_read hread)).nil
  | back hread hend => exact (ht.ends (Tape.ends_read hread)).rewind
  | breakOff hread hend => exact (ht.ends (Tape.ends_read hread)).nil
  | take hread hstep hrest ih =>
    obtain ⟨r, -, hr⟩ := Tape.tells_read hread
    have ht' := ht.tells (by simpa using hM.length_lt hP) hr
    exact ih (hM.take hP hstep) ht'.nil
  | probe hread hr hstep hrest ih =>
    obtain ⟨hline, hu⟩ := hM.probe hP hstep
    rw [Tape.shown_eq hline] at hu
    exact ih hu (ht.tells (by simpa using hM.length_lt hP) hr)
  | finish hread hstep | fail hread hstep =>
    obtain ⟨r, -, hr⟩ := Tape.tells_read hread
    exact (ht.tells (by simpa using hM.length_lt hP) hr).nil
  | stop hread hr hstep | refuse hread hr hstep =>
    exact (ht.tells (by simpa using hM.length_lt hP) hr).rewind

/-- Behind a run, what was given back was given back before, or it is at most one character behind
    those that the recognizer read ahead. -/
theorem Drives.chars (h : M.Drives m s rs taken t o) (hM : m.Careful M P)
    (hP : P s (rs.map (·.char))) {g : List Char} (hg : t.Since g rs) :
    o.tape.chars <:+ g ∨
      ∃ s ahead c, P s ahead ∧ c.length ≤ 1 ∧ o.tape.chars = (c ++ ahead).reverse := by
  induction h with
  | accept hread hend | breakOff hread hend =>
    have hends := Tape.ends_read hread
    exact .inl (by simp [Tape.chars, hends.givenBack.2])
  | @back s rs taken t t' r hread hend =>
    have hends := Tape.ends_read hread
    exact .inr ⟨s, rs.map (·.char), [], hP, Nat.zero_le _,
      by simp [Tape.chars, Tape.rewind, hends.givenBack.2]⟩
  | take hread hstep hrest ih =>
    obtain ⟨r, -, hr⟩ := Tape.tells_read hread
    exact ih (hM.take hP hstep) (hg.tells hr).nil
  | probe hread hr hstep hrest ih =>
    obtain ⟨hline, hu⟩ := hM.probe hP hstep
    rw [Tape.shown_eq hline] at hu
    exact ih hu (hg.tells hr)
  | finish hread hstep | fail hread hstep =>
    obtain ⟨r, -, hr⟩ := Tape.tells_read hread
    exact .inl (hg.tells hr).chars
  | @stop s rs taken t t' r x hread hr hstep | @refuse s rs taken t t' r x hread hr hstep =>
    refine (hg.tells hr).rewind.imp_right fun h => ?_
    refine ⟨s, rs.map (·.char), [r.char], hP, Nat.le_refl _, ?_⟩
    exact h

/-- What holds of the verdicts of a recognizer holds on a tape as well. -/
theorem Drives.ensures (h : M.Drives m s rs taken t o) {Q : σ → Prop} {R : ρ → Prop} {E : ε → Prop}
    (hM : M.Ensures Q R E) (hs : Q s) : Verdict.Ensures R E o.verdict := by
  induction h with
  | accept _ hend | back _ hend | breakOff _ hend => exact hM.of_atEnd hs hend
  | take _ hstep _ ih | probe _ _ hstep _ ih => exact ih (hM.of_step hs hstep)
  | finish _ hstep | fail _ hstep => exact hM.of_step hs hstep
  | stop _ _ hstep | refuse _ _ hstep => exact hM.of_step hs hstep

/-- What a run recognizes by its last character was given back nowhere behind. -/
theorem Drives.length_le (h : M.Drives m s rs taken t o) (hM : m.Careful M P)
    (hP : P s (rs.map (·.char))) {Q : ρ → Prop}
    (hstop : ∀ {s ahead c r}, P s ahead → M.step s c = .stop r → Q r)
    (hend : ∀ {s ahead r}, P s ahead → (M.atEnd s = .accept r ∨ M.atEnd s = .back r) → Q r)
    {r : ρ} (hr : o.verdict = .ok r) (hQ : ¬ Q r) :
    o.tape.givenBack.length ≤ t.givenBack.length - 1 := by
  have htells {t t' : Tape} {r : Read} (h : t.Tells r t') :
      t'.givenBack.length ≤ t.givenBack.length - 1 := by
    rcases h.source with ⟨hback, -⟩ | ⟨-, hback, -⟩ <;> simp [hback]
  induction h with
  | accept hread hatEnd =>
    exact absurd (hend hP (.inl hatEnd)) (Except.ok.inj hr ▸ hQ)
  | back hread hatEnd =>
    exact absurd (hend hP (.inr hatEnd)) (Except.ok.inj hr ▸ hQ)
  | take hread hstep hrest ih =>
    obtain ⟨r, -, htold⟩ := Tape.tells_read hread
    exact Nat.le_trans (ih (hM.take hP hstep) hr) (Nat.le_trans (Nat.sub_le _ _) (htells htold))
  | probe hread htold hstep hrest ih =>
    obtain ⟨hline, hu⟩ := hM.probe hP hstep
    rw [Tape.shown_eq hline] at hu
    exact Nat.le_trans (ih hu hr) (Nat.le_trans (Nat.sub_le _ _) (htells htold))
  | finish hread hstep =>
    obtain ⟨r, -, htold⟩ := Tape.tells_read hread
    exact htells htold
  | stop hread htold hstep =>
    exact absurd (hstop hP hstep) (Except.ok.inj hr ▸ hQ)
  | breakOff | fail | refuse => simp at hr

end Recognizer

end ScriptExcerpt
