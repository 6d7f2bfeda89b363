import Mathlib.Logic.Function.Iterate
import ScriptExcerpt.Reading.Cursor

/-!
# Tapes

A script can be read without looking ahead, by a reader that gives back what it has read too much.
A tape tells one character after the other, every line end as a newline. It remembers the last three
of them (`recent`), and takes them back, last one first; what was given back is told again before
the script is read on.

A character is given back by the rules of `Tape.objectionsTo`. Against the rules nothing is given
back, and the tape notes the objection.

* `Tape.read`, `Tape.putBack`: what can be done with a tape.
* `Tape.putBackAll_eq`: giving back several characters takes the tape to where it was before them.
* `Tape.Goes`: whatever is done with a tape. Between its offset and the part of the script that was
  not read off lies what was given back (`Goes.balanced`), and what was objected to stays noted
  (`Goes.objections`).
-/

namespace ScriptExcerpt

open Text

/-! ## Feeds -/

/-- The part of a script that was not read off. -/
structure Feed where
  /-- Its text. -/
  rest : List Char
  /-- The number of bytes before it. -/
  reach : Nat
  /-- The number of lines begun before it. -/
  line : UInt32
  /-- The line end that was read off last, until the line behind it is begun. -/
  lineEnd : Option Char

namespace Feed

/-- Begins the line behind the line end that was read off. -/
def beginLine (f : Feed) : Feed :=
  if f.lineEnd.isSome then { f with line := f.line + 1, lineEnd := none } else f

/-- The next character of a text that is not passed over, and the feed behind it. Invisible
    characters are passed over if `skips` holds. If `ignores` holds, nothing is made of the line
    end that was read off before: no line is begun behind it, and no newline completes it. -/
def pullFrom (skips ignores : Bool) (f : Feed) : List Char → Option Char × Feed
  | [] => (none, { f with rest := [] })
  | c :: cs =>
    let behind : Feed := { f with rest := cs, reach := f.reach + c.utf8Size }
    if !ignores && f.lineEnd == some '\r' && c == '\n' then
      pullFrom skips ignores { behind with lineEnd := some '\n' } cs
    else
      let behind := if ignores then behind else behind.beginLine
      if isLineEnd c then (some c, { behind with lineEnd := some c })
      else if skips && isInvisible c then pullFrom skips ignores behind cs
      else (some c, behind)

/-- The next character that is not passed over, and the feed behind it. -/
def pull (skips ignores : Bool) (f : Feed) : Option Char × Feed :=
  f.pullFrom skips ignores f.rest

@[simp]
theorem rest_beginLine (f : Feed) : f.beginLine.rest = f.rest := by
  rw [beginLine]
  split <;> rfl

@[simp]
theorem reach_beginLine (f : Feed) : f.beginLine.reach = f.reach := by
  rw [beginLine]
  split <;> rfl

theorem reach_le_pullFrom (skips ignores : Bool) (f : Feed) (cs : List Char) :
    f.reach ≤ (f.pullFrom skips ignores cs).2.reach := by
  induction cs generalizing f with
  | nil => exact Nat.le_refl _
  | cons c cs ih =>
    have hsize : f.reach ≤ f.reach + c.utf8Size := Nat.le_add_right _ _
    have hbehind (g : Feed) (hg : g.reach = f.reach + c.utf8Size) :
        f.reach ≤ (if ignores then g else g.beginLine).reach := by
      split <;> simp [hg]
    rw [pullFrom]
    split
    · refine Nat.le_trans ?_ (ih _)
      exact hsize
    · simp only
      split
      · exact hbehind _ rfl
      · split
        · exact Nat.le_trans (hbehind _ rfl) (ih _)
        · exact hbehind _ rfl

/-- Only the end of a text is not told. -/
theorem rest_of_pullFrom_none {skips ignores : Bool} {f f' : Feed} {cs : List Char}
    (h : f.pullFrom skips ignores cs = (none, f')) : f'.rest = [] := by
  induction cs generalizing f with
  | nil =>
    obtain ⟨-, rfl⟩ := Prod.mk.inj h
    rfl
  | cons c cs ih =>
    rw [pullFrom] at h
    split at h
    · exact ih h
    · simp only at h
      split at h
      · simp at h
      · split at h
        · exact ih h
        · simp at h

/-- What is told is taken off the text. -/
theorem length_pullFrom_le (skips ignores : Bool) (f : Feed) (cs : List Char) :
    (f.pullFrom skips ignores cs).2.rest.length + (f.pullFrom skips ignores cs).1.toList.length ≤
      cs.length := by
  induction cs generalizing f with
  | nil => exact Nat.le_refl _
  | cons c cs ih =>
    have hbehind (g : Feed) (hg : g.rest = cs) :
        (if ignores then g else g.beginLine).rest = cs := by
      split <;> simp [hg]
    rw [pullFrom]
    split
    · exact Nat.le_succ_of_le (ih _)
    · simp only
      split
      · exact Nat.le_of_eq (congrArg (·.length + 1) (hbehind _ rfl))
      · split
        · exact Nat.le_succ_of_le (ih _)
        · exact Nat.le_of_eq (congrArg (·.length + 1) (hbehind _ rfl))

end Feed

/-! ## Tapes -/

/-- A character that was told. -/
structure Read where
  /-- The character, or a newline for a line end. -/
  char : Char
  /-- The number of bytes that it took: its own, and those of what was passed over. -/
  consumed : Nat
  /-- The number of bytes of the character itself. -/
  width : Nat
deriving DecidableEq

/-- The number of bytes that some characters took. -/
def bytesTaken : List Read → Nat
  | [] => 0
  | r :: rs => r.consumed + bytesTaken rs

@[simp]
theorem bytesTaken_append (rs us : List Read) :
    bytesTaken (rs ++ us) = bytesTaken rs + bytesTaken us := by
  induction rs with
  | nil => exact (Nat.zero_add _).symm
  | cons r rs ih => rw [List.cons_append, bytesTaken, bytesTaken, ih, Nat.add_assoc]

@[simp]
theorem bytesTaken_reverse (rs : List Read) : bytesTaken rs.reverse = bytesTaken rs := by
  induction rs with
  | nil => rfl
  | cons r rs ih =>
    rw [List.reverse_cons, bytesTaken_append, ih, Nat.add_comm]
    rfl

/-- Why a character may not be given back. -/
inductive Objection
  /-- A line end was given back last. -/
  | acrossLineEnd
  /-- Three characters are given back already. -/
  | full
  /-- No character is remembered. -/
  | neverRead
  /-- Another character was told last. -/
  | outOfOrder
  /-- The character took more bytes than lie before the offset. -/
  | beforeStart
deriving DecidableEq

/-- A script that is read, and what was given back of it. -/
structure Tape where
  /-- What was not read off. -/
  feed : Feed
  /-- The number of bytes before the character that is told next. -/
  offset : Nat
  /-- What was given back, the character that is told next first. -/
  givenBack : List Read
  /-- The characters told last and not given back, the last one first. -/
  recent : List Read
  /-- The objections to what was to be given back. -/
  objections : List Objection

namespace Tape

/-- The number of characters that are remembered, and that can be given back. -/
def depth : Nat := 3

/-- The tape of a script that is read from the byte `n` on, or from the last character before it
    if `n` is inside a character or past the end. -/
def startingAt (source : List Char) (n : Nat) : Tape :=
  let offset := byteLength (takeBytes n source)
  ⟨⟨dropBytes n source, offset, 0, none⟩, offset, [], [], []⟩

/-- Passes a character, and remembers it. -/
def pass (r : Read) (t : Tape) : Tape :=
  { t with offset := t.offset + r.consumed, recent := (r :: t.recent).take depth }

/-- How a character is told. -/
def tell (c : Char) : Char :=
  if isLineEnd c then '\n' else c

/-- The next character, if there is one, and the tape behind it. -/
def read (skips ignores : Bool) (t : Tape) : Option Char × Tape :=
  match t.givenBack with
  | r :: rs => (some r.char, { t with givenBack := rs }.pass r)
  | [] =>
    let (c, feed) := t.feed.pull skips ignores
    let consumed := feed.reach - t.feed.reach
    match c with
    | none => (none, { t with feed, offset := t.offset + consumed })
    | some c => (some (tell c), { t with feed }.pass ⟨tell c, consumed, c.utf8Size⟩)

/-- The objections to giving back the character `c`. -/
def objectionsToChar (c : Char) (t : Tape) : List Objection :=
  match t.recent with
  | [] => [.neverRead]
  | r :: _ =>
    (if t.givenBack.length < depth then [] else [.full]) ++
      (if r.char = c then [] else [.outOfOrder]) ++
      (if r.consumed ≤ t.offset then [] else [.beforeStart])

/-- The objections to giving back a character, or the end of the script. Behind a line end nothing
    is given back if it is `guarded`. -/
def objectionsTo (guarded : Bool) (c : Option Char) (t : Tape) : List Objection :=
  (if guarded && t.givenBack.head?.any (·.char == '\n') then [.acrossLineEnd] else []) ++
    c.elim [] t.objectionsToChar

/-- The tape with the character `r` given back, `recent` being told before it. -/
def returned (r : Read) (recent : List Read) (t : Tape) : Tape :=
  { t with offset := t.offset - r.consumed, givenBack := r :: t.givenBack, recent }

/-- Gives back the character `c`, unless there are objections. The end of the script, which is told
    again in any case, is not kept. -/
def putBack (guarded : Bool) (c : Option Char) (t : Tape) : Tape :=
  let objections := t.objectionsTo guarded c
  if objections ≠ [] then { t with objections := t.objections ++ objections }
  else
    match c, t.recent with
    | some _, r :: recent => t.returned r recent
    | _, _ => t

/-- Gives back some characters, the one told last first. -/
def putBackAll (guarded : Bool) (cs : List Char) (t : Tape) : Tape :=
  cs.foldl (fun t c => t.putBack guarded (some c)) t

/-- The number of characters that can still be told. -/
def left (t : Tape) : Nat := t.givenBack.length + t.feed.rest.length

/-- The characters that were given back. -/
def chars (t : Tape) : List Char := t.givenBack.map (·.char)

/-! ### Reading -/

variable {t t' : Tape} {skips ignores guarded : Bool} {c : Char} {r : Read} {rs : List Read}

/-- The character `r` was told. It was given back before, or it comes from the script. -/
structure Tells (t : Tape) (r : Read) (t' : Tape) : Prop where
  offset : t'.offset = t.offset + r.consumed
  recent : t'.recent = (r :: t.recent).take depth
  objections : t'.objections = t.objections
  source : (t.givenBack = r :: t'.givenBack ∧ t'.feed = t.feed) ∨
    (t.givenBack = [] ∧ t'.givenBack = [] ∧ t'.feed.reach = t.feed.reach + r.consumed)

theorem tells_read (h : t.read skips ignores = (some c, t')) : ∃ r, r.char = c ∧ t.Tells r t' := by
  rw [read] at h
  split at h
  · next r rs hback =>
    obtain ⟨hc, rfl⟩ := Prod.mk.inj h
    exact ⟨r, Option.some.inj hc, ⟨rfl, rfl, rfl, .inl ⟨hback, rfl⟩⟩⟩
  · next hback =>
    rcases hp : t.feed.pull skips ignores with ⟨d, feed⟩
    have hreach : t.feed.reach ≤ feed.reach := by
      have := t.feed.reach_le_pullFrom skips ignores t.feed.rest
      rwa [← Feed.pull, hp] at this
    rw [hp] at h
    cases d with
    | none => simp at h
    | some d =>
      obtain ⟨hc, rfl⟩ := Prod.mk.inj h
      exact ⟨_, Option.some.inj hc, ⟨rfl, rfl, rfl,
        .inr ⟨hback, hback, (Nat.add_sub_cancel' hreach).symm⟩⟩⟩

/-- What is told is taken off the tape. -/
theorem left_read_le (skips ignores : Bool) (t : Tape) :
    (t.read skips ignores).2.left + (t.read skips ignores).1.toList.length ≤ t.left := by
  rw [read]
  split
  · next r rs hback =>
    simp only [left, pass, hback, List.length_cons, Option.toList_some, List.length_nil]
    omega
  · next hback =>
    have hlength := t.feed.length_pullFrom_le skips ignores t.feed.rest
    rw [← Feed.pull] at hlength
    rcases hp : t.feed.pull skips ignores with ⟨_ | c, feed⟩ <;>
      simpa [hp, left, pass, hback] using hlength

/-- The end of the script was told, with what was passed over before it. -/
structure Ends (t t' : Tape) : Prop where
  passed : ∃ n, t'.offset = t.offset + n ∧ t'.feed.reach = t.feed.reach + n
  recent : t'.recent = t.recent
  objections : t'.objections = t.objections
  givenBack : t.givenBack = [] ∧ t'.givenBack = []
  rest : t'.feed.rest = []

theorem ends_read (h : t.read skips ignores = (none, t')) : t.Ends t' := by
  rw [read] at h
  split at h
  · simp at h
  · next hback =>
    rcases hp : t.feed.pull skips ignores with ⟨d, feed⟩
    have hreach : t.feed.reach ≤ feed.reach := by
      have := t.feed.reach_le_pullFrom skips ignores t.feed.rest
      rwa [← Feed.pull, hp] at this
    rw [hp] at h
    cases d with
    | some d => simp at h
    | none =>
      obtain ⟨-, rfl⟩ := Prod.mk.inj h
      exact ⟨⟨_, rfl, (Nat.add_sub_cancel' hreach).symm⟩, rfl, rfl, ⟨hback, hback⟩,
        Feed.rest_of_pullFrom_none hp⟩

/-- The end of the script is told again. -/
theorem Ends.read (h : t.Ends t') : t'.read skips ignores = (none, t') := by
  obtain ⟨⟨rest, reach, line, lineEnd⟩, offset, givenBack, recent, objections⟩ := t'
  obtain rfl : rest = [] := h.rest
  obtain rfl : givenBack = [] := h.givenBack.2
  simp [Tape.read, Feed.pull, Feed.pullFrom]

/-! ### Balance -/

/-- What lies between the offset and what was not read off was given back, what is remembered lies
    before the offset, and of neither is there too much. -/
structure Balanced (t : Tape) : Prop where
  reach : t.feed.reach = t.offset + bytesTaken t.givenBack
  recent : bytesTaken t.recent ≤ t.offset
  length_givenBack : t.givenBack.length ≤ depth
  length_recent : t.recent.length ≤ depth

theorem balanced_startingAt (source : List Char) (n : Nat) : (startingAt source n).Balanced :=
  ⟨rfl, Nat.zero_le _, Nat.zero_le _, Nat.zero_le _⟩

theorem Balanced.tells (ht : t.Balanced) (h : t.Tells r t') : t'.Balanced where
  reach := by
    have hreach := ht.reach
    rcases h.source with ⟨hback, hfeed⟩ | ⟨hback, hback', hfeed⟩
    · rw [hback, bytesTaken] at hreach
      rw [hfeed, h.offset, hreach, Nat.add_assoc]
    · rw [hback] at hreach
      rw [hfeed, hreach, hback', h.offset]
      rfl
  recent := by
    have hsum : bytesTaken (r :: t.recent) ≤ t'.offset := by
      rw [bytesTaken, h.offset, Nat.add_comm]
      exact Nat.add_le_add_right ht.recent _
    rw [← List.take_append_drop depth (r :: t.recent), bytesTaken_append] at hsum
    rw [h.recent]
    exact Nat.le_of_add_right_le hsum
  length_givenBack := by
    have hlength := ht.length_givenBack
    rcases h.source with ⟨hback, -⟩ | ⟨-, hback', -⟩
    · rw [hback, List.length_cons] at hlength
      exact Nat.le_of_succ_le hlength
    · rw [hback']
      exact Nat.zero_le _
  length_recent := by
    rw [h.recent]
    exact List.length_take_le ..

theorem Balanced.ends (ht : t.Balanced) (h : t.Ends t') : t'.Balanced := by
  obtain ⟨n, hoffset, hreach⟩ := h.passed
  refine ⟨?_, ?_, ?_, h.recent ▸ ht.length_recent⟩
  · have := ht.reach
    rw [h.givenBack.1] at this
    rw [hreach, this, hoffset, h.givenBack.2]
    rfl
  · rw [h.recent, hoffset]
    exact Nat.le_add_right_of_le ht.recent
  · rw [h.givenBack.2]
    exact Nat.zero_le _

/-- Whatever is read, a tape stays balanced. -/
theorem Balanced.read (ht : t.Balanced) (skips ignores : Bool) :
    (t.read skips ignores).2.Balanced := by
  rcases h : t.read skips ignores with ⟨_ | c, t'⟩
  · exact ht.ends (ends_read h)
  · obtain ⟨r, -, hr⟩ := tells_read h
    exact ht.tells hr

/-! ### Giving back -/

theorem Balanced.returned (ht : t.Balanced) (hrecent : t.recent = r :: rs)
    (hlength : t.givenBack.length < depth) : (t.returned r rs).Balanced := by
  have hsum := ht.recent
  have hlength' := ht.length_recent
  rw [hrecent] at hsum hlength'
  rw [bytesTaken] at hsum
  refine ⟨?_, ?_, hlength, Nat.le_of_succ_le hlength'⟩
  · have hreach := ht.reach
    simp only [Tape.returned, bytesTaken]
    omega
  · simp only [Tape.returned]
    omega

/-- What there is no objection to. -/
theorem objectionsTo_eq_nil_iff : t.objectionsTo guarded (some c) = [] ↔
    (guarded → ∀ r ∈ t.givenBack.head?, r.char ≠ '\n') ∧ t.givenBack.length < depth ∧
      ∃ r rs, t.recent = r :: rs ∧ r.char = c ∧ r.consumed ≤ t.offset := by
  have hline : (if guarded && t.givenBack.head?.any (·.char == '\n') then
        [Objection.acrossLineEnd] else []) = [] ↔
      (guarded → ∀ r ∈ t.givenBack.head?, r.char ≠ '\n') := by
    cases guarded <;> cases t.givenBack <;> simp
  have hchar : t.objectionsToChar c = [] ↔ t.givenBack.length < depth ∧
      ∃ r rs, t.recent = r :: rs ∧ r.char = c ∧ r.consumed ≤ t.offset := by
    rw [objectionsToChar]
    split
    · next hrecent => simp [hrecent]
    · next r rs hrecent => simp [hrecent, and_assoc]
  rw [objectionsTo, List.append_eq_nil_iff, hline, ← hchar]
  rfl

theorem left_putBack_le (guarded : Bool) (c : Option Char) (t : Tape) :
    (t.putBack guarded c).left ≤ t.left + c.toList.length := by
  unfold putBack
  dsimp only
  split
  · exact Nat.le_add_right _ _
  · split
    · simp [left, returned]
      omega
    · exact Nat.le_add_right _ _

/-- Reading does not undo an objection. -/
theorem objections_read (skips ignores : Bool) (t : Tape) :
    (t.read skips ignores).2.objections = t.objections := by
  rcases h : t.read skips ignores with ⟨_ | c, t'⟩
  · exact (ends_read h).objections
  · obtain ⟨r, -, hr⟩ := tells_read h
    exact hr.objections

/-- Nor does giving back. -/
theorem prefix_objections_putBack (guarded : Bool) (c : Option Char) (t : Tape) :
    t.objections <+: (t.putBack guarded c).objections := by
  unfold putBack
  dsimp only
  split
  · exact List.prefix_append _ _
  · split <;> exact List.prefix_refl _

/-- Whatever is given back, a tape stays balanced. -/
theorem Balanced.putBack (ht : t.Balanced) (guarded : Bool) (c : Option Char) :
    (t.putBack guarded c).Balanced := by
  unfold Tape.putBack
  dsimp only
  split
  · exact ⟨ht.reach, ht.recent, ht.length_givenBack, ht.length_recent⟩
  · next h =>
    split
    · next r recent hrecent =>
      have hnil := objectionsTo_eq_nil_iff.1 (Decidable.not_not.1 h)
      exact ht.returned hrecent hnil.2.1
    · exact ht

/-- A character that was told can be given back. -/
theorem putBack_eq (ht : t.Balanced) (hrecent : t.recent = r :: rs)
    (hlength : t.givenBack.length < depth)
    (hguard : guarded → ∀ r ∈ t.givenBack.head?, r.char ≠ '\n') :
    t.putBack guarded (some r.char) = t.returned r rs := by
  have hconsumed : r.consumed ≤ t.offset := by
    have hsum := ht.recent
    rw [hrecent, bytesTaken] at hsum
    exact Nat.le_of_add_right_le hsum
  have hnil := objectionsTo_eq_nil_iff.2 ⟨hguard, hlength, r, rs, hrecent, rfl, hconsumed⟩
  unfold putBack
  simp only [hnil, hrecent]
  rfl

/-- Nothing is to be done to give back the end of the script. -/
theorem Ends.putBack (h : t.Ends t') (guarded : Bool) : t'.putBack guarded none = t' := by
  have hnil : t'.objectionsTo guarded none = [] := by
    simp [objectionsTo, h.givenBack.2]
  unfold Tape.putBack
  simp only [hnil]
  rfl

/-- The tape before the characters `rs`, the last one first, were told. -/
def rewind (rs : List Read) (t : Tape) : Tape :=
  { t with
    offset := t.offset - bytesTaken rs
    givenBack := rs.reverse ++ t.givenBack
    recent := t.recent.drop rs.length }

theorem rewind_cons {recent : List Read} (h : t.recent = r :: recent) (rs : List Read) :
    t.rewind (r :: rs) = (t.returned r recent).rewind rs := by
  simp [rewind, returned, h, bytesTaken, Nat.sub_sub]

/-- Characters that were told can be given back, with no line end but the one that was told
    first. -/
theorem putBackAll_eq (ht : t.Balanced) (hrecent : rs <+: t.recent)
    (hlength : rs.length + t.givenBack.length ≤ depth)
    (hguard : guarded → rs ≠ [] →
      (∀ r ∈ t.givenBack.head?, r.char ≠ '\n') ∧ ∀ r ∈ rs.dropLast, r.char ≠ '\n') :
    t.putBackAll guarded (rs.map (·.char)) = t.rewind rs := by
  induction rs generalizing t with
  | nil => simp [putBackAll, rewind, bytesTaken]
  | cons r rs ih =>
    obtain ⟨older, holder⟩ := hrecent
    have hr : t.recent = r :: (rs ++ older) := holder.symm
    have hfull : t.givenBack.length < depth := by
      rw [List.length_cons] at hlength
      omega
    have hput := putBack_eq ht hr hfull fun hg => (hguard hg (List.cons_ne_nil _ _)).1
    rw [rewind_cons hr, ← ih (ht.returned hr hfull) ⟨older, rfl⟩, putBackAll, List.map_cons,
      List.foldl_cons, hput]
    · rfl
    · rw [List.length_cons] at hlength
      simp only [returned, List.length_cons]
      omega
    · intro hg hrs
      obtain ⟨r', rs, rfl⟩ := List.exists_cons_of_ne_nil hrs
      simpa [returned] using (hguard hg (List.cons_ne_nil _ _)).2

/-! ### Whatever is done with a tape -/

/-- Reading the tape `t` and giving back, any number of times and in any order, leads to the tape
    that is told. -/
inductive Goes (t : Tape) : Tape → Prop
  | refl : Goes t t
  | read {t' : Tape} (skips ignores : Bool) : Goes t t' → Goes t (t'.read skips ignores).2
  | putBack {t' : Tape} (guarded : Bool) (c : Option Char) :
    Goes t t' → Goes t (t'.putBack guarded c)

theorem goes_read (t : Tape) (skips ignores : Bool) : t.Goes (t.read skips ignores).2 :=
  .read _ _ .refl

theorem goes_putBack (t : Tape) (guarded : Bool) (c : Option Char) :
    t.Goes (t.putBack guarded c) :=
  .putBack _ _ .refl

namespace Goes

variable {t'' : Tape}

theorem trans (h : t.Goes t') (h' : t'.Goes t'') : t.Goes t'' := by
  induction h' with
  | refl => exact h
  | read skips ignores _ ih => exact .read skips ignores ih
  | putBack guarded c _ ih => exact .putBack guarded c ih

/-- A tape stays balanced. -/
theorem balanced (h : t.Goes t') (ht : t.Balanced) : t'.Balanced := by
  induction h with
  | refl => exact ht
  | read skips ignores _ ih => exact ih.read skips ignores
  | putBack guarded c _ ih => exact ih.putBack guarded c

/-- What was objected to stays noted. -/
theorem objections (h : t.Goes t') : t.objections <+: t'.objections := by
  induction h with
  | refl => exact List.prefix_refl _
  | @read t' skips ignores _ ih =>
    rw [objections_read]
    exact ih
  | @putBack t' guarded c _ ih => exact ih.trans (t'.prefix_objections_putBack guarded c)

/-- What goes from tape to tape still does if it is done over and over. -/
theorem iterate {α : Type} {f : α → α} {tape : α → Tape} (h : ∀ a, (tape a).Goes (tape (f a)))
    (n : Nat) (a : α) : (tape a).Goes (tape (f^[n] a)) := by
  induction n generalizing a with
  | zero => exact .refl
  | succ n ih => exact (h a).trans (ih (f a))

end Goes

theorem goes_putBackAll (t : Tape) (guarded : Bool) (cs : List Char) :
    t.Goes (t.putBackAll guarded cs) := by
  induction cs generalizing t with
  | nil => exact .refl
  | cons c cs ih => exact (t.goes_putBack guarded (some c)).trans (ih _)

end Tape

end ScriptExcerpt
