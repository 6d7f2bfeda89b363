import ScriptExcerpt.Proofs.Reading

/-!
# Places in a script

The offset of a cursor is the number of bytes before it, and its line the number
of lines begun. Both are read off the text that was passed:

* `Cursor.StandsIn`: the cursor stands in a script, and counts its offset there;
  `Cursor.StandsIn.slice_eq` finds the text between two such cursors.
* `Place.line_look_through`: the lines that a text begins are its line ends.
* `Cursor.Passes.line_ne_iff`: two cursors stand on different lines exactly if a
  line ends between them, as long as the count of lines does not overflow.
-/

namespace ScriptExcerpt

open Text

/-! ## Line ends -/

namespace Text

/-- The number of line ends in a text. Behind a carriage return, a newline at the
    start of the text belongs to the line end before it. -/
def lineEndsBehind (afterReturn : Bool) : List Char → Nat
  | [] => 0
  | c :: cs =>
    (if isLineEnd c && !(afterReturn && c == '\n') then 1 else 0) + lineEndsBehind (c == '\r') cs

/-- The number of line ends in a text; a carriage return and newline is one. -/
def lineEnds (cs : List Char) : Nat := lineEndsBehind false cs

/-- The number of lines of a text. -/
def lineCount (cs : List Char) : Nat := lineEnds cs + 1

theorem lineEndsBehind_le_append (ret : Bool) (a b : List Char) :
    lineEndsBehind ret a ≤ lineEndsBehind ret (a ++ b) := by
  induction a generalizing ret with
  | nil => exact Nat.zero_le _
  | cons c a ih => exact Nat.add_le_add_left (ih _) _

/-- What stands before a text takes at most one line end from it. -/
theorem lineEnds_le_append (ret : Bool) (a b : List Char) :
    lineEnds b ≤ lineEndsBehind ret (a ++ b) + ret.toNat := by
  induction a generalizing ret with
  | nil =>
    cases b with
    | nil => exact Nat.zero_le _
    | cons c b =>
      rw [List.nil_append, lineEnds, lineEndsBehind, lineEndsBehind]
      cases ret with
      | false => simp
      | true => split <;> simp <;> omega
  | cons c a ih =>
    have h := ih (c == '\r')
    rw [List.cons_append, lineEndsBehind]
    -- The one that a carriage return may take was counted for the return.
    by_cases hc : (c == '\r') = true
    · obtain rfl := beq_iff_eq.1 hc
      have hreturn : isLineEnd '\r' = true := rfl
      simp only [hreturn, beq_self_eq_true, Bool.toNat_true] at h ⊢
      simp
      omega
    · rw [Bool.not_eq_true] at hc
      rw [hc] at h ⊢
      simp only [Bool.toNat_false, Nat.add_zero] at h
      omega

/-- A part of a text has no more line ends than the text. -/
theorem lineEnds_infix_le (a b c : List Char) : lineEnds b ≤ lineEnds (a ++ (b ++ c)) :=
  Nat.le_trans (lineEndsBehind_le_append false b c) (lineEnds_le_append false a (b ++ c))

/-- A text without line ends is one whose characters end no line. -/
theorem lineEnds_eq_zero_iff (cs : List Char) :
    lineEnds cs = 0 ↔ ∀ c ∈ cs, isLineEnd c = false := by
  induction cs with
  | nil => simp [lineEnds, lineEndsBehind]
  | cons c cs ih =>
    rw [lineEnds, lineEndsBehind, List.forall_mem_cons]
    cases hc : isLineEnd c with
    | true => simp
    | false =>
      rw [ne_return_of_not_isLineEnd hc, ← ih]
      simp [lineEnds]

end Text

/-! ## Lines -/

namespace Place

/-- The character before the place ends no line. -/
structure OnLine (p : Place) : Prop where
  owed : p.owed = false
  afterReturn : p.afterReturn = false

theorem onLine_past (p : Place) {c : Char} (h : isLineEnd c = false) : (p.past c).OnLine :=
  ⟨h, ne_return_of_not_isLineEnd h⟩

theorem OnLine.not_completes {p : Place} (h : p.OnLine) (c : Char) : ¬ p.completes c :=
  not_completes_of_afterReturn h.afterReturn c

theorem OnLine.look_eq {p : Place} (h : p.OnLine) : p.look = p := by
  obtain ⟨offset, line, owed, ret⟩ := p
  obtain rfl : owed = false := h.owed
  rfl

theorem line_look_complete (p : Place) : p.complete.look.line = p.look.line := rfl

/-- A line end begins the next line as soon as the character behind it is looked
    at. -/
theorem line_look_past (p : Place) (c : Char) :
    (p.past c).look.line = p.look.line + if isLineEnd c then 1 else 0 := by
  change (if isLineEnd c then p.look.line + 1 else p.look.line) = _
  split
  · rfl
  · exact (UInt32.add_zero _).symm

/-- A text begins as many lines as it has line ends. -/
theorem line_look_through (p : Place) (cs : List Char) :
    (p.through cs).look.line = p.look.line + UInt32.ofNat (lineEndsBehind p.afterReturn cs) := by
  induction cs generalizing p with
  | nil => exact (UInt32.add_zero _).symm
  | cons c cs ih =>
    rw [through, ih, lineEndsBehind, UInt32.ofNat_add, ← UInt32.add_assoc]
    by_cases h : p.completes c
    · -- The newline belongs to the line end before it.
      obtain ⟨hret, rfl⟩ := eq_newline_of_completes h
      rw [if_pos h, line_look_complete, hret]
      exact congrArg (· + _) (UInt32.add_zero _).symm
    · have hc : (p.afterReturn && c == '\n') = false := by simpa [completes] using h
      rw [if_neg h, line_look_past, hc, Bool.not_false, Bool.and_true]
      split <;> rfl

end Place

namespace Cursor

variable {source u : List Char} {a b : Cursor}

/-- The line of a cursor behind a text. -/
theorem Passes.line_look (h : a.Passes u b) :
    b.place.look.line =
      a.place.look.line + UInt32.ofNat (lineEndsBehind a.place.afterReturn u) := by
  rw [h.2, Place.line_look_through]

/-- As long as the lines can be counted, a cursor stands on another line exactly
    if a line ended on the way to it. -/
theorem Passes.line_ne_iff (h : a.Passes u b) (ha : a.place.OnLine) (hb : b.place.look = b.place)
    (hu : lineEnds u < UInt32.size) : a.place.line ≠ b.place.line ↔ ∃ c ∈ u, isLineEnd c := by
  have hline := h.line_look
  rw [hb, ha.look_eq, ha.afterReturn] at hline
  have hzero : (UInt32.ofNat (lineEnds u) = 0) ↔ lineEnds u = 0 := by
    rw [← UInt32.toNat_inj, UInt32.toNat_ofNat_of_lt' hu]
    rfl
  have hnone : a.place.line = b.place.line ↔ ∀ c ∈ u, isLineEnd c = false := by
    rw [← lineEnds_eq_zero_iff, ← hzero, hline, eq_comm]
    exact UInt32.add_eq_left
  simp [hnone]

/-! ## Offsets -/

/-- The cursor stands in the script, and its offset counts from there on. -/
def StandsIn (source : List Char) (cur : Cursor) : Prop :=
  ∃ before, source = before ++ cur.rest ∧ cur.offset = byteLength before

theorem standsIn_startingAt (source : List Char) (n : Nat) :
    (startingAt source n).StandsIn source :=
  ⟨takeBytes n source, (takeBytes_append_dropBytes n source).symm, rfl⟩

theorem StandsIn.passes (ha : a.StandsIn source) (h : a.Passes u b) : b.StandsIn source := by
  obtain ⟨before, hsource, ho⟩ := ha
  refine ⟨before ++ u, by rw [hsource, h.1, List.append_assoc], ?_⟩
  rw [h.offset_eq, ho, byteLength_append]

theorem StandsIn.leads (ha : a.StandsIn source) (h : a.Leads b) : b.StandsIn source := by
  obtain ⟨u, hu⟩ := h
  exact ha.passes hu

theorem StandsIn.offset_eq_of_rest_nil (ha : a.StandsIn source) (h : a.rest = []) :
    a.offset = byteLength source := by
  obtain ⟨before, hsource, ho⟩ := ha
  rw [ho, hsource, h, List.append_nil]

theorem StandsIn.offset_add_rest (ha : a.StandsIn source) :
    a.offset + byteLength a.rest = byteLength source := by
  obtain ⟨before, hsource, ho⟩ := ha
  rw [ho, hsource, byteLength_append]

theorem StandsIn.offset_le (ha : a.StandsIn source) : a.offset ≤ byteLength source := by
  rw [← ha.offset_add_rest]
  exact Nat.le_add_right _ _

/-- What is left of the script behind the cursor. -/
theorem StandsIn.dropBytes_eq (ha : a.StandsIn source) : dropBytes a.offset source = a.rest := by
  obtain ⟨before, hsource, ho⟩ := ha
  rw [ho, hsource, dropBytes_append]

/-- What stands before a cursor stands before the ones behind it. -/
theorem StandsIn.takeBytes_eq (ha : a.StandsIn source) (h : a.Passes u b) :
    takeBytes b.offset source = takeBytes a.offset source ++ u := by
  obtain ⟨before, hsource, ho⟩ := ha
  rw [h.offset_eq, ho, hsource, takeBytes_append, h.1, ← byteLength_append, ← List.append_assoc,
    takeBytes_append]

/-- The text of the script between two cursors. -/
theorem StandsIn.slice_eq (ha : a.StandsIn source) (h : a.Passes u b) :
    slice a.offset b.offset source = u := by
  obtain ⟨before, hsource, ho⟩ := ha
  rw [h.offset_eq, ho, hsource, h.1, slice_append]

/-- A part of a script that is passed has no more line ends than the script. -/
theorem StandsIn.lineEnds_le (ha : a.StandsIn source) (h : a.Passes u b) :
    lineEnds u ≤ lineEnds source := by
  obtain ⟨before, hsource, -⟩ := ha
  rw [hsource, h.1]
  exact lineEnds_infix_le ..

end Cursor

/-- No character of the script has a part on both sides of the offset. -/
def Text.IsBoundary (source : List Char) (n : Nat) : Prop :=
  ∃ before, before <+: source ∧ byteLength before = n

theorem Cursor.StandsIn.isBoundary {source : List Char} {cur : Cursor}
    (h : cur.StandsIn source) : IsBoundary source cur.offset := by
  obtain ⟨before, rfl, ho⟩ := h
  exact ⟨before, List.prefix_append .., ho.symm⟩

end ScriptExcerpt
