import ScriptExcerpt.Proofs.Lexeme.Longest

/-!
# Line numbers

A reader counts a line as begun when it looks at the first character on it, and it looks at
characters behind the lexeme that it tells. The count is that of the lines begun before the end
of the lexeme all the same: between that end and the cursor no line ends, and no line is owed.

* `Cursor.Passes.line_look_eq`: on the way over characters that end no line, none is begun;
* `Cursor.Leads.line_look`: all lines begun since the start of the reading;
* `LexemeReader.line_eq_lineEnds`: the count behind a lexeme.
-/

namespace ScriptExcerpt

open Text

theorem Text.lineEndsBehind_eq_zero {cs : List Char} (h : ∀ c ∈ cs, isLineEnd c = false)
    (ret : Bool) : lineEndsBehind ret cs = 0 := by
  induction cs generalizing ret with
  | nil => rfl
  | cons c cs ih =>
    obtain ⟨hc, hcs⟩ := List.forall_mem_cons.1 h
    rw [lineEndsBehind, hc, ih hcs]
    rfl

/-- A text that ends no line begins none. -/
theorem Cursor.Passes.line_look_eq {a b : Cursor} {u : List Char} (h : a.Passes u b)
    (hu : ∀ c ∈ u, isLineEnd c = false) : b.place.look.line = a.place.look.line := by
  rw [h.line_look, lineEndsBehind_eq_zero hu]
  exact UInt32.add_zero _

/-- From the start of the reading on, one line is begun for each line end passed, once the
    character behind it was looked at. The script has no fewer. -/
theorem Cursor.Leads.line_look {source : List Char} {offset : Nat} {cur : Cursor}
    (h : (startingAt source offset).Leads cur) :
    let passed := slice (startingAt source offset).offset cur.offset source
    cur.place.look.line = .ofNat (lineEnds passed) ∧ lineEnds passed ≤ lineEnds source := by
  intro passed
  obtain ⟨u, hu⟩ := h
  have hstands := standsIn_startingAt source offset
  obtain rfl : passed = u := hstands.slice_eq hu
  exact ⟨hu.line_look.trans (UInt32.zero_add _), hstands.lineEnds_le hu⟩

namespace LexemeReader

variable {r r' : LexemeReader} {k : Kind}

/-- Behind a lexeme no line is owed, and no line ended since. -/
theorem line_next (h : r.next = (.ok k, r')) (hend : k ≠ .endOfInput) (hline : k ≠ .lineEnd) :
    ∃ m, r'.opening.Leads m ∧ m.offset = r'.stop ∧ r'.line = m.place.look.line := by
  obtain ⟨-, hreach⟩ := reaches_next h hend hline
  obtain ⟨m, gap, hm, hstop, hgap, hinvisible⟩ := hreach.extent.ends
  refine ⟨m, hm, hstop, ?_⟩
  calc r'.line
    _ = r'.cursor.place.look.line := by rw [hreach.extent.onLine.look_eq, line]
    _ = m.place.look.line :=
      hgap.line_look_eq fun c hc => not_isLineEnd_of_isInvisible (hinvisible c hc)

/-- Wherever a lexeme is read that is neither a line end nor the end of the script, the reader
    counts the line ends of the text from its start up to the end of the lexeme, as long as the
    lines of the script can be counted. -/
theorem line_eq_lineEnds (source : List Char) (offset : Nat) (v : Version) (calls : List Call)
    (hlines : lineCount source < UInt32.size)
    (h : ((startingAt source offset v).afterCalls calls).next.1 = .ok k)
    (hend : k ≠ .endOfInput) (hline : k ≠ .lineEnd) :
    let s := startingAt source offset v
    let r := (s.afterCalls calls).next.2
    r.line.toNat = lineEnds (slice s.cursor.offset r.stop source) := by
  intro s r
  have hn : (s.afterCalls calls).next = (.ok k, r) := Prod.ext h rfl
  obtain ⟨m, hm, hstop, hcount⟩ := line_next hn hend hline
  have hleads : s.cursor.Leads m :=
    ((leads_afterCalls s calls).trans (leads_next hn).1).trans hm
  obtain ⟨hlook, hle⟩ := hleads.line_look
  rw [← hstop, hcount, hlook]
  exact UInt32.toNat_ofNat_of_lt' (Nat.lt_of_le_of_lt (Nat.le_succ_of_le hle) hlines)

/-- The carriage return and newline before the name is one line end, and the count does not go on
    to the next line, though the newline behind the name was looked at. -/
theorem line_behind_return :
    let source := "\r\na\u00ad\nb".toList
    let s := startingAt source 0 .js17
    let r := (s.afterCalls [.next]).next.2
    lineCount source < UInt32.size ∧ (s.afterCalls [.next]).next.1 = .ok .identifier ∧
      r.line.toNat = lineEnds (slice s.cursor.offset r.stop source) ∧ r.line = 1 := by
  intro source s r
  have hlines : lineCount source < UInt32.size := by decide
  have hname : (s.afterCalls [.next]).next.1 = .ok .identifier := by decide +kernel
  exact ⟨hlines, hname,
    line_eq_lineEnds source 0 .js17 [.next] hlines hname (by decide) (by decide),
    by decide +kernel⟩

end LexemeReader

end ScriptExcerpt
