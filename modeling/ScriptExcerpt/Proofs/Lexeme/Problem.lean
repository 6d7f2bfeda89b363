import ScriptExcerpt.Proofs.Lexeme.Shift

/-!
# Where readers find problems

A problem with a lexeme lies at its start, where its reading broke off, or before the last
character read. In each case a cursor stands there that lies between the start of the lexeme and
the place where the reading goes on (`LexemeReader.Blames`); so the position is one of the script,
on a boundary of its characters.

* `LexemeReader.blames_next`, `LexemeReader.blames_readRegExp`: one call;
* `LexemeReader.Blames.liesIn`: what follows for the problem.
-/

namespace ScriptExcerpt

open Text

/-- The problem lies in the script, not before the offset `start`, and shows the text of the script
    before its position. -/
structure Problem.LiesIn (source : List Char) (start : Nat) (p : Problem) : Prop where
  start_le : start ≤ p.position
  le_length : p.position ≤ byteLength source
  boundary : IsBoundary source p.position
  excerpt : p.excerpt = some (String.ofList (excerptBefore source p.position))

theorem Fault.position_of_opening {f : Fault} (h : f.blame = .opening) (start stop : Nat) :
    f.position start stop = start := by
  rw [position, h]

theorem Fault.position_of_back {f : Fault} {n : Nat} (h : f.blame = .back n) (start stop : Nat) :
    f.position start stop = stop - n := by
  rw [position, h]

namespace LexemeReader

variable {r r' : LexemeReader} {p : Problem} {source : List Char}

/-- The problem `p` was met in the script between the start of the lexeme that `r` read last and its
    cursor. -/
inductive Blames (source : List Char) (r : LexemeReader) : Problem → Prop
  | at {here : Cursor} (cause : Cause) : r.opening.Leads here → here.Leads r.cursor →
    Blames source r (.lexical source cause here.offset)

theorem Blames.liesIn (h : r.Blames source p) (hr : r.opening.StandsIn source) :
    p.LiesIn source r.opening.offset := by
  obtain ⟨cause, hleads, -⟩ := h
  have hhere := hr.leads hleads
  exact ⟨hleads.offset_le, hhere.offset_le, hhere.isBoundary, rfl⟩

/-- The problem of a lexeme lies where it starts, or where the reading broke off. -/
theorem blames_next (h : r.next = (.error p, r')) : r'.Blames r.source p := by
  have hleads := (leads_next h).2
  obtain ⟨c, cs, _, f, -, -, rfl, hl, -, rfl⟩ := next_error h
  rcases blame_lexemeAt hl with hf | hf
  · rw [problem, Fault.position_of_opening hf]
    exact .at f.cause (.refl _) hleads
  · rw [problem, Fault.position_of_back hf, Nat.sub_zero]
    exact .at f.cause hleads (.refl _)

/-- That of a regular expression may also lie before the letter that is no flag. -/
theorem blames_readRegExp {equals : Bool} (h : r.readRegExp equals = (.error p, r'))
    (hr : r.opening.Leads r.cursor) : r'.Blames r.source p := by
  have hleads := r.leads_readRegExp equals
  have hopen := r.opening_readRegExp equals
  rw [h] at hleads hopen
  rw [← hopen] at hr
  obtain ⟨f, ho, hcursor, rfl⟩ := readRegExp_error h
  rcases RegExp.exists_blamed ho with hf | ⟨here, n, hf, hhere, hbehind, hoffset⟩
  · rw [problem, Fault.position_of_opening hf]
    exact .at f.cause (.refl _) (hr.trans hleads)
  · rw [← hcursor] at hbehind hoffset
    rw [problem, Fault.position_of_back hf, ← hoffset, Nat.add_sub_cancel]
    exact .at f.cause (hr.trans hhere) hbehind

end LexemeReader

end ScriptExcerpt
