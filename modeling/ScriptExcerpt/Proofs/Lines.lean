import ScriptExcerpt.Proofs.Text
import ScriptExcerpt.Report

/-!
# Lines of a script

A newline ends a line and belongs to it; behind the last newline the script may go on with a line
that has none. There is one way to divide a script so (`Text.isLines_iff`), and every position falls
into one of the lines. A position at the end of the script, or past it, belongs to the last one.

* `Text.lineAt_of_hasLine`: the number, the text and the column of a position in a line;
* `Text.lineAt_located`: what is told of any position of any script.
-/

namespace ScriptExcerpt.Text

/-- The script has the given lines: each is ended by its only newline, the last one perhaps by the
    end of the script. -/
inductive IsLines : List Char → List (List Char) → Prop
  | nil : IsLines [] []
  | last {l : List Char} : l ≠ [] → '\n' ∉ l → IsLines l [l]
  | cons {l cs : List Char} {ls : List (List Char)} : '\n' ∉ l → IsLines cs ls →
    IsLines (l ++ '\n' :: cs) ((l ++ ['\n']) :: ls)

/-- The line `line` of the script stands behind the lines `above` and before the lines `below`. An
    empty script has a line, too, which is empty. -/
inductive HasLine : List Char → List (List Char) → List Char → List (List Char) → Prop
  | line {source line : List Char} {above below : List (List Char)} :
    IsLines source (above ++ line :: below) → HasLine source above line below
  | empty : HasLine [] [] [] []

variable {source l line cs : List Char} {ls above below : List (List Char)} {position : Nat}

/-! ## The lines of a text -/

/-- A text without a newline is one line. -/
theorem lines_last (hne : l ≠ []) (hl : '\n' ∉ l) : lines l = [l] := by
  induction l with
  | nil => exact absurd rfl hne
  | cons c l ih =>
    rw [lines, if_neg (Ne.symm (List.ne_of_not_mem_cons hl))]
    cases l with
    | nil => rfl
    | cons d l => rw [ih (List.cons_ne_nil d l) (List.not_mem_of_not_mem_cons hl)]

/-- The first newline ends the first line. -/
theorem lines_append (hl : '\n' ∉ l) (cs : List Char) :
    lines (l ++ '\n' :: cs) = (l ++ ['\n']) :: lines cs := by
  induction l with
  | nil => rfl
  | cons c l ih =>
    rw [List.cons_append, lines, if_neg (Ne.symm (List.ne_of_not_mem_cons hl)),
      ih (List.not_mem_of_not_mem_cons hl)]
    rfl

theorem isLines_lines (cs : List Char) : IsLines cs (lines cs) := by
  induction cs with
  | nil => exact .nil
  | cons c cs ih =>
    rw [lines]
    split
    · next hc =>
      subst hc
      exact .cons (l := []) List.not_mem_nil ih
    · next hc =>
      have hc : '\n' ∉ [c] := by simpa using Ne.symm hc
      -- The character belongs to the first line of the others, if there is one.
      generalize lines cs = ls at ih
      cases ih with
      | nil => exact .last (List.cons_ne_nil c []) hc
      | last _ hl => exact .last (List.cons_ne_nil _ _) (List.not_mem_append hc hl)
      | cons hl h => exact .cons (List.not_mem_append hc hl) h

/-- A script is divided into lines in one way. -/
theorem isLines_iff : IsLines source ls ↔ lines source = ls := by
  constructor
  · intro h
    induction h with
    | nil => rfl
    | last hne hl => exact lines_last hne hl
    | cons hl _ ih => rw [lines_append hl, ih]
  · rintro rfl
    exact isLines_lines source

theorem IsLines.flatten_eq (h : IsLines source ls) : ls.flatten = source := by
  induction h with
  | nil => rfl
  | last => simp
  | cons _ _ ih => simp [ih]

/-- A line before the last one ends with a newline. -/
theorem IsLines.getLast? (h : IsLines source (above ++ line :: below)) (hbelow : below ≠ []) :
    line.getLast? = some '\n' := by
  generalize hls : above ++ line :: below = ls at h
  induction h generalizing above with
  | nil => simp at hls
  | last =>
    cases above with
    | nil => exact absurd (List.cons.inj hls).2 hbelow
    | cons a above => simp at hls
  | cons _ _ ih =>
    cases above with
    | nil =>
      obtain rfl := (List.cons.inj hls).1
      exact List.getLast?_concat ..
    | cons a above => exact ih (List.cons.inj hls).2

/-- A line that is not the last one has a newline. -/
theorem HasLine.newline_mem (h : HasLine source above line below) (hbelow : below ≠ []) :
    '\n' ∈ line := by
  cases h with
  | line h => exact List.mem_of_getLast? (h.getLast? hbelow)
  | empty => exact absurd rfl hbelow

/-- No newline stands within a line. -/
theorem IsLines.not_mem_dropLast (h : IsLines source ls) (hl : l ∈ ls) : '\n' ∉ l.dropLast := by
  induction h with
  | nil => simp at hl
  | last _ hn =>
    obtain rfl := List.mem_singleton.1 hl
    exact fun hmem => hn (List.dropLast_subset _ hmem)
  | cons hn _ ih =>
    rcases List.mem_cons.1 hl with rfl | hl
    · rwa [List.dropLast_concat]
    · exact ih hl

/-! ## The line of a position -/

theorem byteLength_flatten_append (above below : List (List Char)) (line : List Char) :
    byteLength (above ++ line :: below).flatten =
      byteLength above.flatten + byteLength line + byteLength below.flatten := by
  rw [List.flatten_append, List.flatten_cons, byteLength_append, byteLength_append, Nat.add_assoc]

/-- The lines above a position are counted, and their bytes are left out. -/
theorem lineAmong_append (number : Nat) (hle : byteLength above.flatten ≤ position)
    (hlt : position < byteLength above.flatten + byteLength line ∨ below = []) :
    lineAmong number position (above ++ line :: below) =
      (number + above.length, line,
        min (position - byteLength above.flatten) (byteLength line)) := by
  induction above generalizing number position with
  | nil =>
    simp only [List.flatten_nil, byteLength, Nat.zero_add] at hlt
    cases below with
    | nil => rfl
    | cons l below =>
      have hlt := hlt.resolve_right (List.cons_ne_nil l below)
      rw [List.nil_append, lineAmong, if_pos hlt]
      simp only [List.flatten_nil, byteLength, Nat.sub_zero, Nat.min_eq_left (Nat.le_of_lt hlt)]
      rfl
  | cons a above ih =>
    rw [List.flatten_cons, byteLength_append] at hle hlt ⊢
    obtain ⟨m, ls, hcons⟩ : ∃ m ls, above ++ line :: below = m :: ls :=
      List.exists_cons_of_ne_nil (by simp)
    rw [List.cons_append, hcons, lineAmong, if_neg (by omega), ← hcons, ih _ (by omega)
      (hlt.imp_left fun h => by omega), List.length_cons, Nat.sub_sub]
    simp only [Nat.add_assoc, Nat.add_comm 1]

/-- A position falls into one of the lines, or lies behind the last one. -/
theorem exists_line (hne : ls ≠ []) (position : Nat) : ∃ above line below,
    ls = above ++ line :: below ∧ byteLength above.flatten ≤ position ∧
      (position < byteLength above.flatten + byteLength line ∨ below = []) := by
  induction ls generalizing position with
  | nil => exact absurd rfl hne
  | cons l ls ih =>
    by_cases hhere : position < byteLength l ∨ ls = []
    · exact ⟨[], l, ls, rfl, Nat.zero_le _, by simpa [byteLength] using hhere⟩
    · rw [not_or, Nat.not_lt] at hhere
      obtain ⟨above, line, below, rfl, hle, hlt⟩ := ih hhere.2 (position - byteLength l)
      refine ⟨l :: above, line, below, rfl, ?_, ?_⟩
      · rw [List.flatten_cons, byteLength_append]
        omega
      · rw [List.flatten_cons, byteLength_append]
        exact hlt.imp_left fun h => by omega

/-- What is told of a position in a line. -/
theorem lineAt_of_hasLine (h : HasLine source above line below)
    (hle : byteLength above.flatten ≤ position)
    (hlt : position < byteLength above.flatten + byteLength line ∨ below = []) :
    lineAt source position = (above.length + 1, line,
      min (position - byteLength above.flatten) (byteLength line)) := by
  cases h with
  | line h => rw [lineAt, isLines_iff.1 h, lineAmong_append 1 hle hlt, Nat.add_comm]
  | empty => exact congrArg (1, [], ·) (Nat.min_zero _).symm

/-- Of any position of a script that has lines, the number of one of them is told, its text, and how
    far into that text the position lies; behind the end of the script, the last line and its end.
    Of an empty script, an empty first line is told. -/
theorem lineAt_located (source : List Char) (position : Nat) :
    ∃ ls, (∀ ls', IsLines source ls' ↔ ls' = ls) ∧
      (source = [] → lineAt source position = (1, [], 0)) ∧
      (source ≠ [] → ∃ above line below column, ls = above ++ line :: below ∧
        lineAt source position = (above.length + 1, line, column) ∧
        byteLength above.flatten + column = min position (byteLength source) ∧
        (position < byteLength source → column < byteLength line) ∧
        (byteLength source ≤ position → below = [])) := by
  refine ⟨lines source, fun ls => by rw [isLines_iff, eq_comm], fun hnil => ?_, fun hne => ?_⟩
  · rw [hnil]
    rfl
  · have hlines := isLines_lines source
    have hflatten := hlines.flatten_eq
    have hsome : lines source ≠ [] := fun hnil => hne (by rw [← hflatten, hnil, List.flatten_nil])
    obtain ⟨above, line, below, hls, hle, hlt⟩ := exists_line hsome position
    rw [hls] at hlines hflatten
    have htotal := byteLength_flatten_append above below line
    rw [hflatten] at htotal
    refine ⟨above, line, below, _, hls, lineAt_of_hasLine (.line hlines) hle hlt, ?_⟩
    rcases hlt with hlt | rfl
    · refine ⟨by omega, fun _ => by omega, fun h => by omega⟩
    · rw [List.flatten_nil, byteLength] at htotal
      exact ⟨by omega, fun _ => by omega, fun _ => rfl⟩

/-- A position on the newline of a line belongs to it, and one at the end of the script belongs to
    the last line. -/
example : lineAt "a\n\nbc\n".toList 2 = (2, ['\n'], 0) ∧
    lineAt "a\n\nbc\n".toList 9 = (3, ['b', 'c', '\n'], 3) := by decide +kernel

end ScriptExcerpt.Text
