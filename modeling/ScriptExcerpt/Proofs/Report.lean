import ScriptExcerpt.Proofs.Lines

/-!
# The caret of a report

A report ends with a diagram (`Diagram`). Its bars stand in one column, however many digits the
number of the line has. The line of the script is shown without its indentation and without the
white space at its end (`Text.Strips`), and the caret stands as far behind the bar as the position
has bytes of that text before it. These are as many as it has characters exactly if each of them
takes one byte; behind any other one the caret stands too far to the right.

* `report_eq`: the diagram of the line that a position is told to be in;
* `report_caret_iff`: where the caret stands.
-/

namespace ScriptExcerpt

namespace Text

variable {line indent ink blank cs : List Char} {c : Char}

/-- The line has the text `ink` behind its indentation and before the white space at its end. -/
structure Strips (line indent ink blank : List Char) : Prop where
  line_eq : line = indent ++ (ink ++ blank)
  indents : ∀ c ∈ indent, isIndent c
  blanks : ∀ c ∈ blank, isWhiteSpace c
  head : ∀ c ∈ (ink ++ blank).head?, isIndent c = false
  last : ∀ c ∈ ink.getLast?, isWhiteSpace c = false

theorem Strips.takeWhile_eq (h : Strips line indent ink blank) :
    line.takeWhile isIndent = indent := by
  rw [h.line_eq, List.takeWhile_append_of_pos h.indents]
  have hhead := h.head
  generalize ink ++ blank = cs at hhead ⊢
  cases cs with
  | nil => rw [List.takeWhile_nil, List.append_nil]
  | cons c cs => rw [List.takeWhile_cons_of_neg (by simp [hhead c rfl]), List.append_nil]

theorem Strips.trimEnd_eq (h : Strips line indent ink blank) :
    trimEnd (line.drop indent.length) = ink := by
  rw [h.line_eq, List.drop_left, trimEnd, List.reverse_append,
    List.dropWhile_append_of_pos fun c hc => h.blanks c (List.mem_reverse.1 hc)]
  have hlast := h.last
  rw [← List.head?_reverse] at hlast
  obtain ⟨cs, rfl⟩ : ∃ cs, ink = List.reverse cs := ⟨_, ink.reverse_reverse.symm⟩
  rw [List.reverse_reverse] at hlast ⊢
  cases cs with
  | nil => rfl
  | cons c cs => rw [List.dropWhile_cons_of_neg (by simp [hlast c rfl])]

theorem utf8Size_of_isIndent (h : isIndent c) : c.utf8Size = 1 := by
  simp only [isIndent, Bool.or_eq_true, beq_iff_eq] at h
  rcases h with rfl | rfl <;> rfl

theorem length_le_byteLength (cs : List Char) : cs.length ≤ byteLength cs := by
  induction cs with
  | nil => exact Nat.le_refl 0
  | cons c cs ih =>
    have hc := c.utf8Size_pos
    rw [List.length_cons, byteLength]
    omega

/-- A text has as many bytes as characters exactly if each character takes one. -/
theorem byteLength_eq_length_iff : byteLength cs = cs.length ↔ ∀ c ∈ cs, c.utf8Size = 1 := by
  induction cs with
  | nil => simp [byteLength]
  | cons c cs ih =>
    have hc := c.utf8Size_pos
    have hcs := length_le_byteLength cs
    rw [List.forall_mem_cons, ← ih, byteLength, List.length_cons]
    omega

theorem Strips.byteLength_indent (h : Strips line indent ink blank) :
    byteLength indent = indent.length :=
  byteLength_eq_length_iff.2 fun c hc => utf8Size_of_isIndent (h.indents c hc)

/-- In a line of a script, what is left of it has no newline. -/
theorem Strips.newline_not_mem {source : List Char} {above below : List (List Char)}
    (h : Strips line indent ink blank) (hline : HasLine source above line below) :
    '\n' ∉ ink := by
  intro hmem
  obtain ⟨a, b, rfl⟩ := List.append_of_mem hmem
  -- Nothing stands behind a newline of the line, and no newline ends what is left.
  have hdrop : '\n' ∉ line.dropLast := by
    cases hline with
    | line hlines => exact hlines.not_mem_dropLast (by simp)
    | empty => exact List.not_mem_nil
  rcases List.eq_nil_or_concat (b ++ blank) with hnil | ⟨rest, d, hrest⟩
  · obtain ⟨rfl, -⟩ := List.append_eq_nil_iff.1 hnil
    exact absurd (h.last '\n' (by simp)) (by decide)
  · have hline : line = indent ++ (a ++ '\n' :: rest) ++ [d] := by
      rw [h.line_eq, List.append_assoc a, List.cons_append, hrest]
      simp
    rw [hline, List.dropLast_concat] at hdrop
    exact hdrop (by simp)

end Text

open Text

/-- The last three lines of the text are a diagram: the line `code` is shown behind its number, and
    the caret behind dashes. The bars stand behind texts of one length. -/
structure Diagram (text number code dashes margin : List Char) : Prop where
  ends : ∃ top, text = top ++ '\n' :: (margin ++ '|' :: '\n' :: (number ++ '|' :: ' ' ::
    (code ++ '\n' :: (margin ++ '|' :: ' ' :: (dashes ++ ['^'])))))
  one_line : ∀ part ∈ [number, code, dashes, margin], '\n' ∉ part
  first_bar : ∀ part ∈ [number, margin], '|' ∉ part
  aligned : margin.length = number.length

variable {p : Problem} {source line indent shown hidden blank : List Char}
  {above below : List (List Char)} {number column : Nat}

theorem not_mem_toDigits {c : Char} (hc : c.isDigit = false) (n : Nat) : c ∉ Nat.toDigits 10 n := by
  intro hmem
  simp [Nat.isDigit_of_mem_toDigits (by decide) (Nat.le_refl 10) hmem] at hc

/-- The diagram of the line that the position is told to be in. -/
theorem report_eq (h : lineAt source p.position = (number, line, column)) :
    ∃ top margin, margin = List.replicate ((Nat.toDigits 10 number).length + 1) ' ' ∧
      (report p source).toList = top ++ '\n' :: (margin ++ '|' :: '\n' ::
        ((Nat.toDigits 10 number ++ [' ']) ++ '|' :: ' ' ::
          (trimEnd (line.drop (line.takeWhile isIndent).length) ++ '\n' :: (margin ++ '|' :: ' ' ::
            (List.replicate (column - (line.takeWhile isIndent).length) '-' ++ ['^']))))) := by
  simp only [report, h]
  rw [String.toList_append, String.toList_append, String.toList_ofList, List.append_assoc]
  exact ⟨_, _, rfl, congrArg (_ ++ ·) (by simp)⟩

/-- Where the text `shown` of a line stands before the position of a problem, the caret stands
    behind as many dashes as that text has bytes. These are as many as it has characters exactly if
    each of them takes one byte. -/
theorem report_caret_iff (hline : HasLine source above line below)
    (hstrips : Strips line indent (shown ++ hidden) blank)
    (hposition : p.position = byteLength above.flatten + byteLength indent + byteLength shown) :
    ∃ dashes margin,
      Diagram (report p source).toList (Nat.toDigits 10 (above.length + 1) ++ [' '])
        (shown ++ hidden) dashes margin ∧
      (∀ c ∈ dashes, c = '-') ∧ dashes.length = byteLength shown ∧
        (dashes.length = shown.length ↔ ∀ c ∈ shown, c.utf8Size = 1) := by
  have hbytes : byteLength line =
      byteLength indent + byteLength shown + byteLength (hidden ++ blank) := by
    rw [hstrips.line_eq, List.append_assoc, byteLength_append, byteLength_append, Nat.add_assoc]
  have hink := hstrips.newline_not_mem hline
  have hlt : p.position < byteLength above.flatten + byteLength line ∨ below = [] := by
    by_cases hrest : hidden ++ blank = []
    · -- Nothing of the line is left behind the position, so that no newline ends it.
      refine .inr (Decidable.byContradiction fun hbelow => ?_)
      have hmem := hline.newline_mem hbelow
      rw [hstrips.line_eq, List.append_assoc, hrest, List.append_nil, List.mem_append] at hmem
      rcases hmem with hmem | hmem
      · exact absurd (hstrips.indents '\n' hmem) (by decide)
      · exact hink (List.mem_append_left hidden hmem)
    · have hlength := length_le_byteLength (hidden ++ blank)
      have hpos := List.length_pos_iff.2 hrest
      exact .inl (by omega)
  have hat : lineAt source p.position =
      (above.length + 1, line, byteLength indent + byteLength shown) := by
    rw [lineAt_of_hasLine hline (by omega) hlt]
    congr 2
    omega
  obtain ⟨top, margin, rfl, hreport⟩ := report_eq hat
  rw [hstrips.takeWhile_eq, hstrips.trimEnd_eq, hstrips.byteLength_indent,
    Nat.add_sub_cancel_left] at hreport
  have hnewline := not_mem_toDigits (c := '\n') rfl (above.length + 1)
  have hbar := not_mem_toDigits (c := '|') rfl (above.length + 1)
  refine ⟨_, _, ⟨⟨top, hreport⟩, ?_, ?_, ?_⟩, fun c hc => (List.mem_replicate.1 hc).2,
    List.length_replicate, ?_⟩
  · simp_all [List.mem_replicate]
  · simp_all [List.mem_replicate]
  · simp
  · rw [List.length_replicate, byteLength_eq_length_iff]

/-- On the tenth line, behind an indentation, the caret stands below the character. -/
theorem report_caret_on_tenth_line :
    let source := "\n\n\n\n\n\n\n\n\n \tab@ \nc".toList
    let line := [' ', '\t', 'a', 'b', '@', ' ', '\n']
    let p := Problem.lexical source (.illegalCharacter '@') 13
    HasLine source (List.replicate 9 ['\n']) line [['c']] ∧
      Strips line [' ', '\t'] (['a', 'b'] ++ ['@']) [' ', '\n'] ∧
        ∃ dashes margin, Diagram (report p source).toList ['1', '0', ' '] ['a', 'b', '@'] dashes
            margin ∧ dashes.length = ['a', 'b'].length := by
  intro source line p
  have hline : HasLine source (List.replicate 9 ['\n']) line [['c']] :=
    .line (isLines_iff.2 (by decide +kernel))
  have hstrips : Strips line [' ', '\t'] (['a', 'b'] ++ ['@']) [' ', '\n'] :=
    { line_eq := rfl
      indents := by simp [isIndent]
      blanks := List.all_eq_true.1 (by decide)
      head := by simp [isIndent]
      last := by simp [isWhiteSpace] }
  obtain ⟨dashes, margin, hdiagram, -, -, hiff⟩ :=
    report_caret_iff (p := p) hline hstrips (by decide +kernel)
  exact ⟨hline, hstrips, dashes, margin, hdiagram, hiff.2 (byteLength_eq_length_iff.1 rfl)⟩

/-- Behind a letter with an accent, which takes two bytes, it stands one column too far. -/
theorem report_caret_behind_accent :
    let source := ['\u00e9', '@']
    let p := Problem.lexical source (.illegalCharacter '@') 2
    HasLine source [] source [] ∧ Strips source [] (['\u00e9'] ++ ['@']) [] ∧
      p.position = byteLength ['\u00e9'] ∧
        Diagram (report p source).toList ['1', ' '] source ['-', '-'] [' ', ' '] ∧
          ['-', '-'].length ≠ ['\u00e9'].length := by
  intro source p
  refine ⟨.line (isLines_iff.2 (by decide)), ?_, rfl, ?_, by decide⟩
  · exact
      { line_eq := rfl
        indents := by simp
        blanks := by simp
        head := by simp [isIndent]
        last := by simp [isWhiteSpace] }
  · exact
      { ends := ⟨"Error: IllegalCharacter".toList, by decide +kernel⟩
        one_line := by decide
        first_bar := by decide
        aligned := rfl }

end ScriptExcerpt
