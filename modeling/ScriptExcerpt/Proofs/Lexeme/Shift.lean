import ScriptExcerpt.Proofs.Lexeme.Extent

/-!
# Readers that start elsewhere

A reader takes the place where it starts into account only by the offsets that
it tells: moved to a later offset, and to another script (`LexemeReader.shift`),
it reads the same lexemes and meets the same problems there
(`Problem.Shifted`).

* `blame_lexemeAt`: the fault of a lexeme lies where the lexeme starts, or where
  its reading broke off.
* `LexemeReader.next_shift`, `LexemeReader.readRegExp_shift`: one step.
-/

namespace ScriptExcerpt

open Text

/-! ## Where faults lie -/

namespace Fault

/-- The fault lies where the lexeme starts, or where its reading broke off. -/
def AtEdge (f : Fault) : Prop := f.blame = .opening ∨ f.blame = .back 0

/-- Of a lexeme that lies further on, the fault does so, too. -/
theorem position_add {f : Fault} {stop : Nat} (h : ∀ n, f.blame = .back n → n ≤ stop)
    (start d : Nat) : f.position (start + d) (stop + d) = f.position start stop + d := by
  rw [position, position]
  cases hf : f.blame with
  | opening => rfl
  | back n => exact Nat.sub_add_comm (h n hf)

theorem AtEdge.le {f : Fault} (h : f.AtEdge) (stop : Nat) :
    ∀ n, f.blame = .back n → n ≤ stop := by
  rcases h with h | h <;> simp [h]

end Fault

/-- Whatever the state, every fault lies at an edge of the lexeme. -/
abbrev Recognizer.FaultsAtEdge {σ ρ : Type} (M : Recognizer σ ρ Fault) : Prop :=
  M.Ensures (fun _ => True) (fun _ => True) Fault.AtEdge

theorem Name.faultsAtEdge : Name.recognizer.FaultsAtEdge where
  step s c _ := by
    cases s <;> simp only [recognizer, step] <;>
      grind [Move.Ensures, Fault.AtEdge, strayBackslash, strayEscape, Fault.unicodeEscape]
  atEnd s _ := by
    cases s <;> simp [recognizer, atEnd, Ending.Ensures, Fault.AtEdge, strayBackslash,
      Fault.unicodeEscape]

theorem Number.faultsAtEdge (v : Version) : (Number.recognizer v).FaultsAtEdge where
  step s c _ := by
    cases s <;> simp only [recognizer, step, stepBehindWhole] <;>
      grind [Move.Ensures, Fault.AtEdge, missingDigits, missingExponent, separatorAtLineEnd,
        Fault.number]
  atEnd s _ := by
    cases s <;> simp [recognizer, atEnd, Ending.Ensures, Fault.AtEdge, missingDigits,
      missingExponent, separatorAtLineEnd, Fault.number]

theorem Quotation.faultsAtEdge (quote : Char) : (Quotation.recognizer quote).FaultsAtEdge where
  step s c _ := by
    cases s <;> simp only [recognizer, step, stepText] <;>
      grind [Move.Ensures, Fault.AtEdge, Fault.unterminated, Fault.unicodeEscape]
  atEnd s _ := by
    cases s <;> simp [recognizer, atEnd, Ending.Ensures, Fault.AtEdge, Fault.unterminated,
      Fault.unicodeEscape]

theorem Comment.faultsAtEdge_line : Comment.lineRecognizer.FaultsAtEdge where
  step s c _ := by simp only [lineRecognizer]; split <;> trivial
  atEnd _ _ := trivial

theorem Comment.faultsAtEdge_block : Comment.blockRecognizer.FaultsAtEdge where
  step s c _ := by simp only [blockRecognizer]; split <;> trivial
  atEnd _ _ := .inl rfl

theorem Operator.faultsAtEdge (table : List (List Char × Kind)) :
    (Operator.recognizer table).FaultsAtEdge where
  step s c _ := by
    simp only [recognizer, step]
    split <;> split <;> trivial
  atEnd s _ := by simp only [recognizer, atEnd]; split <;> trivial

theorem Lexeme.blame_lineComment {cur : Cursor} {f : Fault}
    (h : (lineComment cur).verdict = .error f) : f.AtEdge :=
  (Comment.faultsAtEdge_line.runFrom trivial cur).error (fault_lineComment h)

theorem Lexeme.blame_blockComment {cur : Cursor} {f : Fault}
    (h : (blockComment cur).verdict = .error f) : f.AtEdge :=
  (Comment.faultsAtEdge_block.runFrom trivial cur).error (fault_blockComment h)

theorem Lexeme.blame_symbol {table : List (List Char × Kind)} {c : Char} {behind : Cursor}
    {f : Fault} (h : (symbol table c behind).verdict = .error f) : f.AtEdge := by
  rw [symbol] at h
  split at h
  · obtain rfl := Except.error.inj h
    exact .inl rfl
  · next kind _ =>
    split at h
    · have he := (Operator.faultsAtEdge table).runFrom (s := ⟨[c], kind⟩) trivial behind
      dsimp only at h
      split at h
      · exact blame_lineComment h
      · exact blame_blockComment h
      · simp at h
      · next ho => exact Except.error.inj h ▸ he.error ho
    · simp at h

theorem Lexeme.blame_name {v : Version} {c : Char} {behind : Cursor} {f : Fault}
    (h : (name v c behind).verdict = .error f) : f.AtEdge :=
  (Name.faultsAtEdge.runFrom trivial behind).error (fault_name h)

theorem Lexeme.blame_number {v : Version} {c : Char} {behind : Cursor} {f : Fault}
    (h : (number v c behind).verdict = .error f) : f.AtEdge :=
  ((Number.faultsAtEdge v).runFrom trivial behind).error (fault_number h)

theorem Lexeme.blame_quotation {c : Char} {behind : Cursor} {f : Fault}
    (h : (quotation c behind).verdict = .error f) : f.AtEdge :=
  ((Quotation.faultsAtEdge c).runFrom trivial behind).error (fault_quotation h)

/-- The fault of a lexeme lies at its start, or where the reading broke off. -/
theorem blame_lexemeAt {v : Version} {lineIsBlank : Bool} {c : Char} {behind : Cursor} {f : Fault}
    (h : (lexemeAt v lineIsBlank c behind).verdict = .error f) : f.AtEdge := by
  revert h
  exact lexemeAt_cases (P := fun l => l.verdict = .error f → f.AtEdge) (fun _ => Lexeme.blame_name)
    (fun _ => Lexeme.blame_number) (fun _ => Lexeme.blame_quotation) Lexeme.blame_symbol

/-- The fault of a regular expression lies where the lexeme starts, or before the letter that is no
    flag, which was read last. -/
theorem RegExp.exists_blamed {s : State} {cur : Cursor} {f : Fault} {flags : List Char}
    (h : (recognizer.runFrom s cur).verdict = .error (f, flags)) :
    f.blame = .opening ∨ ∃ here n, f.blame = .back n ∧ cur.Leads here ∧
      here.Leads (recognizer.runFrom s cur).cursor ∧
        here.offset + n = (recognizer.runFrom s cur).cursor.offset := by
  obtain ⟨s', mark, here, ⟨-, hhere⟩, hend⟩ :=
    (Recognizer.invariant_leads recognizer cur).halts (s := s) ⟨.refl cur, .refl cur⟩
  rw [Recognizer.runFrom] at h ⊢
  generalize recognizer.run s cur cur.place cur.rest = o at h hend ⊢
  cases hend with
  | breakOff he =>
    obtain rfl := Except.error.inj h
    cases s' <;> simp [recognizer, atEnd, unterminated, Fault.unterminated] at he <;>
      exact .inl (by rw [← he.1])
  | @fail p c cs e hp he =>
    obtain rfl := Except.error.inj h
    have hblame : f.blame = .opening ∨ f.blame = .back c.utf8Size := by
      cases s' <;>
        simp only [recognizer, step, stepBody, unterminated, Fault.unterminated] at he <;> grind
    refine hblame.imp_right fun hback => ?_
    exact ⟨⟨p, c :: cs⟩, _, hback, hhere, (Cursor.passes_past hp cs).leads, rfl⟩
  | refuse hp he =>
    obtain rfl := Except.error.inj h
    cases s' <;> simp only [recognizer, step, stepBody, unterminated, Fault.unterminated] at he <;>
      grind
  | accept | back | finish | stop => simp at h

theorem RegExp.blame_le {s : State} {cur : Cursor} {f : Fault} {flags : List Char}
    (h : (recognizer.runFrom s cur).verdict = .error (f, flags)) :
    ∀ n, f.blame = .back n → n ≤ (recognizer.runFrom s cur).cursor.offset := by
  intro n hn
  rcases exists_blamed h with hopening | ⟨here, m, hback, -, -, hoffset⟩
  · simp [hn] at hopening
  · obtain rfl : m = n := Blame.back.inj (hback.symm.trans hn)
    exact hoffset ▸ Nat.le_add_left m _

/-! ## Answers that lie further on -/

/-- The second problem is the first one, `d` bytes further on: the same is wrong,
    but the message of an unmatched bracket repeats its own position, and the
    excerpt comes from the script `source` instead of `rest`. -/
inductive Problem.Shifted (rest source : List Char) (d : Nat) : Problem → Problem → Prop
  | lexical (cause : Cause) (position : Nat) :
    Shifted rest source d (.lexical rest cause position) (.lexical source cause (position + d))
  | unbalanced (text : String) (position : Nat) :
    Shifted rest source d (.unbalanced text position) (.unbalanced text (position + d))

/-- The second answer is the first one, `d` bytes further on, where `move` moves
    what is told. -/
inductive ShiftedAnswer {α : Type} (rest source : List Char) (d : Nat) (move : α → α) :
    Except Problem α → Except Problem α → Prop
  | ok (a : α) : ShiftedAnswer rest source d move (.ok a) (.ok (move a))
  | error {p q : Problem} : Problem.Shifted rest source d p q →
    ShiftedAnswer rest source d move (.error p) (.error q)

namespace LexemeReader

/-- The same reader in the script `source`, `d` bytes further on. -/
def shift (source : List Char) (d : Nat) (r : LexemeReader) : LexemeReader :=
  { r with
    source := source
    cursor := r.cursor.shift d
    opening := r.opening.shift d
    stop := r.stop + d }

variable (source : List Char) (d : Nat) (r : LexemeReader)

theorem lexeme_shift : (r.shift source d).lexeme = r.lexeme :=
  congrArg (fun n => takeBytes n r.opening.rest) (Nat.add_sub_add_right ..)

theorem accept_shift (opening : Cursor) (c : Char) {l : Lexeme}
    (hl : ∀ f, l.verdict = .error f → f.AtEdge) :
    ShiftedAnswer r.source source d id (r.accept opening c l).1
        ((r.shift source d).accept (opening.shift d) c (l.shift d)).1 ∧
      ((r.shift source d).accept (opening.shift d) c (l.shift d)).2 =
        (r.accept opening c l).2.shift source d := by
  refine ⟨?_, rfl⟩
  obtain ⟨f | k, stop, cursor, value⟩ := l
  · have hpos := Fault.position_add ((hl f rfl).le cursor.offset) opening.offset d
    have hshift : Problem.Shifted r.source source d _ _ :=
      .lexical f.cause (f.position opening.offset cursor.offset)
    rw [← hpos] at hshift
    exact .error hshift
  · exact .ok k

theorem passLineEnd_shift (opening : Cursor) (c : Char) (rest : List Char) :
    (r.shift source d).passLineEnd (opening.shift d) c rest =
      (r.passLineEnd opening c rest).shift source d := by
  have hpast : (opening.shift d).place.past c = (opening.place.past c).shift d :=
    Place.shift_past d opening.place c
  rw [passLineEnd, hpast]
  rfl

/-- The next lexeme does not depend on where the text starts that is read. -/
theorem next_shift :
    ShiftedAnswer r.source source d id r.next.1 (r.shift source d).next.1 ∧
      (r.shift source d).next.2 = r.next.2.shift source d := by
  have hgap : (r.shift source d).cursor.skipGap = r.cursor.skipGap.shift d :=
    Cursor.skipGapFrom_shift d r.cursor.place r.cursor.rest
  obtain ⟨⟨place, rest⟩, hhere⟩ : ∃ here, r.cursor.skipGap = here := ⟨_, rfl⟩
  rw [hhere] at hgap
  cases rest with
  | nil =>
    rw [next_of_gap_nil (congrArg Cursor.rest hhere), next_of_gap_nil (congrArg Cursor.rest hgap),
      hhere, hgap]
    exact ⟨.ok _, rfl⟩
  | cons c cs =>
    rw [next_of_gap hhere, next_of_gap hgap]
    split
    · exact ⟨.ok _, passLineEnd_shift source d r ⟨place, c :: cs⟩ c cs⟩
    · have hlexeme : lexemeAt r.version r.lineIsBlank c ⟨(place.shift d).past c, cs⟩ =
          (lexemeAt r.version r.lineIsBlank c ⟨place.past c, cs⟩).shift d := by
        rw [Place.shift_past]
        exact (local_lexemeAt r.version r.lineIsBlank c).shift d ⟨place.past c, cs⟩
      have hblame (f : Fault) := @blame_lexemeAt r.version r.lineIsBlank c ⟨place.past c, cs⟩ f
      have haccept := accept_shift source d r ⟨place, c :: cs⟩ c hblame
      rw [← hlexeme] at haccept
      exact haccept

/-- Neither does the rest of a regular expression. -/
theorem readRegExp_shift (equals : Bool) :
    ShiftedAnswer r.source source d id (r.readRegExp equals).1
        ((r.shift source d).readRegExp equals).1 ∧
      ((r.shift source d).readRegExp equals).2 = (r.readRegExp equals).2.shift source d := by
  have hrun : RegExp.recognizer.runFrom (if equals then .body ['='] false else .opening)
      (r.shift source d).cursor =
        (RegExp.recognizer.runFrom (if equals then .body ['='] false else .opening) r.cursor).shift
          d := RegExp.recognizer.runFrom_shift d _ r.cursor
  have hblame (f : Fault) (flags : List Char) := @RegExp.blame_le
    (if equals then .body ['='] false else .opening) r.cursor f flags
  rw [readRegExp, readRegExp, hrun]
  generalize RegExp.recognizer.runFrom (if equals then .body ['='] false else .opening) r.cursor = o
    at hblame ⊢
  obtain ⟨⟨f, flags⟩ | l, taken, cursor⟩ := o
  · have hpos := Fault.position_add (hblame f flags rfl) r.opening.offset d
    have hshift : Problem.Shifted r.source source d _ _ :=
      .lexical f.cause (f.position r.opening.offset cursor.offset)
    rw [← hpos] at hshift
    exact ⟨.error hshift, rfl⟩
  · exact ⟨.ok (), rfl⟩

end LexemeReader

end ScriptExcerpt
