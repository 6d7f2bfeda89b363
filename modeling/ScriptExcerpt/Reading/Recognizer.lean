import ScriptExcerpt.Reading.Cursor

/-!
# Recognizers

A recognizer reads one lexeme: it is shown the characters of a script one after
the other and says of each whether it belongs to the lexeme (`Move`). What it
never sees is the newline of a carriage return and newline, and, in the states
that pass over them, the invisible characters.

The *mark* stands behind the last character taken. Invisible characters between
the mark and the character that ends the lexeme do not belong to it, so that a
lexeme that stops ends at the mark. At the end of the script there is no such
character, and the cursor stays where the reading ended.

* `Recognizer.run`: the run of a recognizer over a text.
* `Recognizer.length_run_le`: a run leaves no more text than lay behind the mark.
-/

namespace ScriptExcerpt

open Text

/-- What a recognizer does with a character. -/
inductive Move (σ ρ ε : Type)
  /-- The character belongs to the lexeme; go on. -/
  | take (next : σ)
  /-- The character belongs to the lexeme if what follows it does; go on. -/
  | probe (next : σ)
  /-- The character is the last one of the lexeme. -/
  | finish (result : ρ)
  /-- The lexeme ended before the character. -/
  | stop (result : ρ)
  /-- The character is wrong, and is read all the same. -/
  | fail (fault : ε)
  /-- The character is wrong, and is left unread. -/
  | refuse (fault : ε)

/-- What a recognizer makes of the end of the script. -/
inductive Ending (ρ ε : Type)
  /-- The lexeme ends with the script. -/
  | accept (result : ρ)
  /-- The lexeme ended at the mark. -/
  | back (result : ρ)
  /-- The lexeme breaks off. -/
  | fail (fault : ε)

/-- A reader of one lexeme, with states `σ`, results `ρ` and faults `ε`. -/
structure Recognizer (σ ρ ε : Type) where
  /-- Invisible characters are passed over in the state. -/
  skips : σ → Bool
  /-- What to do with a character. -/
  step : σ → Char → Move σ ρ ε
  /-- What to make of the end of the script. -/
  atEnd : σ → Ending ρ ε

/-- How the run of a recognizer ended. -/
structure Outcome (ρ ε : Type) where
  /-- What was recognized, or the fault. -/
  verdict : Except ε ρ
  /-- The offset behind the last character taken. -/
  taken : Nat
  /-- Where the reading goes on. -/
  cursor : Cursor

namespace Recognizer

variable {σ ρ ε : Type} (M : Recognizer σ ρ ε)

/-- The run of a recognizer from the state `s` over a text that starts at the
    place `p`, with the mark `mark`. -/
def run (s : σ) (mark : Cursor) (p : Place) : List Char → Outcome ρ ε
  | [] =>
    match M.atEnd s with
    | .accept r => ⟨.ok r, mark.offset, ⟨p, []⟩⟩
    | .back r => ⟨.ok r, mark.offset, mark⟩
    | .fail e => ⟨.error e, mark.offset, ⟨p, []⟩⟩
  | c :: cs =>
    if p.completes c then run s mark p.complete cs
    else if M.skips s && isInvisible c then run s mark (p.past c) cs
    else
      let behind : Cursor := ⟨p.past c, cs⟩
      match M.step s c with
      | .take t => run t behind behind.place cs
      | .probe t => run t mark behind.place cs
      | .finish r => ⟨.ok r, behind.offset, behind⟩
      | .stop r => ⟨.ok r, mark.offset, mark.look⟩
      | .fail e => ⟨.error e, mark.offset, behind⟩
      | .refuse e => ⟨.error e, mark.offset, mark.look⟩

/-- The run of a recognizer from the state `s` over the text behind a cursor. -/
def runFrom (s : σ) (cur : Cursor) : Outcome ρ ε :=
  M.run s cur cur.place cur.rest

theorem length_run_le (s : σ) (mark : Cursor) (p : Place) (cs : List Char)
    (h : cs.length ≤ mark.rest.length) :
    (M.run s mark p cs).cursor.rest.length ≤ mark.rest.length := by
  induction cs generalizing s mark p with
  | nil =>
    rw [run]
    cases M.atEnd s <;> simp
  | cons c cs ih =>
    have hcs : cs.length ≤ mark.rest.length := Nat.le_of_succ_le h
    rw [run]
    split
    · exact ih _ _ _ hcs
    · split
      · exact ih _ _ _ hcs
      · simp only
        split
        · exact Nat.le_trans (ih _ _ _ (Nat.le_refl _)) hcs
        · exact ih _ _ _ hcs
        · exact hcs
        · exact Nat.le_refl _
        · exact hcs
        · exact Nat.le_refl _

theorem length_runFrom_le (s : σ) (cur : Cursor) :
    (M.runFrom s cur).cursor.rest.length ≤ cur.rest.length :=
  M.length_run_le _ _ _ _ (Nat.le_refl _)

end Recognizer

end ScriptExcerpt
