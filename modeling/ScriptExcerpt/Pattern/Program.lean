import ScriptExcerpt.Pattern.Syntax

/-!
# Programs of patterns

A pattern is followed through a text by a program: a list of steps, each with an
address. A fork goes on at two addresses, of which the first is preferred.

A part that may be empty is repeated with care: `x*` runs as `(x+)?`, so that
one empty repetition is possible before the repetition ends.

* `Pattern.code`: the steps of a pattern from an address on.
* `Pattern.program`: the whole program.
-/

namespace ScriptExcerpt.Pattern

/-- A step of a program. Where nothing else is said, the next step is the one at
    the next address. -/
inductive Instruction
  /-- Reads a character of the set. -/
  | char (set : CharSet)
  /-- Goes on if the condition holds. -/
  | look (assertion : Assertion)
  /-- Remembers the place in a slot. -/
  | save (slot : Nat)
  /-- Goes on at either address. -/
  | fork (first second : Nat)
  /-- Goes on at the address. -/
  | jump (target : Nat)
  /-- The pattern was found. -/
  | found

/-- The slot for the start of a group; the next one is for its end. -/
def slotOf (index : Nat) : Nat :=
  2 * (index - 1)

/-- A fork to `inside` and `outside`; the first one is preferred if `greedy`
    holds. -/
def loopFork (greedy : Bool) (inside outside : Nat) : Instruction :=
  if greedy then .fork inside outside else .fork outside inside

/-- The code of `n` copies of a part from the address `start` on, where `code`
    gives the code of one of them. -/
def copies (code : Nat → List Instruction) (size start : Nat) : Nat → List Instruction
  | 0 => []
  | n + 1 => code start ++ copies code size (start + size) n

/-- The code of `n` nested options of a part from the address `start` on; all of
    them go on at the address `stop`. -/
def options (code : Nat → List Instruction) (size : Nat) (greedy : Bool) (stop start : Nat) :
    Nat → List Instruction
  | 0 => []
  | n + 1 =>
    loopFork greedy (start + 1) stop :: code (start + 1) ++
      options code size greedy stop (start + 1 + size) n

/-- The steps of a pattern from the address `start` on. They end at the address
    behind the last of them. -/
def code : Pattern → Nat → List Instruction
  | empty, _ => []
  | char set, _ => [.char set]
  | look assertion, _ => [.look assertion]
  | group index part, start =>
    .save (slotOf index) :: part.code (start + 1) ++ [.save (slotOf index + 1)]
  | seq first second, start => first.code start ++ second.code (start + first.size)
  | alt first second, start =>
    let other := start + first.size + 2
    .fork (start + 1) other :: first.code (start + 1) ++
      .jump (other + second.size) :: second.code other
  | rep part 0 none greedy, start =>
    let behind := start + part.size + 2
    if part.canBeEmpty then
      loopFork greedy (start + 1) behind :: part.code (start + 1) ++
        [loopFork greedy (start + 1) behind]
    else loopFork greedy (start + 1) behind :: part.code (start + 1) ++ [.jump start]
  | rep part (min + 1) none greedy, start =>
    let last := start + min * part.size
    copies part.code part.size start min ++ part.code last ++
      [loopFork greedy last (last + part.size + 1)]
  | rep part min (some max) greedy, start =>
    let middle := start + min * part.size
    let behind := middle + (max - min) * (part.size + 1)
    copies part.code part.size start min ++
      options part.code part.size greedy behind middle (max - min)

/-- The program of a pattern. -/
def program (p : Pattern) : Array Instruction :=
  (p.code 0 ++ [Instruction.found]).toArray

end ScriptExcerpt.Pattern
