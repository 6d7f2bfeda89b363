import ScriptExcerpt.Pattern.Parser
import ScriptExcerpt.Pattern.Program
import ScriptExcerpt.Problem

/-!
# Finding names

The name of a function is found in a script by search patterns, tried one after
the other: it is the text of the first group of the first match.

The threads of the program of a pattern run through the text side by side, in the
order of preference. At each place a thread follows its program up to the next
character that it reads; of the threads that come to the same step there, only
the first goes on. As long as nothing was found, one more thread starts at every
place, behind all others: the leftmost match counts.

* `Pattern.enter`: the threads that read a character at a place.
* `Pattern.firstGroup?`: the text of the first group of the first match.
* `firstGroup`: the first group of a pattern in a text.
* `firstGroupOfAny`: the same of the first pattern that matches at all.
-/

namespace ScriptExcerpt

/-! ## Threads -/

namespace Pattern

/-- The places remembered in the slots. -/
abbrev Slots := List (Option Nat)

/-- A thread: the address of its next step, and its slots. -/
structure Thread where
  /-- The address of the next step. -/
  address : Nat
  /-- The places remembered so far. -/
  slots : Slots

/-- A place in the text that is searched. -/
structure Spot where
  /-- The number of characters before it. -/
  index : Nat
  /-- The character before it. -/
  before : Option Char
  /-- The character behind it. -/
  behind : Option Char

/-- The threads that wait at a place, in the order of preference, and the steps
    that no thread came to yet. -/
structure Crowd where
  /-- The threads, each at a step that reads a character or ends the program. -/
  threads : List Thread
  /-- The addresses of the other steps. -/
  fresh : List Nat

/-- Where a thread goes from a step that reads nothing. A step that reads a
    character or ends the program is kept for later. -/
def advance (spot : Spot) (t : Thread) : Instruction → List Thread
  | .char _ | .found => []
  | .look a => if a.holds spot.before spot.behind then [{ t with address := t.address + 1 }] else []
  | .save slot => [⟨t.address + 1, t.slots.set slot (some spot.index)⟩]
  | .fork first second => [{ t with address := first }, { t with address := second }]
  | .jump target => [{ t with address := target }]

/-- A thread waits at the step. -/
def Instruction.waits : Instruction → Bool
  | .char _ | .found => true
  | _ => false

/-- The crowd at a place after the threads of a list came to it, in order. The
    measure counts the steps that no thread came to, and the list. -/
def enter (prog : Array Instruction) (spot : Spot) (crowd : Crowd) : List Thread → Crowd
  | [] => crowd
  | t :: ts =>
    if t.address ∈ crowd.fresh then
      let fresh := crowd.fresh.erase t.address
      match prog[t.address]? with
      | none => enter prog spot ⟨crowd.threads, fresh⟩ ts
      | some i =>
        enter prog spot ⟨if i.waits then crowd.threads ++ [t] else crowd.threads, fresh⟩
          (advance spot t i ++ ts)
    else enter prog spot crowd ts
termination_by todo => (crowd.fresh.length, todo.length)
decreasing_by
  · have hlt : (crowd.fresh.erase t.address).length < crowd.fresh.length := by
      have := List.length_pos_of_mem ‹t.address ∈ crowd.fresh›
      rw [List.length_erase_of_mem ‹t.address ∈ crowd.fresh›]
      omega
    exact Prod.Lex.left _ _ hlt
  · have hlt : (crowd.fresh.erase t.address).length < crowd.fresh.length := by
      have := List.length_pos_of_mem ‹t.address ∈ crowd.fresh›
      rw [List.length_erase_of_mem ‹t.address ∈ crowd.fresh›]
      omega
    exact Prod.Lex.left _ _ hlt
  · exact Prod.Lex.right _ (Nat.lt_succ_self _)

/-- The crowd behind the character `c`, which the threads of a list read. -/
def step (prog : Array Instruction) (spot : Spot) (c : Char) (crowd : Crowd)
    (threads : List Thread) : Crowd :=
  threads.foldl
    (fun (crowd : Crowd) (t : Thread) =>
      match prog[t.address]? with
      | some (.char set) =>
        if set.mem c then enter prog spot crowd [⟨t.address + 1, t.slots⟩] else crowd
      | _ => crowd)
    crowd

/-- The thread is at the end of its program. -/
def Thread.isDone (prog : Array Instruction) (t : Thread) : Bool :=
  prog[t.address]? matches some .found

/-- The slots of the preferred match in the text behind `spot`; `waiting` are the
    threads at `spot`, and `best` is what was found before. -/
def search (prog : Array Instruction) (slots : Slots) (waiting : Crowd) (best : Option Slots)
    (index : Nat) (before : Option Char) (text : List Char) : Option Slots :=
  let spot : Spot := ⟨index, before, text.head?⟩
  let crowd := if best.isNone then enter prog spot waiting [⟨0, slots⟩] else waiting
  let best := ((crowd.threads.find? (·.isDone prog)).map (·.slots)).or best
  match text with
  | [] => best
  | c :: cs =>
    let running := crowd.threads.takeWhile fun t => !t.isDone prog
    if running.isEmpty && best.isSome then best
    else
      let next := step prog ⟨index + 1, some c, cs.head?⟩ c ⟨[], List.range prog.size⟩ running
      search prog slots next best (index + 1) (some c) cs

/-- The slots of the leftmost match of a pattern with the given number of
    groups. -/
def slotsOfMatch? (p : Pattern) (groups : Nat) (text : List Char) : Option Slots :=
  let prog := p.program
  search prog (List.replicate (2 * groups) none) ⟨[], List.range prog.size⟩ none 0 none text

/-- The text of the first group of the leftmost match. It is empty if the
    pattern has no group, or the first one took no part in the match. -/
def firstGroup? (p : Pattern) (groups : Nat) (text : List Char) : Option (List Char) :=
  (slotsOfMatch? p groups text).map fun slots =>
    match slots with
    | some start :: some stop :: _ => (text.drop start).take (stop - start)
    | _ => []

end Pattern

/-! ## Patterns tried in turn -/

/-- The text of the first group where the pattern matches first. It is empty if
    the pattern has no group, or the first one took no part in the match. -/
def firstGroup (pattern text : List Char) : Except Problem (List Char) :=
  match Pattern.parse pattern with
  | .error flaw => .error (.ofRequest (.invalidPattern (String.ofList pattern) flaw.text))
  | .ok (p, groups) =>
    match p.firstGroup? groups text with
    | some group => .ok group
    | none => .error (.ofRequest (.patternNotMatched (String.ofList pattern)))

/-- The first group of the first of the patterns that matches. If none does, the
    problem is that of the first one. -/
def firstGroupOfAny (text : List Char) : List (List Char) → Except Problem (List Char)
  | [] => .error (.ofRequest (.patternNotMatched ""))
  | [pattern] => firstGroup pattern text
  | pattern :: others =>
    match firstGroup pattern text with
    | .ok group => .ok group
    | .error problem => (firstGroupOfAny text others).mapError fun _ => problem

end ScriptExcerpt
