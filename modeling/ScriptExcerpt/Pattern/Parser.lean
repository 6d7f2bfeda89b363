import ScriptExcerpt.Pattern.Reading

/-!
# Reading patterns

A written pattern is read from left to right. What stands outside groups is
collected branch by branch; an opening parenthesis puts that aside until the
group is closed, and with it the flags that were in force.

* `parse`: the pattern that a text writes, and the number of its groups.
-/

namespace ScriptExcerpt.Pattern

open Text

/-- The largest size of a pattern. -/
def largestSize : Nat := 400000

/-- What surrounds a group that is open. -/
structure OpenGroup where
  /-- The number of the group, if its text is remembered. -/
  index : Option Nat
  /-- The flags in force around the group. -/
  flags : Flags
  /-- The branches before it, the latest first. -/
  branches : List Pattern
  /-- The parts before it in its branch, the latest first. A setting of flags is
      a part that is no pattern. -/
  parts : List (Option Pattern)

/-- What was read of a pattern. -/
structure State where
  /-- The flags in force. -/
  flags : Flags
  /-- The number of groups that were opened and are remembered. -/
  groups : Nat
  /-- The names of groups. -/
  names : List (List Char)
  /-- The branches of the innermost group, the latest first. -/
  branches : List Pattern
  /-- The parts of its last branch, the latest first. -/
  parts : List (Option Pattern)
  /-- The groups that are open, the innermost first. -/
  stack : List OpenGroup

namespace State

/-- Nothing was read. -/
def initial : State :=
  ⟨.initial, 0, [], [], [], []⟩

/-- The state with one more part. -/
def add (st : State) (p : Pattern) : State :=
  { st with parts := some p :: st.parts }

/-- The pattern of a branch. -/
def branch (st : State) : Pattern :=
  match st.parts.reverse.filterMap id with
  | [] => .empty
  | p :: ps => ps.foldl .seq p

/-- The state behind a bar. -/
def startBranch (st : State) : State :=
  { st with branches := st.branch :: st.branches, parts := [] }

/-- The pattern of the innermost group. -/
def inner (st : State) : Pattern :=
  st.branches.foldl (fun p q => .alt q p) st.branch

/-- The state behind the opening of a group. -/
def openGroup (st : State) (index : Option Nat) (flags : Flags) : State :=
  { st with
    flags := flags
    branches := []
    parts := []
    stack := ⟨index, st.flags, st.branches, st.parts⟩ :: st.stack }

/-- The state behind the closing of a group. -/
def closeGroup (st : State) : Except Flaw State :=
  match st.stack with
  | [] => .error .unopenedGroup
  | g :: stack =>
    let p :=
      match g.index with
      | none => st.inner
      | some index => .group index st.inner
    .ok { st with
      flags := g.flags
      branches := g.branches
      parts := some p :: g.parts
      stack := stack }

/-- The state behind the repetition of its last part. -/
def repeat? (st : State) (min : Nat) (max : Option Nat) (greedy : Bool) : Except Flaw State :=
  match st.parts with
  | some p :: parts =>
    let r := p.repeated min max (greedy != st.flags.swapGreed)
    if r.size ≤ largestSize then .ok { st with parts := some r :: parts } else .error .tooLarge
  | _ => .error .nothingToRepeat

end State

/-- Whether a question mark, which makes a repetition reluctant, is missing, and
    the text behind it. -/
def readGreed (cs : List Char) : Bool × List Char :=
  match cs with
  | '?' :: rest => (false, rest)
  | _ => (true, cs)

/-- A number, with blanks around it. -/
def readCount (spaced : Bool) (cs : List Char) : Except Flaw (Nat × List Char) :=
  let cs := cs.dropWhile isWhiteSpace
  let digits := cs.takeWhile (isDigitOf 10)
  let n := digits.foldl (fun n c => 10 * n + (digitOf? 10 c).getD 0) 0
  if digits.isEmpty || n ≥ UInt32.size then .error .invalidCount
  else .ok (n, skipSpace spaced ((cs.drop digits.length).dropWhile isWhiteSpace))

/-- A counted repetition whose opening brace was read. -/
def readRepetition (st : State) (cs : List Char) : Except Flaw (State × List Char) := do
  let spaced := st.flags.spaced
  let (min, rest) ← readCount spaced (skipSpace spaced cs)
  let (max, rest) ←
    match rest with
    | ',' :: rest =>
      match skipSpace spaced rest with
      | '\x7d' :: rest => pure (none, '\x7d' :: rest)
      | rest => do
        let (max, rest) ← readCount spaced rest
        pure (some max, rest)
    | rest => pure (some min, rest)
  match rest with
  | '\x7d' :: rest =>
    let (greedy, rest) := readGreed (skipSpace spaced rest)
    if max.all (min ≤ ·) then return (← st.repeat? min max greedy, rest) else throw .invalidCount
  | _ => throw .invalidCount

/-- The letters of a setting of flags: up to the colon or the closing
    parenthesis, which is left unread. -/
def readFlags (f : Flags) (on : Bool) (seen : List Char) :
    List Char → Except Flaw (Flags × Bool × List Char)
  | [] => .error .invalidFlags
  | c :: cs =>
    if c = ':' || c = ')' then
      if seen.head? = some '-' then .error .invalidFlags else .ok (f, seen.isEmpty, c :: cs)
    else if seen.contains c then .error .invalidFlags
    else if c = '-' then readFlags f false (c :: seen) cs
    else
      match f.set? c on with
      | some f => readFlags f on (c :: seen) cs
      | none => .error .invalidFlags

/-- `c` may stand in the name of a group, at its start if `first` holds. -/
def isGroupNameChar (first : Bool) (c : Char) : Bool :=
  c == '_' || isAlphabetic c ||
    (!first && (c == '.' || c == '[' || c == ']' || isDecimalDigit c || isLetterNumber c))

/-- The opening of a group with a name, up to the name's closing bracket. -/
def readNamedGroup (st : State) (cs : List Char) : Except Flaw (State × List Char) :=
  let name := cs.takeWhile (· ≠ '>')
  match name, cs.drop name.length with
  | c :: more, _ :: rest =>
    if isGroupNameChar true c && more.all (isGroupNameChar false) && !st.names.contains name then
      let st := { st with groups := st.groups + 1, names := name :: st.names }
      .ok (st.openGroup (some st.groups) st.flags, rest)
    else .error .invalidGroupName
  | _, _ => .error .invalidGroupName

/-- A group whose opening parenthesis was read, or a setting of flags. -/
def readGroup (st : State) (cs : List Char) : Except Flaw (State × List Char) :=
  match skipSpace st.flags.spaced cs with
  | '?' :: '=' :: _ | '?' :: '!' :: _ | '?' :: '<' :: '=' :: _ | '?' :: '<' :: '!' :: _ =>
    .error .lookAround
  | '?' :: 'P' :: '<' :: rest | '?' :: '<' :: rest => readNamedGroup st rest
  | '?' :: rest =>
    match readFlags st.flags true [] rest with
    | .ok (f, _, ':' :: rest) => .ok (st.openGroup none f, rest)
    | .ok (f, false, _ :: rest) => .ok ({ st with flags := f, parts := none :: st.parts }, rest)
    | .ok _ => .error .nothingToRepeat
    | .error e => .error e
  | rest =>
    let st := { st with groups := st.groups + 1 }
    .ok (st.openGroup (some st.groups) st.flags, rest)

/-- The pattern of a character or a class outside brackets. -/
def patternOf (f : Flags) : Atom → Except Flaw Pattern
  | .literal c whole =>
    if f.unicode || whole || c.toNat < 0x80 then
      ((CharSet.single c).under f false).map .char
    else .error .needsUnicode
  | .set s => .ok (.char s)
  | .look a => .ok (.look a)

/-- The set of a dot. -/
def dotSet (f : Flags) : Except Flaw CharSet :=
  if !f.unicode then .error .needsUnicode
  else if f.dotAll then .ok .all
  else if f.returns then .ok (.complement (.unions [.single '\n', .single '\r']))
  else .ok (.complement (.single '\n'))

/-- The condition of `^`. -/
def startAssertion (f : Flags) : Assertion :=
  if !f.multiLine then .textStart else if f.returns then .lineStartReturn else .lineStart

/-- The condition of `$`. -/
def endAssertion (f : Flags) : Assertion :=
  if !f.multiLine then .textEnd else if f.returns then .lineEndReturn else .lineEnd

/-- Reads one part of a pattern that starts with `c`; `cs` is the text behind
    `c`. -/
def readPart (st : State) (c : Char) (cs : List Char) : Except Flaw (State × List Char) :=
  match c with
  | '(' => readGroup st cs
  | ')' => st.closeGroup.map (·, cs)
  | '|' => .ok (st.startBranch, cs)
  | '[' => (readClass st.flags cs).map fun (s, rest) => (st.add (.char s), rest)
  | '?' =>
    let (greedy, rest) := readGreed cs
    (st.repeat? 0 (some 1) greedy).map (·, rest)
  | '*' =>
    let (greedy, rest) := readGreed cs
    (st.repeat? 0 none greedy).map (·, rest)
  | '+' =>
    let (greedy, rest) := readGreed cs
    (st.repeat? 1 none greedy).map (·, rest)
  | '\x7b' =>
    match st.parts with
    | some _ :: _ => readRepetition st cs
    | _ => .error .nothingToRepeat
  | '.' => (dotSet st.flags).map fun s => (st.add (.char s), cs)
  | '^' => .ok (st.add (.look (startAssertion st.flags)), cs)
  | '$' => .ok (st.add (.look (endAssertion st.flags)), cs)
  | '\\' => do
    let (a, rest) ← readEscape st.flags cs
    return (st.add (← patternOf st.flags a), rest)
  | c => do return (st.add (← patternOf st.flags (.literal c true)), cs)

/-- Reads the parts of a pattern up to its end. Every part that is read leaves a
    shorter text; one that did not would be an error. -/
def readParts (st : State) (cs : List Char) : Except Flaw State :=
  match skipSpace st.flags.spaced cs with
  | [] => .ok st
  | c :: rest =>
    match readPart st c rest with
    | .error e => .error e
    | .ok (st', rest') =>
      if _h : rest'.length < cs.length then readParts st' rest' else .error .tooLarge
termination_by cs.length

/-- The pattern that a text writes, and the number of its groups. -/
def parse (text : List Char) : Except Flaw (Pattern × Nat) := do
  let st ← readParts .initial text
  if !st.stack.isEmpty then throw .unclosedGroup
  let p := st.inner
  if p.size ≤ largestSize then return (p, st.groups) else throw .tooLarge

end ScriptExcerpt.Pattern
