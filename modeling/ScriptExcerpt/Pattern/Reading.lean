import ScriptExcerpt.Pattern.Syntax
import ScriptExcerpt.Text.Character

/-!
# Parts of written patterns

How the smallest parts of a pattern are written: flags, escapes, and classes of
characters between square brackets. Under the flag `x`, blanks and comments may
stand between all of them.

* `Flags`: what the flags of a pattern change.
* `readEscape`: what stands behind a backslash.
* `readClass`: a class between brackets.
-/

namespace ScriptExcerpt.Pattern

open Text

/-- Why a text is no pattern. -/
inductive Flaw
  | unclosedGroup | unopenedGroup | unclosedClass | endsInEscape
  | unknownEscape | invalidCharacterNumber | unknownProperty
  | invalidRange | invalidClassItem
  | nothingToRepeat | invalidCount | tooLarge
  | invalidFlags | invalidGroupName | lookAround
  | needsUnicode
deriving DecidableEq

/-- What is wrong with the text. -/
def Flaw.text : Flaw → String
  | unclosedGroup => "unclosed group"
  | unopenedGroup => "unopened group"
  | unclosedClass => "unclosed character class"
  | endsInEscape => "incomplete escape sequence"
  | unknownEscape => "unrecognized escape sequence"
  | invalidCharacterNumber => "the number does not name a character"
  | unknownProperty => "Unicode property not found"
  | invalidRange => "invalid character class range"
  | invalidClassItem => "invalid item in a character class"
  | nothingToRepeat => "repetition operator missing expression"
  | invalidCount => "invalid repetition count"
  | tooLarge => "the pattern is too large"
  | invalidFlags => "invalid flags"
  | invalidGroupName => "invalid capture group name"
  | lookAround => "look-around is not supported"
  | needsUnicode => "the pattern could match a part of a character"

/-- What the flags of a pattern change. -/
structure Flags where
  /-- The case of letters does not matter. -/
  ignoreCase : Bool
  /-- `^` and `$` hold at the ends of lines. -/
  multiLine : Bool
  /-- The dot is also a newline. -/
  dotAll : Bool
  /-- Repetitions are reluctant unless they are marked. -/
  swapGreed : Bool
  /-- A carriage return ends a line. -/
  returns : Bool
  /-- Classes and cases are those of Unicode. -/
  unicode : Bool
  /-- Blanks and comments between the parts do not count. -/
  spaced : Bool
deriving DecidableEq

namespace Flags

/-- The flags at the start of a pattern. -/
def initial : Flags :=
  ⟨false, false, false, false, false, true, false⟩

/-- The flags with the one that the letter `c` names set to `on`. -/
def set? (f : Flags) (c : Char) (on : Bool) : Option Flags :=
  match c with
  | 'i' => some { f with ignoreCase := on }
  | 'm' => some { f with multiLine := on }
  | 's' => some { f with dotAll := on }
  | 'U' => some { f with swapGreed := on }
  | 'R' => some { f with returns := on }
  | 'u' => some { f with unicode := on }
  | 'x' => some { f with spaced := on }
  | _ => none

end Flags

/-- The text behind blanks and comments, if `spaced` holds. -/
def skipSpace (spaced : Bool) : List Char → List Char
  | [] => []
  | c :: cs =>
    if !spaced then c :: cs
    else if isWhiteSpace c then skipSpace spaced cs
    else if c = '#' then skipComment cs
    else c :: cs
where
  /-- The text behind the rest of a comment and what may follow it. -/
  skipComment : List Char → List Char
    | [] => []
    | c :: cs => if c = '\n' then skipSpace spaced cs else skipComment cs

/-- One part of a pattern. -/
inductive Atom
  /-- A character. Unless `whole` holds, its number is that of a byte. -/
  | literal (c : Char) (whole : Bool)
  /-- A class of characters. -/
  | set (s : CharSet)
  /-- A condition on the place. -/
  | look (a : Assertion)

/-- The number that hexadecimal digits write. -/
def ofHex (digits : List Char) : Nat :=
  digits.foldl (fun n c => 16 * n + (digitOf? 16 c).getD 0) 0

/-- The character of a number written by digits. -/
def charOfHex (digits : List Char) : Except Flaw Char :=
  let n := ofHex digits
  if n.isValidChar then .ok (Char.ofNat n) else .error .invalidCharacterNumber

/-- The next `n` hexadecimal digits. -/
def readDigits (spaced : Bool) : Nat → List Char → Except Flaw (List Char × List Char)
  | 0, cs => .ok ([], cs)
  | _ + 1, [] => .error .endsInEscape
  | n + 1, c :: cs => do
    if !isDigitOf 16 c then throw .unknownEscape
    let (digits, rest) ← readDigits spaced n (skipSpace spaced cs)
    return (c :: digits, rest)

/-- The text up to a closing brace, without blanks if `spaced` holds. -/
def readBraced (spaced : Bool) (cs : List Char) : Except Flaw (List Char × List Char) :=
  let body := cs.takeWhile (· ≠ '\x7d')
  match cs.drop body.length with
  | [] => .error .endsInEscape
  | _ :: rest => .ok (if spaced then body.filter (!isWhiteSpace ·) else body, rest)

/-- A character by its number; `count` digits follow, or digits in braces. -/
def readNumbered (spaced : Bool) (count : Nat) (cs : List Char) :
    Except Flaw (Atom × List Char) := do
  match skipSpace spaced cs with
  | '\x7b' :: rest =>
    let (digits, rest) ← readBraced spaced rest
    if digits.isEmpty || !digits.all (isDigitOf 16) then throw .unknownEscape
    return (.literal (← charOfHex digits) true, skipSpace spaced rest)
  | rest =>
    let (digits, rest) ← readDigits spaced count rest
    return (.literal (← charOfHex digits) (count ≠ 2), rest)

/-- The name of a property as it is compared: in small letters, without a leading
    `is`, blanks, hyphens and underscores. -/
def normalizedName (cs : List Char) : String :=
  let small := cs.map Char.toLower
  let bare := if ['i', 's'].isPrefixOf small then small.drop 2 else small
  String.ofList (bare.filter fun c => c ≠ ' ' && c ≠ '-' && c ≠ '_')

/-- The class of a Unicode property. -/
def propertyOf? (name : List Char) : Option CharSet :=
  match normalizedName name with
  | "l" | "letter" => some (.named .letter)
  | "m" | "mark" | "combiningmark" => some (.named .mark)
  | "nd" | "decimalnumber" | "digit" => some (.named .digit)
  | "nl" | "letternumber" => some (.named .letterNumber)
  | "pc" | "connectorpunctuation" => some (.named .connector)
  | "alphabetic" | "alpha" => some (.named .alphabetic)
  | "whitespace" | "wspace" | "space" => some (.named .space)
  | "any" => some .all
  | "ascii" => some (.range '\x00' '\x7f')
  | _ => none

/-- A set in the cases that the flags ask for, and its complement if `negated`
    holds. Where characters are bytes, a complement holds parts of
    characters. -/
def CharSet.under (f : Flags) (negated : Bool) (s : CharSet) : Except Flaw CharSet :=
  let s := if !f.ignoreCase then s else if f.unicode then .anyCase s else .anyCaseASCII s
  if !negated then .ok s
  else if f.unicode then .ok (.complement s)
  else .error .needsUnicode

/-- The class of digits, blanks or word characters. -/
def shorthand? (unicode : Bool) (c : Char) : Option CharSet :=
  match c, unicode with
  | 'd', true => some (.named .digit)
  | 's', true => some (.named .space)
  | 'w', true => some (.named .word)
  | 'd', false => some (.range '0' '9')
  | 's', false => some (.unions [.range '\t' '\r', .single ' '])
  | 'w', false =>
    some (.unions [.range '0' '9', .range 'A' 'Z', .single '_', .range 'a' 'z'])
  | _, _ => none

/-- The class of a Unicode property that is named behind `\p`. -/
def readProperty (f : Flags) (negated : Bool) (cs : List Char) :
    Except Flaw (Atom × List Char) := do
  let (name, rest) ←
    match skipSpace f.spaced cs with
    | [] => throw .endsInEscape
    | '\x7b' :: rest => readBraced f.spaced rest
    | c :: rest => pure ([c], skipSpace f.spaced rest)
  if !f.unicode then throw .needsUnicode
  match propertyOf? name with
  | none => throw .unknownProperty
  | some s => return (.set (← s.under f negated), rest)

/-- The conditions that are named in braces behind `\b`. If no name starts
    there, nothing is read. -/
def readBoundary (f : Flags) (cs : List Char) : Except Flaw (Assertion × List Char) :=
  let isNameChar (c : Char) : Bool := c.isAlpha || c == '-'
  match cs with
  | '\x7b' :: rest =>
    match skipSpace f.spaced rest with
    | [] => .error .endsInEscape
    | c :: cs' =>
      if !isNameChar c then .ok (.wordBoundary f.unicode, cs)
      else
        match readBraced f.spaced (c :: cs') with
        | .error e => .error e
        | .ok (name, rest) =>
          match String.ofList name with
          | "start" => .ok (.wordStart f.unicode, rest)
          | "end" => .ok (.wordEnd f.unicode, rest)
          | "start-half" => .ok (.wordStartHalf f.unicode, rest)
          | "end-half" => .ok (.wordEndHalf f.unicode, rest)
          | _ => .error .unknownEscape
  | _ => .ok (.wordBoundary f.unicode, cs)

/-- The character that a letter behind a backslash stands for. -/
def controlOf? (c : Char) : Option Char :=
  match c with
  | 'a' => some '\x07'
  | 'f' => some '\x0c'
  | 't' => some '\t'
  | 'n' => some '\n'
  | 'r' => some '\r'
  | 'v' => some '\x0b'
  | _ => none

/-- A backslash before `c` makes it a plain character. -/
def isPlainEscape (c : Char) : Bool :=
  c.toNat < 0x80 && !c.isAlphanum && c != '<' && c != '>'

/-- What stands behind a backslash. -/
def readEscape (f : Flags) : List Char → Except Flaw (Atom × List Char)
  | [] => .error .endsInEscape
  | 'x' :: cs => readNumbered f.spaced 2 cs
  | 'u' :: cs => readNumbered f.spaced 4 cs
  | 'U' :: cs => readNumbered f.spaced 8 cs
  | 'p' :: cs => readProperty f false cs
  | 'P' :: cs => readProperty f true cs
  | 'A' :: cs => .ok (.look .textStart, cs)
  | 'z' :: cs => .ok (.look .textEnd, cs)
  | 'B' :: cs => .ok (.look (.notWordBoundary f.unicode), cs)
  | '<' :: cs => .ok (.look (.wordStart f.unicode), cs)
  | '>' :: cs => .ok (.look (.wordEnd f.unicode), cs)
  | 'b' :: cs => (readBoundary f cs).map fun (a, rest) => (.look a, rest)
  | c :: cs =>
    match shorthand? f.unicode c.toLower with
    | some s =>
      if !c.isUpper then .ok (.set s, cs)
      else if f.unicode then .ok (.set (.complement s), cs)
      else .error .needsUnicode
    | none =>
      match controlOf? c with
      | some d => .ok (.literal d true, cs)
      | none => if isPlainEscape c then .ok (.literal c true, cs) else .error .unknownEscape

/-- The set of a character in a class. Where characters are bytes, it must be
    one. -/
def setOfLiteral (f : Flags) (c : Char) : Except Flaw CharSet :=
  if f.unicode || c.toNat < 0x80 then .ok (.single c) else .error .needsUnicode

/-- A class that is named between `[:` and `:]`. -/
def namedClass? (name : List Char) : Option CharSet :=
  match String.ofList name with
  | "alnum" => some (.unions [.range '0' '9', .range 'A' 'Z', .range 'a' 'z'])
  | "alpha" => some (.unions [.range 'A' 'Z', .range 'a' 'z'])
  | "ascii" => some (.range '\x00' '\x7f')
  | "blank" => some (.unions [.single '\t', .single ' '])
  | "cntrl" => some (.unions [.range '\x00' '\x1f', .single '\x7f'])
  | "digit" => some (.range '0' '9')
  | "graph" => some (.range '!' '~')
  | "lower" => some (.range 'a' 'z')
  | "print" => some (.range ' ' '~')
  | "punct" =>
    some (.unions [.range '!' '/', .range ':' '@', .range '[' '\x60', .range '\x7b' '~'])
  | "space" => some (.unions [.range '\t' '\r', .single ' '])
  | "upper" => some (.range 'A' 'Z')
  | "word" => some (.unions [.range '0' '9', .range 'A' 'Z', .single '_', .range 'a' 'z'])
  | "xdigit" => some (.unions [.range '0' '9', .range 'A' 'F', .range 'a' 'f'])
  | _ => none

/-- A named class whose opening bracket was read, if there is one. -/
def readNamedClass? (cs : List Char) : Option (CharSet × Bool × List Char) :=
  match cs with
  | ':' :: cs =>
    let (negated, cs) :=
      match cs with
      | '^' :: cs => (true, cs)
      | _ => (false, cs)
    let name := cs.takeWhile (· ≠ ':')
    match cs.drop name.length with
    | ':' :: ']' :: rest => (namedClass? name).map (·, negated, rest)
    | _ => none
  | _ => none

/-- An operation between two sets of a class. -/
inductive SetOperation
  | inter | diff | symm

/-- The result of an operation. -/
def SetOperation.apply (f : Flags) (op : SetOperation) (a b : CharSet) : Except Flaw CharSet := do
  let a ← a.under f false
  let b ← b.under f false
  return match op with
    | .inter => .inter a b
    | .diff => .diff a b
    | .symm => .symm a b

/-- A class that is open: what stands before it in the class around it, and
    whether it is negated. -/
structure OpenClass where
  /-- The set before it in the class around it. -/
  outer : CharSet
  /-- The operation of the class around it that waits for its second set. -/
  pending : Option (SetOperation × CharSet)
  /-- The class is negated. -/
  negated : Bool

/-- What was read of a class. -/
structure ClassState where
  /-- The classes that are open, the innermost first. -/
  stack : List OpenClass
  /-- The set read so far, behind the last operation. -/
  set : CharSet
  /-- The operation that waits for its second set. -/
  pending : Option (SetOperation × CharSet)

namespace ClassState

/-- The state with the set `s` added. -/
def add (st : ClassState) (s : CharSet) : ClassState :=
  { st with set := .union st.set s }

/-- The set of the class, with the operation that waits applied. -/
def result (st : ClassState) (f : Flags) : Except Flaw CharSet :=
  match st.pending with
  | none => .ok st.set
  | some (op, a) => op.apply f a st.set

/-- The state behind an operation. -/
def operate (st : ClassState) (f : Flags) (op : SetOperation) : Except Flaw ClassState := do
  return { st with set := .empty, pending := some (op, ← st.result f) }

end ClassState

/-- The text behind the hyphens at the start of a class. -/
def skipHyphens (spaced : Bool) : List Char → List Char
  | '-' :: rest =>
    let behind := skipSpace spaced rest
    if _h : behind.length ≤ rest.length then skipHyphens spaced behind else behind
  | cs => cs
termination_by cs => cs.length
decreasing_by exact Nat.lt_succ_of_le _h

/-- A class whose opening bracket was read. A hyphen or a closing bracket at its
    start is a character of it. -/
def openClass (f : Flags) (st : ClassState) (cs : List Char) :
    Except Flaw (ClassState × List Char) :=
  let cs := skipSpace f.spaced cs
  let (negated, cs) :=
    match cs with
    | '^' :: rest => (true, skipSpace f.spaced rest)
    | _ => (false, cs)
  let stack := ⟨st.set, st.pending, negated⟩ :: st.stack
  match cs with
  | [] => .error .unclosedClass
  | ']' :: rest => .ok (⟨stack, .single ']', none⟩, rest)
  | '-' :: _ => .ok (⟨stack, .single '-', none⟩, skipHyphens f.spaced cs)
  | _ => .ok (⟨stack, .empty, none⟩, cs)

/-- One end of a range, or a class. -/
def readClassItem (f : Flags) : List Char → Except Flaw (Atom × List Char)
  | [] => .error .unclosedClass
  | '\\' :: cs => readEscape f cs
  | c :: cs => .ok (.literal c true, cs)

/-- An end of a range must be a character, and where characters are bytes, one
    of them. -/
def rangeEnd (f : Flags) : Atom → Except Flaw Char
  | .literal c _ => if f.unicode || c.toNat < 0x80 then .ok c else .error .needsUnicode
  | _ => .error .invalidRange

/-- The set of an item of a class. -/
def setOfItem (f : Flags) : Atom → Except Flaw CharSet
  | .literal c _ => setOfLiteral f c
  | .set s => .ok s
  | .look _ => .error .invalidClassItem

/-- A character, a class or a range inside a class. -/
def readClassRange (f : Flags) (cs : List Char) : Except Flaw (CharSet × List Char) := do
  let (first, rest) ← readClassItem f cs
  match skipSpace f.spaced rest with
  | [] => throw .unclosedClass
  | '-' :: behind =>
    match skipSpace f.spaced behind with
    | [] => throw .unclosedClass
    | c :: cs' =>
      if c = ']' || c = '-' then return (← setOfItem f first, '-' :: behind)
      let (last, rest) ← readClassItem f (c :: cs')
      let first ← rangeEnd f first
      let last ← rangeEnd f last
      if first ≤ last then return (.range first last, rest) else throw .invalidRange
  | rest => return (← setOfItem f first, rest)

/-- The rest of a class, and the text behind it. Every part that is read leaves a
    shorter text; one that did not would be an error. -/
def readClassRest (f : Flags) (st : ClassState) (cs : List Char) :
    Except Flaw (CharSet × List Char) :=
  let goOn (st : ClassState) (rest : List Char) : Except Flaw (CharSet × List Char) :=
    if _h : rest.length < cs.length then readClassRest f st rest else .error .unclosedClass
  match skipSpace f.spaced cs with
  | [] => .error .unclosedClass
  | '[' :: rest =>
    match readNamedClass? rest with
    | some (s, negated, behind) =>
      match s.under f negated with
      | .ok s => goOn (st.add s) behind
      | .error e => .error e
    | none =>
      match openClass f st rest with
      | .ok (st, rest) => goOn st rest
      | .error e => .error e
  | ']' :: rest =>
    match st.stack, st.result f with
    | _, .error e => .error e
    | [], _ => .error .unclosedClass
    | outer :: stack, .ok s =>
      match s.under f outer.negated with
      | .error e => .error e
      | .ok s =>
        if stack.isEmpty then .ok (s, rest)
        else goOn ⟨stack, .union outer.outer s, outer.pending⟩ rest
  | '&' :: '&' :: rest =>
    match st.operate f .inter with
    | .ok st => goOn st rest
    | .error e => .error e
  | '-' :: '-' :: rest =>
    match st.operate f .diff with
    | .ok st => goOn st rest
    | .error e => .error e
  | '~' :: '~' :: rest =>
    match st.operate f .symm with
    | .ok st => goOn st rest
    | .error e => .error e
  | cs' =>
    match readClassRange f cs' with
    | .ok (s, rest) => goOn (st.add s) rest
    | .error e => .error e
termination_by cs.length

/-- A class between brackets, of which the opening one was read. -/
def readClass (f : Flags) (cs : List Char) : Except Flaw (CharSet × List Char) := do
  let (st, rest) ← openClass f ⟨[], .empty, none⟩ cs
  readClassRest f st rest

end ScriptExcerpt.Pattern
