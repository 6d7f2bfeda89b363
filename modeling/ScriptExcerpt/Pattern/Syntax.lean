import ScriptExcerpt.Pattern.CharSet

/-!
# Search patterns

A pattern describes texts. Alternatives and repetitions have an order of
preference: the first alternative before the second, and one repetition more
before none, or, if the repetition is reluctant, after it.

* `Pattern.canBeEmpty`: the pattern may describe the empty text.
* `Pattern.repeated`: a repetition, at most once if the part is always empty.
* `Pattern.size`: the number of steps of the program of a pattern.
-/

namespace ScriptExcerpt

open Text

namespace Pattern

/-- A condition on the place between two characters. -/
inductive Assertion
  | textStart | textEnd
  | lineStart | lineEnd
  /-- As `lineStart` and `lineEnd`, where a carriage return ends a line too. -/
  | lineStartReturn | lineEndReturn
  | wordBoundary (unicode : Bool) | notWordBoundary (unicode : Bool)
  | wordStart (unicode : Bool) | wordEnd (unicode : Bool)
  | wordStartHalf (unicode : Bool) | wordEndHalf (unicode : Bool)
deriving DecidableEq

/-- `c` may stand in a word; unless `unicode` holds, only ASCII counts. -/
def inWord (unicode : Bool) (c : Option Char) : Bool :=
  c.any fun c => if unicode then isWordChar c else c.isAlphanum || c == '_'

/-- The condition holds between the characters `before` and `behind`, of which
    one is missing at each end of the text. -/
def Assertion.holds (before behind : Option Char) : Assertion → Bool
  | textStart => before.isNone
  | textEnd => behind.isNone
  | lineStart => before.all (· == '\n')
  | lineEnd => behind.all (· == '\n')
  | lineStartReturn => before.all fun c => c == '\n' || (c == '\r' && behind != some '\n')
  | lineEndReturn => behind.all fun c => c == '\r' || (c == '\n' && before != some '\r')
  | wordBoundary u => inWord u before != inWord u behind
  | notWordBoundary u => inWord u before == inWord u behind
  | wordStart u => !inWord u before && inWord u behind
  | wordEnd u => inWord u before && !inWord u behind
  | wordStartHalf u => !inWord u before
  | wordEndHalf u => !inWord u behind

end Pattern

/-- A search pattern. -/
inductive Pattern
  /-- The empty text. -/
  | empty
  /-- One character of a set. -/
  | char (set : Pattern.CharSet)
  /-- The empty text where the condition holds. -/
  | look (assertion : Pattern.Assertion)
  /-- A part whose text is remembered as the group `index`, counted from one. -/
  | group (index : Nat) (part : Pattern)
  /-- One part behind the other. -/
  | seq (first second : Pattern)
  /-- One of two parts, the first one preferred. -/
  | alt (first second : Pattern)
  /-- At least `min` and at most `max` repetitions of a part, as many as
      possible if `greedy` holds and as few as possible otherwise. -/
  | rep (part : Pattern) (min : Nat) (max : Option Nat) (greedy : Bool)

namespace Pattern

/-- The pattern may describe the empty text. -/
def canBeEmpty : Pattern → Bool
  | empty | look _ => true
  | char _ => false
  | group _ part => part.canBeEmpty
  | seq first second => first.canBeEmpty && second.canBeEmpty
  | alt first second => first.canBeEmpty || second.canBeEmpty
  | rep part min _ _ => min = 0 || part.canBeEmpty

/-- The pattern describes no text but the empty one. -/
def isAlwaysEmpty : Pattern → Bool
  | empty | look _ => true
  | char _ => false
  | group _ part => part.isAlwaysEmpty
  | seq first second | alt first second => first.isAlwaysEmpty && second.isAlwaysEmpty
  | rep part _ max _ => max = some 0 || part.isAlwaysEmpty

/-- The number of steps of the program of a pattern. -/
def size : Pattern → Nat
  | empty => 0
  | char _ | look _ => 1
  | group _ part => part.size + 2
  | seq first second => first.size + second.size
  | alt first second => first.size + second.size + 2
  | rep part 0 none _ => part.size + 2
  | rep part min none _ => min * part.size + 1
  | rep part min (some max) _ => min * part.size + (max - min) * (part.size + 1)

/-- The repetitions of a part. A part that is always empty is repeated at most
    once, since more repetitions describe nothing new. -/
def repeated (part : Pattern) (min : Nat) (max : Option Nat) (greedy : Bool) : Pattern :=
  if part.isAlwaysEmpty then rep part (Nat.min min 1) (some (Nat.min (max.getD 1) 1)) greedy
  else rep part min max greedy

end Pattern

end ScriptExcerpt
