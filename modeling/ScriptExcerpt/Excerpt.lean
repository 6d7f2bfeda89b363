import ScriptExcerpt.Text.Offset
import ScriptExcerpt.Token.Stream

/-!
# Excerpts

The text behind an anchor, up to the brace that closes the first block opened
behind it. Brackets in literals and comments do not count, since the text is
read token by token.

* `excerpt`: the text behind the first occurrence of an anchor.
* `functionNamed`: the definition of the function assigned to a name.
-/

namespace ScriptExcerpt

open Text

/-- The offset behind the first token at which no bracket is open any more,
    after a brace was opened; `opened` tells that one was. -/
def TokenStream.closing (s : TokenStream) (opened : Bool) : Except Problem Nat :=
  match _h : s.next with
  | (.error p, _) => .error p
  | (.ok t, s') =>
    if _ho : t.kind = .symbol .openCurly then s'.closing true
    else if opened && s'.isBalanced then .ok t.span.stop
    else if _he : t.kind = .endOfInput then
      .error ⟨.unbalancedBrackets "could not find matching braces", t.span.start, none⟩
    else s'.closing opened
termination_by s.reader.cursor.rest.length
decreasing_by
  · exact s.length_next_lt _h (by simp [_ho])
  · exact s.length_next_lt _h _he

/-- The text of a script behind the first occurrence of `anchor`, up to the brace
    that closes the first block opened there. -/
def excerpt (v : Version) (source anchor : List Char) : Except Problem (List Char) :=
  match before? anchor source with
  | none => .error (.ofRequest (.markerNotFound (String.ofList anchor)))
  | some before =>
    let start := byteLength before + byteLength anchor
    ((TokenStream.startingAt source start v).closing false).map fun stop => slice start stop source

/-- The anchor of a function that is assigned to a name. -/
def functionAnchor (name : List Char) : List Char :=
  name ++ "=function".toList

/-- The definition of the function that a script assigns to a name. -/
def functionNamed (v : Version) (source name : List Char) : Except Problem (List Char) :=
  (excerpt v source (functionAnchor name)).map (functionAnchor name ++ ·)

end ScriptExcerpt
