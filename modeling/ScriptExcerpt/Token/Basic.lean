import ScriptExcerpt.Language.Kind
import ScriptExcerpt.Text.Offset

/-!
# Tokens

A token is a lexeme that the grammar sees, with its value and the span of the
script that it covers.
-/

namespace ScriptExcerpt

/-- A stretch of a script, by byte offsets. -/
structure Span where
  /-- The offset of its first byte. -/
  start : Nat
  /-- The offset behind its last byte. -/
  stop : Nat
deriving DecidableEq

namespace Span

/-- The number of bytes of the stretch. -/
def length (s : Span) : Nat :=
  s.stop - s.start

/-- The stretch has no bytes. -/
def isEmpty (s : Span) : Bool :=
  s.length == 0

end Span

/-- A lexeme that the grammar sees. -/
structure Token where
  /-- What it is. -/
  kind : Kind
  /-- Its value: what a literal or a name stands for, and the text of any other
      token. -/
  value : String
  /-- Where it stands. -/
  span : Span
deriving DecidableEq

namespace Token

/-- The text of the token in the script it was read from. -/
def lexeme (t : Token) (source : List Char) : List Char :=
  Text.slice t.span.start t.span.stop source

/-- A description of the token. -/
def describe (t : Token) : String :=
  "Token \x7b\nkind: " ++ t.kind.name ++ ",\nvalue: " ++ t.value ++ "\x7d"

end Token

end ScriptExcerpt
