import ScriptExcerpt.Problem
import ScriptExcerpt.Text.Character

/-!
# Reports

A problem is shown below the line of the script that it is in:

    Error: UnterminatedLiteral (tip)
      |
    3 | var s = "abc
      | --------^

* `lines`: the lines of a text, each with the newline that ends it.
* `lineAt`: the number, the text and the byte column of a position.
* `report`: the whole diagram.
-/

namespace ScriptExcerpt

namespace Text

/-- The lines of a text, each with its newline. A text that ends in a newline
    has no line behind it. -/
def lines : List Char → List (List Char)
  | [] => []
  | c :: cs =>
    if c = '\n' then ['\n'] :: lines cs
    else
      match lines cs with
      | [] => [[c]]
      | l :: ls => (c :: l) :: ls

/-- Which of the lines, of which the first has the number `number`, the offset
    `position` falls into: its number, its text and the column. What lies behind
    the last line belongs to its end. -/
def lineAmong (number position : Nat) : List (List Char) → Nat × List Char × Nat
  | [] => (number, [], 0)
  | [l] => (number, l, min position (byteLength l))
  | l :: m :: ls =>
    if position < byteLength l then (number, l, position)
    else lineAmong (number + 1) (position - byteLength l) (m :: ls)

/-- The number of the line of a text that `position` falls into, its text and
    the byte column. -/
def lineAt (cs : List Char) (position : Nat) : Nat × List Char × Nat :=
  lineAmong 1 position (lines cs)

/-- `c` indents a line. -/
def isIndent (c : Char) : Bool :=
  c == ' ' || c == '\t'

/-- The text without the white space at its end. -/
def trimEnd (cs : List Char) : List Char :=
  (cs.reverse.dropWhile isWhiteSpace).reverse

end Text

/-- A problem of the script `source`, shown below the line that it is in. -/
def report (p : Problem) (source : List Char) : String :=
  let (number, line, column) := Text.lineAt source p.position
  let digits := Nat.toDigits 10 number
  let margin := List.replicate (digits.length + 1) ' '
  let indent := (line.takeWhile Text.isIndent).length
  let head := "Error: " ++ p.cause.name ++
    match p.cause.tip? with
    | none => ""
    | some tip => " (" ++ tip ++ ")"
  head ++ "\n" ++
    String.ofList (margin ++ ['|', '\n'] ++
      digits ++ [' ', '|', ' '] ++ Text.trimEnd (line.drop indent) ++ ['\n'] ++
      margin ++ ['|', ' '] ++ List.replicate (column - indent) '-' ++ ['^'])

end ScriptExcerpt
