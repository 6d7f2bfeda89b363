import ScriptExcerpt.Problem
import ScriptExcerpt.Token.Basic

/-!
# Brackets and the role of a slash

Whether a slash divides or opens a regular expression, and whether a brace opens
a block or an object, depends on what stands before. The last three tokens and
the roles of the brackets that are open suffice to tell:

* parentheses may hold a test or header, as those of `if`, or the parameters of
  a function expression;
* braces may hold a block, and remember the parentheses in front of them.

Parentheses and braces are counted apart: a closing bracket closes the latest
open bracket of its own form.

* `Grouping.slashOpensRegExp`: what a slash means.
* `Grouping.enter`: what a token adds to what is known.
* `Grouping.isBalanced`: no bracket is open.
-/

namespace ScriptExcerpt

/-- What a pair of parentheses holds. -/
structure ParenRole where
  /-- The parameters of a function expression. -/
  parameters : Bool
  /-- A test, or the header of a loop, a `with` or a `catch`. -/
  test : Bool
deriving DecidableEq

/-- What a pair of braces holds. -/
structure BraceRole where
  /-- A block of statements, not the members of an object. -/
  block : Bool
  /-- The parentheses that were closed right before the opening brace. -/
  head : Option ParenRole
deriving DecidableEq

/-- The role of a bracket. -/
inductive Role
  | paren (role : ParenRole)
  | brace (role : BraceRole)
deriving DecidableEq

/-- What is remembered of a token. -/
structure Trace where
  /-- What it is. -/
  kind : Kind
  /-- The number of lines begun before it ended. -/
  line : UInt32
  /-- Its role, if it is a parenthesis or a brace. -/
  role : Option Role
deriving DecidableEq

/-- What is known of the tokens before a place. -/
structure Grouping where
  /-- The last three tokens, the latest first. -/
  recent : List Trace
  /-- The open parentheses, the innermost first. -/
  parens : List ParenRole
  /-- The open braces, the innermost first. -/
  braces : List BraceRole
deriving DecidableEq

namespace Grouping

/-- Nothing stands before the place. -/
def empty : Grouping := ⟨[], [], []⟩

/-- No parenthesis and no brace is open. -/
def isBalanced (g : Grouping) : Bool :=
  g.parens.isEmpty && g.braces.isEmpty

/-- The last token. -/
def last? (g : Grouping) : Option Trace :=
  g.recent[0]?

/-- The same knowledge with one more token. -/
def remember (g : Grouping) (t : Trace) : Grouping :=
  { g with recent := (t :: g.recent).take 3 }

/-- A `function` behind a token of the kind starts an expression. -/
def startsExpression (k : Kind) : Bool :=
  k.isOperator || k == .keyword .return || k == .keyword .case

/-- The role of a parenthesis that opens behind the tokens `recent`. It holds
    parameters if `function`, with or without a name, stands before it, and
    starts an expression. -/
def parenRole (recent : List Trace) : ParenRole where
  parameters :=
    match recent.map Trace.kind with
    | .keyword .function :: before :: _ => startsExpression before
    | _ :: .keyword .function :: before :: _ => startsExpression before
    | _ => false
  test := recent.head?.any (·.kind.takesTest)

/-- A brace on the line `line`, behind the token `last`, opens a block;
    `enclosing` is the role of the innermost open brace. -/
def opensBlock (last : Option Trace) (enclosing : Option BraceRole) (line : UInt32) : Bool :=
  match last with
  | none => true
  | some t =>
    match t.kind with
    | .symbol .openParen | .symbol .openCurly | .keyword .case => false
    | .symbol .colon => enclosing.any (·.block)
    | .keyword .return | .keyword .yield => t.line != line
    | k => !k.isOperator

/-- The role of the parentheses that the token closes. -/
def closedParens? (t : Trace) : Option ParenRole :=
  match t.kind, t.role with
  | .symbol .closeParen, some (.paren role) => some role
  | _, _ => none

/-- The role of a brace that opens on the line `line`. -/
def braceRole (g : Grouping) (line : UInt32) : BraceRole where
  block := opensBlock g.last? g.braces.head? line
  head := g.last?.bind closedParens?

/-- A slash opens a regular expression and does not divide: where a statement or
    an operand starts. -/
def slashOpensRegExp (g : Grouping) : Bool :=
  match g.last? with
  | none => true
  | some t =>
    match t.kind, t.role with
    | .keyword k, _ => k != .this
    | .reserved, _ => true
    | .symbol .closeParen, some (.paren role) => role.test
    | .symbol .closeCurly, some (.brace role) => role.block && !role.head.any (·.parameters)
    | .symbol s, _ => s != .closeBracket
    | _, _ => false

/-- What is known behind a token of the kind `kind` that starts at `start`, where
    `line` is the line it ends on. -/
def enter (g : Grouping) (kind : Kind) (line : UInt32) (start : Nat) :
    Except Problem Grouping :=
  match kind with
  | .symbol .openParen =>
    let role := parenRole g.recent
    .ok (remember { g with parens := role :: g.parens } ⟨kind, line, some (.paren role)⟩)
  | .symbol .openCurly =>
    let role := g.braceRole line
    .ok (remember { g with braces := role :: g.braces } ⟨kind, line, some (.brace role)⟩)
  | .symbol .closeParen =>
    match g.parens with
    | [] => .error (.unbalanced "unmatched closing paren" start)
    | role :: parens =>
      .ok (remember { g with parens := parens } ⟨kind, line, some (.paren role)⟩)
  | .symbol .closeCurly =>
    match g.braces with
    | [] => .error (.unbalanced "unmatched closing brace" start)
    | role :: braces =>
      .ok (remember { g with braces := braces } ⟨kind, line, some (.brace role)⟩)
  | _ => .ok (g.remember ⟨kind, line, none⟩)

end Grouping

end ScriptExcerpt
