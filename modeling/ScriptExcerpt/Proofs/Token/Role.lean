import ScriptExcerpt.Proofs.Token.Extent

/-!
# Roles in a history

What a bracket or a slash means follows from all the tokens before it, the
*history*, here with the latest token first. A closing bracket belongs to the
latest bracket of its form that is still open, however far back
(`History.unpaired`).

* `History.holdsParameters`, `History.holdsTest`, `History.isBlock`: the role of a
  bracket;
* `History.slashOpens`: what a slash means.

The books of a stream keep three tokens and the roles of the open brackets. They
refine the history (`Grouping.Refines`): from it, they know as much as is needed.

* `Grouping.Refines.enter`: one token;
* `Grouping.Refines.slashOpensRegExp_eq`: what a slash means to them.
-/

namespace ScriptExcerpt

open Text

/-! ## Histories -/

namespace History

/-- The brackets `opener` that the history leaves open, the innermost first. A
    bracket is given by the history up to it, and is the latest token there. -/
def unpaired (opener closer : Symbol) : List Token → List (List Token)
  | [] => []
  | t :: h =>
    if t.kind = .symbol opener then (t :: h) :: unpaired opener closer h
    else if t.kind = .symbol closer then (unpaired opener closer h).tail
    else unpaired opener closer h

/-- The open parentheses. -/
abbrev openParens : List Token → List (List Token) := unpaired .openParen .closeParen

/-- The open braces. -/
abbrev openBraces : List Token → List (List Token) := unpaired .openCurly .closeCurly

/-- The parenthesis that the latest token closes. -/
def closedParen? : List Token → Option (List Token)
  | [] => none
  | t :: h => if t.kind = .symbol .closeParen then (openParens h).head? else none

/-- The history ends with a `function` that starts an expression. -/
def startsFunction : List Token → Bool
  | f :: t :: _ => f.kind = .keyword .function && Grouping.startsExpression t.kind
  | _ => false

/-- A parenthesis behind the history holds the parameters of a function
    expression: `function` stands before it, or else a name and `function`
    before that. -/
def holdsParameters (h : List Token) : Bool :=
  startsFunction h ||
    (h.head?.all (·.kind ≠ .keyword .function) && startsFunction h.tail)

/-- A parenthesis behind the history holds a test or a header. -/
def holdsTest (h : List Token) : Bool :=
  h.head?.any (·.kind.takesTest)

theorem length_le_of_mem_unpaired {opener closer : Symbol} {h o : List Token}
    (ho : o ∈ unpaired opener closer h) : o.length ≤ h.length := by
  induction h with
  | nil => simp [unpaired] at ho
  | cons t h ih =>
    rw [unpaired] at ho
    split at ho
    · rcases List.mem_cons.1 ho with rfl | ho
      · exact Nat.le_refl _
      · exact Nat.le_succ_of_le (ih ho)
    · split at ho
      · exact Nat.le_succ_of_le (ih (List.mem_of_mem_tail ho))
      · exact Nat.le_succ_of_le (ih ho)

/-- The brace that is the latest token opens a block. -/
def isBlock (source : List Char) : List Token → Bool
  | [] => false
  | [_] => true
  | t :: u :: h =>
    match u.kind with
    | .symbol .openParen | .symbol .openCurly | .keyword .case => false
    | .symbol .colon =>
      match _ho : openBraces h with
      | [] => false
      | o :: _ => isBlock source o
    | .keyword .return | .keyword .yield => u.lineEndsBetween source t
    | k => !k.isOperator
termination_by h => h.length
decreasing_by
  have hle := length_le_of_mem_unpaired (_ho ▸ List.mem_cons_self)
  simp only [List.length_cons]
  omega

/-- A slash behind the history opens a regular expression; `parameters` tells of
    the history before a parenthesis that it holds the parameters of a function
    expression. -/
def slashOpens (parameters : List Token → Bool) (source : List Char) : List Token → Bool
  | [] => true
  | t :: h =>
    match t.kind with
    | .keyword k => k != .this
    | .reserved => true
    | .symbol .closeParen => (openParens h).head?.any fun o => holdsTest o.tail
    | .symbol .closeCurly => (openBraces h).head?.any fun o =>
      isBlock source o && !(closedParen? o.tail).any fun p => parameters p.tail
    | .symbol s => s != .closeBracket
    | _ => false

/-- The role of a parenthesis behind the history. -/
def roleBehind (h : List Token) : ParenRole := ⟨holdsParameters h, holdsTest h⟩

/-- The role of the brace that is the latest token. -/
def roleOfBrace (source : List Char) (h : List Token) : BraceRole :=
  ⟨isBlock source h, (closedParen? h.tail).map (roleBehind ·.tail)⟩

/-- The role of the latest token, if it is a parenthesis or a brace. -/
def role? (source : List Char) : List Token → Option Role
  | [] => none
  | t :: h =>
    match t.kind with
    | .symbol .openParen => some (.paren (roleBehind h))
    | .symbol .closeParen => (openParens h).head?.map fun o => .paren (roleBehind o.tail)
    | .symbol .openCurly => some (.brace (roleOfBrace source (t :: h)))
    | .symbol .closeCurly => (openBraces h).head?.map fun o => .brace (roleOfBrace source o)
    | _ => none

/-! ## One more token -/

variable {opener closer : Symbol} {t : Token} {h : List Token}

theorem unpaired_of_opener (ht : t.kind = .symbol opener) :
    unpaired opener closer (t :: h) = (t :: h) :: unpaired opener closer h := by
  rw [unpaired, if_pos ht]

theorem unpaired_of_closer (hne : opener ≠ closer) (ht : t.kind = .symbol closer) :
    unpaired opener closer (t :: h) = (unpaired opener closer h).tail := by
  have hopen : t.kind ≠ .symbol opener := by simp [ht, hne.symm]
  rw [unpaired, if_neg hopen, if_pos ht]

theorem unpaired_of_ne (hopen : t.kind ≠ .symbol opener) (hclose : t.kind ≠ .symbol closer) :
    unpaired opener closer (t :: h) = unpaired opener closer h := by
  rw [unpaired, if_neg hopen, if_neg hclose]

/-- Three tokens tell whether parameters follow. -/
theorem holdsParameters_eq (h : List Token) : holdsParameters h =
    match (h.take 3).map Token.kind with
    | .keyword .function :: before :: _ => Grouping.startsExpression before
    | _ :: .keyword .function :: before :: _ => Grouping.startsExpression before
    | _ => false := by
  rcases h with _ | ⟨t, _ | ⟨u, _ | ⟨w, h⟩⟩⟩
  · rfl
  · simp [holdsParameters, startsFunction]
  · simp only [holdsParameters, startsFunction, List.take, List.map]
    split <;> grind
  · simp only [holdsParameters, startsFunction, List.take, List.map]
    split <;> grind

theorem holdsTest_eq (h : List Token) :
    holdsTest h = ((h.take 3).map Token.kind).head?.any Kind.takesTest := by
  cases h <;> rfl

theorem isBlock_cons (source : List Char) (t u : Token) (h : List Token) :
    isBlock source (t :: u :: h) =
      match u.kind with
      | .symbol .openParen | .symbol .openCurly | .keyword .case => false
      | .symbol .colon => (openBraces h).head?.any (isBlock source)
      | .keyword .return | .keyword .yield => u.lineEndsBetween source t
      | k => !k.isOperator := by
  rw [isBlock]
  split
  · rfl
  · rfl
  · rfl
  · split <;> next ho => rw [ho]; rfl
  · rfl
  · rfl
  · rfl

end History

/-! ## The books refine the history -/

namespace Grouping

open History

/-- The books know the last three tokens of the history, the role of the latest
    one, and the roles of the brackets that it leaves open. -/
structure Refines (source : List Char) (h : List Token) (g : Grouping) : Prop where
  recent : g.recent.map Trace.kind = (h.take 3).map Token.kind
  role : g.last?.bind Trace.role = role? source h
  parens : g.parens = (openParens h).map (roleBehind ·.tail)
  braces : g.braces = (openBraces h).map (roleOfBrace source)
  /-- A closing bracket closes one that was open. -/
  matched : ∀ t h', h = t :: h' → (t.kind = .symbol .closeParen → openParens h' ≠ []) ∧
    (t.kind = .symbol .closeCurly → openBraces h' ≠ [])

/-- The lines tell whether one ends between the latest token and the token `t`, on
    the line `line`, where a block depends on it. -/
def LinesTell (source : List Char) (h : List Token) (g : Grouping) (t : Token)
    (line : UInt32) : Prop :=
  ∀ u h', h = u :: h' → u.kind = .keyword .return ∨ u.kind = .keyword .yield →
    ∀ trace, g.last? = some trace → (trace.line ≠ line ↔ u.lineEndsBetween source t)

variable {source : List Char} {h : List Token} {g g' : Grouping} {t : Token} {line : UInt32}
  {start : Nat}

theorem refines_empty (source : List Char) : Refines source [] .empty :=
  ⟨rfl, rfl, rfl, rfl, fun _ _ hne => by simp at hne⟩

namespace Refines

theorem last?_nil (hg : Refines source [] g) : g.last? = none := by
  have hrecent : g.recent = [] := by simpa using hg.recent
  rw [last?, hrecent]
  rfl

/-- What the books know of the latest token. -/
theorem last?_cons (hg : Refines source (t :: h) g) :
    ∃ trace, g.last? = some trace ∧ trace.kind = t.kind ∧ trace.role = role? source (t :: h) := by
  have hrecent := hg.recent
  have hrole := hg.role
  rw [last?] at hrole ⊢
  cases hr : g.recent with
  | nil => simp [hr] at hrecent
  | cons trace traces =>
    rw [hr] at hrecent hrole
    exact ⟨trace, rfl, (List.cons.inj hrecent).1, hrole⟩

theorem parenRole_eq (hg : Refines source h g) : parenRole g.recent = roleBehind h := by
  have htest := holdsTest_eq h
  rw [← hg.recent, List.head?_map, Option.any_map] at htest
  rw [roleBehind, holdsParameters_eq, htest, ← hg.recent]
  rfl

/-- The books know the parentheses that were closed last. -/
theorem closedParens?_eq (hg : Refines source h g) :
    g.last?.bind closedParens? = (closedParen? h).map (roleBehind ·.tail) := by
  cases h with
  | nil => rw [hg.last?_nil]; rfl
  | cons t h =>
    obtain ⟨trace, hlast, hkind, hrole⟩ := hg.last?_cons
    rw [hlast, Option.bind_some, closedParens?, hkind, hrole, closedParen?, role?]
    by_cases ht : t.kind = .symbol .closeParen
    · rw [if_pos ht, ht]
      cases (openParens h).head? <;> rfl
    · rw [if_neg ht]
      split
      · next hk _ => exact absurd hk ht
      · rfl

/-- The books tell a block, if the lines tell whether one ends before it. -/
theorem opensBlock_eq (hg : Refines source h g)
    (hline : LinesTell source h g t line) :
    opensBlock g.last? g.braces.head? line = isBlock source (t :: h) := by
  cases h with
  | nil =>
    rw [hg.last?_nil, isBlock]
    rfl
  | cons u h =>
    obtain ⟨trace, hlast, hkind, -⟩ := hg.last?_cons
    rw [hlast, isBlock_cons, opensBlock]
    simp only [hkind]
    have hlines (hu : u.kind = .keyword .return ∨ u.kind = .keyword .yield) :
        (trace.line != line) = u.lineEndsBetween source t := by
      rw [Bool.eq_iff_iff, bne_iff_ne]
      exact hline u h rfl hu trace hlast
    -- Behind a colon, the innermost open brace decides.
    have hbraces (hu : u.kind = .symbol .colon) :
        g.braces.head?.any (·.block) = (openBraces h).head?.any (isBlock source) := by
      rw [hg.braces, openBraces, unpaired_of_ne (by simp [hu]) (by simp [hu]), List.head?_map,
        Option.any_map]
      rfl
    cases hu : u.kind with
    | symbol sym =>
      cases sym with
      | colon => exact hbraces hu
      | _ => rfl
    | keyword word =>
      cases word with
      | «return» => exact hlines (.inl hu)
      | yield => exact hlines (.inr hu)
      | _ => rfl
    | _ => rfl

/-- The books know the role of a brace that opens. -/
theorem braceRole_eq (hg : Refines source h g)
    (hline : LinesTell source h g t line) :
    g.braceRole line = roleOfBrace source (t :: h) := by
  rw [braceRole, roleOfBrace, hg.opensBlock_eq hline, hg.closedParens?_eq]
  rfl

/-- The latest three tokens are remembered. -/
theorem recent_remember (hg : Refines source h g) {trace : Trace} (ht : trace.kind = t.kind) :
    (g.remember trace).recent.map Trace.kind = ((t :: h).take 3).map Token.kind := by
  have hrecent := hg.recent
  rw [remember, List.map_take, List.map_cons, hrecent, List.take_succ_cons, List.take_succ_cons,
    ← List.map_take, List.take_take, List.map_cons, ht]
  rfl

/-- A token that is no parenthesis leaves the open ones alone. -/
theorem parens_cons (hg : Refines source h g) (hopen : t.kind ≠ .symbol .openParen)
    (hclose : t.kind ≠ .symbol .closeParen) :
    g.parens = (openParens (t :: h)).map (roleBehind ·.tail) := by
  rw [openParens, unpaired_of_ne hopen hclose]
  exact hg.parens

/-- A token that is no brace leaves the open ones alone. -/
theorem braces_cons (hg : Refines source h g) (hopen : t.kind ≠ .symbol .openCurly)
    (hclose : t.kind ≠ .symbol .closeCurly) :
    g.braces = (openBraces (t :: h)).map (roleOfBrace source) := by
  rw [openBraces, unpaired_of_ne hopen hclose]
  exact hg.braces

/-- The books refine the history with one more token. -/
theorem enter (hg : Refines source h g)
    (hline : t.kind = .symbol .openCurly → LinesTell source h g t line)
    (he : g.enter t.kind line start = .ok g') : Refines source (t :: h) g' := by
  cases enter_eq_ok_iff.1 he with
  | openParen ht =>
    exact
      { recent := hg.recent_remember rfl
        role := by
          rw [role?, ht, ← hg.parenRole_eq]
          rfl
        parens := by
          rw [openParens, unpaired_of_opener ht, List.map_cons, List.tail_cons, ← hg.parens,
            ← hg.parenRole_eq]
          rfl
        braces := hg.braces_cons (by simp [ht]) (by simp [ht])
        matched := by
          rintro _ _ ⟨⟩
          simp [ht] }
  | openCurly ht =>
    have hrole := hg.braceRole_eq (hline ht)
    exact
      { recent := hg.recent_remember rfl
        role := by
          rw [role?, ht, ← hrole]
          rfl
        parens := hg.parens_cons (by simp [ht]) (by simp [ht])
        braces := by
          rw [openBraces, unpaired_of_opener ht, List.map_cons, ← hg.braces, ← hrole]
          rfl
        matched := by
          rintro _ _ ⟨⟩
          simp [ht] }
  | closeParen ht hopen =>
    -- The parenthesis that is closed was open in the history, too.
    obtain ⟨o, rest, ho, rfl, rfl⟩ := List.map_eq_cons_iff.1 (hg.parens.symm.trans hopen)
    exact
      { recent := hg.recent_remember rfl
        role := by
          rw [role?, ht, ho]
          rfl
        parens := by
          rw [openParens, unpaired_of_closer (by decide) ht, ← openParens, ho]
          rfl
        braces := hg.braces_cons (by simp [ht]) (by simp [ht])
        matched := by
          rintro _ _ ⟨⟩
          simp [ht, ho] }
  | closeCurly ht hopen =>
    obtain ⟨o, rest, ho, rfl, rfl⟩ := List.map_eq_cons_iff.1 (hg.braces.symm.trans hopen)
    exact
      { recent := hg.recent_remember rfl
        role := by
          rw [role?, ht, ho]
          rfl
        parens := hg.parens_cons (by simp [ht]) (by simp [ht])
        braces := by
          rw [openBraces, unpaired_of_closer (by decide) ht, ← openBraces, ho]
          rfl
        matched := by
          rintro _ _ ⟨⟩
          simp [ht, ho] }
  | other hopen hcurly hclose hcloseCurly =>
    exact
      { recent := hg.recent_remember rfl
        role := by
          rw [role?]
          split <;> first | rfl | contradiction
        parens := hg.parens_cons hopen hclose
        braces := hg.braces_cons hcurly hcloseCurly
        matched := by
          rintro _ _ ⟨⟩
          exact ⟨fun ht => absurd ht hclose, fun ht => absurd ht hcloseCurly⟩ }

/-- A slash means to the books what it means behind the history. -/
theorem slashOpensRegExp_eq (hg : Refines source h g) :
    g.slashOpensRegExp = slashOpens holdsParameters source h := by
  cases h with
  | nil =>
    rw [slashOpensRegExp, hg.last?_nil]
    rfl
  | cons t h =>
    obtain ⟨trace, hlast, hkind, hrole⟩ := hg.last?_cons
    obtain ⟨hparen, hcurly⟩ := hg.matched t h rfl
    rw [slashOpensRegExp, hlast, slashOpens]
    simp only [hkind, hrole, role?]
    cases hk : t.kind with
    | symbol s =>
      by_cases hs : s = .closeParen
      · subst hs
        obtain ⟨o, rest, ho⟩ := List.exists_cons_of_ne_nil (hparen hk)
        rw [ho]
        rfl
      · by_cases hs' : s = .closeCurly
        · subst hs'
          obtain ⟨o, rest, ho⟩ := List.exists_cons_of_ne_nil (hcurly hk)
          rw [ho]
          simp only [List.head?_cons, Option.map_some, Option.any_some, roleOfBrace,
            Option.any_map]
          rfl
        · split <;> simp_all
    | _ => rfl

end Refines

end Grouping

end ScriptExcerpt
