import ScriptExcerpt.Proofs.Lexeme.Verdict

/-!
# Lexemes are local

A closing parenthesis or brace is a lexeme by itself, and no lexeme before it
looks past it: it either belongs to a literal or comment, or ends the lexeme.
So what is read before a closing bracket does not depend on what follows it.

* `Closer.lexemeAt_eq`, `Closer.of_lexemeAt`: what is read as a closing bracket.
* `local_lexemeAt`: reading a lexeme moves on, and depends neither on where the
  lexeme stands nor on what follows a closing bracket behind it.
-/

namespace ScriptExcerpt

open Text

/-! ## Closing brackets -/

/-- The character closes parentheses or braces, and is read as the kind. -/
inductive Closer : Char → Kind → Prop
  | paren : Closer ')' (.symbol .closeParen)
  | curly : Closer '}' (.symbol .closeCurly)

namespace Closer

variable {c : Char} {k : Kind}

theorem inked (h : Closer c k) : Inked c := by
  cases h <;> constructor <;> decide

theorem ne_endOfInput (h : Closer c k) : k ≠ .endOfInput := by
  cases h <;> simp

/-- A closing bracket is a lexeme by itself, whatever follows it. -/
theorem lexemeAt_eq (h : Closer c k) (v : Version) (lineIsBlank : Bool) (behind : Cursor) :
    lexemeAt v lineIsBlank c behind = ⟨.ok k, behind.offset, behind, none⟩ := by
  have hname : (c = '\\' || isNameStart c) = false := by cases h <;> decide
  have hnumber : (isDigitOf 10 c || c = '.') = false := by cases h <;> decide
  have hquote : isQuote c = false := by cases h <;> decide
  have hkind : Operator.kindOf? (Operator.spellings v lineIsBlank) [c] = some k := by
    cases h <;> cases v <;> cases lineIsBlank <;> decide
  have hlong : Operator.extends? (Operator.spellings v lineIsBlank) [c] = false := by
    cases h <;> cases v <;> cases lineIsBlank <;> decide
  simp only [lexemeAt, hname, hnumber, hquote, Lexeme.symbol, hkind, hlong, Bool.false_eq_true,
    if_false]

/-- A closing bracket stands in no spelling but its own. -/
theorem eq_of_mem_spelling (h : Closer c k) {v : Version} {lineIsBlank : Bool}
    {p : List Char × Kind} (hp : p ∈ Operator.spellings v lineIsBlank) (hc : c ∈ p.1) :
    p.1 = [c] := by
  have hall : ∀ p ∈ Operator.spellings v lineIsBlank, c ∈ p.1 → p.1 = [c] := by
    cases h <;> cases v <;> cases lineIsBlank <;> decide
  exact hall p hp hc

/-- What is read as a closing bracket begins with it. -/
theorem of_lexemeAt (h : Closer c k) {v : Version} {lineIsBlank : Bool} {d : Char}
    {behind : Cursor} (hd : (lexemeAt v lineIsBlank d behind).verdict = .ok k) : d = c := by
  -- A bracket is no word and no literal, so it comes from the table.
  rcases kind_lexemeAt hd with hw | hk | hk | hk | hk | ⟨rest, hm⟩
  · cases h <;> simp [Kind.isWord] at hw
  · cases h <;> simp at hk
  · cases h <;> simp at hk
  · cases h <;> simp at hk
  · cases h <;> simp at hk
  · have hall : ∀ p ∈ Operator.spellings v lineIsBlank, p.2 = k → p.1 = [c] := by
      cases h <;> cases v <;> cases lineIsBlank <;> decide
    exact (List.cons.inj (hall _ hm rfl)).1

end Closer

/-- A character that stands in no spelling but its own is not probed. -/
theorem Operator.settles {table : List (List Char × Kind)} {c : Char}
    (h : ∀ p ∈ table, c ∈ p.1 → p.1 = [c]) : (recognizer table).Settles c := by
  intro s t
  simp only [recognizer, step]
  split
  · split <;> simp
  · split
    · next hlong =>
      -- A spelling that goes on behind `c` is longer than `c` alone.
      obtain ⟨p, hp, hlt⟩ := List.any_eq_true.1 hlong
      simp only [Bool.and_eq_true, decide_eq_true_eq, List.isPrefixOf_iff_prefix] at hlt
      have hc : c ∈ p.1 := hlt.1.subset (by simp)
      rw [h p hp hc, List.length_append] at hlt
      exact absurd hlt.2 (by simp)
    · simp

theorem Name.settles (c : Char) : Name.recognizer.Settles c := by
  intro s t
  cases s <;> simp only [recognizer, step] <;> grind

theorem Number.settles (v : Version) {c : Char} (hc : c ≠ '_') :
    (Number.recognizer v).Settles c := by
  intro s t
  cases s <;> simp only [recognizer, step, stepBehindWhole] <;> grind

theorem Quotation.settles (quote c : Char) : (Quotation.recognizer quote).Settles c := by
  intro s t
  cases s <;> simp only [recognizer, step, stepText] <;> grind

theorem Comment.settles_line (c : Char) : lineRecognizer.Settles c := by
  intro s t
  simp only [lineRecognizer]
  grind

theorem Comment.settles_block (c : Char) : blockRecognizer.Settles c := by
  intro s t
  simp only [blockRecognizer]
  grind

theorem RegExp.settles (c : Char) : RegExp.recognizer.Settles c := by
  intro s t
  cases s <;> simp only [recognizer, step, stepBody] <;> grind

/-! ## Lexemes are local -/

/-- The same lexeme, `d` bytes further on. -/
def Lexeme.shift (d : Nat) (l : Lexeme) : Lexeme :=
  { l with stop := l.stop + d, cursor := l.cursor.shift d }

/-- The same lexeme, if `t` follows the text that was read. -/
def Lexeme.before (t : List Char) (l : Lexeme) : Lexeme := { l with cursor := l.cursor.before t }

/-- A way to read a lexeme from a cursor on is local if it only moves on, does
    not depend on where the cursor stands, and, if it leaves a closing bracket
    unread, neither on what follows that bracket. -/
structure Lexeme.Local (F : Cursor → Lexeme) : Prop where
  leads (cur : Cursor) : cur.Leads (F cur).cursor
  shift (d : Nat) (cur : Cursor) : F (cur.shift d) = (F cur).shift d
  before {c : Char} {k : Kind} {cur : Cursor} {tail : List Char} (hc : Closer c k)
    (h : (c :: tail).length ≤ (F (cur.before (c :: tail))).cursor.rest.length) :
    ∃ l : Lexeme, ∀ tail', F (cur.before (c :: tail')) = l.before (c :: tail')

namespace Lexeme

/-- The lexeme that is made of the outcome of a run which started at the offset
    `start`. The verdict of the run tells the verdict on the lexeme, whether it
    covers what was read, and its value. -/
def ofRun {ρ : Type} (make : Except Fault ρ → Except Fault Kind × Bool × Option (List Char))
    (start : Nat) (o : Outcome ρ Fault) : Lexeme where
  verdict := (make o.verdict).1
  stop := bif (make o.verdict).2.1 then o.cursor.offset else start
  cursor := o.cursor
  value := (make o.verdict).2.2

/-- A lexeme that is made of a run is local, if the run probes no closing
    bracket. -/
theorem local_ofRun {σ ρ : Type} {M : Recognizer σ ρ Fault}
    (hM : ∀ {c k}, Closer c k → M.Settles c) (s : σ)
    (make : Except Fault ρ → Except Fault Kind × Bool × Option (List Char)) :
    Local fun cur => ofRun make cur.offset (M.runFrom s cur) where
  leads cur := Recognizer.leads_runFrom ..
  shift d cur := by
    have hstop (o : Outcome ρ Fault) : (ofRun make (cur.offset + d) (o.shift d)).stop =
        (ofRun make cur.offset o).stop + d := by
      simp only [ofRun, Outcome.shift]
      cases (make o.verdict).2.1 <;> rfl
    simp only [Recognizer.runFrom_shift]
    exact congrArg (fun n => Lexeme.mk _ n _ _) (hstop (M.runFrom s cur))
  before := by
    intro c k cur tail hc h
    obtain ⟨o, ho⟩ := Recognizer.runFrom_before (hM hc) hc.inked h
    exact ⟨ofRun make cur.offset o, fun tail' => by simp only [ho]; rfl⟩

theorem local_name (v : Version) (c : Char) : Local (name v c) := by
  have heq : name v c = fun cur => ofRun
      (fun
        | .ok (word, escaped) =>
          (.ok (Name.kind v word escaped), true, some (Name.value v word escaped))
        | .error f => (.error f, false, none))
      cur.offset (Name.recognizer.runFrom (Name.start c) cur) := by
    funext cur
    rw [name]
    split <;> (next h => simp only [ofRun, h]; rfl)
  rw [heq]
  exact local_ofRun (fun _ => Name.settles _) _ _

theorem local_number (v : Version) (c : Char) : Local (number v c) := by
  have heq : number v c = fun cur => ofRun
      (fun
        | .ok (some value) => (.ok .number, true, some value)
        | .ok none => (.ok (.symbol .dot), false, none)
        | .error f => (.error f, false, none))
      cur.offset ((Number.recognizer v).runFrom (Number.start c) cur) := by
    funext cur
    rw [number]
    split <;> (next h => simp only [ofRun, h]; rfl)
  rw [heq]
  exact local_ofRun (fun hb => Number.settles v (by cases hb <;> decide)) _ _

theorem local_quotation (c : Char) : Local (quotation c) := by
  have heq : quotation c = fun cur => ofRun
      (fun verdict => (verdict.map fun _ => if c = '`' then .template else .string,
        verdict.isOk, verdict.toOption.map CodeUnit.Decoder.value))
      cur.offset ((Quotation.recognizer c).runFrom (.text .empty) cur) := by
    funext cur
    rw [quotation]
    split <;> (next h => simp only [ofRun, h]; rfl)
  rw [heq]
  exact local_ofRun (fun _ => Quotation.settles c _) _ _

theorem local_lineComment : Local lineComment :=
  local_ofRun (fun _ => Comment.settles_line _) ()
    fun verdict => (verdict.map fun _ => .lineComment, true, none)

theorem local_blockComment : Local blockComment :=
  local_ofRun (fun _ => Comment.settles_block _) false
    fun verdict => (verdict.map fun _ => .blockComment, true, none)

/-- What an operator is, once its longest spelling was read. -/
def afterOperator (start : Nat) (o : Outcome Kind Fault) : Lexeme :=
  match o.verdict with
  | .ok .lineComment => lineComment o.cursor
  | .ok .blockComment => blockComment o.cursor
  | .ok k => ⟨.ok k, o.taken, o.cursor, none⟩
  | .error f => ⟨.error f, start, o.cursor, none⟩

theorem afterOperator_shift (d start : Nat) (o : Outcome Kind Fault) :
    afterOperator (start + d) (o.shift d) = (afterOperator start o).shift d := by
  obtain ⟨f | k, taken, cursor⟩ := o
  · rfl
  · cases k with
    | lineComment => exact local_lineComment.shift d cursor
    | blockComment => exact local_blockComment.shift d cursor
    | _ => rfl

theorem leads_afterOperator (start : Nat) (o : Outcome Kind Fault) :
    o.cursor.Leads (afterOperator start o).cursor := by
  rw [afterOperator]
  split
  · exact local_lineComment.leads _
  · exact local_blockComment.leads _
  · exact .refl _
  · exact .refl _

theorem afterOperator_before {b : Char} {k : Kind} {tail : List Char} (hb : Closer b k)
    {start : Nat} {o : Outcome Kind Fault}
    (h : (b :: tail).length ≤ (afterOperator start (o.before (b :: tail))).cursor.rest.length) :
    ∃ l : Lexeme, ∀ tail', afterOperator start (o.before (b :: tail')) = l.before (b :: tail') := by
  obtain ⟨f | k, taken, cursor⟩ := o
  · exact ⟨⟨.error f, start, cursor, none⟩, fun _ => rfl⟩
  · cases k with
    | lineComment => exact local_lineComment.before hb h
    | blockComment => exact local_blockComment.before hb h
    | _ => exact ⟨⟨.ok _, taken, cursor, none⟩, fun _ => rfl⟩

theorem local_symbol {table : List (List Char × Kind)}
    (ht : ∀ {b k}, Closer b k → ∀ p ∈ table, b ∈ p.1 → p.1 = [b]) (c : Char) :
    Local (symbol table c) where
  leads cur := by
    rw [symbol]
    split
    · exact .refl _
    · split
      · exact (Recognizer.leads_runFrom ..).trans (leads_afterOperator _ _)
      · exact .refl _
  shift d cur := by
    rw [symbol, symbol]
    split
    · rfl
    · split
      · rw [Recognizer.runFrom_shift]
        exact afterOperator_shift d _ _
      · rfl
  before := by
    intro b k cur tail hb h
    simp only [symbol] at h ⊢
    cases hk : Operator.kindOf? table [c] with
    | none => exact ⟨⟨.error ⟨.illegalCharacter c, .opening⟩, cur.offset, cur, none⟩, fun _ => rfl⟩
    | some kind =>
      by_cases hlong : Operator.extends? table [c]
      · -- The run of the operator leaves the bracket unread, as what is read
        -- behind it does.
        simp only [hk, hlong, if_true] at h ⊢
        have hle := (leads_afterOperator cur.offset
          ((Operator.recognizer table).runFrom ⟨[c], kind⟩ (cur.before (b :: tail)))).length_le
        obtain ⟨o, ho⟩ := Recognizer.runFrom_before (Operator.settles (ht hb)) hb.inked
          (Nat.le_trans h hle)
        simp only [ho] at h ⊢
        exact afterOperator_before hb h
      · exact ⟨⟨.ok kind, cur.offset, cur, none⟩, fun _ => by simp only [hlong]; rfl⟩

end Lexeme

/-- Reading a lexeme is local. -/
theorem local_lexemeAt (v : Version) (lineIsBlank : Bool) (c : Char) :
    Lexeme.Local (lexemeAt v lineIsBlank c) := by
  have heq : lexemeAt v lineIsBlank c = if c = '\\' || isNameStart c then Lexeme.name v c
      else if isDigitOf 10 c || c = '.' then Lexeme.number v c
      else if isQuote c then Lexeme.quotation c
      else Lexeme.symbol (Operator.spellings v lineIsBlank) c := by
    funext cur
    rw [lexemeAt]
    split
    · rfl
    · split
      · rfl
      · split <;> rfl
  rw [heq]
  split
  · exact Lexeme.local_name v c
  · split
    · exact Lexeme.local_number v c
    · split
      · exact Lexeme.local_quotation c
      · exact Lexeme.local_symbol (fun hb p hp => hb.eq_of_mem_spelling hp) c

end ScriptExcerpt
