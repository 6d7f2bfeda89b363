import ScriptExcerpt.Proofs.Lexeme.Longest

/-!
# Openings of comments

The openings of comments stand in the table of spellings with the symbols, so that the run that
reads symbols reads them as well. No spelling goes on with an opening. So where the visible text
begins with one, the opening is read, all of it, and nothing else; the rest of the comment begins
right behind it.

* `Operator.exists_opening_of_run`: what a run read that recognized a comment;
* `lexemeAt_of_begins`: where the text begins with an opening, the comment is read;
* `begins_of_lexemeAt`: no other lexeme is a comment.
-/

namespace ScriptExcerpt

open Text

/-! ## Verdicts without faults -/

/-- A recognizer that finds no fault recognizes something. -/
theorem Recognizer.exists_verdict {σ ρ ε : Type} {M : Recognizer σ ρ ε}
    (hM : M.Ensures (fun _ => True) (fun _ => True) fun _ => False) (s : σ) (cur : Cursor) :
    ∃ r, (M.runFrom s cur).verdict = .ok r := by
  have hverdict := hM.runFrom (s := s) trivial cur
  cases hv : (M.runFrom s cur).verdict with
  | ok r => exact ⟨r, rfl⟩
  | error e =>
    rw [hv] at hverdict
    exact hverdict.elim

/-- There is nothing wrong with a line comment. -/
theorem Comment.verdict_line (cur : Cursor) : (lineRecognizer.runFrom () cur).verdict = .ok () := by
  obtain ⟨r, hr⟩ := Recognizer.exists_verdict (M := lineRecognizer)
    { step := fun s c _ => by simp only [lineRecognizer]; split <;> trivial
      atEnd := fun s _ => trivial } () cur
  exact hr

theorem Lexeme.verdict_lineComment (cur : Cursor) :
    (lineComment cur).verdict = .ok .lineComment := by
  rw [lineComment, Comment.verdict_line]
  rfl

/-- There is nothing wrong with a symbol that begins. -/
theorem Operator.exists_verdict (table : List (List Char × Kind)) (s : State) (cur : Cursor) :
    ∃ k, ((recognizer table).runFrom s cur).verdict = .ok k := by
  refine Recognizer.exists_verdict { step := fun s c _ => ?_, atEnd := fun s _ => ?_ } s cur
  · simp only [recognizer, step]
    split <;> split <;> trivial
  · simp only [recognizer, atEnd]
    split <;> trivial

/-! ## Openings that are read -/

namespace Operator

variable {v : Version} {lineIsBlank : Bool} {q : List Char × Kind} {c : Char} {k k₀ : Kind}
  {text : List Char} {behind : Cursor}

/-- What opens a comment begins no other spelling. -/
theorem eq_of_begins (hq : q ∈ commentOpenings lineIsBlank) {p : List Char × Kind}
    (hp : p ∈ spellings v lineIsBlank) (h : q.1 <+: p.1) : p = q := by
  have hall : ∀ q ∈ commentOpenings lineIsBlank, ∀ p ∈ spellings v lineIsBlank,
      q.1.isPrefixOf p.1 → p = q := by
    cases v <;> cases lineIsBlank <;> decide +kernel
  exact hall q hq p hp (List.isPrefixOf_iff_prefix.2 h)

theorem not_extends_of_mem (hq : q ∈ commentOpenings lineIsBlank) :
    extends? (spellings v lineIsBlank) q.1 = false := by
  rw [← Bool.not_eq_true]
  intro hlong
  obtain ⟨p, hp, hbegins, hlt⟩ := extends?_iff.1 hlong
  rw [eq_of_begins hq hp hbegins] at hlt
  exact Nat.lt_irrefl _ hlt

theorem ne_nil_of_mem (hq : q ∈ commentOpenings lineIsBlank) : q.1 ≠ [] := by
  have hall : ∀ q ∈ commentOpenings lineIsBlank, q.1 ≠ [] := by
    cases lineIsBlank <;> decide
  exact hall q hq

/-- A text that begins with an opening has its first character. -/
theorem head?_of_begins (hq : q ∈ commentOpenings lineIsBlank) (h : q.1 <+: c :: text) :
    q.1.head? = some c := by
  obtain ⟨x, rest, hx⟩ := List.exists_cons_of_ne_nil (ne_nil_of_mem hq)
  rw [hx] at h ⊢
  exact congrArg some (List.cons_prefix_cons.1 h).1

/-- Among the spellings of a version, the trivia are the openings of comments. -/
theorem mem_commentOpenings (hk : k.isTrivia)
    (h : kindOf? (spellings v lineIsBlank) text = some k) :
    (text, k) ∈ commentOpenings lineIsBlank := by
  rcases List.mem_append.1 (mem_of_kindOf? h) with hsymbol | hcomment
  · obtain ⟨s, -, he⟩ := List.mem_map.1 hsymbol
    obtain rfl : Kind.symbol s = k := (Prod.mk.inj he).2
    exact absurd hk Bool.false_ne_true
  · exact hcomment

/-- A run that recognizes a comment took an opening, and goes on right behind it. -/
theorem exists_opening_of_run (hb : behind.place.OnLine) (hk : k.isTrivia)
    (hc : kindOf? (spellings v lineIsBlank) [c] = some k₀)
    (hlong : extends? (spellings v lineIsBlank) [c])
    (h : ((recognizer (spellings v lineIsBlank)).runFrom ⟨[c], k₀⟩ behind).verdict = .ok k) :
    ∃ w m, behind.Passes w m ∧ m.place.OnLine ∧ (c :: visible w, k) ∈ commentOpenings lineIsBlank ∧
      (recognizer (spellings v lineIsBlank)).runFrom ⟨[c], k₀⟩ behind = ⟨.ok k, m.offset, m⟩ := by
  obtain ⟨w, m, hw, hpasses, -, -⟩ := spells_of_run inked_spellings hc hb h
  have hopening := mem_commentOpenings hk hw.kind
  obtain ⟨p, rest⟩ := behind
  obtain rfl : rest = w ++ m.rest := hpasses.1
  have hrun := runFrom_of_spells inked_spellings hw hc hlong hb m.rest
  rw [not_extends_of_mem hopening, if_neg Bool.false_ne_true] at hrun
  refine ⟨w, ⟨p.through w, m.rest⟩, Cursor.passes_through p w m.rest, ?_, hopening, hrun⟩
  refine Place.onLine_through hb fun x hx => ?_
  rcases hw.inked_or_isInvisible inked_spellings hx with hinked | hinvisible
  · exact hinked.not_lineEnd
  · exact not_isLineEnd_of_isInvisible hinvisible

/-- Where the visible text begins with an opening, a run recognizes the comment. -/
theorem run_of_begins (hb : behind.place.OnLine) (hq : q ∈ commentOpenings lineIsBlank)
    (h : q.1 <+: c :: visible behind.rest)
    (hc : kindOf? (spellings v lineIsBlank) [c] = some k₀) :
    ((recognizer (spellings v lineIsBlank)).runFrom ⟨[c], k₀⟩ behind).verdict = .ok q.2 := by
  have hmem : q ∈ spellings v lineIsBlank := List.mem_append_right _ hq
  obtain ⟨k, hk⟩ := exists_verdict (spellings v lineIsBlank) ⟨[c], k₀⟩ behind
  obtain ⟨spelling, hlongest⟩ := longest_of_run inked_spellings hb (longest_self hc) hk
  have hbegins : q.1 <+: spelling :=
    List.prefix_of_prefix_length_le h hlongest.begins (hlongest.length_le hmem h)
  rw [hk, ← eq_of_begins hq (mem_of_kindOf? hlongest.kind) hbegins]

end Operator

/-! ## Lexemes -/

namespace Lexeme

variable {v : Version} {lineIsBlank : Bool} {q : List Char × Kind} {c : Char} {k k₀ : Kind}
  {behind : Cursor}

theorem symbol_eq_afterOperator {table : List (List Char × Kind)}
    (hc : Operator.kindOf? table [c] = some k₀) (hlong : Operator.extends? table [c]) :
    symbol table c behind =
      afterOperator behind.offset ((Operator.recognizer table).runFrom ⟨[c], k₀⟩ behind) := by
  rw [symbol, hc]
  simp only [hlong, if_true]
  rfl

/-- A comment is told only where the run recognized one of its kind. -/
theorem eq_of_afterOperator {start : Nat} {o : Outcome Kind Fault} {k' : Kind}
    (ho : o.verdict = .ok k') (h : (afterOperator start o).verdict = .ok k) : k' = k := by
  rw [afterOperator] at h
  split at h
  · next hline =>
    rw [verdict_lineComment] at h
    exact (Except.ok.inj (ho.symm.trans hline)).trans (Except.ok.inj h)
  · next hblock =>
    have hk := (ensures_blockComment (P := (· = .blockComment)) rfl o.cursor).ok h
    exact (Except.ok.inj (ho.symm.trans hblock)).trans hk.symm
  · next hother => exact (Except.ok.inj (ho.symm.trans hother)).trans (Except.ok.inj h)
  · simp at h

/-- A symbol that is read as a comment begins with an opening. -/
theorem begins_of_symbol (hb : behind.place.OnLine) (hk : k.isTrivia)
    (h : (symbol (Operator.spellings v lineIsBlank) c behind).verdict = .ok k) :
    ∃ q ∈ Operator.commentOpenings lineIsBlank, q.2 = k ∧ q.1 <+: c :: visible behind.rest := by
  cases hc : Operator.kindOf? (Operator.spellings v lineIsBlank) [c] with
  | none => simp [symbol, hc] at h
  | some k₀ =>
    by_cases hlong : Operator.extends? (Operator.spellings v lineIsBlank) [c]
    · rw [symbol_eq_afterOperator hc hlong] at h
      obtain ⟨k', ho⟩ := Operator.exists_verdict (Operator.spellings v lineIsBlank) ⟨[c], k₀⟩ behind
      obtain rfl := eq_of_afterOperator ho h
      obtain ⟨w, m, hw, -, hopening, -⟩ := Operator.exists_opening_of_run hb hk hc hlong ho
      refine ⟨_, hopening, rfl, visible m.rest, ?_⟩
      rw [hw.1, visible_append]
      rfl
    · -- No comment opens with a single character.
      rw [symbol, hc] at h
      simp only [hlong] at h
      obtain rfl := Except.ok.inj h
      exact absurd ((Operator.isTrivia_of_kindOf?_singleton hc).symm.trans hk) Bool.false_ne_true

end Lexeme

variable {v : Version} {lineIsBlank : Bool} {q : List Char × Kind} {c : Char} {k : Kind}
  {behind : Cursor}

/-- What is read as a comment begins with an opening. -/
theorem begins_of_lexemeAt (hb : behind.place.OnLine) (hk : k.isTrivia)
    (h : (lexemeAt v lineIsBlank c behind).verdict = .ok k) :
    ∃ q ∈ Operator.commentOpenings lineIsBlank, q.2 = k ∧ q.1 <+: c :: visible behind.rest := by
  revert h
  refine lexemeAt_cases (P := fun l => l.verdict = .ok k → _) (fun _ h => ?_) (fun _ h => ?_)
    (fun _ h => ?_) (Lexeme.begins_of_symbol hb hk)
  · have hnot := Kind.not_isTrivia_of_isWord ((Lexeme.ensures_name v c behind).ok h)
    exact absurd (hnot.symm.trans hk) Bool.false_ne_true
  · rcases (Lexeme.ensures_number v c behind).ok h with rfl | rfl <;>
      exact absurd hk Bool.false_ne_true
  · rcases (Lexeme.ensures_quotation c behind).ok h with rfl | rfl <;>
      exact absurd hk Bool.false_ne_true

/-- An opening starts with a sign that begins nothing but symbols and comments. -/
theorem lexemeAt_of_mem (hq : q ∈ Operator.commentOpenings lineIsBlank) (hc : q.1.head? = some c)
    (behind : Cursor) :
    lexemeAt v lineIsBlank c behind = Lexeme.symbol (Operator.spellings v lineIsBlank) c behind ∧
      Operator.extends? (Operator.spellings v lineIsBlank) [c] ∧
      ∃ k₀, Operator.kindOf? (Operator.spellings v lineIsBlank) [c] = some k₀ := by
  have hall : ∀ q ∈ Operator.commentOpenings lineIsBlank, q.1.head?.all fun c =>
      !(decide (c = '\\') || isNameStart c) && !(isDigitOf 10 c || decide (c = '.')) &&
        !isQuote c && Operator.extends? (Operator.spellings v lineIsBlank) [c] &&
        (Operator.kindOf? (Operator.spellings v lineIsBlank) [c]).isSome := by
    cases v <;> cases lineIsBlank <;> decide +kernel
  have hsign := hall q hq
  simp only [hc, Option.all_some, Bool.and_eq_true, Bool.not_eq_true'] at hsign
  obtain ⟨⟨⟨⟨hname, hnumber⟩, hquote⟩, hlong⟩, hkind⟩ := hsign
  refine ⟨?_, hlong, Option.isSome_iff_exists.1 hkind⟩
  simp only [lexemeAt, hname, hnumber, hquote, Bool.false_eq_true, if_false]

/-- Where the visible text begins with an opening, the opening is read, and then the rest of the
    comment. -/
theorem lexemeAt_of_begins (v : Version) (hb : behind.place.OnLine)
    (hq : q ∈ Operator.commentOpenings lineIsBlank) (h : q.1 <+: c :: visible behind.rest) :
    ∃ w m, behind.Passes w m ∧ m.place.OnLine ∧ c :: visible w = q.1 ∧
      lexemeAt v lineIsBlank c behind =
        Lexeme.afterOperator behind.offset ⟨.ok q.2, m.offset, m⟩ := by
  obtain ⟨hsymbol, hlong, k₀, hc⟩ :=
    lexemeAt_of_mem (v := v) hq (Operator.head?_of_begins hq h) behind
  have ho := Operator.run_of_begins hb hq h hc
  have htrivia := Operator.isTrivia_of_commentOpening hq
  obtain ⟨w, m, hw, hm, hopening, hrun⟩ := Operator.exists_opening_of_run hb htrivia hc hlong ho
  refine ⟨w, m, hw, hm, ?_, by rw [hsymbol, Lexeme.symbol_eq_afterOperator hc hlong, hrun]⟩
  -- Of two openings that the text begins with, one begins the other.
  have hbegins : c :: visible w <+: c :: visible behind.rest :=
    ⟨visible m.rest, by rw [hw.1, visible_append]; rfl⟩
  rcases List.prefix_or_prefix_of_prefix h hbegins with hle | hle
  · exact congrArg Prod.fst
      (Operator.eq_of_begins (v := v) hq (List.mem_append_right _ hopening) hle)
  · exact (congrArg Prod.fst
      (Operator.eq_of_begins (v := v) hopening (List.mem_append_right _ hq) hle)).symm

end ScriptExcerpt
