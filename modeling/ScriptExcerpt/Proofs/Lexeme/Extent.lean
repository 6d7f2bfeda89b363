import ScriptExcerpt.Proofs.Extent
import ScriptExcerpt.Proofs.Lexeme.Reader

/-!
# Where lexemes end

A lexeme ends where its text says, though its reading may look further, and on
the line that it begins on, unless it is a quotation or a block comment
(`Lexeme.Reaches`).

* `reaches_lexemeAt`: where a lexeme ends;
* `LexemeReader.next_ok`: all that a step of a reader can do that reads one;
* `LexemeReader.reaches_readRegExp`: where a regular expression ends.
-/

namespace ScriptExcerpt

open Text

/-! ## Line ends among the characters -/

namespace Text

theorem not_isNamePart_of_isLineEnd {c : Char} (h : isLineEnd c) : isNamePart c = false := by
  rcases eq_of_isLineEnd h with rfl | rfl | rfl | rfl <;> decide +kernel

theorem digitValue?_of_isLineEnd {c : Char} (h : isLineEnd c) : digitValue? c = none := by
  rcases eq_of_isLineEnd h with rfl | rfl | rfl | rfl <;> rfl

theorem not_isDigitOf_of_isLineEnd {c : Char} (h : isLineEnd c) (base : Nat) :
    isDigitOf base c = false := by
  rw [isDigitOf, digitOf?, digitValue?_of_isLineEnd h]
  rfl

end Text

/-! ## Single recognizers -/

theorem Name.oneLine : Name.recognizer.OneLine fun _ => True where
  ends {s c} h := by
    have hpart := not_isNamePart_of_isLineEnd h
    have hdigit := digitValue?_of_isLineEnd h
    have hu : c ≠ 'u' := ne_of_isLineEnd h rfl
    have hback : c ≠ '\\' := ne_of_isLineEnd h rfl
    cases s <;> simp [recognizer, step, Move.Ends, hpart, digitOf?, hdigit, hu, hback]
  probe {s t c} h := by
    intro
    cases s <;> simp only [recognizer, step] at h <;> grind
  accept _ := trivial

/-- In the state, nothing is probed. -/
def Number.State.IsSettled : State → Prop
  | .separator _ _ _ => False
  | _ => True

theorem Number.ends_stepBehindWhole {v : Version} {base : Nat} {value : List Char} {c : Char}
    (h : isLineEnd c) : (stepBehindWhole v base value c).Ends := by
  have hn : c ≠ 'n' := ne_of_isLineEnd h rfl
  have hdot : c ≠ '.' := ne_of_isLineEnd h rfl
  have he : c ≠ 'e' := ne_of_isLineEnd h rfl
  have hE : c ≠ 'E' := ne_of_isLineEnd h rfl
  simp [stepBehindWhole, isExponentMark, Move.Ends, hn, hdot, he, hE]

theorem Number.oneLine (v : Version) : (Number.recognizer v).OneLine State.IsSettled where
  ends {s c} h := by
    have hdigit (base : Nat) := not_isDigitOf_of_isLineEnd h base
    have hbase : baseOf? v c = none := by
      have hne (d : Char) (hd : isLineEnd d = false) : c ≠ d := ne_of_isLineEnd h hd
      simp [baseOf?, hne 'x' rfl, hne 'X' rfl, hne 'o' rfl, hne 'O' rfl, hne 'b' rfl, hne 'B' rfl]
    have hmark : isExponentMark c = false := by
      simp [isExponentMark, ne_of_isLineEnd h (show isLineEnd 'e' = false from rfl),
        ne_of_isLineEnd h (show isLineEnd 'E' = false from rfl)]
    have hline : c ≠ '_' := ne_of_isLineEnd h rfl
    have hplus : c ≠ '+' := ne_of_isLineEnd h rfl
    have hminus : c ≠ '-' := ne_of_isLineEnd h rfl
    cases s with
    | digits base part value =>
      cases part <;>
        simp [recognizer, step, hdigit, hline, hmark, ends_stepBehindWhole h] <;> trivial
    | _ =>
      simp [recognizer, step, hdigit, hbase, hmark, hplus, hminus, h, ends_stepBehindWhole h] <;>
        trivial
  probe {s t c} h := by
    cases s <;> simp only [recognizer, step, stepBehindWhole] at h <;> grind [State.IsSettled]
  accept {s r} h := by
    cases s <;> simp_all [recognizer, atEnd, State.IsSettled]

/-- No step leads to a point that stands alone, and nothing else has no value. -/
theorem Number.ensures_step {v : Version} {s : State} {c : Char}
    {m : Move State (Option (List Char)) Fault} (h : (recognizer v).step s c = m) :
    m.Ensures (· ≠ .lonePoint) (fun r => r = none → s = .lonePoint) (fun _ => True) := by
  subst h
  cases s <;> simp only [recognizer, step, stepBehindWhole] <;> grind [Move.Ensures]

theorem Number.ensures_atEnd {v : Version} {s : State} {m : Ending (Option (List Char)) Fault}
    (h : (recognizer v).atEnd s = m) :
    m.Ensures (fun r => r = none → s = .lonePoint) (fun _ => True) := by
  subst h
  cases s <;> simp [recognizer, atEnd, Ending.Ensures]

/-- No number ends with a character that must be its last one. -/
theorem Number.ne_finish {v : Version} {s : State} {c : Char} {r : Option (List Char)} :
    (recognizer v).step s c ≠ .finish r := by
  intro h
  cases s <;> simp only [recognizer, step, stepBehindWhole] at h <;> grind

theorem Quotation.selfClosing {quote : Char} (hquote : isLineEnd quote = false) :
    (Quotation.recognizer quote).SelfClosing where
  finish {s c r} h := by
    have hc : c = quote := by
      cases s <;> simp only [recognizer, step, stepText] at h <;> grind
    exact hc ▸ hquote
  stop {s c r} h := by
    cases s <;> simp only [recognizer, step, stepText] at h <;> grind
  atEnd {s} := by cases s <;> exact ⟨_, rfl⟩

theorem Comment.oneLine_line : Comment.lineRecognizer.OneLine fun _ => True where
  ends h := by simp [lineRecognizer, h, Move.Ends]
  probe {s t c} h := by simp only [lineRecognizer] at h; grind
  accept _ := trivial

theorem Comment.selfClosing_block : Comment.blockRecognizer.SelfClosing where
  finish {s c r} h := by
    have hc : c = '/' := by simp only [blockRecognizer] at h; grind
    exact hc ▸ rfl
  stop {s c r} h := by simp only [blockRecognizer] at h; grind
  atEnd := ⟨_, rfl⟩

theorem RegExp.oneLine : RegExp.recognizer.OneLine fun _ => True where
  ends {s c} h := by
    have hslash : c ≠ '/' := ne_of_isLineEnd h rfl
    have hstar : c ≠ '*' := ne_of_isLineEnd h rfl
    cases s with
    | flags text flags =>
      have hknown : knownFlags.contains c = false := by
        rcases eq_of_isLineEnd h with rfl | rfl | rfl | rfl <;> decide
      simp only [recognizer, step, hknown, Bool.false_eq_true, if_false]
      split <;> trivial
    | _ => simp [recognizer, step, stepBody, hslash, hstar, h, Move.Ends]
  probe {s t c} h := by
    intro
    cases s <;> simp only [recognizer, step, stepBody] at h <;> grind
  accept _ := trivial

namespace Operator

/-- Every character of a spelling leaves ink. -/
theorem inked_of_mem_spelling {v : Version} {lineIsBlank : Bool} {p : List Char × Kind}
    (hp : p ∈ spellings v lineIsBlank) {c : Char} (hc : c ∈ p.1) : Inked c := by
  have hall : (spellings v lineIsBlank).all fun p => p.1.all fun c =>
      !isLineEnd c && !isBlank c && !isInvisible c := by
    cases v <;> cases lineIsBlank <;> decide
  have hc' := List.all_eq_true.1 (List.all_eq_true.1 hall p hp) c hc
  simp only [Bool.and_eq_true, Bool.not_eq_true'] at hc'
  exact ⟨hc'.1.1, hc'.1.2, hc'.2⟩

/-- No spelling has a line end. -/
theorem not_isLineEnd_of_mem_spelling {v : Version} {lineIsBlank : Bool} {p : List Char × Kind}
    (hp : p ∈ spellings v lineIsBlank) {c : Char} (hc : c ∈ p.1) : isLineEnd c = false :=
  (inked_of_mem_spelling hp hc).not_lineEnd

/-- In the state, the whole text is a spelling. -/
def State.IsSettled (table : List (List Char × Kind)) (s : State) : Prop :=
  kindOf? table s.text = some s.kind

/-- A character that stands in no spelling ends the symbol. -/
theorem step_of_not_mem {table : List (List Char × Kind)} {c : Char}
    (h : ∀ p ∈ table, c ∉ p.1) (s : State) : step table s c = .stop s.kind := by
  have hc : c ∈ s.text ++ [c] := by simp
  have hkind : kindOf? table (s.text ++ [c]) = none := by
    rw [← Option.not_isSome_iff_eq_none]
    intro hsome
    obtain ⟨k, hk⟩ := Option.isSome_iff_exists.1 hsome
    exact h _ (mem_of_kindOf? hk) hc
  have hlong : extends? table (s.text ++ [c]) = false := by
    rw [← Bool.not_eq_true]
    intro hlong
    obtain ⟨p, hp, hlt⟩ := List.any_eq_true.1 hlong
    simp only [Bool.and_eq_true, List.isPrefixOf_iff_prefix] at hlt
    exact h p hp (hlt.1.subset hc)
  simp only [step, hkind, hlong]
  rfl

theorem oneLine {table : List (List Char × Kind)}
    (ht : ∀ p ∈ table, ∀ c ∈ p.1, isLineEnd c = false) :
    (recognizer table).OneLine (State.IsSettled table) where
  ends {s c} h := by
    have hstop : (recognizer table).step s c = .stop s.kind :=
      step_of_not_mem (fun p hp hc => by simp [ht p hp c hc] at h) s
    rw [hstop]
    trivial
  probe {s t c} h := by
    simp only [recognizer, step] at h
    split at h
    · split at h <;> simp at h
    · next hkind =>
      split at h
      · obtain rfl := Move.probe.inj h
        simp [State.IsSettled, hkind]
      · simp at h
  accept {s r} h := by
    simp only [recognizer, atEnd] at h
    split at h
    · assumption
    · simp at h

end Operator

/-! ## Lexemes -/

/-- A lexeme of the kind may begin on one line and end on another. -/
def Kind.spansLines : Kind → Bool
  | .string | .template | .blockComment => true
  | _ => false

/-- Where a lexeme ends, and that it ends on the line that it begins on, unless
    its kind allows more. -/
structure Lexeme.Reaches (behind : Cursor) (stop : Nat) (cur : Cursor) (k : Kind) : Prop where
  extent : Extent behind stop cur
  line : k.spansLines = false → cur.place.line = behind.place.line

namespace Lexeme

variable {v : Version} {c : Char} {behind : Cursor} {k : Kind}

theorem reaches_name (hb : behind.place.OnLine) (h : (name v c behind).verdict = .ok k) :
    Reaches behind (name v c behind).stop (name v c behind).cursor k := by
  rw [name] at h ⊢
  split
  · next ho =>
    obtain ⟨hext, hline⟩ := Name.oneLine.extent hb ho
    exact ⟨.ofCursor hext.leads hext.onLine, fun _ => hline⟩
  · next ho => simp [ho] at h

theorem reaches_lineComment (hb : behind.place.OnLine)
    (h : (lineComment behind).verdict = .ok k) :
    Reaches behind (lineComment behind).stop (lineComment behind).cursor k := by
  rw [lineComment] at h ⊢
  cases ho : (Comment.lineRecognizer.runFrom () behind).verdict with
  | error f => simp [ho, Except.map] at h
  | ok u =>
    obtain ⟨hext, hline⟩ := Comment.oneLine_line.extent hb ho
    exact ⟨.ofCursor hext.leads hext.onLine, fun _ => hline⟩

theorem reaches_blockComment (h : (blockComment behind).verdict = .ok k) :
    Reaches behind (blockComment behind).stop (blockComment behind).cursor k := by
  rw [blockComment] at h ⊢
  cases ho : (Comment.blockRecognizer.runFrom false behind).verdict with
  | error f => simp [ho, Except.map] at h
  | ok u =>
    have hk : k = .blockComment := by simpa [ho, Except.map, eq_comm] using h
    have hext := Comment.selfClosing_block.extent ho
    exact ⟨.ofCursor hext.leads hext.onLine, fun hs => by simp [hk, Kind.spansLines] at hs⟩

theorem reaches_quotation (hc : isLineEnd c = false) (h : (quotation c behind).verdict = .ok k) :
    Reaches behind (quotation c behind).stop (quotation c behind).cursor k := by
  rw [quotation] at h ⊢
  split
  · next ho =>
    have hext := (Quotation.selfClosing hc).extent ho
    refine ⟨.ofCursor hext.leads hext.onLine, fun hs => ?_⟩
    simp only [ho] at h
    obtain rfl := Except.ok.inj h
    split at hs <;> simp [Kind.spansLines] at hs
  · next ho => simp [ho] at h

/-- A point that stands alone ends where it was taken. -/
theorem taken_of_lonePoint
    (h : ((Number.recognizer v).runFrom (Number.start c) behind).verdict = .ok none) :
    ((Number.recognizer v).runFrom (Number.start c) behind).taken = behind.offset := by
  -- As long as nothing but the point was read, the mark did not move.
  have hI : (Number.recognizer v).Invariant fun s mark _ => s = .lonePoint → mark = behind :=
    { complete := fun h _ => h
      skip := fun h _ _ => h
      take := fun _ _ he ht => absurd ht (Number.ensures_step he)
      probe := fun _ _ he ht => absurd ht (Number.ensures_step he) }
  obtain ⟨s, mark, here, hmark, hend⟩ :=
    hI.halts (s := Number.start c) (p := behind.place) (fun _ => rfl)
  rw [Recognizer.runFrom] at h ⊢
  generalize (Number.recognizer v).run (Number.start c) behind behind.place behind.rest = o
    at h hend ⊢
  cases hend with
  | accept he | back he => rw [hmark (Number.ensures_atEnd he (Except.ok.inj h))]
  | finish _ he => exact absurd he Number.ne_finish
  | stop _ he => rw [hmark (Number.ensures_step he (Except.ok.inj h))]
  | breakOff | fail | refuse => simp at h

theorem reaches_number (hb : behind.place.OnLine) (h : (number v c behind).verdict = .ok k) :
    Reaches behind (number v c behind).stop (number v c behind).cursor k := by
  rw [number] at h ⊢
  split
  · next ho =>
    obtain ⟨hext, hline⟩ := (Number.oneLine v).extent hb ho
    exact ⟨.ofCursor hext.leads hext.onLine, fun _ => hline⟩
  · next ho =>
    obtain ⟨hext, hline⟩ := (Number.oneLine v).extent hb ho
    rw [taken_of_lonePoint ho] at hext
    exact ⟨hext, fun _ => hline⟩
  · next ho => simp [ho] at h

theorem reaches_symbol {table : List (List Char × Kind)}
    (ht : ∀ p ∈ table, ∀ c ∈ p.1, isLineEnd c = false) (hb : behind.place.OnLine)
    (h : (symbol table c behind).verdict = .ok k) :
    Reaches behind (symbol table c behind).stop (symbol table c behind).cursor k := by
  rw [symbol] at h ⊢
  split
  · next hk => simp [hk] at h
  · next kind hk =>
    simp only [hk] at h
    split
    · next hlong =>
      rw [if_pos hlong] at h
      dsimp only at h ⊢
      -- A comment goes on where its opening was read.
      split
      · next ho =>
        obtain ⟨hext, hline⟩ := (Operator.oneLine ht).extent hb ho
        have hreach := reaches_lineComment hext.onLine (by rwa [ho] at h)
        exact ⟨hreach.extent.of_leads hext.leads, fun hs => (hreach.line hs).trans hline⟩
      · next ho =>
        obtain ⟨hext, hline⟩ := (Operator.oneLine ht).extent hb ho
        have hreach := reaches_blockComment (by rwa [ho] at h)
        exact ⟨hreach.extent.of_leads hext.leads, fun hs => (hreach.line hs).trans hline⟩
      · next ho =>
        obtain ⟨hext, hline⟩ := (Operator.oneLine ht).extent hb ho
        exact ⟨hext, fun _ => hline⟩
      · next ho => simp [ho] at h
    · exact ⟨.ofCursor (.refl behind) hb, fun _ => rfl⟩

end Lexeme

/-- No quotation opens with a line end. -/
theorem not_isLineEnd_of_isQuote {c : Char} (h : isQuote c) : isLineEnd c = false := by
  simp only [isQuote, Bool.or_eq_true, beq_iff_eq] at h
  rcases h with (rfl | rfl) | rfl <;> rfl

/-- Where a lexeme ends. -/
theorem reaches_lexemeAt {v : Version} {lineIsBlank : Bool} {c : Char} {behind : Cursor} {k : Kind}
    (hb : behind.place.OnLine) (h : (lexemeAt v lineIsBlank c behind).verdict = .ok k) :
    Lexeme.Reaches behind (lexemeAt v lineIsBlank c behind).stop
      (lexemeAt v lineIsBlank c behind).cursor k := by
  revert h
  refine lexemeAt_cases (P := fun l => l.verdict = .ok k → Lexeme.Reaches behind l.stop l.cursor k)
    (fun _ => ?_) (fun _ => ?_) (fun hquote => ?_) ?_
  · exact Lexeme.reaches_name hb
  · exact Lexeme.reaches_number hb
  · exact Lexeme.reaches_quotation (not_isLineEnd_of_isQuote hquote)
  · exact Lexeme.reaches_symbol (fun p hp c hc => Operator.not_isLineEnd_of_mem_spelling hp hc) hb

/-! ## Readers -/

namespace LexemeReader

variable {r r' : LexemeReader} {k : Kind}

/-- What a step of a reader does that reads a lexeme: behind the gap, it reaches
    the end of the script, passes a line end, or reads a lexeme of one or more
    characters. -/
theorem next_ok (h : r.next = (.ok k, r')) :
    r'.opening = r.cursor.skipGap ∧
      ((k = .endOfInput ∧ r' = r.reachEnd r'.opening ∧ r'.opening.rest = []) ∨
        ∃ c cs, r'.opening.rest = c :: cs ∧
          ((k = .lineEnd ∧ isLineEnd c ∧ r' = r.passLineEnd r'.opening c cs) ∨
            isLineEnd c = false ∧
              Lexeme.Reaches ⟨r'.opening.place.past c, cs⟩ r'.stop r'.cursor k)) := by
  have hopen : r'.opening = r.cursor.skipGap := by
    rw [← opening_next, h]
  refine ⟨hopen, ?_⟩
  rw [next] at h
  split at h
  · next he =>
    obtain ⟨hk, rfl⟩ := Prod.mk.inj h
    exact .inl ⟨(Except.ok.inj hk).symm, rfl, he⟩
  · next c cs he =>
    refine .inr ⟨c, cs, hopen ▸ he, ?_⟩
    split at h
    · next hc =>
      obtain ⟨hk, rfl⟩ := Prod.mk.inj h
      exact .inl ⟨(Except.ok.inj hk).symm, hc, rfl⟩
    · next hc =>
      rw [Bool.not_eq_true] at hc
      obtain ⟨hv, rfl⟩ := Prod.mk.inj h
      exact .inr ⟨hc, reaches_lexemeAt (Place.onLine_past _ hc) (ok_of_mapError hv)⟩

/-- Where the next lexeme ends, if it is neither a line end nor the end of the
    script; its first character was looked at before. -/
theorem reaches_next (h : r.next = (.ok k, r')) (hend : k ≠ .endOfInput) (hline : k ≠ .lineEnd) :
    r'.opening.look = r'.opening ∧ Lexeme.Reaches r'.opening r'.stop r'.cursor k := by
  obtain ⟨hopen, ⟨hk, -⟩ | ⟨c, cs, hrest, ⟨hk, -⟩ | ⟨hc, hreach⟩⟩⟩ := next_ok h
  · exact absurd hk hend
  · exact absurd hk hline
  · have hlook : r'.opening.look = r'.opening := by
      rw [hopen] at hrest ⊢
      exact Cursor.look_skipGapFrom _ _ (by rw [← Cursor.skipGap, hrest]; simp)
    have hpast := passes_opening (congrArg Prod.snd h) hrest
    have hplace : r'.opening.place.look.line = r'.opening.place.line :=
      congrArg (fun cur : Cursor => cur.place.line) hlook
    exact ⟨hlook, hreach.extent.of_leads hpast.leads, fun hs => (hreach.line hs).trans hplace⟩

/-- The rest of a regular expression ends on the line of its slash. -/
theorem reaches_readRegExp {equals : Bool} (hr : r.cursor.place.OnLine)
    (h : r.readRegExp equals = (.ok (), r')) :
    Lexeme.Reaches r.cursor r'.stop r'.cursor .regExp := by
  obtain ⟨ho, -, hstop, hcursor⟩ := readRegExp_ok h
  obtain ⟨hext, hline⟩ := RegExp.oneLine.extent hr ho
  rw [hstop, hcursor]
  exact ⟨.ofCursor hext.leads hext.onLine, fun _ => hline⟩

end LexemeReader

end ScriptExcerpt
