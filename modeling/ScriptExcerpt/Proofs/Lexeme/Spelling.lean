import ScriptExcerpt.Proofs.Again
import ScriptExcerpt.Proofs.Lexeme.Invisible

/-!
# Symbols as they are written

A symbol is written by its spelling; invisible characters may stand inside it
(`Operator.Spells`). The text of a symbol that was read spells it, and a text that
spells a symbol is read as far as it goes, whatever follows it.

* `Operator.spells_of_run`: what a symbol is written by;
* `Operator.run_of_spells`: the run over a text that spells a symbol;
* `Operator.run_slash`: what follows a slash decides whether it is one.
-/

namespace ScriptExcerpt

open Text

namespace Operator

variable {table : List (List Char × Kind)} {c : Char} {k k₀ : Kind} {w : List Char}

/-! ## Spellings -/

theorem inked_spellings {v : Version} {lineIsBlank : Bool} :
    ∀ p ∈ spellings v lineIsBlank, ∀ c ∈ p.1, Inked c :=
  fun _ hp _ hc => inked_of_mem_spelling hp hc

theorem extends?_iff {text : List Char} :
    extends? table text ↔ ∃ p ∈ table, text <+: p.1 ∧ text.length < p.1.length := by
  simp [extends?, List.any_eq_true]

/-- Behind its first character `c`, the text `w` writes a symbol of the kind `k`: together
    they are a spelling, but for invisible characters before the last one. -/
structure Spells (table : List (List Char × Kind)) (c : Char) (w : List Char) (k : Kind) :
    Prop where
  kind : kindOf? table (c :: visible w) = some k
  last {d : Char} : w.getLast? = some d → isInvisible d = false

/-! ## What was read -/

/-- A run that got to `here` took a text that writes a symbol, and looked at what may go on
    with it. -/
structure Spelled (table : List (List Char × Kind)) (c : Char) (behind : Cursor) (s : State)
    (mark here : Cursor) : Prop where
  parts : ∃ w gap, Spells table c w s.kind ∧ behind.Passes w mark ∧ mark.Passes gap here ∧
    s.text = c :: visible (w ++ gap)
  onLine : here.place.OnLine

namespace Spelled

variable {behind mark : Cursor} {s : State} {p : Place} {x : Char} {cs : List Char}

theorem skip (h : Spelled table c behind s mark ⟨p, x :: cs⟩) (hp : ¬ p.completes x)
    (hx : isInvisible x) : Spelled table c behind s mark ⟨p.past x, cs⟩ := by
  obtain ⟨w, gap, hw, hmark, hhere, htext⟩ := h.parts
  have hpast := hhere.trans (Cursor.passes_past hp cs)
  refine ⟨⟨w, gap ++ [x], hw, hmark, hpast, ?_⟩, p.onLine_past (not_isLineEnd_of_isInvisible hx)⟩
  rw [htext, ← List.append_assoc, visible_append _ [x], visible_cons_of_isInvisible hx]
  simp [visible]

/-- With a character that was looked at, the text grows. -/
theorem text_past {w gap : List Char} (hx : Inked x) (h : s.text = c :: visible (w ++ gap)) :
    s.text ++ [x] = c :: visible (w ++ gap ++ [x]) := by
  rw [h, visible_append _ [x], visible_cons hx.not_invisible]
  rfl

theorem probe (h : Spelled table c behind s mark ⟨p, x :: cs⟩) (hp : ¬ p.completes x)
    (hx : Inked x) : Spelled table c behind ⟨s.text ++ [x], s.kind⟩ mark ⟨p.past x, cs⟩ := by
  obtain ⟨w, gap, hw, hmark, hhere, htext⟩ := h.parts
  refine ⟨⟨w, gap ++ [x], hw, hmark, hhere.trans (Cursor.passes_past hp cs), ?_⟩,
    p.onLine_past hx.not_lineEnd⟩
  rw [← List.append_assoc]
  exact text_past hx htext

/-- A text that became a longer spelling is taken. -/
theorem take (h : Spelled table c behind s mark ⟨p, x :: cs⟩) (hp : ¬ p.completes x)
    (hx : Inked x) (hk : kindOf? table (s.text ++ [x]) = some k) :
    ∃ w, Spells table c w k ∧ behind.Passes w ⟨p.past x, cs⟩ ∧ s.text ++ [x] = c :: visible w := by
  obtain ⟨w, gap, -, hmark, hhere, htext⟩ := h.parts
  have hgrown := text_past hx htext
  refine ⟨w ++ gap ++ [x], ⟨hgrown ▸ hk, fun hd => ?_⟩,
    (hmark.trans hhere).trans (Cursor.passes_past hp cs), hgrown⟩
  rw [List.getLast?_append, List.getLast?_singleton] at hd
  obtain rfl : x = _ := Option.some.inj hd
  exact hx.not_invisible

end Spelled

theorem inked_of_kindOf? (ht : ∀ p ∈ table, ∀ c ∈ p.1, Inked c) {text : List Char} {x : Char}
    (h : kindOf? table (text ++ [x]) = some k) : Inked x :=
  ht _ (mem_of_kindOf? h) x (by simp)

theorem inked_of_extends? (ht : ∀ p ∈ table, ∀ c ∈ p.1, Inked c) {text : List Char} {x : Char}
    (h : extends? table (text ++ [x])) : Inked x := by
  obtain ⟨p, hp, hstarts, -⟩ := extends?_iff.1 h
  exact ht p hp x (hstarts.subset (by simp))

theorem invariant_spelled (ht : ∀ p ∈ table, ∀ c ∈ p.1, Inked c) (behind : Cursor) :
    (recognizer table).Invariant (Spelled table c behind) where
  complete h hc := absurd hc (h.onLine.not_completes _)
  skip h hp hx := h.skip hp hx
  take h hp he := by
    simp only [recognizer, step] at he
    split at he
    · next kind hk =>
      split at he
      · obtain rfl := Move.take.inj he
        have hx := inked_of_kindOf? ht hk
        obtain ⟨w, hw, hpast, htext⟩ := h.take hp hx hk
        exact ⟨⟨w, [], hw, hpast, .refl _, by rw [List.append_nil, htext]⟩,
          Place.onLine_past _ hx.not_lineEnd⟩
      · simp at he
    · split at he <;> simp at he
  probe h hp he := by
    simp only [recognizer, step] at he
    split at he
    · split at he <;> simp at he
    · split at he
      · next hlong =>
        obtain rfl := Move.probe.inj he
        exact h.probe hp (inked_of_extends? ht hlong)
      · simp at he

/-- What a symbol that was read is written by. -/
theorem spells_of_run (ht : ∀ p ∈ table, ∀ c ∈ p.1, Inked c) (hc : kindOf? table [c] = some k₀)
    {behind : Cursor} (hb : behind.place.OnLine)
    (h : ((recognizer table).runFrom ⟨[c], k₀⟩ behind).verdict = .ok k) :
    ∃ w m, Spells table c w k ∧ behind.Passes w m ∧
      m.offset = ((recognizer table).runFrom ⟨[c], k₀⟩ behind).taken ∧
      (((recognizer table).runFrom ⟨[c], k₀⟩ behind).cursor.rest ≠ [] →
        behind.Passes w ((recognizer table).runFrom ⟨[c], k₀⟩ behind).cursor) := by
  have hstart : Spelled table c behind ⟨[c], k₀⟩ behind behind :=
    ⟨⟨[], [], ⟨hc, by simp⟩, .refl _, .refl _, rfl⟩, hb⟩
  obtain ⟨s, mark, here, hI, hend⟩ := (invariant_spelled ht behind).halts hstart
  obtain ⟨w, gap, hw, hmark, -, -⟩ := hI.parts
  rw [Recognizer.runFrom] at h ⊢
  generalize (recognizer table).run ⟨[c], k₀⟩ behind behind.place behind.rest = o at h hend ⊢
  cases hend with
  | accept he =>
    obtain rfl := Except.ok.inj h
    simp only [recognizer, atEnd] at he
    split at he
    · obtain rfl := Ending.accept.inj he
      exact ⟨w, mark, hw, hmark, rfl, fun hne => absurd rfl hne⟩
    · simp at he
  | back he =>
    obtain rfl := Except.ok.inj h
    simp only [recognizer, atEnd] at he
    split at he
    · simp at he
    · obtain rfl := Ending.back.inj he
      exact ⟨w, mark, hw, hmark, rfl, fun _ => hmark⟩
  | finish hp he =>
    obtain rfl := Except.ok.inj h
    simp only [recognizer, step] at he
    split at he
    · next kind hk =>
      split at he
      · simp at he
      · obtain rfl := Move.finish.inj he
        obtain ⟨w, hw, hpast, -⟩ := hI.take hp (inked_of_kindOf? ht hk) hk
        exact ⟨w, _, hw, hpast, rfl, fun _ => hpast⟩
    · split at he <;> simp at he
  | stop hp he =>
    obtain rfl := Except.ok.inj h
    simp only [recognizer, step] at he
    split at he
    · split at he <;> simp at he
    · split at he
      · simp at he
      · obtain rfl := Move.stop.inj he
        exact ⟨w, mark, hw, hmark, rfl, fun _ => hmark.look⟩
  | breakOff | fail | refuse => simp at h

/-! ## What is read -/

/-- The characters of a text that writes a symbol are its spelling's, or invisible. -/
theorem Spells.inked_or_isInvisible (ht : ∀ p ∈ table, ∀ c ∈ p.1, Inked c)
    (hw : Spells table c w k) {x : Char} (hx : x ∈ w) : Inked x ∨ isInvisible x := by
  cases hi : isInvisible x with
  | true => exact .inr rfl
  | false =>
    have hmem : x ∈ c :: visible w :=
      List.mem_cons_of_mem c (List.mem_filter.2 ⟨hx, by rw [hi]; rfl⟩)
    exact .inl (ht _ (mem_of_kindOf? hw.kind) x hmem)

/-- The last character is visible. -/
theorem Spells.visible_ne_nil (hw : Spells table c w k) {u v : List Char} (huv : u ++ v = w)
    (hv : v ≠ []) : visible v ≠ [] := by
  refine List.ne_nil_of_mem (a := v.getLast hv) (List.mem_filter.2 ⟨List.getLast_mem hv, ?_⟩)
  rw [hw.last (by rw [← huv, List.getLast?_append, List.getLast?_eq_some_getLast hv,
    Option.some_or])]
  rfl

/-- Before it, a longer spelling is still to come. -/
theorem Spells.extends_of_prefix (hw : Spells table c w k) {u v : List Char} (huv : u ++ v = w)
    (hv : v ≠ []) : extends? table (c :: visible u) := by
  refine extends?_iff.2 ⟨_, mem_of_kindOf? hw.kind, ?_⟩
  have hpos := List.length_pos_iff.2 (hw.visible_ne_nil huv hv)
  rw [← huv, visible_append]
  refine ⟨⟨visible v, rfl⟩, ?_⟩
  simp only [List.length_cons, List.length_append]
  omega

/-- A text that writes a symbol is passed, whatever follows it. -/
theorem run_of_spells (ht : ∀ p ∈ table, ∀ c ∈ p.1, Inked c) (hw : Spells table c w k)
    {u v : List Char} (huv : u ++ v = w) (hv : v ≠ []) {kind : Kind} {mark : Cursor} {p : Place}
    (hp : p.OnLine) (t : List Char) :
    (recognizer table).run ⟨c :: visible u, kind⟩ mark p (v ++ t) =
      if extends? table (c :: visible w) then
        (recognizer table).run ⟨c :: visible w, k⟩ ⟨p.through v, t⟩ (p.through v) t
      else ⟨.ok k, (p.through v).offset, ⟨p.through v, t⟩⟩ := by
  induction v generalizing u kind mark p with
  | nil => exact absurd rfl hv
  | cons x v ih =>
    have huv' : u ++ [x] ++ v = w := by rw [List.append_assoc, List.singleton_append, huv]
    have hpx := hp.not_completes x
    rw [List.cons_append, Recognizer.run, Place.through, if_neg hpx, if_neg hpx]
    rcases hw.inked_or_isInvisible ht (huv ▸ List.mem_append_right u List.mem_cons_self) with
      hx | hx
    · have htext : c :: visible u ++ [x] = c :: visible (u ++ [x]) := by
        rw [visible_append, visible_cons hx.not_invisible]
        rfl
      have hpast := p.onLine_past hx.not_lineEnd
      rw [hx.not_invisible, Bool.and_false, if_neg Bool.false_ne_true]
      simp only [recognizer, step, htext]
      cases v with
      | nil =>
        -- The spelling is complete.
        obtain rfl : u ++ [x] = w := by rw [← huv', List.append_nil]
        rw [hw.kind]
        by_cases hlong : extends? table (c :: visible (u ++ [x]))
        · simp only [hlong, if_true]
          rfl
        · simp only [hlong]
          rfl
      | cons y v =>
        have hlong := hw.extends_of_prefix huv' (List.cons_ne_nil y v)
        cases hkind : kindOf? table (c :: visible (u ++ [x])) <;> simp only [hlong, if_true]
        · exact ih huv' (List.cons_ne_nil y v) hpast
        · exact ih huv' (List.cons_ne_nil y v) hpast
    · have hpast := p.onLine_past (not_isLineEnd_of_isInvisible hx)
      have hvne : v ≠ [] := by
        rintro rfl
        have hlast := hw.last (d := x) (by
          rw [← huv, List.getLast?_append, List.getLast?_singleton]; rfl)
        simp [hlast] at hx
      have hsame : visible (u ++ [x]) = visible u := by
        rw [visible_append, visible_cons_of_isInvisible hx]
        simp [visible]
      rw [show (recognizer table).skips _ = true from rfl, hx, Bool.and_true, if_pos rfl, ← hsame]
      exact ih huv' hvne hpast

/-- A symbol that is followed by a separator, or by nothing, is complete. -/
theorem concludes (ht : ∀ p ∈ table, ∀ c ∈ p.1, Inked c) {text : List Char}
    (hk : kindOf? table text = some k) : (recognizer table).Concludes ⟨text, k⟩ k where
  space := step_of_not_mem (fun p hp hc => absurd (ht p hp _ hc).not_blank (by decide)) _
  newline := step_of_not_mem (fun p hp hc => absurd (ht p hp _ hc).not_lineEnd (by decide)) _
  atEnd := by simp [recognizer, atEnd, hk]

/-- The run over a text that writes a symbol which a longer one begins with. -/
theorem runFrom_of_spells (ht : ∀ p ∈ table, ∀ c ∈ p.1, Inked c) (hw : Spells table c w k)
    (hc : kindOf? table [c] = some k₀) (hlong : extends? table [c]) {p : Place} (hp : p.OnLine)
    (t : List Char) :
    (recognizer table).runFrom ⟨[c], k₀⟩ ⟨p, w ++ t⟩ =
      if extends? table (c :: visible w) then
        (recognizer table).run ⟨c :: visible w, k⟩ ⟨p.through w, t⟩ (p.through w) t
      else ⟨.ok k, (p.through w).offset, ⟨p.through w, t⟩⟩ := by
  cases w with
  | nil =>
    obtain rfl : k₀ = k := Option.some.inj (hc.symm.trans hw.kind)
    exact (if_pos hlong).symm
  | cons x w => exact run_of_spells (u := []) ht hw rfl (List.cons_ne_nil x w) hp t

end Operator

theorem Place.onLine_through {p : Place} (hp : p.OnLine) {w : List Char}
    (hw : ∀ x ∈ w, isLineEnd x = false) : (p.through w).OnLine := by
  induction w generalizing p with
  | nil => exact hp
  | cons x w ih =>
    have hpx := hp.not_completes x
    obtain ⟨hx, hw⟩ := List.forall_mem_cons.1 hw
    rw [through, if_neg hpx]
    exact ih (p.onLine_past hx) hw

/-- The text leads to the place behind it. -/
theorem Cursor.passes_through (p : Place) (w t : List Char) :
    Passes ⟨p, w ++ t⟩ w ⟨p.through w, t⟩ := ⟨rfl, rfl⟩

/-- The lexeme is of the kind `k`, has the value, and has the text `w` from the cursor `a`
    on. -/
structure Lexeme.Takes (a : Cursor) (w : List Char) (k : Kind) (value : Option (List Char))
    (l : Lexeme) : Prop where
  verdict : l.verdict = .ok k
  value : l.value = value
  cursor : a.Passes w l.cursor
  stop : l.stop = l.cursor.offset

namespace Operator

variable {table : List (List Char × Kind)} {c : Char} {k k₀ : Kind} {w : List Char}

/-- A symbol that a longer one begins with is what the run recognizes. -/
theorem symbol_of_run (hc : kindOf? table [c] = some k₀) (hlong : extends? table [c])
    {behind : Cursor} (hk : k.isTrivia = false)
    (h : ((recognizer table).runFrom ⟨[c], k₀⟩ behind).verdict = .ok k) :
    Lexeme.symbol table c behind = ⟨.ok k, ((recognizer table).runFrom ⟨[c], k₀⟩ behind).taken,
      ((recognizer table).runFrom ⟨[c], k₀⟩ behind).cursor, none⟩ := by
  rw [Lexeme.symbol, hc]
  simp only [hlong, if_true, h]
  split
  · next he =>
    obtain rfl := Except.ok.inj he
    simp [Kind.isTrivia] at hk
  · next he =>
    obtain rfl := Except.ok.inj he
    simp [Kind.isTrivia] at hk
  · next he =>
    obtain rfl := Except.ok.inj he
    rfl
  · next he => simp at he

theorem run_of_symbol (hc : kindOf? table [c] = some k₀) (hlong : extends? table [c])
    {behind : Cursor} (hk : k.isTrivia = false)
    (h : (Lexeme.symbol table c behind).verdict = .ok k) :
    ((recognizer table).runFrom ⟨[c], k₀⟩ behind).verdict = .ok k := by
  rw [Lexeme.symbol, hc] at h
  simp only [hlong, if_true] at h
  split at h
  · -- A comment would be trivia.
    have htrivia := (Lexeme.ensures_lineComment (P := (·.isTrivia = true)) rfl
      ((recognizer table).runFrom ⟨[c], k₀⟩ behind).cursor).ok h
    exact absurd (hk.symm.trans htrivia) Bool.false_ne_true
  · have htrivia := (Lexeme.ensures_blockComment (P := (·.isTrivia = true)) rfl
      ((recognizer table).runFrom ⟨[c], k₀⟩ behind).cursor).ok h
    exact absurd (hk.symm.trans htrivia) Bool.false_ne_true
  · next ho =>
    obtain rfl := Except.ok.inj h
    exact ho
  · simp at h

/-- A symbol is read by its spelling, if no longer one can follow. -/
theorem symbol_of_spells (ht : ∀ p ∈ table, ∀ c ∈ p.1, Inked c) (hw : Spells table c w k)
    (hc : kindOf? table [c] = some k₀) (hk : k.isTrivia = false) {p : Place} (hp : p.OnLine)
    {t : List Char} (ht' : extends? table (c :: visible w) →
      (recognizer table).EndsBefore ⟨c :: visible w, k⟩ k t) :
    (Lexeme.symbol table c ⟨p, w ++ t⟩).Takes ⟨p, w ++ t⟩ w k none := by
  by_cases hlong : extends? table [c]
  · have hthrough : (p.through w).OnLine := Place.onLine_through hp fun x hx =>
      (hw.inked_or_isInvisible ht hx).elim (fun h => h.not_lineEnd) not_isLineEnd_of_isInvisible
    have hrun : ∃ cur, (recognizer table).runFrom ⟨[c], k₀⟩ ⟨p, w ++ t⟩ =
        ⟨.ok k, (p.through w).offset, cur⟩ ∧ Cursor.Passes ⟨p, w ++ t⟩ w cur := by
      rw [runFrom_of_spells ht hw hc hlong hp t]
      split
      · next hlonger =>
        obtain ⟨cur, hcur, hpasses⟩ := (ht' hlonger).run_eq hthrough.afterReturn
        have hall := (Cursor.passes_through p w t).trans hpasses
        rw [List.append_nil] at hall
        exact ⟨cur, hcur, hall⟩
      · exact ⟨_, rfl, Cursor.passes_through p w t⟩
    obtain ⟨cur, hcur, hpasses⟩ := hrun
    rw [symbol_of_run hc hlong hk (congrArg Outcome.verdict hcur), hcur]
    have hoffset : cur.offset = (p.through w).offset :=
      hpasses.offset_eq.trans (Place.offset_through p w).symm
    exact ⟨rfl, rfl, hpasses, hoffset.symm⟩
  · -- No longer spelling begins with the character, so it is the symbol.
    obtain rfl : w = [] := by
      refine Decidable.byContradiction fun hne => hlong ?_
      exact hw.extends_of_prefix (u := []) rfl hne
    obtain rfl : k₀ = k := Option.some.inj (hc.symm.trans hw.kind)
    rw [Lexeme.symbol, hc]
    simp only [hlong]
    exact ⟨rfl, rfl, .refl _, rfl⟩

/-- What a symbol that was read is written by. -/
theorem spells_of_symbol (ht : ∀ p ∈ table, ∀ c ∈ p.1, Inked c) {behind : Cursor}
    (hb : behind.place.OnLine) (h : (Lexeme.symbol table c behind).verdict = .ok k)
    (hk : k.isTrivia = false) :
    (∃ k₀, kindOf? table [c] = some k₀) ∧ (Lexeme.symbol table c behind).value = none ∧
      ∃ w m, Spells table c w k ∧ behind.Passes w m ∧
        m.offset = (Lexeme.symbol table c behind).stop ∧
        ((Lexeme.symbol table c behind).cursor.rest ≠ [] →
          behind.Passes w (Lexeme.symbol table c behind).cursor) := by
  cases hc : kindOf? table [c] with
  | none => simp [Lexeme.symbol, hc] at h
  | some k₀ =>
    refine ⟨⟨k₀, rfl⟩, ?_⟩
    by_cases hlong : extends? table [c]
    · have ho := run_of_symbol hc hlong hk h
      rw [symbol_of_run hc hlong hk ho]
      exact ⟨rfl, spells_of_run ht hc hb ho⟩
    · rw [Lexeme.symbol, hc] at h ⊢
      simp only [hlong] at h ⊢
      obtain rfl := Except.ok.inj h
      exact ⟨rfl, [], behind, ⟨hc, by simp⟩, .refl _, rfl, fun _ => .refl _⟩

/-! ## The spellings of a version -/

section Version

variable {v : Version} {lineIsBlank lineIsBlank' : Bool} {text : List Char}

theorem isTrivia_of_commentOpening {p : List Char × Kind} (hp : p ∈ commentOpenings lineIsBlank) :
    p.2.isTrivia := by
  have hall : ∀ p ∈ commentOpenings lineIsBlank, p.2.isTrivia = true := by
    cases lineIsBlank <;> decide
  exact hall p hp

/-- Where a symbol stands on its line makes a difference to comments only. -/
theorem kindOf?_spellings (hk : k.isTrivia = false)
    (h : kindOf? (spellings v lineIsBlank) text = some k) :
    kindOf? (spellings v lineIsBlank') text = some k := by
  rw [kindOf?, spellings, List.lookup_append] at h ⊢
  rcases Option.or_eq_some_iff.1 h with hsymbol | ⟨-, hcomment⟩
  · rw [hsymbol, Option.some_or]
  · have htrivia := isTrivia_of_commentOpening (mem_of_kindOf? hcomment)
    exact absurd (hk.symm.trans htrivia) Bool.false_ne_true

/-- No comment opens with a single character. -/
theorem isTrivia_of_kindOf?_singleton (h : kindOf? (spellings v lineIsBlank) [c] = some k) :
    k.isTrivia = false := by
  have hall : ∀ p ∈ spellings v lineIsBlank, p.1.length = 1 → p.2.isTrivia = false := by
    cases v <;> cases lineIsBlank <;> decide
  exact hall _ (mem_of_kindOf? h) rfl

theorem Spells.spellings (hk : k.isTrivia = false) (h : Spells (spellings v lineIsBlank) c w k) :
    Spells (Operator.spellings v lineIsBlank') c w k :=
  ⟨kindOf?_spellings hk h.kind, h.last⟩

/-- A symbol has one spelling only. -/
theorem eq_spelling_of_kindOf? {s : Symbol}
    (h : kindOf? (spellings v lineIsBlank) text = some (.symbol s)) : text = s.spelling.toList := by
  rcases List.mem_append.1 (mem_of_kindOf? h) with hsymbol | hcomment
  · obtain ⟨s', -, he⟩ := List.mem_map.1 hsymbol
    obtain ⟨rfl, hs⟩ := Prod.mk.inj he
    rw [Kind.symbol.inj hs]
  · simpa [Kind.isTrivia] using isTrivia_of_commentOpening hcomment

/-! ## Slashes -/

/-- No spelling that starts with a slash has more than two characters. -/
theorem not_extends_slash (x : Char) : extends? (spellings v lineIsBlank) ['/', x] = false := by
  have hall : ∀ p ∈ spellings v lineIsBlank, p.1.head? = some '/' → p.1.length ≤ 2 := by
    cases v <;> cases lineIsBlank <;> decide
  rw [← Bool.not_eq_true]
  intro hlong
  obtain ⟨p, hp, ⟨rest, hrest⟩, hlt⟩ := extends?_iff.1 hlong
  have hle := hall p hp (by rw [← hrest]; rfl)
  exact Nat.not_lt.2 hle hlt

/-- The place on the line makes no difference to what starts with a slash. -/
theorem kindOf?_of_slash {rest : List Char}
    (h : kindOf? (spellings v lineIsBlank) ('/' :: rest) = some k) :
    kindOf? (spellings v lineIsBlank') ('/' :: rest) = some k := by
  have hall : ∀ p ∈ spellings v lineIsBlank, p.1.head? = some '/' →
      kindOf? (spellings v lineIsBlank') p.1 = some p.2 := by
    cases v <;> cases lineIsBlank <;> cases lineIsBlank' <;> decide
  exact hall _ (mem_of_kindOf? h) rfl

/-- The first visible character behind a slash tells whether it stands for itself. -/
theorem run_slash {u a : List Char} (hu : ∃ x ∈ u, isInvisible x = false) {p q : Place}
    (hp : p.OnLine) (hq : q.OnLine) {mark : Cursor}
    (h : ((recognizer (spellings v lineIsBlank)).run ⟨['/'], .symbol .slash⟩ mark p
      (u ++ a)).verdict = .ok (.symbol .slash)) (mark' : Cursor) (b : List Char) :
    (recognizer (spellings v lineIsBlank')).run ⟨['/'], .symbol .slash⟩ mark' q (u ++ b) =
      ⟨.ok (.symbol .slash), mark'.offset, mark'.look⟩ := by
  induction u generalizing p q with
  | nil => simp at hu
  | cons x u ih =>
    have hpx := hp.not_completes x
    have hqx := hq.not_completes x
    rw [List.cons_append, Recognizer.run, if_neg hpx,
      show (recognizer _).skips _ = true from rfl, Bool.true_and] at h
    rw [List.cons_append, Recognizer.run, if_neg hqx,
      show (recognizer _).skips _ = true from rfl, Bool.true_and]
    cases hx : isInvisible x with
    | true =>
      rw [hx, if_pos rfl] at h
      rw [if_pos rfl]
      have hline := not_isLineEnd_of_isInvisible hx
      refine ih ?_ (p.onLine_past hline) (q.onLine_past hline) h
      simpa [hx] using hu
    | false =>
      rw [hx, if_neg Bool.false_ne_true] at h
      rw [if_neg Bool.false_ne_true]
      simp only [recognizer, step, List.singleton_append, not_extends_slash] at h ⊢
      cases hkind : kindOf? (spellings v lineIsBlank) ['/', x] with
      | some kind =>
        simp only [hkind] at h
        obtain rfl : kind = .symbol .slash := Except.ok.inj h
        simpa [Symbol.spelling] using eq_spelling_of_kindOf? hkind
      | none =>
        have hkind' : kindOf? (spellings v lineIsBlank') ['/', x] = none := by
          rw [Option.eq_none_iff_forall_ne_some] at hkind ⊢
          exact fun k hk => hkind k (kindOf?_of_slash hk)
        simp only [hkind']
        rfl

theorem extends_slash : extends? (spellings v lineIsBlank) ['/'] := by
  cases v <;> cases lineIsBlank <;> decide

theorem kindOf?_slash : kindOf? (spellings v lineIsBlank) ['/'] = some (.symbol .slash) := by
  cases v <;> cases lineIsBlank <;> decide

/-- A slash is read again before the same visible character. -/
theorem symbol_slash {a b : Cursor} {u t t' : List Char} (hu : ∃ x ∈ u, isInvisible x = false)
    (ha : a.place.OnLine) (hb : b.place.OnLine) (hat : a.rest = u ++ t) (hbt : b.rest = u ++ t')
    (h : (Lexeme.symbol (spellings v lineIsBlank) '/' a).verdict = .ok (.symbol .slash)) :
    (Lexeme.symbol (spellings v lineIsBlank') '/' b).Takes b [] (.symbol .slash) none := by
  have hrun := run_of_symbol kindOf?_slash extends_slash rfl h
  rw [Recognizer.runFrom, hat] at hrun
  have hrun' : (recognizer (spellings v lineIsBlank')).run ⟨['/'], .symbol .slash⟩ b b.place
      (u ++ t') = ⟨.ok (.symbol .slash), b.offset, b.look⟩ := run_slash hu ha hb hrun b t'
  rw [← hbt] at hrun'
  rw [symbol_of_run kindOf?_slash extends_slash rfl (congrArg Outcome.verdict hrun'),
    Recognizer.runFrom, hrun']
  exact ⟨rfl, rfl, (Cursor.Passes.refl b).look, rfl⟩

/-- A slash and an equals sign are read again before any text. -/
theorem symbol_slashEquals (hw : Spells (spellings v lineIsBlank) '/' w (.symbol .slashEquals))
    {p : Place} (hp : p.OnLine) (t : List Char) :
    (Lexeme.symbol (spellings v lineIsBlank) '/' ⟨p, w ++ t⟩).Takes ⟨p, w ++ t⟩ w
      (.symbol .slashEquals) none := by
  have htext : '/' :: visible w = ['/', '='] := eq_spelling_of_kindOf? hw.kind
  have hrun := runFrom_of_spells inked_spellings hw
    kindOf?_slash extends_slash hp t
  rw [htext, not_extends_slash, if_neg Bool.false_ne_true] at hrun
  rw [symbol_of_run kindOf?_slash extends_slash rfl (congrArg Outcome.verdict hrun), hrun]
  exact ⟨rfl, rfl, Cursor.passes_through p w t, rfl⟩

end Version

end Operator

end ScriptExcerpt
