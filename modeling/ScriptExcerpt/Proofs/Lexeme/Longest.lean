import ScriptExcerpt.Proofs.Lexeme.Again
import ScriptExcerpt.Proofs.Token.Suffix

/-!
# The longest spelling counts

A symbol has the longest spelling that the text begins with, invisible characters apart
(`Operator.Longest`). What the run of a recognizer has read so far, its state holds the longest
spelling of; it ends where no spelling goes on, or goes back over what was no spelling after
all.

* `Operator.longest_of_run`: a run ends with the longest spelling;
* `longest_lexemeAt`: so does a lexeme that is a symbol;
* `LexemeReader.symbol_longest`: symbols anywhere in a script.
-/

namespace ScriptExcerpt

open Text

/-! ## Spellings that a text begins with -/

namespace Operator

variable {table : List (List Char × Kind)} {k k₀ : Kind} {spelling text cs : List Char} {c : Char}
  {v : Version} {lineIsBlank : Bool}

/-- The text begins with the spelling, which means `k`, and with no longer one. -/
structure Longest (table : List (List Char × Kind)) (k : Kind) (spelling text : List Char) :
    Prop where
  kind : kindOf? table spelling = some k
  begins : spelling <+: text
  length_le {q : List Char × Kind} : q ∈ table → q.1 <+: text → q.1.length ≤ spelling.length

theorem kindOf?_ne_none {q : List Char × Kind} (hq : q ∈ table) : kindOf? table q.1 ≠ none :=
  fun hnone => by simpa using List.lookup_eq_none_iff.1 hnone q hq

/-- A text that is a spelling begins with no longer one. -/
theorem longest_self (h : kindOf? table text = some k) : Longest table k text text where
  kind := h
  begins := List.prefix_refl text
  length_le _ hq := hq.length_le

/-- A spelling that begins no longer one is the longest, whatever follows it. -/
theorem longest_append (h : kindOf? table text = some k) (hlong : extends? table text = false)
    (cs : List Char) : Longest table k text (text ++ cs) where
  kind := h
  begins := List.prefix_append text cs
  length_le {q} hq hbegins := by
    refine Nat.le_of_not_lt fun hlt => ?_
    have hmore : text <+: q.1 :=
      List.prefix_of_prefix_length_le (List.prefix_append text cs) hbegins (Nat.le_of_lt hlt)
    exact absurd (hlong.symm.trans (extends?_iff.2 ⟨q, hq, hmore, hlt⟩)) Bool.false_ne_true

/-- One more character does not change the longest spelling if the text with it is none. -/
theorem Longest.concat (h : Longest table k spelling text)
    (hnone : kindOf? table (text ++ [c]) = none) : Longest table k spelling (text ++ [c]) where
  kind := h.kind
  begins := h.begins.trans (List.prefix_append text [c])
  length_le {q} hq hbegins := by
    rcases List.prefix_concat_iff.1 hbegins with heq | hbegins
    · exact absurd (heq ▸ hnone) (kindOf?_ne_none hq)
    · exact h.length_le hq hbegins

/-- Nothing behind a text changes its longest spelling if no spelling goes on with it. -/
theorem Longest.append (h : Longest table k spelling text) (hlong : extends? table text = false)
    (cs : List Char) : Longest table k spelling (text ++ cs) where
  kind := h.kind
  begins := h.begins.trans (List.prefix_append text cs)
  length_le {q} hq hbegins := by
    rcases Nat.le_total q.1.length text.length with hle | hle
    · exact h.length_le hq
        (List.prefix_of_prefix_length_le hbegins (List.prefix_append text cs) hle)
    · -- A spelling as long as the text is the text.
      have hmore : text <+: q.1 :=
        List.prefix_of_prefix_length_le (List.prefix_append text cs) hbegins hle
      have hnot : ¬ text.length < q.1.length := fun hlt =>
        absurd (hlong.symm.trans (extends?_iff.2 ⟨q, hq, hmore, hlt⟩)) Bool.false_ne_true
      have heq : text = q.1 := hmore.eq_of_length_le (Nat.le_of_not_lt hnot)
      exact h.length_le hq (heq ▸ List.prefix_refl _)

/-! ## Symbols that are read -/

/-- A run that read a text of which the state holds the longest spelling ends with the longest
    one of that text and all that is visible behind it. -/
theorem longest_of_run (ht : ∀ p ∈ table, ∀ c ∈ p.1, Inked c) {s : State} {mark : Cursor}
    {p : Place} (hp : p.OnLine) (hs : Longest table s.kind spelling s.text)
    (h : ((recognizer table).run s mark p cs).verdict = .ok k) :
    ∃ spelling, Longest table k spelling (s.text ++ visible cs) := by
  induction cs generalizing s spelling mark p with
  | nil =>
    rw [Recognizer.run] at h
    have hkind : s.kind = k := by
      by_cases hend : kindOf? table s.text = some s.kind
      · simp only [recognizer, atEnd, if_pos hend] at h
        exact Except.ok.inj h
      · simp only [recognizer, atEnd, if_neg hend] at h
        exact Except.ok.inj h
    exact ⟨spelling, by simpa [visible, hkind] using hs⟩
  | cons x cs ih =>
    rw [Recognizer.run, if_neg (hp.not_completes x),
      show (recognizer table).skips s = true from rfl, Bool.true_and] at h
    cases hx : isInvisible x with
    | true =>
      rw [hx, if_pos rfl] at h
      rw [visible_cons_of_isInvisible hx]
      exact ih (p.onLine_past (not_isLineEnd_of_isInvisible hx)) hs h
    | false =>
      rw [hx, if_neg Bool.false_ne_true] at h
      rw [visible_cons hx, ← List.singleton_append, ← List.append_assoc]
      simp only [recognizer, step] at h
      cases hkind : kindOf? table (s.text ++ [x]) with
      | some kind =>
        have hpast := p.onLine_past (inked_of_kindOf? ht hkind).not_lineEnd
        cases hlong : extends? table (s.text ++ [x]) with
        | true =>
          simp only [hkind, hlong] at h
          exact ih hpast (longest_self hkind) h
        | false =>
          simp only [hkind, hlong] at h
          obtain rfl : kind = k := Except.ok.inj h
          exact ⟨_, longest_append hkind hlong (visible cs)⟩
      | none =>
        have hsame := hs.concat hkind
        cases hlong : extends? table (s.text ++ [x]) with
        | true =>
          simp only [hkind, hlong] at h
          exact ih (p.onLine_past (inked_of_extends? ht hlong).not_lineEnd) hsame h
        | false =>
          simp only [hkind, hlong] at h
          obtain rfl : s.kind = k := Except.ok.inj h
          exact ⟨_, hsame.append hlong (visible cs)⟩

/-- A symbol that is read has the longest spelling. -/
theorem longest_symbol (ht : ∀ p ∈ table, ∀ c ∈ p.1, Inked c) {behind : Cursor}
    (hb : behind.place.OnLine) (h : (Lexeme.symbol table c behind).verdict = .ok k)
    (hk : k.isTrivia = false) :
    ∃ spelling, Longest table k spelling (c :: visible behind.rest) := by
  cases hc : kindOf? table [c] with
  | none => simp [Lexeme.symbol, hc] at h
  | some k₀ =>
    cases hlong : extends? table [c] with
    | true => exact longest_of_run ht hb (longest_self hc) (run_of_symbol hc hlong hk h)
    | false =>
      rw [Lexeme.symbol, hc] at h
      simp only [hlong] at h
      obtain rfl : k₀ = k := Except.ok.inj h
      exact ⟨[c], longest_append hc hlong (visible behind.rest)⟩

/-- No other spelling begins with a point. -/
theorem longest_dot (v : Version) (lineIsBlank : Bool) (text : List Char) :
    Longest (spellings v lineIsBlank) (.symbol .dot) ['.'] ('.' :: text) := by
  have hkind : kindOf? (spellings v lineIsBlank) ['.'] = some (.symbol .dot) := by
    cases v <;> cases lineIsBlank <;> decide
  have hlong : extends? (spellings v lineIsBlank) ['.'] = false := by
    cases v <;> cases lineIsBlank <;> decide
  exact longest_append hkind hlong text

/-- Only the symbols of a version have a spelling in it. -/
theorem allowed_of_kindOf? {s : Symbol}
    (h : kindOf? (spellings v lineIsBlank) text = some (.symbol s)) : s.allowed v := by
  rcases List.mem_append.1 (mem_of_kindOf? h) with hsymbol | hcomment
  · obtain ⟨s', hs', he⟩ := List.mem_map.1 hsymbol
    obtain rfl : s' = s := Kind.symbol.inj (Prod.mk.inj he).2
    exact (List.mem_filter.1 hs').2
  · simpa [Kind.isTrivia] using isTrivia_of_commentOpening hcomment

theorem mem_spellings {s : Symbol} (hs : s.allowed v) :
    (s.spelling.toList, .symbol s) ∈ spellings v lineIsBlank :=
  List.mem_append_left _ (List.mem_map.2 ⟨s, List.mem_filter.2 ⟨s.mem_all, hs⟩, rfl⟩)

/-- No symbol begins with what opens a comment. -/
theorem not_begins_of_commentOpening {q : List Char × Kind} (hq : q ∈ commentOpenings lineIsBlank)
    (s : Symbol) : ¬ q.1 <+: s.spelling.toList := by
  have hall : ∀ s ∈ Symbol.all, ∀ q ∈ commentOpenings lineIsBlank,
      q.1.isPrefixOf s.spelling.toList = false := by
    cases lineIsBlank <;> decide +kernel
  rw [← List.isPrefixOf_iff_prefix, hall s s.mem_all q hq]
  exact Bool.false_ne_true

end Operator

/-! ## Lexemes -/

variable {v : Version} {lineIsBlank : Bool} {c : Char} {behind : Cursor} {s : Symbol}

/-- What is read as a number is a number, or a point that stands alone. -/
theorem Lexeme.eq_dot_of_number (h : (Lexeme.number v c behind).verdict = .ok (.symbol s)) :
    c = '.' ∧ s = .dot ∧ (Lexeme.number v c behind).stop = behind.offset := by
  rw [number] at h ⊢
  split at h
  · simp at h
  · next ho =>
    have hpoint : c = '.' := by
      have hstart := start_of_lonePoint ho
      rw [Number.start] at hstart
      split at hstart
      · next hc => exact hc
      · split at hstart <;> simp at hstart
    exact ⟨hpoint, (Kind.symbol.inj (Except.ok.inj h)).symm, rfl⟩
  · simp at h

/-- A lexeme that is a symbol is written by its spelling, and that is the longest one of the
    visible text. -/
theorem longest_lexemeAt (hb : behind.place.OnLine)
    (h : (lexemeAt v lineIsBlank c behind).verdict = .ok (.symbol s)) :
    (∃ w m, behind.Passes w m ∧ m.offset = (lexemeAt v lineIsBlank c behind).stop ∧
      c :: visible w = s.spelling.toList) ∧
    Operator.Longest (Operator.spellings v lineIsBlank) (.symbol s) s.spelling.toList
      (c :: visible behind.rest) := by
  revert h
  refine lexemeAt_cases (P := fun l => l.verdict = .ok (.symbol s) →
    (∃ w m, behind.Passes w m ∧ m.offset = l.stop ∧ c :: visible w = s.spelling.toList) ∧
      Operator.Longest _ _ _ _) (fun _ h => ?_) (fun _ h => ?_) (fun _ h => ?_) fun h => ?_
  · exact absurd ((Lexeme.ensures_name v c behind).ok h) (by simp [Kind.isWord])
  · obtain ⟨rfl, rfl, hstop⟩ := Lexeme.eq_dot_of_number h
    exact ⟨⟨[], behind, .refl _, hstop.symm, rfl⟩, Operator.longest_dot v lineIsBlank _⟩
  · exact absurd ((Lexeme.ensures_quotation c behind).ok h) (by simp)
  · obtain ⟨-, -, w, m, hw, hpasses, hstop, -⟩ :=
      Operator.spells_of_symbol Operator.inked_spellings hb h rfl
    have hspelling := Operator.eq_spelling_of_kindOf? hw.kind
    obtain ⟨spelling, hlongest⟩ := Operator.longest_symbol Operator.inked_spellings hb h rfl
    obtain rfl := Operator.eq_spelling_of_kindOf? hlongest.kind
    exact ⟨⟨w, m, hpasses, hstop, hspelling⟩, hlongest⟩

/-! ## Readers -/

namespace LexemeReader

variable {r r' : LexemeReader}

theorem version_afterCalls (r : LexemeReader) (calls : List Call) :
    (r.afterCalls calls).version = r.version := by
  induction calls generalizing r with
  | nil => rfl
  | cons call calls ih =>
    refine (ih (r.call call).2).trans ?_
    cases call with
    | next => exact r.version_next
    | regExp equals => exact r.version_readRegExp equals

/-- Calls only move on in the script. -/
theorem leads_afterCalls (r : LexemeReader) (calls : List Call) :
    r.cursor.Leads (r.afterCalls calls).cursor := by
  induction calls generalizing r with
  | nil => exact .refl _
  | cons call calls ih =>
    refine Cursor.Leads.trans ?_ (ih (r.call call).2)
    cases call with
    | next => exact (leads_next rfl).1.trans (leads_next rfl).2
    | regExp equals => exact r.leads_readRegExp equals

theorem standsIn_afterCalls (source : List Char) (offset : Nat) (v : Version) (calls : List Call) :
    ((startingAt source offset v).afterCalls calls).cursor.StandsIn source :=
  (Cursor.standsIn_startingAt source offset).leads
    (leads_afterCalls (startingAt source offset v) calls)

/-- A symbol that stands next has the longest spelling of what is visible from its start on. -/
theorem longest_next (h : r.next = (.ok (.symbol s), r')) :
    visible r'.lexeme = s.spelling.toList ∧
      Operator.Longest (Operator.spellings r.version r.lineIsBlank) (.symbol s) s.spelling.toList
        (visible r'.opening.rest) := by
  obtain ⟨c, cs, hread⟩ := hasRead_of_next h (by simp) (by simp)
  have hline := Place.onLine_past r'.opening.place hread.inked.not_lineEnd
  obtain ⟨⟨w, m, hw, hstop, hspelling⟩, hlongest⟩ := longest_lexemeAt hline hread.verdict
  have hvisible := hread.inked.not_invisible
  rw [lexeme_eq (hread.passes.trans hw) (hstop.trans hread.stop.symm), hread.opening,
    List.singleton_append, visible_cons hvisible, visible_cons hvisible]
  exact ⟨hspelling, hlongest⟩

/-- Wherever a symbol is read in a script, it is one of the version, it is written by its
    spelling, and what is visible of the script from there on begins with no longer spelling of
    the version. Nor does a comment open there. -/
theorem symbol_longest (source : List Char) (offset : Nat) (v : Version) (calls : List Call)
    {s : Symbol} (h : ((startingAt source offset v).afterCalls calls).next.1 = .ok (.symbol s)) :
    let r := (startingAt source offset v).afterCalls calls
    let text := visible (dropBytes r.next.2.opening.offset source)
    s.allowed v ∧ visible r.next.2.lexeme = s.spelling.toList ∧ s.spelling.toList <+: text ∧
      (∀ s' : Symbol, s'.allowed v → s.spelling.toList.length < s'.spelling.toList.length →
        ¬ s'.spelling.toList <+: text) ∧
      ∀ q ∈ Operator.commentOpenings r.lineIsBlank, ¬ q.1 <+: text := by
  intro r text
  have hversion : r.version = v := version_afterCalls _ calls
  obtain ⟨hlexeme, hlongest⟩ := longest_next (Prod.ext h rfl : r.next = (_, r.next.2))
  have htext : visible r.next.2.opening.rest = text := by
    have hstands : r.cursor.StandsIn source :=
      (Cursor.standsIn_startingAt source offset).leads
        (leads_afterCalls (startingAt source offset v) calls)
    have hopening : r.cursor.Leads r.next.2.opening := (leads_next (Prod.ext rfl rfl)).1
    exact congrArg visible (hstands.leads hopening).dropBytes_eq.symm
  rw [hversion, htext] at hlongest
  refine ⟨Operator.allowed_of_kindOf? hlongest.kind, hlexeme, hlongest.begins,
    fun s' hs' hlt hbegins => ?_, fun q hq hbegins => ?_⟩
  · exact absurd (hlongest.length_le (Operator.mem_spellings hs') hbegins) (Nat.not_le_of_lt hlt)
  · have hle := hlongest.length_le (List.mem_append_right _ hq) hbegins
    exact Operator.not_begins_of_commentOpening hq s
      (List.prefix_of_prefix_length_le hbegins hlongest.begins hle)

/-- The beginning of a comment opening is left unread where the opening breaks off: only its first
    sign is read, as a symbol. -/
theorem symbol_longest_less :
    let r := (startingAt "a<!-b".toList 0 .legacy).afterCalls [.next]
    let text := visible (dropBytes r.next.2.opening.offset "a<!-b".toList)
    r.next.1 = .ok (.symbol .less) ∧ visible r.next.2.lexeme = ['<'] ∧
      (∀ s' : Symbol, s'.allowed .legacy → 1 < s'.spelling.toList.length →
        ¬ s'.spelling.toList <+: text) ∧
      ∀ q ∈ Operator.commentOpenings r.lineIsBlank, ¬ q.1 <+: text := by
  intro r text
  have h : r.next.1 = .ok (.symbol .less) := by decide +kernel
  obtain ⟨-, hlexeme, -, hlonger, hcomment⟩ := symbol_longest "a<!-b".toList 0 .legacy [.next] h
  exact ⟨h, hlexeme, hlonger, hcomment⟩

end LexemeReader

end ScriptExcerpt
