import ScriptExcerpt.Proofs.Lexeme.Extent

/-!
# Nothing is lost

The lexemes of a script stand in it one behind the other, and what lies between
two of them separates them and nothing else (`LexemeReader.Covers`). A reader
keeps to this because it knows, from one lexeme to the next, that its cursor lies
behind invisible characters only (`LexemeReader.Keeps`).

* `LexemeReader.Keeps.step`: one lexeme;
* `LexemeReader.Lexes.keeps`: all lexemes up to the first problem;
* `LexemeReader.covers_of_lexes`: what they cover.
-/

namespace ScriptExcerpt

open Text

/-- The text from a cursor on, up to an offset, is a part of the script. -/
theorem Cursor.StandsIn.textTo_eq {source : List Char} {cur : Cursor} (h : cur.StandsIn source)
    (n : Nat) : cur.textTo n = slice cur.offset n source := by
  obtain ⟨before, hsource, ho⟩ := h
  rw [textTo, slice, ho, hsource, dropBytes_append]

namespace LexemeReader

/-- Reading on from `r` gives lexemes of the kinds `ks`, the latest first, and
    leaves `r'`. -/
inductive Lexes : LexemeReader → List Kind → LexemeReader → Prop
  | nil (r : LexemeReader) : Lexes r [] r
  | snoc {r r₁ r' : LexemeReader} {ks : List Kind} {k : Kind} :
    Lexes r ks r₁ → r₁.next = (.ok k, r') → Lexes r (k :: ks) r'

/-- Where in the script the lexeme of the kind `k` stands that was read between
    `r` and `r'`, behind one of the kind `before?`. Only a gap lies between the
    two, or the newline that belongs to a carriage return, and a gap. -/
structure Covers (source : List Char) (before? : Option Kind) (r : LexemeReader) (k : Kind)
    (r' : LexemeReader) : Prop where
  stop_le_start : r.stop ≤ r'.opening.offset
  start_le_stop : r'.opening.offset ≤ r'.stop
  stop_le_cursor : r'.stop ≤ r'.cursor.offset
  cursor_le : r'.cursor.offset ≤ byteLength source
  start_boundary : IsBoundary source r'.opening.offset
  stop_boundary : IsBoundary source r'.stop
  nonempty : k ≠ .endOfInput → r'.opening.offset < r'.stop
  lexeme : r'.lexeme = slice r'.opening.offset r'.stop source
  skipped : IsGap (slice r.stop r'.opening.offset source) ∨
    before? = some .lineEnd ∧ r.lexeme = ['\r'] ∧
      ∃ gap, slice r.stop r'.opening.offset source = '\n' :: gap ∧ IsGap gap

/-- What a reader keeps to in the script, behind a lexeme of the kind `before?`:
    only invisible characters lie between the lexeme and the cursor, none of
    them behind a carriage return. -/
def Keeps (source : List Char) (before? : Option Kind) (r : LexemeReader) : Prop :=
  ∃ (m : Cursor) (gap : List Char), m.StandsIn source ∧ m.offset = r.stop ∧ m.Passes gap r.cursor ∧
    (∀ c ∈ gap, isInvisible c) ∧ (r.cursor.place.afterReturn → r.cursor.rest ≠ [] →
      gap = [] ∧ before? = some .lineEnd ∧ r.lexeme = ['\r'])

variable {source : List Char} {before? : Option Kind} {r r' : LexemeReader} {k : Kind}

/-- Where a lexeme ends, and what lies between its end and the cursor. -/
theorem ends_next (h : r.next = (.ok k, r')) :
    ∃ m gap, r'.opening.Leads m ∧ m.offset = r'.stop ∧ m.Passes gap r'.cursor ∧
      (k ≠ .endOfInput → r'.opening.offset < r'.stop) ∧ (∀ c ∈ gap, isInvisible c) ∧
      (r'.cursor.place.afterReturn → r'.cursor.rest ≠ [] →
        gap = [] ∧ k = .lineEnd ∧ r'.lexeme = ['\r']) := by
  obtain ⟨hopen, ⟨rfl, hr', hrest⟩ | ⟨c, cs, hrest, hlexeme⟩⟩ := next_ok h
  · -- At the end of the script nothing is passed.
    have hcursor : r'.cursor = r'.opening := by rw [hr']; rfl
    have hstop : r'.stop = r'.opening.offset := by rw [hr']; rfl
    exact ⟨r'.opening, [], .refl _, hstop.symm, hcursor ▸ .refl _, fun hk => absurd rfl hk,
      by simp, fun _ hne => absurd (hcursor ▸ hrest) hne⟩
  · have hpast := passes_opening (congrArg Prod.snd h) hrest
    have hbehind : r'.opening.offset < (r'.opening.place.past c).offset :=
      Nat.lt_add_of_pos_right c.utf8Size_pos
    rcases hlexeme with ⟨rfl, -, hr'⟩ | ⟨-, hreach⟩
    · have hcursor : r'.cursor = ⟨r'.opening.place.past c, cs⟩ := by rw [hr']; rfl
      have hstop : r'.stop = (r'.opening.place.past c).offset := by rw [hr']; rfl
      refine ⟨r'.cursor, [], hcursor ▸ hpast.leads, by rw [hcursor, hstop]; rfl, .refl _,
        fun _ => hstop ▸ hbehind, by simp, fun hret _ => ⟨rfl, rfl, ?_⟩⟩
      obtain rfl : c = '\r' := by simpa [hcursor, Place.past] using hret
      have hone := takeBytes_append ['\r'] cs
      rw [LexemeReader.lexeme, Cursor.textTo, hstop, hrest]
      simpa [Cursor.offset, Place.past, byteLength] using hone
    · obtain ⟨m, gap, hm, hstop, hgap, hinv⟩ := hreach.extent.ends
      have hret : r'.cursor.place.afterReturn = false := hreach.extent.onLine.afterReturn
      refine ⟨m, gap, hpast.leads.trans hm, hstop, hgap, fun _ => ?_, hinv, by simp [hret]⟩
      exact Nat.lt_of_lt_of_le hbehind (hstop ▸ hm.offset_le)

/-- One lexeme is covered, and its reader keeps to the script. -/
theorem Keeps.step (h : Keeps source before? r) (hn : r.next = (.ok k, r')) :
    Covers source before? r k r' ∧ Keeps source (some k) r' := by
  obtain ⟨m, gap, hm, hstop, hgap, hinv, hret⟩ := h
  obtain ⟨passed, hpassed, hseparates⟩ := r.cursor.passes_skipGap
  rw [← (next_ok hn).1] at hpassed
  have hopen := hgap.trans hpassed
  have hstands := hm.passes hopen
  have hslice := hm.slice_eq hopen
  obtain ⟨m', gap', hm', hstop', hgap', hne, hinv', hret'⟩ := ends_next hn
  have hstands' := hstands.leads hm'
  have hcursor := hstands'.passes hgap'
  refine ⟨?_, m', gap', hstands', hstop', hgap', hinv',
    fun hr hrest => (hret' hr hrest).imp_right (.imp_left (congrArg some))⟩
  rw [hstop] at hslice
  refine
    { stop_le_start := hstop ▸ hopen.leads.offset_le
      start_le_stop := hstop' ▸ hm'.offset_le
      stop_le_cursor := hstop' ▸ hgap'.leads.offset_le
      cursor_le := hcursor.offset_le
      start_boundary := hstands.isBoundary
      stop_boundary := hstop' ▸ hstands'.isBoundary
      nonempty := hne
      lexeme := hstands.textTo_eq _
      skipped := ?_ }
  rw [hslice]
  rcases hseparates with hpure | ⟨hr, pure, rfl, hpure⟩
  · exact .inl ((isGap_of_isInvisible hinv).append hpure)
  · -- The newline completes a carriage return, right behind which it stands.
    obtain ⟨rfl, hbefore, hlexeme⟩ := hret hr (by simp [hpassed.1])
    exact .inr ⟨hbefore, hlexeme, pure, rfl, hpure⟩

/-- A reader keeps to the script that it starts in. -/
theorem keeps_startingAt (source : List Char) (offset : Nat) (v : Version) :
    Keeps source none (startingAt source offset v) :=
  ⟨_, [], Cursor.standsIn_startingAt source offset, rfl, .refl _, by simp,
    fun h => absurd h Bool.false_ne_true⟩

/-- Up to the first problem, a reader keeps to the script. -/
theorem Lexes.keeps {offset : Nat} {v : Version} {ks : List Kind}
    (h : Lexes (startingAt source offset v) ks r) : Keeps source ks.head? r := by
  induction h with
  | nil => exact keeps_startingAt source offset v
  | snoc _ hn ih => exact (ih.step hn).2

theorem Lexes.leads {s : LexemeReader} {ks : List Kind} (h : Lexes s ks r) :
    s.cursor.Leads r.cursor := by
  induction h with
  | nil => exact .refl _
  | snoc _ hn ih => exact (ih.trans (leads_next hn).1).trans (leads_next hn).2

/-- Up to the first problem, the lexemes of a script, read from an offset on,
    cover it: each stands behind the one before it, on boundaries of characters,
    and only what separates lexemes is skipped. -/
theorem covers_of_lexes {offset : Nat} {v : Version} {ks : List Kind}
    (h : Lexes (startingAt source offset v) ks r) (hn : r.next = (.ok k, r')) :
    (startingAt source offset v).cursor.offset ≤ r'.opening.offset ∧
      Covers source ks.head? r k r' :=
  ⟨(h.leads.trans (leads_next hn).1).offset_le, (h.keeps.step hn).1⟩

/-- The newline behind a carriage return is skipped, as is a blank. -/
theorem covers_behind_return :
    let s := startingAt "\r\n /".toList 0 .js17
    Lexes s [.lineEnd] s.next.2 ∧ s.next.2.next.1 = .ok (.symbol .slash) ∧
      s.cursor.offset ≤ s.next.2.next.2.opening.offset ∧
        Covers "\r\n /".toList (some .lineEnd) s.next.2 (.symbol .slash) s.next.2.next.2 := by
  have hreturn : Lexes (startingAt "\r\n /".toList 0 .js17) [.lineEnd] _ :=
    .snoc (.nil _) rfl
  have hslash : (startingAt "\r\n /".toList 0 .js17).next.2.next.1 = .ok (.symbol .slash) := rfl
  exact ⟨hreturn, hslash, covers_of_lexes hreturn (Prod.ext hslash rfl)⟩

end LexemeReader

end ScriptExcerpt
