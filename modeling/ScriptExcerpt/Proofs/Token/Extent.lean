import ScriptExcerpt.Proofs.Lexeme.Extent
import ScriptExcerpt.Proofs.Token.Calls

/-!
# Where tokens end

A token ends where its text says, and unless it is a quotation, on the line that
it begins on. So the lines that a stream counts tell whether a line ends between
two tokens.

* `LexemeReader.reaches_nextSignificant`, `TokenStream.reaches_read`: where the
  token read last ends.
* `Token.Behind`: a cursor stands behind a token, and no line ends between.
* `Token.Behind.line_ne_iff`: a line ends between two tokens exactly if they stand
  on different lines.
-/

namespace ScriptExcerpt

open Text

namespace LexemeReader

variable {r r' : LexemeReader} {k : Kind}

theorem reaches_nextSignificant (h : r.nextSignificant = (.ok k, r')) (hk : k ≠ .endOfInput) :
    r'.opening.look = r'.opening ∧ Lexeme.Reaches r'.opening r'.stop r'.cursor k := by
  fun_induction nextSignificant r with
  | case1 => simp at h
  | case2 r k₁ r₁ h₁ ht ih => exact ih h
  | case3 r k₁ r₁ h₁ ht =>
    obtain ⟨hk₁, rfl⟩ := Prod.mk.inj h
    obtain rfl := Except.ok.inj hk₁
    exact reaches_next h₁ hk (by rintro rfl; exact ht rfl)

end LexemeReader

namespace TokenStream

variable {s s' : TokenStream} {r : LexemeReader} {k : Kind} {t : Token}

/-- Where a token ends. A regular expression ends where its flags do, on the line
    of its slash. -/
theorem reaches_read (h : s.read = (.ok k, r)) (hk : k ≠ .endOfInput) :
    r.opening.look = r.opening ∧ Lexeme.Reaches r.opening r.stop r.cursor k := by
  rcases read_ok h with ⟨hn, -⟩ | ⟨rfl, k₁, r₁, hn, hslash, hr⟩
  · exact LexemeReader.reaches_nextSignificant hn hk
  · have hk₁ : k₁ ≠ .endOfInput ∧ k₁.spansLines = false := by
      rcases eq_slash_of_opensRegExp hslash with rfl | rfl <;> simp [Kind.spansLines]
    obtain ⟨hlook, hreach₁⟩ := LexemeReader.reaches_nextSignificant hn hk₁.1
    have hreach := LexemeReader.reaches_readRegExp hreach₁.extent.onLine hr
    have hopen := r₁.opening_readRegExp (k₁ = .symbol .slashEquals)
    rw [hr] at hopen
    rw [hopen]
    exact ⟨hlook, hreach.extent.of_leads hreach₁.extent.leads,
      fun hs => (hreach.line hs).trans (hreach₁.line hk₁.2)⟩

end TokenStream

/-! ## Lines between tokens -/

/-- The cursor stands in the script behind the token: only invisible characters
    lie between. -/
structure Token.Behind (source : List Char) (t : Token) (cur : Cursor) : Prop where
  ends : ∃ (m : Cursor) (gap : List Char), m.StandsIn source ∧ m.offset = t.span.stop ∧
    m.Passes gap cur ∧ ∀ c ∈ gap, isInvisible c
  onLine : cur.place.OnLine

/-- A line ends between the two tokens. -/
def Token.lineEndsBetween (source : List Char) (t u : Token) : Bool :=
  (slice t.span.stop u.span.start source).any isLineEnd

/-- As long as the lines can be counted, a line ends behind a token exactly if the
    line of a place behind it is another. -/
theorem Token.Behind.line_ne_iff {source : List Char} {t u : Token} {a b : Cursor}
    (h : t.Behind source a) (hab : a.Leads b) (hb : b.look = b) (hu : u.span.start = b.offset)
    (hlines : lineCount source < UInt32.size) :
    a.place.line ≠ b.place.line ↔ t.lineEndsBetween source u := by
  obtain ⟨m, gap, hm, hstop, hgap, hinv⟩ := h.ends
  obtain ⟨passed, hpassed⟩ := hab
  have hcount : lineEnds passed < UInt32.size :=
    Nat.lt_of_le_of_lt ((hm.passes hgap).lineEnds_le hpassed) (Nat.lt_of_succ_lt hlines)
  have hslice := hm.slice_eq (hgap.trans hpassed)
  rw [hstop, ← hu] at hslice
  rw [hpassed.line_ne_iff h.onLine (congrArg Cursor.place hb) hcount, lineEndsBetween, hslice,
    List.any_eq_true]
  -- The invisible characters before the cursor end no line.
  refine exists_congr fun c => and_congr_left fun hc => ?_
  rw [List.mem_append, or_iff_right fun hmem => ?_]
  simp [not_isLineEnd_of_isInvisible (hinv c hmem)] at hc

theorem TokenStream.behind_token {source : List Char} {s s' : TokenStream} {t : Token}
    (hs : s.reader.cursor.StandsIn source) (h : s.next = (.ok t, s'))
    (ht : t.kind ≠ .endOfInput) : t.Behind source s'.reader.cursor := by
  have hopen := (leads_next h).1
  obtain ⟨k, hread, rfl, -⟩ := next_ok h
  obtain ⟨m, gap, hm, hstop, hgap⟩ := (reaches_read hread ht).2.extent.ends
  exact ⟨⟨m, gap, hs.leads (hopen.trans hm), hstop, hgap⟩,
    (reaches_read hread ht).2.extent.onLine⟩

end ScriptExcerpt
