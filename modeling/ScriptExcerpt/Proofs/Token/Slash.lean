import ScriptExcerpt.Proofs.Token.Role

/-!
# What a slash means

Whatever calls read a script, the books of the stream refine the history of the
tokens told so far (`TokenStream.Follows`). So a slash means what it means
behind that history, though only three tokens of it are remembered.

* `TokenStream.Follows.token`, `TokenStream.Follows.problem`: one call;
* `TokenStream.follows_after`: any number of calls;
* `TokenStream.slash_after`: what a slash is read as.
-/

namespace ScriptExcerpt

open Text

namespace TokenStream

variable {source : List Char} {h : List Token} {s s' : TokenStream} {t : Token} {p : Problem}

/-- The books of the stream refine the history `h`, and the line that they know of
    the latest token is that of a cursor behind it. -/
structure Follows (source : List Char) (h : List Token) (s : TokenStream) : Prop where
  stands : s.reader.cursor.StandsIn source
  refines : Grouping.Refines source h s.grouping
  line : ∀ u h', h = u :: h' → u.kind ≠ .endOfInput → ∃ trace cur,
    s.grouping.last? = some trace ∧ trace.line = cur.place.line ∧ u.Behind source cur ∧
      cur.Leads s.reader.cursor

theorem follows_startingAt (source : List Char) (offset : Nat) (v : Version) :
    Follows source [] (startingAt source offset v) :=
  ⟨Cursor.standsIn_startingAt source offset, Grouping.refines_empty source,
    fun _ _ hne => by simp at hne⟩

/-- The line of a brace tells whether a line ends before it. -/
theorem Follows.linesTell (hf : Follows source h s) (hlines : lineCount source < UInt32.size)
    (hn : s.next = (.ok t, s')) (ht : t.kind = .symbol .openCurly) :
    Grouping.LinesTell source h s.grouping t s'.reader.line := by
  rintro u h' rfl hu trace htrace
  have hend : u.kind ≠ .endOfInput := by rcases hu with hu | hu <;> simp [hu]
  obtain ⟨trace', cur, hlast, hline, hbehind, hlead⟩ := hf.line u h' rfl hend
  obtain rfl := Option.some.inj (htrace.symm.trans hlast)
  have hopen := hlead.trans (leads_next hn).1
  obtain ⟨k, hread, rfl, -⟩ := next_ok hn
  obtain rfl : k = .symbol .openCurly := ht
  -- The brace is read on the line where it starts.
  obtain ⟨hlook, hreach⟩ := reaches_read hread (by simp)
  rw [hline, LexemeReader.line, hreach.line rfl]
  exact hbehind.line_ne_iff hopen hlook rfl hlines

/-- A token that is told is the latest of the history. -/
theorem Follows.token (hf : Follows source h s) (hlines : lineCount source < UInt32.size)
    (hn : s.next = (.ok t, s')) : Follows source (t :: h) s' := by
  have hline := hf.linesTell hlines hn
  have hbehind := behind_token hf.stands hn
  have hlead := leads_reader_next hn
  obtain ⟨k, -, rfl, hg⟩ := next_ok hn
  refine ⟨hf.stands.leads hlead, hf.refines.enter hline hg, ?_⟩
  rintro _ _ ⟨⟩ ht
  obtain ⟨trace, hlast, -, hl⟩ := Grouping.last?_enter hg
  exact ⟨trace, s'.reader.cursor, hlast, hl, hbehind ht, .refl _⟩

/-- A problem leaves the history as it is. -/
theorem Follows.problem (hf : Follows source h s) (hn : s.next = (.error p, s')) :
    Follows source h s' := by
  have hlead := leads_reader_next hn
  have hgrouping := (next_error hn).1
  refine ⟨hf.stands.leads hlead, hgrouping ▸ hf.refines, fun u h' hh hu => ?_⟩
  obtain ⟨trace, cur, hlast, hline, hbehind, hcur⟩ := hf.line u h' hh hu
  exact ⟨trace, cur, hgrouping ▸ hlast, hline, hbehind, hcur.trans hlead⟩

/-- The books refine the history of the tokens told, problems or not. -/
theorem follows_after (source : List Char) (offset : Nat) (v : Version)
    (hlines : lineCount source < UInt32.size) (n : Nat) :
    Follows source ((startingAt source offset v).told n)
      ((startingAt source offset v).after n) := by
  induction n with
  | zero => exact follows_startingAt source offset v
  | succ n ih =>
    rcases hn : ((startingAt source offset v).after n).next with ⟨p | t, s'⟩
    · rw [told_succ_of_problem hn, after, hn]
      exact ih.problem hn
    · rw [told_succ_of_token hn, after, hn]
      exact ih.token hlines hn

/-- In a script whose lines can be counted, whatever calls were made, the books
    refine the history of the tokens told so far; a slash that comes next is read
    as a regular expression exactly if it opens one behind that history. -/
theorem slash_after (source : List Char) (offset : Nat) (v : Version)
    (hlines : lineCount source < UInt32.size) (n : Nat) :
    let s := (startingAt source offset v).after n
    let h := (startingAt source offset v).told n
    Grouping.Refines source h s.grouping ∧
      ∀ k r, s.reader.nextSignificant = (.ok k, r) →
        k = .symbol .slash ∨ k = .symbol .slashEquals →
          s.next.1 = if History.slashOpens History.holdsParameters source h then
              (r.readRegExp (k = .symbol .slashEquals)).1.map fun _ =>
                TokenStream.token (r.readRegExp (k = .symbol .slashEquals)).2 .regExp
            else .ok (TokenStream.token r k) := by
  have hrefines := (follows_after source offset v hlines n).refines
  refine ⟨hrefines, fun k r hk hslash => ?_⟩
  rw [next_of_slash hk hslash, hrefines.slashOpensRegExp_eq]

/-- Behind the test of an `if` a slash opens a regular expression. -/
theorem slash_behind_test :
    let s := (startingAt "if(a)/b/".toList 0 .legacy).after 4
    lineCount "if(a)/b/".toList < UInt32.size ∧
      s.reader.nextSignificant.1 = .ok (.symbol .slash) ∧
        s.next.1 = .ok ⟨.regExp, "b", ⟨5, 8⟩⟩ := by
  have hslash : ((startingAt "if(a)/b/".toList 0 .legacy).after 4).reader.nextSignificant.1 =
      .ok (.symbol .slash) := by
    decide +kernel
  refine ⟨by decide, hslash, ?_⟩
  rw [(slash_after "if(a)/b/".toList 0 .legacy (by decide) 4).2 _ _ (Prod.ext hslash rfl)
    (.inl rfl)]
  decide +kernel

end TokenStream

/-- A looser reading of what holds parameters: `function` may stand in either of the
    two places, whatever stands in the other. -/
def History.holdsParametersLoosely (h : List Token) : Bool :=
  startsFunction h || startsFunction h.tail

/-- The looser reading does not tell what a slash is read as: behind `function`
    twice, it takes the parameters for those of the first. -/
theorem TokenStream.slash_behind_two_functions :
    let source := "=function function()\x7b\x7d/a/".toList
    let s := (startingAt source 0 .legacy).after 7
    lineCount source < UInt32.size ∧ s.reader.nextSignificant.1 = .ok (.symbol .slash) ∧
      History.slashOpens History.holdsParametersLoosely source
        ((startingAt source 0 .legacy).told 7) = false ∧
      s.next.1 = .ok ⟨.regExp, "a", ⟨22, 25⟩⟩ := by
  decide +kernel

end ScriptExcerpt
