import ScriptExcerpt.Proofs.Lexeme.Invisible
import ScriptExcerpt.Proofs.Token.Alike
import ScriptExcerpt.Proofs.Token.LineCount

/-!
# Invisible characters do not count

A script without quotations has the tokens of what is visible of it. Two readers
of the two scripts go on together, but for a newline that ends a line to the one
only (`LexemeReader.Sifted`). So they count different lines; what they tell of the
lines between two tokens is the same (`TokenStream.Sifted`), as long as the lines
can be counted.

* `Cursor.Sifted.line_eq_iff`: whether a line ends between two cursors.
* `TokenStream.Sifted.next`: one token.
* `tokenize_visible`: the tokens of the two scripts, if the lines can be counted.
* `tokenize_visible_beyond_count`: a script with too many of them.
-/

namespace ScriptExcerpt

open Text

/-! ## Readers -/

namespace LexemeReader

/-- The second reader stands in the visible text of what the first one stands in. If it
    stands behind a carriage return, the line is blank so far. -/
structure Sifted (r r' : LexemeReader) : Prop where
  version : r'.version = r.version
  lineIsBlank : r'.lineIsBlank = r.lineIsBlank
  value : r'.value = r.value
  rest : r'.cursor.rest = visible r.cursor.rest
  quoteless : IsQuoteless r.cursor.rest
  afterReturn : r.cursor.place.afterReturn → r'.cursor.place.afterReturn
  blank : r'.cursor.place.afterReturn → r'.lineIsBlank

namespace Sifted

variable {r r' : LexemeReader} {k : Kind}

theorem of_alike (h : Alike Cursor.Sifted IsVisibleOf k r r') (hk : k ≠ .endOfInput) :
    Sifted r r' := by
  obtain ⟨hrest, hquote, hline, hline'⟩ := h.cursor hk
  exact ⟨h.version, h.lineIsBlank, h.value, hrest, hquote,
    fun he => absurd (hline.afterReturn.symm.trans he) Bool.false_ne_true,
    fun he => absurd (hline'.afterReturn.symm.trans he) Bool.false_ne_true⟩

/-- The next lexeme is told alike, or is a line end in the first script, and maybe in the
    second one. -/
theorem next (h : Sifted r r') : ReadAlike Cursor.Sifted IsVisibleOf r.next r'.next ∨
    ∃ r₁ r₁', r.next = (.ok .lineEnd, r₁) ∧ r'.nextSignificant = r₁'.nextSignificant ∧
      Sifted r₁ r₁' := by
  have hgap := Cursor.skipGapFrom_sifted h.afterReturn r.cursor.rest
  have hquote := r.cursor.leads_skipGap.quoteless h.quoteless
  rw [← h.rest] at hgap
  rcases hgap with hrest | ⟨hret, place, rest, q, hhere, hq, hgap'⟩
  · change r'.cursor.skipGap.rest = visible r.cursor.skipGap.rest at hrest
    rcases hhere : r.cursor.skipGap with ⟨place, _ | ⟨c, cs⟩⟩
    · rw [hhere] at hrest
      rw [next_of_gap_nil (congrArg Cursor.rest hhere), next_of_gap_nil hrest]
      refine .inl (.ok ⟨h.version, h.lineIsBlank, h.value, fun hk => absurd rfl hk, fun _ => ?_⟩)
      rw [lexeme_eq (.refl _) rfl, lexeme_eq (.refl _) rfl]
      rfl
    · have hc := Cursor.not_completes_skipGapFrom hhere
      have hvisible : isInvisible c = false :=
        (Bool.or_eq_false_iff.1 (Cursor.not_gap_skipGapFrom hhere)).2
      rcases hhere' : r'.cursor.skipGap with ⟨place', rest⟩
      rw [hhere, hhere', visible_cons hvisible] at hrest
      obtain rfl := hrest
      have hc' := Cursor.not_completes_skipGapFrom hhere'
      rw [hhere] at hquote
      have hnext := next_of_gap hhere
      have hnext' := next_of_gap hhere'
      cases hline : isLineEnd c with
      | true =>
        rw [hline, if_pos rfl] at hnext hnext'
        exact .inr ⟨_, _, hnext, nextSignificant_of_next hnext', h.version, rfl, h.value, rfl,
          hquote.of_cons, id, fun _ => rfl⟩
      | false =>
        rw [hline, if_neg Bool.false_ne_true] at hnext hnext'
        rw [hnext, hnext']
        have hT (u u' : List Char) (hu : IsVisibleOf u u') : IsVisibleOf (c :: u) (c :: u') := by
          rw [IsVisibleOf, visible_cons hvisible, hu]
        have hnoQuote : isQuote c = false := hquote c List.mem_cons_self
        exact .inl (accept_alike (respected_sifted _)
          (fun hc => absurd (hnoQuote.symm.trans hc) Bool.false_ne_true) hT h.version
          h.lineIsBlank h.value hc hc'
          ⟨rfl, hquote.of_cons, place.onLine_past hline, place'.onLine_past hline⟩)
  · -- The newline ends a line in the first script; in the second one it completes the
    -- carriage return before it.
    have hnext := next_of_gap hhere
    rw [show isLineEnd '\n' = true from rfl, if_pos rfl] at hnext
    have hquote' : IsQuoteless ('\n' :: rest) := by
      rw [show r.cursor.skipGap = _ from hhere] at hquote
      exact hquote
    exact .inr ⟨_, _, hnext, nextSignificant_of_skipGap ⟨q, visible rest⟩ hgap', h.version,
      h.blank hret, h.value, rfl, hquote'.of_cons, fun he => absurd he Bool.false_ne_true,
      fun he => absurd (hq.symm.trans he) Bool.false_ne_true⟩

theorem nextSignificant (h : Sifted r r') :
    ReadAlike Cursor.Sifted IsVisibleOf r.nextSignificant r'.nextSignificant := by
  refine nextSignificant_alike next (fun halike ht => of_alike halike ?_) h
  rintro rfl
  simp [Kind.isTrivia] at ht

theorem startingAt {source : List Char} (hquote : IsQuoteless source) (v : Version) :
    Sifted (.startingAt source 0 v) (.startingAt (visible source) 0 v) := by
  have hsource : Cursor.startingAt source 0 = ⟨.atOffset 0, source⟩ :=
    Cursor.startingAt_append [] source
  have hvisible : Cursor.startingAt (visible source) 0 = ⟨.atOffset 0, visible source⟩ :=
    Cursor.startingAt_append [] _
  rw [LexemeReader.startingAt, LexemeReader.startingAt, hsource, hvisible]
  exact ⟨rfl, rfl, rfl, rfl, hquote, id, fun _ => rfl⟩

end Sifted

end LexemeReader

/-! ## Streams -/

/-- As long as the lines can be counted, a line ends between two cursors exactly if one ends
    in the visible text between them. -/
theorem Cursor.Sifted.line_eq_iff {a b m m' : Cursor} (h : Sifted a b) (hm : Sifted m m')
    (ham : a.Leads m) (hbm : b.Leads m') (hlines : lineEnds a.rest < UInt32.size) :
    b.place.line = m'.place.line ↔ a.place.line = m.place.line := by
  obtain ⟨u, hu⟩ := ham
  obtain ⟨u', hu'⟩ := hbm
  obtain rfl : u' = visible u := by
    have hrest := h.rest
    rw [hu.1, hu'.1, hm.rest, visible_append] at hrest
    exact List.append_cancel_right hrest
  have hcount : lineEnds u < UInt32.size := by
    rw [hu.1] at hlines
    exact Nat.lt_of_le_of_lt (lineEndsBehind_le_append false u m.rest) hlines
  have hcount' : lineEnds (visible u) < UInt32.size :=
    Nat.lt_of_le_of_lt (lineEndsBehind_visible_le id u) hcount
  rw [← Decidable.not_iff_not, ← ne_eq, ← ne_eq,
    hu'.line_ne_iff h.onLine' hm.onLine'.look_eq hcount',
    hu.line_ne_iff h.onLine hm.onLine.look_eq hcount, exists_isLineEnd_visible]

namespace TokenStream

variable {s s' : TokenStream}

/-- The second stream stands in the visible text of what the first one stands in, the lines
    of which can be counted. -/
structure Sifted (s s' : TokenStream) : Prop where
  reader : s.reader.Sifted s'.reader
  books : s.grouping.Alike s'.grouping
  onLine : s.OnLine
  onLine' : s'.OnLine
  lines : lineEnds s.reader.cursor.rest < UInt32.size

/-- The next token is told alike. -/
theorem Sifted.next (h : Sifted s s') :
    StepsAlike (fun value => String.ofList (visible value.toList)) Sifted s.next s'.next := by
  have hread := read_alike respected_sifted h.books h.reader.nextSignificant
  have hlead := s.leads_read
  have hlead' := s'.leads_read
  rcases hr : s.read with ⟨x, r⟩
  rcases hr' : s'.read with ⟨y, r'⟩
  rw [hr, hr'] at hread
  rw [hr] at hlead
  rw [hr'] at hlead'
  cases hread with
  | error hc => exact next_alike_of_problem hr hr' hc
  | @ok k _ _ halike =>
    refine next_alike hr hr' ?_ h.books ?_ fun g g' hg hg' hbooks hk => ?_
    · refine token_alike halike (isTrivia_read hr) fun _ hlexeme => ?_
      rw [hlexeme, String.toList_ofList, String.toList_ofList, visible_visible]
    · -- Whether the brace is on the line of the token before it.
      rintro rfl t t' ht ht'
      have hsifted : s.reader.cursor.Sifted s'.reader.cursor :=
        ⟨h.reader.rest, h.reader.quoteless, h.onLine.onLine ht, h.onLine'.onLine ht'⟩
      rw [h.onLine.line ht, h.onLine'.line ht']
      exact hsifted.line_eq_iff (halike.cursor (by simp)) (hlead.1.trans hlead.2)
        (hlead'.1.trans hlead'.2) h.lines
    · have hcursor := halike.cursor hk
      obtain ⟨u, hu, -⟩ := hlead.1.trans hlead.2
      have hlines : lineEnds r.cursor.rest ≤ lineEnds s.reader.cursor.rest :=
        hu ▸ lineEnds_le_append false u r.cursor.rest
      exact ⟨.of_alike halike hk, hbooks, .of_enter hg hcursor.onLine,
        .of_enter hg' hcursor.onLine', Nat.lt_of_le_of_lt hlines h.lines⟩

theorem Sifted.ofSource {source : List Char} (hquote : IsQuoteless source)
    (hlines : lineCount source < UInt32.size) (v : Version) :
    Sifted (.ofSource source v) (.ofSource (visible source) v) where
  reader := .startingAt hquote v
  books := .refl _
  onLine := .ofSource source v
  onLine' := .ofSource _ v
  lines := by
    have hsource : Cursor.startingAt source 0 = ⟨.atOffset 0, source⟩ :=
      Cursor.startingAt_append [] source
    change lineEnds (Cursor.startingAt source 0).rest < _
    rw [hsource]
    exact Nat.lt_of_succ_lt hlines

end TokenStream

/-- A script without quotations, whose lines can be counted, has tokens of the same kinds as
    what is visible of it, and what is visible of their values is the same; or the same is
    wrong with the two. From 2 ^ 32 lines on the count of lines starts again at zero, and a
    brace may be taken to stand on the line of a return that is that far above it. -/
theorem tokenize_visible (source : List Char) (v : Version) (hquote : IsQuoteless source)
    (hlines : lineCount source < UInt32.size) :
    SameTokens (fun value => String.ofList (visible value.toList)) (tokenize source v)
      (tokenize (visible source) v) :=
  TokenStream.tokens_alike TokenStream.Sifted.next (.ofSource hquote hlines v)

/-- A zero width space in a word, in an operator, and between a carriage return and its
    newline. -/
theorem tokenize_visible_around_return :
    let source := "retur\u200bn\r\u200b\n\x7b\x7d+\u200b+/a/g".toList
    IsQuoteless source ∧ lineCount source < UInt32.size ∧
      SameTokens (fun value => String.ofList (visible value.toList)) (tokenize source .legacy)
        (tokenize "return\r\n\x7b\x7d++/a/g".toList .legacy) := by
  have hquote : IsQuoteless "retur\u200bn\r\u200b\n\x7b\x7d+\u200b+/a/g".toList := by decide
  have hlines : lineCount "retur\u200bn\r\u200b\n\x7b\x7d+\u200b+/a/g".toList < UInt32.size := by
    decide
  exact ⟨hquote, hlines, tokenize_visible _ .legacy hquote hlines⟩

/-- Of the 2 ^ 32 + 1 line ends behind the return all but one are counted in vain: the brace is
    taken to stand on the next line, and opens a block, behind which a regular expression follows.
    The visible text has one line end less, so that there it is taken to stand on the line of the
    return, and opens an object, which is divided. -/
theorem tokenize_visible_beyond_count :
    let source := "return".toList ++
      (List.replicate (UInt32.size - 1) '\n' ++ "\r\u200b\n".toList ++ "\x7b\x7d/a/g".toList)
    IsQuoteless source ∧
      ¬ SameTokens (fun value => String.ofList (visible value.toList)) (tokenize source .legacy)
        (tokenize (visible source) .legacy) := by
  intro source
  let newlines := List.replicate (UInt32.size - 1) '\n'
  let ret : Token := ⟨.keyword .return, "return", ⟨0, 6⟩⟩
  have hquote : IsQuoteless source := by
    have hreturn : IsQuoteless "return".toList := by decide
    have hnewlines : IsQuoteless newlines := fun c hc => List.eq_of_mem_replicate hc ▸ rfl
    have hsplit : IsQuoteless "\r\u200b\n".toList := by decide
    have hbrace : IsQuoteless "\x7b\x7d/a/g".toList := by decide
    exact hreturn.append ((hnewlines.append hsplit).append hbrace)
  have hvisible : visible source =
      "return".toList ++ (newlines ++ "\r\n".toList ++ "\x7b\x7d/a/g".toList) := by
    have hself : visible newlines = newlines :=
      visible_eq_self_iff.2 fun c hc => List.eq_of_mem_replicate hc ▸ rfl
    rw [visible_append, visible_append, visible_append, hself]
    rfl
  have hlayout {u : List Char} (hu : IsLayout u) : IsLayout (newlines ++ u) :=
    List.forall_mem_append.2 ⟨isLayout_newlines _, hu⟩
  have htokens : ∃ ts, tokenize source .legacy = .ok ts ∧ ts.length = 5 := by
    have hplace : ((Place.atOffset 6).through (newlines ++ "\r\u200b\n".toList)).look =
        ((Place.atOffset 6).through ['\n']).look.shift (UInt32.size + 3) := by
      rw [Place.look_through_newlines_append rfl]
      rfl
    have hsmall : tokenize "return\n\x7b\x7d/a/g".toList .legacy = .ok
        [ret, ⟨.symbol .openCurly, "\x7b", ⟨7, 8⟩⟩, ⟨.symbol .closeCurly, "\x7d", ⟨8, 9⟩⟩,
          ⟨.regExp, "a", ⟨9, 13⟩⟩, ⟨.endOfInput, "", ⟨13, 13⟩⟩] := by decide +kernel
    have hline : IsLayout ['\n'] := by decide
    exact ⟨_, tokenize_return_brace hline (hlayout (by decide)) (.inr ⟨_, _, rfl, .inr rfl⟩)
      (.inr ⟨_, _, rfl, .inr rfl⟩) hplace hsmall, rfl⟩
  have htokens' : ∃ ts, tokenize (visible source) .legacy = .ok ts ∧ ts.length = 8 := by
    have hplace : ((Place.atOffset 6).through (newlines ++ "\r\n".toList)).look =
        ((Place.atOffset 6).through [' ']).look.shift UInt32.size := by
      rw [Place.look_through_newlines_append rfl]
      rfl
    have hsmall : tokenize "return \x7b\x7d/a/g".toList .legacy = .ok
        [ret, ⟨.symbol .openCurly, "\x7b", ⟨7, 8⟩⟩, ⟨.symbol .closeCurly, "\x7d", ⟨8, 9⟩⟩,
          ⟨.symbol .slash, "/", ⟨9, 10⟩⟩, ⟨.identifier, "a", ⟨10, 11⟩⟩,
          ⟨.symbol .slash, "/", ⟨11, 12⟩⟩, ⟨.identifier, "g", ⟨12, 13⟩⟩,
          ⟨.endOfInput, "", ⟨13, 13⟩⟩] := by decide +kernel
    have hblank : IsLayout [' '] := by decide
    rw [hvisible]
    exact ⟨_, tokenize_return_brace hblank (hlayout (by decide)) (.inr ⟨_, _, rfl, .inl rfl⟩)
      (.inr ⟨_, _, rfl, .inr rfl⟩) hplace hsmall, rfl⟩
  refine ⟨hquote, fun hsame => ?_⟩
  obtain ⟨ts, hts, hlength⟩ := htokens
  obtain ⟨us, hus, hlength'⟩ := htokens'
  rw [hts, hus] at hsame
  cases hsame with
  | ok htells =>
    have hcount := congrArg List.length htells
    rw [List.length_map, List.length_map, hlength, hlength'] at hcount
    simp at hcount

end ScriptExcerpt
