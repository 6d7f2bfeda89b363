import ScriptExcerpt.Proofs.Lexeme.Again
import ScriptExcerpt.Proofs.Lexeme.Lossless
import ScriptExcerpt.Proofs.Token.Alike
import ScriptExcerpt.Proofs.Token.LineCount

/-!
# Layout does not count

A script may be laid out anew: its tokens one after the other, with a newline
between two of them where a line ended, and a space elsewhere
(`relaid`). Comments are left out, and so is all other space. The new script has
the same tokens.

* `LexemeReader.nextSignificant_behind`: a lexeme is read behind a separator;
* `TokenStream.read_again`: a token is read again from its text;
* `TokenStream.Relaid`: streams of a script and of its new layout go on together;
* `tokenize_relaid`: the tokens of the new layout, if the lines can be counted;
* `tokenize_relaid_beyond_count`: a script with too many of them.
-/

namespace ScriptExcerpt

open Text

/-! ## Layouts -/

/-- What is written before the token `u`, behind the token `prev?`, if there is one: a newline
    if a line ends between the two in the script, and a space otherwise. -/
def separator (source : List Char) (prev? : Option Token) (u : Token) : List Char :=
  match prev? with
  | none => []
  | some t => if t.lineEndsBetween source u then ['\n'] else [' ']

/-- The texts of tokens of the script, with separators between them, behind the token
    `prev?`. -/
def relaidBehind (source : List Char) (prev? : Option Token) : List Token → List Char
  | [] => []
  | u :: us => separator source prev? u ++ u.lexeme source ++ relaidBehind source (some u) us

/-- The script of the tokens in a new layout. -/
def relaid (source : List Char) (ts : List Token) : List Char :=
  relaidBehind source none (ts.filter fun t => t.kind ≠ .endOfInput)

theorem apart_relaidBehind (source : List Char) (t : Token) (us : List Token) :
    Apart (relaidBehind source (some t) us) := by
  cases us with
  | nil => exact .inl rfl
  | cons u us =>
    rw [relaidBehind, separator]
    split
    · exact .inr ⟨_, _, rfl, .inr rfl⟩
    · exact .inr ⟨_, _, rfl, .inl rfl⟩

theorem separator_eq (source : List Char) (prev? : Option Token) (u : Token) :
    separator source prev? u = ['\n'] ∨ IsGap (separator source prev? u) := by
  cases prev? with
  | none => exact .inr isGap_nil
  | some t =>
    rw [separator]
    split
    · exact .inl rfl
    · exact .inr (isGap_nil.cons rfl)

/-! ### Behind other text -/

theorem Token.lexeme_shift (a b : List Char) (t : Token) :
    (t.shift (byteLength a)).lexeme (a ++ b) = t.lexeme b :=
  slice_add a b t.span.start t.span.stop

theorem separator_shift (a b : List Char) (prev? : Option Token) (u : Token) :
    separator (a ++ b) (prev?.map (Token.shift (byteLength a))) (u.shift (byteLength a)) =
      separator b prev? u := by
  cases prev? with
  | none => rfl
  | some t =>
    have hbetween := slice_add a b t.span.stop u.span.start
    exact congrArg (fun cs : List Char => if cs.any isLineEnd then ['\n'] else [' ']) hbetween

/-- Tokens are laid out the same, whatever stands before them in the script. -/
theorem relaidBehind_shift (a b : List Char) (prev? : Option Token) (us : List Token) :
    relaidBehind (a ++ b) (prev?.map (Token.shift (byteLength a)))
      (us.map (Token.shift (byteLength a))) = relaidBehind b prev? us := by
  induction us generalizing prev? with
  | nil => rfl
  | cons u us ih =>
    rw [List.map_cons, relaidBehind, relaidBehind, separator_shift, Token.lexeme_shift,
      ← ih (some u)]
    rfl

/-- Tokens that stand in the text `cs` are laid out behind a token `t`, from which the text `gap`
    parts them: first comes a separator. -/
theorem relaidBehind_append {pre cs : List Char} {t u : Token} (ht : t.span.stop = byteLength pre)
    (hu : u.span.start = 0) (gap : List Char) (us : List Token) :
    relaidBehind (pre ++ (gap ++ cs)) (some t)
        ((u :: us).map (Token.shift (byteLength pre + byteLength gap))) =
      (if gap.any isLineEnd then ['\n'] else [' ']) ++ relaidBehind cs none (u :: us) := by
  have hbetween : slice t.span.stop (u.shift (byteLength pre + byteLength gap)).span.start
      (pre ++ (gap ++ cs)) = gap := by
    rw [ht, Token.shift, hu, Nat.zero_add, slice_append]
  have hlayout := relaidBehind_shift (pre ++ gap) cs none (u :: us)
  rw [byteLength_append, List.append_assoc] at hlayout
  rw [← hlayout, List.map_cons, relaidBehind, relaidBehind, separator, Token.lineEndsBetween,
    hbetween, List.append_assoc]
  rfl

/-! ## Readers -/

namespace LexemeReader

variable {r r' : LexemeReader} {k : Kind} {c : Char} {cs : List Char}

theorem hasRead_of_nextSignificant (h : r.nextSignificant = (.ok k, r'))
    (hend : k ≠ .endOfInput) : ∃ lineIsBlank c cs, r'.HasRead r.version lineIsBlank k c cs := by
  fun_induction nextSignificant r with
  | case1 => simp at h
  | case2 r k₁ r₁ h₁ ht ih =>
    have hversion : r₁.version = r.version := by rw [← r.version_next, h₁]
    rw [← hversion]
    exact ih h
  | case3 r k₁ r₁ h₁ ht =>
    obtain ⟨hk, rfl⟩ := Prod.mk.inj h
    obtain rfl := Except.ok.inj hk
    exact ⟨_, hasRead_of_next h₁ hend (by rintro rfl; exact ht rfl)⟩

/-- A lexeme is read behind a gap, if it is read wherever it stands. -/
theorem nextSignificant_of_gap {gap : List Char} (hgap : IsGap gap)
    (hrest : r.cursor.rest = gap ++ c :: cs) (hret : r.cursor.place.afterReturn = false)
    (hc : Inked c) (hk : k.isTrivia = false) (hend : k ≠ .endOfInput)
    (hl : ∀ lineIsBlank (p : Place), p.OnLine →
      (lexemeAt r.version lineIsBlank c ⟨p, cs⟩).verdict = .ok k) :
    ∃ r' lineIsBlank, r.nextSignificant = (.ok k, r') ∧ r'.HasRead r.version lineIsBlank k c cs ∧
      r.cursor.Passes gap r'.opening := by
  have hskip : r.cursor.skipGap = ⟨(r.cursor.place.through gap).look, c :: cs⟩ := by
    rw [Cursor.skipGap, hrest]
    exact Cursor.skipGapFrom_gap hgap hret hc cs
  have hnext := next_of_gap hskip
  rw [hc.not_lineEnd, if_neg Bool.false_ne_true, accept,
    hl _ _ (Place.onLine_past _ hc.not_lineEnd)] at hnext
  have hline : k ≠ .lineEnd := by
    rintro rfl
    simp [Kind.isTrivia] at hk
  obtain ⟨c', cs', hread⟩ := hasRead_of_next hnext hend hline
  obtain ⟨rfl, rfl⟩ : c = c' ∧ cs = cs' := List.cons.inj hread.opening
  have hsig := nextSignificant_of_next hnext
  rw [hk, if_neg Bool.false_ne_true] at hsig
  exact ⟨_, _, hsig, hread, hrest, rfl⟩

/-- A lexeme is read behind a separator, if it is read wherever it stands. -/
theorem nextSignificant_behind {lead : List Char} (hlead : lead = ['\n'] ∨ IsGap lead)
    (hrest : r.cursor.rest = lead ++ c :: cs) (hret : r.cursor.place.afterReturn = false)
    (hc : Inked c) (hk : k.isTrivia = false) (hend : k ≠ .endOfInput)
    (hl : ∀ lineIsBlank (p : Place), p.OnLine →
      (lexemeAt r.version lineIsBlank c ⟨p, cs⟩).verdict = .ok k) :
    ∃ r' lineIsBlank, r.nextSignificant = (.ok k, r') ∧ r'.HasRead r.version lineIsBlank k c cs ∧
      r.cursor.Passes lead r'.opening := by
  rcases hlead with rfl | hgap
  · -- The newline is a lexeme of its own, which the grammar does not see.
    have hnewline := Place.not_completes_of_afterReturn hret '\n'
    have hskip : r.cursor.skipGap = ⟨r.cursor.place.look, '\n' :: c :: cs⟩ := by
      rw [Cursor.skipGap, hrest]
      exact Cursor.skipGapFrom_of_not_gap hnewline rfl _
    have hnext := next_of_gap hskip
    rw [show isLineEnd '\n' = true from rfl, if_pos rfl] at hnext
    obtain ⟨r', lineIsBlank, hsig, hread, hpasses⟩ :=
      nextSignificant_of_gap (r := r.passLineEnd ⟨r.cursor.place.look, '\n' :: c :: cs⟩ '\n'
        (c :: cs)) isGap_nil rfl rfl hc hk hend hl
    rw [nextSignificant_of_next hnext]
    refine ⟨r', lineIsBlank, hsig, hread, ?_⟩
    have hline : r.cursor.Passes ['\n'] ⟨r.cursor.place.look.past '\n', c :: cs⟩ := by
      have hpast := Cursor.passes_past hnewline (c :: cs)
      rwa [← List.singleton_append, ← hrest] at hpast
    exact hline.trans hpasses
  · exact nextSignificant_of_gap hgap hrest hret hc hk hend hl

/-- The end of the script has no text. -/
theorem AtEnd.lexeme_eq (h : r.AtEnd) : r.lexeme = [] :=
  LexemeReader.lexeme_eq (.refl r.opening) (by rw [h.opening, h.stop])

end LexemeReader

/-! ## Streams -/

namespace TokenStream

variable {s s' : TokenStream} {r : LexemeReader} {k : Kind} {lead t : List Char}

/-- The reader `r'` has read, behind the text `lead`, a token of the kind `k` that has the text
    and the value of the one that `r` read last, and stands before the text `t`. -/
structure Rereads (s' : TokenStream) (lead : List Char) (k : Kind) (r : LexemeReader)
    (t : List Char) (r' : LexemeReader) : Prop where
  read : s'.read = (.ok k, r')
  version : r'.version = r.version
  lead : s'.reader.cursor.Passes lead r'.opening
  lexeme : r'.lexeme = r.lexeme
  rest : r'.cursor.rest = t
  value : hasValue k → r'.value = r.value

/-- A lexeme that is a token is read again from its text. -/
theorem read_again_of_lexeme (hversion : s'.reader.version = s.reader.version)
    (h : s.reader.nextSignificant = (.ok k, r)) (hk : s'.opensRegExp k = false)
    (hend : k ≠ .endOfInput) (hlead : lead = ['\n'] ∨ IsGap lead)
    (hrest : s'.reader.cursor.rest = lead ++ r.lexeme ++ t)
    (hret : s'.reader.cursor.place.afterReturn = false) (ht : Apart t)
    (hlast : r.cursor.rest = [] → t = []) : ∃ r', s'.Rereads lead k r t r' := by
  obtain ⟨lineIsBlank, c, cs, hread⟩ := LexemeReader.hasRead_of_nextSignificant h hend
  have htrivia := LexemeReader.isTrivia_nextSignificant h
  obtain ⟨hvalue, w, m, hw, hm, hagain⟩ :=
    lexemeAt_again (Place.onLine_past _ hread.inked.not_lineEnd) hread.verdict htrivia
  rw [← hread.stop] at hm
  have hlexeme : r.lexeme = c :: w := LexemeReader.lexeme_eq (hread.passes.trans hw) hm
  rw [hlexeme, List.append_assoc, List.cons_append] at hrest
  obtain ⟨r', lineIsBlank', hsig, hread', hpasses⟩ :=
    LexemeReader.nextSignificant_behind hlead hrest hret hread.inked htrivia hend
      fun lineIsBlank p hp => by
        rw [hversion]
        exact (hagain lineIsBlank p t hp ht (hread.cursor ▸ hlast)).verdict
  have htakes := hagain lineIsBlank' _ t (Place.onLine_past r'.opening.place
    hread.inked.not_lineEnd) ht (hread.cursor ▸ hlast)
  rw [hversion] at hread'
  have hpassed := htakes.cursor
  rw [← hread'.cursor] at hpassed
  have hstop : r'.cursor.offset = r'.stop := by
    rw [hread'.stop, hread'.cursor, htakes.stop]
  refine ⟨r', read_of_nextSignificant hsig hk, hread'.version.trans hread.version.symm, hpasses, ?_,
    (List.append_cancel_left hpassed.1).symm, fun hv => ?_⟩
  · rw [hlexeme, LexemeReader.lexeme_eq (hread'.passes.trans hpassed) hstop]
    rfl
  · obtain ⟨value, hsome⟩ := Option.isSome_iff_exists.1 (hvalue hv)
    rw [hread.value hsome, hread'.value (htakes.value.trans hsome)]

/-- A regular expression is read again from its text: first its slash, then the rest. -/
theorem read_again_of_regExp {r₁ : LexemeReader} (hversion : s'.reader.version = s.reader.version)
    (h : s.reader.nextSignificant = (.ok k, r₁)) (hk : s'.opensRegExp k = true)
    (hr : r₁.readRegExp (k = .symbol .slashEquals) = (.ok (), r))
    (hlead : lead = ['\n'] ∨ IsGap lead)
    (hrest : s'.reader.cursor.rest = lead ++ r.lexeme ++ t)
    (hret : s'.reader.cursor.place.afterReturn = false) (ht : Apart t)
    (hlast : r.cursor.rest = [] → t = []) : ∃ r', s'.Rereads lead .regExp r t r' := by
  have hslash := eq_slash_of_opensRegExp hk
  have hend : k ≠ .endOfInput := by rcases hslash with rfl | rfl <;> simp
  have htrivia := LexemeReader.isTrivia_nextSignificant h
  obtain ⟨lineIsBlank, c, cs, hread⟩ := LexemeReader.hasRead_of_nextSignificant h hend
  have hline := (LexemeReader.reaches_nextSignificant h hend).2.extent.onLine
  obtain ⟨u, hu, hmem, hagain⟩ := LexemeReader.readRegExp_again hline hr
  obtain ⟨w, hw, hslashAgain⟩ :=
    slash_again hslash (Place.onLine_past _ hread.inked.not_lineEnd) hread.verdict
      ⟨_, hmem, rfl⟩ (hread.cursor ▸ hu.cursor.1)
  rw [← hread.cursor] at hw
  have hopen : r.opening = r₁.opening := by
    rw [← r₁.opening_readRegExp (k = .symbol .slashEquals), hr]
  have hlexeme : r.lexeme = c :: w ++ u :=
    LexemeReader.lexeme_eq (hopen ▸ (hread.passes.trans hw).trans hu.cursor) hu.stop.symm
  rw [hlexeme, List.append_assoc, List.append_assoc, List.cons_append] at hrest
  obtain ⟨r₁', lineIsBlank', hsig, hread', hpasses⟩ :=
    LexemeReader.nextSignificant_behind hlead hrest hret hread.inked htrivia hend
      fun lineIsBlank p hp => by
        obtain ⟨value, htakes⟩ := hslashAgain lineIsBlank p t hp
        rw [hversion]
        exact htakes.verdict
  obtain ⟨value, htakes⟩ := hslashAgain lineIsBlank' _ t (Place.onLine_past r₁'.opening.place
    hread.inked.not_lineEnd)
  rw [hversion] at hread'
  have hpassed := htakes.cursor
  rw [← hread'.cursor] at hpassed
  have hcursor : r₁'.cursor = ⟨r₁'.cursor.place, u ++ t⟩ := by
    rw [List.append_cancel_left hpassed.1]
  have hline' := (LexemeReader.reaches_nextSignificant hsig hend).2.extent.onLine
  obtain ⟨r', hr', hvalue⟩ := hagain r₁' _ t hcursor hline' ht hlast
  have hopen' : r'.opening = r₁'.opening := by
    rw [← r₁'.opening_readRegExp (k = .symbol .slashEquals), hr'.read]
  have hversion' : r'.version = r₁'.version := by
    rw [← r₁'.version_readRegExp (k = .symbol .slashEquals), hr'.read]
  refine ⟨r', read_of_readRegExp hsig hk hr'.read, ?_, hopen' ▸ hpasses, ?_, ?_, fun _ => hvalue⟩
  · have hversion₁ : r.version = r₁.version := by
      rw [← r₁.version_readRegExp (k = .symbol .slashEquals), hr]
    rw [hversion', hread'.version, hversion₁, hread.version]
  · rw [hlexeme, LexemeReader.lexeme_eq (hopen' ▸ (hread'.passes.trans hpassed).trans hr'.cursor)
      hr'.stop.symm]
    rfl
  · have hpassed' := hr'.cursor.1
    rw [hcursor] at hpassed'
    exact (List.append_cancel_left hpassed').symm

/-- A token is read again from its text. -/
theorem read_again (hversion : s'.reader.version = s.reader.version)
    (hbooks : s.grouping.Alike s'.grouping) (h : s.read = (.ok k, r)) (hend : k ≠ .endOfInput)
    (hlead : lead = ['\n'] ∨ IsGap lead)
    (hrest : s'.reader.cursor.rest = lead ++ r.lexeme ++ t)
    (hret : s'.reader.cursor.place.afterReturn = false) (ht : Apart t)
    (hlast : r.cursor.rest = [] → t = []) : ∃ r', s'.Rereads lead k r t r' := by
  have hopens (k : Kind) : s'.opensRegExp k = s.opensRegExp k := by
    rw [opensRegExp, opensRegExp, hbooks.slashOpensRegExp]
  rcases read_ok h with ⟨hn, hk⟩ | ⟨rfl, k₁, r₁, hn, hk, hr⟩
  · exact read_again_of_lexeme hversion hn ((hopens k).trans hk) hend hlead hrest hret ht hlast
  · exact read_again_of_regExp hversion hn ((hopens k₁).trans hk) hr hlead hrest hret ht hlast

/-- The text of the token that was read last. -/
theorem lexeme_token {source : List Char} (h : r.opening.StandsIn source) (k : Kind) :
    (token r k).lexeme source = r.lexeme :=
  (h.textTo_eq r.stop).symm

/-- Tokens with the same text and the same value tell the same. -/
theorem tells_token {f : String → String} {r' : LexemeReader} (hlexeme : r'.lexeme = r.lexeme)
    (hvalue : hasValue k → r'.value = r.value) : (token r' k).tells f = (token r k).tells f := by
  rw [token, token, Token.tells, Token.tells, hlexeme]
  split
  · next hv => rw [hvalue hv]
  · rfl

/-- The stream stands behind the token, or before all tokens if there is none. -/
def StandsBehind (source : List Char) (prev? : Option Token) (s : TokenStream) : Prop :=
  match prev? with
  | none => s.grouping.last? = none
  | some t => t.Behind source s.reader.cursor

/-- The first stream stands in the script, and the second one in the new layout of the tokens
    that the first one is to tell. -/
structure Relaid (source : List Char) (s s' : TokenStream) : Prop where
  version : s'.reader.version = s.reader.version
  books : s.grouping.Alike s'.grouping
  stands : s.reader.cursor.StandsIn source
  onLine : s.OnLine
  onLine' : s'.OnLine
  afterReturn : s'.reader.cursor.place.afterReturn = false
  rest : ∃ prev? ts, StandsBehind source prev? s ∧ s.tokens = .ok ts ∧
    s'.reader.cursor.rest =
      relaidBehind source prev? (ts.filter fun t => t.kind ≠ .endOfInput)

namespace Relaid

variable {source : List Char} {t : Token} {ts : List Token}

/-- At the end of the script no token is left but the end. -/
theorem filter_of_rest_nil (h : s.tokens = .ok ts) (hrest : s.reader.cursor.rest = []) :
    (ts.filter fun t => t.kind ≠ .endOfInput) = [] := by
  obtain ⟨t, s₁, hn, ht, -⟩ := next_of_rest_nil hrest
  rw [tokens_of_token hn, if_pos ht] at h
  split at h
  · obtain rfl := Except.ok.inj h
    simp [ht]
  · simp at h

/-- A line ends before a token in the new layout if one does in the script. -/
theorem lineEnds_separator {t u : Token} :
    (∃ c ∈ separator source (some t) u, isLineEnd c) ↔ t.lineEndsBetween source u := by
  rw [separator]
  cases t.lineEndsBetween source u <;> simp <;> decide

/-- The line of a brace tells the same of what stands before it in both scripts. -/
theorem agree {r r' : LexemeReader} {prev? : Option Token} {u : List Char}
    (h : Relaid source s s') (hprev : StandsBehind source prev? s)
    (hlines : lineCount source < UInt32.size) (hread : s.read = (.ok (.symbol .openCurly), r))
    (hr' : s'.Rereads (separator source prev? (token r (.symbol .openCurly)))
      (.symbol .openCurly) r u r') :
    Grouping.Alike.Agree s.grouping s'.grouping r.line r'.line := by
  intro trace trace' htrace htrace'
  cases prev? with
  | none => exact absurd (htrace.symm.trans hprev) (Option.some_ne_none trace)
  | some t =>
    -- A brace ends on the line on which it starts.
    obtain ⟨hlook, hreach⟩ := reaches_read hread (by simp)
    obtain ⟨hlook', hreach'⟩ := reaches_read hr'.read (by simp)
    have hlead := s.leads_read.1
    rw [hread] at hlead
    have hscript : s.reader.cursor.place.line ≠ r.opening.place.line ↔
        t.lineEndsBetween source (token r (.symbol .openCurly)) :=
      hprev.line_ne_iff hlead hlook rfl hlines
    have hcount : lineEnds (separator source (some t) (token r (.symbol .openCurly))) <
        UInt32.size := by
      rw [separator]
      split <;> decide
    have hlayout := hr'.lead.line_ne_iff (h.onLine'.onLine htrace')
      (congrArg Cursor.place hlook') hcount
    rw [lineEnds_separator, ← hscript] at hlayout
    rw [h.onLine.line htrace, h.onLine'.line htrace', LexemeReader.line, LexemeReader.line,
      LexemeReader.line, LexemeReader.line, hreach.line rfl, hreach'.line rfl]
    exact Decidable.not_iff_not.1 hlayout

/-- At the end of the script nothing is left of the new layout, and the two ends are told
    alike. -/
theorem next_at_end {s₁ : TokenStream} (h : Relaid source s s')
    (hread : s.read = (.ok .endOfInput, s₁.reader))
    (hn : s.next = (.ok (token s₁.reader .endOfInput), s₁))
    (hrest : s'.reader.cursor.rest = []) : StepsAlike id (Relaid source) s.next s'.next := by
  obtain ⟨hatEnd, -⟩ := atEnd_of_next hn rfl
  have hsig := LexemeReader.nextSignificant_of_rest_nil hrest
  have hatEnd' := LexemeReader.atEnd_of_nextSignificant hsig
  have htells := tells_token (f := id) (hatEnd'.lexeme_eq.trans hatEnd.lexeme_eq.symm)
    fun hv => nomatch (hv : hasValue .endOfInput)
  exact next_alike hread (read_of_nextSignificant hsig rfl) htells h.books
    (fun hk => by simp at hk) fun _ _ _ _ _ hk => absurd rfl hk

/-- The next token is told alike. -/
theorem next (h : Relaid source s s') (hlines : lineCount source < UInt32.size) :
    StepsAlike id (Relaid source) s.next s'.next := by
  obtain ⟨prev?, ts, hprev, hts, hrest⟩ := h.rest
  rcases hn : s.next with ⟨p | t, s₁⟩
  · rw [tokens_of_problem hn] at hts
    simp at hts
  · rw [tokens_of_token hn] at hts
    have hbehind := behind_token h.stands hn
    have hstands := h.stands.leads (leads_reader_next hn)
    have hopening := h.stands.leads (leads_next hn).1
    obtain ⟨k, hread, rfl, hg⟩ := next_ok hn
    rw [← hn]
    by_cases hk : k = .endOfInput
    · subst hk
      rw [if_pos (show (token s₁.reader .endOfInput).kind = .endOfInput from rfl)] at hts
      split at hts
      · obtain rfl := Except.ok.inj hts
        exact h.next_at_end hread hn hrest
      · simp at hts
    · have hkind : (token s₁.reader k).kind ≠ .endOfInput := hk
      rw [if_neg hkind] at hts
      cases hts₁ : s₁.tokens with
      | error p => simp [hts₁, Except.map] at hts
      | ok ts₁ =>
        obtain rfl : token s₁.reader k :: ts₁ = ts := by
          simpa [hts₁, Except.map] using hts
        rw [List.filter_cons_of_pos (by simpa using hkind), relaidBehind,
          lexeme_token hopening] at hrest
        obtain ⟨r', hr'⟩ := read_again h.version h.books hread hk (separator_eq _ _ _) hrest
          h.afterReturn (apart_relaidBehind _ _ _) fun hnil => by
            rw [filter_of_rest_nil hts₁ hnil, relaidBehind]
        have hline := (reaches_read hread hk).2.extent.onLine
        have hline' := (reaches_read hr'.read hk).2.extent.onLine
        refine next_alike hread hr'.read ?_ h.books ?_ fun g g' hg₁ hg₁' hbooks _ => ?_
        · exact tells_token hr'.lexeme hr'.value
        · rintro rfl
          exact h.agree hprev hlines hread hr'
        · obtain rfl := Except.ok.inj (hg.symm.trans hg₁)
          exact
            { version := hr'.version
              books := hbooks
              stands := hstands
              onLine := .of_enter hg hline
              onLine' := .of_enter hg₁' hline'
              afterReturn := hline'.afterReturn
              rest := ⟨some (token s₁.reader k), ts₁, hbehind hkind, hts₁, hr'.rest⟩ }

theorem ofSource {v : Version} (h : tokenize source v = .ok ts) :
    Relaid source (.ofSource source v) (.ofSource (relaid source ts) v) where
  version := rfl
  books := .refl _
  stands := Cursor.standsIn_startingAt source 0
  onLine := .ofSource source v
  onLine' := .ofSource _ v
  afterReturn := rfl
  rest := ⟨none, ts, rfl, h, congrArg Cursor.rest (Cursor.startingAt_append [] (relaid source ts))⟩

end Relaid

end TokenStream

/-- A script whose lines can be counted has the same tokens in its new layout. From 2 ^ 32
    lines on the count starts again at zero, and a brace may be taken to stand on the line of
    a return that is that far above it, while in the new layout it stands on the next one. -/
theorem tokenize_relaid (source : List Char) (v : Version) (ts : List Token)
    (h : tokenize source v = .ok ts) (hlines : lineCount source < UInt32.size) :
    ∃ us, tokenize (relaid source ts) v = .ok us ∧
      us.map (Token.tells id) = ts.map (Token.tells id) := by
  have hsame := TokenStream.tokens_alike (fun hs => hs.next hlines)
    (TokenStream.Relaid.ofSource h)
  rw [tokenize] at h
  rw [h] at hsame
  rw [tokenize]
  generalize (TokenStream.ofSource (relaid source ts) v).tokens = x at hsame ⊢
  cases hsame with
  | ok htells => exact ⟨_, rfl, htells⟩

/-- Comments go, a line end stays one, and what stood together is kept apart: there is no `-->`
    in the new layout either. -/
theorem tokenize_relaid_comments :
    let source := "a/* / */=/=b/g//c\n+\u200b+-->d".toList
    let ts : List Token :=
      [⟨.identifier, "a", ⟨0, 1⟩⟩, ⟨.symbol .assignment, "=", ⟨8, 9⟩⟩, ⟨.regExp, "=b", ⟨9, 14⟩⟩,
        ⟨.symbol .plusPlus, "+\u200b+", ⟨18, 23⟩⟩, ⟨.symbol .minusMinus, "--", ⟨23, 25⟩⟩,
        ⟨.symbol .greater, ">", ⟨25, 26⟩⟩, ⟨.identifier, "d", ⟨26, 27⟩⟩,
        ⟨.endOfInput, "", ⟨27, 27⟩⟩]
    tokenize source .legacy = .ok ts ∧ lineCount source < UInt32.size ∧
      relaid source ts = "a = /=b/g\n+\u200b+ -- > d".toList ∧
      ∃ us, tokenize (relaid source ts) .legacy = .ok us ∧
        us.map (Token.tells id) = ts.map (Token.tells id) := by
  intro source ts
  have htokens : tokenize source .legacy = .ok ts := by decide +kernel
  have hlines : lineCount source < UInt32.size := by decide
  exact ⟨htokens, hlines, by decide +kernel, tokenize_relaid source .legacy ts htokens hlines⟩

/-- Behind 2 ^ 32 line ends a brace is taken to stand on the line of the return before them: it
    opens an object, which is divided. In the new layout it stands on the next line, and opens a
    block, behind which a regular expression follows. -/
theorem tokenize_relaid_beyond_count :
    let source := "return".toList ++ (List.replicate UInt32.size '\n' ++ "\x7b\x7d/a/g".toList)
    let behind : List Token :=
      [⟨.symbol .openCurly, "\x7b", ⟨0, 1⟩⟩, ⟨.symbol .closeCurly, "\x7d", ⟨1, 2⟩⟩,
        ⟨.symbol .slash, "/", ⟨2, 3⟩⟩, ⟨.identifier, "a", ⟨3, 4⟩⟩, ⟨.symbol .slash, "/", ⟨4, 5⟩⟩,
        ⟨.identifier, "g", ⟨5, 6⟩⟩, ⟨.endOfInput, "", ⟨6, 6⟩⟩]
    let ts := ⟨.keyword .return, "return", ⟨0, 6⟩⟩ :: behind.map (Token.shift (6 + UInt32.size))
    tokenize source .legacy = .ok ts ∧ relaid source ts = "return\n\x7b \x7d / a / g".toList ∧
      ¬ ∃ us, tokenize (relaid source ts) .legacy = .ok us ∧
        us.map (Token.tells id) = ts.map (Token.tells id) := by
  intro source behind ts
  let ret : Token := ⟨.keyword .return, "return", ⟨0, 6⟩⟩
  have hsmall : tokenize "return \x7b\x7d/a/g".toList .legacy =
      .ok (ret :: behind.map (Token.shift 7)) := by decide +kernel
  have hplace : ((Place.atOffset 6).through (List.replicate UInt32.size '\n')).look =
      ((Place.atOffset 6).through [' ']).look.shift (UInt32.size - 1) := by
    rw [Place.look_through_newlines rfl]
    rfl
  have htokens : tokenize source .legacy = .ok ts := by
    have hblank : IsLayout [' '] := by decide
    have hlong := tokenize_return_brace hblank (isLayout_newlines _) (.inr ⟨_, _, rfl, .inl rfl⟩)
      (.inr ⟨_, _, rfl, .inr rfl⟩) hplace hsmall
    exact hlong
  have hrelaid : relaid source ts = "return\n\x7b \x7d / a / g".toList := by
    let brace : Token := ⟨.symbol .openCurly, "\x7b", ⟨0, 1⟩⟩
    let rest := (behind.drop 1).dropLast
    have hlayout : relaidBehind source (some ret) _ = _ :=
      relaidBehind_append rfl (rfl : brace.span.start = 0) (List.replicate UInt32.size '\n') rest
    rw [byteLength_newlines, List.any_replicate] at hlayout
    calc relaid source ts
      _ = "return".toList ++ relaidBehind source (some ret)
          ((brace :: rest).map (Token.shift (6 + UInt32.size))) := rfl
      _ = "return".toList ++ (['\n'] ++
          relaidBehind "\x7b\x7d/a/g".toList none (brace :: rest)) := congrArg _ hlayout
      _ = "return\n\x7b \x7d / a / g".toList := by decide
  refine ⟨htokens, hrelaid, ?_⟩
  rw [hrelaid]
  rintro ⟨us, hus, htells⟩
  have hnew : tokenize "return\n\x7b \x7d / a / g".toList .legacy = .ok
      [ret, ⟨.symbol .openCurly, "\x7b", ⟨7, 8⟩⟩, ⟨.symbol .closeCurly, "\x7d", ⟨9, 10⟩⟩,
        ⟨.regExp, " a ", ⟨11, 16⟩⟩, ⟨.identifier, "g", ⟨17, 18⟩⟩,
        ⟨.endOfInput, "", ⟨18, 18⟩⟩] := by decide +kernel
  obtain rfl := Except.ok.inj (hnew.symm.trans hus)
  exact absurd (congrArg List.length htells) (by decide)

end ScriptExcerpt
