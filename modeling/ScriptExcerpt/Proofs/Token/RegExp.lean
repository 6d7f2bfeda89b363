import ScriptExcerpt.Proofs.Lexeme.RegExp
import ScriptExcerpt.Proofs.Token.Calls
import ScriptExcerpt.Proofs.Token.Layout

/-!
# Regular expressions among the tokens

A regular expression token is read in two steps: the symbol `/` or `/=`, and the rest of
the literal. What is visible of its text is a slash, its value, a slash and its flags; so
the text is these exactly if no character in it is invisible.

* `LexemeReader.passes_slash`: the text of the symbol;
* `LexemeReader.visible_regExp`: the text of the whole literal;
* `TokenStream.regExp_verbatim_iff`: when a token keeps its body as it is;
* `TokenStream.regExp_iff`: which texts are read as regular expressions.
-/

namespace ScriptExcerpt

open Text

/-! ## Readers -/

namespace LexemeReader

variable {r₀ r r' : LexemeReader} {k : Kind}

/-- A regular expression is no single lexeme. -/
theorem nextSignificant_ne_regExp : r₀.nextSignificant ≠ (.ok .regExp, r) := by
  intro h
  obtain ⟨lineIsBlank, c, cs, hread⟩ := hasRead_of_nextSignificant h (by simp)
  rcases kind_lexemeAt hread.verdict with hk | hk | hk | hk | hk | ⟨rest, hmem⟩
  · simp [Kind.isWord] at hk
  · simp at hk
  · simp at hk
  · simp at hk
  · simp at hk
  · have hall : ∀ p ∈ Operator.spellings r₀.version lineIsBlank, p.2 ≠ .regExp := by
      cases r₀.version <;> cases lineIsBlank <;> decide
    exact hall _ hmem rfl

/-- What stands behind the slash of the symbol. -/
def behindSlash (k : Kind) : List Char :=
  if k = .symbol .slashEquals then ['='] else []

/-- The symbol starts with a slash, and behind it, as far as it is visible, stands its rest. -/
theorem passes_slash (h : r₀.nextSignificant = (.ok k, r))
    (hk : k = .symbol .slash ∨ k = .symbol .slashEquals) :
    ∃ w, r.opening.Passes ('/' :: w) r.cursor ∧ visible w = behindSlash k := by
  have hend : k ≠ .endOfInput := by rcases hk with rfl | rfl <;> simp
  have htrivia : k.isTrivia = false := by rcases hk with rfl | rfl <;> rfl
  obtain ⟨lineIsBlank, c, cs, hread⟩ := hasRead_of_nextSignificant h hend
  obtain rfl := eq_slash_of_lexemeAt hk hread.verdict
  have hverdict := hread.verdict
  have hstop := hread.stop
  rw [lexemeAt_slash] at hverdict hstop
  obtain ⟨-, -, w, m, hw, hm, hmstop, -⟩ :=
    Operator.spells_of_symbol Operator.inked_spellings
      (Place.onLine_past _ rfl) hverdict htrivia
  obtain ⟨m', gap, ⟨u, hu⟩, hm'stop, hgap, hinv⟩ :=
    (reaches_nextSignificant h hend).2.extent.ends
  -- The symbol ends in one place only.
  have hsame : u = '/' :: w := by
    rw [← lexeme_eq hu hm'stop, lexeme_eq (hread.passes.trans hm) (hmstop.trans hstop.symm)]
    rfl
  refine ⟨w ++ gap, ?_, ?_⟩
  · have hall := hu.trans hgap
    rwa [hsame] at hall
  · rw [visible_append, visible_eq_nil_iff.2 hinv, List.append_nil, behindSlash]
    rcases hk with rfl | rfl
    · exact (List.cons.inj (Operator.eq_spelling_of_kindOf? hw.kind)).2
    · exact (List.cons.inj (Operator.eq_spelling_of_kindOf? hw.kind)).2

/-- The visible text of a regular expression is its value and its flags, each behind a slash. -/
theorem visible_regExp (h : r₀.nextSignificant = (.ok k, r))
    (hk : k = .symbol .slash ∨ k = .symbol .slashEquals)
    (hr : r.readRegExp (k = .symbol .slashEquals) = (.ok (), r')) :
    visible r'.lexeme = '/' :: (r'.value ++ '/' :: r'.flags) := by
  have hend : k ≠ .endOfInput := by rcases hk with rfl | rfl <;> simp
  have hline := (reaches_nextSignificant h hend).2.extent.onLine
  obtain ⟨w, hw, hvisible⟩ := passes_slash h hk
  obtain ⟨ho, hopen, hstop, hcursor⟩ := readRegExp_ok hr
  obtain ⟨w', hw', hwritten⟩ := RegExp.exists_written hline (.refl _) rfl ho
  rw [← Recognizer.runFrom, ← hcursor] at hw'
  rw [lexeme_eq (hopen ▸ hw.trans hw') hstop.symm, List.cons_append, visible_cons rfl,
    visible_append, hvisible, behindSlash]
  refine congrArg ('/' :: ·) (Eq.trans ?_ hwritten)
  rcases hk with rfl | rfl <;> rfl

/-- Behind a slash that is read as one, no star stands: together they open a comment. -/
theorem ne_star_of_nextSignificant {x : Char} {cs : List Char}
    (h : r₀.nextSignificant = (.ok (.symbol .slash), r))
    (hrest : r.opening.rest = '/' :: x :: cs) : x ≠ '*' := by
  rintro rfl
  obtain ⟨lineIsBlank, c, cs', hread⟩ := hasRead_of_nextSignificant h (by simp)
  obtain ⟨rfl, rfl⟩ := List.cons.inj (hread.opening.symm.trans hrest)
  have hopening : Operator.kindOf? (Operator.spellings r₀.version lineIsBlank) ['/', '*'] =
      some .blockComment := by
    cases r₀.version <;> cases lineIsBlank <;> decide
  have hverdict := hread.verdict
  rw [lexemeAt_of_commentOpening rfl hopening (Place.onLine_past _ rfl)] at hverdict
  have htrivia := Lexeme.ensures_blockComment (P := (·.isTrivia = true)) rfl
    ⟨(r.opening.place.past '/').past '*', cs⟩
  rw [show (Lexeme.blockComment _).verdict = _ from hverdict] at htrivia
  exact absurd htrivia Bool.false_ne_true

/-- Where nothing is invisible, the text of the symbol is a slash and its rest. -/
theorem passes_visible_slash (h : r₀.nextSignificant = (.ok k, r))
    (hk : k = .symbol .slash ∨ k = .symbol .slashEquals)
    (hv : ∀ c ∈ r.opening.rest, isInvisible c = false) :
    r.opening.Passes ('/' :: behindSlash k) r.cursor := by
  obtain ⟨w, hw, hvisible⟩ := passes_slash h hk
  have hself : visible w = w := visible_eq_self_iff.2 fun c hc => hv c (by simp [hw.1, hc])
  rwa [← hvisible, hself]

/-- Where nothing is invisible, the rest of a regular expression is read as if all of the text
    behind its first slash were still to be read. -/
theorem runFrom_slash (hv : ∀ c ∈ r₀.cursor.rest, isInvisible c = false)
    (h : r₀.nextSignificant = (.ok k, r)) (hk : k = .symbol .slash ∨ k = .symbol .slashEquals) :
    ∃ p u, r.opening.rest = '/' :: u ∧ (∀ c ∈ u, isInvisible c = false) ∧
      p.afterReturn = false ∧
      RegExp.recognizer.runFrom
          (if decide (k = .symbol .slashEquals) then .body ['='] false else .opening) r.cursor =
        RegExp.recognizer.runFrom (.body [] false) ⟨p, u⟩ := by
  have hend : k ≠ .endOfInput := by rcases hk with rfl | rfl <;> simp
  have hline := (reaches_nextSignificant h hend).2.extent.onLine
  obtain ⟨before, hbefore, -⟩ := (leads_nextSignificant h).1
  have hvopening : ∀ c ∈ r.opening.rest, isInvisible c = false := fun c hc =>
    hv c (hbefore ▸ List.mem_append_right before hc)
  have hslash := passes_visible_slash h hk hvopening
  have hrest : r.opening.rest = '/' :: (behindSlash k ++ r.cursor.rest) := hslash.1
  have hvrest : ∀ c ∈ behindSlash k ++ r.cursor.rest, isInvisible c = false := fun c hc =>
    hvopening c (hrest ▸ List.mem_cons_of_mem '/' hc)
  -- The symbol ends no line, so that the reader stands at the place behind its text.
  have hpast : (r.opening.place.past '/').OnLine := Place.onLine_past _ rfl
  have hthrough : ((r.opening.place.past '/').through (behindSlash k)).OnLine :=
    Place.onLine_through hpast (by rcases hk with rfl | rfl <;> simp [behindSlash, isLineEnd])
  have hcompletes : ¬ r.opening.place.completes '/' := fun hc =>
    absurd (Place.eq_newline_of_completes hc).2 (by decide)
  have hcursor : r.cursor =
      ⟨(r.opening.place.past '/').through (behindSlash k), r.cursor.rest⟩ := by
    have hplace := hslash.2
    rw [hline.look_eq, Place.through, if_neg hcompletes, hthrough.look_eq] at hplace
    rw [← hplace]
  refine ⟨r.opening.place.past '/', _, hrest, hvrest, hpast.afterReturn, ?_⟩
  rw [hcursor]
  rcases hk with rfl | rfl
  · refine RegExp.runFrom_start hpast.afterReturn false fun _ c hc => ?_
    obtain ⟨t, ht⟩ : ∃ t, r.cursor.rest = c :: t := List.head?_eq_some_iff.1 hc
    exact ⟨ne_star_of_nextSignificant h (ht ▸ hrest), hvrest c (List.mem_of_mem_head? hc)⟩
  · exact RegExp.runFrom_start hpast.afterReturn true fun he => absurd he (by decide)

end LexemeReader

/-! ## Streams -/

namespace TokenStream

variable {source b f : List Char} {offset n : Nat} {v : Version} {t : Token}
  {s s' : TokenStream} {k : Kind} {r : LexemeReader}

/-- What a step does that tells a regular expression. -/
theorem readRegExp_of_next (h : s.next = (.ok t, s')) (hk : t.kind = .regExp) :
    ∃ k r, s.reader.nextSignificant = (.ok k, r) ∧ s.opensRegExp k = true ∧
      r.readRegExp (k = .symbol .slashEquals) = (.ok (), s'.reader) ∧
        t = token s'.reader .regExp := by
  obtain ⟨_, hread, rfl, -⟩ := next_ok h
  obtain rfl := hk
  rcases read_ok hread with ⟨hsig, -⟩ | ⟨-, k, r, hsig, hopens, hr⟩
  · exact absurd hsig LexemeReader.nextSignificant_ne_regExp
  · exact ⟨k, r, hsig, hopens, hr, rfl⟩

/-- The visible text of a regular expression token. -/
theorem visible_lexeme_regExp (hs : s.reader.cursor.StandsIn source) (h : s.next = (.ok t, s'))
    (hk : t.kind = .regExp) :
    visible (t.lexeme source) = '/' :: (t.value.toList ++ '/' :: s'.flags.toList) := by
  have hlead := hs.leads (leads_next h).1
  obtain ⟨k, r, hsig, hopens, hr, rfl⟩ := readRegExp_of_next h hk
  rw [lexeme_token hlead, LexemeReader.visible_regExp hsig (eq_slash_of_opensRegExp hopens) hr,
    token, flags, String.toList_ofList, String.toList_ofList]
  rfl

/-- A token keeps its body as it is, and its flags behind it, exactly if no character of its
    text is invisible; what is visible of the text is kept in any case. -/
theorem regExp_verbatim_iff (h : ((startingAt source offset v).after n).next.1 = .ok t)
    (hk : t.kind = .regExp) :
    let literal := '/' :: (t.value.toList ++
      '/' :: ((startingAt source offset v).after (n + 1)).flags.toList)
    visible (t.lexeme source) = literal ∧
      (t.lexeme source = literal ↔ ∀ c ∈ t.lexeme source, isInvisible c = false) := by
  intro literal
  have hliteral : visible (t.lexeme source) = literal :=
    visible_lexeme_regExp (standsIn_after source offset v n) (Prod.ext h rfl) hk
  refine ⟨hliteral, ?_⟩
  rw [← hliteral, eq_comm, visible_eq_self_iff]

/-- A class with a slash in it is kept, and so is the flag. -/
theorem regExp_verbatim_class :
    let source := "a=/[/]b/g".toList
    let t : Token := ⟨.regExp, "[/]b", ⟨2, 9⟩⟩
    ((startingAt source 0 .legacy).after 2).next.1 = .ok t ∧
      t.lexeme source = '/' :: (t.value.toList ++
        '/' :: ((startingAt source 0 .legacy).after 3).flags.toList) := by
  intro source t
  have hnext : ((startingAt source 0 .legacy).after 2).next.1 = .ok t := by decide +kernel
  exact ⟨hnext, (regExp_verbatim_iff hnext rfl).2.2 (visible_eq_self_iff.1 (by decide +kernel))⟩

/-- An invisible character between two letters of a body is lost. -/
theorem regExp_loses_invisible :
    let source := "/a\u00adb/".toList
    let t : Token := ⟨.regExp, "ab", ⟨0, 6⟩⟩
    (startingAt source 0 .legacy).next.1 = .ok t ∧
      t.lexeme source ≠ '/' :: (t.value.toList ++
        '/' :: ((startingAt source 0 .legacy).after 1).flags.toList) := by
  decide +kernel

/-! ## The grammar -/

/-- Where the text `u` stands behind a slash at the offset `start` of the script, the next call
    tells what the grammar of regular expressions makes of it. -/
structure ReadsByGrammar (source : List Char) (start : Nat) (u : List Char) (s : TokenStream) :
    Prop where
  literal_iff (b f : List Char) :
    (∃ t, s.next.1 = .ok t ∧ t.kind = .regExp ∧ t.value.toList = b ∧
      s.next.2.flags.toList = f ∧ t.span.start = start ∧
        t.lexeme source = '/' :: (b ++ '/' :: f)) ↔ RegExp.Accepts u b f
  flag_iff (c : Char) :
    (∃ p, s.next.1 = .error p ∧ p.cause = .invalidRegExpFlag c) ↔ RegExp.Rejects u c
  unterminated_iff :
    (∃ p, s.next.1 = .error p ∧
      p.cause = .unterminatedLiteral "regular expression literal") ↔
      (¬ ∃ b f, RegExp.Accepts u b f) ∧ ¬ ∃ c, RegExp.Rejects u c

section Opened

variable (h : s.reader.nextSignificant = (.ok k, r)) (hk : s.opensRegExp k = true)

include h hk

/-- A slash that opens a regular expression is told as one exactly if the rest of the literal is
    read. -/
theorem regExp_told_iff :
    (∃ t, s.next.1 = .ok t ∧ t.kind = .regExp ∧ t.value.toList = b ∧
      s.next.2.flags.toList = f ∧ t.span.start = r.opening.offset) ↔
      (RegExp.recognizer.runFrom
        (if decide (k = .symbol .slashEquals) then .body ['='] false else .opening)
          r.cursor).verdict = .ok ⟨b, f⟩ := by
  constructor
  · rintro ⟨t, hnext, htk, rfl, rfl, -⟩
    obtain ⟨k', r', hsig, -, hr, rfl⟩ := readRegExp_of_next (Prod.ext hnext rfl) htk
    obtain ⟨hk', rfl⟩ := Prod.mk.inj (h.symm.trans hsig)
    obtain rfl := Except.ok.inj hk'
    rw [(LexemeReader.readRegExp_ok hr).1, token, flags, String.toList_ofList,
      String.toList_ofList]
    rfl
  · intro hverdict
    obtain ⟨r', hr, -⟩ := LexemeReader.readRegExp_of_verdict hverdict
    obtain ⟨hverdict', hopen, -⟩ := LexemeReader.readRegExp_ok hr
    obtain ⟨rfl, rfl⟩ := RegExp.Literal.mk.inj (Except.ok.inj (hverdict'.symm.trans hverdict))
    rw [next_of_read (read_of_readRegExp h hk hr) rfl]
    exact ⟨_, rfl, rfl, String.toList_ofList, String.toList_ofList, congrArg Cursor.offset hopen⟩

/-- It makes a problem exactly if the rest of the literal does. -/
theorem regExp_problem_iff (cause : Cause) :
    (∃ p, s.next.1 = .error p ∧ p.cause = cause) ↔
      ∃ e, (RegExp.recognizer.runFrom
        (if decide (k = .symbol .slashEquals) then .body ['='] false else .opening)
          r.cursor).verdict = .error e ∧ e.1.cause = cause := by
  have hslash := eq_slash_of_opensRegExp hk
  have hopens : s.grouping.slashOpensRegExp = true := (Bool.and_eq_true_iff.1 hk).2
  rw [next_of_slash h hslash, if_pos hopens, LexemeReader.readRegExp]
  split
  · next ho =>
    rw [ho]
    simp [Except.map]
  · next ho =>
    rw [ho]
    simp [Except.map, LexemeReader.problem, Problem.lexical]

end Opened

/-- In a script without invisible characters, a slash that may open a regular expression does so
    exactly if a body and flags stand behind it, and no further letter. A letter that is no flag
    is told, and otherwise the literal has no end. -/
theorem regExp_iff (hv : ∀ c ∈ source, isInvisible c = false)
    (h : ((startingAt source offset v).after n).reader.nextSignificant = (.ok k, r))
    (hk : ((startingAt source offset v).after n).opensRegExp k = true) :
    ∃ u, dropBytes r.opening.offset source = '/' :: u ∧
      ReadsByGrammar source r.opening.offset u ((startingAt source offset v).after n) := by
  have hs := standsIn_after source offset v n
  obtain ⟨passed, hpassed, -⟩ := id hs
  obtain ⟨p, u, hu, hvu, hp, hrun⟩ := LexemeReader.runFrom_slash
    (fun c hc => hv c (hpassed ▸ List.mem_append_right passed hc)) h (eq_slash_of_opensRegExp hk)
  obtain ⟨before, hsource, hoffset⟩ := hs.leads (LexemeReader.leads_nextSignificant h).1
  have hdrop : dropBytes r.opening.offset source = '/' :: u := by
    rw [hoffset, hsource, dropBytes_append, hu]
  refine ⟨u, hdrop, fun b f => ?_, fun c => ?_, ?_⟩
  · have htold := regExp_told_iff (b := b) (f := f) h hk
    rw [hrun, RegExp.verdict_eq_ok_iff hvu hp] at htold
    rw [← htold]
    refine exists_congr fun t => and_congr_right fun hnext => and_congr_right fun htk => ?_
    -- No character of the text is invisible, so that it is its visible part.
    have hlexeme := visible_lexeme_regExp hs (Prod.ext hnext rfl) htk
    have hall : visible (t.lexeme source) = t.lexeme source :=
      visible_eq_self_iff.2 fun c hc => hv c (mem_of_mem_slice hc)
    rw [hall] at hlexeme
    constructor
    · rintro ⟨hb, hf, hstart, -⟩
      exact ⟨hb, hf, hstart⟩
    · rintro ⟨rfl, rfl, hstart⟩
      exact ⟨rfl, rfl, hstart, hlexeme⟩
  · rw [regExp_problem_iff h hk, hrun]
    exact RegExp.verdict_eq_flag_iff hvu hp
  · rw [regExp_problem_iff h hk, hrun]
    exact RegExp.verdict_eq_unterminated_iff hvu hp

/-- A slash in a class does not end the body. -/
theorem regExp_of_class :
    let source := "/[/]/g;".toList
    let s := startingAt source 0 .legacy
    (∀ c ∈ source, isInvisible c = false) ∧
      s.reader.nextSignificant.1 = .ok (.symbol .slash) ∧
        s.opensRegExp (.symbol .slash) = true ∧
          ReadsByGrammar source 0 "[/]/g;".toList s ∧
            RegExp.Accepts "[/]/g;".toList "[/]".toList ['g'] := by
  intro source s
  have hv : ∀ c ∈ source, isInvisible c = false := visible_eq_self_iff.1 (by decide +kernel)
  have hslash : s.reader.nextSignificant.1 = .ok (.symbol .slash) := by decide +kernel
  have hopens : s.opensRegExp (.symbol .slash) = true := by decide
  have hstart : s.reader.nextSignificant.2.opening.offset = 0 := by decide +kernel
  obtain ⟨u, hu, hreads⟩ := regExp_iff (n := 0) hv (Prod.ext hslash rfl) hopens
  rw [show ((startingAt source 0 .legacy).after 0).reader.nextSignificant.2.opening.offset = 0
    from hstart] at hu hreads
  obtain rfl : "[/]/g;".toList = u := (List.cons.inj hu).2
  refine ⟨hv, hslash, hopens, hreads, (hreads.literal_iff _ _).1 ?_⟩
  exact ⟨⟨.regExp, "[/]", ⟨0, 6⟩⟩, by decide +kernel⟩

end TokenStream

end ScriptExcerpt
