import ScriptExcerpt.Proofs.Lexeme.Fit
import ScriptExcerpt.Proofs.Standing

/-!
# Lexemes told and seen

Behind the place where a tape and a cursor stand, the same lexemes are read. Only where `<!` or
`<!-` comes last and invisible characters follow (`Text.TrailsOff`) a tape has passed them before
the end of the script is told, and does not take them back.

* `matches_tapeLexemeAt`: lexemes that start with the same character.
* `TapeReader.tellsAs_behind`: a script that is read from a tape, and with a cursor.
* `TapeReader.unobjected_behind`: nothing is ever objected to.
-/

namespace ScriptExcerpt

open Text

/-! ## Recognizers -/

section Recognizers

variable {σ ρ ε : Type} {M : Recognizer σ ρ ε} {settled : σ → Prop}

/-- Where a line end ends the lexeme, it does not matter what is made of one. -/
theorem Recognizer.OneLine.suits (hM : M.OneLine settled) (hblind : M.BlindToReturns)
    (hskips : ∀ s, M.skips s) (m : Manner σ) : m.Suits M where
  blind := hblind
  ignores h _ := by
    rcases h with h | h <;> exact hM.not_isLineEnd (by rw [h]; exact id)
  returns := .inr ⟨hskips, fun _ _ => hM.ends⟩

namespace Quotation

/-- Behind a character, something was decoded. -/
theorem ignores_char (d : CodeUnit.Decoder) (c : Char) :
    manner.ignores (.text (d.char c)) = false := rfl

/-- Behind an escape as well. -/
theorem ignores_unit (d : CodeUnit.Decoder) (u : UInt16) :
    manner.ignores (.text (d.unit u)) = false := by
  rw [CodeUnit.Decoder.unit]
  split
  · exact Bool.and_false _
  · split
    · split <;> rfl
    · exact ignores_char d _

/-- Only behind the opening quote nothing is made of a line end. -/
theorem ignores_of_take {quote c : Char} {s u : State} (h : (recognizer quote).step s c = .take u) :
    manner.ignores u = false := by
  have hescape (d : CodeUnit.Decoder) : manner.ignores (stepBackslash d c) = false := by
    rw [stepBackslash]
    grind [ignores_char, manner]
  cases s <;> simp only [recognizer, step, stepText] at h <;>
    grind [ignores_char, ignores_unit, manner]

theorem suits {quote : Char} (hquote : isQuote quote) : manner.Suits (recognizer quote) where
  blind := blindToReturns hquote
  ignores {s u c} h hig := by
    rcases h with h | h
    · simp [ignores_of_take h] at hig
    · cases s <;> simp only [recognizer, step, stepText] at h <;> grind
  returns := .inl fun s c => by
    cases s <;> simp only [recognizer, step, stepText] <;> grind [Move.Returns]

end Quotation

theorem Comment.suits_block : blockManner.Suits blockRecognizer where
  blind := blindToReturns_block
  ignores _ h := absurd h Bool.false_ne_true
  returns := .inl fun s c => by
    simp only [blockRecognizer]
    grind [Move.Returns]

variable {m : Manner σ} {P : σ → List Char → Prop} {s : σ} {t : Tape} {cur : Cursor}

/-- What comes to the end of the script, and never goes back from there, is recognized alike. -/
theorem Tape.Fit.matches_runFrom (ht : t.Fit) (hM : m.Careful M P) (hm : m.Suits M)
    (hend : ∀ s r, M.atEnd s ≠ .back r) (hP : P s [])
    (hguard : ∀ s, m.guarded s → t.givenBack.length ≤ 1) (hstands : t.Stands cur)
    (hcur : cur.place.OnLine) (hskips : t.givenBack = [] ∨ ∀ s, M.skips s) :
    (M.drive m s [] t.offset t).Matches (M.runFrom s cur) := by
  have hI : M.Invariant fun _ _ _ => True :=
    ⟨fun _ _ => trivial, fun _ _ _ => trivial, fun _ _ _ => trivial, fun _ _ _ => trivial⟩
  exact Recognizer.matches_runFrom hM hm hI (fun _ h => absurd h (hend _ _)) hP ht.holds hguard
    hstands hcur hskips trivial

end Recognizers

/-! ## Ends of scripts -/

/-- The script ends with invisible characters behind `<!` or `<!-`, which open no comment. -/
structure Text.TrailsOff (source : List Char) : Prop where
  beginning : ['<', '!'] <:+ visible source ∨ ['<', '!', '-'] <:+ visible source
  last : ∃ c, source.getLast? = some c ∧ isInvisible c

namespace Operator

variable {v : Version} {lineIsBlank : Bool} {c : Char} {k : Kind} {s : State}
  {behind mark here cur : Cursor} {source before : List Char}

/-- A run that got to `here` looks for more behind its text. -/
structure Looks (table : List (List Char × Kind)) (c : Char) (behind : Cursor) (s : State)
    (mark here : Cursor) : Prop where
  spelled : Spelled table c behind s mark here
  kind : kindOf? table s.text = some s.kind ∨ kindOf? table s.text = none
  longer : extends? table s.text

theorem invariant_looks (v : Version) (lineIsBlank : Bool) (c : Char) (behind : Cursor) :
    (recognizer (spellings v lineIsBlank)).Invariant (Looks (spellings v lineIsBlank) c behind) :=
  have hI : (recognizer (spellings v lineIsBlank)).Invariant
      (Spelled (spellings v lineIsBlank) c behind) := invariant_spelled inked_spellings behind
  { complete := fun h hc => { h with spelled := hI.complete h.spelled hc }
    skip := fun h hp hx => { h with spelled := hI.skip h.spelled hp hx }
    take := fun h hp he =>
      have ⟨_, hk, hlong⟩ := of_take he
      ⟨hI.take h.spelled hp he, .inl hk, hlong⟩
    probe := fun h hp he =>
      have ⟨_, _, hk, hlong⟩ := of_probe he
      ⟨hI.probe h.spelled hp he, .inr hk, hlong⟩ }

/-- Where a symbol ends before the end of the script, nothing invisible stands there. -/
theorem Looks.eq_of_back (h : Looks (spellings v lineIsBlank) c behind s mark here)
    (hsource : source = before ++ c :: behind.rest) (hends : ¬ TrailsOff source)
    (hc : isInvisible c = false)
    (hback : (recognizer (spellings v lineIsBlank)).atEnd s = .back k)
    (hsee : here.see true = (none, cur)) : cur = here := by
  have hgap := Cursor.isInvisible_of_see h.spelled.onLine hsee
  have hkind : kindOf? (spellings v lineIsBlank) s.text = none := by
    refine h.kind.resolve_left fun hkind => ?_
    simp [recognizer, atEnd, hkind] at hback
  obtain ⟨w, passed, hw, hmark, hhere, htext⟩ := h.spelled.parts
  obtain ⟨p, rest⟩ := here
  cases hrest : rest with
  | nil =>
    subst hrest
    exact (Prod.mk.inj hsee).2.symm
  | cons x xs =>
    -- The script ends with the text of the state, and then invisible characters.
    have hwhole : source = before ++ (c :: (w ++ passed) ++ rest) := by
      rw [hsource, hmark.1, hhere.1, List.cons_append, List.append_assoc]
    have hvisible : visible source = visible before ++ s.text := by
      rw [hwhole, visible_append, visible_append, visible_eq_nil_iff.2 hgap, List.append_nil,
        visible_cons hc, htext]
    refine absurd ⟨?_, ?_⟩ hends
    · rw [hvisible]
      refine (eq_of_extends (by simp [htext]) hkind h.longer).imp ?_ ?_ <;> intro hs <;>
        exact hs ▸ List.suffix_append _ _
    · have hne : rest ≠ [] := by simp [hrest]
      refine ⟨rest.getLast hne, ?_, hgap _ (List.getLast_mem hne)⟩
      rw [hwhole, List.getLast?_append, List.getLast?_append, List.getLast?_eq_some_getLast hne]
      rfl

end Operator

/-! ## Lexemes -/

/-- The lexeme on the tape is the other one, and the reading goes on at the same place. -/
structure TapeLexeme.Matches (l : TapeLexeme) (l' : Lexeme) : Prop where
  verdict : l.verdict = l'.verdict
  stop : l.stop = l'.stop
  value : l.value = l'.value
  stands : l.tape.Stands l'.cursor

namespace TapeLexeme

variable {v : Version} {lineIsBlank : Bool} {c : Char} {t : Tape} {cur : Cursor}

theorem matches_name (ht : t.Fit) (hback : t.givenBack.length ≤ 1) (hstands : t.Stands cur)
    (hcur : cur.place.OnLine) : (name v c t).Matches (Lexeme.name v c cur) := by
  have ho := ht.matches_runFrom (s := Name.start c) Name.careful
    (Name.oneLine.suits Name.blindToReturns (fun _ => rfl) Name.manner)
    (fun s r => by cases s <;> simp [Name.recognizer, Name.atEnd]) rfl (fun _ _ => hback) hstands
    hcur (.inr fun _ => rfl)
  rw [name, Lexeme.name, ho.verdict]
  cases (Name.recognizer.runFrom (Name.start c) cur).verdict with
  | ok word => exact ⟨rfl, ho.stands.offset, rfl, ho.stands⟩
  | error f => exact ⟨rfl, hstands.offset, rfl, ho.stands⟩

theorem matches_number (ht : t.Fit) (hback : t.givenBack.length ≤ 1) (hstands : t.Stands cur)
    (hcur : cur.place.OnLine) : (number v c t).Matches (Lexeme.number v c cur) := by
  have ho := ht.matches_runFrom (s := Number.start c) (Number.careful v)
    ((Number.oneLine v).suits (Number.blindToReturns v) (fun _ => rfl) Number.manner)
    (fun s r => by cases s <;> simp [Number.recognizer, Number.atEnd]) (Number.ahead_start c).symm
    (fun _ _ => hback) hstands hcur (.inr fun _ => rfl)
  rw [number, Lexeme.number, ho.verdict]
  rcases ((Number.recognizer v).runFrom (Number.start c) cur).verdict with f | _ | value
  · exact ⟨rfl, hstands.offset, rfl, ho.stands⟩
  · exact ⟨rfl, hstands.offset, rfl, ho.stands⟩
  · exact ⟨rfl, ho.stands.offset, rfl, ho.stands⟩

theorem matches_quotation (ht : t.Fit) (hback : t.givenBack = []) (hquote : isQuote c)
    (hstands : t.Stands cur) (hcur : cur.place.OnLine) :
    (quotation c t).Matches (Lexeme.quotation c cur) := by
  have ho := ht.matches_runFrom (s := .text .empty) (Quotation.careful c) (Quotation.suits hquote)
    (fun s r => by cases s <;> simp [Quotation.recognizer, Quotation.atEnd]) rfl
    (fun _ _ => by simp [hback]) hstands hcur (.inl hback)
  rw [quotation, Lexeme.quotation, ho.verdict]
  cases ((Quotation.recognizer c).runFrom (.text .empty) cur).verdict with
  | ok decoded => exact ⟨rfl, ho.stands.offset, rfl, ho.stands⟩
  | error f => exact ⟨rfl, hstands.offset, rfl, ho.stands⟩

theorem matches_lineComment (ht : t.Fit) (hback : t.givenBack.length ≤ 1) (hstands : t.Stands cur)
    (hcur : cur.place.OnLine) : (lineComment t).Matches (Lexeme.lineComment cur) := by
  have ho := ht.matches_runFrom (s := ()) Comment.careful_line
    (Comment.oneLine_line.suits Comment.blindToReturns_line (fun _ => rfl) Comment.lineManner)
    nofun rfl (fun _ _ => hback) hstands hcur (.inr fun _ => rfl)
  exact ⟨congrArg (Except.map _) ho.verdict, ho.stands.offset, rfl, ho.stands⟩

/-- No block comment ends with the script. -/
theorem drive_blockComment_of_ends {t' : Tape} (ht : t'.Balanced) (h : t.Ends t') (star : Bool) :
    Comment.blockRecognizer.drive Comment.blockManner star [] t'.offset t' =
      ⟨.error (.unterminated "block comment"), t'.offset, t'⟩ := by
  have hview : Comment.blockRecognizer.view Comment.blockManner star t' = (none, t') :=
    Recognizer.view_eq ht h.read fun hg => absurd hg Bool.false_ne_true
  rw [Recognizer.drive_of_end _ _ hview, Recognizer.giveBack_nil h]
  rfl

theorem matches_blockComment (ht : t.Fit) (hstands : t.Stands cur) (hcur : cur.place.OnLine) :
    (blockComment t).Matches (Lexeme.blockComment cur) := by
  have hdrive {t : Tape} {cur : Cursor} (star : Bool) (ht : t.Fit) (hstands : t.Stands cur)
      (hcur : cur.place.OnLine) := ht.matches_runFrom (s := star) Comment.careful_block
    Comment.suits_block nofun rfl nofun hstands hcur (.inr fun _ => rfl)
  have hmatches {o : TapeOutcome Unit Fault} {o' : Outcome Unit Fault}
      (hverdict : o.verdict = o'.verdict) (ho : o.tape.Stands o'.cursor) :
      (TapeLexeme.mk (o.verdict.map fun _ => .blockComment) o.tape.offset o.tape none).Matches
        ⟨o'.verdict.map fun _ => .blockComment, o'.cursor.offset, o'.cursor, none⟩ :=
    ⟨congrArg (Except.map _) hverdict, ho.offset, rfl, ho⟩
  have hfit := ht.readIf '*'
  rw [blockComment, Lexeme.blockComment]
  rw [Tape.readIf] at hfit ⊢
  rcases h : t.read true true with ⟨_ | c, t'⟩ <;> simp only [h] at hfit ⊢
  · -- There is no character to try, and none in the comment.
    obtain ⟨behind, hsee, hstands'⟩ := hstands.read_end (fun _ => hcur.owed) h
    have hends := Tape.ends_read h
    have hrun : Comment.blockRecognizer.runFrom false cur =
        ⟨.error (.unterminated "block comment"), cur.offset, behind⟩ :=
      Recognizer.run_of_end (M := Comment.blockRecognizer) hsee
    have hfails := drive_blockComment_of_ends (ht.balanced.ends hends) hends false
    refine hmatches ?_ ?_ <;> simp [hends.putBack, hrun, hfails, hstands']
  · obtain ⟨r, rfl, hr⟩ := Tape.tells_read h
    obtain ⟨d, behind, hshows, hstands'⟩ := hstands.read (.inr rfl) (fun _ => hcur.owed) h hr
    split
    · next hstar =>
      rw [if_pos hstar] at hfit
      have htold : Tape.tell d = '*' := hshows.char.symm.trans (Option.some.inj hstar)
      obtain rfl : d = '*' := (Tape.tell_of_ne (by rw [htold]; decide)).symm.trans htold
      have hrun : Comment.blockRecognizer.runFrom false cur =
          Comment.blockRecognizer.runFrom true behind :=
        Recognizer.run_of_see (M := Comment.blockRecognizer) hshows.see
      have ho := hdrive true hfit hstands' (hshows.onLine rfl)
      rw [hrun]
      exact hmatches ho.verdict ho.stands
    · next hstar =>
      rw [if_neg hstar, ht.putBack_eq hr] at hfit
      rw [ht.putBack_eq hr]
      have ho := hdrive false hfit (hstands'.rewind ⟨d, behind, hshows, rfl⟩) hcur
      exact hmatches ho.verdict ho.stands

section Symbols

variable {k₀ : Kind} {source before : List Char}

theorem matches_longest (ht : t.Fit)
    (hc : Operator.kindOf? (Operator.spellings v lineIsBlank) [c] = some k₀)
    (hlong : Operator.extends? (Operator.spellings v lineIsBlank) [c])
    (hstands : t.Stands cur) (hcur : cur.place.OnLine) (hsource : source = before ++ c :: cur.rest)
    (hends : ¬ TrailsOff source) :
    (longest v lineIsBlank c k₀ t).Matches
      ((Operator.recognizer (Operator.spellings v lineIsBlank)).runFrom ⟨[c], k₀⟩ cur) := by
  have hinked : Inked c :=
    Operator.inked_of_mem_spelling (Operator.mem_of_kindOf? hc) (List.mem_singleton_self c)
  have hm := (Operator.oneLine fun _ hp _ hd => Operator.not_isLineEnd_of_mem_spelling hp hd).suits
    (Operator.blindToReturns v lineIsBlank) (fun _ => rfl) (Operator.manner v lineIsBlank)
  refine Recognizer.matches_runFrom (Operator.careful v lineIsBlank c) hm
    (Operator.invariant_looks v lineIsBlank c cur)
    (fun h hback hsee => h.eq_of_back hsource hends hinked.not_invisible hback hsee)
    (ahead_start hc) ht.holds nofun hstands hcur (.inr fun _ => rfl) ⟨⟨?_, hcur⟩, .inl hc, hlong⟩
  exact ⟨[], [], ⟨hc, by simp⟩, .refl _, .refl _, rfl⟩

theorem matches_afterOperator {o : TapeOutcome Kind Fault} {o' : Outcome Kind Fault}
    (ho : o.Matches o') (hfit : o.tape.Fit)
    (hback : ∀ {k}, o.verdict = .ok k → k.isTrivia → o.tape.givenBack.length ≤ 1)
    (hline : ∀ {k}, o'.verdict = .ok k → o'.cursor.place.OnLine) (start : Nat) :
    (afterOperator start o).Matches (Lexeme.afterOperator start o') := by
  obtain ⟨verdict, taken, tape⟩ := o
  obtain ⟨verdict', taken', cursor⟩ := o'
  obtain rfl : verdict = verdict' := ho.verdict
  obtain rfl : taken = taken' := ho.taken
  cases verdict with
  | error f => exact ⟨rfl, rfl, rfl, ho.stands⟩
  | ok k =>
    cases k with
    | lineComment => exact matches_lineComment hfit (hback rfl rfl) ho.stands (hline rfl)
    | blockComment => exact matches_blockComment hfit ho.stands (hline rfl)
    | _ => exact ⟨rfl, rfl, rfl, ho.stands⟩

theorem matches_symbol (ht : t.Fit) (hback : t.givenBack.length < Tape.depth)
    (hstands : t.Stands cur) (hcur : cur.place.OnLine) (hsource : source = before ++ c :: cur.rest)
    (hends : ¬ TrailsOff source) : (symbol v lineIsBlank c t).Matches
      (Lexeme.symbol (Operator.spellings v lineIsBlank) c cur) := by
  have hlines : ∀ p ∈ Operator.spellings v lineIsBlank, ∀ c ∈ p.1, isLineEnd c = false :=
    fun _ hp _ hd => Operator.not_isLineEnd_of_mem_spelling hp hd
  rw [symbol]
  cases hc : Operator.kindOf? (Operator.spellings v lineIsBlank) [c] with
  | none =>
    simp only [Lexeme.symbol, hc]
    exact ⟨rfl, hstands.offset, rfl, hstands⟩
  | some k₀ =>
    simp only
    split
    · next hlong =>
      rw [Lexeme.symbol_eq_afterOperator hc hlong, ← hstands.offset]
      exact matches_afterOperator (matches_longest ht hc hlong hstands hcur hsource hends)
        (fit_longest ht hc) (length_le_of_isTrivia ht hback hc)
        (fun hk => ((Operator.oneLine hlines).extent hcur hk).1.onLine) t.offset
    · next hlong =>
      simp only [Lexeme.symbol, hc, hlong]
      exact ⟨rfl, hstands.offset, rfl, hstands⟩

end Symbols

end TapeLexeme

/-- Lexemes that start with the same character, behind which a tape and a cursor stand. -/
theorem matches_tapeLexemeAt {v : Version} {lineIsBlank : Bool} {c : Char} {t : Tape} {cur : Cursor}
    {source before : List Char} (ht : t.FitBehind c) (hstands : t.Stands cur)
    (hcur : cur.place.OnLine) (hsource : source = before ++ c :: cur.rest)
    (hends : ¬ TrailsOff source) :
    (tapeLexemeAt v lineIsBlank c t).Matches (lexemeAt v lineIsBlank c cur) := by
  rw [tapeLexemeAt, lexemeAt]
  split
  · next hname => exact TapeLexeme.matches_name ht.fit (ht.length_le_of_name hname) hstands hcur
  · split
    · next hnumber =>
      exact TapeLexeme.matches_number ht.fit (ht.length_le_of_number hnumber) hstands hcur
    · split
      · next hquote =>
        exact TapeLexeme.matches_quotation ht.fit (ht.eq_nil_of_quote hquote) hquote hstands hcur
      · exact TapeLexeme.matches_symbol ht.fit ht.length_lt hstands hcur hsource hends

/-! ## Gaps -/

namespace Cursor

variable {cur behind : Cursor} {c : Char}

theorem skipGap_complete {p : Place} {c : Char} {cs : List Char} {here : Cursor}
    (h : skipGap ⟨p, c :: cs⟩ = here) (hc : p.completes c) : skipGap ⟨p.complete, cs⟩ = here := by
  rwa [skipGap, skipGapFrom, if_pos hc] at h

theorem skipGap_past {p : Place} {c : Char} {cs : List Char} {here : Cursor}
    (h : skipGap ⟨p, c :: cs⟩ = here) (hc : ¬ p.completes c) (hgap : isBlank c || isInvisible c) :
    skipGap ⟨p.past c, cs⟩ = here := by
  rwa [skipGap, skipGapFrom, if_neg hc, if_pos hgap] at h

/-- Where the end of the script is seen, a gap ends. -/
theorem skipGap_of_see_none (h : cur.see true = (none, behind)) : cur.skipGap = behind := by
  obtain ⟨hgap, hnil⟩ := of_see_none (I := fun here => here.skipGap = cur.skipGap) skipGap_complete
    (fun h hc hi => skipGap_past h hc (by simpa using .inr hi)) rfl h
  obtain ⟨p, rest⟩ := behind
  obtain rfl : rest = [] := hnil
  exact hgap.symm

/-- A gap goes on behind the character that is seen if it is blank, and ends before it if not. -/
theorem skipGap_of_see (h : cur.see true = (some c, behind)) :
    (isBlank c → cur.skipGap = behind.skipGap) ∧
      (isBlank c = false →
        ∃ p, cur.skipGap = ⟨p, c :: behind.rest⟩ ∧ behind = ⟨p.past c, behind.rest⟩) := by
  obtain ⟨p, hgap, hc, hi, hplace⟩ := of_see (I := fun here => here.skipGap = cur.skipGap)
    skipGap_complete (fun h hc hi => skipGap_past h hc (by simpa using .inr hi)) rfl h
  obtain ⟨place, rest⟩ := behind
  obtain rfl : place = p.past c := hplace
  refine ⟨fun hblank => (skipGap_past hgap hc (by simp [hblank])).symm, fun hblank => ?_⟩
  rw [Bool.true_and] at hi
  have hink : ¬ (isBlank c || isInvisible c) := by simp [hblank, hi]
  refine ⟨p.look, ?_, rfl⟩
  rw [← hgap, skipGap, skipGapFrom, if_neg hc, if_neg hink]

end Cursor

namespace Tape

theorem isBlank_tell (d : Char) : isBlank (tell d) = isBlank d := by
  rw [tell]
  split
  · next hd =>
    have hink : isBlank d = false := by
      rw [← Bool.not_eq_true]
      intro hblank
      exact absurd (hd.symm.trans (not_isLineEnd_of_isBlank hblank)) (by decide)
    exact hink.symm
  · rfl

/-- On a tape, gaps are passed as they are behind a cursor. -/
theorem Stands.readInk {t : Tape} {cur : Cursor} (ht : t.Stands cur) :
    (t.readInk.1 = none → cur.skipGap.rest = [] ∧ t.readInk.2.Stands cur.skipGap) ∧
      ∀ c, t.readInk.1 = some c → ∃ p d rest, cur.skipGap = ⟨p, d :: rest⟩ ∧ tell d = c ∧
        t.readInk.2.Stands ⟨p.past d, rest⟩ ∧
        t.readInk.2.recent.head?.elim 0 Read.width = d.utf8Size := by
  fun_induction Tape.readInk t generalizing cur with
  | case1 t t' h =>
    obtain ⟨behind, hsee, hstands⟩ := ht.read_end (by simp) h
    rw [Cursor.skipGap_of_see_none hsee]
    exact ⟨fun _ => ⟨(Cursor.of_see_none (I := fun _ => True) (fun _ _ => trivial)
      (fun _ _ _ => trivial) trivial hsee).2, hstands⟩, by simp⟩
  | case2 t c t' h hblank ih =>
    obtain ⟨r, rfl, hr⟩ := tells_read h
    obtain ⟨d, behind, hshows, hstands⟩ := ht.read (.inr rfl) (by simp) h hr
    rw [hshows.char, isBlank_tell] at hblank
    rw [(Cursor.skipGap_of_see hshows.see).1 hblank]
    exact ih hstands
  | case3 t c t' h hblank =>
    obtain ⟨r, rfl, hr⟩ := tells_read h
    obtain ⟨d, behind, hshows, hstands⟩ := ht.read (.inr rfl) (by simp) h hr
    rw [hshows.char, isBlank_tell, Bool.not_eq_true] at hblank
    obtain ⟨p, hgap, hbehind⟩ := (Cursor.skipGap_of_see hshows.see).2 hblank
    have hlast : t'.recent.head? = some r := congrArg List.head? hr.recent
    refine ⟨by simp, fun c hc => ⟨p, d, behind.rest, hgap, ?_, hbehind ▸ hstands, ?_⟩⟩
    · rw [← hshows.char]
      exact Option.some.inj hc
    · rw [hlast]
      exact hshows.width

end Tape

/-! ## Readers -/

/-- Reads the next lexeme and, if it is a slash and `regExp` holds, the rest of the regular
    expression that it opens. -/
def LexemeReader.turn (r : LexemeReader) (regExp : Bool) : LexemeReader :=
  match r.next.1 with
  | .ok k =>
    if regExp && k.isSlash then (r.next.2.readRegExp (k = .symbol .slashEquals)).2 else r.next.2
  | .error _ => r.next.2

/-- The reader behind some turns. -/
def LexemeReader.behind (r : LexemeReader) (turns : List Bool) : LexemeReader :=
  turns.foldl LexemeReader.turn r

namespace TapeReader

/-- A reader of a tape knows what the other reader knows, and goes on where it does. -/
structure Matches (r : TapeReader) (r' : LexemeReader) : Prop where
  source : r.source = r'.source
  version : r.version = r'.version
  lineIsBlank : r.lineIsBlank = r'.lineIsBlank
  start : r.start = r'.opening.offset
  stop : r.stop = r'.stop
  value : r.value = r'.value
  flags : r.flags = r'.flags
  stands : r.tape.Stands r'.cursor

variable {r : TapeReader} {r' : LexemeReader}

theorem matches_startingAt (source : List Char) (n : Nat) (v : Version) :
    (startingAt source n v).Matches (LexemeReader.startingAt source n v) :=
  ⟨rfl, rfl, rfl, rfl, rfl, rfl, rfl, rfl, rfl⟩

theorem Matches.accept (h : r.Matches r') {start : Nat} {opening : Cursor} {c : Char}
    {l : TapeLexeme} {l' : Lexeme} (hstart : start = opening.offset) (hl : l.Matches l') :
    (r.accept start c l).1 = (r'.accept opening c l').1 ∧
      (r.accept start c l).2.Matches (r'.accept opening c l').2 := by
  obtain ⟨verdict, stop, tape, value⟩ := l
  obtain ⟨verdict', stop', cursor, value'⟩ := l'
  obtain rfl : verdict = verdict' := hl.verdict
  obtain rfl : stop = stop' := hl.stop
  obtain rfl : value = value' := hl.value
  have hoffset : tape.offset = cursor.offset := hl.stands.offset
  refine ⟨?_, h.source, h.version, rfl, hstart, rfl, ?_, h.flags, hl.stands⟩
  · simp only [TapeReader.accept, LexemeReader.accept, problem, LexemeReader.problem, h.source,
      hstart, hoffset]
  · exact congrArg value.getD h.value

/-- The next lexeme is the same. -/
theorem Matches.next (h : r.Matches r') (hr : r.tape.Fit) {source : List Char}
    (hsource : r'.cursor.StandsIn source) (hends : ¬ TrailsOff source) :
    r.next.1 = r'.next.1 ∧ r.next.2.Matches r'.next.2 := by
  obtain ⟨hnone, hsome⟩ := h.stands.readInk
  obtain ⟨-, hbehind⟩ := hr.readInk
  rw [TapeReader.next, LexemeReader.next]
  split
  · next t hink =>
    rw [hink] at hnone
    obtain ⟨hnil, hstands⟩ := hnone rfl
    rw [hnil]
    exact ⟨rfl, h.source, h.version, h.lineIsBlank, hstands.offset, hstands.offset, h.value,
      h.flags, hstands⟩
  · next c t hink =>
    rw [hink] at hsome hbehind
    obtain ⟨p, d, rest, hgap, rfl, hstands, hwidth⟩ := hsome c rfl
    have hfit : t.FitBehind (Tape.tell d) := hbehind _ rfl
    have hstart : t.offset - t.recent.head?.elim 0 Read.width = p.offset := by
      rw [hwidth, hstands.offset]
      exact Nat.add_sub_cancel ..
    have hopening : (Cursor.mk p (d :: rest)).StandsIn source :=
      hgap ▸ hsource.leads r'.cursor.leads_skipGap
    simp only [hgap, hstart, Tape.tell_eq_newline_iff]
    split
    · exact ⟨rfl, h.source, h.version, rfl, rfl, hstands.offset, h.value, h.flags, hstands⟩
    · next hline =>
      rw [Bool.not_eq_true] at hline
      obtain ⟨before, hbefore, -⟩ := hopening
      have htell : Tape.tell d = d := if_neg (by simp [hline])
      rw [htell] at hfit ⊢
      have hl : (tapeLexemeAt r.version r.lineIsBlank d t).Matches
          (lexemeAt r.version r.lineIsBlank d ⟨p.past d, rest⟩) :=
        matches_tapeLexemeAt hfit hstands (p.onLine_past hline) hbefore hends
      exact h.accept rfl (h.version ▸ h.lineIsBlank ▸ hl)

/-- Behind a slash, so is the rest of a regular expression. -/
theorem Matches.readRegExp (h : r.Matches r') (hr : r.tape.Fit)
    (hback : r.tape.givenBack.length ≤ 1) (hline : r'.cursor.place.OnLine) (equals : Bool) :
    (r.readRegExp equals).1 = (r'.readRegExp equals).1 ∧
      (r.readRegExp equals).2.Matches (r'.readRegExp equals).2 := by
  have ho := hr.matches_runFrom (s := if equals then .body ['='] false else .opening)
    RegExp.careful (RegExp.oneLine.suits RegExp.blindToReturns (fun _ => rfl) RegExp.manner)
    (fun s r => by cases s <;> simp [RegExp.recognizer, RegExp.atEnd]) rfl (fun _ _ => hback)
    h.stands hline (.inr fun _ => rfl)
  rw [TapeReader.readRegExp, LexemeReader.readRegExp, ho.verdict]
  have hstop := ho.stands.offset
  rcases (RegExp.recognizer.runFrom _ r'.cursor).verdict with ⟨f, flags⟩ | l
  · refine ⟨?_, { h with flags := rfl, stands := ho.stands }⟩
    simp only [problem, LexemeReader.problem, h.source, h.start, hstop]
  · exact ⟨rfl, { h with stop := hstop, value := rfl, flags := rfl, stands := ho.stands }⟩

section Script

variable {source : List Char}

theorem Matches.readRegExp_next (h : r.Matches r') (hr : r.tape.Fit)
    (hsource : r'.cursor.StandsIn source) (hends : ¬ TrailsOff source) {k : Kind}
    (hk : r.next.1 = .ok k) (hslash : k.isSlash) (equals : Bool) :
    (r.next.2.readRegExp equals).1 = (r'.next.2.readRegExp equals).1 ∧
      (r.next.2.readRegExp equals).2.Matches (r'.next.2.readRegExp equals).2 := by
  obtain ⟨hanswer, hnext⟩ := h.next hr hsource hends
  obtain ⟨hfit, hback⟩ := fit_next hr
  have hreach := LexemeReader.reaches_next (Prod.ext (hanswer.symm.trans hk) rfl : r'.next = (_, _))
    (by rintro rfl; cases hslash) (by rintro rfl; cases hslash)
  exact hnext.readRegExp hfit (hback k hk hslash) hreach.2.extent.onLine equals

/-- Two readers that go on at the same place do so behind a turn. -/
theorem Matches.turn (h : r.Matches r') (hr : r.tape.Fit) (hsource : r'.cursor.StandsIn source)
    (hends : ¬ TrailsOff source) (regExp : Bool) : (r.turn regExp).Matches (r'.turn regExp) := by
  obtain ⟨hanswer, hnext⟩ := h.next hr hsource hends
  rw [TapeReader.turn, LexemeReader.turn, ← hanswer]
  cases hk : r.next.1 with
  | error p => exact hnext
  | ok k =>
    simp only
    split
    · next hslash =>
      exact (h.readRegExp_next hr hsource hends hk (Bool.and_eq_true_iff.1 hslash).2 _).2
    · exact hnext

theorem leads_turn (r' : LexemeReader) (regExp : Bool) :
    r'.cursor.Leads (r'.turn regExp).cursor := by
  have hnext : r'.cursor.Leads r'.next.2.cursor :=
    (LexemeReader.leads_next rfl).1.trans (LexemeReader.leads_next rfl).2
  rw [LexemeReader.turn]
  split
  · split
    · exact hnext.trans (LexemeReader.leads_readRegExp ..)
    · exact hnext
  · exact hnext

theorem Matches.behind (h : r.Matches r') (hr : r.tape.Fit) (hsource : r'.cursor.StandsIn source)
    (hends : ¬ TrailsOff source) (turns : List Bool) :
    (r.behind turns).Matches (r'.behind turns) ∧ (r'.behind turns).cursor.StandsIn source := by
  induction turns generalizing r r' with
  | nil => exact ⟨h, hsource⟩
  | cons regExp turns ih =>
    exact ih (h.turn hr hsource hends regExp) (fit_turn hr regExp)
      (hsource.leads (leads_turn r' regExp))

end Script

/-- The readers know the same, and tell the same of the next lexeme and, behind a slash, of the
    regular expression that it opens. -/
structure TellsAs (r : TapeReader) (r' : LexemeReader) : Prop where
  known : r.Matches r'
  next : r.next.1 = r'.next.1
  regExp {k : Kind} (equals : Bool) : r.next.1 = .ok k → k.isSlash →
    (r.next.2.readRegExp equals).1 = (r'.next.2.readRegExp equals).1

/-- Unless it trails off, a script is read from a tape as it is read with a cursor. -/
theorem tellsAs_behind (source : List Char) (n : Nat) (v : Version) (turns : List Bool)
    (hends : ¬ TrailsOff source) : ((startingAt source n v).behind turns).TellsAs
      ((LexemeReader.startingAt source n v).behind turns) := by
  have hstart := fit_startingAt source n v
  obtain ⟨hknown, hsource⟩ := (matches_startingAt source n v).behind hstart
    (Cursor.standsIn_startingAt source n) hends turns
  have hfit := fit_behind hstart turns
  exact ⟨hknown, (hknown.next hfit hsource hends).1, fun equals hk hslash =>
    (hknown.readRegExp_next hfit hsource hends hk hslash equals).1⟩

/-- Where a script trails off, the tape has passed what is invisible. -/
example : ((startingAt "<!\u200e".toList 0 .legacy).behind [false]).tape.offset = 4 ∧
    ((LexemeReader.startingAt "<!\u200e".toList 0 .legacy).behind [false]).cursor.offset = 1 := by
  cbv

/-- Whatever is read of a script, from wherever and behind problems too, if a regular expression is
    read only where a slash was, then no character was ever given back against the rules, as an
    objection stays noted (`Tape.Goes.objections`): each one was the last one told, at most three
    of them were given back at a time, and none behind a line end where those are guarded. What
    lies between the offset and what was not read off was given back. And unless the script trails
    off, it is read from the tape as it is read with a cursor. -/
theorem unobjected_behind (source : List Char) (n : Nat) (v : Version) (turns : List Bool) :
    let r := (startingAt source n v).behind turns
    r.tape.objections = [] ∧
      r.tape.feed.reach = r.tape.offset + bytesTaken r.tape.givenBack ∧
      r.tape.givenBack.length ≤ 3 ∧
      (¬ TrailsOff source → r.TellsAs ((LexemeReader.startingAt source n v).behind turns)) := by
  -- Nothing was objected to on the way, nor is it at its end.
  have hobjections := objections_of_goes_behind (fit_startingAt source n v) turns .refl
  have hbalanced := (goes_behind (startingAt source n v) turns).balanced
    (Tape.balanced_startingAt source n)
  exact ⟨hobjections, hbalanced.reach, hbalanced.length_givenBack,
    tellsAs_behind source n v turns⟩

/-- Three characters are given back where `<!--` is tried in vain. -/
example : ((startingAt "<!-b".toList 0 .legacy).behind [false]).tape.chars = ['!', '-', 'b'] := by
  cbv

end TapeReader

end ScriptExcerpt
