import ScriptExcerpt.Proofs.Lexeme.Local

/-!
# Laws of lexeme readers

* `LexemeReader.leads_next`, `LexemeReader.offset_lt_next`: a reader only moves
  on, and always does before the end of the script.
* `LexemeReader.atEnd_of_next`: it tells the end of the script only there.
* `LexemeReader.next_error`, `LexemeReader.readRegExp_ok`,
  `LexemeReader.readRegExp_error`: what was read, by what is told of it.
* `LexemeReader.next_embed`, `LexemeReader.readRegExp_embed`: what it reads,
  leaving a closing bracket unread, it also reads where the text before that
  bracket stands in another script (`LexemeReader.embed`).
-/

namespace ScriptExcerpt

open Text

/-! ## Verdicts of lexemes -/

section Verdict

variable {verdict : Except Fault Kind} {f : Fault → Problem} {k : Kind} {p : Problem}

theorem ok_of_mapError (h : verdict.mapError f = .ok k) : verdict = .ok k := by
  cases verdict with
  | error e => cases (show Except.error (f e) = .ok k from h)
  | ok l => exact congrArg Except.ok (Except.ok.inj h)

theorem error_of_mapError (h : verdict.mapError f = .error p) :
    ∃ e, verdict = .error e ∧ p = f e := by
  cases verdict with
  | error e => exact ⟨e, rfl, (Except.error.inj h).symm⟩
  | ok l => cases (show Except.ok l = .error p from h)

/-- A result can be compared with what is expected. -/
instance {α : Type} [DecidableEq α] (r : Except Problem α) (a : α) : Decidable (r = .ok a) :=
  match r with
  | .ok b => decidable_of_iff (b = a) (by simp)
  | .error _ => .isFalse (by simp)

/-- So can a problem. -/
instance {α : Type} (r : Except Problem α) (p : Problem) : Decidable (r = .error p) :=
  match r with
  | .ok _ => .isFalse (by simp)
  | .error q => decidable_of_iff (q = p) (by simp)

end Verdict

namespace LexemeReader

variable {r r' : LexemeReader} {k : Kind} {p : Problem} {x : Except Problem Kind}

/-! ## Moving on -/

/-- A lexeme starts where the gap before it ends. -/
theorem opening_next (r : LexemeReader) : r.next.2.opening = r.cursor.skipGap := by
  rw [next]
  split
  · rfl
  · split <;> rfl

theorem version_next (r : LexemeReader) : r.next.2.version = r.version := by
  rw [next]
  split
  · rfl
  · split <;> rfl

theorem version_readRegExp (r : LexemeReader) (equals : Bool) :
    (r.readRegExp equals).2.version = r.version := by
  rw [readRegExp]
  split <;> rfl

/-- The first character of a lexeme is passed. -/
theorem passes_opening {c : Char} {cs : List Char} (hn : r.next.2 = r')
    (h : r'.opening.rest = c :: cs) :
    r'.opening.Passes [c] ⟨r'.opening.place.past c, cs⟩ := by
  have hgap : r.cursor.skipGap = ⟨r'.opening.place, c :: cs⟩ := by
    rw [← opening_next, hn, ← h]
  have hpast := Cursor.passes_past (Cursor.not_completes_skipGapFrom hgap) cs
  rwa [← h] at hpast

/-- The next lexeme behind a gap. -/
theorem next_of_gap {place : Place} {c : Char} {cs : List Char}
    (h : r.cursor.skipGap = ⟨place, c :: cs⟩) :
    r.next = if isLineEnd c then (.ok .lineEnd, r.passLineEnd ⟨place, c :: cs⟩ c cs)
      else r.accept ⟨place, c :: cs⟩ c
        (lexemeAt r.version r.lineIsBlank c ⟨place.past c, cs⟩) := by
  rw [next, h]

/-- The next lexeme, if it starts right here. -/
theorem next_of_inked {c : Char} {cs : List Char} (hc : Inked c)
    (hrest : r.cursor.rest = c :: cs) (hret : r.cursor.place.afterReturn = false) :
    r.next = r.accept ⟨r.cursor.place.look, c :: cs⟩ c
      (lexemeAt r.version r.lineIsBlank c ⟨r.cursor.place.past c, cs⟩) := by
  have hskip : r.cursor.skipGap = ⟨r.cursor.place.look, c :: cs⟩ := by
    rw [Cursor.skipGap, hrest]
    exact Cursor.skipGapFrom_gap isGap_nil hret hc cs
  rw [next_of_gap hskip, hc.not_lineEnd, if_neg Bool.false_ne_true, Place.past_look]

/-- Behind the last gap comes the end of the script. -/
theorem next_of_gap_nil (h : r.cursor.skipGap.rest = []) :
    r.next = (.ok .endOfInput, r.reachEnd r.cursor.skipGap) := by
  rw [next]
  simp only [h]

/-- The reading goes on behind the first character of a lexeme. -/
theorem leads_behind {c : Char} {cs : List Char} (h : r.next.2.opening.rest = c :: cs) :
    Cursor.Leads ⟨r.next.2.opening.place.past c, cs⟩ r.next.2.cursor := by
  rw [opening_next] at h ⊢
  have hgap : r.cursor.skipGap = ⟨r.cursor.skipGap.place, c :: cs⟩ := by rw [← h]
  rw [next_of_gap hgap]
  split
  · exact .refl _
  · exact (local_lexemeAt ..).leads _

/-- A lexeme starts at the cursor or behind it, and the reading goes on behind
    its start. -/
theorem leads_next (h : r.next = (x, r')) :
    r.cursor.Leads r'.opening ∧ r'.opening.Leads r'.cursor := by
  obtain rfl : r.next.2 = r' := congrArg Prod.snd h
  refine ⟨r.opening_next ▸ r.cursor.leads_skipGap, ?_⟩
  cases hrest : r.next.2.opening.rest with
  | nil =>
    rw [opening_next] at hrest
    rw [next_of_gap_nil hrest]
    exact .refl _
  | cons c cs => exact (passes_opening rfl hrest).leads.trans (leads_behind hrest)

/-- Unless the script ends, whatever is told, the reading goes on further on. -/
theorem offset_lt_next (h : r.next = (x, r')) (hx : x ≠ .ok .endOfInput) :
    r.cursor.offset < r'.cursor.offset := by
  have hlead := leads_next h
  obtain ⟨rfl, rfl⟩ : r.next.1 = x ∧ r.next.2 = r' := Prod.ext_iff.1 h
  cases hrest : r.next.2.opening.rest with
  | nil =>
    rw [opening_next] at hrest
    exact absurd (congrArg Prod.fst (next_of_gap_nil hrest)) hx
  | cons c cs =>
    calc r.cursor.offset
      _ ≤ r.next.2.opening.offset := hlead.1.offset_le
      _ < r.next.2.opening.offset + c.utf8Size := Nat.lt_add_of_pos_right c.utf8Size_pos
      _ ≤ r.next.2.cursor.offset := (leads_behind hrest).offset_le

theorem leads_readRegExp (r : LexemeReader) (equals : Bool) :
    r.cursor.Leads (r.readRegExp equals).2.cursor := by
  rw [readRegExp]
  split <;> exact Recognizer.leads_runFrom ..

/-- The rest of a regular expression belongs to the lexeme that its slash
    began. -/
theorem opening_readRegExp (r : LexemeReader) (equals : Bool) :
    (r.readRegExp equals).2.opening = r.opening := by
  rw [readRegExp]
  split <;> rfl

/-- The end of the script was told, and nothing is left to read. -/
structure AtEnd (r : LexemeReader) : Prop where
  rest : r.cursor.rest = []
  opening : r.opening = r.cursor
  stop : r.stop = r.cursor.offset

/-- Where the end of the script is told, nothing is left to read. -/
theorem atEnd_of_next (h : r.next = (.ok .endOfInput, r')) : r'.AtEnd := by
  rw [next] at h
  split at h
  · next he =>
    obtain rfl := (Prod.mk.inj h).2
    exact ⟨he, rfl, rfl⟩
  · next c cs he =>
    split at h
    · simp at h
    · exact absurd (ok_of_mapError (Prod.mk.inj h).1) (lexemeAt_ne_endOfInput _ _ _ _)

/-- At the end of the script a reader tells the end. -/
theorem next_of_rest_nil (h : r.cursor.rest = []) :
    r.next = (.ok .endOfInput, r.reachEnd r.cursor) := by
  have hgap : r.cursor.skipGap = r.cursor := by
    rw [Cursor.skipGap, h, Cursor.skipGapFrom, ← h]
  rw [next_of_gap_nil (by rw [hgap, h]), hgap]

/-- Reaching the end again changes nothing. -/
theorem AtEnd.reachEnd_eq (h : r.AtEnd) : r.reachEnd r.cursor = r := by
  obtain ⟨-, hopen, hstop⟩ := h
  obtain ⟨source, version, cursor, blank, opening, stop, value, flags⟩ := r
  obtain rfl : opening = cursor := hopen
  obtain rfl : stop = opening.offset := hstop
  rfl

/-! ## Verdicts of readers -/

/-- A step that tells a problem has read a lexeme, behind the gap, that has something wrong with
    it. -/
theorem next_error (h : r.next = (.error p, r')) : ∃ c cs l f, r'.opening.rest = c :: cs ∧
    isLineEnd c = false ∧ lexemeAt r.version r.lineIsBlank c ⟨r'.opening.place.past c, cs⟩ = l ∧
      l.verdict = .error f ∧ r'.cursor = l.cursor ∧
        p = r.problem f r'.opening.offset r'.cursor.offset := by
  rw [next] at h
  split at h
  · simp at h
  · next c cs he =>
    split at h
    · simp at h
    · next hc =>
      obtain ⟨hv, rfl⟩ := Prod.mk.inj h
      obtain ⟨f, hl, rfl⟩ := error_of_mapError hv
      exact ⟨c, cs, _, f, he, Bool.eq_false_iff.2 hc, rfl, hl, rfl, rfl⟩

/-- What the rest of a regular expression is read as. -/
theorem readRegExp_ok {equals : Bool} (h : r.readRegExp equals = (.ok (), r')) :
    (RegExp.recognizer.runFrom (if equals then .body ['='] false else .opening) r.cursor).verdict =
        .ok ⟨r'.value, r'.flags⟩ ∧ r'.opening = r.opening ∧ r'.stop = r'.cursor.offset ∧
      r'.cursor = (RegExp.recognizer.runFrom (if equals then .body ['='] false else .opening)
        r.cursor).cursor := by
  rw [readRegExp] at h
  split at h
  · next l ho =>
    obtain rfl := (Prod.mk.inj h).2
    exact ⟨ho, rfl, rfl, rfl⟩
  · simp at h

/-- What is wrong with the rest of a regular expression. -/
theorem readRegExp_error {equals : Bool} (h : r.readRegExp equals = (.error p, r')) :
    ∃ f, (RegExp.recognizer.runFrom (if equals then .body ['='] false else .opening)
        r.cursor).verdict = .error (f, r'.flags) ∧
      r'.cursor = (RegExp.recognizer.runFrom (if equals then .body ['='] false else .opening)
        r.cursor).cursor ∧
      p = r.problem f r'.opening.offset r'.cursor.offset := by
  rw [readRegExp] at h
  split at h
  · simp at h
  · next f flags ho =>
    obtain ⟨hp, rfl⟩ := Prod.mk.inj h
    exact ⟨f, ho, rfl, (Except.error.inj hp).symm⟩

/-- What is wrong with a lexeme is a lexical cause. -/
theorem cause_of_next (h : r.next = (.error p, r')) : p.cause.isLexical := by
  obtain ⟨c, cs, _, f, -, -, rfl, hl, -, rfl⟩ := next_error h
  exact cause_lexemeAt hl

theorem cause_of_readRegExp {equals : Bool} (h : r.readRegExp equals = (.error p, r')) :
    p.cause.isLexical := by
  obtain ⟨f, ho, -, rfl⟩ := readRegExp_error h
  exact (RegExp.lexical.runFrom (by cases equals <;> trivial) r.cursor).error ho

/-! ## Closing brackets -/

/-- A reader that tells a closing bracket has read just that. -/
theorem opening_of_next_closer {c : Char} (hc : Closer c k) (h : r.next = (.ok k, r')) :
    r'.opening.rest = c :: r'.cursor.rest ∧ r'.stop = r'.cursor.offset := by
  rw [next] at h
  split at h
  · cases hc <;> simp at h
  · next d cs he =>
    split at h
    · cases hc <;> simp at h
    · obtain ⟨hv, rfl⟩ := Prod.mk.inj h
      obtain rfl := hc.of_lexemeAt (ok_of_mapError hv)
      rw [hc.lexemeAt_eq]
      exact ⟨he, rfl⟩

/-! ## Readers in other scripts -/

/-- The reader in the script `source` in which the text that `r` reads starts at
    the offset `d`, and is followed by `t`. -/
def embed (source : List Char) (d : Nat) (t : List Char) (r : LexemeReader) : LexemeReader :=
  { r with
    source := source
    cursor := (r.cursor.shift d).before t
    opening := (r.opening.shift d).before t
    stop := r.stop + d }

/-- A gap ends before a closing bracket, wherever it stands and whatever
    follows. -/
theorem skipGap_embed {c : Char} (hc : Inked c) (cur : Cursor) :
    ∃ gap : Cursor, ∀ d tail, ((cur.shift d).before (c :: tail)).skipGap =
      (gap.shift d).before (c :: tail) := by
  obtain ⟨gap, hgap⟩ := Cursor.skipGapFrom_before hc cur.place cur.rest
  refine ⟨gap, fun d tail => ?_⟩
  have h := Cursor.skipGapFrom_shift d cur.place (cur.rest ++ c :: tail)
  rw [hgap tail] at h
  exact h

/-- A lexeme that was read in another script is accepted there. -/
theorem accept_embed (source : List Char) (d : Nat) (t : List Char) (r : LexemeReader)
    (opening : Cursor) (c : Char) {l : Lexeme} (hl : l.verdict = .ok k) :
    (r.embed source d t).accept ((opening.shift d).before t) c ((l.shift d).before t) =
      (.ok k, (r.accept opening c l).2.embed source d t) := by
  have hv : ((l.shift d).before t).verdict = .ok k := hl
  rw [accept, hv]
  simp only [accept, hl]
  rfl

theorem passLineEnd_embed (source : List Char) (d : Nat) (t : List Char) (r : LexemeReader)
    (opening : Cursor) (c : Char) (rest : List Char) :
    (r.embed source d t).passLineEnd ((opening.shift d).before t) c (rest ++ t) =
      (r.passLineEnd opening c rest).embed source d t := by
  have hpast : ((opening.shift d).before t).place.past c = (opening.place.past c).shift d :=
    Place.shift_past d opening.place c
  rw [passLineEnd, hpast]
  rfl

variable {c : Char} {kc : Kind} {source tail : List Char} {d : Nat}

/-- What is read of a text before a closing bracket does not depend on the
    script that the text is part of. -/
theorem next_embed (hc : Closer c kc) (h : (r.embed source d (c :: tail)).next = (.ok k, r'))
    (hr : (c :: tail).length ≤ r'.cursor.rest.length) :
    ∃ r₁ : LexemeReader, ∀ source' d' tail',
      (r.embed source' d' (c :: tail')).next = (.ok k, r₁.embed source' d' (c :: tail')) := by
  obtain ⟨⟨place, rest⟩, hgap⟩ := skipGap_embed hc.inked r.cursor
  cases rest with
  | nil =>
    -- The bracket is the next lexeme, so it does not stay unread.
    rw [next_of_gap (hgap d tail), hc.inked.not_lineEnd, hc.lexemeAt_eq] at h
    obtain rfl := (Prod.mk.inj h).2
    exact absurd hr (Nat.not_succ_le_self _)
  | cons b u =>
    have hgap' (source' d' tail') : (r.embed source' d' (c :: tail')).cursor.skipGap =
      ⟨place.shift d', b :: (u ++ c :: tail')⟩ := hgap d' tail'
    have hnext (source' d' tail') := next_of_gap (hgap' source' d' tail')
    by_cases hb : isLineEnd b
    · simp only [hnext, hb, if_true] at h ⊢
      obtain rfl := Except.ok.inj (Prod.mk.inj h).1
      exact ⟨r.passLineEnd ⟨place, b :: u⟩ b u, fun source' d' tail' =>
        congrArg _ (passLineEnd_embed source' d' (c :: tail') r ⟨place, b :: u⟩ b u)⟩
    · -- A lexeme begins. First it is moved back to where the text starts; there it
      -- does not depend on what follows the bracket.
      have hloc := local_lexemeAt r.version r.lineIsBlank b
      have hshift (d' tail') : lexemeAt r.version r.lineIsBlank b
          ⟨(place.shift d').past b, u ++ c :: tail'⟩ =
            (lexemeAt r.version r.lineIsBlank b
              (Cursor.before (c :: tail') ⟨place.past b, u⟩)).shift d' := by
        rw [Place.shift_past]
        exact hloc.shift d' ⟨place.past b, u ++ c :: tail'⟩
      have hversion (source' d' tail') :
        (r.embed source' d' (c :: tail')).version = r.version := rfl
      have hblank (source' d' tail') :
        (r.embed source' d' (c :: tail')).lineIsBlank = r.lineIsBlank := rfl
      simp only [hnext, hb, Bool.false_eq_true, if_false, hversion, hblank, hshift] at h ⊢
      obtain ⟨hv, rfl⟩ := Prod.mk.inj h
      obtain ⟨l, hl⟩ := hloc.before hc hr
      simp only [hl] at hv ⊢
      have hlk : l.verdict = .ok k := ok_of_mapError hv
      exact ⟨(r.accept ⟨place, b :: u⟩ b l).2, fun source' d' tail' =>
        accept_embed source' d' (c :: tail') r ⟨place, b :: u⟩ b hlk⟩

/-- The bracket itself is read in every script, too. -/
theorem next_embed_closer (hc : Closer c kc)
    (h : (r.embed source d (c :: tail)).next = (.ok kc, r')) (ho : r'.opening.rest = c :: tail) :
    ∃ r₁ : LexemeReader, r₁.cursor.rest = [] ∧ ∀ source' d' tail',
      (r.embed source' d' (c :: tail')).next = (.ok kc, r₁.embed source' d' tail') := by
  obtain ⟨⟨place, rest⟩, hgap⟩ := skipGap_embed hc.inked r.cursor
  -- The bracket opens the lexeme, so the gap reaches up to it.
  have hrest : rest = [] := by
    have hopen : r'.opening = (r.embed source d (c :: tail)).cursor.skipGap := by
      rw [← opening_next, h]
    have hgap' : (r.embed source d (c :: tail)).cursor.skipGap =
      ⟨place.shift d, rest ++ c :: tail⟩ := hgap d tail
    rw [hopen, hgap'] at ho
    exact List.append_cancel_right ho
  subst hrest
  let l : Lexeme := ⟨.ok kc, (place.past c).offset, ⟨place.past c, []⟩, none⟩
  refine ⟨(r.accept ⟨place, [c]⟩ c l).2, rfl, fun source' d' tail' => ?_⟩
  have hgap' : (r.embed source' d' (c :: tail')).cursor.skipGap =
    ⟨place.shift d', c :: tail'⟩ := hgap d' tail'
  rw [next_of_gap hgap', hc.inked.not_lineEnd, hc.lexemeAt_eq, Place.shift_past]
  have hl : l.verdict = .ok kc := rfl
  exact accept_embed source' d' tail' r ⟨place, [c]⟩ c hl

/-- So is the rest of a regular expression that ends before the bracket. -/
theorem readRegExp_embed {equals : Bool} (hc : Closer c kc)
    (h : (r.embed source d (c :: tail)).readRegExp equals = (.ok (), r'))
    (hr : (c :: tail).length ≤ r'.cursor.rest.length) :
    ∃ r₁ : LexemeReader, ∀ source' d' tail',
      (r.embed source' d' (c :: tail')).readRegExp equals =
        (.ok (), r₁.embed source' d' (c :: tail')) := by
  have hrun (source' d' tail') : RegExp.recognizer.runFrom
      (if equals then .body ['='] false else .opening) (r.embed source' d' (c :: tail')).cursor =
        (RegExp.recognizer.runFrom (if equals then .body ['='] false else .opening)
          (r.cursor.before (c :: tail'))).shift d' :=
    RegExp.recognizer.runFrom_shift d' _ (r.cursor.before (c :: tail'))
  simp only [readRegExp, hrun] at h ⊢
  split at h
  · next l hl =>
    obtain rfl := (Prod.mk.inj h).2
    obtain ⟨o, ho⟩ := Recognizer.runFrom_before (RegExp.settles c) hc.inked hr
    have hol : o.verdict = .ok l := by
      rw [ho] at hl
      exact hl
    refine ⟨{ r with
      cursor := o.cursor, stop := o.cursor.offset, value := l.body, flags := l.flags },
      fun source' d' tail' => ?_⟩
    rw [ho, show ((o.before (c :: tail')).shift d').verdict = .ok l from hol]
    rfl
  · simp at h

end LexemeReader

end ScriptExcerpt
