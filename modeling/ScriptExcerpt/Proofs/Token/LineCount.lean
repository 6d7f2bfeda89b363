import ScriptExcerpt.Proofs.Again
import ScriptExcerpt.Proofs.Token.History
import ScriptExcerpt.Proofs.Token.Suffix

/-!
# More lines than can be counted

The number of a line has 32 bits, so behind 2 ^ 32 line ends the count is where it was before them.
Of the text before a brace, that is all that is told by the tokens from the brace on: layouts that
lead to lines of the same number may stand for each other. A short script thus tells the tokens of
one in which more lines end than can be counted.

* `Place.look_through_newlines`: the place behind a run of newlines.
* `LexemeReader.nextSignificant_layout`, `LexemeReader.nextSignificant_brace`: a brace is read
  behind any layout, one character of it after the other.
* `TokenStream.tokens_brace`: one layout before a brace stands for another.
* `tokenize_return_brace`: the same for a script that starts with a return.
-/

namespace ScriptExcerpt

open Text

/-! ## Layouts -/

/-- The text stands between lexemes: nothing is in it but line ends, blanks and invisible
    characters. -/
def Text.IsLayout (cs : List Char) : Prop :=
  ∀ c ∈ cs, isLineEnd c || (isBlank c || isInvisible c)

instance (cs : List Char) : Decidable (IsLayout cs) :=
  List.decidableBAll (fun c => isLineEnd c || (isBlank c || isInvisible c)) cs

theorem Text.isLayout_newlines (n : Nat) : IsLayout (List.replicate n '\n') := by
  intro c hc
  obtain rfl := List.eq_of_mem_replicate hc
  rfl

theorem Text.byteLength_newlines (n : Nat) : byteLength (List.replicate n '\n') = n := by
  induction n with
  | zero => rfl
  | succ n ih =>
    rw [List.replicate_succ, byteLength, ih]
    exact Nat.add_comm 1 n

/-- Behind `n` newlines the line is `n` lines further on, as far as it can be counted. -/
theorem Place.look_through_newlines {p : Place} (h : p.afterReturn = false) (n : Nat) :
    (p.through (List.replicate n '\n')).look =
      ⟨p.offset + n, p.look.line + .ofNat n, false, false⟩ := by
  induction n generalizing p with
  | zero =>
    obtain ⟨offset, line, owed, ret⟩ := p
    obtain rfl : ret = false := h
    exact congrArg (Place.mk offset · false false) (UInt32.add_zero _).symm
  | succ n ih =>
    have hline : (p.past '\n').look.line + .ofNat n = p.look.line + .ofNat (n + 1) := by
      rw [line_look_past, UInt32.ofNat_add, UInt32.add_comm (.ofNat n), ← UInt32.add_assoc]
      rfl
    rw [List.replicate_succ, through, if_neg (not_completes_of_afterReturn h _), ih rfl, hline]
    exact congrArg (Place.mk · _ _ _) (Nat.add_right_comm p.offset 1 n)

/-- The place behind a text that starts with newlines. -/
theorem Place.look_through_newlines_append {p : Place} (h : p.afterReturn = false) (n : Nat)
    (u : List Char) : (p.through (List.replicate n '\n' ++ u)).look =
      (through ⟨p.offset + n, p.look.line + .ofNat n, false, false⟩ u).look := by
  rw [through_append, ← look_through_look, look_through_newlines h]

/-! ## Readers -/

namespace LexemeReader

variable {r r' : LexemeReader} {u cs : List Char}

/-- The reader behind an opening brace that stands at the place `p`, before the text `cs`. -/
def passBrace (r : LexemeReader) (p : Place) (cs : List Char) : LexemeReader :=
  { r with
    cursor := ⟨p.past '\x7b', cs⟩
    lineIsBlank := false
    opening := ⟨p, '\x7b' :: cs⟩
    stop := (p.past '\x7b').offset }

/-- Before a brace, a character of a layout leaves nothing but the place behind it. -/
theorem nextSignificant_layout {d : Char} (hd : isLineEnd d || (isBlank d || isInvisible d))
    (hrest : r.cursor.rest = d :: cs) :
    ∃ r₁ : LexemeReader, r.nextSignificant = r₁.nextSignificant ∧ r₁.cursor.rest = cs ∧
      (∀ u, r₁.cursor.place.through u = r.cursor.place.through (d :: u)) ∧
      r₁.passBrace = r.passBrace := by
  by_cases hc : r.cursor.place.completes d
  · -- The newline belongs to the line end before it.
    have hskip : r.cursor.skipGap = (⟨r.cursor.place.complete, cs⟩ : Cursor).skipGap := by
      rw [Cursor.skipGap, hrest]
      exact if_pos hc
    refine ⟨_, nextSignificant_of_skipGap _ hskip, rfl, fun u => ?_, rfl⟩
    rw [Place.through, if_pos hc]
  · have hthrough (u : List Char) :
        (r.cursor.place.past d).through u = r.cursor.place.through (d :: u) := by
      rw [Place.through, if_neg hc]
    cases hline : isLineEnd d with
    | true =>
      -- A line end is a lexeme of its own.
      have hskip : r.cursor.skipGap = ⟨r.cursor.place.look, d :: cs⟩ := by
        rw [Cursor.skipGap, hrest]
        exact Cursor.skipGapFrom_of_not_gap hc (not_gap_of_isLineEnd hline) _
      have hnext := next_of_gap hskip
      rw [hline, if_pos rfl] at hnext
      exact ⟨_, nextSignificant_of_next hnext, rfl, hthrough, rfl⟩
    | false =>
      rw [hline, Bool.false_or] at hd
      have hskip : r.cursor.skipGap = (⟨r.cursor.place.past d, cs⟩ : Cursor).skipGap := by
        rw [Cursor.skipGap, hrest]
        exact (if_neg hc).trans (if_pos hd)
      exact ⟨_, nextSignificant_of_skipGap _ hskip, rfl, hthrough, rfl⟩

/-- A brace is read behind any layout, and tells of it nothing but its place. -/
theorem nextSignificant_brace (hu : IsLayout u) (hrest : r.cursor.rest = u ++ '\x7b' :: cs) :
    r.nextSignificant =
      (.ok (.symbol .openCurly), r.passBrace (r.cursor.place.through u).look cs) := by
  induction u generalizing r with
  | nil =>
    have hc : ¬ r.cursor.place.completes '\x7b' := by simp [Place.completes]
    have hskip : r.cursor.skipGap = ⟨r.cursor.place.look, '\x7b' :: cs⟩ := by
      rw [Cursor.skipGap, hrest]
      exact Cursor.skipGapFrom_of_not_gap hc rfl cs
    have hlexeme (v : Version) (lineIsBlank : Bool) (behind : Cursor) :
        lexemeAt v lineIsBlank '\x7b' behind =
          ⟨.ok (.symbol .openCurly), behind.offset, behind, none⟩ := by
      cases v <;> cases lineIsBlank <;> rfl
    have hnext := next_of_gap hskip
    rw [hlexeme] at hnext
    exact nextSignificant_of_next hnext
  | cons d u ih =>
    obtain ⟨hd, hu⟩ := List.forall_mem_cons.1 hu
    obtain ⟨r₁, hsig, hrest₁, hplace, hbrace⟩ := nextSignificant_layout hd hrest
    rw [hsig, ih hu hrest₁, hplace, hbrace]

/-- The readers know the same of what they have read, wherever they stand. -/
structure Akin (r r' : LexemeReader) : Prop where
  version : r'.version = r.version
  value : r'.value = r.value
  flags : r'.flags = r.flags

theorem Akin.passBrace (h : Akin r r') (d : Nat) (p : Place) (cs : List Char) :
    r'.passBrace (p.shift d) cs = (r.passBrace p cs).shift r'.source d := by
  rw [LexemeReader.passBrace, Place.shift_past, h.version, h.value, h.flags]
  rfl

end LexemeReader

/-! ## Streams -/

namespace TokenStream

variable {s s' : TokenStream} {source u u' cs : List Char} {d : Nat} {ts : List Token}

/-- Streams that tell the same next, `d` bytes further on, and leave the same, tell the same to the
    end. -/
theorem tokens_of_shiftedAnswer
    (hanswer : ShiftedAnswer s.reader.source source d (Token.shift d) s.next.1 s'.next.1)
    (hstream : s'.next.2 = s.next.2.shift source d) (h : s.tokens = .ok ts) :
    s'.tokens = .ok (ts.map (Token.shift d)) := by
  rcases hn' : s'.next with ⟨y, s₁'⟩
  fun_induction tokens s generalizing s' ts y s₁' with
  | case1 | case3 => simp at h
  | case2 s t s₁ hn ht hb =>
    obtain rfl := Except.ok.inj h
    rw [hn, hn'] at hanswer hstream
    cases hanswer with
    | ok =>
      obtain rfl : s₁' = s₁.shift source d := hstream
      rw [tokens_of_token hn']
      exact (if_pos ht).trans (if_pos hb)
  | case4 s t s₁ hn ht ih =>
    rw [hn, hn'] at hanswer hstream
    cases hanswer with
    | ok =>
      obtain rfl : s₁' = s₁.shift source d := hstream
      rcases h₁ : s₁.tokens with p | us
      · simp [h₁, Except.map] at h
      · obtain ⟨hanswer₁, hstream₁⟩ := next_shift source d s₁
        have hrest := ih hanswer₁ hstream₁ h₁ _ _ rfl
        rw [h₁] at h
        obtain rfl := Except.ok.inj h
        have ht' : (t.shift d).kind ≠ .endOfInput := ht
        rw [tokens_of_token hn', if_neg ht', hrest]
        rfl

theorem next_brace (hu : IsLayout u) (hrest : s.reader.cursor.rest = u ++ '\x7b' :: cs) :
    s.next = s.enter (s.reader.passBrace (s.reader.cursor.place.through u).look cs)
      (.symbol .openCurly) := by
  have hsig := LexemeReader.nextSignificant_brace hu hrest
  rw [next_eq_read, read_of_nextSignificant hsig rfl]

/-- Behind layouts that lead to places on the same line, a brace and all that follows it is told the
    same, `d` bytes further on. -/
theorem tokens_brace (hu : IsLayout u) (hu' : IsLayout u') (hreader : s.reader.Akin s'.reader)
    (hbooks : s'.grouping = s.grouping) (hrest : s.reader.cursor.rest = u ++ '\x7b' :: cs)
    (hrest' : s'.reader.cursor.rest = u' ++ '\x7b' :: cs)
    (hplace : (s'.reader.cursor.place.through u').look =
      (s.reader.cursor.place.through u).look.shift d)
    (h : s.tokens = .ok ts) : s'.tokens = .ok (ts.map (Token.shift d)) := by
  have hnext := next_brace hu hrest
  have hnext' := next_brace hu' hrest'
  rw [hplace, hreader.passBrace] at hnext'
  have hanswer : ShiftedAnswer s.reader.source s'.reader.source d (Token.shift d) s.next.1
      s'.next.1 := by
    rw [hnext, hnext', enter, enter]
    simp only [hbooks]
    rw [Grouping.enter, Grouping.enter, token_shift]
    exact .ok _
  have hstream : s'.next.2 = s.next.2.shift s'.reader.source d := by
    rw [hnext, hnext', enter, enter, hbooks]
    rfl
  exact tokens_of_shiftedAnswer hanswer hstream h

/-! ## Behind a return -/

/-- The stream behind a return at the start of a script, before the text `t`. -/
def behindReturn (v : Version) (t : List Char) : TokenStream where
  reader :=
    { source := "return".toList ++ t
      version := v
      cursor := ⟨⟨6, 0, false, false⟩, t⟩
      lineIsBlank := false
      opening := ⟨.atOffset 0, "return".toList ++ t⟩
      stop := 6
      value := "return".toList
      flags := [] }
  grouping := ⟨[⟨.keyword .return, 0, none⟩], [], []⟩

theorem next_return (v : Version) {t : List Char} (ht : Apart t) :
    (ofSource ("return".toList ++ t) v).next =
      (.ok ⟨.keyword .return, "return", ⟨0, 6⟩⟩, behindReturn v t) := by
  have hnext : (ofSource ("return".toList ++ t) v).reader.next =
      (.ok (.keyword .return), (behindReturn v t).reader) := by
    rcases ht with rfl | ⟨d, t, rfl, rfl | rfl⟩ <;> cases v <;> rfl
  have hsig := LexemeReader.nextSignificant_of_next hnext
  rw [next_eq_read, read_of_nextSignificant hsig rfl]
  rcases ht with rfl | ⟨d, t, rfl, rfl | rfl⟩ <;> rfl

end TokenStream

/-- Behind a return and layouts that lead to places on the same line, a brace and all that follows
    it is told the same, `d` bytes further on. -/
theorem tokenize_return_brace {v : Version} {u u' cs : List Char} {d : Nat} {ts : List Token}
    (hu : IsLayout u) (hu' : IsLayout u') (ha : Apart (u ++ '\x7b' :: cs))
    (ha' : Apart (u' ++ '\x7b' :: cs))
    (hplace : ((Place.atOffset 6).through u').look = ((Place.atOffset 6).through u).look.shift d)
    (h : tokenize ("return".toList ++ (u ++ '\x7b' :: cs)) v =
      .ok (⟨.keyword .return, "return", ⟨0, 6⟩⟩ :: ts)) :
    tokenize ("return".toList ++ (u' ++ '\x7b' :: cs)) v =
      .ok (⟨.keyword .return, "return", ⟨0, 6⟩⟩ :: ts.map (Token.shift d)) := by
  have hreturn {t : List Char} (ht : Apart t) : tokenize ("return".toList ++ t) v =
      (TokenStream.behindReturn v t).tokens.map (⟨.keyword .return, "return", ⟨0, 6⟩⟩ :: ·) := by
    rw [tokenize, TokenStream.tokens_of_token (TokenStream.next_return v ht), if_neg (by simp)]
  rw [hreturn ha] at h
  rcases h₁ : (TokenStream.behindReturn v (u ++ '\x7b' :: cs)).tokens with p | us
  · simp [h₁, Except.map] at h
  · rw [h₁] at h
    obtain rfl := (List.cons.inj (Except.ok.inj h)).2
    have hreader : (TokenStream.behindReturn v (u ++ '\x7b' :: cs)).reader.Akin
        (TokenStream.behindReturn v (u' ++ '\x7b' :: cs)).reader := ⟨rfl, rfl, rfl⟩
    rw [hreturn ha', TokenStream.tokens_brace hu hu' hreader rfl rfl rfl hplace h₁]
    rfl

end ScriptExcerpt
