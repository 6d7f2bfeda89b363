import ScriptExcerpt.Proofs.Lexeme.CommentOpening
import ScriptExcerpt.Proofs.Lexeme.Tape

/-!
# What is given back

A character that was given back may be the first one of the next lexeme, which gives back
characters itself. Only a number, a symbol that is no comment, and a beginning of `<!--` leave more
than one character, and what they leave is read as symbols, or as a name behind which one character
is left (`Settled`). So there is room on a tape whatever is read (`Tape.Fit`).

* `Manner.Careful`: each recognizer looks ahead no further than these (`lookaheads`).
* `fit_tapeLexemeAt`: a lexeme leaves a tape fit for the next one.
* `TapeReader.fit_behind`: so does whatever is read of a script.
* `TapeReader.objections_of_goes_behind`: nothing is objected to, not on the way either.
-/

namespace ScriptExcerpt

open Text

theorem Kind.not_isSlash_of_isWord {k : Kind} (h : k.isWord) : k.isSlash = false := by
  cases k <;> first | rfl | exact absurd h Bool.false_ne_true

/-! ## Fit tapes -/

/-- Nothing but the last one of the characters that are given back is the first one of a lexeme that
    gives back what is told next: the others are read as symbols, or as a name behind which there is
    one character. -/
def Settled (cs : List Char) : Prop :=
  ∀ c rest, c :: rest <:+ cs → rest = [] ∨ c = '!' ∨ c = '-' ∨ c = '_' ∧ rest.length ≤ 1

theorem Settled.of_suffix {cs ds : List Char} (h : Settled cs) (hds : ds <:+ cs) : Settled ds :=
  fun c rest hc => h c rest (hc.trans hds)

/-- What is read ahead of a lexeme, the last character first. -/
def lookaheads : List (List Char) := [[], ['_'], ['!'], ['-', '!']]

theorem length_lt_of_lookahead : ∀ ahead ∈ lookaheads, ahead.length < Tape.depth := by decide

theorem not_mem_of_lookahead : ∀ ahead ∈ lookaheads, '\n' ∉ ahead := by decide

theorem settled_of_lookahead {c ahead : List Char} (hc : c.length ≤ 1) (ha : ahead ∈ lookaheads) :
    Settled (c ++ ahead).reverse := by
  intro d rest hd
  simp only [lookaheads, List.mem_cons, List.not_mem_nil, or_false] at ha
  rcases c with _ | ⟨c, _ | ⟨c', c⟩⟩
  · rcases ha with rfl | rfl | rfl | rfl <;> simp [List.suffix_cons_iff] at hd ⊢ <;> grind
  · rcases ha with rfl | rfl | rfl | rfl <;> simp [List.suffix_cons_iff] at hd ⊢ <;> grind
  · simp at hc

/-- Nothing was objected to, and what was given back is settled. -/
structure Tape.Fit (t : Tape) : Prop where
  balanced : t.Balanced
  objections : t.objections = []
  settled : Settled t.chars

variable {σ ρ ε : Type} {M : Recognizer σ ρ ε} {m : Manner σ} {P : σ → List Char → Prop} {s : σ}
  {t : Tape}

theorem Tape.Fit.holds (h : t.Fit) : t.Holds [] :=
  ⟨h.balanced, h.objections, List.nil_prefix, by simpa using h.balanced.length_givenBack⟩

/-- A recognizer that reads ahead no more than these characters leaves a tape fit. -/
theorem Tape.Fit.drive (ht : t.Fit) (hM : m.Careful M P) (hP : P s [])
    (hahead : ∀ s ahead, P s ahead → ahead ∈ lookaheads)
    (hguard : ∀ s, m.guarded s → t.givenBack.length ≤ 1) (taken : Nat) :
    (M.drive m s [] taken t).tape.Fit := by
  have hrun : M.Drives m s [] taken t _ := Recognizer.drives_of_holds hM hP ht.holds hguard
  have hholds := hrun.holds hM hP ht.holds
  refine ⟨hholds.balanced, hholds.objections, ?_⟩
  rcases hrun.chars hM hP t.since_chars with h | ⟨s, ahead, c, hs, hc, h⟩
  · exact ht.settled.of_suffix h
  · rw [h]
    exact settled_of_lookahead hc (hahead s ahead hs)

/-! ## Lookaheads -/

/-- Most recognizers read nothing ahead. -/
theorem Manner.careful_nil (hprobe : ∀ s c u, M.step s c ≠ .probe u)
    (hlooks : ∀ s, m.looksBehind s = 0) : m.Careful M fun _ ahead => ahead = [] where
  take _ _ := rfl
  probe _ h := absurd h (hprobe _ _ _)
  length_lt := by
    rintro _ _ rfl
    decide
  not_mem := by
    rintro _ _ rfl
    exact List.not_mem_nil
  stop _ h hne _ := absurd h hne
  refuse _ h hne _ := absurd h hne
  looksBehind _ := hlooks _

theorem Name.careful : Name.manner.Careful Name.recognizer fun _ ahead => ahead = [] := by
  refine Manner.careful_nil (fun s c u => ?_) fun _ => rfl
  cases s <;> simp only [recognizer, step] <;> grind

theorem Quotation.careful (quote : Char) :
    Quotation.manner.Careful (Quotation.recognizer quote) fun _ ahead => ahead = [] := by
  have htext (decoded : CodeUnit.Decoder) (c : Char) (u : State) :
      stepText quote decoded c ≠ .probe u := by
    rw [stepText]
    grind
  refine Manner.careful_nil (fun s c u => ?_) fun _ => rfl
  cases s <;> simp only [recognizer, step] <;> grind

theorem Comment.careful_line :
    Comment.lineManner.Careful Comment.lineRecognizer fun _ ahead => ahead = [] := by
  refine Manner.careful_nil (fun s c u => ?_) fun _ => rfl
  simp only [lineRecognizer]
  grind

theorem Comment.careful_block :
    Comment.blockManner.Careful Comment.blockRecognizer fun _ ahead => ahead = [] := by
  refine Manner.careful_nil (fun s c u => ?_) fun _ => rfl
  simp only [blockRecognizer]
  grind

theorem RegExp.careful : RegExp.manner.Careful RegExp.recognizer fun _ ahead => ahead = [] := by
  have hbody (text : List Char) (inClass : Bool) (c : Char) (u : State) :
      stepBody text inClass c ≠ .probe u := by
    rw [stepBody]
    grind
  refine Manner.careful_nil (fun s c u => ?_) fun _ => rfl
  cases s <;> simp only [recognizer, step] <;> grind

/-- A separator is read ahead of a number. -/
def Number.ahead : Number.State → List Char
  | .separator _ _ _ => ['_']
  | _ => []

theorem Number.ahead_start (c : Char) : ahead (start c) = [] := by
  rw [start]
  split
  · rfl
  · split <;> rfl

theorem Number.ahead_mem_lookaheads (s : State) : ahead s ∈ lookaheads := by
  cases s <;> simp [ahead, lookaheads]

theorem Number.ahead_of_take {v : Version} {s u : State} {c : Char}
    (h : (recognizer v).step s c = .take u) : ahead u = [] := by
  cases s <;> simp only [recognizer, step, stepBehindWhole] at h <;> grind [ahead]

theorem Number.ahead_of_probe {v : Version} {s u : State} {c : Char}
    (h : (recognizer v).step s c = .probe u) : c = '_' ∧ ahead s = [] ∧ ahead u = ['_'] := by
  cases s <;> simp only [recognizer, step, stepBehindWhole] at h <;> grind [ahead]

/-- The line does not end behind a separator. -/
theorem Number.not_isLineEnd_of_ahead {v : Version} {s : State} {c : Char} {r : Option (List Char)}
    (h : (recognizer v).step s c = .stop r) (hs : ahead s ≠ []) : isLineEnd c = false := by
  cases s with
  | separator base part value =>
    simp only [recognizer, step] at h
    grind
  | _ => exact absurd rfl hs

theorem Number.careful (v : Version) :
    Number.manner.Careful (Number.recognizer v) fun s ahead => ahead = Number.ahead s where
  take _ h := (ahead_of_take h).symm
  probe := by
    rintro s u _ c rfl h
    obtain ⟨rfl, hs, hu⟩ := ahead_of_probe h
    exact ⟨rfl, by rw [hs, hu]⟩
  length_lt h := length_lt_of_lookahead _ (h ▸ ahead_mem_lookaheads _)
  not_mem h := not_mem_of_lookahead _ (h ▸ ahead_mem_lookaheads _)
  stop := by
    rintro s _ c r - rfl hs h
    exact not_isLineEnd_of_ahead h hs
  refuse := by
    rintro s _ c e - rfl hs h
    cases s <;> simp only [recognizer, step, stepBehindWhole] at h <;> grind
  looksBehind _ := rfl

namespace Operator

/-- What is read ahead where `<!--` is tried. -/
def ahead (text : List Char) : List Char :=
  if text = ['<', '!'] then ['!'] else if text = ['<', '!', '-'] then ['-', '!'] else []

/-- The characters `cs`, the last one first, were read ahead of a symbol that starts with `c₀`. -/
structure Ahead (c₀ : Char) (s : State) (cs : List Char) : Prop where
  head : s.text.head? = some c₀
  eq : cs = ahead s.text
  kind : s.kind.isTrivia = false

variable {v : Version} {lineIsBlank : Bool} {c c₀ : Char} {s u : State} {text cs : List Char}
  {k : Kind}

/-- Behind a character that is taken, the text is a spelling which a longer one begins with. -/
theorem of_take {table : List (List Char × Kind)} (h : (recognizer table).step s c = .take u) :
    u.text = s.text ++ [c] ∧ kindOf? table u.text = some u.kind ∧ extends? table u.text := by
  simp only [recognizer, step] at h
  grind

/-- Behind one that is tried, it is only the beginning of one. -/
theorem of_probe {table : List (List Char × Kind)} (h : (recognizer table).step s c = .probe u) :
    u.text = s.text ++ [c] ∧ u.kind = s.kind ∧ kindOf? table u.text = none ∧
      extends? table u.text := by
  simp only [recognizer, step] at h
  grind

/-- Without its last character, a symbol is what it was before. -/
theorem kind_of_stop {table : List (List Char × Kind)}
    (h : (recognizer table).step s c = .stop k) : k = s.kind := by
  simp only [recognizer, step] at h
  grind

theorem kind_of_atEnd {table : List (List Char × Kind)}
    (h : (recognizer table).atEnd s = .accept k ∨ (recognizer table).atEnd s = .back k) :
    k = s.kind := by
  simp only [recognizer, atEnd] at h
  grind

/-- Only the beginnings of `<!--` are no symbols. -/
theorem eq_of_extends (hne : text ≠ []) (h : kindOf? (spellings v lineIsBlank) text = none)
    (hlong : extends? (spellings v lineIsBlank) text) :
    text = ['<', '!'] ∨ text = ['<', '!', '-'] := by
  have hall : ∀ p ∈ spellings v lineIsBlank, ∀ n < p.1.length, n ≠ 0 →
      kindOf? (spellings v lineIsBlank) (p.1.take n) = none →
        p.1.take n = ['<', '!'] ∨ p.1.take n = ['<', '!', '-'] := by
    cases v <;> cases lineIsBlank <;> decide +kernel
  obtain ⟨p, hp, hbegins, hlt⟩ := extends?_iff.1 hlong
  have htake := List.prefix_iff_eq_take.1 hbegins
  rw [htake] at h ⊢
  exact hall p hp _ hlt (by simpa using hne) h

theorem ahead_of_kindOf? (h : kindOf? (spellings v lineIsBlank) text = some k) :
    ahead text = [] := by
  have hall : ∀ p ∈ spellings v lineIsBlank, ahead p.1 = [] := by
    cases v <;> cases lineIsBlank <;> decide
  exact hall _ (mem_of_kindOf? h)

theorem ahead_mem_lookaheads (text : List Char) : ahead text ∈ lookaheads := by
  rw [ahead]
  split
  · decide
  · split <;> decide

theorem Ahead.head?_append (h : Ahead c₀ s cs) (c : Char) : (s.text ++ [c]).head? = some c₀ := by
  rw [List.head?_append, h.head, Option.some_or]

theorem Ahead.take (h : Ahead c₀ s cs)
    (hstep : (recognizer (spellings v lineIsBlank)).step s c = .take u) : Ahead c₀ u [] := by
  obtain ⟨htext, hk, hlong⟩ := of_take hstep
  refine ⟨htext ▸ h.head?_append c, (ahead_of_kindOf? hk).symm, ?_⟩
  -- No spelling goes on behind what opens a comment.
  rw [← Bool.not_eq_true]
  intro htrivia
  have hnot := not_extends_of_mem (v := v) (mem_commentOpenings htrivia hk)
  exact absurd (hlong.symm.trans hnot) (by decide)

/-- What is read ahead grows by a character of `<!--`. -/
theorem ahead_append (h : text ++ [c] = ['<', '!'] ∨ text ++ [c] = ['<', '!', '-']) :
    isLineEnd c = false ∧ c :: ahead text = ahead (text ++ [c]) := by
  have hsplit {w : List Char} {d : Char} (hw : text ++ [c] = w ++ [d]) : text = w ∧ c = d := by
    obtain ⟨ht, hc⟩ := List.append_inj' hw rfl
    exact ⟨ht, List.singleton_inj.1 hc⟩
  rcases h with h | h
  · obtain ⟨rfl, rfl⟩ := hsplit (w := ['<']) h
    decide
  · obtain ⟨rfl, rfl⟩ := hsplit (w := ['<', '!']) h
    decide

theorem Ahead.probe (h : Ahead c₀ s cs)
    (hstep : (recognizer (spellings v lineIsBlank)).step s c = .probe u) :
    isLineEnd c = false ∧ Ahead c₀ u (c :: cs) := by
  obtain ⟨htext, hkind, hk, hlong⟩ := of_probe hstep
  have hgrown := eq_of_extends (by simp [htext]) hk hlong
  rw [htext] at hgrown
  obtain ⟨hline, hahead⟩ := ahead_append hgrown
  exact ⟨hline, htext ▸ h.head?_append c, by rw [h.eq, hahead, htext], hkind ▸ h.kind⟩

theorem careful (v : Version) (lineIsBlank : Bool) (c₀ : Char) :
    (manner v lineIsBlank).Careful (recognizer (spellings v lineIsBlank)) (Ahead c₀) where
  take := Ahead.take
  probe := Ahead.probe
  length_lt h := length_lt_of_lookahead _ (h.eq ▸ ahead_mem_lookaheads _)
  not_mem h := not_mem_of_lookahead _ (h.eq ▸ ahead_mem_lookaheads _)
  stop := nofun
  refuse := nofun
  looksBehind := nofun

/-- Behind a slash, nothing is read ahead. -/
theorem Ahead.eq_nil (h : Ahead '/' s cs) : cs = [] := by
  have hne (cs : List Char) : s.text ≠ '<' :: cs := fun hs => by
    have hhead := h.head
    simp [hs] at hhead
  rw [h.eq, ahead, if_neg (hne _), if_neg (hne _)]

theorem eq_slash_of_isSlash {rest : List Char} (h : (c :: rest, k) ∈ spellings v lineIsBlank)
    (hk : k.isSlash) : c = '/' := by
  have hall : ∀ p ∈ spellings v lineIsBlank, p.2.isSlash → p.1.head? = some '/' := by
    cases v <;> cases lineIsBlank <;> decide
  exact Option.some.inj (hall _ h hk)

end Operator

/-! ## Lexemes leave a tape fit -/

theorem Tape.Fit.drive_nil (ht : t.Fit) (hM : m.Careful M fun _ ahead => ahead = [])
    (hguard : ∀ s, m.guarded s → t.givenBack.length ≤ 1) (s : σ) (taken : Nat) :
    (M.drive m s [] taken t).tape.Fit := by
  refine ht.drive hM rfl (fun _ ahead h => ?_) hguard taken
  rw [h]
  decide

section Fit

variable {v : Version} {lineIsBlank : Bool} {c : Char} {skips ignores : Bool}

namespace Tape.Fit

variable {t' : Tape} {r : Read}

/-- Reading takes off what was given back, the last character of it last. -/
theorem read (ht : t.Fit) (skips ignores : Bool) : (t.read skips ignores).2.Fit := by
  rcases h : t.read skips ignores with ⟨_ | c, t'⟩
  · have hends := ends_read h
    refine ⟨ht.balanced.ends hends, hends.objections.trans ht.objections, ?_⟩
    exact ht.settled.of_suffix (by simp [chars, hends.givenBack.2])
  · obtain ⟨r, -, hr⟩ := tells_read h
    exact ⟨ht.balanced.tells hr, hr.objections.trans ht.objections,
      ht.settled.of_suffix (t.since_chars.tells hr).chars⟩

/-- What was told can be given back. -/
theorem putBack_eq (ht : t.Fit) (hr : t.Tells r t') :
    t'.putBack false (some r.char) = t'.rewind [r] := by
  have hholds := ht.holds.tells (by decide) hr
  exact Tape.putBackAll_eq hholds.balanced hholds.recent hholds.length_le (by simp)

theorem rewind (ht : t.Fit) (hr : t.Tells r t') : (t'.rewind [r]).Fit := by
  have hholds := (ht.holds.tells (by decide) hr).rewind
  refine ⟨hholds.balanced, hholds.objections, ?_⟩
  rcases (t.since_chars.tells hr).rewind with hchars | hchars
  · exact ht.settled.of_suffix hchars
  · have hsettled : Settled ([r.char] ++ []).reverse :=
      settled_of_lookahead (Nat.le_refl _) (by decide)
    rw [hchars]
    exact hsettled

/-- Trying a character changes nothing but what is read. -/
theorem readIf (ht : t.Fit) (d : Char) : (t.readIf d).2.Fit := by
  have hfit := ht.read true true
  rcases h : t.read true true with ⟨_ | c, t'⟩ <;> rw [h] at hfit
  · simpa [Tape.readIf, h, (ends_read h).putBack] using hfit
  · obtain ⟨r, rfl, hr⟩ := tells_read h
    simp only [Tape.readIf, h, ht.putBack_eq hr]
    split
    · exact hfit
    · exact ht.rewind hr

end Tape.Fit

namespace TapeLexeme

/-- A lexeme was read off a tape, which it leaves fit. Behind a slash, no more than one character
    was given back. -/
structure Fit (l : TapeLexeme) : Prop where
  tape : l.tape.Fit
  slash {k} : l.verdict = .ok k → k.isSlash → l.tape.givenBack.length ≤ 1

theorem Fit.error {f : Fault} {stop : Nat} {value : Option (List Char)} (ht : t.Fit) :
    (TapeLexeme.mk (.error f) stop t value).Fit :=
  ⟨ht, by simp⟩

/-- The kind of a lexeme that starts with no slash. -/
theorem Fit.ok {k : Kind} {stop : Nat} {value : Option (List Char)} (ht : t.Fit)
    (hk : k.isSlash = false) : (TapeLexeme.mk (.ok k) stop t value).Fit :=
  ⟨ht, fun h hslash => by simp [← Except.ok.inj h, hk] at hslash⟩

theorem fit_name (ht : t.Fit) (hback : t.givenBack.length ≤ 1) : (name v c t).Fit := by
  have hfit := ht.drive_nil Name.careful (fun _ _ => hback) (Name.start c) t.offset
  rw [name]
  split
  · exact .ok hfit (Kind.not_isSlash_of_isWord (Name.isWord_kind ..))
  · exact .error hfit

theorem fit_number (ht : t.Fit) (hback : t.givenBack.length ≤ 1) : (number v c t).Fit := by
  have hfit := ht.drive (Number.careful v) (Number.ahead_start c).symm
    (fun s ahead h => h ▸ Number.ahead_mem_lookaheads s) (fun _ _ => hback) t.offset
  rw [number]
  split
  · exact .ok hfit rfl
  · exact .ok hfit rfl
  · exact .error hfit

theorem fit_quotation (ht : t.Fit) (hback : t.givenBack.length ≤ 1) : (quotation c t).Fit := by
  have hfit := ht.drive_nil (Quotation.careful c) (fun _ _ => hback) (.text .empty) t.offset
  rw [quotation]
  split
  · refine .ok hfit ?_
    split <;> rfl
  · exact .error hfit

theorem Fit.comment {ρ : Type} {o : Except Fault ρ} {k : Kind} {stop : Nat} (ht : t.Fit)
    (hk : k.isSlash = false) : (TapeLexeme.mk (o.map fun _ => k) stop t none).Fit := by
  cases o with
  | ok r => exact .ok ht hk
  | error f => exact .error ht

theorem fit_lineComment (ht : t.Fit) (hback : t.givenBack.length ≤ 1) : (lineComment t).Fit :=
  .comment (ht.drive_nil Comment.careful_line (fun _ _ => hback) () t.offset) rfl

theorem fit_blockComment (ht : t.Fit) : (blockComment t).Fit :=
  .comment ((ht.readIf '*').drive_nil Comment.careful_block nofun _ _) rfl

theorem fit_afterOperator {start : Nat} {o : TapeOutcome Kind Fault} (ho : o.tape.Fit)
    (hback : ∀ {k}, o.verdict = .ok k → k.isTrivia ∨ k.isSlash → o.tape.givenBack.length ≤ 1) :
    (afterOperator start o).Fit := by
  rw [afterOperator]
  split
  · next hk => exact fit_lineComment ho (hback hk (.inl rfl))
  · exact fit_blockComment ho
  · next k _ _ hk =>
    refine ⟨ho, fun h hslash => ?_⟩
    obtain rfl := Except.ok.inj h
    exact hback hk (.inr hslash)
  · exact .error ho

section Longest

variable {k₀ k : Kind}

theorem ahead_start (hc : Operator.kindOf? (Operator.spellings v lineIsBlank) [c] = some k₀) :
    Operator.Ahead c ⟨[c], k₀⟩ [] :=
  ⟨rfl, by simp [Operator.ahead], Operator.isTrivia_of_kindOf?_singleton hc⟩

theorem drives_longest (ht : t.Fit)
    (hc : Operator.kindOf? (Operator.spellings v lineIsBlank) [c] = some k₀) :
    (Operator.recognizer (Operator.spellings v lineIsBlank)).Drives (Operator.manner v lineIsBlank)
      ⟨[c], k₀⟩ [] t.offset t (longest v lineIsBlank c k₀ t) :=
  Recognizer.drives_of_holds (Operator.careful v lineIsBlank c) (ahead_start hc) ht.holds nofun

theorem fit_longest (ht : t.Fit)
    (hc : Operator.kindOf? (Operator.spellings v lineIsBlank) [c] = some k₀) :
    (longest v lineIsBlank c k₀ t).tape.Fit :=
  ht.drive (Operator.careful v lineIsBlank c) (ahead_start hc)
    (fun s _ h => h.eq ▸ Operator.ahead_mem_lookaheads s.text) nofun t.offset

/-- The last character of an opening is read, and nothing is given back behind it. -/
theorem length_le_of_isTrivia (ht : t.Fit) (hback : t.givenBack.length < Tape.depth)
    (hc : Operator.kindOf? (Operator.spellings v lineIsBlank) [c] = some k₀)
    (hk : (longest v lineIsBlank c k₀ t).verdict = .ok k) (htrivia : k.isTrivia) :
    (longest v lineIsBlank c k₀ t).tape.givenBack.length ≤ 1 := by
  have hle := (drives_longest ht hc).length_le (Operator.careful v lineIsBlank c) (ahead_start hc)
    (Q := fun k => k.isTrivia = false) (fun hs h => Operator.kind_of_stop h ▸ hs.kind)
    (fun hs h => Operator.kind_of_atEnd h ▸ hs.kind) hk (by simp [htrivia])
  exact Nat.le_trans hle (Nat.sub_le_of_le_add (Nat.le_of_lt_succ hback))

/-- Behind a slash, nothing but the character that shows its end is given back. -/
theorem length_le_of_isSlash (ht : t.Fit) (hslash : c = '/' → t.givenBack = [])
    (hc : Operator.kindOf? (Operator.spellings v lineIsBlank) [c] = some k₀)
    (hk : (longest v lineIsBlank c k₀ t).verdict = .ok k) (hisSlash : k.isSlash) :
    (longest v lineIsBlank c k₀ t).tape.givenBack.length ≤ 1 := by
  have hrun := drives_longest ht hc
  obtain ⟨rest, hrest⟩ := (hrun.ensures (Operator.ensures _ c)
    ⟨⟨_, rfl⟩, _, Operator.mem_of_kindOf? hc⟩).ok hk
  obtain rfl := Operator.eq_slash_of_isSlash hrest hisSlash
  have hlength (t : Tape) : t.chars.length = t.givenBack.length := by simp [Tape.chars]
  rw [← hlength]
  rcases hrun.chars (Operator.careful v lineIsBlank '/') (ahead_start hc) t.since_chars with
    hchars | ⟨s, ahead, d, hs, hd, hchars⟩
  · have hle := hchars.length_le
    rw [hlength t, hslash rfl] at hle
    exact Nat.le_trans hle (Nat.zero_le _)
  · rwa [hchars, hs.eq_nil, List.append_nil, List.length_reverse]

end Longest

theorem fit_symbol (ht : t.Fit) (hback : t.givenBack.length < Tape.depth)
    (hslash : c = '/' → t.givenBack = []) : (symbol v lineIsBlank c t).Fit := by
  rw [symbol]
  split
  · exact .error ht
  · next k₀ hc =>
    split
    · exact fit_afterOperator (fit_longest ht hc) fun hk hkind =>
        hkind.elim (length_le_of_isTrivia ht hback hc hk) (length_le_of_isSlash ht hslash hc hk)
    · refine ⟨ht, fun h hisSlash => ?_⟩
      obtain rfl := Except.ok.inj h
      rw [hslash (Operator.eq_slash_of_isSlash (Operator.mem_of_kindOf? hc) hisSlash)]
      exact Nat.zero_le _

end TapeLexeme

/-- The tape stands behind the character `c`, which was given back before what is given back yet, if
    that is anything. -/
structure Tape.FitBehind (c : Char) (t : Tape) : Prop where
  fit : t.Fit
  settled : t.givenBack ≠ [] → Settled (c :: t.chars)
  length_lt : t.givenBack.length < Tape.depth

/-- Only three characters stand before what is given back. -/
theorem Tape.FitBehind.cases (h : t.FitBehind c) :
    t.givenBack = [] ∨ c = '!' ∨ c = '-' ∨ c = '_' ∧ t.givenBack.length ≤ 1 := by
  by_cases hback : t.givenBack = []
  · exact .inl hback
  · refine (h.settled hback c t.chars (List.suffix_refl _)).imp (fun hnil => ?_) fun hc => ?_
    · simpa [chars] using hnil
    · simpa [chars] using hc

theorem Tape.FitBehind.length_le (h : t.FitBehind c) (hbang : c ≠ '!') (hdash : c ≠ '-') :
    t.givenBack.length ≤ 1 := by
  rcases h.cases with h | h | h | ⟨-, h⟩
  · simp [h]
  · exact absurd h hbang
  · exact absurd h hdash
  · exact h

theorem Tape.FitBehind.length_le_of_name (h : t.FitBehind c) (hc : c = '\\' || isNameStart c) :
    t.givenBack.length ≤ 1 := by
  refine h.length_le ?_ ?_ <;> (rintro rfl; revert hc; decide)

theorem Tape.FitBehind.length_le_of_number (h : t.FitBehind c) (hc : isDigitOf 10 c || c = '.') :
    t.givenBack.length ≤ 1 := by
  refine h.length_le ?_ ?_ <;> (rintro rfl; revert hc; decide)

theorem Tape.FitBehind.eq_nil_of_quote (h : t.FitBehind c) (hc : isQuote c) :
    t.givenBack = [] := by
  refine h.cases.resolve_right ?_
  rintro (rfl | rfl | ⟨rfl, -⟩) <;> exact absurd hc (by decide)

theorem fit_tapeLexemeAt (ht : t.FitBehind c) : (tapeLexemeAt v lineIsBlank c t).Fit := by
  rw [tapeLexemeAt]
  split
  · next hname => exact TapeLexeme.fit_name ht.fit (ht.length_le_of_name hname)
  · split
    · next hnumber => exact TapeLexeme.fit_number ht.fit (ht.length_le_of_number hnumber)
    · split
      · next hquote =>
        exact TapeLexeme.fit_quotation ht.fit (by simp [ht.eq_nil_of_quote hquote])
      · refine TapeLexeme.fit_symbol ht.fit ht.length_lt fun hc => ?_
        subst hc
        simpa using ht.cases

/-- Behind a character that was read. -/
theorem Tape.Fit.behind {t' : Tape} (ht : t.Fit) (h : t.read skips ignores = (some c, t')) :
    t'.FitBehind c := by
  have hfit := ht.read skips ignores
  rw [h] at hfit
  obtain ⟨r, rfl, hr⟩ := tells_read h
  refine ⟨hfit, fun hne => ?_, hr.length_lt ht.balanced⟩
  rcases hr.source with ⟨hback, -⟩ | ⟨-, hback, -⟩
  · have hchars : t.chars = r.char :: t'.chars := by simp [chars, hback]
    exact hchars ▸ ht.settled
  · exact absurd hback hne

theorem Tape.Fit.readInk (ht : t.Fit) :
    t.readInk.2.Fit ∧ ∀ c, t.readInk.1 = some c → t.readInk.2.FitBehind c := by
  fun_induction Tape.readInk t with
  | case1 t t' h =>
    have hfit := ht.read true false
    rw [h] at hfit
    exact ⟨hfit, by simp⟩
  | case2 t c t' h hblank ih => exact ih (ht.behind h).fit
  | case3 t c t' h hblank =>
    refine ⟨(ht.behind h).fit, fun d hd => ?_⟩
    exact Option.some.inj hd ▸ ht.behind h

end Fit

/-! ## Nothing is objected to -/

namespace TapeReader

variable {r : TapeReader}

/-- What the next lexeme leaves. -/
theorem fit_next (hr : r.tape.Fit) : r.next.2.tape.Fit ∧
    ∀ k, r.next.1 = .ok k → k.isSlash → r.next.2.tape.givenBack.length ≤ 1 := by
  obtain ⟨hfit, hbehind⟩ := hr.readInk
  rw [next]
  split
  · next t h =>
    rw [h] at hfit
    exact ⟨hfit, fun k hk hslash => by simp [← Except.ok.inj hk, Kind.isSlash] at hslash⟩
  · next c t h =>
    rw [h] at hbehind
    have ht := hbehind c rfl
    split
    · exact ⟨ht.fit, fun k hk hslash => by simp [← Except.ok.inj hk, Kind.isSlash] at hslash⟩
    · have hl : (tapeLexemeAt r.version r.lineIsBlank c t).Fit := fit_tapeLexemeAt ht
      exact ⟨hl.tape, fun k hk hslash => hl.slash (ok_of_mapError hk) hslash⟩

/-- Behind a slash, so does the rest of a regular expression. -/
theorem fit_readRegExp (hr : r.tape.Fit) (hback : r.tape.givenBack.length ≤ 1) (equals : Bool) :
    (r.readRegExp equals).2.tape.Fit := by
  have hfit := hr.drive_nil RegExp.careful (fun _ _ => hback)
    (if equals then .body ['='] false else .opening) r.tape.offset
  rw [readRegExp]
  split <;> exact hfit

theorem fit_turn (hr : r.tape.Fit) (regExp : Bool) : (r.turn regExp).tape.Fit := by
  obtain ⟨hfit, hslash⟩ := fit_next hr
  rw [turn]
  split
  · next k hk =>
    split
    · next h =>
      exact fit_readRegExp hfit (hslash k hk (Bool.and_eq_true_iff.1 h).2) _
    · exact hfit
  · exact hfit

theorem fit_behind (hr : r.tape.Fit) (turns : List Bool) : (r.behind turns).tape.Fit := by
  induction turns generalizing r with
  | nil => exact hr
  | cons regExp turns ih => exact ih (fit_turn hr regExp)

/-- Nothing is objected to, whatever turns are taken: not behind them, and not on any tape that was
    between. -/
theorem objections_of_goes_behind (hr : r.tape.Fit) (turns : List Bool)
    (h : t.Goes (r.behind turns).tape) : t.objections = [] := by
  have hnoted := h.objections
  rw [(fit_behind hr turns).objections] at hnoted
  exact List.prefix_nil.1 hnoted

theorem fit_startingAt (source : List Char) (n : Nat) (v : Version) :
    (startingAt source n v).tape.Fit where
  balanced := Tape.balanced_startingAt source n
  objections := rfl
  settled c rest hc := by simp [startingAt, Tape.startingAt, Tape.chars] at hc

end TapeReader

end ScriptExcerpt
