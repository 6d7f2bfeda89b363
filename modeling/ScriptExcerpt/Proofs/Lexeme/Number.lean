import ScriptExcerpt.Proofs.Lexeme.Written

/-!
# Numbers as they are written

A number literal is decimal, with a fraction and an exponent if it has them, or the digits
of a base stand behind its prefix; a big integer ends in `n` (`Number.Literal.IsWritten`).
Single separators may stand between two digits. The literal is read whole where no letter,
digit, separator or point follows, and its value is its text without the separators, the
prefix and the `n`.

* `Number.Digits.carries`: a run of digits;
* `Number.Literal.IsWritten.begins`: a literal leads to a state that holds its value;
* `LexemeReader.next_number`: what a reader makes of a literal;
* `Number.failsOn_separator`: a separator at the end of a line.
-/

namespace ScriptExcerpt

open Text

/-! ## Digits -/

theorem Text.isAlphanum_of_isDigitOf {base : Nat} {c : Char} (h : isDigitOf base c) :
    c.isAlphanum := by
  obtain ⟨n, hn⟩ := Option.isSome_iff_exists.1 h
  obtain ⟨hvalue, -⟩ := Option.filter_eq_some_iff.1 hn
  rw [digitValue?] at hvalue
  -- A digit of ASCII, a small letter or a capital one.
  split at hvalue
  · next hc =>
    have hdigit : c.isDigit = true := hc
    exact Bool.or_eq_true_iff.2 (.inr hdigit)
  · split at hvalue
    · next hc =>
      have hlower : c.isLower = true := hc
      exact Bool.or_eq_true_iff.2 (.inl (Bool.or_eq_true_iff.2 (.inr hlower)))
    · split at hvalue
      · next hc =>
        rw [Bool.and_eq_true, decide_eq_true_eq, decide_eq_true_eq] at hc
        have hupper : c.isUpper = true := decide_eq_true hc
        exact Bool.or_eq_true_iff.2 (.inl (Bool.or_eq_true_iff.2 (.inl hupper)))
      · simp at hvalue

namespace Number

/-! ## The grammar -/

/-- What may stand behind a digit in a run of digits: more of them, and a separator before some
    of these. -/
inductive Further (base : Nat) : List Char → Prop
  | nil : Further base []
  | digit {c : Char} {cs : List Char} : isDigitOf base c → Further base cs →
    Further base (c :: cs)
  | separated {c : Char} {cs : List Char} : isDigitOf base c → Further base cs →
    Further base ('_' :: c :: cs)

/-- A run of digits, not empty, in which a single separator may stand between two digits. -/
inductive Digits (base : Nat) : List Char → Prop
  | mk {c : Char} {cs : List Char} : isDigitOf base c → Further base cs → Digits base (c :: cs)

/-- A zero, or digits of which the first is no zero. -/
inductive Whole : List Char → Prop
  | zero : Whole ['0']
  | digits {c : Char} {cs : List Char} : c ≠ '0' → isDigitOf 10 c → Further 10 cs →
    Whole (c :: cs)

/-- A decimal number without exponent. -/
inductive Mantissa : List Char → Prop
  | whole {w : List Char} : Whole w → Mantissa w
  | point {w : List Char} : Whole w → Mantissa (w ++ ['.'])
  | fraction {w d : List Char} : Whole w → Digits 10 d → Mantissa (w ++ '.' :: d)
  | bare {d : List Char} : Digits 10 d → Mantissa ('.' :: d)

/-- An exponent, or nothing. -/
inductive Exponent : List Char → Prop
  | nil : Exponent []
  | unsigned {e : Char} {d : List Char} : e = 'e' ∨ e = 'E' → Digits 10 d → Exponent (e :: d)
  | signed {e s : Char} {d : List Char} : e = 'e' ∨ e = 'E' → s = '+' ∨ s = '-' → Digits 10 d →
    Exponent (e :: s :: d)

/-- The letter behind a zero that makes it the prefix of a base. -/
inductive Marks (v : Version) : Char → Nat → Prop
  | hexadecimal {x : Char} : x = 'x' ∨ x = 'X' → Marks v x 16
  | octal {x : Char} : v = .es6 → x = 'o' ∨ x = 'O' → Marks v x 8
  | binary {x : Char} : v = .es6 → x = 'b' ∨ x = 'B' → Marks v x 2

/-- The parts of a number literal. -/
structure Literal where
  /-- The prefix of a base, if there is one. -/
  start : List Char
  /-- What the value is taken from. -/
  body : List Char
  /-- The `n` of a big integer, if there is one. -/
  mark : List Char

namespace Literal

/-- The text of the literal. -/
def text (l : Literal) : List Char :=
  l.start ++ (l.body ++ l.mark)

/-- The value of the literal: neither its prefix, nor its mark, nor any separator. -/
def value (l : Literal) : List Char :=
  l.body.filter (· ≠ '_')

/-- The literals of a version. -/
inductive IsWritten (v : Version) : Literal → Prop
  | decimal {m e : List Char} : Mantissa m → Exponent e → IsWritten v ⟨[], m ++ e, []⟩
  | based {x : Char} {base : Nat} {d : List Char} : Marks v x base → Digits base d →
    IsWritten v ⟨['0', x], d, []⟩
  | bigWhole {w : List Char} : v = .es6 → Whole w → IsWritten v ⟨[], w, ['n']⟩
  | bigBased {x : Char} {base : Nat} {d : List Char} : v = .es6 → Marks v x base →
    Digits base d → IsWritten v ⟨['0', x], d, ['n']⟩

end Literal

/-- The character goes on with no number. -/
structure IsBehind (d : Char) : Prop where
  not_alphanum : d.isAlphanum = false
  not_separator : d ≠ '_'
  not_point : d ≠ '.'
  not_invisible : isInvisible d = false

/-! ## Runs of digits -/

variable {v : Version} {base : Nat} {part : Part} {c : Char} {cs d m w x t : List Char}
  {s s' : State} {value : List Char}

theorem isDigitOf_mono {base' : Nat} (hle : base ≤ base') (h : isDigitOf base c) :
    isDigitOf base' c := by
  obtain ⟨n, hn⟩ := Option.isSome_iff_exists.1 h
  obtain ⟨hvalue, hlt⟩ := Option.filter_eq_some_iff.1 hn
  simp only [decide_eq_true_eq] at hlt
  exact Option.isSome_iff_exists.2
    ⟨n, Option.filter_eq_some_iff.2 ⟨hvalue, decide_eq_true (Nat.lt_of_lt_of_le hlt hle)⟩⟩

theorem ne_separator_of_isDigitOf (h : isDigitOf base c) : c ≠ '_' := by
  rintro rfl
  exact absurd h Bool.false_ne_true

/-- The states in which digits of a base may stand next, and what is read before them. -/
inductive TakesDigits : State → Nat → Part → List Char → Prop
  | digits (base : Nat) (part : Part) (value : List Char) :
    TakesDigits (.digits base part value) base part value
  | separator (base : Nat) (part : Part) (value : List Char) :
    TakesDigits (.separator base part value) base part value
  | basePrefix (base : Nat) : TakesDigits (.basePrefix base) base .whole []
  | lonePoint : TakesDigits .lonePoint 10 .fraction ['.']
  | point (value : List Char) : TakesDigits (.point value) 10 .fraction value
  | exponent (value : List Char) : TakesDigits (.exponent value) 10 .exponent value
  | sign (value : List Char) : TakesDigits (.sign value) 10 .exponent value

theorem TakesDigits.step_eq (h : TakesDigits s base part value) (hc : isDigitOf base c) :
    (recognizer v).step s c = .take (.digits base part (c :: value)) := by
  cases h with
  | exponent value =>
    -- Here a sign may stand, too.
    have hplus : c ≠ '+' := by rintro rfl; exact absurd hc Bool.false_ne_true
    have hminus : c ≠ '-' := by rintro rfl; exact absurd hc Bool.false_ne_true
    simp [recognizer, step, hc, hplus, hminus]
  | digits | separator | basePrefix | lonePoint | point | sign =>
    simp only [recognizer, step, hc, if_true]

/-- More digits go on with a run of digits. -/
theorem Further.carries (h : Further base cs) (part : Part) (value : List Char) :
    (recognizer v).Carries (.digits base part value) cs
      (.digits base part ((cs.filter (· ≠ '_')).reverse ++ value)) := by
  induction h generalizing value with
  | nil => exact .refl _ _
  | @digit c cs hc _ ih =>
    have hcarries := Recognizer.Carries.cons (plain_of_isDigitOf hc)
      ((TakesDigits.digits base part value).step_eq hc) (ih (c :: value))
    simpa [ne_separator_of_isDigitOf hc] using hcarries
  | @separated c cs hc _ ih =>
    have hprobe : (recognizer v).step (.digits base part value) '_' =
        .probe (.separator base part value) := rfl
    have hpair := Recognizer.Carries.probe ⟨rfl, rfl⟩ (plain_of_isDigitOf hc) hprobe
      ((TakesDigits.separator base part value).step_eq hc)
    simpa [ne_separator_of_isDigitOf hc] using hpair.trans (ih (c :: value))

/-- A run of digits is read where its first digit is taken. -/
theorem Digits.carries (h : Digits base d) (hs : TakesDigits s base part value) :
    (recognizer v).Carries s d (.digits base part ((d.filter (· ≠ '_')).reverse ++ value)) := by
  obtain ⟨hc, hcs⟩ := h
  have hcarries := Recognizer.Carries.cons (plain_of_isDigitOf hc) (hs.step_eq (v := v) hc)
    (hcs.carries part _)
  simpa [ne_separator_of_isDigitOf hc] using hcarries

/-! ## States in which a number may end -/

/-- The value of a number that ends in the state. -/
def State.value? : State → Option (List Char)
  | .zero => some ['0']
  | .octal value | .digits _ _ value | .bigInteger value | .point value => some value.reverse
  | .lonePoint | .basePrefix _ | .separator _ _ _ | .exponent _ | .sign _ => none

theorem IsBehind.ne (h : IsBehind c) {x : Char} (hx : x.isAlphanum) : c ≠ x := by
  rintro rfl
  exact absurd (h.not_alphanum.symm.trans hx) Bool.false_ne_true

theorem IsBehind.not_isDigitOf (h : IsBehind c) (base : Nat) : isDigitOf base c = false := by
  rw [← Bool.not_eq_true]
  exact fun hc => h.ne (isAlphanum_of_isDigitOf hc) rfl

/-- A number ends before what goes on with none. -/
theorem IsBehind.step_eq (h : IsBehind c) (hs : s.value? = some value) :
    (recognizer v).step s c = .stop (some value) := by
  have hdigit := h.not_isDigitOf
  have hbase : baseOf? v c = none := by
    simp [baseOf?, h.ne (x := 'x') rfl, h.ne (x := 'X') rfl, h.ne (x := 'o') rfl,
      h.ne (x := 'O') rfl, h.ne (x := 'b') rfl, h.ne (x := 'B') rfl]
  have hmark : isExponentMark c = false := by
    simp [isExponentMark, h.ne (x := 'e') rfl, h.ne (x := 'E') rfl]
  have hbehind (base : Nat) (value : List Char) :
      stepBehindWhole v base value c = .stop (some value.reverse) := by
    simp [stepBehindWhole, h.ne (x := 'n') rfl, h.not_point, hmark]
  cases s with
  | zero | octal | bigInteger | point =>
    obtain rfl := Option.some.inj hs
    simp [recognizer, step, hdigit, hbase, hmark, hbehind]
  | digits base part =>
    obtain rfl := Option.some.inj hs
    cases part <;> simp [recognizer, step, hdigit, h.not_separator, hmark, hbehind]
  | lonePoint | basePrefix | separator | exponent | sign => simp [State.value?] at hs

theorem endsBefore (hs : s.value? = some value) (ht : ∀ d ∈ t.head?, IsBehind d) :
    (recognizer v).EndsBefore s (some value) t := by
  cases t with
  | cons d t => exact ⟨(ht d rfl).not_invisible, (ht d rfl).step_eq hs⟩
  | nil =>
    cases s <;> simp_all [State.value?, Recognizer.EndsBefore, recognizer, atEnd]

/-! ## Literals -/

/-- From its first character on, the text leads to the state. -/
def Begins (v : Version) (x : List Char) (s : State) : Prop :=
  ∃ c w, x = c :: w ∧ (isDigitOf 10 c ∨ c = '.') ∧ (recognizer v).Carries (start c) w s

theorem Begins.append (h : Begins v x s) (hw : (recognizer v).Carries s w s') :
    Begins v (x ++ w) s' := by
  obtain ⟨c, u, rfl, hc, hu⟩ := h
  exact ⟨c, u ++ w, rfl, hc, hu.trans hw⟩

/-- The state holds a whole decimal number, and any character that is no digit, no separator
    and names no base is seen as what stands behind it. -/
structure HoldsWhole (v : Version) (s : State) (value : List Char) : Prop where
  value?_eq : s.value? = some value
  step_eq {c : Char} : isDigitOf 10 c = false → c ≠ '_' → baseOf? v c = none →
    (recognizer v).step s c = stepBehindWhole v 10 value.reverse c

theorem Whole.begins (h : Whole w) (v : Version) :
    ∃ s, Begins v w s ∧ HoldsWhole v s (w.filter (· ≠ '_')) := by
  cases h with
  | zero =>
    refine ⟨.zero, ⟨'0', [], rfl, .inl rfl, .refl _ _⟩, rfl, fun {c} hc _ hbase => ?_⟩
    have hoctal : isDigitOf 8 c = false := by
      rw [← Bool.not_eq_true] at hc ⊢
      exact fun hoctal => hc (isDigitOf_mono (by decide) hoctal)
    simp [recognizer, step, hbase, hc, hoctal]
  | @digits c cs hzero hc hcs =>
    have hpoint : c ≠ '.' := (start_of_isDigitOf_ten hc).2.1
    have hstart : start c = .digits 10 .whole [c] := by
      rw [start, if_neg hpoint, if_neg hzero]
    have hcarries := hcs.carries (v := v) .whole [c]
    rw [← hstart] at hcarries
    refine ⟨_, ⟨c, cs, rfl, .inl hc, hcarries⟩, ?_, fun {d} hd hseparator _ => ?_⟩
    · simp [State.value?, ne_separator_of_isDigitOf hc]
    · simp [recognizer, step, hd, hseparator, ne_separator_of_isDigitOf hc]

/-- The state holds a number behind which an exponent may stand. -/
structure HoldsMantissa (v : Version) (s : State) (value : List Char) : Prop where
  value?_eq : s.value? = some value
  step_eq {e : Char} : e = 'e' ∨ e = 'E' →
    (recognizer v).step s e = .take (.exponent (e :: value.reverse))

theorem HoldsWhole.holdsMantissa (h : HoldsWhole v s value) : HoldsMantissa v s value where
  value?_eq := h.value?_eq
  step_eq {e} he := by
    rcases he with rfl | rfl
    · rw [h.step_eq rfl (by decide) (by cases v <;> rfl)]
      cases v <;> rfl
    · rw [h.step_eq rfl (by decide) (by cases v <;> rfl)]
      cases v <;> rfl

theorem holdsMantissa_point (value : List Char) :
    HoldsMantissa v (.point value) value.reverse where
  value?_eq := rfl
  step_eq {e} he := by rcases he with rfl | rfl <;> rw [List.reverse_reverse] <;> rfl

theorem holdsMantissa_fraction (value : List Char) :
    HoldsMantissa v (.digits 10 .fraction value) value.reverse where
  value?_eq := rfl
  step_eq {e} he := by rcases he with rfl | rfl <;> rw [List.reverse_reverse] <;> rfl

/-- A point behind a whole number. -/
theorem HoldsWhole.carries_point (h : HoldsWhole v s value) :
    (recognizer v).Carries s ['.'] (.point ('.' :: value.reverse)) := by
  refine .single ⟨rfl, rfl⟩ ?_
  rw [h.step_eq rfl (by decide) (by cases v <;> rfl)]
  cases v <;> rfl

/-- The digits of a fraction, behind its point. -/
theorem Digits.carries_fraction (h : Digits 10 d) (hs : TakesDigits s 10 .fraction value) :
    ∃ s', (recognizer v).Carries s d s' ∧
      HoldsMantissa v s' (value.reverse ++ d.filter (· ≠ '_')) := by
  refine ⟨_, h.carries hs, ?_⟩
  simpa using holdsMantissa_fraction ((d.filter (· ≠ '_')).reverse ++ value)

theorem Mantissa.begins (h : Mantissa m) (v : Version) :
    ∃ s, Begins v m s ∧ HoldsMantissa v s (m.filter (· ≠ '_')) := by
  cases h with
  | whole hw =>
    obtain ⟨s, hbegins, hs⟩ := hw.begins v
    exact ⟨s, hbegins, hs.holdsMantissa⟩
  | @point w hw =>
    obtain ⟨s, hbegins, hs⟩ := hw.begins v
    refine ⟨_, hbegins.append hs.carries_point, ?_⟩
    simpa using holdsMantissa_point (v := v) ('.' :: (w.filter (· ≠ '_')).reverse)
  | @fraction w d hw hd =>
    obtain ⟨s, hbegins, hs⟩ := hw.begins v
    obtain ⟨s', hcarries, hs'⟩ := hd.carries_fraction (v := v) (.point _)
    refine ⟨s', by simpa using (hbegins.append hs.carries_point).append hcarries, ?_⟩
    simpa using hs'
  | @bare d hd =>
    obtain ⟨s', hcarries, hs'⟩ := hd.carries_fraction (v := v) .lonePoint
    exact ⟨s', ⟨'.', d, rfl, .inr rfl, hcarries⟩, by simpa using hs'⟩

/-- The exponent behind a mantissa. -/
theorem Exponent.carries {e : List Char} (h : Exponent e) (hs : HoldsMantissa v s value) :
    ∃ s', (recognizer v).Carries s e s' ∧ s'.value? = some (value ++ e.filter (· ≠ '_')) := by
  -- Both letters are visible, and are kept in the value.
  have hmark {e : Char} (he : e = 'e' ∨ e = 'E') : Plain e ∧ e ≠ '_' := by
    rcases he with rfl | rfl <;> exact ⟨⟨rfl, rfl⟩, by decide⟩
  cases h with
  | nil => exact ⟨s, .refl _ s, by simpa using hs.value?_eq⟩
  | @unsigned e d he hd =>
    have hdigits := hd.carries (v := v) (.exponent (e :: value.reverse))
    refine ⟨_, .cons (hmark he).1 (hs.step_eq he) hdigits, ?_⟩
    simp [State.value?, (hmark he).2]
  | @signed e sign d he hsign hd =>
    have hplain : Plain sign ∧ sign ≠ '_' := by
      rcases hsign with rfl | rfl <;> exact ⟨⟨rfl, rfl⟩, by decide⟩
    have hstep : (recognizer v).step (.exponent (e :: value.reverse)) sign =
        .take (.sign (sign :: e :: value.reverse)) := by
      rcases hsign with rfl | rfl <;> rfl
    have hdigits := hd.carries (v := v) (.sign (sign :: e :: value.reverse))
    refine ⟨_, .cons (hmark he).1 (hs.step_eq he) (.cons hplain.1 hstep hdigits), ?_⟩
    simp [State.value?, (hmark he).2, hplain.2]

/-- The digits behind the prefix of a base. -/
theorem Marks.begins {y : Char} (hy : Marks v y base) (hd : Digits base d) :
    Begins v ('0' :: y :: d) (.digits base .whole (d.filter (· ≠ '_')).reverse) ∧ base ≤ 16 := by
  have hstep : Plain y ∧ baseOf? v y = some base ∧ base ≤ 16 := by
    cases hy with
    | hexadecimal hy => rcases hy with rfl | rfl <;> exact ⟨⟨rfl, rfl⟩, rfl, by decide⟩
    | octal hv hy => subst hv; rcases hy with rfl | rfl <;> exact ⟨⟨rfl, rfl⟩, rfl, by decide⟩
    | binary hv hy => subst hv; rcases hy with rfl | rfl <;> exact ⟨⟨rfl, rfl⟩, rfl, by decide⟩
  obtain ⟨hplain, hbase, hle⟩ := hstep
  have hmark : (recognizer v).step .zero y = .take (.basePrefix base) := by
    simp only [recognizer, step, hbase]
  have hdigits := hd.carries (v := v) (.basePrefix base)
  rw [List.append_nil] at hdigits
  exact ⟨⟨'0', y :: d, rfl, .inl rfl, .cons hplain hmark hdigits⟩, hle⟩

/-- A literal leads to a state that holds its value. -/
theorem Literal.IsWritten.begins {l : Literal} (h : l.IsWritten v) :
    ∃ s, Begins v l.text s ∧ s.value? = some l.value := by
  cases h with
  | @decimal m e hm he =>
    obtain ⟨s, hbegins, hs⟩ := hm.begins v
    obtain ⟨s', hcarries, hvalue⟩ := he.carries hs
    exact ⟨s', by simpa [text] using hbegins.append hcarries, by simpa [value] using hvalue⟩
  | @based y base d hy hd =>
    refine ⟨_, by simpa [text] using (hy.begins hd).1, ?_⟩
    simp [State.value?, value]
  | @bigWhole w hv hw =>
    obtain ⟨s, hbegins, hs⟩ := hw.begins v
    have hstep : (recognizer v).step s 'n' = .take (.bigInteger (w.filter (· ≠ '_')).reverse) := by
      rw [hs.step_eq rfl (by decide) (by cases v <;> rfl), hv]
      rfl
    refine ⟨_, by simpa [text] using hbegins.append (.single ⟨rfl, rfl⟩ hstep), ?_⟩
    simp [State.value?, value]
  | @bigBased y base d hv hy hd =>
    obtain ⟨hbegins, hle⟩ := hy.begins hd
    have hdigit : isDigitOf base 'n' = false := by
      rw [← Bool.not_eq_true]
      exact fun hn => absurd (isDigitOf_mono hle hn) (by decide)
    have hstep : (recognizer v).step (.digits base .whole (d.filter (· ≠ '_')).reverse) 'n' =
        .take (.bigInteger (d.filter (· ≠ '_')).reverse) := by
      simp [recognizer, step, hdigit, stepBehindWhole, hv]
    refine ⟨_, by simpa [text] using hbegins.append (.single ⟨rfl, rfl⟩ hstep), ?_⟩
    simp [State.value?, value]

/-! ## Separators at the end of a line -/

/-- Behind a separator the line ends, or the script does. -/
theorem failsOn_separator (value : List Char) (ht : ∀ d ∈ t.head?, isLineEnd d) :
    (recognizer v).FailsOn (.digits base part value) ('_' :: t) separatorAtLineEnd := by
  intro p hp
  have hpast : (p.past '_').OnLine := Place.onLine_past _ rfl
  have hprobe : (recognizer v).step (.digits base part value) '_' =
      .probe (.separator base part value) := rfl
  have hvisible : isInvisible '_' = false := rfl
  rw [Recognizer.runFrom, Recognizer.run, if_neg (Place.not_completes_of_afterReturn hp '_'),
    hvisible, Bool.and_false, hprobe]
  cases t with
  | nil => rfl
  | cons d t =>
    have hline := ht d rfl
    have hfail : (recognizer v).step (.separator base part value) d = .fail separatorAtLineEnd := by
      simp [recognizer, step, hline, not_isDigitOf_of_isLineEnd hline]
    simp only [Bool.false_eq_true, if_false]
    rw [Recognizer.run, if_neg (hpast.not_completes d), isInvisible_of_isLineEnd hline,
      Bool.and_false, hfail]
    rfl

/-- The digits show that the base is ten: the first one is no zero, or one of them is none of
    base eight. -/
def IsDecimal (d : List Char) : Prop :=
  d.head? ≠ some '0' ∨ ∃ c ∈ d, c = '8' ∨ c = '9'

instance (d : List Char) : Decidable (IsDecimal d) :=
  have := List.decidableBEx (fun c => c = '8' ∨ c = '9') d
  inferInstanceAs (Decidable (d.head? ≠ some '0' ∨ ∃ c ∈ d, c = '8' ∨ c = '9'))

theorem isDigitOf_eight_iff (h : isDigitOf 10 c) : isDigitOf 8 c ↔ ¬ (c = '8' ∨ c = '9') := by
  obtain ⟨n, hn, rfl⟩ := eq_of_isDigitOf_ten h
  have hall : ∀ n < 10, isDigitOf 8 (Char.ofNat (48 + n)) ↔
      ¬ (Char.ofNat (48 + n) = '8' ∨ Char.ofNat (48 + n) = '9') := by
    decide
  exact hall n hn

/-- A digit behind a leading zero goes on with the octal number, or makes it a decimal one. -/
theorem step_octal_of_isDigitOf (hc : isDigitOf 10 c) (value : List Char) :
    (recognizer v).step (.octal value) c =
      .take (if isDigitOf 8 c then .octal (c :: value) else .digits 10 .whole (c :: value)) := by
  simp only [recognizer, step, hc, if_true]
  split <;> rfl

/-- Behind the zero itself it does the same. -/
theorem step_zero_of_isDigitOf (hc : isDigitOf 10 c) :
    (recognizer v).step .zero c = (recognizer v).step (.octal []) c := by
  have hbase : baseOf? v c = none := by
    obtain ⟨n, hn, rfl⟩ := eq_of_isDigitOf_ten hc
    have hall : ∀ v, ∀ n < 10, baseOf? v (Char.ofNat (48 + n)) = none := by
      intro v
      cases v <;> decide
    exact hall v n hn
  simp only [recognizer, step, hbase, hc, if_true]

/-- Digits of base eight go on with an octal number. -/
theorem carries_octal (hw : ∀ x ∈ w, isDigitOf 8 x) (value : List Char) :
    (recognizer v).Carries (.octal value) w (.octal (w.reverse ++ value)) := by
  have hstep : ∀ x ∈ w, ∀ u, (recognizer v).step (.octal u) x = .take (.octal (x :: u)) :=
    fun x hx u => by simp only [recognizer, step, hw x hx, if_true]
  exact .word (fun u => State.octal u) (fun x hx => plain_of_isDigitOf (hw x hx)) hstep value

/-- A digit that is none of base eight makes an octal number a decimal one. -/
theorem exists_carries_octal (hw : ∀ x ∈ w, isDigitOf 10 x) (h : ∃ x ∈ w, x = '8' ∨ x = '9')
    (value : List Char) :
    ∃ value', (recognizer v).Carries (.octal value) w (.digits 10 .whole value') := by
  induction w generalizing value with
  | nil => simp at h
  | cons x w ih =>
    obtain ⟨hx, hw⟩ := List.forall_mem_cons.1 hw
    have hstep := step_octal_of_isDigitOf (v := v) hx value
    have hplain := plain_of_isDigitOf hx
    by_cases hoctal : isDigitOf 8 x
    · rw [if_pos hoctal] at hstep
      have hrest : ∃ y ∈ w, y = '8' ∨ y = '9' := by
        simpa [(isDigitOf_eight_iff hx).1 hoctal] using h
      obtain ⟨value', hcarries⟩ := ih hw hrest (x :: value)
      exact ⟨value', .cons hplain hstep hcarries⟩
    · rw [if_neg hoctal] at hstep
      exact ⟨_, .cons hplain hstep (carries_digits hw (x :: value))⟩

/-- What is read of digits: a decimal number, which may go on with a separator, or an octal one,
    which ends before it. -/
theorem carries_or_stops (hc : isDigitOf 10 c) (hw : ∀ x ∈ w, isDigitOf 10 x) (v : Version) :
    (IsDecimal (c :: w) ∧
      ∃ value, (recognizer v).Carries (start c) w (.digits 10 .whole value)) ∨
      ¬ IsDecimal (c :: w) ∧ ∃ s value, (recognizer v).Carries (start c) w s ∧
        (recognizer v).step s '_' = .stop (some value) := by
  have hpoint : c ≠ '.' := (start_of_isDigitOf_ten hc).2.1
  by_cases hzero : c = '0'
  · subst hzero
    -- Behind the zero the number is octal, unless a digit shows something else.
    have hzero {y : Char} {u : List Char} {s : State} (hu : ∀ x ∈ y :: u, isDigitOf 10 x)
        (h : (recognizer v).Carries (.octal []) (y :: u) s) :
        (recognizer v).Carries (start '0') (y :: u) s :=
      have hy := hu y List.mem_cons_self
      .of_step_eq (plain_of_isDigitOf hy) (step_zero_of_isDigitOf hy) h
    by_cases hlarge : ∃ x ∈ w, x = '8' ∨ x = '9'
    · obtain ⟨value, hcarries⟩ := exists_carries_octal (v := v) hw hlarge []
      obtain ⟨x, hx, hlarge⟩ := hlarge
      obtain ⟨y, u, rfl⟩ := List.exists_cons_of_ne_nil (List.ne_nil_of_mem hx)
      exact .inl ⟨.inr ⟨x, List.mem_cons_of_mem _ hx, hlarge⟩, value, hzero hw hcarries⟩
    · have hdecimal : ¬ IsDecimal ('0' :: w) := by
        simpa [IsDecimal] using hlarge
      refine .inr ⟨hdecimal, ?_⟩
      rcases w with _ | ⟨y, u⟩
      · exact ⟨.zero, ['0'], .refl _ _, by cases v <;> rfl⟩
      · have hoctal : ∀ x ∈ y :: u, isDigitOf 8 x := fun x hx =>
          (isDigitOf_eight_iff (hw x hx)).2 fun he => hlarge ⟨x, hx, he⟩
        exact ⟨_, _, hzero hw (carries_octal hoctal []), by cases v <;> rfl⟩
  · have hstart : start c = .digits 10 .whole [c] := by
      rw [start, if_neg hpoint, if_neg hzero]
    exact .inl ⟨.inl (by simpa using hzero), _, hstart ▸ carries_digits hw [c]⟩

end Number

/-! ## Readers -/

namespace LexemeReader

/-- A literal is read whole, wherever it stands in a script, before what goes on with no
    number. -/
theorem next_number {v : Version} {l : Number.Literal} (hl : l.IsWritten v) (before : List Char)
    {rest : List Char} (hrest : ∀ d ∈ rest.head?, Number.IsBehind d) :
    let r := (startingAt (before ++ (l.text ++ rest)) (byteLength before) v).next
    r.1 = .ok .number ∧ r.2.lexeme = l.text ∧ r.2.value = l.value ∧ r.2.cursor.rest = rest := by
  obtain ⟨s, ⟨c, w, htext, hc, hcarries⟩, hs⟩ := hl.begins
  have hinked : Inked c := by
    rcases hc with hc | rfl
    · exact (start_of_isDigitOf_ten hc).2.2
    · decide
  have hcursor : (startingAt (before ++ (l.text ++ rest)) (byteLength before) v).cursor =
      ⟨.atOffset (byteLength before), c :: (w ++ rest)⟩ := by
    rw [startingAt, Cursor.startingAt_append, htext]
    rfl
  obtain ⟨r', hnext, hr'⟩ := next_of_takes hinked (congrArg Cursor.rest hcursor)
    (congrArg (Place.afterReturn ∘ Cursor.place) hcursor)
    (lexemeAt_of_carries hc hcarries (Number.endsBefore hs hrest)
      (Place.onLine_past _ hinked.not_lineEnd))
  intro r
  have hr : r = _ := hnext
  rw [hr, htext]
  exact ⟨rfl, hr'.lexeme_eq, hr'.value, hr'.rest_eq (congrArg Cursor.rest hcursor)⟩

/-- A binary big integer is read whole, behind an assignment and before a semicolon. -/
theorem next_number_binary :
    let l : Number.Literal := ⟨"0b".toList, "1_0".toList, ['n']⟩
    let r := (startingAt "a=0b1_0n;".toList 2 .es6).next
    l.IsWritten .es6 ∧ (∀ d ∈ ";".toList.head?, Number.IsBehind d) ∧
      r.1 = .ok .number ∧ r.2.lexeme = "0b1_0n".toList ∧ r.2.value = "10".toList ∧
        r.2.cursor.rest = [';'] := by
  intro l r
  have hl : l.IsWritten .es6 :=
    .bigBased rfl (.binary rfl (.inl rfl)) (.mk rfl (.separated rfl .nil))
  have hrest : ∀ d ∈ ";".toList.head?, Number.IsBehind d := by
    rintro d ⟨⟩
    exact ⟨rfl, by decide, by decide, rfl⟩
  exact ⟨hl, hrest, next_number hl "a=".toList hrest⟩

end LexemeReader

end ScriptExcerpt
