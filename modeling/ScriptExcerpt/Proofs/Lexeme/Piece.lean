import ScriptExcerpt.Proofs.CodeUnit
import ScriptExcerpt.Proofs.Run

/-!
# Pieces of quotations

Between its quotes a literal is made of pieces (`Quotation.Piece`): characters
that stand for themselves, line ends, and what a backslash opens. Inside an
escape invisible characters are passed over, and some escapes are open: they go
on as long as the characters behind them allow.

* `Quotation.goes_escape`, `Quotation.goes_piece`: one piece is read;
* `Quotation.run_pieces`: pieces that fit are read, up to the closing quote.
-/

namespace ScriptExcerpt

open Text Text.CodeUnit

/-! ## Digits -/

/-- A digit of a base. -/
structure Digit (base : Nat) where
  /-- Its character. -/
  char : Char
  /-- It is one. -/
  isDigit : isDigitOf base char

namespace Digit

variable {base : Nat}

/-- The value of a digit. -/
def value (d : Digit base) : Nat :=
  (digitOf? base d.char).get d.isDigit

theorem digitOf?_char (d : Digit base) : digitOf? base d.char = some d.value :=
  (Option.some_get d.isDigit).symm

theorem value_lt (d : Digit base) : d.value < base := by
  have h := d.digitOf?_char
  rw [digitOf?, Option.filter_eq_some_iff] at h
  simpa using h.2

/-- The text of digits. -/
def text (ds : List (Digit base)) : List Char :=
  ds.map char

/-- The number that digits write behind the number `n`. -/
def numberFrom (n : Nat) (ds : List (Digit base)) : Nat :=
  ds.foldl (fun n d => base * n + d.value) n

/-- The number that digits write. -/
def number (ds : List (Digit base)) : Nat :=
  numberFrom 0 ds

theorem number_append (ds ds' : List (Digit base)) :
    number (ds ++ ds') = numberFrom (number ds) ds' :=
  List.foldl_append

theorem le_numberFrom (hbase : 0 < base) (n : Nat) (ds : List (Digit base)) :
    n ≤ numberFrom n ds := by
  induction ds generalizing n with
  | nil => exact Nat.le_refl n
  | cons d ds ih =>
    calc n
      _ ≤ base * n := Nat.le_mul_of_pos_left n hbase
      _ ≤ base * n + d.value := Nat.le_add_right _ _
      _ ≤ numberFrom n (d :: ds) := ih _

theorem not_isLineEnd (d : Digit base) : isLineEnd d.char = false := by
  rw [← Bool.not_eq_true]
  intro h
  exact absurd d.isDigit (by rw [not_isDigitOf_of_isLineEnd h]; exact Bool.false_ne_true)

theorem not_return (d : Digit base) : (d.char == '\r') = false :=
  ne_return_of_not_isLineEnd d.not_isLineEnd

end Digit

theorem Text.not_isInvisible_of_isDigitOf {base : Nat} {c : Char} (h : isDigitOf base c) :
    isInvisible c = false := by
  have hle : c.toNat < 0x80 := by
    obtain ⟨n, hn⟩ := Option.isSome_iff_exists.1 h
    obtain ⟨hvalue, -⟩ := Option.filter_eq_some_iff.1 hn
    have hlt (d : Char) (hd : d.toNat < 0x80) (hc : c ≤ d) : c.toNat < 0x80 :=
      Nat.lt_of_le_of_lt (toNat_le_of_le hc) hd
    simp only [digitValue?, Bool.and_eq_true, decide_eq_true_eq] at hvalue
    split at hvalue
    · next hc => exact hlt _ (by decide) hc.2
    · split at hvalue
      · next hc => exact hlt _ (by decide) hc.2
      · split at hvalue
        · next hc => exact hlt _ (by decide) hc.2
        · simp at hvalue
  rw [← Bool.not_eq_true]
  intro hinv
  have hge := (toNat_of_isInvisible hinv).1
  omega

namespace Quotation

/-! ## Escapes -/

/-- The character `c` behind a backslash stands for another one or for itself. -/
structure IsSingle (c : Char) : Prop where
  not_unicode : c ≠ 'u'
  not_byte : c ≠ 'x'
  not_lineEnd : isLineEnd c = false
  not_octal : isDigitOf 8 c = false
  not_invisible : isInvisible c = false

/-- The digits are those of an octal escape: up to three, which write a number below 256. -/
structure IsOctal (ds : List (Digit 8)) : Prop where
  ne_nil : ds ≠ []
  length_le : ds.length ≤ 3
  number_lt : Digit.number ds < 256

namespace IsOctal

variable {ds more : List (Digit 8)} {d : Decoder} {a : Digit 8} {quote c : Char}

theorem of_append (h : IsOctal (ds ++ more)) (hds : ds ≠ []) : IsOctal ds where
  ne_nil := hds
  length_le := Nat.le_trans (by simp) h.length_le
  number_lt := by
    refine Nat.lt_of_le_of_lt ?_ h.number_lt
    rw [Digit.number_append]
    exact Digit.le_numberFrom (by decide) _ _

/-- One more digit belongs to the escape as long as the number stays below 256. -/
theorem append_iff :
    IsOctal (ds ++ [a]) ↔ ds.length < 3 ∧ Digit.number ds ≤ 31 := by
  have ha := a.value_lt
  have hn : Digit.number (ds ++ [a]) = 8 * Digit.number ds + a.value := by
    rw [Digit.number_append]
    rfl
  constructor
  · intro happend
    have hlength := happend.length_le
    have hnumber := happend.number_lt
    rw [hn] at hnumber
    simp at hlength
    omega
  · rintro ⟨hlength, hnumber⟩
    exact ⟨by simp, by rw [List.length_append]; exact hlength, by omega⟩

theorem singleton (a : Digit 8) : IsOctal [a] := by
  have ha := a.value_lt
  refine ⟨by simp, by simp, ?_⟩
  rw [Digit.number, Digit.numberFrom, List.foldl_cons, List.foldl_nil]
  omega

/-- A single digit is less than eight. -/
theorem count_iff (h : IsOctal ds) : ds.length < 3 ∧ Digit.number ds ≤ 31 ↔
    ds.length = 1 ∨ ds.length = 2 ∧ Digit.number ds ≤ 31 := by
  have hlength := h.length_le
  match ds, h.ne_nil with
  | [b], _ =>
    have hb := b.value_lt
    simp [Digit.number, Digit.numberFrom]
    omega
  | _ :: _ :: _, _ =>
    rw [List.length_cons, List.length_cons]
    omega

end IsOctal

/-- What stands behind a backslash, except for a line end. -/
inductive Escape
  /-- A character that stands for another one or for itself. -/
  | single (c : Char) (h : IsSingle c)
  /-- `u` and four digits. -/
  | unicode (ds : List (Digit 16)) (h : ds.length = 4)
  /-- `x` and two digits. If there are less, they stand for themselves, and so does `x`. -/
  | byte (ds : List (Digit 16)) (h : ds.length ≤ 2)
  /-- Up to three octal digits. -/
  | octal (ds : List (Digit 8)) (h : IsOctal ds)

namespace Escape

/-- What is visible of the escape. -/
def text : Escape → List Char
  | single c _ => [c]
  | unicode ds _ => 'u' :: Digit.text ds
  | byte ds _ => 'x' :: Digit.text ds
  | octal ds _ => Digit.text ds

/-- The escape is over only where the next character does not belong to it. -/
def isOpen : Escape → Bool
  | single _ _ | unicode _ _ => false
  | byte ds _ => ds.length < 2
  | octal _ _ => true

/-- The character `c` behind the escape would belong to it. -/
def GoesOn (c : Char) : Escape → Prop
  | single _ _ | unicode _ _ => False
  | byte ds _ => ds.length < 2 ∧ isDigitOf 16 c
  | octal ds _ => ∃ a : Digit 8, a.char = c ∧ IsOctal (ds ++ [a])

/-- The escape, written as `w`, ends before the character `next`. -/
def EndsBefore (next : Char) (w : List Char) (e : Escape) : Prop :=
  if e.isOpen then isInvisible next = false ∧ ¬ e.GoesOn next
  else ∀ c ∈ w.getLast?, isInvisible c = false

theorem EndsBefore.of_append {e : Escape} {next : Char} {u w : List Char}
    (h : e.EndsBefore next (u ++ w)) : e.EndsBefore next w := by
  rw [EndsBefore] at h ⊢
  split
  · next hopen => rwa [if_pos hopen] at h
  · next hopen =>
    rw [if_neg hopen] at h
    intro c hc
    have hc : w.getLast? = some c := hc
    exact h c (by simp [hc])

/-- The code units that the escape stands for. -/
def units : Escape → List UInt16
  | single c _ => ofChar ((controlOf? c).getD c)
  | unicode ds _ | octal ds _ => [(Digit.number ds).toUInt16]
  | byte ds _ =>
    if ds.length = 2 then [(Digit.number ds).toUInt16] else encode ('x' :: Digit.text ds)

end Escape

/-! ## Pieces -/

/-- The text is a line end. -/
def IsLineEnd (e : List Char) : Prop :=
  e = ['\r', '\n'] ∨ ∃ c, e = [c] ∧ isLineEnd c

/-- A piece of what stands between the quotes of a literal. -/
inductive Piece
  /-- A character that stands for itself. -/
  | char (c : Char)
  /-- A line end of a template. -/
  | lineEnd (e : List Char)
  /-- A backslash before a line end, with invisible characters around that. -/
  | continuation (before e behind : List Char)
  /-- A backslash, and an escape with invisible characters in it. -/
  | escape (e : Escape) (written : List Char)

namespace Piece

/-- The text of the piece. -/
def text : Piece → List Char
  | char c => [c]
  | lineEnd e => e
  | continuation before e behind => '\\' :: (before ++ (e ++ behind))
  | escape _ written => '\\' :: written

/-- The code units that the piece stands for. -/
def units : Piece → List UInt16
  | char c => ofChar c
  | lineEnd _ => ofChar '\n'
  | continuation _ _ _ => []
  | escape e _ => e.units

/-- The piece may stand before the character `next` of a literal between two characters
    `quote`. -/
def FitsBefore (quote next : Char) : Piece → Prop
  | char c => c ≠ quote ∧ c ≠ '\\' ∧ (c = '\u2028' ∨ c = '\u2029' ∨ isLineEnd c = false)
  | lineEnd e => quote = '`' ∧ (e = ['\n'] ∨ e = ['\r', '\n'] ∨ e = ['\r'] ∧ next ≠ '\n')
  | continuation before e behind =>
    (∀ c ∈ before, isInvisible c) ∧ IsLineEnd e ∧ (∀ c ∈ behind, isInvisible c) ∧
      isInvisible next = false ∧ (e = ['\r'] → behind = [] → next ≠ '\n')
  | escape e written =>
    visible written = e.text ∧ e.EndsBefore next written

theorem FitsBefore.text_ne_nil {quote next : Char} {x : Piece} (h : x.FitsBefore quote next) :
    x.text ≠ [] := by
  cases x with
  | lineEnd e =>
    obtain ⟨-, rfl | rfl | ⟨rfl, -⟩⟩ := h <;> simp [text]
  | _ => simp [text]

end Piece

/-- The text of pieces. -/
def text (ps : List Piece) : List Char :=
  ps.flatMap Piece.text

/-- The code units that pieces stand for. -/
def units (ps : List Piece) : List UInt16 :=
  ps.flatMap Piece.units

/-- The pieces may stand one after the other between two characters `quote`. -/
def Fits (quote : Char) : List Piece → Prop
  | [] => True
  | x :: xs => x.FitsBefore quote ((text xs).headD quote) ∧ Fits quote xs

/-! ## Reading pieces -/

section Reading

variable {quote next : Char} {d : Decoder} {us : List UInt16} {p : Place} {w : List Char}
  {mark : Cursor} {cs : List Char}

theorem not_completes_through (h : (p.through w).afterReturn = false) :
    (p.through w).completes next = false :=
  Bool.not_eq_true _ ▸ Place.not_completes_of_afterReturn h next

/-- A text without visible characters that ends in a visible one is empty. -/
theorem eq_nil_of_visible (h : visible w = []) (hlast : ∀ c ∈ w.getLast?, isInvisible c = false) :
    w = [] := by
  rw [visible_eq_nil_iff] at h
  cases hw : w.getLast? with
  | none => exact List.getLast?_eq_none_iff.1 hw
  | some c => simpa [hlast c hw] using h c (List.mem_of_getLast? hw)

/-- The end of a text that ends in a visible character does so, too. -/
theorem last_of_append {u : List Char} (hlast : ∀ c ∈ (u ++ w).getLast?, isInvisible c = false) :
    ∀ c ∈ w.getLast?, isInvisible c = false := by
  intro c hc
  have hc : w.getLast? = some c := hc
  exact hlast c (by simp [hc])

/-- The digits of an escape by four are read. -/
theorem goes_unicode {ds : List (Digit 16)} {n : Nat} (hds : ds ≠ [])
    (hw : visible w = Digit.text ds) (hlast : ∀ c ∈ w.getLast?, isInvisible c = false)
    (hp : p.afterReturn = false) :
    (recognizer quote).Goes (.unicode d ds.length n) p w
        (.text (d.unit (Digit.numberFrom n ds).toUInt16)) ∧ (p.through w).afterReturn = false := by
  induction ds generalizing w p n with
  | nil => exact absurd rfl hds
  | cons a ds ih =>
    by_cases hnil : ds = []
    · subst hnil
      have hstep : (recognizer quote).step (.unicode d 1 n) a.char =
          .take (.text (d.unit (16 * n + a.value).toUInt16)) := by
        simp [recognizer, step, a.digitOf?_char]
      obtain ⟨u, w', rfl, hw', hgoes, hafter⟩ := Recognizer.goes_visible rfl hp hw hstep
      obtain rfl := eq_nil_of_visible hw' (last_of_append hlast)
      rw [List.append_nil]
      exact ⟨hgoes, hafter.trans a.not_return⟩
    · have hstep : (recognizer quote).step (.unicode d (a :: ds).length n) a.char =
          .take (.unicode d ds.length (16 * n + a.value)) := by
        simp [recognizer, step, a.digitOf?_char, hnil]
      obtain ⟨u, w', rfl, hw', hgoes, hafter⟩ := Recognizer.goes_visible rfl hp hw hstep
      obtain ⟨hgoes', hafter'⟩ := ih hnil hw' (last_of_append hlast) (hafter.trans a.not_return)
      rw [Place.through_append]
      exact ⟨hgoes.trans hgoes', hafter'⟩

/-- One more octal digit is read if it belongs to the escape. -/
theorem step_octal {ds : List (Digit 8)} {a : Digit 8} (h : IsOctal ds)
    (ha : IsOctal (ds ++ [a])) :
    (recognizer quote).step (.octal d ds.length (Digit.number ds)) a.char =
      .take (.octal d (ds ++ [a]).length (Digit.number (ds ++ [a]))) := by
  have hcount : (decide (ds.length = 1) || decide (ds.length = 2) &&
      decide (Digit.number ds ≤ 31)) = true := by
    simpa using h.count_iff.1 (IsOctal.append_iff.1 ha)
  simp only [recognizer, step, a.digitOf?_char]
  rw [if_pos hcount, List.length_append, Digit.number_append]
  rfl

/-- Octal digits are read as long as they belong to the escape. -/
theorem goes_octal {ds more : List (Digit 8)} (h : IsOctal (ds ++ more)) (hds : ds ≠ [])
    (hw : visible w = Digit.text more) (hp : p.afterReturn = false) :
    (recognizer quote).Goes (.octal d ds.length (Digit.number ds)) p w
        (.octal d (ds ++ more).length (Digit.number (ds ++ more))) ∧
      (p.through w).afterReturn = false := by
  induction more generalizing w p ds with
  | nil =>
    rw [List.append_nil]
    have hunseen := visible_eq_nil_iff.1 hw
    exact ⟨Recognizer.goes_unseen rfl hunseen, Recognizer.afterReturn_through_of_not hunseen hp⟩
  | cons a more ih =>
    have happend : IsOctal ((ds ++ [a]) ++ more) := by simpa using h
    have hstep : (recognizer quote).step (.octal d ds.length (Digit.number ds)) a.char =
        .take (.octal d (ds ++ [a]).length (Digit.number (ds ++ [a]))) :=
      step_octal (h.of_append hds) (happend.of_append (by simp))
    obtain ⟨u, w', rfl, hw', hgoes, hafter⟩ :=
      Recognizer.goes_visible rfl hp hw hstep
    obtain ⟨hgoes', hafter'⟩ := ih happend (by simp) hw'
      (hafter.trans a.not_return)
    rw [List.append_assoc, List.singleton_append] at hgoes'
    rw [Place.through_append]
    exact ⟨hgoes.trans hgoes', hafter'⟩

/-- Any other character comes behind the escape. -/
theorem step_octal_of_not_goesOn {ds : List (Digit 8)} (h : IsOctal ds)
    (hnext : ¬ (Escape.octal ds h).GoesOn next) :
    (recognizer quote).step (.octal d ds.length (Digit.number ds)) next =
      (recognizer quote).step (.text (d.char (Char.ofNat (Digit.number ds)))) next := by
  simp only [recognizer, step]
  split
  · next n hn =>
    let a : Digit 8 := ⟨next, by rw [isDigitOf, hn]; rfl⟩
    have hcount : ¬ (decide (ds.length = 1) || decide (ds.length = 2) &&
        decide (Digit.number ds ≤ 31)) = true := by
      intro hcount
      exact hnext ⟨a, rfl, IsOctal.append_iff.2 (h.count_iff.2 (by simpa using hcount))⟩
    rw [if_neg hcount]
  · rfl

/-- What an escape by one byte stands for is a unit. -/
theorem ofChar_ofNat {n : Nat} (h : n < 256) : ofChar (Char.ofNat n) = [n.toUInt16] := by
  have hvalid : n.isValidChar := .inl (by omega)
  rw [ofChar, toNat_ofNat hvalid, if_pos (by omega)]

theorem step_backslash_single {c : Char} (h : IsSingle c) :
    (recognizer quote).step (.backslash d) c = .take (.text (d.char ((controlOf? c).getD c))) := by
  have hoctal : digitOf? 8 c = none := by simpa [isDigitOf] using h.not_octal
  simp only [recognizer, step, stepBackslash]
  cases controlOf? c with
  | some b => rfl
  | none => simp [h.not_unicode, h.not_byte, h.not_lineEnd, hoctal]

theorem step_backslash_octal (a : Digit 8) :
    (recognizer quote).step (.backslash d) a.char = .take (.octal d 1 (Digit.number [a])) := by
  have hdigit := a.digitOf?_char
  -- The octal digits come before the letters.
  have hle : a.char.toNat < 58 := by
    obtain ⟨hvalue, hlt⟩ := Option.filter_eq_some_iff.1 hdigit
    have hlt : a.value < 8 := a.value_lt
    simp only [digitValue?, Bool.and_eq_true, decide_eq_true_eq] at hvalue
    split at hvalue
    · next hc => exact Nat.lt_of_le_of_lt (toNat_le_of_le hc.2) (by decide)
    · split at hvalue
      · have hv := Option.some.inj hvalue
        omega
      · split at hvalue
        · have hv := Option.some.inj hvalue
          omega
        · simp at hvalue
  have hne (b : Char) (hb : 58 ≤ b.toNat) : a.char ≠ b := by
    intro he
    rw [he] at hle
    omega
  have hcontrol : controlOf? a.char = none := by
    simp [controlOf?, hne 'b' (by decide), hne 'f' (by decide), hne 'n' (by decide),
      hne 'r' (by decide), hne 't' (by decide), hne 'v' (by decide)]
  simp [recognizer, step, stepBackslash, hcontrol, hne 'u' (by decide), hne 'x' (by decide),
    a.not_isLineEnd, hdigit, Digit.number, Digit.numberFrom]

/-- Behind the `x` of an escape by two digits, the digits are read that are there. -/
theorem goes_byte (hd : d.Decodes us) {ds : List (Digit 16)} (h : ds.length ≤ 2)
    (hw : visible w = Digit.text ds)
    (hfits : (Escape.byte ds h).EndsBefore next w) (hp : p.afterReturn = false) :
    ∃ d', d'.Decodes (us ++ (Escape.byte ds h).units) ∧
      (recognizer quote).GoesBefore (.byte d) p w next (.text d') := by
  match ds, h with
  | [], _ =>
    obtain ⟨hnext, hover⟩ := hfits
    have hdigit : digitOf? 16 next = none := by simpa [Escape.GoesOn, isDigitOf] using hover
    have hx : (recognizer quote).GoesBefore (.byte d) p ([] ++ w) next (.text (d.char 'x')) :=
      (Recognizer.Goes.refl _ p).over hp rfl (visible_eq_nil_iff.1 hw) hnext
        (by simp only [recognizer, step, hdigit])
    exact ⟨_, hd.char _, hx⟩
  | [a], _ =>
    obtain ⟨hnext, hover⟩ := hfits
    have hdigit : digitOf? 16 next = none := by simpa [Escape.GoesOn, isDigitOf] using hover
    have hstep : (recognizer quote).step (.byte d) a.char =
        .take (.halfByte d a.char a.value) := by
      simp only [recognizer, step, a.digitOf?_char]
    obtain ⟨u, w', rfl, hw', hgoes, hafter⟩ := Recognizer.goes_visible rfl hp hw hstep
    have hx : (recognizer quote).GoesBefore (.byte d) p (u ++ w') next
        (.text ((d.char 'x').char a.char)) :=
      hgoes.over (hafter.trans a.not_return) rfl (visible_eq_nil_iff.1 hw') hnext
        (by simp only [recognizer, step, hdigit])
    refine ⟨_, ?_, hx⟩
    have hunits := (hd.char 'x').char a.char
    simpa [Escape.units, encode, Digit.text] using hunits
  | [a, b], _ =>
    have hstep : (recognizer quote).step (.byte d) a.char =
        .take (.halfByte d a.char a.value) := by
      simp only [recognizer, step, a.digitOf?_char]
    obtain ⟨u, w₁, rfl, hw₁, hgoes, hafter⟩ := Recognizer.goes_visible rfl hp hw hstep
    have hstep' : (recognizer quote).step (.halfByte d a.char a.value) b.char =
        .take (.text (d.char (Char.ofNat (16 * a.value + b.value)))) := by
      simp only [recognizer, step, b.digitOf?_char]
    obtain ⟨u', w₂, rfl, hw₂, hgoes', hafter'⟩ :=
      Recognizer.goes_visible rfl (hafter.trans a.not_return) hw₁ hstep'
    obtain rfl := eq_nil_of_visible hw₂ hfits.of_append.of_append
    rw [List.append_nil]
    have hunits := hd.char (Char.ofNat (16 * a.value + b.value))
    have ha := a.value_lt
    have hb := b.value_lt
    rw [ofChar_ofNat (by omega)] at hunits
    refine ⟨_, ?_, (hgoes.trans hgoes').before (not_completes_through ?_)⟩
    · simpa [Escape.units, Digit.number, Digit.numberFrom] using hunits
    · rw [Place.through_append]
      exact hafter'.trans b.not_return

/-- Behind the backslash, an escape is read. -/
theorem goes_escape (hd : d.Decodes us) {e : Escape} (hw : visible w = e.text)
    (hfits : e.EndsBefore next w) (hp : p.afterReturn = false) :
    ∃ d', d'.Decodes (us ++ e.units) ∧
      (recognizer quote).GoesBefore (.backslash d) p w next (.text d') := by
  cases e with
  | single c h =>
    have hstep : (recognizer quote).step (.backslash d) c =
        .take (.text (d.char ((controlOf? c).getD c))) := step_backslash_single h
    obtain ⟨u, w', rfl, hw', hgoes, hafter⟩ := Recognizer.goes_visible rfl hp hw hstep
    obtain rfl := eq_nil_of_visible hw' hfits.of_append
    rw [List.append_nil]
    refine ⟨_, hd.char _, hgoes.before (not_completes_through ?_)⟩
    rw [hafter]
    exact ne_return_of_not_isLineEnd h.not_lineEnd
  | unicode ds h =>
    have hstep : (recognizer quote).step (.backslash d) 'u' = .take (.unicode d 4 0) := rfl
    obtain ⟨u, w', rfl, hw', hgoes, hafter⟩ := Recognizer.goes_visible rfl hp hw hstep
    rw [← h] at hgoes
    obtain ⟨hgoes', hafter'⟩ :=
      goes_unicode (by rintro rfl; simp at h) hw' hfits.of_append hafter
    refine ⟨_, hd.unit _, (hgoes.trans hgoes').before (not_completes_through ?_)⟩
    rwa [Place.through_append]
  | byte ds h =>
    have hstep : (recognizer quote).step (.backslash d) 'x' = .take (.byte d) := rfl
    obtain ⟨u, w', rfl, hw', hgoes, hafter⟩ := Recognizer.goes_visible rfl hp hw hstep
    obtain ⟨d', hd', hgoes'⟩ := goes_byte hd h hw' hfits.of_append hafter
    exact ⟨d', hd', hgoes.trans_before hgoes'⟩
  | octal ds h =>
    obtain ⟨hnext, hover⟩ := hfits
    match ds, h with
    | a :: more, h =>
      have hstep : (recognizer quote).step (.backslash d) a.char =
          .take (.octal d 1 (Digit.number [a])) := step_backslash_octal a
      obtain ⟨u, w', rfl, hw', hgoes, hafter⟩ := Recognizer.goes_visible rfl hp hw hstep
      obtain ⟨hgoes', hafter'⟩ :=
        goes_octal (show IsOctal ([a] ++ more) from h) (by simp) hw' (hafter.trans a.not_return)
      have hunits := hd.char (Char.ofNat (Digit.number (a :: more)))
      rw [ofChar_ofNat h.number_lt] at hunits
      refine ⟨_, hunits, (hgoes.trans hgoes').before_of_step (not_completes_through ?_) hnext
        (step_octal_of_not_goesOn h hover)⟩
      rwa [Place.through_append]

theorem step_text {c : Char} (hc : (Piece.char c).FitsBefore quote next) :
    (recognizer quote).step (.text d) c = .take (.text (d.char c)) := by
  obtain ⟨hquote, hback, hline⟩ := hc
  have hplain : (c = '\u2028' || c = '\u2029' || !isLineEnd c) = true := by
    simpa [or_assoc] using hline
  simp only [recognizer, step, stepText, if_neg hquote, if_neg hback, hplain, if_true]

theorem ne_return_of_fits {c : Char} (hc : (Piece.char c).FitsBefore quote next) :
    (c == '\r') = false := by
  obtain ⟨-, -, rfl | rfl | hline⟩ := hc
  · rfl
  · rfl
  · exact ne_return_of_not_isLineEnd hline

/-- A line end of a template is read as a newline. -/
theorem goes_lineEnd {e : List Char} (hx : (Piece.lineEnd e).FitsBefore quote next)
    (hp : ∀ c ∈ e.head?, p.completes c = false) :
    (recognizer quote).GoesBefore (.text d) p e next (.text (d.char '\n')) := by
  obtain ⟨rfl, he⟩ := hx
  have htake {c : Char} (hc : p.completes c = false)
      (hstep : (recognizer '`').step (.text d) c = .take (.text (d.char '\n'))) :=
    Recognizer.goes_take hc rfl hstep
  have hreturn : p.completes '\r' = false := by simp [Place.completes]
  have hpast : p.through ['\r'] = p.past '\r' := by
    rw [Place.through, hreturn]
    rfl
  rcases he with rfl | rfl | ⟨rfl, hnext⟩
  · refine (htake (hp _ rfl) rfl).before (not_completes_through ?_)
    rw [Place.through, hp _ rfl]
    rfl
  · have hcomplete : (p.through ['\r']).completes '\n' := by
      rw [hpast]
      rfl
    refine ((htake hreturn rfl).trans (Recognizer.goes_complete hcomplete)).before
      (not_completes_through ?_)
    rw [List.singleton_append, Place.through, hreturn, Place.through]
    rfl
  · refine (htake hreturn rfl).before ?_
    rw [hpast, Place.completes, beq_eq_false_iff_ne.2 hnext, Bool.and_false]

/-- A line end behind a backslash. -/
theorem goes_backslash_lineEnd {e : List Char} (he : IsLineEnd e) (hp : p.afterReturn = false) :
    (recognizer quote).Goes (.backslash d) p e (.continued d) ∧
      ((p.through e).afterReturn → e = ['\r']) := by
  have htake {c : Char} (hc : isLineEnd c) :
      (recognizer quote).Goes (.backslash d) p [c] (.continued d) ∧ p.through [c] = p.past c := by
    have hpc := Place.not_completes_of_afterReturn hp c
    have hstep : (recognizer quote).step (.backslash d) c = .take (.continued d) := by
      rcases eq_of_isLineEnd hc with rfl | rfl | rfl | rfl <;> rfl
    refine ⟨Recognizer.goes_take (Bool.not_eq_true _ ▸ hpc) ?_ hstep, ?_⟩
    · rw [isInvisible_of_isLineEnd hc, Bool.and_false]
    · rw [Place.through, if_neg hpc]
      rfl
  rcases he with rfl | ⟨c, rfl, hc⟩
  · obtain ⟨hgoes, hpast⟩ := htake (c := '\r') rfl
    have hcomplete : (p.through ['\r']).completes '\n' := by
      rw [hpast]
      rfl
    refine ⟨hgoes.trans (Recognizer.goes_complete hcomplete), fun hret => ?_⟩
    rw [← List.singleton_append, Place.through_append, Place.through, if_pos hcomplete] at hret
    exact absurd hret Bool.false_ne_true
  · obtain ⟨hgoes, hpast⟩ := htake hc
    refine ⟨hgoes, fun hret => ?_⟩
    rw [hpast] at hret
    rw [beq_iff_eq.1 hret]

/-- A line end behind a backslash is passed over. -/
theorem goes_continuation {before e behind : List Char}
    (hx : (Piece.continuation before e behind).FitsBefore quote next) (hp : p.afterReturn = false) :
    (recognizer quote).GoesBefore (.backslash d) p (before ++ (e ++ behind)) next (.text d) := by
  obtain ⟨hbefore, he, hbehind, hnext, hret⟩ := hx
  have hgap : (recognizer quote).Goes (.backslash d) p before (.backslash d) :=
    Recognizer.goes_unseen rfl hbefore
  obtain ⟨hline, hreturn⟩ : (recognizer quote).Goes (.backslash d) (p.through before) e
        (.continued d) ∧ (((p.through before).through e).afterReturn → e = ['\r']) :=
    goes_backslash_lineEnd he (Recognizer.afterReturn_through_of_not hbefore hp)
  refine (hgap.trans (hline.trans (Recognizer.goes_unseen rfl hbehind))).before_of_step ?_ hnext rfl
  rw [Place.through_append, Place.through_append, Place.completes,
    Recognizer.afterReturn_through_unseen hbehind]
  -- Only right behind a carriage return a newline would be passed over, too.
  by_cases hafter : ((p.through before).through e).afterReturn = true ∧ behind = []
  · rw [beq_eq_false_iff_ne.2 (hret (hreturn hafter.1) hafter.2), Bool.and_false]
  · have hopen : (behind.isEmpty && ((p.through before).through e).afterReturn) = false := by
      rw [← Bool.not_eq_true, Bool.and_eq_true, List.isEmpty_iff]
      exact fun h => hafter h.symm
    rw [hopen, Bool.false_and]

/-- A piece is read that fits before what stands behind it. -/
theorem goes_piece (hd : d.Decodes us) {x : Piece} (hx : x.FitsBefore quote next)
    (hquote : quote ≠ '\\') (hp : ∀ c ∈ x.text.head?, p.completes c = false) :
    ∃ d', d'.Decodes (us ++ x.units) ∧
      (recognizer quote).GoesBefore (.text d) p x.text next (.text d') := by
  -- Behind a backslash no line end is open.
  have hback : (recognizer quote).Goes (.text d) p ['\\'] (.backslash d) ∧
      (p.through ['\\']).afterReturn = false := by
    have hpb : p.completes '\\' = false := by simp [Place.completes]
    have hstep : (recognizer quote).step (.text d) '\\' = .take (.backslash d) := by
      simp [recognizer, step, stepText, Ne.symm hquote]
    refine ⟨Recognizer.goes_take hpb rfl hstep, ?_⟩
    rw [Place.through, hpb]
    rfl
  cases x with
  | char c =>
    refine ⟨_, hd.char c, ?_⟩
    have hpc := hp c rfl
    refine (Recognizer.goes_take hpc rfl (step_text hx)).before (not_completes_through ?_)
    rw [Place.through, hpc]
    exact ne_return_of_fits hx
  | lineEnd e => exact ⟨_, hd.char '\n', goes_lineEnd hx hp⟩
  | continuation before e behind =>
    refine ⟨d, ?_, hback.1.trans_before (goes_continuation hx hback.2)⟩
    rwa [Piece.units, List.append_nil]
  | escape e written =>
    obtain ⟨d', hd', hgoes⟩ := goes_escape hd hx.1 hx.2 hback.2
    exact ⟨d', hd', hback.1.trans_before hgoes⟩

theorem ne_of_isQuote (h : isQuote quote) {c : Char} (hc : isQuote c = false) : quote ≠ c := by
  rintro rfl
  simp [h] at hc

/-- Pieces that fit are read, up to the quote behind them. -/
theorem run_pieces {ps : List Piece} (hps : Fits quote ps) (hquote : isQuote quote)
    (hd : d.Decodes us) (hp : ∀ c ∈ (text ps).head?, p.completes c = false) (rest : List Char) :
    ∃ d', d'.Decodes (us ++ units ps) ∧ ∀ mark,
      (recognizer quote).run (.text d) mark p (text ps ++ quote :: rest) =
        ⟨.ok d', (p.through (text ps ++ [quote])).offset,
          ⟨p.through (text ps ++ [quote]), rest⟩⟩ := by
  induction ps generalizing d us p with
  | nil =>
    have hpq : p.completes quote = false := by
      rw [Place.completes, beq_eq_false_iff_ne.2 (ne_of_isQuote hquote rfl), Bool.and_false]
    have hstep : (recognizer quote).step (.text d) quote = .finish d := by
      simp only [recognizer, step, stepText, if_true]
    have hskip : (recognizer quote).skips (.text d) = false := rfl
    refine ⟨d, by simpa [units] using hd, fun mark => ?_⟩
    simp only [text, List.flatMap_nil, List.nil_append, Recognizer.run, hpq, hskip, hstep,
      Place.through, Bool.false_and, Bool.false_eq_true, if_false]
    rfl
  | cons x xs ih =>
    obtain ⟨hx, hxs⟩ := hps
    obtain ⟨cs, hcs⟩ : ∃ cs, text xs ++ quote :: rest = (text xs).headD quote :: cs := by
      cases text xs <;> simp
    have htext : text (x :: xs) = x.text ++ text xs := List.flatMap_cons
    have hunits : units (x :: xs) = x.units ++ units xs := List.flatMap_cons
    obtain ⟨d₁, hd₁, hnext, hrun⟩ := goes_piece hd hx (ne_of_isQuote hquote rfl)
      (p := p) fun c hc => hp c (by rw [htext, List.head?_append, hc]; rfl)
    have hhead : ∀ c ∈ (text xs).head?, (p.through x.text).completes c = false := by
      intro c hc
      rwa [List.headD_eq_head?_getD, hc] at hnext
    obtain ⟨d', hd', hrun'⟩ := ih hxs hd₁ hhead
    refine ⟨d', by rwa [hunits, ← List.append_assoc], fun mark => ?_⟩
    obtain ⟨mark₁, hrun⟩ := hrun mark cs
    rw [htext, List.append_assoc, hcs, hrun, ← hcs, hrun', List.append_assoc,
      Place.through_append p]

end Reading

end Quotation

end ScriptExcerpt
