import ScriptExcerpt.Proofs.Lexeme.Number

/-!
# Names as they are written

A name is made of parts, each of them a character that stands for itself or an escape of four
digits (`Name.Part`); only its first part has to be one that begins a name
(`Name.Written`). It is read whole, up to a character that goes on with no name. Escapes hide
that a word is more than a name: the value of such a name is spelled with its last character
escaped, and read again it is the same name.

* `Text.inked_of_isNamePart`: the characters of names leave ink;
* `Name.Written.carries`: the parts of a name, one after the other;
* `Name.exists_written_escapeLast`: how the value of an escaped keyword is written;
* `LexemeReader.next_name`: what a reader makes of a name.
-/

namespace ScriptExcerpt

open Text Text.CodeUnit

/-! ## Characters of names -/

/-- The code points of the line ends, the blanks and the invisible characters. -/
def Text.inkless : List Nat :=
  [0x0a, 0x0d, 0x2028, 0x2029, 0x20, 0x09, 0x0b, 0x0c, 0xa0, 0xfeff, 0x1680, 0x202f, 0x205f,
    0x3000, 0xad, 0x61c, 0x180e, 0x200b, 0x200e, 0x200f] ++ List.range' 0x600 6 ++
    List.range' 0x2000 11 ++ List.range' 0x202a 5 ++ List.range' 0x2060 5 ++ List.range' 0x2066 10

theorem Text.mem_inkless {c : Char} (h : isLineEnd c ∨ isBlank c ∨ isInvisible c) :
    c.toNat ∈ inkless := by
  have hbetween {a b : Char} (hc : a ≤ c ∧ c ≤ b) : a.toNat ≤ c.toNat ∧ c.toNat ≤ b.toNat :=
    ⟨toNat_le_of_le hc.1, toNat_le_of_le hc.2⟩
  simp only [inkless, List.mem_append, List.mem_range'_1]
  simp only [isLineEnd, isBlank, isInvisible, Bool.or_eq_true, Bool.and_eq_true, beq_iff_eq,
    decide_eq_true_eq, or_assoc] at h
  -- The character is given, or it lies between two that are.
  rcases h with h | h | h | h | h | h | h | h | h | h | h | h | h | h | h | h | h | h | h | h | h |
    h | h | h | h
  all_goals first
    | (subst h; decide)
    | (have hc := hbetween h; simp at hc ⊢; omega)

/-- The characters of names leave ink. -/
theorem Text.inked_of_isNamePart {c : Char} (h : isNamePart c) : Inked c := by
  have hnone : ∀ n ∈ inkless, isNamePart (Char.ofNat n) = false := by
    decide +kernel
  have hmem : c.toNat ∉ inkless := fun hc => by
    have hc := hnone _ hc
    rw [Char.ofNat_toNat, h] at hc
    exact Bool.false_ne_true hc.symm
  refine ⟨?_, ?_, ?_⟩ <;> refine Bool.eq_false_iff.2 fun hc => hmem (mem_inkless ?_)
  · exact .inl hc
  · exact .inr (.inl hc)
  · exact .inr (.inr hc)

theorem isWordPart_of_isNamePart {c : Char} (h : isNamePart c) : IsWordPart c where
  not_lineEnd := (inked_of_isNamePart h).not_lineEnd
  not_invisible := (inked_of_isNamePart h).not_invisible
  isNamePart := h
  not_backslash := by
    rintro rfl
    exact absurd h (by decide)

/-! ## Four digits -/

namespace Digit

theorem digitOf?_digitChar {n : Nat} (h : n < 16) : digitOf? 16 n.digitChar = some n := by
  have hall : ∀ n < 16, digitOf? 16 n.digitChar = some n := by
    decide
  exact hall n h

/-- The digit of a number below sixteen. -/
theorem exists_digitChar {n : Nat} (h : n < 16) :
    ∃ d : Digit 16, d.char = n.digitChar ∧ d.value = n := by
  have hdigit := digitOf?_digitChar h
  refine ⟨⟨n.digitChar, Option.isSome_iff_exists.2 ⟨n, hdigit⟩⟩, rfl, ?_⟩
  exact Option.some.inj ((digitOf?_char _).symm.trans hdigit)

/-- The digits of a number write it. -/
theorem exists_toDigits (n : Nat) :
    ∃ ds : List (Digit 16), text ds = Nat.toDigits 16 n ∧ number ds = n := by
  induction n using Nat.strongRecOn with
  | ind n ih =>
    by_cases hn : n < 16
    · obtain ⟨d, hchar, hvalue⟩ := exists_digitChar hn
      refine ⟨[d], ?_, ?_⟩
      · rw [Nat.toDigits_of_lt_base hn, ← hchar]
        rfl
      · simp [number, numberFrom, hvalue]
    · obtain ⟨ds, htext, hnumber⟩ := ih (n / 16) (by omega)
      obtain ⟨d, hchar, hvalue⟩ := exists_digitChar (Nat.mod_lt n (by decide : 16 > 0))
      refine ⟨ds ++ [d], ?_, ?_⟩
      · rw [Nat.toDigits_of_base_le (by decide) (Nat.le_of_not_lt hn), ← htext, ← hchar]
        exact List.map_append
      · rw [number_append, hnumber, numberFrom, List.foldl_cons, List.foldl_nil, hvalue,
          Nat.div_add_mod]

/-- Zeros in front do not change a number. -/
theorem exists_zeros (k : Nat) :
    ∃ ds : List (Digit 16), text ds = List.replicate k '0' ∧ number ds = 0 := by
  induction k with
  | zero => exact ⟨[], rfl, rfl⟩
  | succ k ih =>
    obtain ⟨ds, htext, hnumber⟩ := ih
    refine ⟨⟨'0', rfl⟩ :: ds, ?_, hnumber⟩
    rw [List.replicate_succ, ← htext]
    rfl

end Digit

namespace Name

/-- Four digits write each number of the basic plane. -/
theorem exists_fourDigits {n : Nat} (h : n < 0x10000) :
    ∃ ds : List (Digit 16), ds.length = 4 ∧ Digit.text ds = fourDigits n ∧ Digit.number ds = n := by
  have hlength : (Nat.toDigits 16 n).length ≤ 4 :=
    (Nat.length_toDigits_le_iff (by decide) (by decide)).2 h
  obtain ⟨zeros, hzeros, hzero⟩ := Digit.exists_zeros (4 - (Nat.toDigits 16 n).length)
  obtain ⟨ds, htext, hnumber⟩ := Digit.exists_toDigits n
  have hall : Digit.text (zeros ++ ds) = fourDigits n := by
    rw [fourDigits, List.leftpad, ← hzeros, ← htext]
    exact List.map_append
  refine ⟨zeros ++ ds, ?_, hall, ?_⟩
  · have hfour : (Digit.text (zeros ++ ds)).length = 4 := by
      rw [hall, fourDigits, List.leftpad, List.length_append, List.length_replicate,
        Nat.sub_add_cancel hlength]
    rwa [Digit.text, List.length_map] at hfour
  · rw [Digit.number_append, hzero]
    exact hnumber

/-! ## The grammar -/

/-- A part of a name. -/
inductive Part
  /-- A character that stands for itself. -/
  | plain (c : Char) (isNamePart : isNamePart c)
  /-- A character by its number, whether it could stand in a name or not. -/
  | escape (digits : List (Digit 16)) (length_eq : digits.length = 4)
    (isValidChar : (Digit.number digits).isValidChar)

namespace Part

/-- The text of a part. -/
def text : Part → List Char
  | plain c _ => [c]
  | escape ds _ _ => '\\' :: 'u' :: Digit.text ds

/-- The character that a part stands for. -/
def char : Part → Char
  | plain c _ => c
  | escape ds _ _ => Char.ofNat (Digit.number ds)

/-- The part is an escape. -/
def isEscape : Part → Bool
  | plain _ _ => false
  | escape _ _ _ => true

/-- The part begins a name. -/
def Begins : Part → Prop
  | plain c _ => isNameStart c
  | escape _ _ _ => True

end Part

/-- A name as it is written. -/
structure Written where
  /-- Its first part. -/
  first : Part
  /-- The parts behind the first one. -/
  further : List Part
  /-- A name may begin with the first part. -/
  begins : first.Begins

namespace Written

/-- The parts of a name. -/
def parts (n : Written) : List Part :=
  n.first :: n.further

/-- The text of a name. -/
def text (n : Written) : List Char :=
  n.parts.flatMap Part.text

/-- The word that a name spells. -/
def word (n : Written) : List Char :=
  n.parts.map Part.char

/-- A part of the name is escaped. -/
def escaped (n : Written) : Bool :=
  n.parts.any Part.isEscape

end Written

/-- The character goes on with no name. -/
structure IsBehind (d : Char) : Prop where
  not_part : isNamePart d = false
  not_backslash : d ≠ '\\'
  not_invisible : isInvisible d = false

/-! ## Parts that are read -/

variable {v : Version} {lineIsBlank : Bool} {p : Place} {u t : List Char} {escaped : Bool}

theorem carries_digits (ds : List (Digit 16)) (hne : ds ≠ []) (n : Nat)
    (hvalid : (Digit.numberFrom n ds).isValidChar) :
    recognizer.Carries (.digits u ds.length n) (Digit.text ds)
      (.inside (Char.ofNat (Digit.numberFrom n ds) :: u) true) := by
  induction ds generalizing n with
  | nil => exact absurd rfl hne
  | cons d ds ih =>
    have hplain : Plain d.char := ⟨d.not_isLineEnd, not_isInvisible_of_isDigitOf d.isDigit⟩
    rcases ds with _ | ⟨d', ds⟩
    · -- The last digit tells the character.
      have hlast : (16 * n + d.value).isValidChar := hvalid
      refine .single hplain ?_
      simp only [recognizer, step, d.digitOf?_char, List.length_singleton, ne_eq,
        not_true_eq_false, if_false, hlast, if_true]
      rfl
    · have hleft : (d :: d' :: ds).length ≠ 1 := by simp
      refine .cons hplain ?_ (ih (List.cons_ne_nil _ _) (16 * n + d.value) hvalid)
      simp only [recognizer, step, d.digitOf?_char, if_pos hleft]
      rfl

/-- The digits of an escape. -/
theorem carries_fourDigits {ds : List (Digit 16)} (hlength : ds.length = 4)
    (hvalid : (Digit.number ds).isValidChar) :
    recognizer.Carries (.digits u 4 0) (Digit.text ds)
      (.inside (Char.ofNat (Digit.number ds) :: u) true) := by
  have hne : ds ≠ [] := by
    rintro rfl
    simp at hlength
  have hcarries := carries_digits (u := u) ds hne 0 hvalid
  rwa [hlength] at hcarries

/-- A part goes on with a name. -/
theorem Part.carries (x : Part) :
    recognizer.Carries (.inside u escaped) x.text
      (.inside (x.char :: u) (escaped || x.isEscape)) := by
  cases x with
  | plain c hc =>
    have hword := isWordPart_of_isNamePart hc
    refine .single hword.toPlain ?_
    simp only [recognizer, step, if_neg hword.not_backslash, hc, if_true, char, isEscape,
      Bool.or_false]
  | escape ds hlength hvalid =>
    have hback : recognizer.step (.inside u escaped) '\\' = .take (.backslash u) := rfl
    have hunicode : recognizer.step (.backslash u) 'u' = .take (.digits u 4 0) := rfl
    rw [isEscape, Bool.or_true]
    exact .cons ⟨rfl, rfl⟩ hback (.cons ⟨rfl, rfl⟩ hunicode (carries_fourDigits hlength hvalid))

theorem carries_parts (xs : List Part) :
    recognizer.Carries (.inside u escaped) (xs.flatMap Part.text)
      (.inside ((xs.map Part.char).reverse ++ u) (escaped || xs.any Part.isEscape)) := by
  induction xs generalizing u escaped with
  | nil => simpa using Recognizer.Carries.refl recognizer (.inside u escaped)
  | cons x xs ih =>
    rw [List.flatMap_cons, List.map_cons, List.reverse_cons, List.append_assoc,
      List.singleton_append, List.any_cons, ← Bool.or_assoc]
    exact x.carries.trans ih

/-- The first part of a name leads to the state in which the others are read. -/
theorem Part.Begins.carries {x : Part} (h : x.Begins) :
    ∃ c w, x.text = c :: w ∧ (c = '\\' ∨ isNameStart c) ∧ Inked c ∧
      recognizer.Carries (start c) w (.inside [x.char] x.isEscape) := by
  cases x with
  | plain c hc =>
    have hstart : start c = .inside [c] false :=
      if_neg (isWordPart_of_isNamePart hc).not_backslash
    exact ⟨c, [], rfl, .inr h, inked_of_isNamePart hc, hstart ▸ .refl _ _⟩
  | escape ds hlength hvalid =>
    have hunicode : recognizer.step (start '\\') 'u' = .take (.digits [] 4 0) := rfl
    exact ⟨'\\', 'u' :: Digit.text ds, rfl, .inl rfl, by decide,
      .cons ⟨rfl, rfl⟩ hunicode (carries_fourDigits hlength hvalid)⟩

/-- A name leads to the state that holds its word. -/
theorem Written.carries (n : Written) :
    ∃ c w, n.text = c :: w ∧ (c = '\\' ∨ isNameStart c) ∧ Inked c ∧
      recognizer.Carries (start c) w (.inside n.word.reverse n.escaped) := by
  obtain ⟨c, w, htext, hc, hinked, hfirst⟩ := n.begins.carries
  refine ⟨c, w ++ n.further.flatMap Part.text, ?_, hc, hinked, ?_⟩
  · rw [text, parts, List.flatMap_cons, htext, List.cons_append]
  · rw [word, escaped, parts, List.map_cons, List.reverse_cons, List.any_cons]
    exact hfirst.trans (carries_parts n.further)

/-- A name ends before what goes on with none. -/
theorem endsBefore (w : List Char) (escaped : Bool) (ht : ∀ d ∈ t.head?, IsBehind d) :
    recognizer.EndsBefore (.inside w.reverse escaped) (w, escaped) t := by
  cases t with
  | nil => exact congrArg (fun u => Ending.accept (u, escaped)) w.reverse_reverse
  | cons d t =>
    have hd := ht d rfl
    refine ⟨hd.not_invisible, ?_⟩
    simp only [recognizer, step, if_neg hd.not_backslash, hd.not_part, Bool.false_eq_true, if_false,
      List.reverse_reverse]

/-! ## Words of the vocabulary -/

/-- The words that mean more than a name in some version. -/
def vocabulary : List String :=
  Keyword.all.map Keyword.spelling ++ LiteralWord.all.map LiteralWord.spelling ++
    (legacyReserved ++ modernReserved ++ strictReserved)

theorem mem_vocabulary {strict : Bool} {word : String} (h : wordKind? v strict word ≠ none) :
    word ∈ vocabulary := by
  rw [wordKind?] at h
  simp only [vocabulary, List.mem_append, List.mem_map]
  split at h
  · next k hk =>
    have hspelling := List.find?_some hk
    rw [Bool.and_eq_true, beq_iff_eq] at hspelling
    exact .inl (.inl ⟨k, k.mem_all, hspelling.2⟩)
  · split at h
    · next w hw =>
      have hspelling := List.find?_some hw
      rw [beq_iff_eq] at hspelling
      exact .inl (.inr ⟨w, w.mem_all, hspelling⟩)
    · split at h
      · next hreserved =>
        rw [isReserved] at hreserved
        split at hreserved <;> simp at hreserved <;> grind
      · exact absurd rfl h

/-- A word that is no name is in the vocabulary of its version. -/
theorem wordKind?_ne_none {word : String} (h : nameKind v word ≠ .identifier) :
    wordKind? v false word ≠ none := fun hnone => by
  rw [nameKind, hnone] at h
  exact h rfl

/-- A word with escapes that the vocabulary does not list is its own value. -/
theorem value_eq_self {word : List Char} (h : wordKind? v false (String.ofList word) = none) :
    value v word true = word := by
  rw [value, h]
  rfl

/-- A word with escapes that it lists has its last character escaped. -/
theorem value_eq_escapeLast {word : List Char}
    (h : wordKind? v false (String.ofList word) ≠ none) : value v word true = escapeLast word := by
  rw [value, Option.isSome_iff_ne_none.2 h]
  rfl

/-- The words of the vocabulary are not empty, and all their letters are small ones. -/
theorem isLower_of_mem_vocabulary {w : List Char} (h : String.ofList w ∈ vocabulary) :
    w ≠ [] ∧ ∀ c ∈ w, c.isLower := by
  have hall : vocabulary.all fun s => !s.toList.isEmpty && s.toList.all Char.isLower := by
    decide +kernel
  have hw := List.all_eq_true.1 hall _ h
  rw [String.toList_ofList, Bool.and_eq_true, List.all_eq_true] at hw
  exact ⟨by simpa using hw.1, hw.2⟩

theorem isNameStart_of_isLower {c : Char} (h : c.isLower) : isNameStart c := by
  have halpha : c.isAlpha := Bool.or_eq_true_iff.2 (.inr h)
  simp only [isNameStart, halpha, Bool.or_true, Bool.true_or]

/-- A word can be written without escapes. -/
theorem exists_plain {w : List Char} (h : ∀ c ∈ w, isNamePart c) :
    ∃ xs : List Part, xs.flatMap Part.text = w ∧ xs.map Part.char = w ∧
      xs.any Part.isEscape = false := by
  induction w with
  | nil => exact ⟨[], rfl, rfl, rfl⟩
  | cons c w ih =>
    obtain ⟨hc, hw⟩ := List.forall_mem_cons.1 h
    obtain ⟨xs, htext, hchar, hescape⟩ := ih hw
    exact ⟨.plain c hc :: xs, congrArg (c :: ·) htext, congrArg (c :: ·) hchar, hescape⟩

/-- Parts that spell a word are a name, if a name may begin with its first character. -/
theorem exists_written {xs : List Part} {c : Char} {w : List Char}
    (hword : xs.map Part.char = c :: w) (hc : isNameStart c) : ∃ n : Written, n.parts = xs := by
  rcases xs with _ | ⟨x, xs⟩
  · simp at hword
  · obtain ⟨rfl, -⟩ := List.cons.inj hword
    have hbegins : x.Begins := by
      cases x with
      | plain d _ => exact hc
      | escape _ _ _ => trivial
    exact ⟨⟨x, xs, hbegins⟩, rfl⟩

/-- How a word of the vocabulary is written with its last character escaped. -/
theorem exists_written_escapeLast {w : List Char} (h : String.ofList w ∈ vocabulary) :
    ∃ (init : List Char) (c : Char) (ds : List (Digit 16)) (n : Written), w = init ++ [c] ∧
      ds.length = 4 ∧ Char.ofNat (Digit.number ds) = c ∧
      escapeLast w = init ++ '\\' :: 'u' :: Digit.text ds ∧
      n.text = escapeLast w ∧ n.word = w ∧ n.escaped := by
  obtain ⟨hne, hlower⟩ := isLower_of_mem_vocabulary h
  obtain ⟨init, c, rfl⟩ : ∃ init c, w = init ++ [c] :=
    ⟨w.dropLast, w.getLast hne, (List.dropLast_concat_getLast hne).symm⟩
  have hsmall : c.toNat < 0x10000 := by
    have hc : c.isLower := hlower c (by simp)
    have hz : c ≤ 'z' := of_decide_eq_true (Bool.and_eq_true_iff.1 hc).2
    exact Nat.lt_of_le_of_lt (toNat_le_of_le hz) (by decide)
  obtain ⟨ds, hlength, htext, hnumber⟩ := exists_fourDigits hsmall
  have hvalid : (Digit.number ds).isValidChar := hnumber ▸ c.valid
  have hchar : Char.ofNat (Digit.number ds) = c := by rw [hnumber, Char.ofNat_toNat]
  have hvalue : escapeLast (init ++ [c]) = init ++ '\\' :: 'u' :: Digit.text ds := by
    simp [escapeLast, htext]
  have hstart (d : Char) (hd : d ∈ init ++ [c]) : isNameStart d :=
    isNameStart_of_isLower (hlower d hd)
  obtain ⟨xs, hxs, hword, -⟩ := exists_plain fun d hd =>
    isNamePart_of_isNameStart (hstart d (List.mem_append_left [c] hd))
  have hall : (xs ++ [Part.escape ds hlength hvalid]).map Part.char = init ++ [c] := by
    rw [List.map_append, hword]
    exact congrArg (fun d => init ++ [d]) hchar
  obtain ⟨d, w, hd⟩ := List.exists_cons_of_ne_nil hne
  obtain ⟨n, hn⟩ := exists_written (hall.trans hd) (hstart d (by rw [hd]; exact List.mem_cons_self))
  refine ⟨init, c, ds, n, rfl, hlength, hchar, hvalue, ?_, ?_, ?_⟩
  · rw [hvalue, Written.text, hn, List.flatMap_append, hxs, List.flatMap_singleton]
    rfl
  · rw [Written.word, hn, hall]
  · rw [Written.escaped, hn, List.any_append]
    exact Bool.or_true _

end Name

/-! ## Readers -/

namespace LexemeReader

variable {v : Version} {rest : List Char}

/-- Where it stands, a reader reads a name whole. -/
theorem next_written {r : LexemeReader} (n : Name.Written) (hr : r.cursor.rest = n.text ++ rest)
    (hret : r.cursor.place.afterReturn = false) (hrest : ∀ d ∈ rest.head?, Name.IsBehind d) :
    ∃ r', r.next = (.ok (Name.kind r.version n.word n.escaped), r') ∧
      r.ReadsText n.text (some (Name.value r.version n.word n.escaped)) r' := by
  obtain ⟨c, w, htext, hc, hinked, hcarries⟩ := n.carries
  rw [htext] at hr ⊢
  refine next_of_takes hinked hr hret ?_
  have hname : (decide (c = '\\') || isNameStart c) = true := by simpa using hc
  have htakes := hcarries.takes (p := r.cursor.place.past c)
    (Place.onLine_past _ hinked.not_lineEnd).afterReturn (Name.endsBefore n.word n.escaped hrest)
  rw [lexemeAt, if_pos hname, Lexeme.name, htakes.verdict]
  exact ⟨rfl, rfl, htakes.cursor, rfl⟩

/-- A text that is a name is read whole from its start. -/
theorem next_written_alone (n : Name.Written) (v : Version) :
    let r := (startingAt n.text 0 v).next
    r.1 = .ok (Name.kind v n.word n.escaped) ∧ r.2.lexeme = n.text ∧
      r.2.value = Name.value v n.word n.escaped ∧ r.2.cursor.rest = [] := by
  have hcursor : (startingAt n.text 0 v).cursor = ⟨.atOffset 0, n.text⟩ :=
    Cursor.startingAt_zero n.text
  have hall : (startingAt n.text 0 v).cursor.rest = n.text ++ [] := by
    rw [hcursor, List.append_nil]
  obtain ⟨r', hnext, hr'⟩ := next_written n hall (congrArg (·.place.afterReturn) hcursor)
    (fun d hd => by simp at hd)
  intro r
  have hr : r = _ := hnext
  rw [hr]
  exact ⟨rfl, hr'.lexeme_eq, hr'.value, hr'.rest_eq hall⟩

/-- A name is read whole, wherever it stands in a script, before what goes on with no name.
    Without escapes its kind is that of its word. With escapes it is a name, and if its word is
    more than that, its value is another spelling of it, which reads as itself. -/
theorem next_name (v : Version) (n : Name.Written) (before : List Char)
    (hrest : ∀ d ∈ rest.head?, Name.IsBehind d) :
    let r := (startingAt (before ++ (n.text ++ rest)) (byteLength before) v).next
    (r.2.lexeme = n.text ∧ r.2.opening.offset = byteLength before ∧
      r.2.stop = byteLength before + byteLength n.text ∧ r.2.cursor.rest = rest) ∧
    (n.escaped = false → r.1 = .ok (nameKind v (String.ofList n.word)) ∧ r.2.value = n.word) ∧
    (n.escaped → r.1 = .ok .identifier ∧
      (wordKind? v false (String.ofList n.word) = none → r.2.value = n.word) ∧
      (nameKind v (String.ofList n.word) ≠ .identifier →
        (∃ (init : List Char) (c : Char) (ds : List (Digit 16)), n.word = init ++ [c] ∧
          ds.length = 4 ∧ Char.ofNat (Digit.number ds) = c ∧
          r.2.value = init ++ '\\' :: 'u' :: Digit.text ds) ∧
        let again := (startingAt r.2.value 0 v).next
        again.1 = r.1 ∧ again.2.value = r.2.value ∧
          again.2.lexeme = r.2.value ∧ again.2.cursor.rest = [])) := by
  have hcursor : (startingAt (before ++ (n.text ++ rest)) (byteLength before) v).cursor =
      ⟨.atOffset (byteLength before), n.text ++ rest⟩ :=
    Cursor.startingAt_append before (n.text ++ rest)
  obtain ⟨r', hnext, hr'⟩ := next_written n (congrArg Cursor.rest hcursor)
    (congrArg (·.place.afterReturn) hcursor) hrest
  have hopening : r'.opening.offset = byteLength before := by
    rw [hr'.opening, hcursor]
    rfl
  have hstop : r'.stop = byteLength before + byteLength n.text := by
    rw [hr'.stop, hr'.cursor.offset_eq, hcursor]
    rfl
  have hvalue : r'.value = Name.value v n.word n.escaped := hr'.value
  intro r
  have hr : r = (.ok (Name.kind v n.word n.escaped), r') := hnext
  rw [hr]
  refine ⟨⟨hr'.lexeme_eq, hopening, hstop, hr'.rest_eq (congrArg Cursor.rest hcursor)⟩,
    fun hplain => ?_, fun hescaped => ?_⟩
  · rw [hplain] at hvalue ⊢
    exact ⟨rfl, hvalue⟩
  · rw [hescaped] at hvalue ⊢
    refine ⟨rfl, fun hnone => hvalue.trans (Name.value_eq_self hnone), fun hkind => ?_⟩
    · -- The value is a name again, and its word is the same.
      have hword := Name.wordKind?_ne_none hkind
      obtain ⟨init, c, ds, n', hinit, hlength, hchar, hlast, htext, hword', hescaped'⟩ :=
        Name.exists_written_escapeLast (Name.mem_vocabulary hword)
      have hspelled := Name.value_eq_escapeLast hword
      rw [hvalue, hspelled]
      refine ⟨⟨init, c, ds, hinit, hlength, hchar, hlast⟩, ?_⟩
      have hagain := next_written_alone n' v
      rw [htext, hword', hescaped', hspelled] at hagain
      obtain ⟨hkind, hlexeme, hvalue, hend⟩ := hagain
      exact ⟨hkind, hvalue, hlexeme, hend⟩

/-- The word `if` with its first letter escaped is a name, before a parenthesis. -/
theorem next_name_escaped_if :
    let n : Name.Written :=
      ⟨.escape [⟨'0', rfl⟩, ⟨'0', rfl⟩, ⟨'6', rfl⟩, ⟨'9', rfl⟩] rfl (by decide), [.plain 'f' rfl],
        trivial⟩
    let r := (startingAt "else \\u0069f(a)".toList 5 .legacy).next
    (∀ d ∈ "(a)".toList.head?, Name.IsBehind d) ∧ n.escaped ∧
      nameKind .legacy (String.ofList n.word) ≠ .identifier ∧
      r.1 = .ok .identifier ∧ r.2.lexeme = "\\u0069f".toList ∧ r.2.cursor.rest = "(a)".toList ∧
      (startingAt r.2.value 0 .legacy).next.1 = .ok .identifier ∧
      (startingAt r.2.value 0 .legacy).next.2.value = r.2.value := by
  intro n r
  have hrest : ∀ d ∈ "(a)".toList.head?, Name.IsBehind d := by
    rintro d ⟨⟩
    exact ⟨rfl, by decide, rfl⟩
  have hkind : nameKind .legacy (String.ofList n.word) ≠ .identifier := by
    decide
  obtain ⟨⟨hlexeme, -, -, hend⟩, -, hescaped⟩ := next_name .legacy n "else ".toList hrest
  obtain ⟨hname, -, hmore⟩ := hescaped rfl
  obtain ⟨-, hagain, hvalue, -⟩ := hmore hkind
  exact ⟨hrest, rfl, hkind, hname, hlexeme, hend, hagain.trans hname, hvalue⟩

end LexemeReader

end ScriptExcerpt
