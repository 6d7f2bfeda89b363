import ScriptExcerpt.Text.CodeUnit
import ScriptExcerpt.Proofs.Text

/-!
# Decoding code units

The text of a sequence of code units can be read off the sequence as a whole
(`decodeLossy`). A decoder, which sees the units one after the other, comes to the
same text.

* `Decoder.Decodes`: a decoder has seen these units, and any others may follow;
  `Decoder.Decodes.char` and `Decoder.Decodes.unit` add to them;
* `decodeLossy_encode`: the units of a text are decoded to the text;
* `countP_isInvisible_decodeLossy`: each invisible character comes from one unit.
-/

namespace ScriptExcerpt.Text.CodeUnit

/-! ## Units and texts -/

/-- The code units of a character: one, or a surrogate pair. -/
def ofChar (c : Char) : List UInt16 :=
  let n := c.toNat
  if n < 0x10000 then [n.toUInt16]
  else [(0xd800 + (n - 0x10000) / 0x400).toUInt16, (0xdc00 + (n - 0x10000) % 0x400).toUInt16]

/-- The code units of a text. -/
def encode (cs : List Char) : List UInt16 :=
  cs.flatMap ofChar

/-- The character of a unit that is in no pair. -/
def single (u : UInt16) : Char :=
  if isHigh u || isLow u then replacement else Char.ofNat u.toNat

/-- The text of a sequence of code units, with a replacement character for each
    surrogate that stands alone. -/
def decodeLossy : List UInt16 → List Char
  | [] => []
  | [u] => [single u]
  | u :: v :: us =>
    if isHigh u && isLow v then pair u v :: decodeLossy us else single u :: decodeLossy (v :: us)

variable {c : Char} {u v : UInt16} {us vs : List UInt16}

theorem isHigh_iff : isHigh u ↔ 0xd800 ≤ u.toNat ∧ u.toNat < 0xdc00 := by
  simp [isHigh, UInt16.le_iff_toNat_le, UInt16.lt_iff_toNat_lt]

theorem isLow_iff : isLow u ↔ 0xdc00 ≤ u.toNat ∧ u.toNat < 0xe000 := by
  simp [isLow, UInt16.le_iff_toNat_le, UInt16.lt_iff_toNat_lt]

theorem not_isLow_of_isHigh (h : isHigh u) : isLow u = false := by
  rw [← Bool.not_eq_true, isLow_iff]
  rw [isHigh_iff] at h
  omega

theorem single_of_isHigh (h : isHigh u) : single u = replacement := by
  rw [single, h]
  rfl

theorem single_of_isLow (h : isLow u) : single u = replacement := by
  rw [single, h, Bool.or_true]
  rfl

theorem decodeLossy_pair (hu : isHigh u) (hv : isLow v) :
    decodeLossy (u :: v :: us) = pair u v :: decodeLossy us := by
  rw [decodeLossy, hu, hv]
  rfl

/-- A unit of which the next one is no second half stands alone. -/
theorem decodeLossy_cons (h : isHigh u → ∀ v ∈ us.head?, isLow v = false) :
    decodeLossy (u :: us) = single u :: decodeLossy us := by
  cases us with
  | nil => rfl
  | cons v us =>
    rw [decodeLossy, if_neg]
    intro hpair
    obtain ⟨hu, hv⟩ := Bool.and_eq_true_iff.1 hpair
    simp [h hu v rfl] at hv

theorem decodeLossy_cons_of_not_isHigh (h : isHigh u = false) :
    decodeLossy (u :: us) = single u :: decodeLossy us :=
  decodeLossy_cons fun hu => absurd hu (by simp [h])

theorem toNat_lt_or (c : Char) :
    c.toNat < 0xd800 ∨ 0xdfff < c.toNat ∧ c.toNat < 0x110000 :=
  c.valid

theorem toNat_ofNat {n : Nat} (h : n.isValidChar) : (Char.ofNat n).toNat = n := by
  rw [Char.ofNat, dif_pos h]
  rfl

/-- A character of the basic plane is the text of its unit. -/
theorem single_toUInt16 (h : c.toNat < 0x10000) :
    isHigh c.toNat.toUInt16 = false ∧ isLow c.toNat.toUInt16 = false ∧
      single c.toNat.toUInt16 = c := by
  have hn : c.toNat.toUInt16.toNat = c.toNat := by simp [Nat.mod_eq_of_lt h]
  have hvalid := toNat_lt_or c
  have hhigh : isHigh c.toNat.toUInt16 = false := by
    rw [← Bool.not_eq_true, isHigh_iff, hn]
    omega
  have hlow : isLow c.toNat.toUInt16 = false := by
    rw [← Bool.not_eq_true, isLow_iff, hn]
    omega
  refine ⟨hhigh, hlow, ?_⟩
  rw [single, hhigh, hlow, hn]
  exact Char.ofNat_toNat c

/-- Any other character is the text of its surrogate pair. -/
theorem pair_toUInt16 (h : ¬ c.toNat < 0x10000) :
    isHigh (0xd800 + (c.toNat - 0x10000) / 0x400).toUInt16 ∧
      isLow (0xdc00 + (c.toNat - 0x10000) % 0x400).toUInt16 ∧
        pair (0xd800 + (c.toNat - 0x10000) / 0x400).toUInt16
          (0xdc00 + (c.toNat - 0x10000) % 0x400).toUInt16 = c := by
  have hvalid := toNat_lt_or c
  have hhigh : (0xd800 + (c.toNat - 0x10000) / 0x400).toUInt16.toNat =
      0xd800 + (c.toNat - 0x10000) / 0x400 := by
    rw [Nat.toUInt16_eq, UInt16.toNat_ofNat']
    omega
  have hlow : (0xdc00 + (c.toNat - 0x10000) % 0x400).toUInt16.toNat =
      0xdc00 + (c.toNat - 0x10000) % 0x400 := by
    rw [Nat.toUInt16_eq, UInt16.toNat_ofNat']
    omega
  refine ⟨?_, ?_, ?_⟩
  · rw [isHigh_iff, hhigh]
    omega
  · rw [isLow_iff, hlow]
    omega
  · have hn : 0x10000 + (0xd800 + (c.toNat - 0x10000) / 0x400 - 0xd800) * 0x400 +
        (0xdc00 + (c.toNat - 0x10000) % 0x400 - 0xdc00) = c.toNat := by
      omega
    rw [pair, hhigh, hlow, hn]
    exact Char.ofNat_toNat c

/-- No character starts with the second half of a pair. -/
theorem not_isLow_of_mem_head?_ofChar (h : u ∈ (ofChar c ++ vs).head?) : isLow u = false := by
  rw [ofChar] at h
  split at h
  · next hc =>
    obtain rfl := Option.some.inj h
    exact (single_toUInt16 hc).2.1
  · next hc =>
    obtain rfl := Option.some.inj h
    exact not_isLow_of_isHigh (pair_toUInt16 hc).1

theorem decodeLossy_ofChar_append (c : Char) (vs : List UInt16) :
    decodeLossy (ofChar c ++ vs) = c :: decodeLossy vs := by
  rw [ofChar]
  split
  · next hc =>
    obtain ⟨hhigh, -, hsingle⟩ := single_toUInt16 hc
    rw [List.singleton_append, decodeLossy_cons_of_not_isHigh hhigh, hsingle]
  · next hc =>
    obtain ⟨hhigh, hlow, hpair⟩ := pair_toUInt16 hc
    rw [List.cons_append, List.singleton_append, decodeLossy_pair hhigh hlow, hpair]

/-- The units of a text are decoded to the text. -/
theorem decodeLossy_encode (cs : List Char) : decodeLossy (encode cs) = cs := by
  induction cs with
  | nil => rfl
  | cons c cs ih => rw [encode, List.flatMap_cons, decodeLossy_ofChar_append, ← encode, ih]

/-! ## Decoders -/

namespace Decoder

variable {d : Decoder}

/-- The decoder has seen the units `us`, whatever units follow. -/
structure Decodes (d : Decoder) (us : List UInt16) : Prop where
  pending : ∀ high ∈ d.pending, isHigh high
  decodeLossy_append (vs : List UInt16) :
    decodeLossy (us ++ vs) = d.text.reverse ++ decodeLossy (d.pending.toList ++ vs)

theorem decodes_empty : empty.Decodes [] := ⟨by simp [empty], fun _ => rfl⟩

/-- What no second half follows is decoded at once. -/
theorem Decodes.flush (h : d.Decodes us) (vs : List UInt16)
    (hvs : ∀ v ∈ vs.head?, isLow v = false) :
    d.flush.pending = none ∧ decodeLossy (us ++ vs) = d.flush.text.reverse ++ decodeLossy vs := by
  obtain ⟨text, pending⟩ := d
  have happend := h.decodeLossy_append vs
  cases pending with
  | none => exact ⟨rfl, happend⟩
  | some high =>
    have hhigh : isHigh high := h.pending high rfl
    refine ⟨rfl, happend.trans ?_⟩
    rw [Option.toList_some, List.singleton_append, decodeLossy_cons fun _ => hvs,
      single_of_isHigh hhigh]
    simp [Decoder.flush]

/-- The text of a decoder is that of the units. -/
theorem Decodes.value_eq (h : d.Decodes us) : d.value = decodeLossy us := by
  have hflush := (h.flush [] (by simp)).2
  rw [List.append_nil, decodeLossy, List.append_nil] at hflush
  exact hflush.symm

theorem Decodes.char (h : d.Decodes us) (c : Char) : (d.char c).Decodes (us ++ ofChar c) := by
  obtain ⟨hpending, -⟩ := h.flush [] (by simp)
  refine ⟨fun high hmem => ?_, fun vs => ?_⟩
  · simp [Decoder.char, hpending] at hmem
  · have hflush := (h.flush (ofChar c ++ vs) fun v hv =>
      not_isLow_of_mem_head?_ofChar hv).2
    rw [List.append_assoc, hflush, decodeLossy_ofChar_append]
    simp [Decoder.char, hpending]

theorem Decodes.unit (h : d.Decodes us) (u : UInt16) : (d.unit u).Decodes (us ++ [u]) := by
  rw [Decoder.unit]
  split
  · next hhigh =>
    -- Whatever comes, a first half behind another one leaves that one alone.
    refine ⟨fun high hmem => Option.some.inj hmem ▸ hhigh, fun vs => ?_⟩
    have hflush := (h.flush (u :: vs)
      (fun v hv => Option.some.inj hv ▸ not_isLow_of_isHigh hhigh)).2
    rw [List.append_assoc, List.singleton_append, hflush]
    rfl
  · next hhigh =>
    rw [Bool.not_eq_true] at hhigh
    split
    · next hlow =>
      split
      · next high hpending =>
        refine ⟨by simp, fun vs => ?_⟩
        have hpair : decodeLossy (high :: u :: vs) = pair high u :: decodeLossy vs :=
          decodeLossy_pair (h.pending high hpending) hlow
        rw [List.append_assoc, h.decodeLossy_append, hpending, Option.toList_some,
          List.cons_append, List.nil_append, List.singleton_append, hpair]
        simp
      · next hpending =>
        refine ⟨by simp, fun vs => ?_⟩
        rw [List.append_assoc, h.decodeLossy_append, hpending, Option.toList_none,
          List.nil_append, List.singleton_append, decodeLossy_cons_of_not_isHigh hhigh,
          single_of_isLow hlow]
        simp
    · next hlow =>
      rw [Bool.not_eq_true] at hlow
      have hsingle : single u = Char.ofNat u.toNat := by
        rw [single, hhigh, hlow]
        rfl
      obtain ⟨hpending, -⟩ := h.flush [] (by simp)
      refine ⟨fun high hmem => ?_, fun vs => ?_⟩
      · simp [Decoder.char, hpending] at hmem
      · have hflush := (h.flush (u :: vs) (fun v hv => Option.some.inj hv ▸ hlow)).2
        rw [List.append_assoc, List.singleton_append, hflush,
          decodeLossy_cons_of_not_isHigh hhigh, hsingle]
        simp [Decoder.char, hpending]

end Decoder

/-! ## Invisible characters -/

/-- The unit stands for an invisible character. -/
def isInvisibleUnit (u : UInt16) : Bool := isInvisible (single u)

theorem toNat_le_of_le {c d : Char} (h : c ≤ d) : c.toNat ≤ d.toNat :=
  UInt32.le_iff_toNat_le.1 (Char.le_def.1 h)

/-- The invisible characters are in the basic plane, and not in ASCII. -/
theorem toNat_of_isInvisible (h : isInvisible c) : 0x80 ≤ c.toNat ∧ c.toNat < 0x10000 := by
  have hbetween (a b : Char) (ha : 0x80 ≤ a.toNat) (hb : b.toNat < 0x10000)
      (hc : a ≤ c ∧ c ≤ b) : 0x80 ≤ c.toNat ∧ c.toNat < 0x10000 :=
    ⟨Nat.le_trans ha (toNat_le_of_le hc.1), Nat.lt_of_le_of_lt (toNat_le_of_le hc.2) hb⟩
  have heq (a : Char) (ha : 0x80 ≤ a.toNat ∧ a.toNat < 0x10000) (hc : c = a) :
      0x80 ≤ c.toNat ∧ c.toNat < 0x10000 := hc ▸ ha
  simp only [isInvisible, Bool.or_eq_true, Bool.and_eq_true, beq_iff_eq, decide_eq_true_eq] at h
  rcases h with ((((((((h | h) | h) | h) | h) | h) | h) | h) | h) | h
  · exact heq _ (by decide) h
  · exact hbetween _ _ (by decide) (by decide) h
  · exact heq _ (by decide) h
  · exact heq _ (by decide) h
  · exact heq _ (by decide) h
  · exact heq _ (by decide) h
  · exact heq _ (by decide) h
  · exact hbetween _ _ (by decide) (by decide) h
  · exact hbetween _ _ (by decide) (by decide) h
  · exact hbetween _ _ (by decide) (by decide) h

theorem not_isInvisible_pair (hu : isHigh u) (hv : isLow v) : isInvisible (pair u v) = false := by
  rw [isHigh_iff] at hu
  rw [isLow_iff] at hv
  have hvalid : (0x10000 + (u.toNat - 0xd800) * 0x400 + (v.toNat - 0xdc00)).isValidChar := by
    rw [Nat.isValidChar]
    omega
  rw [← Bool.not_eq_true]
  intro h
  have hlt := (toNat_of_isInvisible h).2
  rw [pair, toNat_ofNat hvalid] at hlt
  omega

/-- Each invisible character comes from one unit. -/
theorem countP_isInvisible_decodeLossy (us : List UInt16) :
    (decodeLossy us).countP isInvisible = us.countP isInvisibleUnit := by
  fun_induction decodeLossy us with
  | case1 => rfl
  | case2 u => rfl
  | case3 u v us h ih =>
    obtain ⟨hu, hv⟩ := Bool.and_eq_true_iff.1 h
    have hu' : isInvisibleUnit u = false := by rw [isInvisibleUnit, single_of_isHigh hu]; rfl
    have hv' : isInvisibleUnit v = false := by rw [isInvisibleUnit, single_of_isLow hv]; rfl
    rw [List.countP_cons, List.countP_cons, List.countP_cons, not_isInvisible_pair hu hv, hu', hv',
      ih]
    rfl
  | case4 u v us h ih => rw [List.countP_cons, List.countP_cons, ih, isInvisibleUnit]

/-- An invisible character has one unit. -/
theorem countP_isInvisibleUnit_ofChar (c : Char) :
    (ofChar c).countP isInvisibleUnit = [c].countP isInvisible := by
  rw [← countP_isInvisible_decodeLossy, ← List.append_nil (ofChar c), decodeLossy_ofChar_append]
  rfl

end ScriptExcerpt.Text.CodeUnit
