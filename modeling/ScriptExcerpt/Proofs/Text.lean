import ScriptExcerpt.Text.Character
import ScriptExcerpt.Text.Offset

/-!
# Laws of texts

* `before?_eq_some_iff`, `before?_eq_none_iff`: the search for a text finds its
  first occurrence, and fails only if there is none.
* `before?_append`: the first occurrence of a text, lengthened to the left by
  what stands before it, is the first occurrence of the longer text.
* `slice_append`: an offset at the end of a part of a text cuts it there.
* `not_isLineEnd_of_isBlank`, `not_isLineEnd_of_isInvisible`: what separates two
  lexemes on a line (`IsGap`) does not end the line.
-/

namespace ScriptExcerpt.Text

/-! ## Occurrences -/

/-- The text `needle` occurs in `cs` behind `before`, and not before that. -/
def FirstOccurrence (needle cs before : List Char) : Prop :=
  (before ++ needle) <+: cs ∧ ∀ b, (b ++ needle) <+: cs → before.length ≤ b.length

/-- A search that fails leaves no occurrence. -/
theorem not_append_prefix_of_before? {needle cs : List Char} (h : before? needle cs = none)
    (a : List Char) : ¬ (a ++ needle) <+: cs := by
  induction cs generalizing a with
  | nil =>
    rw [before?] at h
    split at h
    · simp at h
    · next hp =>
      intro ha
      obtain ⟨-, rfl⟩ := List.append_eq_nil_iff.1 (List.prefix_nil.1 ha)
      exact hp rfl
  | cons c cs ih =>
    rw [before?] at h
    split at h
    · simp at h
    · next hp =>
      intro ha
      -- An occurrence begins right here, or in the text behind `c`.
      cases a with
      | nil => exact hp (List.isPrefixOf_iff_prefix.2 ha)
      | cons d a =>
        exact ih (Option.map_eq_none_iff.1 h) a (List.cons_prefix_cons.1 ha).2

/-- No occurrence begins before the one that is found. -/
theorem length_le_of_before? {needle cs a b : List Char} (h : before? needle cs = some a)
    (hb : (b ++ needle) <+: cs) : a.length ≤ b.length := by
  induction cs generalizing a b with
  | nil =>
    rw [before?] at h
    split at h
    · obtain rfl := Option.some.inj h
      exact Nat.zero_le _
    · simp at h
  | cons c cs ih =>
    rw [before?] at h
    split at h
    · obtain rfl := Option.some.inj h
      exact Nat.zero_le _
    · next hp =>
      obtain ⟨a, ha, rfl⟩ := Option.map_eq_some_iff.1 h
      cases b with
      | nil => exact absurd (List.isPrefixOf_iff_prefix.2 hb) hp
      | cons d b => exact Nat.succ_le_succ (ih ha (List.cons_prefix_cons.1 hb).2)

/-- The search for a text finds its first occurrence. -/
theorem before?_eq_some_iff {needle cs a : List Char} :
    before? needle cs = some a ↔ FirstOccurrence needle cs a := by
  constructor
  · exact fun h => ⟨append_prefix_of_before? h, fun _ => length_le_of_before? h⟩
  · rintro ⟨ha, hmin⟩
    cases hf : before? needle cs with
    | none => exact absurd ha (not_append_prefix_of_before? hf a)
    | some b =>
      -- Neither of the two occurrences begins before the other.
      have hb := append_prefix_of_before? hf
      have hlen : b.length = a.length :=
        Nat.le_antisymm (length_le_of_before? hf ha) (hmin b hb)
      have hpre := List.prefix_of_prefix_length_le ((List.prefix_append b _).trans hb)
        ((List.prefix_append a _).trans ha) (Nat.le_of_eq hlen)
      rw [hpre.eq_of_length hlen]

/-- The search for a text fails exactly if it does not occur. -/
theorem before?_eq_none_iff {needle cs : List Char} :
    before? needle cs = none ↔ ¬ needle <:+: cs := by
  constructor
  · rintro h ⟨a, b, hab⟩
    exact not_append_prefix_of_before? h a ⟨b, hab⟩
  · intro h
    cases hf : before? needle cs with
    | none => rfl
    | some a =>
      obtain ⟨b, hb⟩ := append_prefix_of_before? hf
      exact absurd ⟨a, b, hb⟩ h

/-- The first occurrence of `needle` is also where `head ++ needle` occurs
    first, if `head` stands before it. -/
theorem before?_append {needle cs before head : List Char}
    (h : before? needle cs = some (before ++ head)) :
    before? (head ++ needle) cs = some before := by
  obtain ⟨hocc, hmin⟩ := before?_eq_some_iff.1 h
  refine before?_eq_some_iff.2 ⟨by simpa using hocc, fun b hb => ?_⟩
  have := hmin (b ++ head) (by simpa using hb)
  simp only [List.length_append] at this
  omega

/-! ## Offsets -/

theorem takeBytes_zero (cs : List Char) : takeBytes 0 cs = [] := by
  cases cs with
  | nil => rfl
  | cons c cs => rw [takeBytes, if_neg (Nat.not_le.2 c.utf8Size_pos)]

theorem dropBytes_zero (cs : List Char) : dropBytes 0 cs = cs := by
  cases cs with
  | nil => rfl
  | cons c cs => rw [dropBytes, if_neg (Nat.not_le.2 c.utf8Size_pos)]

/-- Taking the bytes of a part takes the part. -/
theorem takeBytes_append (a b : List Char) : takeBytes (byteLength a) (a ++ b) = a := by
  induction a with
  | nil => exact takeBytes_zero b
  | cons c a ih =>
    rw [byteLength, List.cons_append, takeBytes, if_pos (Nat.le_add_right _ _),
      Nat.add_sub_cancel_left, ih]

/-- Dropping the bytes of a part drops the part. -/
theorem dropBytes_append (a b : List Char) : dropBytes (byteLength a) (a ++ b) = b := by
  induction a with
  | nil => exact dropBytes_zero b
  | cons c a ih =>
    rw [byteLength, List.cons_append, dropBytes, if_pos (Nat.le_add_right _ _),
      Nat.add_sub_cancel_left, ih]

/-- The text between the ends of two parts. -/
theorem slice_append (a b c : List Char) :
    slice (byteLength a) (byteLength a + byteLength b) (a ++ (b ++ c)) = b := by
  rw [slice, dropBytes_append, Nat.add_sub_cancel_left, takeBytes_append]

/-! ## Characters without ink -/

/-- The offsets in a text are further on if another text stands before it. -/
theorem dropBytes_add (a b : List Char) (n : Nat) :
    dropBytes (n + byteLength a) (a ++ b) = dropBytes n b := by
  induction a with
  | nil => rfl
  | cons c a ih =>
    have hsize : n + (c.utf8Size + byteLength a) - c.utf8Size = n + byteLength a := by omega
    rw [byteLength, List.cons_append, dropBytes, if_pos (by omega), hsize, ih]

theorem slice_add (a b : List Char) (m n : Nat) :
    slice (m + byteLength a) (n + byteLength a) (a ++ b) = slice m n b := by
  rw [slice, slice, dropBytes_add, Nat.add_sub_add_right]

theorem mem_of_mem_slice {start stop : Nat} {cs : List Char} {c : Char}
    (h : c ∈ slice start stop cs) : c ∈ cs := by
  rw [← takeBytes_append_dropBytes start cs]
  refine List.mem_append_right _ ?_
  rw [← takeBytes_append_dropBytes (stop - start) (dropBytes start cs)]
  exact List.mem_append_left _ h

theorem eq_of_isLineEnd {c : Char} (h : isLineEnd c) :
    c = '\n' ∨ c = '\r' ∨ c = '\u2028' ∨ c = '\u2029' := by
  simpa [isLineEnd, or_assoc] using h

/-- A line end is none of the other characters that are compared with. -/
theorem ne_of_isLineEnd {c d : Char} (h : isLineEnd c) (hd : isLineEnd d = false) : c ≠ d := by
  rintro rfl
  simp [h] at hd

theorem ne_return_of_not_isLineEnd {c : Char} (h : isLineEnd c = false) : (c == '\r') = false := by
  simp only [isLineEnd, Bool.or_eq_false_iff] at h
  exact h.1.1.2

theorem not_isLineEnd_of_isInvisible {c : Char} (h : isInvisible c) : isLineEnd c = false := by
  rw [← Bool.not_eq_true]
  intro hc
  rcases eq_of_isLineEnd hc with rfl | rfl | rfl | rfl <;> exact absurd h (by decide)

theorem not_isLineEnd_of_isBlank {c : Char} (h : isBlank c) : isLineEnd c = false := by
  rw [← Bool.not_eq_true]
  intro hc
  rcases eq_of_isLineEnd hc with rfl | rfl | rfl | rfl <;> exact absurd h (by decide)

/-- The text separates lexemes on a line: it has only blanks and invisible
    characters. -/
def IsGap (cs : List Char) : Prop := ∀ c ∈ cs, isBlank c || isInvisible c

theorem not_isLineEnd_of_gap {c : Char} (h : isBlank c || isInvisible c) : isLineEnd c = false :=
  (Bool.or_eq_true_iff.1 h).elim not_isLineEnd_of_isBlank not_isLineEnd_of_isInvisible

/-- What ends a line does not belong to a gap. -/
theorem not_gap_of_isLineEnd {c : Char} (h : isLineEnd c) :
    (isBlank c || isInvisible c) = false := by
  rw [← Bool.not_eq_true]
  intro hgap
  simp [not_isLineEnd_of_gap hgap] at h

theorem isGap_nil : IsGap [] := by simp [IsGap]

theorem IsGap.cons {c : Char} {cs : List Char} (hc : isBlank c || isInvisible c) (h : IsGap cs) :
    IsGap (c :: cs) := by
  rw [IsGap, List.forall_mem_cons]
  exact ⟨hc, h⟩

theorem IsGap.append {a b : List Char} (ha : IsGap a) (hb : IsGap b) : IsGap (a ++ b) := by
  rw [IsGap, List.forall_mem_append]
  exact ⟨ha, hb⟩

/-- Invisible characters separate lexemes. -/
theorem isGap_of_isInvisible {cs : List Char} (h : ∀ c ∈ cs, isInvisible c) : IsGap cs :=
  fun c hc => by rw [h c hc, Bool.or_true]

end ScriptExcerpt.Text
