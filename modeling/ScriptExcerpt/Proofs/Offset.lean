import ScriptExcerpt.Proofs.Place

/-!
# Offsets inside characters

An offset that falls inside a character counts as the start of that character, and one past the end
of the script as its end. A text that is cut from either side keeps all the characters that fit in
whole; so it falls short of the number of bytes asked for by less than one character has.

* `Text.isFloor_takeBytes`: where an offset cuts a script;
* `Text.isLongestEnd_lastBytes`: the end of a text that fits in a number of bytes;
* `Text.excerptBefore_longest`: the excerpt before any position of any script.
-/

namespace ScriptExcerpt.Text

variable {source before cs : List Char} {offset n : Nat}

/-- Of the offsets between two characters of the script, `n` is the last one up to
    `offset`. -/
structure IsFloor (source : List Char) (offset n : Nat) : Prop where
  boundary : IsBoundary source n
  le : n ≤ offset
  last : ∀ m, IsBoundary source m → m ≤ offset → m ≤ n

/-- Of the ends of the text that have `n` bytes or less, `w` is the longest. -/
structure IsLongestEnd (cs : List Char) (n : Nat) (w : List Char) : Prop where
  suffix : w <:+ cs
  le : byteLength w ≤ n
  longest : ∀ u, u <:+ cs → byteLength u ≤ n → u <:+ w

/-! ## From the start -/

/-- What fits in whole is taken. -/
theorem prefix_takeBytes (h : before <+: source) (hle : byteLength before ≤ offset) :
    before <+: takeBytes offset source := by
  induction source generalizing before offset with
  | nil => exact h
  | cons c source ih =>
    cases before with
    | nil => exact List.nil_prefix
    | cons b before =>
      obtain ⟨rfl, hpre⟩ := List.cons_prefix_cons.1 h
      rw [byteLength] at hle
      have hb : b.utf8Size ≤ offset := Nat.le_trans (Nat.le_add_right _ _) hle
      rw [takeBytes, if_pos hb]
      exact List.cons_prefix_cons.2 ⟨rfl, ih hpre (Nat.le_sub_of_add_le' hle)⟩

theorem takeBytes_prefix (n : Nat) (cs : List Char) : takeBytes n cs <+: cs :=
  ⟨_, takeBytes_append_dropBytes n cs⟩

theorem byteLength_le_of_prefix (h : before <+: source) :
    byteLength before ≤ byteLength source := by
  obtain ⟨rest, rfl⟩ := h
  rw [byteLength_append]
  exact Nat.le_add_right _ _

theorem isFloor_takeBytes (source : List Char) (offset : Nat) :
    IsFloor source offset (byteLength (takeBytes offset source)) where
  boundary := ⟨_, takeBytes_prefix offset source, rfl⟩
  le := byteLength_takeBytes_le offset source
  last := by
    rintro _ ⟨before, h, rfl⟩ hle
    exact byteLength_le_of_prefix (prefix_takeBytes h hle)

/-- No boundary lies past the end of the script. -/
theorem IsFloor.min_length (h : IsFloor source offset n) :
    IsFloor source (min offset (byteLength source)) n where
  boundary := h.boundary
  le := by
    obtain ⟨before, hbefore, rfl⟩ := h.boundary
    exact Nat.le_min.2 ⟨h.le, byteLength_le_of_prefix hbefore⟩
  last m hm hle := h.last m hm (Nat.le_trans hle (Nat.min_le_left _ _))

/-- What an offset leaves of the script begins at the character that it falls
    into. -/
theorem dropBytes_floor (source : List Char) (offset : Nat) :
    dropBytes (byteLength (takeBytes offset source)) source = dropBytes offset source := by
  have h := dropBytes_append (takeBytes offset source) (dropBytes offset source)
  rwa [takeBytes_append_dropBytes] at h

/-- What does not fit in whole is one character, and no character has more than four bytes. -/
theorem lt_byteLength_takeBytes (h : n ≤ byteLength cs) : n < byteLength (takeBytes n cs) + 4 := by
  induction cs generalizing n with
  | nil =>
    obtain rfl := Nat.le_zero.1 h
    exact Nat.lt_add_of_pos_left (by decide)
  | cons c cs ih =>
    rw [byteLength] at h
    rw [takeBytes]
    split
    · have hrest := @ih (n - c.utf8Size) (Nat.sub_le_iff_le_add'.2 h)
      rw [byteLength]
      omega
    · next hc =>
      have hfour := c.utf8Size_le_four
      rw [byteLength]
      omega

/-! ## From the end -/

theorem byteLength_reverse (cs : List Char) : byteLength cs.reverse = byteLength cs := by
  induction cs with
  | nil => rfl
  | cons c cs ih =>
    rw [List.reverse_cons, byteLength_append, ih, byteLength, byteLength, byteLength, Nat.add_zero,
      Nat.add_comm]

theorem isLongestEnd_lastBytes (cs : List Char) (n : Nat) :
    IsLongestEnd cs n (lastBytes n cs) where
  suffix := by
    rw [← List.reverse_prefix, lastBytes, List.reverse_reverse]
    exact takeBytes_prefix n cs.reverse
  le := by
    rw [lastBytes, byteLength_reverse]
    exact byteLength_takeBytes_le n cs.reverse
  longest u hu hle := by
    rw [← List.reverse_prefix] at hu ⊢
    rw [lastBytes, List.reverse_reverse]
    exact prefix_takeBytes hu (by rwa [byteLength_reverse])

theorem lt_byteLength_lastBytes (h : n ≤ byteLength cs) : n < byteLength (lastBytes n cs) + 4 := by
  rw [← byteLength_reverse] at h
  rw [lastBytes, byteLength_reverse]
  exact lt_byteLength_takeBytes h

/-! ## Excerpts -/

/-- The excerpt before a position, wherever that lies: of the ends of the text before the character
    that the position falls into, it is the longest one that has at most fifty bytes. If that text
    has so many, no more than three of them are missing. -/
theorem excerptBefore_longest (source : List Char) (position : Nat) :
    ∃ before, before <+: source ∧
      IsFloor source (min position (byteLength source)) (byteLength before) ∧
        IsLongestEnd before 50 (excerptBefore source position) ∧
          (50 ≤ byteLength before → 47 ≤ byteLength (excerptBefore source position)) := by
  refine ⟨takeBytes position source, takeBytes_prefix position source,
    (isFloor_takeBytes source position).min_length, isLongestEnd_lastBytes _ _, fun h => ?_⟩
  exact Nat.le_of_lt_add_one (Nat.lt_of_add_lt_add_right (n := 3) (lt_byteLength_lastBytes h))

/-- One character in front of forty-eight bytes does not fit in if it has three. -/
example : (excerptBefore ("\u20ac".toList ++ List.replicate 48 'a') 60).length = 48 := by
  decide +kernel

end ScriptExcerpt.Text
