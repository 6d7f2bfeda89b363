/-!
# Byte offsets and occurrences

A position in a text is the number of bytes before it in UTF-8. An offset that
falls inside a character counts as the start of that character, and one past
the end as the end.

* `takeBytes_append_dropBytes`: cutting at an offset loses nothing.
* `byteLength_takeBytes_le`: the first part has at most the bytes asked for.
* `before?`: the part of a text before the first occurrence of another.
-/

namespace ScriptExcerpt.Text

/-! ## Offsets -/

/-- The number of bytes of `cs` in UTF-8. -/
def byteLength : List Char → Nat
  | [] => 0
  | c :: cs => c.utf8Size + byteLength cs

/-- The longest part of `cs`, from its start, of at most `n` bytes. -/
def takeBytes : Nat → List Char → List Char
  | _, [] => []
  | n, c :: cs => if c.utf8Size ≤ n then c :: takeBytes (n - c.utf8Size) cs else []

/-- What `takeBytes n cs` leaves of `cs`. -/
def dropBytes : Nat → List Char → List Char
  | _, [] => []
  | n, c :: cs => if c.utf8Size ≤ n then dropBytes (n - c.utf8Size) cs else c :: cs

/-- The text between the offsets `start` and `stop`. -/
def slice (start stop : Nat) (cs : List Char) : List Char :=
  takeBytes (stop - start) (dropBytes start cs)

/-- The longest part of `cs`, up to its end, of at most `n` bytes. -/
def lastBytes (n : Nat) (cs : List Char) : List Char :=
  (takeBytes n cs.reverse).reverse

/-- The most bytes that `excerptBefore` shows. -/
def excerptBytes : Nat := 50

/-- The end of the text before `offset`, as much as fits in `excerptBytes`. -/
def excerptBefore (cs : List Char) (offset : Nat) : List Char :=
  lastBytes excerptBytes (takeBytes offset cs)

theorem byteLength_append (a b : List Char) :
    byteLength (a ++ b) = byteLength a + byteLength b := by
  induction a with
  | nil => simp [byteLength]
  | cons c cs ih => simp [byteLength, ih, Nat.add_assoc]

theorem takeBytes_append_dropBytes (n : Nat) (cs : List Char) :
    takeBytes n cs ++ dropBytes n cs = cs := by
  induction cs generalizing n with
  | nil => rfl
  | cons c cs ih =>
    rw [takeBytes, dropBytes]
    split
    · rw [List.cons_append, ih]
    · rfl

theorem byteLength_takeBytes_le (n : Nat) (cs : List Char) :
    byteLength (takeBytes n cs) ≤ n := by
  induction cs generalizing n with
  | nil => exact Nat.zero_le n
  | cons c cs ih =>
    rw [takeBytes]
    split
    · next h =>
      have := ih (n - c.utf8Size)
      rw [byteLength]
      omega
    · exact Nat.zero_le n

/-! ## Occurrences -/

/-- The part of `cs` before the first occurrence of `needle`, if there is one. -/
def before? (needle : List Char) : List Char → Option (List Char)
  | [] => if needle.isPrefixOf [] then some [] else none
  | c :: cs =>
    if needle.isPrefixOf (c :: cs) then some []
    else (before? needle cs).map (c :: ·)

/-- What `before?` finds is followed by the text looked for. -/
theorem append_prefix_of_before? {needle cs a : List Char} (h : before? needle cs = some a) :
    (a ++ needle) <+: cs := by
  induction cs generalizing a with
  | nil =>
    rw [before?] at h
    split at h
    · next hp =>
      obtain rfl := Option.some.inj h
      simpa using hp
    · simp at h
  | cons c cs ih =>
    rw [before?] at h
    split at h
    · next hp =>
      obtain rfl := Option.some.inj h
      simpa using hp
    · obtain ⟨b, hb, rfl⟩ := Option.map_eq_some_iff.1 h
      simpa using ih hb

end ScriptExcerpt.Text
