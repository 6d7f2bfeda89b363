import ScriptExcerpt.Proofs.Place
import ScriptExcerpt.Proofs.Token.Step

/-!
# Call after call

A stream can be asked for a token again and again, also behind a problem
(`TokenStream.after`). Before the end of the script every call moves on in it,
and from some call on, all of them tell the end (`TokenStream.EndsAt`).

* `TokenStream.leads_after`: a call only moves on.
* `TokenStream.after_of_endOfInput`: what the calls behind the end tell.
* `TokenStream.exists_endsAt`: the end is told, after no more calls than bytes.
* `TokenStream.calls_end`: the calls from an offset of a script on.
-/

namespace ScriptExcerpt

open Text

namespace TokenStream

variable {s s' : TokenStream} {t : Token} {n : Nat}

/-- The stream behind the first `n` calls, whatever they told. -/
def after (s : TokenStream) : Nat → TokenStream
  | 0 => s
  | n + 1 => (s.after n).next.2

theorem after_succ' (s : TokenStream) (n : Nat) : s.after (n + 1) = s.next.2.after n := by
  induction n with
  | zero => rfl
  | succ n ih => rw [after, ih, after]

theorem version_after (s : TokenStream) (n : Nat) :
    (s.after n).reader.version = s.reader.version := by
  induction n with
  | zero => rfl
  | succ n ih => rw [after, version_next, ih]

theorem leads_after (s : TokenStream) (n : Nat) :
    s.reader.cursor.Leads (s.after n).reader.cursor := by
  induction n with
  | zero => exact .refl _
  | succ n ih => exact ih.trans (leads_reader_next rfl)

/-- Every call stays in the script. -/
theorem standsIn_after (source : List Char) (offset : Nat) (v : Version) (n : Nat) :
    ((startingAt source offset v).after n).reader.cursor.StandsIn source :=
  (Cursor.standsIn_startingAt source offset).leads (leads_after (startingAt source offset v) n)

/-- The tokens that the first `n` calls told, the latest first. -/
def told (s : TokenStream) : Nat → List Token
  | 0 => []
  | n + 1 =>
    match (s.after n).next.1 with
    | .ok t => t :: s.told n
    | .error _ => s.told n

theorem told_succ_of_token (h : (s.after n).next = (.ok t, s')) :
    s.told (n + 1) = t :: s.told n := by
  rw [told, h]

theorem told_succ_of_problem {p : Problem} (h : (s.after n).next = (.error p, s')) :
    s.told (n + 1) = s.told n := by
  rw [told, h]

/-! ## The end of the script -/

/-- The end of a script is told as its very end. -/
theorem span_of_endOfInput {source : List Char} (hs : s.reader.cursor.StandsIn source)
    (h : s.next = (.ok t, s')) (ht : t.kind = .endOfInput) :
    t.span = ⟨byteLength source, byteLength source⟩ := by
  have hlead := leads_reader_next h
  obtain ⟨hend, rfl⟩ := atEnd_of_next h ht
  rw [token, hend.opening, hend.stop, (hs.leads hlead).offset_eq_of_rest_nil hend.rest]

/-- Once the end of the script was told, every call tells it, and changes
    neither the reader nor the balance of brackets. -/
theorem after_of_endOfInput (h : s.next = (.ok t, s')) (ht : t.kind = .endOfInput) (m : Nat) :
    (s.after m).next.1 = .ok t ∧ (s.after (m + 1)).reader = s'.reader ∧
      (s.after (m + 1)).isBalanced = s'.isBalanced := by
  induction m with
  | zero =>
    have hafter : s.after 1 = s' := congrArg Prod.snd h
    rw [hafter, after, h]
    exact ⟨rfl, rfl, rfl⟩
  | succ m ih =>
    obtain ⟨hend, rfl⟩ := atEnd_of_next h ht
    obtain ⟨-, hreader, hbalanced⟩ := ih
    rw [← hreader] at hend ⊢
    have hnext := next_of_atEnd hend
    have hafter : s.after (m + 2) = _ := congrArg Prod.snd hnext
    rw [hafter]
    exact ⟨congrArg Prod.fst hnext, rfl, hbalanced⟩

/-- From the call number `n` on, every call tells the end of the script, by the
    token `t`; the calls before move on, and tell something else. -/
structure EndsAt (s : TokenStream) (n : Nat) (t : Token) : Prop where
  kind : t.kind = .endOfInput
  before : ∀ i < n, ∀ u, (s.after i).next.1 = .ok u → u.kind ≠ .endOfInput
  offset_lt : ∀ i < n, (s.after i).reader.cursor.offset < (s.after (i + 1)).reader.cursor.offset
  told : ∀ m ≥ n, (s.after m).next.1 = .ok t
  steady : ∀ m ≥ n, (s.after (m + 1)).isBalanced = (s.after (n + 1)).isBalanced ∧
    (s.after (m + 1)).reader.line = (s.after (n + 1)).reader.line ∧
      (s.after (m + 1)).flags = (s.after (n + 1)).flags

theorem endsAt_zero (h : s.next = (.ok t, s')) (ht : t.kind = .endOfInput) : s.EndsAt 0 t := by
  have hafter := after_of_endOfInput h ht
  exact
    { kind := ht
      before := fun _ hi => absurd hi (Nat.not_lt_zero _)
      offset_lt := fun _ hi => absurd hi (Nat.not_lt_zero _)
      told := fun m _ => (hafter m).1
      steady := fun m _ => by
        rw [(hafter m).2.2, (hafter 0).2.2, flags, flags, (hafter m).2.1, (hafter 0).2.1]
        exact ⟨rfl, rfl, rfl⟩ }

/-- One call that tells something else comes before. -/
theorem EndsAt.of_next (h : s.next.2.EndsAt n t)
    (hs : ∀ u, s.next.1 = .ok u → u.kind ≠ .endOfInput) : s.EndsAt (n + 1) t where
  kind := h.kind
  before
    | 0, _ => hs
    | i + 1, hi => by
      rw [after_succ']
      exact h.before i (Nat.lt_of_succ_lt_succ hi)
  offset_lt
    | 0, _ => offset_lt_next hs
    | i + 1, hi => by
      rw [after_succ', after_succ']
      exact h.offset_lt i (Nat.lt_of_succ_lt_succ hi)
  told
    | m + 1, hm => by
      rw [after_succ']
      exact h.told m (Nat.le_of_succ_le_succ hm)
  steady
    | m + 1, hm => by
      rw [after_succ' s (m + 1), after_succ' s (n + 1)]
      exact h.steady m (Nat.le_of_succ_le_succ hm)

/-- The end of the script is told, after no more calls than bytes. -/
theorem exists_endsAt (s : TokenStream) :
    ∃ n t, s.EndsAt n t ∧ n ≤ byteLength s.reader.cursor.rest := by
  by_cases hend : ∃ t, s.next.1 = .ok t ∧ t.kind = .endOfInput
  · obtain ⟨t, hnext, ht⟩ := hend
    exact ⟨0, t, endsAt_zero (Prod.ext hnext rfl) ht, Nat.zero_le _⟩
  · -- The call moves on, so that less is left to read.
    have hs : ∀ u, s.next.1 = .ok u → u.kind ≠ .endOfInput := fun u hu hk => hend ⟨u, hu, hk⟩
    have hlt := offset_lt_next hs
    have hlead : s.reader.cursor.Leads s.next.2.reader.cursor := leads_reader_next rfl
    have hrest := hlead.offset_add_rest
    obtain ⟨n, t, h, hn⟩ := exists_endsAt s.next.2
    refine ⟨n + 1, t, h.of_next hs, ?_⟩
    omega
termination_by byteLength s.reader.cursor.rest
decreasing_by
  omega

/-- Read from an offset on, a script ends after no more calls than bytes are
    left; until then every call moves on. -/
theorem calls_end (source : List Char) (offset : Nat) (v : Version) :
    ∃ n t, (startingAt source offset v).EndsAt n t ∧
      n ≤ byteLength source - (startingAt source offset v).reader.cursor.offset ∧
        t.span = ⟨byteLength source, byteLength source⟩ := by
  obtain ⟨n, t, h, hn⟩ := exists_endsAt (startingAt source offset v)
  have hrest := (standsIn_after source offset v 0).offset_add_rest
  refine ⟨n, t, h, ?_, ?_⟩
  · rw [← hrest]
    exact Nat.le_trans hn (Nat.le_of_eq (Nat.add_sub_cancel_left ..).symm)
  · exact span_of_endOfInput (standsIn_after source offset v n)
      (Prod.ext (h.told n (Nat.le_refl n)) rfl) h.kind

end TokenStream

end ScriptExcerpt
