import ScriptExcerpt.Proofs.Excerpt.Closing
import ScriptExcerpt.Text.Name

/-!
# Functions by name

The function assigned to a name is looked for as a text, `name=function`. Where
this occurs first, the name may be the end of a longer one, and then it is the
function assigned to the longer name that is found.

* `exists_name_before`: what stands before a place ends with a name, possibly
  empty, that is not the end of a longer one.
* `functionNamed_of_longer_name`: what is found for a name is also found for any
  longer name that stands there.
* `functionNamed_whole_iff`: when the function is that of the whole name.
-/

namespace ScriptExcerpt

open Text

/-- A name of ASCII characters, none of which has to be escaped. -/
def isPlainName (name : List Char) : Bool :=
  !name.isEmpty && name.all (fun c => c.isAlphanum || c == '$' || c == '_') &&
    !name.head?.any Char.isDigit

/-- No name goes on behind the text `before`: its last character is no part of a
    name. -/
def NameBreak (before : List Char) : Prop :=
  ∀ b c, before = b ++ [c] → isNamePart c = false

variable {v : Version} {source name text before head : List Char}

/-- A text ends with a name, possibly empty, that is not the end of a longer
    one. -/
theorem exists_name_before (cs : List Char) :
    ∃ before head, cs = before ++ head ∧ NameBreak before ∧ ∀ c ∈ head, isNamePart c := by
  rcases List.eq_nil_or_concat cs with rfl | ⟨b, c, rfl⟩
  · exact ⟨[], [], rfl, fun b c h => by simp at h, by simp⟩
  · rw [List.concat_eq_append]
    -- The last character belongs to the name, or there is no name at all.
    by_cases hc : isNamePart c
    · obtain ⟨before, head, rfl, hbreak, hhead⟩ := exists_name_before b
      refine ⟨before, head ++ [c], List.append_assoc .., hbreak, ?_⟩
      intro d hd
      rcases List.mem_append.1 hd with hd | hd
      · exact hhead d hd
      · rwa [List.mem_singleton.1 hd]
    · refine ⟨b ++ [c], [], (List.append_nil _).symm, fun b' c' h => ?_, by simp⟩
      rw [← List.singleton_inj.1 (List.append_inj' h rfl).2]
      simpa using hc
termination_by cs.length

theorem functionAnchor_append (head name : List Char) :
    functionAnchor (head ++ name) = head ++ functionAnchor name := by
  rw [functionAnchor, functionAnchor, List.append_assoc]

/-- What is found is cut at the first occurrence of the anchor. -/
theorem exists_cut_of_functionNamed (h : functionNamed v source name = .ok text) :
    ∃ cut body, FirstOccurrence (functionAnchor name) source cut ∧
      excerpt v source (functionAnchor name) = .ok body ∧ text = functionAnchor name ++ body := by
  rw [functionNamed] at h
  cases he : excerpt v source (functionAnchor name) with
  | error p => simp [he, Except.map] at h
  | ok body =>
    rw [he] at h
    cases hf : before? (functionAnchor name) source with
    | none => simp [excerpt_of_no_occurrence (before?_eq_none_iff.1 hf)] at he
    | some cut => exact ⟨cut, body, before?_eq_some_iff.1 hf, rfl, (Except.ok.inj h).symm⟩

/-- With what stands before the name there, what is found is found too. -/
theorem functionNamed_append
    (hocc : FirstOccurrence (functionAnchor name) source (before ++ head))
    (h : functionNamed v source name = .ok text) :
    functionNamed v source (head ++ name) = .ok (head ++ text) := by
  obtain ⟨-, body, -, he, rfl⟩ := exists_cut_of_functionNamed h
  have hlonger : FirstOccurrence (functionAnchor (head ++ name)) source before := by
    rw [functionAnchor_append]
    exact before?_eq_some_iff.1 (before?_append (before?_eq_some_iff.2 hocc))
  have hsame : excerpt v source (functionAnchor (head ++ name)) = .ok body := by
    rw [excerpt_of_firstOccurrence hlonger, functionAnchor_append, ← List.append_assoc,
      ← excerpt_of_firstOccurrence hocc, he]
  rw [functionNamed, hsame, functionAnchor_append]
  simp [Except.map]

/-- An occurrence of the anchor is that of the whole name exactly if no
    occurrence behind a longer name begins there, or before. -/
theorem nameBreak_iff {cut : List Char}
    (hocc : FirstOccurrence (functionAnchor name) source cut) :
    NameBreak cut ↔ ∀ b longer, longer ≠ [] → (∀ c ∈ longer, isNamePart c) →
      (b ++ functionAnchor (longer ++ name)) <+: source →
        cut.length < (b ++ longer).length := by
  obtain ⟨hcut, hmin⟩ := hocc
  constructor
  · intro hbreak b longer hne hlonger hb
    rw [functionAnchor_append, ← List.append_assoc] at hb
    refine Nat.lt_of_le_of_ne (hmin _ hb) fun hlen => ?_
    -- Where the longer name stands, the cut would be inside a name.
    have heq : cut = b ++ longer := (List.prefix_of_prefix_length_le
      ((List.prefix_append ..).trans hcut) ((List.prefix_append ..).trans hb)
      (Nat.le_of_eq hlen)).eq_of_length hlen
    rcases List.eq_nil_or_concat longer with rfl | ⟨l, c, rfl⟩
    · exact hne rfl
    · rw [List.concat_eq_append] at heq hlonger
      have hpart := hbreak (b ++ l) c (by rw [heq, List.append_assoc])
      rw [hlonger c (by simp)] at hpart
      exact Bool.noConfusion hpart
  · rintro h b c rfl
    -- A last character that is part of a name makes a longer name by itself.
    by_cases hc : isNamePart c
    · have hlt := h b [c] (by simp) (by simpa using hc) (by
        rwa [functionAnchor_append, ← List.append_assoc])
      exact absurd hlt (Nat.lt_irrefl _)
    · simpa using hc

/-- The function that is found for a name stands behind the first occurrence of
    its anchor. What stands before ends with a name, and the function is that
    of both names together. It is that of the whole name exactly if every
    longer name that ends with it is assigned a function only behind there. -/
theorem functionNamed_whole_iff (h : functionNamed v source name = .ok text) :
    ∃ before head, FirstOccurrence (functionAnchor name) source (before ++ head) ∧
      NameBreak before ∧ (∀ c ∈ head, isNamePart c) ∧
      functionNamed v source (head ++ name) = .ok (head ++ text) ∧
      (NameBreak (before ++ head) ↔ ∀ b longer, longer ≠ [] → (∀ c ∈ longer, isNamePart c) →
        (b ++ functionAnchor (longer ++ name)) <+: source →
          (before ++ head).length < (b ++ longer).length) := by
  obtain ⟨cut, -, hocc, -⟩ := exists_cut_of_functionNamed h
  obtain ⟨before, head, rfl, hbreak, hhead⟩ := exists_name_before cut
  exact ⟨before, head, hocc, hbreak, hhead, functionNamed_append hocc h, nameBreak_iff hocc⟩

/-- Behind another statement, the name stands by itself. -/
theorem functionNamed_behind_statement :
    functionNamed .legacy "q;ab=function(d)\x7b\x7d".toList "ab".toList =
        .ok "ab=function(d)\x7b\x7d".toList ∧
      ∃ before head,
        FirstOccurrence (functionAnchor "ab".toList) "q;ab=function(d)\x7b\x7d".toList
          (before ++ head) ∧
        NameBreak before ∧ (∀ c ∈ head, isNamePart c) ∧
        functionNamed .legacy "q;ab=function(d)\x7b\x7d".toList (head ++ "ab".toList) =
          .ok (head ++ "ab=function(d)\x7b\x7d".toList) ∧
        (NameBreak (before ++ head) ↔ ∀ b longer, longer ≠ [] → (∀ c ∈ longer, isNamePart c) →
          (b ++ functionAnchor (longer ++ "ab".toList)) <+: "q;ab=function(d)\x7b\x7d".toList →
            (before ++ head).length < (b ++ longer).length) := by
  have h : functionNamed .legacy "q;ab=function(d)\x7b\x7d".toList "ab".toList =
      .ok "ab=function(d)\x7b\x7d".toList := by
    decide +kernel
  exact ⟨h, functionNamed_whole_iff h⟩

/-- Behind a longer name that ends with it, the function of that name is found. -/
theorem functionNamed_behind_longer_name :
    let source := "xab=function()\x7breturn 1\x7d;ab=function()\x7breturn 2\x7d".toList
    let name := "ab".toList
    isPlainName name ∧
      functionNamed .legacy source name = .ok "ab=function()\x7breturn 1\x7d".toList ∧
      FirstOccurrence (functionAnchor name) source "x".toList ∧ ¬ NameBreak "x".toList := by
  refine ⟨by decide, by decide +kernel, before?_eq_some_iff.1 (by decide), fun h => ?_⟩
  exact absurd (h [] 'x' rfl) (by decide)

end ScriptExcerpt
