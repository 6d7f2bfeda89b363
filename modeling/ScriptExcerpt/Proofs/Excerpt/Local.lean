import ScriptExcerpt.Proofs.Excerpt.Closing
import ScriptExcerpt.Proofs.Token.Embedding

/-!
# Excerpts are local

An excerpt ends with a closing bracket, and what is read up to such a bracket
does not depend on the script around it. So an excerpt only depends on its own
text: it is a script by itself, and it is the excerpt of every script in which
it follows the first occurrence of the anchor.

* `TokenStream.startingAt_eq_embed`: a stream from some part of a script on is
  the stream of the rest, put in the script.
* `exists_embed_of_excerpt`: the history of an excerpt, in every script.
* `excerpt_local`: an excerpt only depends on its own text.
-/

namespace ScriptExcerpt

open Text TokenStream

/-- A stream from some part of a script on is that of a text behind the part, put
    in the script. -/
theorem TokenStream.startingAt_eq_embed (pre u tail : List Char) (v : Version) :
    startingAt (pre ++ (u ++ tail)) (byteLength pre) v =
      (startingAt u 0 v).embed (pre ++ (u ++ tail)) (byteLength pre) tail := by
  have hpre := Cursor.startingAt_append pre (u ++ tail)
  have hu : Cursor.startingAt u 0 = ⟨.atOffset 0, u⟩ := Cursor.startingAt_append [] u
  simp only [startingAt, embed, LexemeReader.startingAt, LexemeReader.embed, hpre, hu]
  simp [Cursor.shift, Cursor.before, Place.shift, Place.atOffset, Cursor.offset]

variable {v : Version} {source anchor before text : List Char}

/-- In every script, the text of an excerpt is read as a history of the same
    kinds, which closes with the text. -/
theorem exists_reads_of_excerpt (hocc : FirstOccurrence anchor source before)
    (h : excerpt v source anchor = .ok text) :
    ∃ (c : Char) (ks : List Kind), FirstCloses ks ∧ ∀ pre tail,
      ∃ (ts : List Token) (t : Token) (s' : TokenStream), Closer c t.kind ∧
        (ts ++ [t]).map Token.kind = ks ∧ s'.reader.cursor.rest = tail ∧
        Reads (startingAt (pre ++ (text ++ tail)) (byteLength pre) v) (ts ++ [t]) s' := by
  obtain ⟨ts, t, s', hr, hks, rfl⟩ := (excerpt_ok_iff hocc text).1 h
  obtain ⟨c, hc⟩ : ∃ c, Closer c t.kind := by
    rcases hr.closer rfl hks with ht | ht
    · exact ⟨')', ht ▸ .paren⟩
    · exact ⟨'}', ht ▸ .curly⟩
  refine ⟨c, _, hks, fun pre tail => ?_⟩
  obtain ⟨rest, rfl⟩ := hocc.1
  -- The text up to the bracket is what is passed before the last token opens.
  obtain ⟨s₀, h₀, hn⟩ := hr.split_last
  obtain ⟨u, hu, -⟩ := h₀.leads.trans (leads_next hn).1
  rw [(opening_of_next_closer hc hn).1, startingAt, LexemeReader.startingAt,
    Cursor.startingAt_append] at hu
  obtain rfl : rest = u ++ c :: s'.reader.cursor.rest := hu
  have htext := hr.slice_eq hc
  rw [List.append_cons u c] at htext
  rw [List.append_cons u c, ← List.append_cancel_right htext, ← List.append_cons]
  rw [startingAt_eq_embed] at hr
  obtain ⟨s₁, hs₁, h₁⟩ := hr.embed_closer hc rfl
  obtain ⟨ts', t', ht', hks', hr'⟩ := h₁ (pre ++ (u ++ c :: tail)) (byteLength pre) tail
  rw [← startingAt_eq_embed] at hr'
  exact ⟨ts', t', _, ht' ▸ hc, hks', congrArg (· ++ tail) hs₁, hr'⟩

/-- An excerpt only depends on its own text: this is a script by itself, and it
    is the excerpt of every script in which it stands behind the first
    occurrence of the anchor. -/
theorem excerpt_local (h : excerpt v source anchor = .ok text) :
    (∃ ts, tokenize text v = .ok ts) ∧
      ∀ p t, FirstOccurrence anchor (p ++ anchor ++ text ++ t) p →
        excerpt v (p ++ anchor ++ text ++ t) anchor = .ok text := by
  cases hf : before? anchor source with
  | none => simp [excerpt_of_no_occurrence (before?_eq_none_iff.1 hf)] at h
  | some before =>
    obtain ⟨c, ks, hks, hreads⟩ := exists_reads_of_excerpt (before?_eq_some_iff.1 hf) h
    constructor
    · -- Behind the closing bracket the script ends, and no bracket is open.
      obtain ⟨ts, t, s₁, hc, rfl, hrest, hr⟩ := hreads [] []
      rw [List.append_nil] at hr
      obtain ⟨e, s₂, hn, he, -, hparens, hbraces⟩ := next_of_rest_nil hrest
      have hbal := (hr.isBalanced_iff rfl).2 hks.1.2
      refine ⟨_, hr.tokens_eq (fun u hu => ?_) hn he ?_⟩
      · rcases List.mem_append.1 hu with hu | hu
        · exact hr.kind_ne_endOfInput hc.ne_endOfInput u hu
        · exact List.mem_singleton.1 hu ▸ hc.ne_endOfInput
      · rwa [TokenStream.isBalanced, Grouping.isBalanced, hparens, hbraces]
    · -- In the other script, the same text is passed up to the bracket.
      intro p tail hocc
      obtain ⟨ts, t, s₁, hc, rfl, hrest, hr⟩ := hreads (p ++ anchor) tail
      rw [List.append_assoc] at hocc ⊢
      have htext := hr.slice_eq hc
      rw [hrest] at htext
      rw [excerpt_of_firstCloses hocc hr hks, ← List.append_cancel_right htext]

/-- A function keeps its excerpt where other brackets stand around it. -/
theorem excerpt_between_brackets :
    excerpt .legacy "f(a)\x7b\x7d;".toList "f".toList = .ok "(a)\x7b\x7d".toList ∧
      (∃ ts, tokenize "(a)\x7b\x7d".toList .legacy = .ok ts) ∧
      excerpt .legacy "\x7b(f(a)\x7b\x7d)".toList "f".toList = .ok "(a)\x7b\x7d".toList := by
  have h : excerpt .legacy "f(a)\x7b\x7d;".toList "f".toList = .ok "(a)\x7b\x7d".toList := by
    decide +kernel
  have hocc : FirstOccurrence "f".toList "\x7b(f(a)\x7b\x7d)".toList "\x7b(".toList :=
    before?_eq_some_iff.1 (by decide)
  exact ⟨h, (excerpt_local h).1, (excerpt_local h).2 "\x7b(".toList ")".toList hocc⟩

end ScriptExcerpt
