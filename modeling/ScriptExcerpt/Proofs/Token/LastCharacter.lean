import ScriptExcerpt.Proofs.Lexeme.LastCharacter
import ScriptExcerpt.Proofs.Token.RegExp

/-!
# The last characters of tokens

The text of a token ends with a character that can be seen, unless the token is a word, a number or
a regular expression and nothing but invisible characters follows it up to the end of the script:
these it counts in.

* `TokenStream.trails_read`: where the token read last ends;
* `TokenStream.lexeme_endsSeen_iff`: which tokens end visibly.
-/

namespace ScriptExcerpt

open Text

namespace TokenStream

variable {s : TokenStream} {r : LexemeReader} {k : Kind} {t : Token}

/-- Where a token ends. A regular expression ends where its flags do. -/
theorem trails_read (h : s.read = (.ok k, r)) (hk : k ≠ .endOfInput) :
    ∃ core rest m, r.opening.rest = core ++ rest ∧ EndsSeen core ∧
      r.opening.Passes (core ++ if k.isOpenEnded then unseen rest else []) m ∧
        m.offset = r.stop := by
  rcases read_ok h with ⟨hn, -⟩ | ⟨rfl, k₁, r₁, hn, hslash, hr⟩
  · obtain ⟨lineIsBlank, c, cs, hread⟩ := LexemeReader.hasRead_of_nextSignificant hn hk
    have hb := Place.onLine_past r.opening.place hread.inked.not_lineEnd
    obtain ⟨core, rest, m, hrest, hcore, hpasses, hstop⟩ :=
      trails_lexemeAt hb (LexemeReader.isTrivia_nextSignificant hn) hread.verdict
    have hall := hread.passes.trans hpasses
    rw [← List.append_assoc] at hall
    refine ⟨[c] ++ core, rest, m, ?_, endsSeen_cons hread.inked.not_invisible hcore, hall,
      hstop.trans hread.stop.symm⟩
    rw [hread.passes.1, hrest, List.append_assoc]
  · have hk₁ : k₁ ≠ .endOfInput := by
      rcases eq_slash_of_opensRegExp hslash with rfl | rfl <;> simp
    have hline := (LexemeReader.reaches_nextSignificant hn hk₁).2.extent.onLine
    obtain ⟨u, hu⟩ := (LexemeReader.leads_nextSignificant hn).2
    obtain ⟨core, rest, m, hrest, hcore, hpasses, hstop⟩ :=
      LexemeReader.trails_readRegExp hline hr
    have hopen := r₁.opening_readRegExp (k₁ = .symbol .slashEquals)
    rw [hr] at hopen
    have hall := hu.trans hpasses
    rw [← List.append_assoc] at hall
    rw [hopen]
    refine ⟨u ++ core, rest, m, ?_, hcore.append_left u, hall, hstop⟩
    rw [hu.1, hrest, List.append_assoc]

/-- Wherever a token is read, its text has a part that ends visibly. What follows in the script
    belongs to the text only if the token is open-ended and nothing of that can be seen. So the
    token ends visibly exactly if that is not so. -/
theorem lexeme_endsSeen_iff (source : List Char) (offset : Nat) (v : Version) (n : Nat)
    (h : ((startingAt source offset v).after n).next.1 = .ok t) (ht : t.kind ≠ .endOfInput) :
    ∃ core behind, dropBytes t.span.start source = core ++ behind ∧ EndsSeen core ∧
      t.lexeme source = core ++ (if t.kind.isOpenEnded then unseen behind else []) ∧
        (EndsSeen (t.lexeme source) ↔
          ¬ (t.kind.isOpenEnded ∧ behind ≠ [] ∧ ∀ c ∈ behind, isInvisible c)) := by
  have hnext : ((startingAt source offset v).after n).next =
      (.ok t, ((startingAt source offset v).after n).next.2) := Prod.ext h rfl
  have hstands := (standsIn_after source offset v n).leads (leads_next hnext).1
  obtain ⟨k, hread, rfl, -⟩ := next_ok hnext
  obtain ⟨core, behind, m, hrest, hcore, hpasses, hstop⟩ := trails_read hread ht
  have hlexeme := LexemeReader.lexeme_eq hpasses hstop
  rw [← lexeme_token hstands k] at hlexeme
  refine ⟨core, behind, hstands.dropBytes_eq.trans hrest, hcore, hlexeme, ?_⟩
  rw [hlexeme]
  exact endsSeen_append_iff hcore _

/-- A number before an invisible character and more text ends visibly. -/
theorem lexeme_endsSeen_before_blank :
    let source := "a=1\u00ad ".toList
    let t : Token := ⟨.number, "1", ⟨2, 3⟩⟩
    ((startingAt source 0 .legacy).after 2).next.1 = .ok t ∧ EndsSeen (t.lexeme source) := by
  intro source t
  have hnext : ((startingAt source 0 .legacy).after 2).next.1 = .ok t := by decide +kernel
  obtain ⟨core, behind, hrest, -, -, hiff⟩ :=
    lexeme_endsSeen_iff source 0 .legacy 2 hnext (by decide)
  refine ⟨hnext, hiff.2 ?_⟩
  rintro ⟨-, hne, hall⟩
  -- The blank at the end of the script can be seen.
  have hlast : (dropBytes t.span.start source).getLast? = some ' ' := by decide +kernel
  rw [hrest, List.getLast?_append, List.getLast?_eq_some_getLast hne, Option.some_or] at hlast
  exact absurd (hall _ (List.getLast_mem hne)) (by rw [Option.some.inj hlast]; decide)

/-- A name before an invisible character and the end of the script does not. -/
theorem lexeme_ends_invisibly :
    let source := "a\u00ad".toList
    let t : Token := ⟨.identifier, "a", ⟨0, 3⟩⟩
    (startingAt source 0 .legacy).next.1 = .ok t ∧
      ∃ c ∈ (t.lexeme source).getLast?, isInvisible c := by
  intro source t
  have hnext : (startingAt source 0 .legacy).next.1 = .ok t := by decide +kernel
  exact ⟨hnext, '\u00ad', by decide +kernel, by decide⟩

end TokenStream

end ScriptExcerpt
