import ScriptExcerpt.Proofs.Lexeme.Problem
import ScriptExcerpt.Proofs.Token.Suffix

/-!
# Where streams find problems

A stream meets a problem with a lexeme, which lies in the script at the token or behind its start
and shows the text before its position; or it meets a closing bracket that closes nothing, and
points to that. Behind a problem the reading goes on further on in the script, so that all of this
holds of each problem that is met.

* `TokenStream.blames_read`: problems with lexemes;
* `TokenStream.problem_located`: problems anywhere in a script.
-/

namespace ScriptExcerpt

open Text

namespace LexemeReader

variable {r r' : LexemeReader} {p : Problem}

theorem blames_nextSignificant (h : r.nextSignificant = (.error p, r')) :
    r'.Blames r.source p := by
  fun_induction nextSignificant r with
  | case1 r q r₁ h₁ =>
    obtain ⟨hp, rfl⟩ := Prod.mk.inj h
    obtain rfl := Except.error.inj hp
    exact blames_next h₁
  | case2 r k₁ r₁ h₁ ht ih =>
    have hsource : r₁.source = r.source := by rw [← r.source_next, h₁]
    exact hsource ▸ ih h
  | case3 r k₁ r₁ h₁ ht => simp at h

end LexemeReader

namespace TokenStream

variable {s : TokenStream} {r : LexemeReader} {p : Problem} {k : Kind}

/-- A problem with a lexeme lies between the start of the token and the cursor. -/
theorem blames_read (h : s.read = (.error p, r)) : r.Blames s.reader.source p := by
  rcases read_error h with hn | ⟨k, r₁, hn, -, hr⟩
  · exact LexemeReader.blames_nextSignificant hn
  · have hsource : r₁.source = s.reader.source := by
      rw [← s.reader.source_nextSignificant, hn]
    exact hsource ▸ LexemeReader.blames_readRegExp hr (LexemeReader.leads_nextSignificant hn).2

/-- A bracket that closes nothing. -/
theorem exists_closer_of_enter {start : Nat} {line : UInt32} (h : s.read = (.ok k, r))
    (hg : s.grouping.enter k line start = .error p) :
    (∃ text, p.cause = .unbalancedBrackets text) ∧ p.position = start ∧ p.excerpt = none ∧
      ∃ c, Closer c k ∧ r.opening.rest = c :: r.cursor.rest := by
  have hclosed {c : Char} (hc : Closer c k) :
      ∃ c, Closer c k ∧ r.opening.rest = c :: r.cursor.rest := by
    rcases read_ok h with ⟨hn, -⟩ | ⟨rfl, -⟩
    · exact ⟨c, hc, (LexemeReader.opening_of_nextSignificant_closer hc hn).1⟩
    · cases hc
  rcases Grouping.enter_eq_error_iff.1 hg with ⟨rfl, -, rfl⟩ | ⟨rfl, -, rfl⟩
  · exact ⟨⟨_, rfl⟩, rfl, rfl, hclosed .paren⟩
  · exact ⟨⟨_, rfl⟩, rfl, rfl, hclosed .curly⟩

/-- Whatever calls came before, a problem with a lexeme lies in the script, not before the token
    that was read, and shows the text before its position. Any other problem lies where the bracket
    starts that closes nothing, and shows no text. -/
theorem problem_located (source : List Char) (offset : Nat) (v : Version) (n : Nat)
    (h : ((startingAt source offset v).after n).next.1 = .error p) :
    let s := startingAt source offset v
    let r := (s.after n).next.2.reader
    s.reader.cursor.offset ≤ (s.after n).reader.cursor.offset ∧
      (s.after n).reader.cursor.offset ≤ r.opening.offset ∧
      (p.cause.isLexical ∧ p.LiesIn source r.opening.offset ∨
        (∃ text, p.cause = .unbalancedBrackets text) ∧ p.position = r.opening.offset ∧
          p.excerpt = none ∧ ∃ c k, Closer c k ∧ (s.after n).read.1 = .ok k ∧
            dropBytes p.position source = c :: r.cursor.rest) := by
  intro s r
  have hnext : (s.after n).next = (.error p, (s.after n).next.2) := Prod.ext h rfl
  have hreader : (s.after n).read.2 = r := (reader_next (s.after n)).symm
  have hleads : (s.after n).reader.cursor.Leads r.opening := hreader ▸ (s.after n).leads_read.1
  have hstands := (standsIn_after source offset v n).leads hleads
  refine ⟨(leads_after s n).offset_le, hleads.offset_le, ?_⟩
  obtain ⟨-, hread | ⟨k, hread, hg⟩⟩ := next_error hnext
  · have hsource : (s.after n).reader.source = source := source_after s n
    have hblames := blames_read hread
    rw [hsource] at hblames
    exact .inl ⟨cause_of_read hread, hblames.liesIn hstands⟩
  · obtain ⟨hcause, hposition, hexcerpt, c, hc, hrest⟩ := exists_closer_of_enter hread hg
    refine .inr ⟨hcause, hposition, hexcerpt, c, k, hc, congrArg Prod.fst hread, ?_⟩
    rw [hposition]
    exact hstands.dropBytes_eq.trans hrest

/-- A letter that is no flag is blamed where it stands. The bracket behind it, which the next call
    meets, closes nothing and is blamed where it starts. -/
theorem problem_located_behind_flag :
    let source := "a=/b/\u00e9)".toList
    let s := startingAt source 1 .legacy
    let flag := Problem.lexical source (.invalidRegExpFlag '\u00e9') 5
    let bracket := Problem.unbalanced "unmatched closing paren" 7
    ((s.after 1).next.1 = .error flag ∧ flag.LiesIn source 2) ∧
      (s.after 2).next.1 = .error bracket ∧
        bracket.position = (s.after 2).next.2.reader.opening.offset := by
  intro source s flag bracket
  have hflag : (s.after 1).next.1 = .error flag := by decide +kernel
  have hstart : (s.after 1).next.2.reader.opening.offset = 2 := by decide +kernel
  have hbracket : (s.after 2).next.1 = .error bracket := by decide +kernel
  obtain ⟨-, -, ⟨-, hlies⟩ | ⟨⟨text, hcause⟩, -⟩⟩ := problem_located source 1 .legacy 1 hflag
  · obtain ⟨-, -, ⟨hcause, -⟩ | ⟨-, hposition, -⟩⟩ := problem_located source 1 .legacy 2 hbracket
    · cases hcause
    · exact ⟨⟨hflag, hstart ▸ hlies⟩, hbracket, hposition⟩
  · cases hcause

end TokenStream

end ScriptExcerpt
