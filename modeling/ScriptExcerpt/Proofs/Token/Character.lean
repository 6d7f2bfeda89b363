import ScriptExcerpt.Proofs.Lexeme.Character
import ScriptExcerpt.Proofs.Token.Balance
import ScriptExcerpt.Proofs.Token.Extent

/-!
# Problems that point at characters

A problem that names a character lies at it, whichever token it was met in, with one exception:
behind a name, a backslash that begins no escape is met together with the character behind it, and
the problem lies behind both. So the offset tells the character only if the same one happens to
stand there again.

* `Text.PointsAt`, `Text.Overshoots`: the two cases, as properties of the text;
* `TokenStream.points_next`: problems met in a step of a stream;
* `character_pointed_iff`: the problem for which a script has no tokens.
-/

namespace ScriptExcerpt

open Text

/-! ## Characters at offsets -/

namespace Text

variable {source before rest : List Char} {c : Char} {n : Nat}

/-- The character `c` of a problem stands for `d`: every line end is told as a newline. -/
def StandsFor (c d : Char) : Prop :=
  d = c ∨ c = '\n' ∧ isLineEnd d

/-- At the offset `n`, within the script, begins a character that `c` stands for. -/
structure PointsAt (source : List Char) (c : Char) (n : Nat) : Prop where
  lt_length : n < byteLength source
  character : ∃ before d behind, source = before ++ d :: behind ∧ byteLength before = n ∧
    StandsFor c d

/-- At the offset `n` ends a stray escape, for which `c` is blamed, and no character that `c` stands
    for begins there. -/
def Overshoots (source : List Char) (c : Char) (n : Nat) : Prop :=
  ∃ before rest, source = before ++ rest ∧ byteLength before = n ∧ StrayEscape before c rest ∧
    ∀ d ∈ rest.head?, ¬ StandsFor c d

theorem pointsAt_append_iff :
    PointsAt (before ++ rest) c (byteLength before) ↔ ∃ d ∈ rest.head?, StandsFor c d := by
  constructor
  · rintro ⟨-, before', d, behind, hsource, hlength, hd⟩
    -- A script is divided at an offset in one way.
    have hrest := congrArg (dropBytes (byteLength before)) hsource
    rw [dropBytes_append, ← hlength, dropBytes_append] at hrest
    exact ⟨d, by rw [hrest]; rfl, hd⟩
  · rintro ⟨d, hd, hstands⟩
    obtain ⟨behind, rfl⟩ := List.head?_eq_some_iff.1 hd
    refine ⟨?_, before, d, behind, rfl, rfl, hstands⟩
    rw [byteLength_append, byteLength]
    exact Nat.lt_add_of_pos_right (Nat.add_pos_left d.utf8Size_pos _)

theorem Overshoots.not_pointsAt (h : Overshoots source c n) : ¬ PointsAt source c n := by
  obtain ⟨before, rest, rfl, rfl, -, hnone⟩ := h
  rw [pointsAt_append_iff]
  rintro ⟨d, hd, hstands⟩
  exact hnone d hd hstands

end Text

/-! ## One step -/

namespace LexemeReader

variable {r r' : LexemeReader} {p : Problem} {source : List Char} {cause : Cause} {c : Char}
  {n : Nat}

/-- What an offset that a reader points at tells of the script. -/
theorem Points.pointsAt_or (h : r.Points cause n) (hr : r.opening.StandsIn source)
    (hc : cause.character? = some c) : PointsAt source c n ∨
      cause = .illegalCharacter c ∧ Overshoots source c n := by
  cases h with
  | here hd hleads hrest =>
    obtain ⟨before, hsource, hoffset⟩ := hr.leads hleads
    obtain rfl := Option.some.inj (hd.symm.trans hc)
    rw [hoffset, hsource, hrest]
    exact .inl (pointsAt_append_iff.2 ⟨_, rfl, .inl rfl⟩)
  | @behind u d hu hstray =>
    obtain rfl : d = c := Option.some.inj hc
    obtain ⟨before, hsource, hoffset⟩ := hr
    have hsource' : source = (before ++ u) ++ r.cursor.rest := by
      rw [hsource, hu.1, List.append_assoc]
    have hlength : byteLength (before ++ u) = r.cursor.offset := by
      rw [hu.offset_eq, hoffset, byteLength_append]
    rw [← hlength]
    by_cases hnext : ∃ e ∈ r.cursor.rest.head?, StandsFor d e
    · rw [hsource']
      exact .inl (pointsAt_append_iff.2 hnext)
    · exact .inr ⟨rfl, _, _, hsource', rfl, hstray.append_left before,
        fun e he hstands => hnext ⟨e, he, hstands⟩⟩

/-- What is wrong with the next lexeme that is no line end and no comment, or with a comment before
    it. -/
theorem breaksOff_or_points_nextSignificant (h : r.nextSignificant = (.error p, r')) :
    p.cause.breaksOff ∨ ∃ c, p.cause = .illegalCharacter c ∧ r'.Points p.cause p.position := by
  fun_induction nextSignificant r with
  | case1 r q r₁ h₁ =>
    obtain ⟨hq, rfl⟩ := Prod.mk.inj h
    obtain rfl := Except.error.inj hq
    exact breaksOff_or_points_next h₁
  | case2 r k₁ r₁ h₁ ht ih => exact ih h
  | case3 r k₁ r₁ h₁ ht => simp at h

end LexemeReader

namespace TokenStream

variable {s s' : TokenStream} {r : LexemeReader} {k : Kind} {p : Problem}

/-- A regular expression goes on behind its symbol on the same line. -/
theorem onLine_of_opensRegExp (h : s.reader.nextSignificant = (.ok k, r))
    (hk : s.opensRegExp k = true) : r.cursor.place.OnLine := by
  have hend : k ≠ .endOfInput := by
    rcases eq_slash_of_opensRegExp hk with rfl | rfl <;> simp
  exact (LexemeReader.reaches_nextSignificant h hend).2.extent.onLine

theorem points_read (h : s.read = (.error p, r)) (hp : p.cause.character? ≠ none) :
    r.Points p.cause p.position := by
  rcases read_error h with hn | ⟨k, r₁, hn, hopens, hr⟩
  · rcases LexemeReader.breaksOff_or_points_nextSignificant hn with hbroken | ⟨c, -, hpoints⟩
    · exact absurd (Cause.character?_of_breaksOff hbroken) hp
    · exact hpoints
  · exact LexemeReader.points_readRegExp hr (LexemeReader.leads_nextSignificant hn).2
      (onLine_of_opensRegExp hn hopens) hp

/-- A bracket that closes nothing names no character, so that the problem is one with a lexeme. -/
theorem points_next (h : s.next = (.error p, s')) (hp : p.cause.character? ≠ none) :
    s'.reader.Points p.cause p.position := by
  obtain ⟨-, hread | ⟨k, -, hg⟩⟩ := next_error h
  · exact points_read hread hp
  · rcases Grouping.enter_eq_error_iff.1 hg with ⟨-, -, rfl⟩ | ⟨-, -, rfl⟩ <;>
      exact absurd rfl hp

end TokenStream

/-! ## Scripts without tokens -/

/-- Where a script has no tokens because of a character, the problem points at that character,
    unless it lies behind the character of a stray escape. It always points at a letter that is no
    flag. -/
theorem character_pointed_iff {source : List Char} {v : Version} {p : Problem} {c : Char}
    (h : tokenize source v = .error p) (hc : p.cause.character? = some c) :
    (PointsAt source c p.position ↔ ¬ Overshoots source c p.position) ∧
      (p.cause = .invalidRegExpFlag c → PointsAt source c p.position) := by
  have hp : p.cause.character? ≠ none := by simp [hc]
  have hstands := Cursor.standsIn_startingAt source 0
  rcases (TokenStream.tokens_eq_error_iff rfl hstands).1 h with ⟨ts, s, hreads, -, hnext⟩ |
    ⟨ts, -, -, rfl⟩
  · have hlead : s.reader.cursor.Leads s.next.2.reader.opening := by
      rw [TokenStream.reader_next]
      exact s.leads_read.1
    have hpoints := (TokenStream.points_next (Prod.ext hnext rfl) hp).pointsAt_or
      (hstands.leads (hreads.leads.trans hlead)) hc
    refine ⟨⟨fun hat hover => hover.not_pointsAt hat, fun hover => ?_⟩, fun hflag => ?_⟩
    · exact hpoints.resolve_right fun hstray => hover hstray.2
    · exact hpoints.resolve_right fun hstray => by simp [hflag] at hstray
  · exact absurd rfl hp

/-- A letter behind the flags is pointed at. -/
theorem character_pointed_flag :
    let source := "x=/a/g\u00e9".toList
    let p := Problem.lexical source (.invalidRegExpFlag '\u00e9') 6
    tokenize source .legacy = .error p ∧ PointsAt source '\u00e9' p.position := by
  intro source p
  have hfails : tokenize source .legacy = .error p := by decide +kernel
  exact ⟨hfails, (character_pointed_iff hfails rfl).2 rfl⟩

/-- The letter of a stray escape is not: the problem lies at the end of the script. -/
theorem character_overshot :
    let source := "a\\b".toList
    let p := Problem.lexical source (.illegalCharacter 'b') 3
    tokenize source .legacy = .error p ∧ ¬ PointsAt source 'b' p.position := by
  intro source p
  exact ⟨by decide +kernel, fun h => absurd h.lt_length (by decide)⟩

end ScriptExcerpt
