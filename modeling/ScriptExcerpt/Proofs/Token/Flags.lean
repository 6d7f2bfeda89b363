import Mathlib.Data.List.DropRight
import ScriptExcerpt.Proofs.Token.Character
import ScriptExcerpt.Proofs.Token.RegExp

/-!
# The flags that a stream keeps

A stream keeps the flags of a regular expression, which stand behind the last slash of its text
(`Text.flagsIn`). It clears them as soon as it begins to read one, and refills them when the reading
ends, whether it ends well or not. So they are those of the last regular expression that was told
only as long as the reading of none has failed since.

* `TokenStream.flags_next`: what one call does to the flags;
* `TokenStream.flags_after_iff`: what any calls leave of them.
-/

namespace ScriptExcerpt

open Text

/-! ## Flags in texts -/

namespace Text

variable {w a f : List Char}

/-- What is visible behind the last slash of a text. -/
def flagsIn (w : List Char) : List Char :=
  (visible w).rtakeWhile (· ≠ '/')

/-- The letters of flags can be seen, and none is a slash. -/
theorem visible_flags (hf : ∀ x ∈ f, x ∈ RegExp.knownFlags) : visible f = f :=
  visible_eq_self_iff.2 fun x hx => (RegExp.of_mem_knownFlags (hf x hx)).1.not_invisible

theorem flagsIn_eq (h : visible w = a ++ '/' :: f) (hf : ∀ x ∈ f, x ∈ RegExp.knownFlags) :
    flagsIn w = f := by
  have hslash : ∀ x ∈ f.reverse, decide (x ≠ '/') = true := by
    intro x hx
    have hx := hf x (List.mem_reverse.1 hx)
    refine decide_eq_true ?_
    rintro rfl
    exact absurd hx (by decide)
  rw [flagsIn, h, List.rtakeWhile, List.reverse_append, List.reverse_cons, List.append_assoc,
    List.takeWhile_append_of_pos hslash, List.singleton_append,
    List.takeWhile_cons_of_neg (by decide), List.append_nil, List.reverse_reverse]

end Text

/-- The flags behind which a problem with a regular expression was met. -/
def Problem.flags (source : List Char) (p : Problem) : List Char :=
  match p.cause with
  | .invalidRegExpFlag _ => flagsIn (takeBytes p.position source)
  | _ => []

/-! ## Readers -/

namespace LexemeReader

variable {r r' : LexemeReader} {p : Problem} {equals : Bool}

theorem flags_next (r : LexemeReader) : r.next.2.flags = r.flags := by
  rw [next]
  split
  · rfl
  · split <;> rfl

theorem flags_nextSignificant (r : LexemeReader) : r.nextSignificant.2.flags = r.flags := by
  fun_induction nextSignificant r with
  | case1 r p r₁ h₁ | case3 r k₁ r₁ h₁ ht => rw [← r.flags_next, h₁]
  | case2 r k₁ r₁ h₁ ht ih => rw [ih, ← r.flags_next, h₁]

/-- Whatever was told, the letters that are kept are flags. -/
theorem mem_knownFlags_readRegExp (r : LexemeReader) (equals : Bool) :
    ∀ x ∈ (r.readRegExp equals).2.flags, x ∈ RegExp.knownFlags := by
  have hflags := RegExp.ensures_flags.runFrom
    (s := if equals then .body ['='] false else .opening) (by cases equals <;> simp) r.cursor
  rw [readRegExp]
  split
  · next ho => exact hflags.ok ho
  · next ho => exact hflags.error ho

end LexemeReader

/-! ## Streams -/

namespace TokenStream

variable {s s' : TokenStream} {r r₁ : LexemeReader} {k : Kind} {t : Token} {p : Problem}
  {source : List Char}

/-- What the first `n` calls told, the latest first. -/
def answers (s : TokenStream) : Nat → List (Except Problem Token)
  | 0 => []
  | n + 1 => (s.after n).next.1 :: s.answers n

/-- The call told a regular expression, or what is wrong with one. -/
def concernsRegExp : Except Problem Token → Bool
  | .ok t => t.kind = .regExp
  | .error p => p.cause.isOfRegExp

/-- The flags of the last regular expression among the tokens, the latest of which is the first. -/
def lastFlags (source : List Char) (ts : List Token) : List Char :=
  match ts.find? (·.kind = .regExp) with
  | some t => flagsIn (t.lexeme source)
  | none => []

/-- The flags that a call leaves if it told a regular expression, or what is wrong with one. -/
def flagsOf (source : List Char) : Except Problem Token → List Char
  | .ok t => flagsIn (t.lexeme source)
  | .error p => p.flags source

theorem flags_of_regExp (hs : s.reader.cursor.StandsIn source) (h : s.next = (.ok t, s'))
    (hk : t.kind = .regExp) : s'.reader.flags = flagsIn (t.lexeme source) := by
  have hvisible := visible_lexeme_regExp hs h hk
  obtain ⟨k, r, -, -, hr, -⟩ := readRegExp_of_next h hk
  have hflags := r.mem_knownFlags_readRegExp (k = .symbol .slashEquals)
  rw [hr] at hflags
  rw [flags, String.toList_ofList] at hvisible
  exact (flagsIn_eq (a := '/' :: t.value.toList) hvisible hflags).symm

/-- A regular expression that cannot be read leaves the flags that were read of it. -/
theorem flags_of_readRegExp (hs : s.reader.cursor.StandsIn source)
    (hsig : s.reader.nextSignificant = (.ok k, r₁)) (hopens : s.opensRegExp k = true)
    (hr : r₁.readRegExp (k = .symbol .slashEquals) = (.error p, r)) :
    p.cause.isOfRegExp ∧ r.flags = p.flags source := by
  have hk := eq_slash_of_opensRegExp hopens
  have hflags := r₁.mem_knownFlags_readRegExp (k = .symbol .slashEquals)
  rw [hr] at hflags
  rcases LexemeReader.unterminated_or_flag_of_readRegExp hr (onLine_of_opensRegExp hsig hopens) with
    ⟨hcause, hnone⟩ | ⟨w, place, d, ds, text, hw, hcause, hposition, hwritten⟩
  · rw [Problem.flags, hcause]
    exact ⟨by decide, hnone⟩
  · obtain ⟨u, hu, hvisible⟩ := LexemeReader.passes_slash hsig hk
    have hbefore := (hs.leads (LexemeReader.leads_nextSignificant hsig).1).takeBytes_eq
      (hu.trans hw)
    have hsymbol : visible u = if decide (k = .symbol .slashEquals) then ['='] else [] := by
      rw [hvisible, LexemeReader.behindSlash]
      rcases hk with rfl | rfl <;> rfl
    rw [Problem.flags, hcause, hposition]
    refine ⟨rfl, Eq.symm (flagsIn_eq
      (a := visible (takeBytes r₁.opening.offset source) ++ '/' :: visible text) ?_ hflags)⟩
    calc visible (takeBytes place.offset source)
      _ = visible (takeBytes r₁.opening.offset source) ++ '/' :: (visible u ++ visible w) := by
        rw [show place.offset = Cursor.offset ⟨place, d :: ds⟩ from rfl, hbefore, visible_append,
          List.cons_append, visible_cons rfl, visible_append]
      _ = visible (takeBytes r₁.opening.offset source) ++ '/' :: visible text ++
          '/' :: r.flags := by
        rw [hsymbol, hwritten, visible_append, visible_cons rfl, visible_flags hflags,
          List.append_assoc, List.cons_append]

/-- A call leaves the flags of the regular expression that it told, or the letters that were read of
    one that has something wrong with it. Any other call leaves the flags alone. -/
theorem flags_next (hs : s.reader.cursor.StandsIn source) : s.next.2.reader.flags =
    if concernsRegExp s.next.1 then flagsOf source s.next.1 else s.reader.flags := by
  have hsig := s.reader.flags_nextSignificant
  rcases hnext : s.next with ⟨p | t, s'⟩
  · obtain ⟨-, hread | ⟨k, hread, hg⟩⟩ := next_error hnext
    · rcases read_error hread with hn | ⟨k, r, hn, hopens, hr⟩
      · have hother : p.cause.isOfRegExp = false := by
          rcases LexemeReader.breaksOff_or_points_nextSignificant hn with hbroken | ⟨c, hc, -⟩
          · exact Cause.not_isOfRegExp_of_breaksOff hbroken
          · rw [hc]; rfl
        rw [hn] at hsig
        rw [concernsRegExp, hother]
        exact hsig
      · obtain ⟨hcause, hflags⟩ := flags_of_readRegExp hs hn hopens hr
        rw [concernsRegExp, hcause, hflags]
        rfl
    · -- A bracket that closes nothing is no regular expression.
      have hother : k ≠ .regExp ∧ p.cause.isOfRegExp = false := by
        rcases Grouping.enter_eq_error_iff.1 hg with ⟨rfl, -, rfl⟩ | ⟨rfl, -, rfl⟩ <;>
          exact ⟨by simp, rfl⟩
      rcases read_ok hread with ⟨hn, -⟩ | ⟨hk, -⟩
      · rw [hn] at hsig
        rw [concernsRegExp, hother.2]
        exact hsig
      · exact absurd hk hother.1
  · by_cases hk : t.kind = .regExp
    · rw [concernsRegExp, decide_eq_true hk, flags_of_regExp hs hnext hk]
      rfl
    · obtain ⟨k, hread, rfl, -⟩ := next_ok hnext
      rcases read_ok hread with ⟨hn, -⟩ | ⟨hregExp, -⟩
      · rw [hn] at hsig
        rw [concernsRegExp, decide_eq_false hk]
        exact hsig
      · exact absurd hregExp hk

/-! ## Call after call -/

/-- The flags are those that the last call left which told a regular expression, or what is wrong
    with one. -/
theorem flags_after (source : List Char) (offset : Nat) (v : Version) (n : Nat) :
    let s := startingAt source offset v
    (s.after n).reader.flags =
      ((s.answers n).find? concernsRegExp).elim [] (flagsOf source) := by
  intro s
  induction n with
  | zero => rfl
  | succ n ih =>
    have hstep := flags_next (standsIn_after source offset v n)
    rw [after, hstep, answers, List.find?_cons]
    cases concernsRegExp (s.after n).next.1 with
    | true => rfl
    | false => exact ih

/-- As long as nothing was wrong with a regular expression since, these are the flags of the last
    one that was told. -/
theorem lastFlags_told (s : TokenStream) (source : List Char) (n : Nat)
    (h : ∀ p, (s.answers n).find? concernsRegExp ≠ some (.error p)) :
    lastFlags source (s.told n) =
      ((s.answers n).find? concernsRegExp).elim [] (flagsOf source) := by
  induction n with
  | zero => rfl
  | succ n ih =>
    rw [answers, List.find?_cons] at h ⊢
    rcases hnext : (s.after n).next with ⟨p | t, s'⟩
    · rw [told_succ_of_problem hnext]
      rw [hnext] at h
      cases hp : concernsRegExp (.error p) with
      | true => exact absurd (by rw [hp]) (h p)
      | false => exact ih (by rwa [hp] at h)
    · have htold : concernsRegExp (.ok t) = decide (t.kind = .regExp) := rfl
      rw [told_succ_of_token hnext, lastFlags, List.find?_cons, htold]
      rw [hnext, htold] at h
      cases hk : decide (t.kind = .regExp) with
      | true => rfl
      | false => exact ih (by rwa [hk] at h)

/-- Whatever calls came before, the flags are those that the last call left which told a regular
    expression, or what is wrong with one. So they are the flags of the last regular expression that
    was told unless one with something wrong came later, of which other letters were read. -/
theorem flags_after_iff (source : List Char) (offset : Nat) (v : Version) (n : Nat) :
    let s := startingAt source offset v
    (s.after n).flags.toList = ((s.answers n).find? concernsRegExp).elim [] (flagsOf source) ∧
      ((s.after n).flags.toList = lastFlags source (s.told n) ↔
        ∀ p, (s.answers n).find? concernsRegExp = some (.error p) →
          p.flags source = lastFlags source (s.told n)) := by
  intro s
  have hflags : (s.after n).flags.toList = _ :=
    String.toList_ofList.trans (flags_after source offset v n)
  refine ⟨hflags, ?_⟩
  rw [hflags]
  constructor
  · intro h p hp
    rw [← h, hp]
    rfl
  · intro h
    by_cases hproblem : ∃ p, (s.answers n).find? concernsRegExp = some (.error p)
    · obtain ⟨p, hp⟩ := hproblem
      rw [← h p hp, hp]
      rfl
    · exact (lastFlags_told s source n fun p hp => hproblem ⟨p, hp⟩).symm

/-- A regular expression without end clears the flags of the one before. -/
theorem flags_cleared_by_problem :
    let source := "/a/g;/b".toList
    let s := startingAt source 0 .legacy
    (s.after 2).flags.toList = ['g'] ∧ lastFlags source (s.told 3) = ['g'] ∧
      (s.after 3).flags.toList = [] := by
  decide +kernel

end TokenStream

end ScriptExcerpt
