import ScriptExcerpt.Lexeme.Reader
import ScriptExcerpt.Token.Grouping

/-!
# Streams of tokens

A stream reads a script token by token. Line ends and comments are passed over,
and a slash is read as what it means at its place. A problem leaves the stream
where the reading broke off, with what was known of the tokens before.

* `TokenStream.next`: the next token.
* `TokenStream.length_next_lt`: every token but the end of the script uses up
  some of it.
* `tokenize`: all tokens of a script whose brackets match.
-/

namespace ScriptExcerpt

/-- The next lexeme that is no line end and no comment. -/
def LexemeReader.nextSignificant (r : LexemeReader) : Except Problem Kind × LexemeReader :=
  match _h : r.next with
  | (.error p, r') => (.error p, r')
  | (.ok k, r') => if _ht : k.isTrivia then r'.nextSignificant else (.ok k, r')
termination_by r.cursor.rest.length
decreasing_by exact r.length_next_lt _h (fun he => by simp [he, Kind.isTrivia] at _ht)

theorem LexemeReader.length_nextSignificant_lt {r r' : LexemeReader} {k : Kind}
    (h : r.nextSignificant = (.ok k, r')) (hk : k ≠ .endOfInput) :
    r'.cursor.rest.length < r.cursor.rest.length := by
  fun_induction nextSignificant r with
  | case1 => simp at h
  | case2 r k₁ r₁ h₁ ht ih =>
    exact Nat.lt_trans (ih h) (r.length_next_lt h₁ (fun he => by simp [he, Kind.isTrivia] at ht))
  | case3 r k₁ r₁ h₁ ht =>
    obtain ⟨h₂, rfl⟩ := Prod.mk.inj h
    exact r.length_next_lt h₁ (Except.ok.inj h₂ ▸ hk)

/-- A script that is read token by token. -/
structure TokenStream where
  /-- The lexemes that are still to be read. -/
  reader : LexemeReader
  /-- What is known of the tokens before. -/
  grouping : Grouping

namespace TokenStream

/-- A stream of the tokens of a script from the byte `offset` on. -/
def startingAt (source : List Char) (offset : Nat) (v : Version) : TokenStream :=
  ⟨.startingAt source offset v, .empty⟩

/-- A stream of all tokens of a script. -/
def ofSource (source : List Char) (v : Version) : TokenStream :=
  startingAt source 0 v

/-- No parenthesis and no brace is open. -/
def isBalanced (s : TokenStream) : Bool :=
  s.grouping.isBalanced

/-- The flags of the last regular expression. -/
def flags (s : TokenStream) : String :=
  String.ofList s.reader.flags

/-- The value of a token of the kind differs from its text. -/
def hasValue : Kind → Bool
  | .identifier | .number | .string | .template | .regExp => true
  | _ => false

/-- The token of the kind `k` that the reader `r` read last. -/
def token (r : LexemeReader) (k : Kind) : Token where
  kind := k
  value := String.ofList (if hasValue k then r.value else r.lexeme)
  span := ⟨r.opening.offset, r.stop⟩

/-- What reading a token of the kind `k` leaves, if the reader is `r` behind
    it. -/
def enter (s : TokenStream) (r : LexemeReader) (k : Kind) : Except Problem Token × TokenStream :=
  match s.grouping.enter k r.line r.opening.offset with
  | .ok g => (.ok (token r k), ⟨r, g⟩)
  | .error p => (.error p, ⟨r, s.grouping⟩)

/-- The next token of the script. Behind the last one comes the end of the
    script, again and again. -/
def next (s : TokenStream) : Except Problem Token × TokenStream :=
  match s.reader.nextSignificant with
  | (.error p, r) => (.error p, ⟨r, s.grouping⟩)
  | (.ok k, r) =>
    if (k = .symbol .slash || k = .symbol .slashEquals) && s.grouping.slashOpensRegExp then
      match r.readRegExp (k = .symbol .slashEquals) with
      | (.error p, r') => (.error p, ⟨r', s.grouping⟩)
      | (.ok (), r') => s.enter r' .regExp
    else s.enter r k

theorem enter_ok {s s' : TokenStream} {r : LexemeReader} {k : Kind} {t : Token}
    (h : s.enter r k = (.ok t, s')) : t = token r k ∧ s'.reader = r := by
  rw [enter] at h
  split at h
  · obtain ⟨h₁, rfl⟩ := Prod.mk.inj h
    exact ⟨(Except.ok.inj h₁).symm, rfl⟩
  · simp at h

theorem length_next_lt {s s' : TokenStream} {t : Token} (h : s.next = (.ok t, s'))
    (ht : t.kind ≠ .endOfInput) :
    s'.reader.cursor.rest.length < s.reader.cursor.rest.length := by
  rw [next] at h
  split at h
  · simp at h
  · next k r hr =>
    split at h
    · next hslash =>
      have hlt := s.reader.length_nextSignificant_lt hr (fun hk => by simp [hk] at hslash)
      have hle := r.length_readRegExp_le (k = .symbol .slashEquals)
      split at h
      · simp at h
      · next r' hr' =>
        rw [hr'] at hle
        rw [(enter_ok h).2]
        exact Nat.lt_of_le_of_lt hle hlt
    · obtain ⟨rfl, hs⟩ := enter_ok h
      rw [hs]
      exact s.reader.length_nextSignificant_lt hr ht

/-- The results of reading on, each with the stream behind it, up to the end of
    the script or the first problem. -/
def run (s : TokenStream) : List (Except Problem Token × TokenStream) :=
  match _h : s.next with
  | (.error p, s') => [(.error p, s')]
  | (.ok t, s') =>
    if _ht : t.kind = .endOfInput then [(.ok t, s')] else (.ok t, s') :: s'.run
termination_by s.reader.cursor.rest.length
decreasing_by exact s.length_next_lt _h _ht

/-- All tokens from here on, up to the end of the script, if no problem is met
    and all brackets are closed in the end. -/
def tokens (s : TokenStream) : Except Problem (List Token) :=
  match _h : s.next with
  | (.error p, _) => .error p
  | (.ok t, s') =>
    if _ht : t.kind = .endOfInput then
      if s'.isBalanced then .ok [t]
      else .error (.unbalanced "unclosed brackets at end of input" t.span.stop)
    else s'.tokens.map (t :: ·)
termination_by s.reader.cursor.rest.length
decreasing_by exact s.length_next_lt _h _ht

end TokenStream

/-- The tokens of a script whose brackets match. -/
def tokenize (source : List Char) (v : Version) : Except Problem (List Token) :=
  (TokenStream.ofSource source v).tokens

end ScriptExcerpt
