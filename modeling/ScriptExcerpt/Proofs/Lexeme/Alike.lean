import ScriptExcerpt.Proofs.Alike
import ScriptExcerpt.Proofs.Lexeme.Reader
import ScriptExcerpt.Token.Stream

/-!
# Lexemes that are read alike

Where the recognizers of lexemes make the same of related texts
(`Lexeme.Respected`), so does the reading of a lexeme, and of the rest of a
regular expression.

* `lexemeAt_alike`: lexemes that start with the same character.
* `LexemeReader.accept_alike`, `LexemeReader.readRegExp_alike`: what two readers
  tell, and that they go on alike.
-/

namespace ScriptExcerpt

open Text

/-- The token of the kind has its text as its value. -/
def Kind.isSpelled (k : Kind) : Bool :=
  !TokenStream.hasValue k && !k.isTrivia

section Lexemes

variable (S : Cursor → Cursor → Prop) (T : List Char → List Char → Prop)

/-- Two lexemes, the first characters of which `a` and `b` stand behind, are the same, or
    the same is wrong with them. If their texts are their values, these are related. -/
structure Lexeme.Alike (a b : Cursor) (l l' : Lexeme) : Prop where
  verdict : l'.verdict = l.verdict
  value : l'.value = l.value
  cursor {k : Kind} : l.verdict = .ok k → S l.cursor l'.cursor
  stop {k : Kind} : l.verdict = .ok k → k.isSpelled →
    ∃ m m', Cursor.Abreast S T a b m m' ∧ m.offset = l.stop ∧ m'.offset = l'.stop

/-- The recognizers of lexemes respect the relation. -/
structure Lexeme.Respected (v : Version) : Prop where
  nil_nil : T [] []
  name : Name.recognizer.Respects S T
  operator (lineIsBlank : Bool) :
    (Operator.recognizer (Operator.spellings v lineIsBlank)).Respects S T
  number : (Number.recognizer v).Respects S fun _ _ => True
  lineComment : Comment.lineRecognizer.Respects S fun _ _ => True
  blockComment : Comment.blockRecognizer.Respects S fun _ _ => True
  regExp : RegExp.recognizer.Respects S fun _ _ => True

variable {S T}

namespace Lexeme

variable {v : Version} {a b : Cursor} {l l' : Lexeme}

theorem Alike.of_error {f : Fault} (h : l.verdict = .error f) (h' : l'.verdict = .error f)
    (hvalue : l'.value = l.value) : Alike S T a b l l' where
  verdict := h'.trans h.symm
  value := hvalue
  cursor hk := by simp [h] at hk
  stop hk := by simp [h] at hk

/-- The text of a literal or comment does not matter. -/
theorem Alike.of_ok {k : Kind} (h : l.verdict = .ok k) (h' : l'.verdict = .ok k)
    (hvalue : l'.value = l.value) (hcursor : S l.cursor l'.cursor) (hk : k.isSpelled = false) :
    Alike S T a b l l' where
  verdict := h'.trans h.symm
  value := hvalue
  cursor _ := hcursor
  stop hk' hs := by
    obtain rfl := Except.ok.inj (h.symm.trans hk')
    simp [hk] at hs

theorem alike_name (hM : Respected S T v) (c : Char) (hab : S a b) :
    Alike S T a b (name v c a) (name v c b) := by
  have ho := hM.name (Name.start c) a b hab
  rw [name, name, ho.verdict]
  split
  · next hv =>
    have hcursor := ho.cursor hv
    exact ⟨rfl, rfl, fun _ => hcursor.related, fun _ _ => ⟨_, _, hcursor, rfl, rfl⟩⟩
  · exact .of_error rfl rfl rfl

theorem alike_number (hM : Respected S T v) (c : Char) (hab : S a b) :
    Alike S T a b (number v c a) (number v c b) := by
  have ho := hM.number (Number.start c) a b hab
  rw [number, number, ho.verdict]
  split
  · next hv => exact .of_ok rfl rfl rfl (ho.cursor hv).related rfl
  · -- A point that stands alone is its own text.
    next hv => exact ⟨rfl, rfl, fun _ => (ho.cursor hv).related,
      fun _ _ => ⟨a, b, .refl hab hM.nil_nil, rfl, rfl⟩⟩
  · exact .of_error rfl rfl rfl

theorem alike_quotation {c : Char}
    (hM : (Quotation.recognizer c).Respects S fun _ _ => True) (hab : S a b) :
    Alike S T a b (quotation c a) (quotation c b) := by
  have ho := hM (.text .empty) a b hab
  rw [quotation, quotation, ho.verdict]
  split
  · next hv =>
    exact .of_ok rfl rfl rfl (ho.cursor hv).related (by split <;> rfl)
  · exact .of_error rfl rfl rfl

theorem alike_lineComment {a' b' : Cursor} (hM : Respected S T v) (hab : S a b) :
    Alike S T a' b' (lineComment a) (lineComment b) := by
  have ho := hM.lineComment () a b hab
  rw [lineComment, lineComment, ho.verdict]
  cases hv : (Comment.lineRecognizer.runFrom () a).verdict with
  | ok r => exact .of_ok rfl rfl rfl (ho.cursor hv).related rfl
  | error f => exact .of_error rfl rfl rfl

theorem alike_blockComment {a' b' : Cursor} (hM : Respected S T v) (hab : S a b) :
    Alike S T a' b' (blockComment a) (blockComment b) := by
  have ho := hM.blockComment false a b hab
  rw [blockComment, blockComment, ho.verdict]
  cases hv : (Comment.blockRecognizer.runFrom false a).verdict with
  | ok r => exact .of_ok rfl rfl rfl (ho.cursor hv).related rfl
  | error f => exact .of_error rfl rfl rfl

theorem alike_symbol (hM : Respected S T v) (lineIsBlank : Bool) (c : Char) (hab : S a b) :
    Alike S T a b (symbol (Operator.spellings v lineIsBlank) c a)
      (symbol (Operator.spellings v lineIsBlank) c b) := by
  rw [symbol, symbol]
  split
  · exact .of_error rfl rfl rfl
  · next kind _ =>
    split
    · have ho := hM.operator lineIsBlank ⟨[c], kind⟩ a b hab
      dsimp only
      rw [ho.verdict]
      -- A comment goes on where its opening was read.
      split
      · next hv => exact alike_lineComment hM (ho.cursor hv).related
      · next hv => exact alike_blockComment hM (ho.cursor hv).related
      · next hv => exact ⟨rfl, rfl, fun _ => (ho.cursor hv).related, fun _ _ => ho.taken hv⟩
      · exact .of_error rfl rfl rfl
    · exact ⟨rfl, rfl, fun _ => hab, fun _ _ => ⟨a, b, .refl hab hM.nil_nil, rfl, rfl⟩⟩

end Lexeme

/-- Lexemes that start with the same character are alike, if the texts behind it are
    related. -/
theorem lexemeAt_alike {v : Version} {lineIsBlank : Bool} {c : Char} {a b : Cursor}
    (hM : Lexeme.Respected S T v)
    (hquote : isQuote c → (Quotation.recognizer c).Respects S fun _ _ => True) (hab : S a b) :
    Lexeme.Alike S T a b (lexemeAt v lineIsBlank c a) (lexemeAt v lineIsBlank c b) := by
  rw [lexemeAt, lexemeAt]
  split
  · exact Lexeme.alike_name hM c hab
  · split
    · exact Lexeme.alike_number hM c hab
    · split
      · next hc => exact Lexeme.alike_quotation (hquote hc) hab
      · exact Lexeme.alike_symbol hM lineIsBlank c hab

end Lexemes

/-! ## Readers -/

namespace LexemeReader

variable (S : Cursor → Cursor → Prop) (T : List Char → List Char → Prop)

/-- Behind a lexeme of the kind `k`, two readers go on alike, and have read related texts if
    that matters. -/
structure Alike (k : Kind) (r r' : LexemeReader) : Prop where
  version : r'.version = r.version
  lineIsBlank : r'.lineIsBlank = r.lineIsBlank
  value : r'.value = r.value
  cursor : k ≠ .endOfInput → S r.cursor r'.cursor
  lexeme : k.isSpelled → T r.lexeme r'.lexeme

/-- Two readers tell the same and go on alike, or meet problems with the same cause. -/
inductive ReadAlike :
    Except Problem Kind × LexemeReader → Except Problem Kind × LexemeReader → Prop
  | ok {k : Kind} {r r' : LexemeReader} : Alike S T k r r' → ReadAlike (.ok k, r) (.ok k, r')
  | error {p q : Problem} {r r' : LexemeReader} : q.cause = p.cause →
    ReadAlike (.error p, r) (.error q, r')

variable {S T} {r r' : LexemeReader}

/-- The text of a lexeme is what leads to its end. -/
theorem lexeme_eq {u : List Char} {m : Cursor} (h : r.opening.Passes u m)
    (hm : m.offset = r.stop) : r.lexeme = u := by
  rw [lexeme, Cursor.textTo, ← hm, h.offset_eq, h.1, Nat.add_sub_cancel_left, takeBytes_append]

/-- Two readers that read lexemes with the same first character, behind gaps, tell the
    same. -/
theorem accept_alike {place place' : Place} {c : Char} {cs cs' : List Char}
    (hM : Lexeme.Respected S T r.version)
    (hquote : isQuote c → (Quotation.recognizer c).Respects S fun _ _ => True)
    (hT : ∀ u u', T u u' → T (c :: u) (c :: u'))
    (hversion : r'.version = r.version) (hblank : r'.lineIsBlank = r.lineIsBlank)
    (hvalue : r'.value = r.value)
    (hc : ¬ place.completes c) (hc' : ¬ place'.completes c)
    (hS : S ⟨place.past c, cs⟩ ⟨place'.past c, cs'⟩) :
    ReadAlike S T
      (r.accept ⟨place, c :: cs⟩ c (lexemeAt r.version r.lineIsBlank c ⟨place.past c, cs⟩))
      (r'.accept ⟨place', c :: cs'⟩ c
        (lexemeAt r'.version r'.lineIsBlank c ⟨place'.past c, cs'⟩)) := by
  have hl : Lexeme.Alike S T _ _ (lexemeAt r.version r.lineIsBlank c ⟨place.past c, cs⟩)
      (lexemeAt r.version r.lineIsBlank c ⟨place'.past c, cs'⟩) := lexemeAt_alike hM hquote hS
  rw [hversion, hblank]
  generalize lexemeAt r.version r.lineIsBlank c ⟨place.past c, cs⟩ = l at hl
  generalize lexemeAt r.version r.lineIsBlank c ⟨place'.past c, cs'⟩ = l' at hl
  obtain ⟨verdict, stop, cursor, value⟩ := l
  obtain ⟨verdict', stop', cursor', value'⟩ := l'
  obtain rfl : verdict = verdict' := hl.verdict.symm
  obtain rfl : value = value' := hl.value.symm
  cases verdict with
  | error f => exact .error rfl
  | ok k =>
    refine .ok ⟨hversion, rfl, congrArg value.getD hvalue, fun _ => hl.cursor rfl, fun hk => ?_⟩
    obtain ⟨m, m', ⟨-, u, u', hu, hu', huu'⟩, hm, hm'⟩ := hl.stop rfl hk
    have hpasses := (Cursor.passes_past hc cs).trans hu
    have hpasses' := (Cursor.passes_past hc' cs').trans hu'
    rw [lexeme_eq hpasses hm, lexeme_eq hpasses' hm']
    exact hT u u' huu'

/-- The rest of a regular expression is told alike. -/
theorem readRegExp_alike {k : Kind} (hM : Lexeme.Respected S T r.version)
    (h : Alike S T k r r') (hk : k ≠ .endOfInput) (equals : Bool) :
    ReadAlike S T ((r.readRegExp equals).1.map fun _ => .regExp, (r.readRegExp equals).2)
      ((r'.readRegExp equals).1.map fun _ => .regExp, (r'.readRegExp equals).2) := by
  have ho := hM.regExp (if equals then .body ['='] false else .opening) _ _ (h.cursor hk)
  rw [readRegExp, readRegExp, ho.verdict]
  split
  · next hv =>
    exact .ok ⟨h.version, h.lineIsBlank, rfl, fun _ => (ho.cursor hv).related,
      fun hs => by simp [Kind.isSpelled, TokenStream.hasValue] at hs⟩
  · exact .error rfl

end LexemeReader

end ScriptExcerpt
