import ScriptExcerpt.Proofs.Token.Word
import ScriptExcerpt.Proofs.Excerpt.Function

/-!
# Excerpts of generated scripts

Scripts are generated from a few statements and comments (`Leaf`), some of which hide
brackets in literals, by putting scripts one behind the other and into blocks
(`Script`). Around any of them a function is its own excerpt.

* `TokenStream.StandsBefore.exists_reads_function`: a function that is written word
  by word is read up to the brace that closes it.
* `excerpt_of_words`: the excerpt of a function that is written word by word.
* `Script.fit`, `Script.nested`: the words of a generated script fit, whatever
  stands before it, and their brackets are properly nested.
* `excerpt_of_script`: the excerpt of a function around a generated script.
-/

namespace ScriptExcerpt

open Text

/-! ## Words in brackets -/

/-- The word is a parenthesis or brace. -/
def Word.isGrouping : Word → Bool
  | symbol s => (Kind.symbol s).isGrouping
  | _ => false

theorem Word.isGrouping_of_kind? {v : Version} {w : Word} {k : Kind} (h : w.kind? v = some k) :
    k.isGrouping = w.isGrouping := by
  cases w with
  | blank | newline | lineComment _ | blockComment _ => simp [kind?] at h
  | name first others =>
    have hword := isWord_nameKind v (String.ofList (first :: others))
    rw [Option.some.inj h] at hword
    cases k <;> first | rfl | exact absurd hword Bool.false_ne_true
  | quotation quote items =>
    rw [← Option.some.inj h]
    split <;> rfl
  | number _ _ | symbol _ | regExp _ _ _ =>
    rw [← Option.some.inj h]
    rfl

namespace Words

variable {v : Version} {ws ws' : List Word}

/-- The words in parentheses. -/
def inParens (ws : List Word) : List Word :=
  .symbol .openParen :: (ws ++ [.symbol .closeParen])

/-- The words in braces. -/
def inBraces (ws : List Word) : List Word :=
  .symbol .openCurly :: (ws ++ [.symbol .closeCurly])

theorem kinds_inParens : kinds v (inParens ws) =
    .symbol .openParen :: kinds v ws ++ [.symbol .closeParen] :=
  congrArg _ kinds_append

theorem kinds_inBraces : kinds v (inBraces ws) =
    .symbol .openCurly :: kinds v ws ++ [.symbol .closeCurly] :=
  congrArg _ kinds_append

theorem text_inBraces : text (inBraces ws) = '{' :: (text ws ++ ['}']) :=
  congrArg _ text_append

theorem nested_inParens (h : Nested (kinds v ws)) : Nested (kinds v (inParens ws)) :=
  kinds_inParens ▸ h.enclosed .parens

theorem nested_inBraces (h : Nested (kinds v ws)) : Nested (kinds v (inBraces ws)) :=
  kinds_inBraces ▸ h.enclosed .braces

/-- Words among which there is no bracket are properly nested. -/
theorem nested_of_not_isGrouping (h : ∀ w ∈ ws, w.isGrouping = false) : Nested (kinds v ws) := by
  refine .of_not_isGrouping fun k hk => ?_
  obtain ⟨w, hw, hkind⟩ := List.mem_filterMap.1 hk
  rw [Word.isGrouping_of_kind? hkind, h w hw]

theorem nested_append (h : Nested (kinds v ws)) (h' : Nested (kinds v ws')) :
    Nested (kinds v (ws ++ ws')) :=
  kinds_append ▸ h.append h'

theorem fit_openCurly : Fit v none [.symbol .openCurly] := by
  cases v <;> decide

theorem fit_closeCurly : Fit v none [.symbol .closeCurly] := by
  cases v <;> decide

theorem fit_inBraces (h : Fit v none ws) : Fit v none (inBraces ws) :=
  fit_openCurly.append (h.append fit_closeCurly)

end Words

/-! ## Functions written word by word -/

section Function

open Words

variable {v : Version} {anchor before tail : List Char} {params body : List Word}

/-- A stream reads a function whose words fit and whose brackets are properly nested. Without a
    brace among the parameters, the last brace is the first token that closes. -/
theorem TokenStream.StandsBefore.exists_reads_function {s : TokenStream}
    (hs : s.StandsBefore v (text (inParens params ++ inBraces body) ++ tail))
    (h₀ : s.grouping = .empty) (hhead : Fit v none (inParens params)) (hfit : Fit v none body)
    (hparams : Nested (kinds v params)) (hbody : Nested (kinds v body))
    (hcurly : .symbol .openCurly ∉ kinds v params) :
    ∃ ts u s', Reads s (ts ++ [u]) s' ∧ u.kind = .symbol .closeCurly ∧
      FirstCloses ((ts ++ [u]).map Token.kind) ∧ s'.reader.cursor.rest = tail := by
  have hwords : Fit v none (inParens params ++ .symbol .openCurly :: body) :=
    hhead.append (fit_openCurly.append hfit)
  have hkinds : kinds v (inParens params ++ .symbol .openCurly :: body) =
      .symbol .openParen :: kinds v params ++ [.symbol .closeParen] ++
        .symbol .openCurly :: kinds v body := by
    rw [kinds_append, kinds_inParens]
    rfl
  have hnested : Nested (kinds v (inParens params ++ .symbol .openCurly :: body) ++
      [.symbol .closeCurly]) := by
    rw [hkinds, List.append_assoc]
    exact (hparams.enclosed .parens).append (hbody.enclosed .braces)
  -- All words but the last brace are read one after the other.
  have hwhole : inParens params ++ inBraces body =
      inParens params ++ .symbol .openCurly :: body ++ [.symbol .closeCurly] := by
    rw [inBraces, List.append_assoc, List.cons_append]
  rw [hwhole, text_append, List.append_assoc] at hs
  obtain ⟨ts, s₁, hts, hmap, hs₁⟩ := exists_reads_words (.nil s) h₀ hs isBehind_none hwords
    fun js hjs => hnested.ahead_of_prefix (hjs.trans (List.prefix_append _ _))
  rw [List.map_nil, List.nil_append] at hmap
  -- The brace is read next, and the stream stands right behind it.
  obtain ⟨hwritten, hbehind, hends, -⟩ : Fit v none [.symbol .closeCurly] := fit_closeCurly
  obtain ⟨u, s', hnext, hu, hs', -⟩ := hs₁.next_word (w := .symbol .closeCurly) hwritten
    (hends.imp_right (by rintro ⟨d, hd, -⟩; simp [text] at hd)) rfl isBehind_none
    hbehind hts h₀ (hmap ▸ hnested.ahead_of_prefix (List.prefix_refl _))
  refine ⟨ts, u, s', hts.snoc hnext, hu, ?_, hs'.rest⟩
  rw [List.map_append, hmap, List.map_singleton, hu, hkinds]
  exact firstCloses_function hparams hbody hcurly

/-- Behind an anchor, a function whose words fit and whose brackets are properly nested is the
    excerpt, whatever stands behind it, if there is no brace among its parameters. -/
theorem excerpt_of_words
    (hocc : FirstOccurrence anchor
      (before ++ anchor ++ (text (inParens params ++ inBraces body) ++ tail)) before)
    (hhead : Fit v none (inParens params)) (hfit : Fit v none body)
    (hparams : Nested (kinds v params)) (hbody : Nested (kinds v body))
    (hcurly : .symbol .openCurly ∉ kinds v params) :
    excerpt v (before ++ anchor ++ (text (inParens params ++ inBraces body) ++ tail)) anchor =
      .ok (text (inParens params ++ inBraces body)) := by
  have hstart : (TokenStream.startingAt
      (before ++ anchor ++ (text (inParens params ++ inBraces body) ++ tail))
      (byteLength (before ++ anchor)) v).StandsBefore v
      (text (inParens params ++ inBraces body) ++ tail) :=
    ⟨_, rfl, rfl, congrArg Cursor.rest (Cursor.startingAt_append _ _), rfl⟩
  obtain ⟨ts, u, s', hread, hu, hcloses, hrest⟩ :=
    hstart.exists_reads_function rfl hhead hfit hparams hbody hcurly
  have hslice := hread.slice_eq (hu ▸ Closer.curly)
  rw [hrest] at hslice
  rw [excerpt_of_firstCloses hocc hread hcloses, ← List.append_cancel_right hslice]

end Function

/-! ## Generated scripts -/

/-- A statement or comment that holds no others. -/
inductive Leaf
  | declaration
  | string
  | quote
  | regExp
  | division
  | array
  | object
  | blockComment
  | lineComment
  | result

/-- A statement that holds others in braces. -/
inductive Block
  | conditional
  | function
  | loop

/-- A script that is generated. -/
inductive Script
  | leaf (l : Leaf)
  | block (b : Block) (body : Script)
  | empty
  | append (s s' : Script)

/-- The text of the statement. -/
def Leaf.text : Leaf → String
  | declaration => "var x=1;"
  | string => "s=\"\x7d\x7b)(\";"
  | quote => "t='\\'\x7d';"
  | regExp => "r=/(\x7d\x7b)/g;"
  | division => "a=b/2/c;"
  | array => "q=[/,,/,913];"
  | object => "o=\x7bk:\x7bv:1\x7d\x7d;"
  | blockComment => "/* \x7d */"
  | lineComment => "// )\n"
  | result => "return x[1][y];"

/-- What stands before the braces. -/
def Block.head : Block → String
  | conditional => "if(a)"
  | function => "f=function(p)"
  | loop => "for(;;)"

/-- What stands behind the braces. -/
def Block.foot : Block → String
  | conditional | loop => ""
  | function => ";"

/-- The text of the script. -/
def Script.text : Script → List Char
  | leaf l => l.text.toList
  | block b s => b.head.toList ++ '{' :: (s.text ++ '}' :: b.foot.toList)
  | empty => []
  | append s s' => s.text ++ s'.text

/-! ## Their words -/

/-- The words of the statement. -/
def Leaf.words : Leaf → List Word
  | declaration => [.name 'v' ['a', 'r'], .blank, .name 'x' [], .symbol .assignment,
      .number '1' [], .symbol .semicolon]
  | string => [.name 's' [], .symbol .assignment,
      .quotation ⟨'"', rfl⟩ [.char '}' (by decide), .char '{' (by decide), .char ')' (by decide),
        .char '(' (by decide)], .symbol .semicolon]
  | quote => [.name 't' [], .symbol .assignment,
      .quotation ⟨'\'', rfl⟩ [.quote, .char '}' (by decide)], .symbol .semicolon]
  | regExp => [.name 'r' [], .symbol .assignment, .regExp '(' ['}', '{', ')'] ['g'],
      .symbol .semicolon]
  | division => [.name 'a' [], .symbol .assignment, .name 'b' [], .symbol .slash,
      .number '2' [], .symbol .slash, .name 'c' [], .symbol .semicolon]
  | array => [.name 'q' [], .symbol .assignment, .symbol .openBracket, .regExp ',' [','] [],
      .symbol .comma, .number '9' ['1', '3'], .symbol .closeBracket, .symbol .semicolon]
  | object => [.name 'o' [], .symbol .assignment] ++
      (Words.inBraces ([.name 'k' [], .symbol .colon] ++
        Words.inBraces [.name 'v' [], .symbol .colon, .number '1' []]) ++ [.symbol .semicolon])
  | blockComment => [.blockComment [' ', '}', ' ']]
  | lineComment => [.lineComment [' ', ')'], .newline]
  | result => [.name 'r' ['e', 't', 'u', 'r', 'n'], .blank, .name 'x' [], .symbol .openBracket,
      .number '1' [], .symbol .closeBracket, .symbol .openBracket, .name 'y' [],
      .symbol .closeBracket, .symbol .semicolon]

/-- The words before the braces. -/
def Block.headWords : Block → List Word
  | conditional => [.name 'i' ['f']] ++ Words.inParens [.name 'a' []]
  | function => [.name 'f' [], .symbol .assignment,
      .name 'f' ['u', 'n', 'c', 't', 'i', 'o', 'n']] ++ Words.inParens [.name 'p' []]
  | loop => [.name 'f' ['o', 'r']] ++ Words.inParens [.symbol .semicolon, .symbol .semicolon]

/-- The words behind the braces. -/
def Block.footWords : Block → List Word
  | conditional | loop => []
  | function => [.symbol .semicolon]

/-- The words of the script. -/
def Script.words : Script → List Word
  | leaf l => l.words
  | block b s => b.headWords ++ (Words.inBraces s.words ++ b.footWords)
  | empty => []
  | append s s' => s.words ++ s'.words

theorem Leaf.text_words (l : Leaf) : Words.text l.words = l.text.toList := by
  cases l <;> decide

theorem Block.text_headWords (b : Block) : Words.text b.headWords = b.head.toList := by
  cases b <;> decide

theorem Block.text_footWords (b : Block) : Words.text b.footWords = b.foot.toList := by
  cases b <;> decide

section Words

variable (v : Version)

theorem Leaf.fit (l : Leaf) : Words.Fit v none l.words := by
  cases l <;> cases v <;> decide +kernel

theorem Block.fit_head (b : Block) : Words.Fit v none b.headWords := by
  cases b <;> cases v <;> decide +kernel

theorem Block.fit_foot (b : Block) : Words.Fit v none b.footWords := by
  cases b <;> cases v <;> decide

theorem Leaf.nested (l : Leaf) : Nested (Words.kinds v l.words) := by
  cases l with
  | object =>
    refine Words.nested_append (Words.nested_of_not_isGrouping (by decide)) ?_
    refine Words.nested_append (Words.nested_inBraces ?_)
      (Words.nested_of_not_isGrouping (by decide))
    exact Words.nested_append (Words.nested_of_not_isGrouping (by decide))
      (Words.nested_inBraces (Words.nested_of_not_isGrouping (by decide)))
  | _ => exact Words.nested_of_not_isGrouping (by decide)

theorem Block.nested_head (b : Block) : Nested (Words.kinds v b.headWords) := by
  cases b <;>
  · refine Words.nested_append (Words.nested_of_not_isGrouping (by decide)) ?_
    exact Words.nested_inParens (Words.nested_of_not_isGrouping (by decide))

theorem Block.nested_foot (b : Block) : Nested (Words.kinds v b.footWords) := by
  cases b <;> exact Words.nested_of_not_isGrouping (by decide)

namespace Script

theorem text_words (s : Script) : Words.text s.words = s.text := by
  induction s with
  | leaf l => exact l.text_words
  | block b s ih =>
    rw [words, Words.text_append, Words.text_append, Words.text_inBraces, b.text_headWords,
      b.text_footWords, ih, text, List.cons_append, List.append_assoc, List.singleton_append]
  | empty => rfl
  | append s s' ih ih' => rw [words, Words.text_append, ih, ih', text]

/-- The words of a generated script fit behind any token. -/
theorem fit (s : Script) : Words.Fit v none s.words := by
  induction s with
  | leaf l => exact l.fit v
  | block b s ih => exact (b.fit_head v).append ((Words.fit_inBraces ih).append (b.fit_foot v))
  | empty => trivial
  | append s s' ih ih' => exact ih.append ih'

/-- The brackets of a generated script are properly nested. -/
theorem nested (s : Script) : Nested (Words.kinds v s.words) := by
  induction s with
  | leaf l => exact l.nested v
  | block b s ih =>
    exact Words.nested_append (b.nested_head v)
      (Words.nested_append (Words.nested_inBraces ih) (b.nested_foot v))
  | empty => exact .nil
  | append s s' ih ih' => exact Words.nested_append ih ih'

end Script

end Words

/-- Around any generated script a function is its own excerpt, whatever stands behind it. -/
theorem excerpt_of_script (s : Script) (v : Version) (tail : List Char) :
    excerpt v ("var pre;Wka=function(d)\x7b".toList ++ s.text ++ '}' :: tail)
      "Wka=function".toList = .ok ("(d)\x7b".toList ++ s.text ++ ['}']) := by
  have htext : Words.text (Words.inParens [.name 'd' []] ++ Words.inBraces s.words) =
      "(d)\x7b".toList ++ s.text ++ ['}'] := by
    rw [Words.text_append, Words.text_inBraces, s.text_words]
    rfl
  have hsource : "var pre;Wka=function(d)\x7b".toList ++ s.text ++ '}' :: tail =
      "var pre;".toList ++ "Wka=function".toList ++
        ("(d)\x7b".toList ++ s.text ++ ['}'] ++ tail) := by
    rw [← List.append_cons]
    rfl
  rw [hsource, ← htext]
  refine excerpt_of_words (before?_eq_some_iff.1 ?_) ?_ (s.fit v) ?_ (s.nested v) ?_
  · rfl
  · cases v <;> decide +kernel
  · exact Words.nested_of_not_isGrouping (by decide)
  · cases v <;> decide +kernel

end ScriptExcerpt
