import ScriptExcerpt.Language.Kind

/-!
# Vocabulary of a version

Which words are more than names in a version of the language. The keywords are
the same in all versions, but `import` came with ECMAScript 6; earlier versions
reserve many more words, and strict code of ECMAScript 6 some of them.

* `wordKind?`: what the vocabulary says of a word.
* `nameKind`: the kind of a word that is written without escapes.
-/

namespace ScriptExcerpt

/-- The words reserved before ECMAScript 6. -/
def legacyReserved : List String :=
  ["abstract", "boolean", "byte", "char", "class", "double", "enum", "extends", "final",
    "float", "goto", "implements", "import", "int", "interface", "long", "native",
    "package", "private", "protected", "public", "short", "static", "super",
    "synchronized", "throws", "transient", "volatile"]

/-- The words reserved from ECMAScript 6 on. -/
def modernReserved : List String :=
  ["class", "extends", "super", "await", "enum"]

/-- The words reserved from ECMAScript 6 on in strict code. -/
def strictReserved : List String :=
  ["implements", "interface", "package", "private", "protected", "public", "static"]

/-- The keyword exists in the version. -/
def Keyword.allowed (v : Version) : Keyword → Bool
  | .import => v == .es6
  | _ => true

/-- The word is reserved in the version. -/
def isReserved (v : Version) (strict : Bool) (word : String) : Bool :=
  if v = .es6 then modernReserved.contains word || (strict && strictReserved.contains word)
  else legacyReserved.contains word

/-- What the vocabulary of the version says of a word, if it is more than a
    name. -/
def wordKind? (v : Version) (strict : Bool) (word : String) : Option Kind :=
  match Keyword.all.find? fun k => k.allowed v && k.spelling == word with
  | some k => some (.keyword k)
  | none =>
    match LiteralWord.all.find? (·.spelling == word) with
    | some w => some (.literal w)
    | none => if isReserved v strict word then some .reserved else none

/-- The kind of a word of a script. Words that are reserved only for later are
    names before ECMAScript 6, and so are `let` and `yield` before 1.7. -/
def nameKind (v : Version) (word : String) : Kind :=
  match wordKind? v false word with
  | none => .identifier
  | some .reserved => if v = .es6 then .reserved else .identifier
  | some (.keyword .let) => if v = .legacy then .identifier else .keyword .let
  | some (.keyword .yield) => if v = .legacy then .identifier else .keyword .yield
  | some k => k

end ScriptExcerpt
