/-! # Identifiers derived from catalog ids

    A catalog id is free text: digits, dots, hyphens, colons, brackets, any script.  Generated code
    needs three identifiers from it: a **type name** in upper camel case, a **constructor name**
    and a **module name** in snake case.  Each is made in three steps.

    1. `clean` turns every character outside `[A-Za-z0-9_]` into the separator `_`.
    2. `relocate` moves a leading run of digits behind the rest, for an identifier cannot start
       with a digit.  In constructor and type names the digits abut the rest, in module names one
       separator stands between.
    3. The separators are spent: the words between them are capitalised and run together, or
       joined by one `_` in lower case.

    All rules are ASCII rules: only ASCII letters and digits survive `clean`. -/

namespace ModelCatalog.Identifier

-- ── Characters ──

/-- The characters an identifier may hold. -/
def isWordChar (c : Char) : Bool := c.isAlphanum || c == '_'

/-- What a leading run of digits consists of: digits, and the separators between them. -/
def isDigitOrSeparator (c : Char) : Bool := c.isDigit || c == '_'

/-- A list without the separators at its end. -/
def trimEnd (s : List Char) : List Char := (s.reverse.dropWhile (· == '_')).reverse

-- ── The three steps ──

/-- Every character that no identifier holds becomes a separator. -/
def clean (s : List Char) : List Char := s.map fun c => if isWordChar c then c else '_'

/-- How relocated digits meet the text they are put behind. -/
inductive DigitPlacement where
  /-- Directly behind it. -/
  | abutting
  /-- Behind it and one separator. -/
  | separated
  deriving DecidableEq, Repr

/-- What is written between the text and the digits that follow it. -/
def DigitPlacement.separator : DigitPlacement → List Char
  | .abutting => []
  | .separated => ['_']

/-- The leading digit run moves to the end.  The run may hold separators, which stay inside it but
    not at its end; separators before it are dropped.  Text that does not start with a digit, or
    that is nothing but the run, stays as it is. -/
def relocate (placement : DigitPlacement) (s : List Char) : List Char :=
  let body := s.dropWhile (· == '_')
  let rest := body.dropWhile isDigitOrSeparator
  if body.head?.any Char.isDigit && !rest.isEmpty then
    rest ++ placement.separator ++ trimEnd (body.takeWhile isDigitOrSeparator)
  else s

/-- The non-empty words between separators. -/
def words (s : List Char) : List (List Char) := (s.splitOn '_').filter (!·.isEmpty)

/-- A word with its first letter in upper case and the rest untouched. -/
def capitalize : List Char → List Char
  | [] => []
  | c :: s => c.toUpper :: s

/-- Capitalised words run together. -/
def camel (s : List Char) : List Char := (words s).flatMap capitalize

/-- Words joined by single separators, in lower case. -/
def snake (s : List Char) : List Char := (['_'].intercalate (words s)).map Char.toLower

-- ── The three names ──

/-- The type name of an id: `gpt-3.5-turbo` gives `Gpt35Turbo`, `302ai` gives `Ai302`. -/
def typeName (id : String) : String := .ofList (camel (relocate .abutting (clean id.toList)))

/-- The constructor name of an id: `gpt-3.5-turbo` gives `gpt_3_5_turbo`, `302ai` gives `ai302`. -/
def constructorName (id : String) : String :=
  .ofList (snake (relocate .abutting (clean id.toList)))

/-- The module name of an id: `302ai` gives `ai_302`. -/
def moduleName (id : String) : String := .ofList (snake (relocate .separated (clean id.toList)))

-- ── Validity ──

/-- Words that Rust reserves, now or for later, and that therefore name nothing in generated
    code. -/
def keywords : List String :=
  ["abstract", "as", "async", "await", "become", "box", "break", "const", "continue", "crate",
   "do", "dyn", "else", "enum", "extern", "false", "final", "fn", "for", "if", "impl", "in",
   "let", "loop", "macro", "match", "mod", "move", "mut", "override", "priv", "pub", "ref",
   "return", "Self", "self", "static", "struct", "super", "trait", "true", "try", "type",
   "typeof", "unsafe", "unsized", "use", "virtual", "where", "while", "yield"]

/-- A letter followed by word characters. -/
def isShaped : List Char → Bool
  | [] => false
  | c :: s => c.isAlpha && s.all isWordChar

/-- An identifier that generated code may declare: well shaped and no keyword. -/
def isValid (name : String) : Bool := isShaped name.toList && !keywords.contains name

/-- An identifier has word characters only. -/
theorem isWordChar_of_isValid {name : String} (h : isValid name = true) {c : Char}
    (hc : c ∈ name.toList) : isWordChar c = true := by
  rw [isValid, Bool.and_eq_true] at h
  cases hname : name.toList with
  | nil =>
      rw [hname] at hc
      cases hc
  | cons first rest =>
      rw [hname, isShaped, Bool.and_eq_true, List.all_eq_true] at h
      rw [hname] at hc
      rcases List.mem_cons.1 hc with rfl | hrest
      · simp [isWordChar, Char.isAlphanum, h.1.1]
      · exact h.1.2 c hrest

end ModelCatalog.Identifier
