import Mathlib
import ModelCatalog.Proofs.Models.Constructors
import ModelCatalog.Proofs.Names.LetterCase

/-! # Letters and digits of derived names

    The three names of an id are made of the same letters and digits: those of the id in their order,
    but for the leading digits, which are behind the others (`rotate`).  Cleaning, relocating and
    splitting into words only deal with what is between them (`filter_relocate`, `flatten_words`),
    and casing loses nothing but letter case.  The headline, `names_rotate`, says so of single ids
    and of models, which are named after one id or two. -/

namespace ModelCatalog

namespace Identifier

/-- The ASCII letters and digits of a text. -/
def lettersAndDigits (s : List Char) : List Char := s.filter Char.isAlphanum

/-- Leading digits moved behind the rest.  A text of nothing but digits stays what it is. -/
def rotate (s : List Char) : List Char := s.dropWhile Char.isDigit ++ s.takeWhile Char.isDigit

/-- The letters and digits that the names of an id are made of. -/
def rotated (id : String) : List Char := rotate (lettersAndDigits id.toList)

-- ── Cleaning ──

theorem isWordChar_of_ne {c : Char} (h : c ≠ '_') : isWordChar c = c.isAlphanum := by
  rw [isWordChar, beq_eq_false_iff_ne.2 h, Bool.or_false]

/-- What a text has besides separators, when it has been cleaned, are its letters and digits. -/
theorem filter_clean (s : List Char) : (clean s).filter (· != '_') = lettersAndDigits s := by
  induction s with
  | nil => rfl
  | cons c rest ih =>
      rw [clean, List.map_cons, ← clean, lettersAndDigits, List.filter_cons, List.filter_cons,
        ← lettersAndDigits, ih]
      by_cases hc : c = '_'
      · rw [hc]
        rfl
      · rw [isWordChar_of_ne hc]
        cases c.isAlphanum with
        | true => simp [hc]
        | false => rfl

-- ── Relocating ──

theorem filter_dropWhile_separator (s : List Char) :
    (s.dropWhile (· == '_')).filter (· != '_') = s.filter (· != '_') := by
  have hnone : (s.takeWhile (· == '_')).filter (· != '_') = [] := by
    rw [List.filter_eq_nil_iff]
    intro c hc
    have hseparator := List.mem_takeWhile_imp hc
    simpa using hseparator
  conv_rhs => rw [← List.takeWhile_append_dropWhile (p := (· == '_')) (l := s),
    List.filter_append, hnone, List.nil_append]

theorem filter_trimEnd (s : List Char) :
    (trimEnd s).filter (· != '_') = s.filter (· != '_') := by
  rw [trimEnd, List.filter_reverse, filter_dropWhile_separator, List.filter_reverse,
    List.reverse_reverse]

/-- The leading run of digits and separators has the leading digits in it, and nothing else has. -/
theorem filter_run (s : List Char) :
    (s.takeWhile isDigitOrSeparator).filter (· != '_')
        = (s.filter (· != '_')).takeWhile Char.isDigit ∧
      (s.dropWhile isDigitOrSeparator).filter (· != '_')
        = (s.filter (· != '_')).dropWhile Char.isDigit := by
  induction s with
  | nil => exact ⟨rfl, rfl⟩
  | cons c rest ih =>
      by_cases hc : c = '_'
      · subst hc
        exact ih
      · have hkept : (c != '_') = true := by simpa using hc
        have hrun : isDigitOrSeparator c = c.isDigit := by simp [isDigitOrSeparator, hc]
        cases hdigit : c.isDigit with
        | true => simpa [hrun, hdigit, hkept] using ih
        | false => simp [hrun, hdigit, hkept]

/-- **Relocating moves the leading digits behind the rest**, wherever separators are, and wherever
    the digits are put. -/
theorem filter_relocate (placement : DigitPlacement) (s : List Char) :
    (relocate placement s).filter (· != '_') = rotate (s.filter (· != '_')) := by
  obtain ⟨hrun, hrest⟩ := filter_run (s.dropWhile (· == '_'))
  have hhead := List.head?_dropWhile_not (· == '_') s
  have hseparator : placement.separator.filter (· != '_') = [] := by cases placement <;> rfl
  rw [filter_dropWhile_separator] at hrun hrest
  rw [relocate, rotate, ← hrun, ← hrest]
  by_cases hmoves : ((s.dropWhile (· == '_')).head?.any Char.isDigit &&
      !((s.dropWhile (· == '_')).dropWhile isDigitOrSeparator).isEmpty) = true
  · rw [if_pos hmoves, List.filter_append, List.filter_append, hseparator, List.append_nil,
      filter_trimEnd]
  · -- the run or the rest is empty, so the two can change places
    rw [if_neg hmoves, ← filter_dropWhile_separator]
    cases hbody : s.dropWhile (· == '_') with
    | nil => rfl
    | cons c rest =>
        rw [hbody] at hhead hmoves
        have hrun : isDigitOrSeparator c = c.isDigit := by
          rw [isDigitOrSeparator, show (c == '_') = false from hhead, Bool.or_false]
        cases hdigit : c.isDigit with
        | false => simp [hrun, hdigit]
        | true =>
            have hempty : (c :: rest).dropWhile isDigitOrSeparator = [] := by
              simpa [hdigit] using hmoves
            have hwhole := List.takeWhile_append_dropWhile (p := isDigitOrSeparator)
              (l := c :: rest)
            rw [hempty, List.append_nil] at hwhole
            rw [hempty, hwhole]
            rfl

-- ── Casing ──

/-- Words run together are what was there besides separators. -/
theorem flatten_words (s : List Char) : (words s).flatten = s.filter (· != '_') := by
  have hparts := filter_intercalate fun part (hpart : part ∈ s.splitOn '_') => (mem_splitOn hpart).1
  rw [List.intercalate_splitOn] at hparts
  rw [hparts, words]
  exact List.flatten_filter_not_isEmpty

/-- Capital letters are all that camel case adds to the words. -/
theorem map_toLower_camel (s : List Char) :
    (camel s).map Char.toLower = (s.filter (· != '_')).map Char.toLower := by
  rw [← flatten_words, camel, List.map_flatMap, List.map_flatten, List.flatMap_def]
  simp only [map_toLower_capitalize]

/-- What the words of an id are made of, wherever the digits are put. -/
theorem filter_relocate_clean (placement : DigitPlacement) (id : String) :
    (relocate placement (clean id.toList)).filter (· != '_') = rotated id := by
  rw [filter_relocate, filter_clean, rotated]

theorem map_toLower_typeName (id : String) :
    (typeName id).toList.map Char.toLower = (rotated id).map Char.toLower := by
  rw [typeName, String.toList_ofList, map_toLower_camel, filter_relocate_clean]

/-- Constructor names and module names differ in nothing but where leading digits are put. -/
def snakeName (placement : DigitPlacement) (id : String) : String :=
  .ofList (snake (relocate placement (clean id.toList)))

theorem snakeName_rotated (placement : DigitPlacement) (id : String) :
    (snakeName placement id).toList.filter (· != '_') = (rotated id).map Char.toLower := by
  rw [snakeName, String.toList_ofList, filter_snake, map_toLower_camel, filter_relocate_clean]

theorem constructorName_rotated (id : String) :
    (constructorName id).toList.filter (· != '_') = (rotated id).map Char.toLower :=
  snakeName_rotated .abutting id

theorem moduleName_rotated (id : String) :
    (moduleName id).toList.filter (· != '_') = (rotated id).map Char.toLower :=
  snakeName_rotated .separated id

end Identifier

-- ── Models ──

/-- The letters and digits that the names of a model are made of. -/
def ModelId.rotated (id : ModelId) : List Char :=
  (id.folder?.map Identifier.rotated).getD [] ++ Identifier.rotated id.base

theorem ModelId.map_toLower_typeName (id : ModelId) :
    id.typeName.toLower.toList = id.rotated.map Char.toLower := by
  rw [String.toLower, String.toList_map, typeName, rotated]
  cases id.folder? with
  | none => exact Identifier.map_toLower_typeName id.base
  | some folder =>
      simp only [String.toList_append, List.map_append, Identifier.map_toLower_typeName,
        Option.map_some, Option.getD_some]

/-- **THE SAME LETTERS AND DIGITS.**  Up to letter case and separators, each of the three names of an
    id is the letters and digits of the id with the leading digits behind the rest.  The constructor
    name of a model is its type name in lower case, which is made so of the folder and the base; so
    models with one constructor name have types that agree but for letter case. -/
theorem names_rotate :
    (∀ id : String,
      (Identifier.typeName id).toLower.toList = (Identifier.rotated id).map Char.toLower ∧
      (Identifier.constructorName id).toList.filter (· != '_')
        = (Identifier.rotated id).map Char.toLower ∧
      (Identifier.moduleName id).toList.filter (· != '_')
        = (Identifier.rotated id).map Char.toLower) ∧
    ∀ (id : ModelId) (names : ModelNames), id.names = .ok names →
      names.constructorName.toList.filter (· != '_') = names.typeName.toLower.toList ∧
      names.typeName.toLower.toList = id.rotated.map Char.toLower ∧
      ∀ (other : ModelId) (names' : ModelNames), other.names = .ok names' →
        names.constructorName = names'.constructorName →
          names.typeName.toLower = names'.typeName.toLower := by
  refine ⟨fun id => ⟨?_, Identifier.constructorName_rotated id, Identifier.moduleName_rotated id⟩,
    fun id names hnames => ?_⟩
  · rw [String.toLower, String.toList_map]
    exact Identifier.map_toLower_typeName id
  · obtain ⟨-, -, rfl⟩ := ModelId.names_eq_ok.1 hnames
    refine ⟨id.constructorName_letters, id.map_toLower_typeName, fun other names' hnames' hsame => ?_⟩
    obtain ⟨-, -, rfl⟩ := ModelId.names_eq_ok.1 hnames'
    exact ModelId.typeName_toLower_eq hsame

/-- Digits with a separator among them go behind the rest, in the folder and in the base; and two ids
    with one constructor name have types that agree but for letter case. -/
theorem names_rotate_digits :
    let id : ModelId := ⟨some "01-ai", "3.5-Turbo"⟩
    let other : ModelId := ⟨some "01_AI", "3 5 turbo"⟩
    ∃ names names', id.names = .ok names ∧ other.names = .ok names' ∧
      names.constructorName = names'.constructorName ∧
      names.constructorName.toList.filter (· != '_') = names.typeName.toLower.toList ∧
      names.typeName.toLower.toList = "ai01turbo35".toList ∧
      names.typeName.toLower = names'.typeName.toLower := by
  intro id other
  have hnames : id.names = .ok ⟨"Ai01Turbo35", "ai01_turbo3_5"⟩ := by decide
  have hnames' : other.names = .ok ⟨"AI01Turbo35", "ai01_turbo3_5"⟩ := by decide
  obtain ⟨hletters, hrotated, hsame⟩ := names_rotate.2 id _ hnames
  exact ⟨_, _, hnames, hnames', rfl, hletters, hrotated.trans (by decide), hsame other _ hnames' rfl⟩

end ModelCatalog
