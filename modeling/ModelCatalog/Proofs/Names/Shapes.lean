import ModelCatalog.Proofs.Names.NormalForms

/-! # The shapes of names

    What names look like does not hang on where separators and digits stand in the id, only on
    whether there is a letter in it, or a letter or digit at all.  A type name is one word, with a
    capital letter in front if the id has a letter, and otherwise the digits of the id.  Constructor
    names and module names are made in one way but for where the digits go (`snakeName`), and are
    runs of small letters and digits, with a letter in front if the id has one (`snakeName_spec`).
    So a letter is all that a name needs to be an identifier, unless it is a keyword.  The headline is
    `names_shape`. -/

namespace ModelCatalog.Identifier

-- ── Letters and digits ──

theorem isDigit_of_isAlphanum {id : String} (hnone : hasLetter id = false) {c : Char}
    (hc : c ∈ id.toList) : c.isAlphanum = c.isDigit := by
  rw [hasLetter, List.any_eq_false] at hnone
  rw [Char.isAlphanum, Bool.eq_false_iff.2 (hnone c hc), Bool.false_or]

/-- Digits are all that an id without a letter has to offer, and they stay in their order. -/
theorem rotated_of_no_letter {id : String} (hnone : hasLetter id = false) :
    rotated id = id.toList.filter Char.isDigit := by
  have hdigits : lettersAndDigits id.toList = id.toList.filter Char.isDigit :=
    List.filter_congr fun c hc => isDigit_of_isAlphanum hnone hc
  have hall : ∀ c ∈ id.toList.filter Char.isDigit, c.isDigit = true :=
    fun c hc => (List.mem_filter.1 hc).2
  rw [rotated, rotate, hdigits, List.dropWhile_eq_nil_iff.2 hall, List.nil_append,
    List.takeWhile_eq_self_iff.2 hall]

-- ── Type names ──

theorem toLower_of_not_isAlpha {c : Char} (h : c.isAlpha = false) : c.toLower = c := by
  refine Char.toLower_eq_of_not_isUpper fun hupper => ?_
  rw [Char.isAlpha, hupper, Bool.true_or] at h
  cases h

/-- **A type name without letters** is the digits of its id. -/
theorem typeName_of_no_letter {id : String} (hnone : hasLetter id = false) :
    (typeName id).toList = id.toList.filter Char.isDigit := by
  have hrotated : ∀ c ∈ rotated id, c.isAlpha = false := by
    intro c hc
    rw [hasLetter, List.any_eq_false] at hnone
    exact Bool.eq_false_iff.2 (hnone c (mem_rotated.1 hc).1)
  have hname : ∀ c ∈ (typeName id).toList, c.isAlpha = false := by
    intro c hc
    have hlower := List.mem_map_of_mem (f := Char.toLower) hc
    rw [map_toLower_typeName] at hlower
    obtain ⟨d, hd, hsame⟩ := List.mem_map.1 hlower
    rw [← isAlpha_of_toLower_eq hsame, hrotated d hd]
  -- without letters there is no letter case to be lost
  have hsettled : ∀ s : List Char, (∀ c ∈ s, c.isAlpha = false) → s.map Char.toLower = s :=
    fun s hs => (List.map_congr_left fun c hc => toLower_of_not_isAlpha (hs c hc)).trans (List.map_id s)
  have hsame := map_toLower_typeName id
  rw [hsettled _ hname, hsettled _ hrotated] at hsame
  rw [hsame, rotated_of_no_letter hnone]

theorem isValid_typeName (id : String) :
    isValid (typeName id) = true ↔ hasLetter id = true ∧ typeName id ≠ "Self" := by
  rw [isValid_eq_true, isShaped_typeName]
  refine and_congr_right fun hletter => not_congr (mem_keywords_of_isUpper ?_)
  exact (isUpper_typeName id).trans hletter

-- ── Names in snake case ──

/-- Runs of small letters and digits, with single separators between them. -/
def IsRuns (name : String) : Prop :=
  ∃ parts : List (List Char),
    (∀ part ∈ parts, part ≠ [] ∧ ∀ c ∈ part, c.isLower = true ∨ c.isDigit = true) ∧
      name.toList = ['_'].intercalate parts

section SnakeName

variable (placement : DigitPlacement) (id : String)

theorem isRuns_snakeName : IsRuns (snakeName placement id) := by
  refine ⟨(words (relocate placement (clean id.toList))).map (·.map Char.toLower), ?_, ?_⟩
  · intro part hpart
    obtain ⟨word, hword, rfl⟩ := List.mem_map.1 hpart
    refine ⟨fun hnil => (word_spec hword).1 (List.map_eq_nil_iff.1 hnil), fun c hc => ?_⟩
    obtain ⟨d, hd, rfl⟩ := List.mem_map.1 hc
    have hmem : d ∈ (words (relocate placement (clean id.toList))).flatten :=
      List.mem_flatten.2 ⟨word, hword, hd⟩
    rw [flatten_words, filter_relocate_clean] at hmem
    have halphanum := (mem_rotated.1 hmem).2
    rwa [← isAlphanum_toLower, Char.isAlphanum, Char.isAlpha_toLower_eq_isAlpha,
      ← Char.isLower_toLower_eq_isAlpha, Bool.or_eq_true] at halphanum
  · rw [snakeName, String.toList_ofList, snake, map_intercalate]

theorem snakeName_eq_empty : snakeName placement id = "" ↔ hasLetterOrDigit id = false := by
  rw [← String.toList_eq_nil_iff, snakeName_eq_nil]

theorem isValid_snakeName : isValid (snakeName placement id) = true ↔
    hasLetter id = true ∧ snakeName placement id ∉ keywords := by
  rw [isValid_eq_true, isShaped_snakeName]

/-- **What a name in snake case looks like**, wherever the digits are put. -/
theorem snakeName_spec :
    IsRuns (snakeName placement id) ∧
    (snakeName placement id = "" ↔ hasLetterOrDigit id = false) ∧
    (snakeName placement id).toList.head?.any Char.isAlpha = hasLetter id ∧
    (isValid (snakeName placement id) = true ↔
      hasLetter id = true ∧ snakeName placement id ∉ keywords) :=
  ⟨isRuns_snakeName placement id, snakeName_eq_empty placement id, isAlpha_snakeName placement id,
    isValid_snakeName placement id⟩

end SnakeName

/-- **THE SHAPES OF NAMES.**  A type name consists of letters and digits.  It is empty if there are none
    in the id, begins with a capital letter exactly if there is a letter, and is the digits of the id
    otherwise.  Constructor names and module names are runs of small letters and digits with single
    separators between them.  They are empty if there is no letter and no digit in the id, and begin
    with a letter exactly if there is one.  So what the names of an id with a letter need to be
    identifiers is to be no keyword, and the only one that a type name can be is `Self`. -/
theorem names_shape (id : String) :
    ((∀ c ∈ (typeName id).toList, c.isAlphanum = true) ∧
      (typeName id = "" ↔ hasLetterOrDigit id = false) ∧
      (typeName id).toList.head?.any Char.isUpper = hasLetter id ∧
      (hasLetter id = false → (typeName id).toList = id.toList.filter Char.isDigit) ∧
      (isValid (typeName id) = true ↔ hasLetter id = true ∧ typeName id ≠ "Self")) ∧
    ∀ name ∈ [constructorName id, moduleName id],
      IsRuns name ∧ (name = "" ↔ hasLetterOrDigit id = false) ∧
      name.toList.head?.any Char.isAlpha = hasLetter id ∧
      (isValid name = true ↔ hasLetter id = true ∧ name ∉ keywords) := by
  refine ⟨⟨fun _ => isAlphanum_of_mem_typeName, ?_, isUpper_typeName id, typeName_of_no_letter,
    isValid_typeName id⟩, fun name hname => ?_⟩
  · rw [← String.toList_eq_nil_iff, typeName_eq_nil]
  · rcases List.mem_cons.1 hname with rfl | hname
    · exact snakeName_spec .abutting id
    · obtain rfl := List.mem_singleton.1 hname
      exact snakeName_spec .separated id

/-- An id without letters, and one whose names are a keyword and almost one. -/
theorem names_shape_keywords :
    hasLetter "(3.5)" = false ∧ (typeName "(3.5)").toList = ['3', '5'] ∧
      isValid (typeName "(3.5)") = false ∧
      isValid (typeName "--self") = false ∧ isValid (typeName "7-self") = true ∧
      isValid (moduleName "7-self") = true := by
  obtain ⟨⟨-, -, -, hdigits, hvalid⟩, -⟩ := names_shape "(3.5)"
  have hnone : hasLetter "(3.5)" = false := by decide
  refine ⟨hnone, (hdigits hnone).trans (by decide), ?_, ?_, ?_, ?_⟩
  · rw [Bool.eq_false_iff]
    exact fun h => absurd (hvalid.1 h).1 (by decide)
  · rw [Bool.eq_false_iff]
    exact fun h => absurd ((names_shape "--self").1.2.2.2.2.1 h).2 (by decide)
  · exact (names_shape "7-self").1.2.2.2.2.2 (by decide)
  · exact ((names_shape "7-self").2 _ (by simp)).2.2.2.2 (by decide)

end ModelCatalog.Identifier
