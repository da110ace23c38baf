import ModelCatalog.Proofs.Names.Relocating
import ModelCatalog.Proofs.Names.SnakeCase

/-! # Names of names

    Each name is a normal form: made of a name of its kind, it is that name again.  The three steps
    find nothing left to do.  There is nothing to clean in a name, nothing to relocate, for a letter
    stands in front of it if it has one (`settled`), and casing what has been cased changes nothing
    (`camel_camel`, `snake_snake`).  Relocating is done after one time on any text, as what comes to
    the front is no digit (`relocate_relocate`).  The headline is `names_idempotent`. -/

namespace ModelCatalog.Identifier

-- ── Relocating again ──

theorem relocate_of_head {c : Char} (hc : isDigitOrSeparator c = false)
    (placement : DigitPlacement) (s : List Char) : relocate placement (c :: s) = c :: s := by
  rw [isDigitOrSeparator, Bool.or_eq_false_iff] at hc
  rw [relocate, List.dropWhile_cons_of_neg (by simp [hc.2])]
  simp [hc.1]

theorem relocate_of_run {s : List Char} (h : ∀ c ∈ s, isDigitOrSeparator c = true)
    (placement : DigitPlacement) : relocate placement s = s := by
  have hrest : (s.dropWhile (· == '_')).dropWhile isDigitOrSeparator = [] :=
    List.dropWhile_eq_nil_iff.2 fun c hc => h c ((List.dropWhile_suffix _).subset hc)
  rw [relocate, hrest]
  simp

/-- **What has been relocated stays where it is**, also when it is relocated the other way. -/
theorem relocate_relocate (placement placement' : DigitPlacement) (s : List Char) :
    relocate placement' (relocate placement s) = relocate placement s := by
  rcases relocate_spec s with ⟨hsame, -⟩ | ⟨c, front, d, back, hc, -, hmoves, -, -, -⟩
  · rw [hsame placement, hsame placement']
  · rw [hmoves placement, List.append_assoc, List.cons_append]
    exact relocate_of_head hc placement' _

-- ── Casing again ──

theorem separator_notMem_camel (s : List Char) : '_' ∉ camel s := by
  intro hmem
  have hlower := List.mem_map_of_mem (f := Char.toLower) hmem
  rw [map_toLower_camel] at hlower
  obtain ⟨c, hc, hseparator⟩ := List.mem_map.1 hlower
  have hne := (List.mem_filter.1 hc).2
  rw [toLower_eq_separator.1 hseparator] at hne
  cases hne

theorem camel_camel (s : List Char) : camel (camel s) = camel s := by
  by_cases hne : camel s = []
  · rw [hne]
    rfl
  · have hhead := head?_camel s
    obtain ⟨c, rest, hcons⟩ := List.exists_cons_of_ne_nil hne
    rw [hcons, List.head?_cons] at hhead
    obtain ⟨d, -, rfl⟩ := Option.map_eq_some_iff.1 hhead.symm
    rw [camel, words_of_notMem hne (separator_notMem_camel s), hcons]
    simp [capitalize]

theorem map_intercalate (parts : List (List Char)) :
    (['_'].intercalate parts).map Char.toLower = ['_'].intercalate (parts.map (·.map Char.toLower)) := by
  induction parts with
  | nil => rfl
  | cons part rest ih =>
      cases rest with
      | nil => simp
      | cons next others =>
          rw [List.map_cons, List.map_cons, List.intercalate_cons_cons, List.intercalate_cons_cons,
            ← List.map_cons, ← ih, List.map_append, List.map_append]
          rfl

theorem snake_snake (s : List Char) : snake (snake s) = snake s := by
  have hwords : words (snake s) = (words s).map (·.map Char.toLower) := by
    rw [snake, map_intercalate]
    refine words_intercalate fun part hpart => ?_
    obtain ⟨word, hword, rfl⟩ := List.mem_map.1 hpart
    obtain ⟨hne, hnone⟩ := word_spec hword
    refine ⟨fun hnil => hne (List.map_eq_nil_iff.1 hnil), fun hmem => ?_⟩
    obtain ⟨c, hc, hseparator⟩ := List.mem_map.1 hmem
    exact hnone (toLower_eq_separator.1 hseparator ▸ hc)
  rw [snake, hwords, ← map_intercalate, ← snake]
  simp [snake]

-- ── Names again ──

theorem isAlpha_of_toLower_eq {c d : Char} (h : c.toLower = d.toLower) : c.isAlpha = d.isAlpha := by
  rw [← Char.isAlpha_toLower_eq_isAlpha c, h, Char.isAlpha_toLower_eq_isAlpha]

theorem clean_of_isWordChar {s : List Char} (h : ∀ c ∈ s, isWordChar c = true) : clean s = s := by
  rw [clean]
  refine (List.map_congr_left fun c hc => ?_).trans (List.map_id s)
  rw [if_pos (h c hc), id]

section Settled

variable {id : String} {t : List Char}
  (hletters : (t.filter (· != '_')).map Char.toLower = (rotated id).map Char.toLower)

include hletters

/-- What is no separator in the text is a letter or a digit of the id, up to letter case. -/
theorem exists_rotated {c : Char} (hc : c ∈ t) (hne : c ≠ '_') :
    ∃ d ∈ rotated id, c.toLower = d.toLower := by
  have hkept : c ∈ t.filter (· != '_') := List.mem_filter.2 ⟨hc, by simpa using hne⟩
  have hlower := List.mem_map_of_mem (f := Char.toLower) hkept
  rw [hletters] at hlower
  obtain ⟨d, hd, hsame⟩ := List.mem_map.1 hlower
  exact ⟨d, hd, hsame.symm⟩

theorem isAlphanum_of_rotated {c : Char} (hc : c ∈ t) (hne : c ≠ '_') : c.isAlphanum = true := by
  obtain ⟨d, hd, hsame⟩ := exists_rotated hletters hc hne
  rw [isAlphanum_of_toLower_eq hsame, (mem_rotated.1 hd).2]

theorem clean_of_rotated : clean t = t := by
  refine clean_of_isWordChar fun c hc => ?_
  by_cases hne : c = '_'
  · rw [hne]
    rfl
  · rw [isWordChar_of_ne hne, isAlphanum_of_rotated hletters hc hne]

/-- Without a letter in the id there are only digits and separators. -/
theorem isDigitOrSeparator_of_rotated (hnone : hasLetter id = false) :
    ∀ c ∈ t, isDigitOrSeparator c = true := by
  intro c hc
  by_cases hne : c = '_'
  · rw [hne]
    rfl
  · have halphanum := isAlphanum_of_rotated hletters hc hne
    obtain ⟨d, hd, hsame⟩ := exists_rotated hletters hc hne
    have hletter : c.isAlpha = false := by
      rw [isAlpha_of_toLower_eq hsame, Bool.eq_false_iff]
      intro hyes
      have hany : hasLetter id = true := List.any_eq_true.2 ⟨d, (mem_rotated.1 hd).1, hyes⟩
      rw [hnone] at hany
      cases hany
    rw [Char.isAlphanum, hletter, Bool.false_or] at halphanum
    rw [isDigitOrSeparator, halphanum, Bool.true_or]

/-- With a letter in the id there is a letter in front. -/
theorem isAlpha_of_rotated {c : Char} {rest : List Char} (ht : t = c :: rest) (hne : c ≠ '_')
    (hletter : hasLetter id = true) : c.isAlpha = true := by
  have hfirst := head?_rotated id
  rw [hletter] at hfirst
  rw [ht, List.filter_cons_of_pos (by simpa using hne), List.map_cons] at hletters
  cases hrotated : rotated id with
  | nil =>
      rw [hrotated] at hfirst
      cases hfirst
  | cons d others =>
      rw [hrotated, List.map_cons] at hletters
      rw [hrotated, List.head?_cons, Option.any_some] at hfirst
      rw [isAlpha_of_toLower_eq (List.cons.inj hletters).1, hfirst]

/-- **There is nothing to do** in a text with the letters and digits of a name, unless it begins with a
    separator. -/
theorem settled (hhead : t.head? ≠ some '_') (placement : DigitPlacement) :
    relocate placement (clean t) = t := by
  rw [clean_of_rotated hletters]
  cases hletter : hasLetter id with
  | false => exact relocate_of_run (isDigitOrSeparator_of_rotated hletters hletter) placement
  | true =>
      cases ht : t with
      | nil => rfl
      | cons c rest =>
          have hne : c ≠ '_' := fun heq => hhead (ht ▸ congrArg some heq)
          have halpha := isAlpha_of_rotated hletters ht hne hletter
          refine relocate_of_head ?_ placement rest
          rw [isDigitOrSeparator, isDigit_eq_false_of_isAlpha halpha, beq_false_of_ne hne,
            Bool.or_false]

end Settled

theorem map_toLower_map_toLower (s : List Char) :
    (s.map Char.toLower).map Char.toLower = s.map Char.toLower := by
  simp

theorem typeName_typeName (id : String) : typeName (typeName id) = typeName id := by
  have hnone : '_' ∉ (typeName id).toList := by
    rw [typeName, String.toList_ofList]
    exact separator_notMem_camel _
  have hletters : ((typeName id).toList.filter (· != '_')).map Char.toLower =
      (rotated id).map Char.toLower := by
    have hkept : (typeName id).toList.filter (· != '_') = (typeName id).toList := by
      rw [List.filter_eq_self]
      intro c hc
      show (c != '_') = true
      rw [bne_iff_ne]
      rintro rfl
      exact hnone hc
    rw [hkept, map_toLower_typeName]
  rw [typeName, settled hletters fun heq => hnone (List.mem_of_head? heq)]
  rw [typeName, String.toList_ofList, camel_camel]

theorem snakeName_snakeName (placement : DigitPlacement) (id : String) :
    snakeName placement (snakeName placement id) = snakeName placement id := by
  have hletters : ((snakeName placement id).toList.filter (· != '_')).map Char.toLower =
      (rotated id).map Char.toLower := by
    rw [snakeName_rotated, map_toLower_map_toLower]
  rw [snakeName, settled hletters (isSpaced_snakeName placement id).head]
  rw [snakeName, String.toList_ofList, snake_snake]

theorem constructorName_constructorName (id : String) :
    constructorName (constructorName id) = constructorName id :=
  snakeName_snakeName .abutting id

theorem moduleName_moduleName (id : String) : moduleName (moduleName id) = moduleName id :=
  snakeName_snakeName .separated id

/-- **NAMES ARE THEIR OWN NAMES.**  For every id, the type name of its type name is that type name, and
    so it is with constructor names and module names.  Relocating any text a second time, in the same
    placement or the other one, leaves it as it is. -/
theorem names_idempotent :
    (∀ id : String, typeName (typeName id) = typeName id ∧
      constructorName (constructorName id) = constructorName id ∧
      moduleName (moduleName id) = moduleName id) ∧
    ∀ (placement placement' : DigitPlacement) (s : List Char),
      relocate placement' (relocate placement s) = relocate placement s :=
  ⟨fun id => ⟨typeName_typeName id, constructorName_constructorName id, moduleName_moduleName id⟩,
    relocate_relocate⟩

end ModelCatalog.Identifier
