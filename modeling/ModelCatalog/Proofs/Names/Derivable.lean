import Mathlib
import ModelCatalog.Proofs.Names.LettersAndDigits

/-! # Which ids have names

    An id has names if both are identifiers.  A name has the shape of an identifier as soon as there
    is a letter for it to begin with: digits never come first then, and the other characters are
    letters, digits and separators (`isShaped_typeName`, `isShaped_snakeName`).  Keywords are what is
    left to exclude.  No type name is one but `Self`, as all the others begin in lower case, and then
    the constructor name is one, too (`constructorName_of_self`); behind a folder, only a base without
    letters and digits leaves `Self` what it is.  The headline is `names_eq_ok_iff`. -/

namespace ModelCatalog

namespace Identifier

def hasLetter (s : String) : Bool := s.toList.any Char.isAlpha

def hasLetterOrDigit (s : String) : Bool := s.toList.any Char.isAlphanum

-- ── Characters ──

theorem isDigit_eq_false_of_isAlpha {c : Char} (h : c.isAlpha = true) : c.isDigit = false := by
  rw [Bool.eq_false_iff]
  intro hdigit
  simp only [Char.isAlpha, Char.isUpper, Char.isLower, Char.isDigit, Bool.or_eq_true,
    Bool.and_eq_true, decide_eq_true_eq, ge_iff_le, UInt32.le_iff_toNat_le] at h hdigit
  change (65 ≤ c.toNat ∧ c.toNat ≤ 90) ∨ (97 ≤ c.toNat ∧ c.toNat ≤ 122) at h
  change 48 ≤ c.toNat ∧ c.toNat ≤ 57 at hdigit
  omega

theorem isAlphanum_toLower (c : Char) : c.toLower.isAlphanum = c.isAlphanum := by
  by_cases hupper : c.isUpper = true
  · have halpha : c.isAlpha = true := by rw [Char.isAlpha, hupper, Bool.true_or]
    rw [Char.isAlphanum, Char.isAlphanum, Char.isAlpha_toLower_eq_isAlpha, halpha, Bool.true_or,
      Bool.true_or]
  · rw [Char.toLower_eq_of_not_isUpper hupper]

/-- The letter case of a character is nothing that decides whether it can be in a name. -/
theorem isAlphanum_of_toLower_eq {c d : Char} (h : c.toLower = d.toLower) :
    c.isAlphanum = d.isAlphanum := by
  rw [← isAlphanum_toLower c, h, isAlphanum_toLower]

-- ── Where names begin ──

theorem exists_cons_of_mem_words {s word : List Char} (h : word ∈ words s) :
    ∃ c rest, word = c :: rest := by
  have hne := (List.mem_filter.1 h).2
  cases word with
  | nil => exact nomatch hne
  | cons c rest => exact ⟨c, rest, rfl⟩

/-- Camel case begins with a capital letter, if it begins with a letter. -/
theorem head?_camel (s : List Char) :
    (camel s).head? = (s.filter (· != '_')).head?.map Char.toUpper := by
  rw [← flatten_words, camel]
  cases hwords : words s with
  | nil => rfl
  | cons word others =>
      obtain ⟨c, rest, rfl⟩ := exists_cons_of_mem_words (hwords ▸ List.mem_cons_self)
      rfl

/-- Snake case begins with a small letter, if it begins with a letter. -/
theorem head?_snake (s : List Char) :
    (snake s).head? = (s.filter (· != '_')).head?.map Char.toLower := by
  rw [← flatten_words, snake]
  cases hwords : words s with
  | nil => rfl
  | cons word others =>
      obtain ⟨c, rest, rfl⟩ := exists_cons_of_mem_words (hwords ▸ List.mem_cons_self)
      cases others with
      | nil => simp
      | cons next others => simp [List.intercalate_cons_cons]

theorem head?_typeName (id : String) :
    (typeName id).toList.head? = (rotated id).head?.map Char.toUpper := by
  rw [typeName, String.toList_ofList, head?_camel, filter_relocate_clean]

theorem head?_snakeName (placement : DigitPlacement) (id : String) :
    (snakeName placement id).toList.head? = (rotated id).head?.map Char.toLower := by
  rw [snakeName, String.toList_ofList, head?_snake, filter_relocate_clean]

theorem mem_rotated {id : String} {c : Char} :
    c ∈ rotated id ↔ c ∈ id.toList ∧ c.isAlphanum = true := by
  rw [rotated, rotate, List.mem_append, or_comm, ← List.mem_append,
    List.takeWhile_append_dropWhile, lettersAndDigits, List.mem_filter]

/-- A letter stands in front, if there is one. -/
theorem head?_rotated (id : String) : (rotated id).head?.any Char.isAlpha = hasLetter id := by
  have hfirst := List.head?_dropWhile_not Char.isDigit (lettersAndDigits id.toList)
  rw [hasLetter, Bool.eq_iff_iff, List.any_eq_true]
  cases hrest : (lettersAndDigits id.toList).dropWhile Char.isDigit with
  | nil =>
      -- there are digits only
      have hdigits := List.dropWhile_eq_nil_iff.1 hrest
      have hnone : ∀ c ∈ id.toList, ¬ c.isAlpha = true := by
        intro c hc halpha
        have hdigit := hdigits c (List.mem_filter.2 ⟨hc, by rw [Char.isAlphanum, halpha]; rfl⟩)
        rw [isDigit_eq_false_of_isAlpha halpha] at hdigit
        cases hdigit
      refine iff_of_false (fun hany => ?_) fun hsome => ?_
      · obtain ⟨c, hc, halpha⟩ := (Option.any_eq_true _ _).1 hany
        exact hnone c (mem_rotated.1 (List.mem_of_head? hc)).1 halpha
      · obtain ⟨c, hc, halpha⟩ := hsome
        exact hnone c hc halpha
  | cons c rest =>
      have hmem : c ∈ rotated id := by
        rw [rotated, rotate, hrest]
        exact List.mem_append_left _ List.mem_cons_self
      rw [hrest] at hfirst
      have halpha : c.isAlpha = true := by
        have hchar := (mem_rotated.1 hmem).2
        rwa [Char.isAlphanum, show c.isDigit = false from hfirst, Bool.or_false] at hchar
      rw [rotated, rotate, hrest]
      exact iff_of_true halpha ⟨c, (mem_rotated.1 hmem).1, halpha⟩

-- ── Shapes ──

theorem isShaped_eq {s : List Char} (h : ∀ c ∈ s, isWordChar c = true) :
    isShaped s = s.head?.any Char.isAlpha := by
  cases s with
  | nil => rfl
  | cons c rest =>
      have hrest : rest.all isWordChar = true :=
        List.all_eq_true.2 fun d hd => h d (List.mem_cons_of_mem _ hd)
      rw [isShaped, hrest, Bool.and_true]
      rfl

theorem isAlphanum_of_mem_typeName {id : String} {c : Char} (h : c ∈ (typeName id).toList) :
    c.isAlphanum = true := by
  have hlower := List.mem_map_of_mem (f := Char.toLower) h
  rw [map_toLower_typeName] at hlower
  obtain ⟨d, hd, hsame⟩ := List.mem_map.1 hlower
  rw [← isAlphanum_of_toLower_eq hsame, (mem_rotated.1 hd).2]

theorem isWordChar_of_mem_typeName {id : String} {c : Char} (h : c ∈ (typeName id).toList) :
    isWordChar c = true := by
  rw [isWordChar, isAlphanum_of_mem_typeName h, Bool.true_or]

theorem isWordChar_of_mem_snakeName (placement : DigitPlacement) (id : String) {c : Char}
    (h : c ∈ (snakeName placement id).toList) : isWordChar c = true := by
  by_cases hc : c = '_'
  · rw [hc]
    rfl
  · have hkept : c ∈ (snakeName placement id).toList.filter (· != '_') :=
      List.mem_filter.2 ⟨h, by simpa using hc⟩
    rw [snakeName_rotated] at hkept
    obtain ⟨d, hd, hsame⟩ := List.mem_map.1 hkept
    rw [isWordChar, ← hsame, isAlphanum_toLower, (mem_rotated.1 hd).2, Bool.true_or]

/-- A type name has the shape of an identifier if there is a letter. -/
theorem isShaped_typeName (id : String) : isShaped (typeName id).toList = hasLetter id := by
  rw [isShaped_eq fun _ => isWordChar_of_mem_typeName, head?_typeName, ← head?_rotated]
  cases (rotated id).head? with
  | none => rfl
  | some c => exact Char.isAlpha_toUpper_eq_isAlpha c

theorem isAlpha_snakeName (placement : DigitPlacement) (id : String) :
    (snakeName placement id).toList.head?.any Char.isAlpha = hasLetter id := by
  rw [head?_snakeName, ← head?_rotated]
  cases (rotated id).head? with
  | none => rfl
  | some c => exact Char.isAlpha_toLower_eq_isAlpha c

/-- A name in snake case has the shape of an identifier if there is a letter. -/
theorem isShaped_snakeName (placement : DigitPlacement) (id : String) :
    isShaped (snakeName placement id).toList = hasLetter id := by
  rw [isShaped_eq fun _ => isWordChar_of_mem_snakeName placement id, isAlpha_snakeName]

/-- What stands behind an identifier leaves the shape to it. -/
theorem isShaped_append {s t : List Char} (hs : s ≠ []) (ht : ∀ c ∈ t, isWordChar c = true) :
    isShaped (s ++ t) = isShaped s := by
  cases s with
  | nil => exact absurd rfl hs
  | cons c rest =>
      rw [List.cons_append, isShaped, isShaped, List.all_append, List.all_eq_true.2 ht,
        Bool.and_true]

-- ── Keywords ──

theorem separator_notMem_keyword : ∀ k ∈ keywords, '_' ∉ k.toList := by decide

/-- Only one keyword begins with a capital letter. -/
theorem eq_self_of_isUpper : ∀ k ∈ keywords, k.toList.head?.any Char.isUpper = true → k = "Self" := by
  decide

theorem mem_keywords_of_isUpper {name : String} (h : name.toList.head?.any Char.isUpper = true) :
    name ∈ keywords ↔ name = "Self" := by
  refine ⟨fun hkeyword => eq_self_of_isUpper name hkeyword h, ?_⟩
  rintro rfl
  decide

theorem isValid_eq_true {name : String} :
    isValid name = true ↔ isShaped name.toList = true ∧ name ∉ keywords := by
  rw [isValid, Bool.and_eq_true, Bool.not_eq_true', List.contains_eq_mem, decide_eq_false_iff_not]

/-- Small letters behind the first one are all of one word. -/
theorem snake_of_isLower_tail {s : List Char} (h : ∀ c ∈ (camel s).tail, c.isLower = true) :
    snake s = (camel s).map Char.toLower := by
  rw [camel] at h
  rw [snake, camel]
  cases hwords : words s with
  | nil => rfl
  | cons word others =>
      have hword : word ∈ words s := hwords ▸ List.mem_cons_self
      cases others with
      | nil => simp [map_toLower_capitalize]
      | cons next others =>
          have hnext : next ∈ words s := hwords ▸ List.mem_cons_of_mem _ List.mem_cons_self
          obtain ⟨c, rest, rfl⟩ := exists_cons_of_mem_words hword
          obtain ⟨d, rest', rfl⟩ := exists_cons_of_mem_words hnext
          have hlower := h d.toUpper (by simp [hwords, capitalize])
          rw [Char.isLower_toUpper_eq_false] at hlower
          cases hlower

/-- **A type that would be called `Self`** has a constructor that would be called `self`. -/
theorem constructorName_of_self {id : String} (h : typeName id = "Self") :
    constructorName id = "self" := by
  rw [typeName, ← String.toList_inj, String.toList_ofList] at h
  have hcamel : camel (relocate .abutting (clean id.toList)) = ['S', 'e', 'l', 'f'] := h
  rw [constructorName, snake_of_isLower_tail (by simp [hcamel]), hcamel]
  rfl

/-- **A type name begins with a capital letter** if there is a letter in its id. -/
theorem isUpper_typeName (id : String) :
    (typeName id).toList.head?.any Char.isUpper = hasLetter id := by
  rw [head?_typeName, ← head?_rotated]
  cases (rotated id).head? with
  | none => rfl
  | some c => exact Char.isUpper_toUpper_eq_isAlpha c

/-- The type name of a plain id is a keyword only if its constructor name is one. -/
theorem typeName_notMem_keywords {id : String} (hletter : hasLetter id = true)
    (h : constructorName id ∉ keywords) : typeName id ∉ keywords := by
  rw [mem_keywords_of_isUpper ((isUpper_typeName id).trans hletter)]
  intro hself
  rw [constructorName_of_self hself] at h
  exact h (by decide)

theorem typeName_eq_nil {id : String} :
    (typeName id).toList = [] ↔ hasLetterOrDigit id = false := by
  rw [← List.head?_eq_none_iff, head?_typeName, Option.map_eq_none_iff, List.head?_eq_none_iff,
    List.eq_nil_iff_forall_not_mem, hasLetterOrDigit, List.any_eq_false]
  simp only [mem_rotated, not_and]

theorem snakeName_eq_nil {placement : DigitPlacement} {id : String} :
    (snakeName placement id).toList = [] ↔ hasLetterOrDigit id = false := by
  rw [← typeName_eq_nil, ← List.head?_eq_none_iff, ← List.head?_eq_none_iff, head?_typeName,
    head?_snakeName, Option.map_eq_none_iff, Option.map_eq_none_iff]

/-- A constructor name is empty just as its type name is. -/
theorem constructorName_eq_nil {id : String} :
    (constructorName id).toList = [] ↔ hasLetterOrDigit id = false :=
  snakeName_eq_nil

/-- Behind a folder, only a base without letters and digits leaves the type name `Self`. -/
theorem typeName_append_eq_self {folder base : String} (hfolder : (typeName folder).toList ≠ []) :
    typeName folder ++ typeName base = "Self" ↔
      typeName folder = "Self" ∧ hasLetterOrDigit base = false := by
  rw [← typeName_eq_nil]
  constructor
  · intro h
    have hself : (typeName folder).toList ++ (typeName base).toList = ['S', 'e', 'l', 'f'] := by
      rw [← String.toList_append, h]
      rfl
    have hbase : (typeName base).toList = [] := by
      rw [← List.head?_eq_none_iff, head?_typeName]
      cases hhead : (rotated base).head? with
      | none => rfl
      | some c =>
          -- the base would begin with a small letter
          obtain ⟨a, rest, hcons⟩ := List.exists_cons_of_ne_nil hfolder
          have hmem : c.toUpper ∈ (typeName base).toList :=
            List.mem_of_head? (by rw [head?_typeName, hhead]; rfl)
          rw [hcons, List.cons_append] at hself
          have hlower : c.toUpper ∈ ['e', 'l', 'f'] :=
            (List.cons.inj hself).2 ▸ List.mem_append_right rest hmem
          have hsmall : ∀ d ∈ ['e', 'l', 'f'], d.isLower = true := by simp
          exact absurd (hsmall _ hlower) (by rw [Char.isLower_toUpper_eq_false]; decide)
    rw [hbase, List.append_nil] at hself
    exact ⟨String.toList_inj.1 hself, hbase⟩
  · rintro ⟨hself, hbase⟩
    rw [← String.toList_inj, String.toList_append, hbase, List.append_nil, hself]

end Identifier

namespace ModelId

open Identifier

-- ── Models ──

/-- **Plain ids** need a letter, and a constructor name that is no keyword. -/
theorem names_eq_ok_iff_plain (base : String) :
    (∃ names, (⟨none, base⟩ : ModelId).names = .ok names) ↔
      hasLetter base = true ∧ Identifier.constructorName base ∉ keywords := by
  simp only [names_eq_ok, isValid_eq_true]
  constructor
  · rintro ⟨names, -, ⟨hshaped, hkeyword⟩, -⟩
    exact ⟨(isShaped_snakeName .abutting base).symm.trans hshaped, hkeyword⟩
  · rintro ⟨hletter, hkeyword⟩
    exact ⟨_, ⟨(isShaped_typeName base).trans hletter, typeName_notMem_keywords hletter hkeyword⟩,
      ⟨(isShaped_snakeName .abutting base).trans hletter, hkeyword⟩, rfl⟩

/-- With a folder, no constructor name is a keyword, for it has a separator in it. -/
theorem constructorName_notMem_keywords (folder base : String) :
    constructorName ⟨some folder, base⟩ ∉ keywords := by
  intro hkeyword
  refine separator_notMem_keyword _ hkeyword ?_
  simp [constructorName]

theorem toList_constructorName (folder base : String) :
    (constructorName ⟨some folder, base⟩).toList
      = (Identifier.constructorName folder).toList
        ++ '_' :: (Identifier.constructorName base).toList := by
  simp [constructorName]

/-- With a folder, both names have the shape of an identifier if there is a letter in the folder. -/
theorem isShaped_names (folder base : String) :
    (isShaped (typeName ⟨some folder, base⟩).toList = true ∧
      isShaped (constructorName ⟨some folder, base⟩).toList = true) ↔ hasLetter folder = true := by
  have htype : (typeName ⟨some folder, base⟩).toList
      = (Identifier.typeName folder).toList ++ (Identifier.typeName base).toList :=
    String.toList_append
  have hconstructor : isShaped (Identifier.constructorName folder).toList = hasLetter folder :=
    isShaped_snakeName .abutting folder
  rw [htype, toList_constructorName]
  by_cases hnone : hasLetterOrDigit folder = false
  · -- the constructor name would begin with the separator
    rw [constructorName_eq_nil.2 hnone] at hconstructor ⊢
    rw [← hconstructor]
    simp [isShaped]
  · rw [isShaped_append (mt typeName_eq_nil.1 hnone) fun _ => isWordChar_of_mem_typeName,
      isShaped_append (mt constructorName_eq_nil.1 hnone) fun c hc => ?_, isShaped_typeName,
      hconstructor, and_self]
    rcases List.mem_cons.1 hc with rfl | hc
    · rfl
    · exact isWordChar_of_mem_snakeName .abutting base hc

/-- With a folder, the type name is a keyword only if it is that of the folder. -/
theorem typeName_mem_keywords_iff {folder : String} (hletter : hasLetter folder = true)
    (base : String) : typeName ⟨some folder, base⟩ ∈ keywords ↔
      Identifier.typeName folder = "Self" ∧ hasLetterOrDigit base = false := by
  have hupper := (isUpper_typeName folder).trans hletter
  have hne : (Identifier.typeName folder).toList ≠ [] := by
    intro hnil
    rw [hnil] at hupper
    cases hupper
  rw [← typeName_append_eq_self hne]
  refine mem_keywords_of_isUpper ?_
  obtain ⟨c, rest, hcons⟩ := List.exists_cons_of_ne_nil hne
  rw [hcons] at hupper
  rw [typeName, String.toList_append, hcons]
  exact hupper

/-- **Ids in a folder** need a letter in the folder, and a type that is not called `Self`. -/
theorem names_eq_ok_iff_folder (folder base : String) :
    (∃ names, (⟨some folder, base⟩ : ModelId).names = .ok names) ↔
      hasLetter folder = true ∧
        ¬ (Identifier.typeName folder = "Self" ∧ hasLetterOrDigit base = false) := by
  have hshaped := isShaped_names folder base
  simp only [names_eq_ok, isValid_eq_true]
  constructor
  · rintro ⟨names, ⟨htype, hnot⟩, ⟨hconstructor, -⟩, -⟩
    have hletter := hshaped.1 ⟨htype, hconstructor⟩
    exact ⟨hletter, mt (typeName_mem_keywords_iff hletter base).2 hnot⟩
  · rintro ⟨hletter, hnot⟩
    obtain ⟨htype, hconstructor⟩ := hshaped.2 hletter
    exact ⟨_, ⟨htype, mt (typeName_mem_keywords_iff hletter base).1 hnot⟩,
      ⟨hconstructor, constructorName_notMem_keywords folder base⟩, rfl⟩

/-- An id without names is refused for one of the two that it would have. -/
theorem exists_invalidName {id : ModelId} (h : ∀ names, id.names ≠ .ok names) :
    ∃ name ∈ [id.typeName, id.constructorName], id.names = .error (.invalidName name) := by
  rw [names] at h ⊢
  by_cases htype : isValid id.typeName = true
  · by_cases hconstructor : isValid id.constructorName = true
    · rw [if_neg (by simp [htype]), if_neg (by simp [hconstructor])] at h
      exact absurd rfl (h _)
    · rw [if_neg (by simp [htype]), if_pos (by simp [hconstructor])]
      exact ⟨_, List.mem_cons_of_mem _ List.mem_cons_self, rfl⟩
  · rw [if_pos (by simp [htype])]
    exact ⟨_, List.mem_cons_self, rfl⟩

/-- **WHICH IDS HAVE NAMES.**  A plain id has names if there is a letter in it and its constructor name
    is no keyword; an id in a folder, if there is a letter in the folder and the type is not called
    `Self` for want of letters and digits in the base.  Any other id is refused for one of its two
    names, and an entry under it is left out, with the id in the report. -/
theorem names_eq_ok_iff :
    (∀ base, (∃ names, (⟨none, base⟩ : ModelId).names = .ok names) ↔
      hasLetter base = true ∧ Identifier.constructorName base ∉ keywords) ∧
    (∀ folder base, (∃ names, (⟨some folder, base⟩ : ModelId).names = .ok names) ↔
      hasLetter folder = true ∧
        ¬ (Identifier.typeName folder = "Self" ∧ hasLetterOrDigit base = false)) ∧
    ∀ id : ModelId, (∀ names, id.names ≠ .ok names) →
      ∃ name ∈ [id.typeName, id.constructorName], id.names = .error (.invalidName name) ∧
        ∀ (e : Entry) (identity : String), e.isDeprecated = false →
          e.verdict identity id = .skipped ⟨identity, .invalidModelId
            (match id.folder? with
              | none => id.base
              | some folder => folder ++ "/" ++ id.base) (.invalidName name)⟩ := by
  refine ⟨names_eq_ok_iff_plain, names_eq_ok_iff_folder, fun id hnone => ?_⟩
  obtain ⟨name, hname, hnames⟩ := exists_invalidName hnone
  refine ⟨name, hname, hnames, fun e identity hactive => ?_⟩
  have hmodel : e.model id = .error (.invalidName name) := by
    rw [Entry.model, hnames]
    rfl
  rw [Entry.verdict, if_neg (by simp [hactive]), hmodel]
  rfl

/-- Brackets behind the folder `self` leave a type that would be called `Self`. -/
theorem names_eq_ok_iff_self :
    let id : ModelId := ⟨some "self", "()"⟩
    (∀ names, id.names ≠ .ok names) ∧ ({} : Entry).isDeprecated = false ∧
      ∃ name ∈ [id.typeName, id.constructorName],
        ({} : Entry).verdict "models/self/().toml" id = .skipped ⟨"models/self/().toml",
          .invalidModelId "self/()" (.invalidName name)⟩ := by
  intro id
  have hnone : ∀ names, id.names ≠ .ok names := by
    intro names hnames
    exact absurd ((names_eq_ok_iff.2.1 "self" "()").1 ⟨names, hnames⟩).2 (by decide)
  obtain ⟨name, hname, -, hverdict⟩ := names_eq_ok_iff.2.2 id hnone
  exact ⟨hnone, rfl, name, hname, hverdict {} _ rfl⟩

end ModelId

end ModelCatalog
