import ModelCatalog.Proofs.Names.Words

/-! # Constructor names in snake case

    Canonical snake case is words of small letters and digits with single separators between them,
    and a letter in front (`IsSnakeCase`).  What is joined from words that are not empty is spaced so
    (`isSpaced_intercalate`), and a plain id has its constructor name from such words.  In a folder
    the two parts are joined whether or not there are words in them.  A folder without words leaves
    a separator in front, which no identifier begins with; a base without words leaves one at the
    end, which an identifier may have (`constructorName_trailing`).  The headline is
    `isSnakeCase_constructorName`. -/

namespace ModelCatalog

namespace Identifier

-- ── Single separators ──

/-- Separators stand one by one, and only between other characters. -/
structure IsSpaced (s : List Char) : Prop where
  head : s.head? ≠ some '_'
  last : s.getLast? ≠ some '_'
  single : s.IsChain fun c d => ¬ (c = '_' ∧ d = '_')

theorem isSpaced_of_notMem {s : List Char} (h : '_' ∉ s) : IsSpaced s where
  head heq := h (List.mem_of_head? heq)
  last heq := h (List.mem_of_getLast? heq)
  single := List.Pairwise.isChain (List.pairwise_of_forall_mem_list fun _ hc _ _ hboth =>
    h (hboth.1 ▸ hc))

theorem IsSpaced.join {s t : List Char} (hs : IsSpaced s) (ht : IsSpaced t) (hne : s ≠ [])
    (hne' : t ≠ []) : IsSpaced (s ++ '_' :: t) where
  head := by
    rw [List.head?_append_of_ne_nil s hne]
    exact hs.head
  last := by
    rw [List.getLast?_append_of_ne_nil s (List.cons_ne_nil _ _), List.getLast?_cons_of_ne_nil hne']
    exact ht.last
  single := by
    refine hs.single.append (List.isChain_cons.2 ⟨fun d hd hboth => ?_, ht.single⟩) ?_
    · exact ht.head (hboth.2 ▸ hd)
    · intro c hc _ _ hboth
      exact hs.last (hboth.1 ▸ hc)

/-- **Words joined by separators are spaced**, if none is empty. -/
theorem isSpaced_intercalate {parts : List (List Char)}
    (h : ∀ part ∈ parts, part ≠ [] ∧ '_' ∉ part) : IsSpaced (['_'].intercalate parts) := by
  induction parts with
  | nil => exact isSpaced_of_notMem List.not_mem_nil
  | cons part rest ih =>
      obtain ⟨⟨hne, hpart⟩, hrest⟩ := List.forall_mem_cons.1 h
      cases rest with
      | nil =>
          rw [List.intercalate_singleton]
          exact isSpaced_of_notMem hpart
      | cons next others =>
          have hnext : ['_'].intercalate (next :: others) ≠ [] := by
            obtain ⟨c, cs, rfl⟩ := List.exists_cons_of_ne_nil (hrest next List.mem_cons_self).1
            cases others <;> simp [List.intercalate_cons_cons]
          rw [List.intercalate_cons_cons, List.append_assoc]
          exact (isSpaced_of_notMem hpart).join (ih hrest) hne hnext

theorem IsSpaced.map_toLower {s : List Char} (h : IsSpaced s) : IsSpaced (s.map Char.toLower) where
  head heq := by
    rw [List.head?_map, Option.map_eq_some_iff] at heq
    obtain ⟨c, hc, hlower⟩ := heq
    exact h.head (hc.trans (congrArg some (toLower_eq_separator.1 hlower)))
  last heq := by
    rw [List.getLast?_map, Option.map_eq_some_iff] at heq
    obtain ⟨c, hc, hlower⟩ := heq
    exact h.last (hc.trans (congrArg some (toLower_eq_separator.1 hlower)))
  single := (List.isChain_map _).2 <| h.single.imp fun c d hsingle hboth =>
    hsingle ⟨toLower_eq_separator.1 hboth.1, toLower_eq_separator.1 hboth.2⟩

theorem isSpaced_snake (s : List Char) : IsSpaced (snake s) :=
  (isSpaced_intercalate fun _ => word_spec).map_toLower

theorem isSpaced_snakeName (placement : DigitPlacement) (id : String) :
    IsSpaced (snakeName placement id).toList := by
  rw [snakeName, String.toList_ofList]
  exact isSpaced_snake _

-- ── Snake case ──

/-- Canonical snake case. -/
structure IsSnakeCase (name : String) : Prop where
  /-- A small letter stands in front. -/
  first : name.toList.head?.any Char.isLower = true
  chars : ∀ c ∈ name.toList, c.isLower = true ∨ c.isDigit = true ∨ c = '_'
  last : name.toList.getLast? ≠ some '_'
  /-- No two separators stand side by side. -/
  single : ¬ ['_', '_'] <:+: name.toList

/-- There are no capital letters in a name in snake case. -/
theorem isLower_of_mem_snakeName (placement : DigitPlacement) (id : String) {c : Char}
    (h : c ∈ (snakeName placement id).toList) :
    c.isLower = true ∨ c.isDigit = true ∨ c = '_' := by
  have hword := isWordChar_of_mem_snakeName placement id h
  rw [snakeName, String.toList_ofList, snake] at h
  obtain ⟨d, -, rfl⟩ := List.mem_map.1 h
  rw [isWordChar, Char.isAlphanum, Char.isAlpha_toLower_eq_isAlpha, Bool.or_eq_true,
    Bool.or_eq_true, or_assoc, beq_iff_eq] at hword
  rwa [Char.isLower_toLower_eq_isAlpha]

/-- Spaced text of small letters and digits is snake case if it has the shape of an identifier. -/
theorem isSnakeCase_of_isSpaced {name : String} (hshaped : isShaped name.toList = true)
    (hchars : ∀ c ∈ name.toList, c.isLower = true ∨ c.isDigit = true ∨ c = '_')
    (h : IsSpaced name.toList) : IsSnakeCase name where
  first := by
    cases hname : name.toList with
    | nil =>
        rw [hname] at hshaped
        cases hshaped
    | cons c rest =>
        rw [hname, isShaped, Bool.and_eq_true] at hshaped
        have hc := hchars c (hname ▸ List.mem_cons_self)
        rw [isDigit_eq_false_of_isAlpha hshaped.1] at hc
        rcases hc with hlower | hdigit | hseparator
        · exact hlower
        · cases hdigit
        · rw [hseparator] at hshaped
          exact absurd hshaped.1 (by decide)
  chars := hchars
  last := h.last
  single := by
    rintro ⟨before, after, hname⟩
    have hpair := hname ▸ h.single
    exact (List.isChain_cons_cons.1 hpair.left_of_append.right_of_append).1 ⟨rfl, rfl⟩

end Identifier

namespace ModelId

open Identifier

/-- No base without letters and digits has a constructor name of its own, so the one of a folder is
    left with the separator that was to come between. -/
theorem constructorName_trailing {folder base : String} (h : hasLetterOrDigit base = false) :
    constructorName ⟨some folder, base⟩ = Identifier.constructorName folder ++ "_" := by
  rw [← String.toList_inj, toList_constructorName, constructorName_eq_nil.2 h, String.toList_append]
  rfl

/-- A folder whose models can have names has a name in snake case itself. -/
theorem isSnakeCase_of_hasLetter {folder : String} (h : hasLetter folder = true) :
    IsSnakeCase (Identifier.constructorName folder) :=
  isSnakeCase_of_isSpaced ((isShaped_snakeName .abutting folder).trans h)
    (fun _ => isLower_of_mem_snakeName .abutting folder) (isSpaced_snakeName .abutting folder)

/-- A name with a folder is spaced, and so in snake case, if the base has a name of its own. -/
theorem isSnakeCase_of_folder {folder base : String} (hfolder : hasLetter folder = true)
    (hbase : hasLetterOrDigit base = true)
    (hvalid : Identifier.isValid (constructorName ⟨some folder, base⟩) = true) :
    IsSnakeCase (constructorName ⟨some folder, base⟩) := by
  have hne : (Identifier.constructorName folder).toList ≠ [] := fun hnil =>
    absurd (hnil ▸ (isSnakeCase_of_hasLetter hfolder).first) (by decide)
  have hne' : (Identifier.constructorName base).toList ≠ [] := by
    rw [Ne, constructorName_eq_nil, hbase]
    decide
  refine isSnakeCase_of_isSpaced (isValid_eq_true.1 hvalid).1 (fun c hc => ?_) ?_
  · rw [toList_constructorName, List.mem_append, List.mem_cons] at hc
    rcases hc with hc | hc | hc
    · exact isLower_of_mem_snakeName .abutting folder hc
    · exact .inr (.inr hc)
    · exact isLower_of_mem_snakeName .abutting base hc
  · rw [toList_constructorName]
    exact (isSpaced_snakeName .abutting folder).join (isSpaced_snakeName .abutting base) hne hne'

/-- **WHICH CONSTRUCTOR NAMES ARE IN SNAKE CASE.**  Whenever a model has names, its constructor name is
    in canonical snake case, unless the model lies in a folder and its base has no letter and no
    digit.  Then the name is that of the folder, which is in snake case, with a separator behind it. -/
theorem isSnakeCase_constructorName (id : ModelId) (names : ModelNames)
    (h : id.names = .ok names) :
    (IsSnakeCase names.constructorName ↔ id.folder? = none ∨ hasLetterOrDigit id.base = true) ∧
    ∀ folder, id.folder? = some folder → hasLetterOrDigit id.base = false →
      names.constructorName = Identifier.constructorName folder ++ "_" ∧
        IsSnakeCase (Identifier.constructorName folder) := by
  obtain ⟨folder?, base⟩ := id
  cases folder? with
  | none =>
      have hletter := ((names_eq_ok_iff_plain base).1 ⟨names, h⟩).1
      obtain ⟨-, -, rfl⟩ := names_eq_ok.1 h
      exact ⟨iff_of_true (isSnakeCase_of_hasLetter hletter) (.inl rfl), fun _ hnone => nomatch hnone⟩
  | some folder =>
      have hfolder := ((names_eq_ok_iff_folder folder base).1 ⟨names, h⟩).1
      obtain ⟨-, hvalid, rfl⟩ := names_eq_ok.1 h
      refine ⟨⟨fun hsnake => ?_, ?_⟩, ?_⟩
      · by_contra hbase
        refine hsnake.last ?_
        have hnone : hasLetterOrDigit base = false :=
          Bool.eq_false_iff.2 fun hsome => hbase (.inr hsome)
        rw [constructorName_trailing hnone, String.toList_append]
        exact List.getLast?_concat
      · rintro (hplain | hbase)
        · cases hplain
        · exact isSnakeCase_of_folder hfolder hbase hvalid
      · intro _ hsome hbase
        obtain rfl := Option.some.inj hsome
        exact ⟨constructorName_trailing hbase, isSnakeCase_of_hasLetter hfolder⟩

/-- A plain id, and a folder with two bases, one of words and one of separators. -/
theorem isSnakeCase_constructorName_bases :
    (⟨none, "3.5-Sonnet"⟩ : ModelId).names = .ok ⟨"Sonnet35", "sonnet3_5"⟩ ∧
      IsSnakeCase "sonnet3_5" ∧
      (⟨some "01-ai", "Llama--3.1()"⟩ : ModelId).names = .ok ⟨"Ai01Llama31", "ai01_llama_3_1"⟩ ∧
      IsSnakeCase "ai01_llama_3_1" ∧
      (⟨some "01-ai", "--"⟩ : ModelId).names = .ok ⟨"Ai01", "ai01_"⟩ ∧
      ¬ IsSnakeCase "ai01_" ∧ IsSnakeCase (Identifier.constructorName "01-ai") := by
  have hplain : (⟨none, "3.5-Sonnet"⟩ : ModelId).names = .ok ⟨"Sonnet35", "sonnet3_5"⟩ := by decide
  have hwords : (⟨some "01-ai", "Llama--3.1()"⟩ : ModelId).names =
      .ok ⟨"Ai01Llama31", "ai01_llama_3_1"⟩ := by decide
  have hbare : (⟨some "01-ai", "--"⟩ : ModelId).names = .ok ⟨"Ai01", "ai01_"⟩ := by decide
  have hsnake := (isSnakeCase_constructorName _ _ hplain).1.2 (.inl rfl)
  have hsnake' := (isSnakeCase_constructorName _ _ hwords).1.2 (.inr (by decide))
  obtain ⟨hiff, htrailing⟩ := isSnakeCase_constructorName _ _ hbare
  refine ⟨hplain, hsnake, hwords, hsnake', hbare, fun h => ?_, (htrailing _ rfl (by decide)).2⟩
  rcases hiff.1 h with hnone | hword
  · cases hnone
  · exact absurd hword (by decide)

/-- A name that is accepted can end in a separator. -/
theorem constructorName_not_isSnakeCase :
    ¬ ∀ (id : ModelId) (names : ModelNames), id.names = .ok names →
      IsSnakeCase names.constructorName := by
  intro hall
  have hnames : (⟨some "meta", "--"⟩ : ModelId).names = .ok ⟨"Meta", "meta_"⟩ := by decide
  exact (hall _ _ hnames).last (by decide)

end ModelId

end ModelCatalog
