import ModelCatalog.Proofs.Names.Relocating

/-! # What separators do to names

    An id is made of runs of letters and digits, with separators around them.  Its type name and its
    module name are made of the runs alone, whatever stands between them.  A constructor name depends
    on one thing more: whether the id ends in a separator.  If digits lead, they come to stand behind
    that separator, which keeps them apart from the rest: `302ai` has the constructor name `ai302`,
    and `302ai-` has `ai_302`.  The headline is `names_of_runs`. -/

namespace ModelCatalog.Identifier

-- ── Runs ──

/-- The maximal runs of letters and digits in a text. -/
def runs (s : List Char) : List (List Char) :=
  (s.splitOnP fun c => !c.isAlphanum).filter (!·.isEmpty)

/-- The words of a text that has been cleaned are its runs. -/
theorem words_clean (s : List Char) : words (clean s) = runs s := by
  have hparts : (clean s).splitOn '_' = s.splitOnP fun c => !c.isAlphanum := by
    induction s with
    | nil => rfl
    | cons c rest ih =>
        rw [clean, List.map_cons, ← clean, List.splitOn_cons_eq_if_modifyHead,
          List.splitOnP_cons_eq_if_modifyHead, ih]
        by_cases hc : c = '_'
        · subst hc
          rfl
        · rw [isWordChar_of_ne hc]
          cases c.isAlphanum <;> simp [hc]
  rw [words, hparts, runs]

def endsInSeparator (id : String) : Bool := id.toList.getLast?.any (!·.isAlphanum)

theorem getLast?_clean (s : List Char) :
    (clean s).getLast? = some '_' ↔ s.getLast?.any (!·.isAlphanum) = true := by
  rw [clean, List.getLast?_map]
  cases s.getLast? with
  | none => simp
  | some c =>
      by_cases hc : c = '_'
      · subst hc
        decide
      · cases halphanum : c.isAlphanum <;> simp [isWordChar_of_ne hc, halphanum, hc]

-- ── Casing words ──

/-- Words in snake case. -/
def snakeOf (ws : List (List Char)) : List Char := (['_'].intercalate ws).map Char.toLower

theorem snakeOf_append {ws ws' : List (List Char)} (h : ws ≠ []) (h' : ws' ≠ []) :
    snakeOf (ws ++ ws') = snakeOf ws ++ '_' :: snakeOf ws' := by
  rw [snakeOf, intercalate_append h h', List.map_append, List.map_cons, ← snakeOf, ← snakeOf]
  rfl

/-- A word that digits are put behind is capitalised like the two one by one. -/
theorem capitalize_append {word digits : List Char} {digit : Char} (hword : word ≠ [])
    (hdigit : digit.isDigit = true) :
    capitalize (word ++ digit :: digits) = capitalize word ++ capitalize (digit :: digits) := by
  obtain ⟨c, rest, rfl⟩ := List.exists_cons_of_ne_nil hword
  have hupper : digit.toUpper = digit := by
    refine Char.toUpper_eq_of_not_isLower ?_
    intro hlower
    have halpha : digit.isAlpha = true := by rw [Char.isAlpha, hlower, Bool.or_true]
    rw [isDigit_eq_false_of_isAlpha halpha] at hdigit
    cases hdigit
  show c.toUpper :: (rest ++ digit :: digits) = c.toUpper :: rest ++ digit.toUpper :: digits
  rw [hupper, List.cons_append]

/-- **Camel case** does not show whether the digits abut the rest. -/
theorem camel_relocate (placement : DigitPlacement) (s : List Char) :
    camel (relocate placement s) =
      ((cutDigits (words s)).2 ++ (cutDigits (words s)).1).flatMap capitalize := by
  cases placement with
  | separated => rw [camel, words_relocate_separated]
  | abutting =>
      by_cases happart : DigitsLead (words s) → s.getLast? = some '_'
      · rw [camel, words_relocate_apart happart]
      · rw [Classical.not_imp] at happart
        obtain ⟨before, word, digit, digits, behind, hne, hdigit, hrest, hcut, hwords⟩ :=
          words_relocate_abutting happart.1 happart.2
        rw [camel, hwords, hrest, hcut]
        simp only [List.flatMap_append, List.flatMap_cons, capitalize_append hne hdigit,
          List.flatMap_nil, List.append_nil, List.append_assoc]

theorem snake_relocate_apart {s : List Char} (h : DigitsLead (words s) → s.getLast? = some '_') :
    snake (relocate .abutting s) = snakeOf ((cutDigits (words s)).2 ++ (cutDigits (words s)).1) := by
  rw [snake, words_relocate_apart h, snakeOf]

theorem snake_relocate_abutting {s : List Char} (hlead : DigitsLead (words s))
    (hlast : s.getLast? ≠ some '_') :
    snake (relocate .abutting s) =
      snakeOf (cutDigits (words s)).2 ++ snakeOf (cutDigits (words s)).1 := by
  obtain ⟨before, word, digit, digits, behind, -, -, hrest, hcut, hwords⟩ :=
    words_relocate_abutting hlead hlast
  rw [snake, hwords, intercalate_meet, List.map_append, ← hrest, ← hcut, snakeOf, snakeOf]

-- ── Names ──

theorem typeName_eq (id : String) :
    typeName id = .ofList (((cutDigits (runs id.toList)).2 ++
      (cutDigits (runs id.toList)).1).flatMap capitalize) := by
  rw [typeName, camel_relocate, words_clean]

theorem moduleName_eq (id : String) :
    moduleName id = .ofList (snakeOf ((cutDigits (runs id.toList)).2 ++
      (cutDigits (runs id.toList)).1)) := by
  rw [moduleName, snake, words_relocate_separated, words_clean, snakeOf]

theorem constructorName_eq (id : String) :
    constructorName id = .ofList (
      if DigitsLead (runs id.toList) ∧ endsInSeparator id = false then
        snakeOf (cutDigits (runs id.toList)).2 ++ snakeOf (cutDigits (runs id.toList)).1
      else snakeOf ((cutDigits (runs id.toList)).2 ++ (cutDigits (runs id.toList)).1)) := by
  have hlast := getLast?_clean id.toList
  rw [constructorName, endsInSeparator, ← words_clean]
  split
  · next hmeets =>
    rw [snake_relocate_abutting hmeets.1]
    rw [Ne, hlast, hmeets.2]
    decide
  · next happart =>
    rw [snake_relocate_apart]
    intro hlead
    rw [hlast, ← Bool.not_eq_false]
    exact fun hends => happart ⟨hlead, hends⟩

/-- Where the digits come to stand, when they lead. -/
theorem names_of_digitsLead {id : String} (hlead : DigitsLead (runs id.toList)) :
    moduleName id = .ofList (snakeOf (cutDigits (runs id.toList)).2 ++
      '_' :: snakeOf (cutDigits (runs id.toList)).1) ∧
    constructorName id = .ofList (snakeOf (cutDigits (runs id.toList)).2 ++
      ((if endsInSeparator id then ['_'] else []) ++
        snakeOf (cutDigits (runs id.toList)).1)) := by
  have happend := snakeOf_append hlead.2 hlead.1
  constructor
  · rw [moduleName_eq, happend]
  · rw [constructorName_eq]
    cases endsInSeparator id <;> simp [hlead, happend]

/-- **SEPARATORS ONLY SEPARATE, SAVE ONE.**  Ids with the same runs have the same type name and the
    same module name.  They have the same constructor name exactly if no digits lead, or if both or
    neither of them ends in a separator.  For when digits lead, one separator stands before them in the
    module name, and in the constructor name they abut the rest unless the id ends in a separator. -/
theorem names_of_runs (id other : String) (h : runs id.toList = runs other.toList) :
    typeName id = typeName other ∧ moduleName id = moduleName other ∧
    (constructorName id = constructorName other ↔
      (DigitsLead (runs id.toList) → endsInSeparator id = endsInSeparator other)) ∧
    (DigitsLead (runs id.toList) →
      moduleName id = .ofList (snakeOf (cutDigits (runs id.toList)).2 ++
        '_' :: snakeOf (cutDigits (runs id.toList)).1) ∧
      constructorName id = .ofList (snakeOf (cutDigits (runs id.toList)).2 ++
        ((if endsInSeparator id then ['_'] else []) ++
          snakeOf (cutDigits (runs id.toList)).1))) := by
  refine ⟨?_, ?_, ?_, names_of_digitsLead⟩
  · rw [typeName_eq, typeName_eq, h]
  · rw [moduleName_eq, moduleName_eq, h]
  · rw [constructorName_eq, constructorName_eq, ← h, String.ofList_inj]
    by_cases hlead : DigitsLead (runs id.toList)
    · have happend := snakeOf_append hlead.2 hlead.1
      cases endsInSeparator id <;> cases endsInSeparator other <;> simp [hlead, happend]
    · simp [hlead]

/-- Three ids of the same runs, the last of which ends in a separator. -/
theorem names_of_runs_sonnet :
    runs "3.5 Sonnet-v2".toList = runs "--3_5..Sonnet(v2".toList ∧
      runs "3.5 Sonnet-v2".toList = runs "3.5 Sonnet (v2)".toList ∧
      constructorName "3.5 Sonnet-v2" = constructorName "--3_5..Sonnet(v2" ∧
      constructorName "3.5 Sonnet-v2" ≠ constructorName "3.5 Sonnet (v2)" ∧
      typeName "3.5 Sonnet-v2" = typeName "3.5 Sonnet (v2)" ∧
      moduleName "3.5 Sonnet-v2" = moduleName "3.5 Sonnet (v2)" ∧
      DigitsLead (runs "3.5 Sonnet-v2".toList) ∧
      constructorName "3.5 Sonnet-v2" = "sonnet_v23_5" := by
  have hruns : runs "3.5 Sonnet-v2".toList = runs "--3_5..Sonnet(v2".toList := by decide
  have hruns' : runs "3.5 Sonnet-v2".toList = runs "3.5 Sonnet (v2)".toList := by decide
  have hlead : DigitsLead (runs "3.5 Sonnet-v2".toList) := by decide
  obtain ⟨-, -, hsame, -⟩ := names_of_runs _ _ hruns
  obtain ⟨htype, hmodule, hdiffers, hnames⟩ := names_of_runs _ _ hruns'
  refine ⟨hruns, hruns', hsame.2 fun _ => by decide, ?_, htype, hmodule, hlead, ?_⟩
  · intro heq
    exact absurd (hdiffers.1 heq hlead) (by decide)
  · exact (hnames hlead).2.trans (by decide)

/-- A separator at the end can change a constructor name. -/
theorem constructorName_not_of_runs :
    ¬ ∀ id other : String, runs id.toList = runs other.toList →
      constructorName id = constructorName other := by
  intro hsame
  exact absurd (hsame "302ai" "302ai-" (by decide)) (by decide)

end ModelCatalog.Identifier
