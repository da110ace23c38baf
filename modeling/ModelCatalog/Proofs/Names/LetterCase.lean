import Mathlib
import ModelCatalog.ModelId
import ModelCatalog.Text.Parts

/-! # Type names and constructor names

    Both names of a model are made of the same words: the type name runs them together with a capital
    letter in front of each, the constructor name puts separators between them and takes the letter
    case away.  So a constructor name without its separators is the type name in lower case
    (`constructorName_letters`).  Neither name tells everything that the other does: the type name
    has lost the separators, the constructor name the letter case. -/

namespace ModelCatalog

namespace Identifier

theorem separator_notMem_word {s word : List Char} (h : word ∈ words s) : '_' ∉ word :=
  (mem_splitOn (List.mem_filter.1 h).1).1

/-- The letter case of the separator is nothing that could be lost. -/
theorem toLower_eq_separator {c : Char} : c.toLower = '_' ↔ c = '_' := by
  constructor
  · intro h
    by_cases hupper : c.isUpper = true
    · have hlower : c.toLower.isLower = true := by
        rw [Char.isLower_toLower_eq_isAlpha, Char.isAlpha, hupper, Bool.true_or]
      rw [h] at hlower
      exact absurd hlower (by decide)
    · rwa [Char.toLower_eq_of_not_isUpper hupper] at h
  · intro h
    rw [h]
    decide

theorem map_toLower_capitalize (word : List Char) :
    (capitalize word).map Char.toLower = word.map Char.toLower := by
  cases word with
  | nil => rfl
  | cons c rest => simp [capitalize]

theorem filter_intercalate {parts : List (List Char)} (h : ∀ part ∈ parts, '_' ∉ part) :
    (['_'].intercalate parts).filter (· != '_') = parts.flatten := by
  induction parts with
  | nil => rfl
  | cons part rest ih =>
      have hpart : part.filter (· != '_') = part :=
        List.filter_eq_self.2 fun c hc => by
          have hne : c ≠ '_' := fun heq => h part List.mem_cons_self (heq ▸ hc)
          simpa using hne
      have hrest := ih fun p hp => h p (List.mem_cons_of_mem _ hp)
      cases rest with
      | nil => simpa using hpart
      | cons next others =>
          rw [List.intercalate_cons_cons, List.filter_append, List.filter_append, hpart, hrest]
          simp

/-- Snake case without its separators is camel case in lower case. -/
theorem filter_snake (s : List Char) :
    (snake s).filter (· != '_') = (camel s).map Char.toLower := by
  have hcase : ((· != '_') ∘ Char.toLower) = (· != '_') := by
    funext c
    by_cases hc : c = '_'
    · subst hc
      decide
    · have hlower : c.toLower ≠ '_' := fun h => hc (toLower_eq_separator.1 h)
      show (c.toLower != '_') = (c != '_')
      rw [bne_iff_ne.2 hc, bne_iff_ne.2 hlower]
  calc (snake s).filter (· != '_')
      = ((['_'].intercalate (words s)).filter (· != '_')).map Char.toLower := by
        rw [snake, List.filter_map, hcase]
    _ = (words s).flatten.map Char.toLower := by
        rw [filter_intercalate fun word hword => separator_notMem_word hword]
    _ = (camel s).map Char.toLower := by
        rw [camel, List.map_flatMap, List.map_flatten, List.flatMap_def]
        simp only [map_toLower_capitalize]

/-- A constructor name without its separators is the type name in lower case. -/
theorem filter_constructorName (id : String) :
    (constructorName id).toList.filter (· != '_') = (typeName id).toList.map Char.toLower := by
  rw [constructorName, typeName, String.toList_ofList, String.toList_ofList]
  exact filter_snake _

end Identifier

namespace ModelId

/-- **The letters and digits of a constructor name** are those of the type name in lower case, also
    with a folder. -/
theorem constructorName_letters (id : ModelId) :
    id.constructorName.toList.filter (· != '_') = id.typeName.toLower.toList := by
  rw [String.toLower, String.toList_map, constructorName, typeName]
  cases id.folder? with
  | none => exact Identifier.filter_constructorName id.base
  | some folder =>
      simp only [String.toList_append, List.filter_append, List.map_append,
        Identifier.filter_constructorName]
      simp

/-- Ids with one constructor name have type names that agree but for letter case. -/
theorem typeName_toLower_eq {id other : ModelId} (h : id.constructorName = other.constructorName) :
    id.typeName.toLower = other.typeName.toLower := by
  rw [← String.toList_inj, ← constructorName_letters, ← constructorName_letters, h]

end ModelId

end ModelCatalog
