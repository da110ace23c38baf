/-! # Parts between separators

    What `List.splitOn` gives: parts without the separator, made of what was there before. -/

namespace ModelCatalog

/-- No separator is in a part between separators, and what is in it was in the whole. -/
theorem mem_splitOn {α : Type} [BEq α] [LawfulBEq α] {separator : α} {whole part : List α}
    (h : part ∈ whole.splitOn separator) : separator ∉ part ∧ ∀ c ∈ part, c ∈ whole := by
  induction whole generalizing part with
  | nil =>
    have hnil : part = [] := by simpa [List.splitOn_nil] using h
    simp [hnil]
  | cons a rest ih =>
    rw [List.splitOn_cons_eq_if_modifyHead] at h
    by_cases ha : a = separator
    · rw [if_pos (by simp [ha])] at h
      rcases List.mem_cons.1 h with h | h
      · simp [h]
      · exact ⟨(ih h).1, fun c hc => List.mem_cons_of_mem _ ((ih h).2 c hc)⟩
    · rw [if_neg (by simp [ha])] at h
      obtain ⟨first, others, hsplit⟩ :=
        List.exists_cons_of_ne_nil (List.splitOn_ne_nil separator rest)
      rw [hsplit] at h ih
      rcases List.mem_cons.1 h with h | h
      · obtain ⟨hseparator, hmem⟩ := ih List.mem_cons_self
        subst h
        refine ⟨fun hc => ?_, fun c hc => ?_⟩
        · rcases List.mem_cons.1 hc with hc | hc
          · exact ha hc.symm
          · exact hseparator hc
        · rcases List.mem_cons.1 hc with hc | hc
          · exact hc ▸ List.mem_cons_self
          · exact List.mem_cons_of_mem _ (hmem c hc)
      · obtain ⟨hseparator, hmem⟩ := ih (List.mem_cons_of_mem _ h)
        exact ⟨hseparator, fun c hc => List.mem_cons_of_mem _ (hmem c hc)⟩

end ModelCatalog
