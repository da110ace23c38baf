import ModelCatalog.Proofs.Names.Derivable

/-! # Words and what they are run together to

    All that snake case and camel case see of a text are its words.  A separator parts the words
    before it from those behind it (`words_append_separator`), and nothing else does: where two texts
    meet without one, the last word of the first and the first word of the second become one
    (`words_append`).  Words that have been joined by separators are found again
    (`words_intercalate`). -/

namespace ModelCatalog.Identifier

theorem word_spec {s word : List Char} (h : word ∈ words s) : word ≠ [] ∧ '_' ∉ word := by
  obtain ⟨c, rest, rfl⟩ := exists_cons_of_mem_words h
  exact ⟨List.cons_ne_nil c rest, separator_notMem_word h⟩

-- ── Separators between words ──

theorem words_nil : words [] = [] := rfl

theorem words_append_separator (s t : List Char) : words (s ++ '_' :: t) = words s ++ words t := by
  rw [words, List.splitOn_append_cons_self, List.filter_append, ← words, ← words]

theorem words_separator_cons (s : List Char) : words ('_' :: s) = words s :=
  words_append_separator [] s

theorem words_eq_nil {s : List Char} : words s = [] ↔ ∀ c ∈ s, c = '_' := by
  have hflatten : words s = [] ↔ (words s).flatten = [] := by
    rw [List.flatten_eq_nil_iff]
    refine ⟨fun h word hword => ?_, fun h => ?_⟩
    · rw [h] at hword
      cases hword
    · rw [List.eq_nil_iff_forall_not_mem]
      exact fun word hword => (word_spec hword).1 (h word hword)
  rw [hflatten, flatten_words, List.filter_eq_nil_iff]
  simp only [bne_iff_ne, ne_eq, not_not]

/-- A character before a word belongs to it, and is a word by itself before a separator. -/
theorem words_cons {c : Char} (hc : c ≠ '_') (s : List Char) :
    words (c :: s) =
      if s.head?.all (· == '_') then [c] :: words s else (words s).modifyHead (c :: ·) := by
  have hsplit : words (c :: s) = ((s.splitOn '_').modifyHead (c :: ·)).filter (!·.isEmpty) := by
    rw [words, List.splitOn_cons_eq_if_modifyHead, if_neg (by simpa using hc)]
  rw [hsplit]
  cases s with
  | nil => simp [words, List.splitOn_nil]
  | cons d rest =>
      rw [words, List.splitOn_cons_eq_if_modifyHead]
      obtain ⟨part, parts, hparts⟩ :=
        List.exists_cons_of_ne_nil (List.splitOn_ne_nil '_' rest)
      by_cases hd : d = '_'
      · simp [hd]
      · simp [hd, hparts]

/-- A character that is no separator begins a word. -/
theorem exists_words_cons {c : Char} (hc : c ≠ '_') (s : List Char) :
    ∃ word others, words (c :: s) = (c :: word) :: others := by
  rw [words_cons hc]
  split
  · exact ⟨[], words s, rfl⟩
  · next hhead =>
    cases hwords : words s with
    | nil =>
        refine absurd (Option.all_eq_true _ _ |>.2 fun d hd => ?_) hhead
        exact beq_iff_eq.2 (words_eq_nil.1 hwords d (List.mem_of_head? hd))
    | cons word others => exact ⟨word, others, rfl⟩

theorem words_of_notMem {s : List Char} (hne : s ≠ []) (h : '_' ∉ s) : words s = [s] := by
  rw [words, List.splitOn_eq_singleton h]
  simp [hne]

/-- **Words are found again** when separators have joined them. -/
theorem words_intercalate {parts : List (List Char)}
    (h : ∀ part ∈ parts, part ≠ [] ∧ '_' ∉ part) : words (['_'].intercalate parts) = parts := by
  cases parts with
  | nil => rfl
  | cons part rest =>
      rw [words, List.splitOn_intercalate '_' (fun word hword => (h word hword).2)
        (List.cons_ne_nil part rest), List.filter_eq_self]
      intro word hword
      simpa using (h word hword).1

/-- **Where two texts meet without a separator**, the words that meet become one. -/
theorem words_append {s t : List Char} (hs : s ≠ []) (ht : t ≠ []) (hlast : s.getLast? ≠ some '_')
    (hhead : t.head? ≠ some '_') :
    ∃ before word word' behind, words s = before ++ [word] ∧ words t = word' :: behind ∧
      words (s ++ t) = before ++ (word ++ word') :: behind := by
  obtain ⟨d, rest, rfl⟩ := List.exists_cons_of_ne_nil ht
  have hd : d ≠ '_' := fun heq => hhead (congrArg some heq)
  have hmeets : (d :: rest).head?.all (· == '_') = false := by simpa using hd
  -- what stands in front of the last character of the first text stays what it is
  induction s with
  | nil => exact absurd rfl hs
  | cons c s ih =>
      cases s with
      | nil =>
          have hc : c ≠ '_' := fun heq => hlast (congrArg some heq)
          obtain ⟨word', behind, hwords⟩ := exists_words_cons hd rest
          refine ⟨[], [c], d :: word', behind, words_of_notMem (List.cons_ne_nil c []) ?_, hwords, ?_⟩
          · simpa using hc.symm
          · rw [List.singleton_append, words_cons hc, hmeets, hwords]
            rfl
      | cons e s =>
          rw [List.getLast?_cons_cons] at hlast
          obtain ⟨before, word, word', behind, hwords, hwords', happend⟩ :=
            ih (List.cons_ne_nil e s) hlast
          by_cases hc : c = '_'
          · rw [hc, List.cons_append, words_separator_cons, words_separator_cons]
            exact ⟨before, word, word', behind, hwords, hwords', happend⟩
          · rw [List.cons_append, words_cons hc, words_cons hc, happend, hwords]
            by_cases he : e = '_'
            · exact ⟨[c] :: before, word, word', behind, by simp [he], hwords', by simp [he]⟩
            · cases before with
              | nil => exact ⟨[], c :: word, word', behind, by simp [he], hwords', by simp [he]⟩
              | cons first others =>
                  exact ⟨(c :: first) :: others, word, word', behind, by simp [he], hwords',
                    by simp [he]⟩

-- ── Words joined ──

theorem intercalate_append {parts parts' : List (List Char)} (h : parts ≠ []) (h' : parts' ≠ []) :
    ['_'].intercalate (parts ++ parts') =
      ['_'].intercalate parts ++ '_' :: ['_'].intercalate parts' := by
  induction parts with
  | nil => exact absurd rfl h
  | cons part rest ih =>
      cases rest with
      | nil =>
          rw [List.singleton_append, List.intercalate_cons_of_ne_nil h', List.intercalate_singleton,
            List.append_assoc, List.singleton_append]
      | cons next others =>
          have hne : next :: others ++ parts' ≠ [] := List.append_ne_nil_of_right_ne_nil _ h'
          rw [List.cons_append, List.intercalate_cons_of_ne_nil hne,
            ih (List.cons_ne_nil next others), List.intercalate_cons_cons, List.append_assoc,
            List.append_assoc, List.append_assoc]

/-- What two words have become one, is joined without a separator there. -/
theorem intercalate_meet (before behind : List (List Char)) (word word' : List Char) :
    ['_'].intercalate (before ++ (word ++ word') :: behind) =
      ['_'].intercalate (before ++ [word]) ++ ['_'].intercalate (word' :: behind) := by
  induction before with
  | nil =>
      cases behind with
      | nil => simp
      | cons next others => simp [List.intercalate_cons_cons]
  | cons part rest ih =>
      rw [List.cons_append, List.cons_append, List.intercalate_cons_of_ne_nil (by simp),
        List.intercalate_cons_of_ne_nil (by simp), ih, List.append_assoc (part ++ ['_'])]

end ModelCatalog.Identifier
