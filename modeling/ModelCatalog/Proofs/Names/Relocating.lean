import ModelCatalog.Proofs.Names.Words

/-! # Relocating, word by word

    Relocating goes by characters: a run of digits and separators in front comes behind the rest.
    Said of words, those that begin with digits in front are cut from the others (`cutDigits`), and
    come behind them.  A separator between the two keeps them apart
    (`words_relocate_separated`), and so does one that the rest ends in; otherwise the last word of
    the rest and the first digits become one (`words_relocate_abutting`). -/

namespace ModelCatalog.Identifier

-- ── Digits in front ──

/-- Words that are cut behind the digits in front of them: the words of digits, and the rest. -/
def cutDigits : List (List Char) → List (List Char) × List (List Char)
  | [] => ([], [])
  | word :: rest =>
    if word.all Char.isDigit then (word :: (cutDigits rest).1, (cutDigits rest).2)
    else ([word.takeWhile Char.isDigit].filter (!·.isEmpty), word.dropWhile Char.isDigit :: rest)

/-- There are digits in front, and something else behind them. -/
def DigitsLead (ws : List (List Char)) : Prop := (cutDigits ws).1 ≠ [] ∧ (cutDigits ws).2 ≠ []

instance : DecidablePred DigitsLead := fun _ => inferInstanceAs (Decidable (_ ∧ _))

/-- Otherwise nothing would change places. -/
theorem append_cutDigits {ws : List (List Char)} (h : ¬ DigitsLead ws) :
    (cutDigits ws).2 ++ (cutDigits ws).1 = ws := by
  rw [DigitsLead, not_and_or, not_ne_iff, not_ne_iff] at h
  induction ws with
  | nil => rfl
  | cons word rest ih =>
      rw [cutDigits] at h ⊢
      by_cases hdigits : word.all Char.isDigit = true
      · rw [if_pos hdigits] at h ⊢
        have hnone : (cutDigits rest).2 = [] := h.resolve_left (List.cons_ne_nil _ _)
        have hrest := ih (.inr hnone)
        rw [hnone, List.nil_append] at hrest
        rw [hnone, hrest, List.nil_append]
      · rw [if_neg hdigits] at h ⊢
        have hnone : [word.takeWhile Char.isDigit].filter (!·.isEmpty) = [] :=
          h.resolve_right (List.cons_ne_nil _ _)
        have hempty : word.takeWhile Char.isDigit = [] := by simpa using hnone
        have hwhole := List.takeWhile_append_dropWhile (p := Char.isDigit) (l := word)
        rw [hempty, List.nil_append] at hwhole
        rw [hnone, hwhole, List.append_nil]

/-- A digit in front of a word is cut off with the digits that follow it. -/
theorem cutDigits_cons_digit {c : Char} (hc : c.isDigit = true) {word : List Char}
    {rest : List (List Char)} :
    cutDigits ((c :: word) :: rest) =
      if word.all Char.isDigit then ((c :: word) :: (cutDigits rest).1, (cutDigits rest).2)
      else ([c :: word.takeWhile Char.isDigit], word.dropWhile Char.isDigit :: rest) := by
  simp [cutDigits, hc]

/-- **The run of digits and separators in front** has the words of digits, and what follows it has the
    rest. -/
theorem words_run (s : List Char) :
    words (s.takeWhile isDigitOrSeparator) = (cutDigits (words s)).1 ∧
      words (s.dropWhile isDigitOrSeparator) = (cutDigits (words s)).2 := by
  induction s with
  | nil => exact ⟨rfl, rfl⟩
  | cons c rest ih =>
      by_cases hc : c = '_'
      · subst hc
        simpa [isDigitOrSeparator, words_separator_cons] using ih
      · have hrun : isDigitOrSeparator c = c.isDigit := by simp [isDigitOrSeparator, hc]
        cases hdigit : c.isDigit with
        | false =>
            -- the run is empty
            obtain ⟨word, others, hwords⟩ := exists_words_cons hc rest
            rw [List.takeWhile_cons_of_neg (by simp [hrun, hdigit]),
              List.dropWhile_cons_of_neg (by simp [hrun, hdigit]), hwords]
            simp [cutDigits, hdigit, words_nil]
        | true =>
            rw [List.takeWhile_cons_of_pos (by simp [hrun, hdigit]),
              List.dropWhile_cons_of_pos (by simp [hrun, hdigit]), words_cons hc, words_cons hc]
            cases rest with
            | nil => simp [words_nil, cutDigits, hdigit]
            | cons d rest =>
                by_cases hd : d = '_'
                · -- the digit is a word by itself
                  subst hd
                  simpa [isDigitOrSeparator, cutDigits, hdigit] using ih
                · have hrun' : isDigitOrSeparator d = d.isDigit := by simp [isDigitOrSeparator, hd]
                  obtain ⟨word, others, hwords⟩ := exists_words_cons hd rest
                  rw [hwords] at ih ⊢
                  cases hdigit' : d.isDigit with
                  | false => simp [hrun', hdigit', hd, hwords, words_nil, cutDigits, hdigit]
                  | true =>
                      -- the word that the digit belongs to is cut behind the same digits
                      rw [cutDigits_cons_digit hdigit'] at ih
                      rw [List.takeWhile_cons_of_pos (by simp [hrun', hdigit'])] at ih ⊢
                      rw [ih.1, ih.2]
                      by_cases hall : word.all Char.isDigit = true
                      · simp [hd, hdigit, hdigit', cutDigits, hall]
                      · simp [hd, hdigit, hdigit', cutDigits, hall]

-- ── Digits behind the rest ──

theorem words_dropWhile_separator (s : List Char) : words (s.dropWhile (· == '_')) = words s := by
  induction s with
  | nil => rfl
  | cons c rest ih =>
      by_cases hc : c = '_'
      · rw [hc, List.dropWhile_cons_of_pos (by decide), ih, words_separator_cons]
      · rw [List.dropWhile_cons_of_neg (by simpa using hc)]

theorem trimEnd_append_separator (s : List Char) : trimEnd (s ++ ['_']) = trimEnd s := by
  simp [trimEnd]

theorem words_trimEnd (s : List Char) : words (trimEnd s) = words s := by
  induction s using List.reverseRecOn with
  | nil => rfl
  | append_singleton s c ih =>
      by_cases hc : c = '_'
      · rw [hc, trimEnd_append_separator, ih, words_append_separator, words_nil, List.append_nil]
      · simp [trimEnd, hc]

theorem trimEnd_cons {c : Char} (hc : c ≠ '_') (s : List Char) :
    trimEnd (c :: s) = c :: trimEnd s := by
  rw [trimEnd, List.reverse_cons, List.dropWhile_append]
  split
  · next hempty =>
    rw [List.isEmpty_iff] at hempty
    simp [trimEnd, hempty, hc]
  · simp [trimEnd]

/-- **What relocating does**: nothing, unless digits lead; then it puts a text with the words of digits
    behind one with the other words.  The latter ends as the whole text does. -/
theorem relocate_spec (s : List Char) :
    ((∀ placement, relocate placement s = s) ∧ ¬ DigitsLead (words s)) ∨
      ∃ c front d back, isDigitOrSeparator c = false ∧ d.isDigit = true ∧
        (∀ placement,
          relocate placement s = (c :: front) ++ placement.separator ++ (d :: back)) ∧
        words (c :: front) = (cutDigits (words s)).2 ∧
        words (d :: back) = (cutDigits (words s)).1 ∧
        (c :: front).getLast? = s.getLast? := by
  have hhead := List.head?_dropWhile_not (· == '_') s
  have hsplit := List.takeWhile_append_dropWhile (p := (· == '_')) (l := s)
  obtain ⟨hrun, hrest⟩ := words_run (s.dropWhile (· == '_'))
  rw [words_dropWhile_separator] at hrun hrest
  cases hbody : s.dropWhile (· == '_') with
  | nil =>
      -- there are separators only
      rw [hbody] at hrun
      exact .inl ⟨fun placement => by simp [relocate, hbody], fun hlead => hlead.1 hrun.symm⟩
  | cons d body =>
      rw [hbody] at hhead hrun hrest hsplit
      have hd : d ≠ '_' := by simpa using hhead
      have hdRun : isDigitOrSeparator d = d.isDigit := by simp [isDigitOrSeparator, hd]
      cases hdigit : d.isDigit with
      | false =>
          rw [List.takeWhile_cons_of_neg (by simp [hdRun, hdigit])] at hrun
          exact .inl ⟨fun placement => by simp [relocate, hbody, hdigit],
            fun hlead => hlead.1 hrun.symm⟩
      | true =>
          rw [List.takeWhile_cons_of_pos (by simp [hdRun, hdigit])] at hrun
          rw [List.dropWhile_cons_of_pos (by simp [hdRun, hdigit])] at hrest
          have hfirst := List.head?_dropWhile_not isDigitOrSeparator body
          have hwhole := List.takeWhile_append_dropWhile (p := isDigitOrSeparator) (l := body)
          cases hfront : body.dropWhile isDigitOrSeparator with
          | nil =>
              -- nothing follows the run
              rw [hfront] at hrest
              exact .inl ⟨fun placement => by simp [relocate, hbody, hdRun, hdigit, hfront],
                fun hlead => hlead.2 hrest.symm⟩
          | cons c front =>
              rw [hfront] at hrest hfirst hwhole
              have hs : (s.takeWhile (· == '_') ++ d :: body.takeWhile isDigitOrSeparator) ++
                  c :: front = s := by
                rw [List.append_assoc, List.cons_append, hwhole, hsplit]
              refine .inr ⟨c, front, d, trimEnd (body.takeWhile isDigitOrSeparator), hfirst, hdigit,
                fun placement => ?_, hrest, ?_, ?_⟩
              · simp [relocate, hbody, hdRun, hdigit, hfront, trimEnd_cons hd]
              · rw [← trimEnd_cons hd, words_trimEnd, hrun]
              · rw [← hs, List.getLast?_append_of_ne_nil _ (List.cons_ne_nil c front)]

theorem ne_separator_of_isDigit {c : Char} (h : c.isDigit = true) : c ≠ '_' := by
  rintro rfl
  cases h

theorem ne_separator_of_not_run {c : Char} (h : isDigitOrSeparator c = false) : c ≠ '_' := by
  rintro rfl
  cases h

/-- **With a separator between**, the words of digits stand behind the others. -/
theorem words_relocate_separated (s : List Char) :
    words (relocate .separated s) = (cutDigits (words s)).2 ++ (cutDigits (words s)).1 := by
  rcases relocate_spec s with ⟨hsame, hlead⟩ | ⟨c, front, d, back, -, -, hmoves, hfront, hback, -⟩
  · rw [hsame, append_cutDigits hlead]
  · rw [hmoves, DigitPlacement.separator, List.append_assoc, List.singleton_append,
      words_append_separator, hfront, hback]

/-- **Without one**, they do so just the same behind a separator in which the text has ended, and if
    they do not change places at all. -/
theorem words_relocate_apart {s : List Char}
    (h : DigitsLead (words s) → s.getLast? = some '_') :
    words (relocate .abutting s) = (cutDigits (words s)).2 ++ (cutDigits (words s)).1 := by
  rcases relocate_spec s with ⟨hsame, hlead⟩ |
    ⟨c, front, d, back, hc, hd, hmoves, hfront, hback, hlast⟩
  · rw [hsame, append_cutDigits hlead]
  · obtain ⟨word, others, hwords⟩ := exists_words_cons (ne_separator_of_isDigit hd) back
    obtain ⟨word', others', hwords'⟩ := exists_words_cons (ne_separator_of_not_run hc) front
    have hlead : DigitsLead (words s) := by
      rw [DigitsLead, ← hfront, ← hback, hwords, hwords']
      exact ⟨List.cons_ne_nil _ _, List.cons_ne_nil _ _⟩
    rw [h hlead] at hlast
    obtain ⟨begin, hbegin⟩ := List.getLast?_eq_some_iff.1 hlast
    rw [hmoves, DigitPlacement.separator, List.append_nil, ← hfront, ← hback, hbegin,
      List.append_assoc, List.singleton_append, words_append_separator, words_append_separator,
      words_nil, List.append_nil]

/-- **Behind a letter or a digit**, the first word of digits becomes one with the word before it. -/
theorem words_relocate_abutting {s : List Char} (hlead : DigitsLead (words s))
    (hlast : s.getLast? ≠ some '_') :
    ∃ before word digit digits behind, word ≠ [] ∧ digit.isDigit = true ∧
      (cutDigits (words s)).2 = before ++ [word] ∧
      (cutDigits (words s)).1 = (digit :: digits) :: behind ∧
      words (relocate .abutting s) = before ++ (word ++ digit :: digits) :: behind := by
  rcases relocate_spec s with ⟨-, hnot⟩ | ⟨c, front, d, back, hc, hd, hmoves, hfront, hback, hend⟩
  · exact absurd hlead hnot
  · obtain ⟨digits, others, hdigits⟩ := exists_words_cons (ne_separator_of_isDigit hd) back
    obtain ⟨before, word, word', behind, hwords, hwords', happend⟩ :=
      words_append (List.cons_ne_nil c front) (List.cons_ne_nil d back) (hend ▸ hlast)
        fun heq => ne_separator_of_isDigit hd (Option.some.inj heq)
    obtain ⟨rfl, rfl⟩ := List.cons.inj (hdigits.symm.trans hwords')
    refine ⟨before, word, d, digits, others, ?_, hd, hfront ▸ hwords, hback ▸ hwords', ?_⟩
    · have hmem : word ∈ words (c :: front) := by simp [hwords]
      exact (word_spec hmem).1
    · rw [hmoves, DigitPlacement.separator, List.append_nil, happend]

end ModelCatalog.Identifier
