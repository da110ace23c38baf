import Mathlib.Data.List.TakeWhile
import ModelCatalog.Proofs.Scaffold.Lexing
import ModelCatalog.Scaffold.Code

/-! # Comments

    Text from outside gets into a comment that documents what follows it.  `documentation` has
    three forms for it: a comment to the end of the line, a comment between marks, and an attribute.
    The headline is `run_documentation`: in the first two forms the text gives no token, and in the
    third it is one literal, whatever the text is.  The exception is a carriage return that no end
    of line follows, which a comment must not hold.

    The form between marks is the hard one.  The printer looks for pairs of characters in the text
    (`isBalanced`), while the reader goes through the comment character by character and knows how
    many comments are open and whether it has seen half of a mark.  `isBalanced_eq` says that they
    find the same marks, and `nestAll_trimLines` that spaces at the ends of lines are no part of
    any. -/

namespace ModelCatalog.Lexer

open Scaffold (isBalanced fitsComment trimEnd trimLines documentation)

/-- What characters do to the marks of comments, one after the other. -/
def nestAll : Nat × Half → List Char → Option (Nat × Half)
  | s, [] => some s
  | (depth, half), c :: rest => (nest depth half c).bind fun s => nestAll s rest

theorem nestAll_append (s : Nat × Half) (xs ys : List Char) :
    nestAll s (xs ++ ys) = (nestAll s xs).bind fun s => nestAll s ys := by
  induction xs generalizing s with
  | nil => rfl
  | cons c rest ih =>
      rw [List.cons_append, nestAll, nestAll, Option.bind_assoc]
      exact congrArg _ (funext fun s => ih s)

/-- A character that belongs to no mark is read alike behind any half of one. -/
theorem nest_of_ne {c : Char} (hslash : c ≠ '/') (hstar : c ≠ '*') (depth : Nat) (half : Half) :
    nest depth half c = some (depth, .neither) := by
  unfold nest
  rw [if_neg (by simp [hslash]), if_neg (by simp [hstar]), if_neg hslash, if_neg hstar]

-- ── The marks that the printer finds ──

/-- Whether a character completes a mark behind half of one. -/
def Half.completes : Half → Char → Prop
  | .neither, _ => False
  | .slash, c => c = '*'
  | .star, c => c = '/'

/-- Half of a mark counts only before the other half. -/
theorem nest_eq_neither {half : Half} {c : Char} (h : ¬ half.completes c) (depth : Nat) :
    nest depth half c = nest depth .neither c := by
  cases half with
  | neither => rfl
  | slash =>
      have hstar : ¬ c = '*' := h
      simp [nest, hstar]
  | star =>
      have hslash : ¬ c = '/' := h
      simp [nest, hslash]

theorem nestAll_eq_neither {half : Half} {xs : List Char} (h : ∀ c ∈ xs.head?, ¬ half.completes c)
    (depth : Nat) :
    (nestAll (depth, half) xs).map (·.1) = (nestAll (depth, .neither) xs).map (·.1) := by
  cases xs with
  | nil => rfl
  | cons c rest => rw [nestAll, nestAll, nest_eq_neither (h c rfl)]

/-- The printer finds the marks that the reader finds. -/
theorem isBalanced_eq (depth : Nat) (xs : List Char) :
    isBalanced depth xs = ((nestAll (depth, .neither) xs).map (·.1) == some 0) := by
  fun_induction isBalanced depth xs with
  | case1 depth rest ih => exact ih
  | case2 rest => rfl
  | case3 depth rest ih => exact ih
  | case4 depth c rest hopen hzero hclose ih =>
      rw [ih]
      -- one character that makes no mark with the next one
      obtain ⟨half, hnest, hnext⟩ : ∃ half, nest depth .neither c = some (depth, half) ∧
          ∀ d ∈ rest.head?, ¬ half.completes d := by
        by_cases hslash : c = '/'
        · refine ⟨.slash, by simp [nest, hslash], fun d hd hstar => ?_⟩
          obtain ⟨tail, rfl⟩ : ∃ tail, rest = d :: tail := List.head?_eq_some_iff.1 hd
          obtain rfl : d = '*' := hstar
          exact hopen tail hslash rfl
        · by_cases hstar : c = '*'
          · refine ⟨.star, by simp [nest, hstar], fun d hd hcloses => ?_⟩
            obtain ⟨tail, rfl⟩ : ∃ tail, rest = d :: tail := List.head?_eq_some_iff.1 hd
            obtain rfl : d = '/' := hcloses
            cases depth with
            | zero => exact hzero tail rfl hstar rfl
            | succ depth => exact hclose depth tail rfl hstar rfl
          · exact ⟨.neither, nest_of_ne hslash hstar _ _, fun _ _ => id⟩
      rw [nestAll, hnest, Option.bind_some, nestAll_eq_neither hnext]
  | case5 depth => simp [nestAll]

-- ── Spaces at the ends of lines ──

theorem exists_trimEnd_append (line : List Char) :
    ∃ n, line = trimEnd line ++ List.replicate n ' ' := by
  refine ⟨(line.reverse.takeWhile (· == ' ')).length, ?_⟩
  have hspaces : line.reverse.takeWhile (· == ' ') =
      List.replicate (line.reverse.takeWhile (· == ' ')).length ' ' :=
    List.eq_replicate_iff.2 ⟨rfl, fun c hc => eq_of_beq
      (List.mem_takeWhile_imp (p := (· == ' ')) hc)⟩
  conv_lhs => rw [← List.reverse_reverse line,
    ← List.takeWhile_append_dropWhile (p := (· == ' ')) (l := line.reverse), List.reverse_append,
    hspaces, List.reverse_replicate]
  rfl

/-- After spaces and the end of a line, no half of a mark is left. -/
theorem nestAll_spaces (n : Nat) (s : Nat × Half) (rest : List Char) :
    nestAll s (List.replicate n ' ' ++ '\n' :: rest) = nestAll s ('\n' :: rest) := by
  induction n generalizing s with
  | zero => rfl
  | succ n ih =>
      obtain ⟨depth, half⟩ := s
      rw [List.replicate_succ, List.cons_append, nestAll, nest_of_ne (by decide) (by decide),
        Option.bind_some, ih, nestAll, nestAll, nest_of_ne (by decide) (by decide),
        nest_of_ne (by decide) (by decide)]

/-- The lines of a text, each without the spaces at its end but the last one. -/
theorem nestAll_trimmed (lines : List (List Char)) (s : Nat × Half) :
    nestAll s (['\n'].intercalate (lines.dropLast.map trimEnd ++ lines.drop (lines.length - 1))) =
      nestAll s (['\n'].intercalate lines) := by
  induction lines generalizing s with
  | nil => rfl
  | cons line rest ih =>
      cases rest with
      | nil => rfl
      | cons next rest =>
          obtain ⟨n, hline⟩ := exists_trimEnd_append line
          have htrimmed : (line :: next :: rest).dropLast.map trimEnd ++
                (line :: next :: rest).drop ((line :: next :: rest).length - 1) =
              trimEnd line :: ((next :: rest).dropLast.map trimEnd ++
                (next :: rest).drop ((next :: rest).length - 1)) := by simp
          obtain ⟨first, others, hothers⟩ :
              ∃ first others, (next :: rest).dropLast.map trimEnd ++
                (next :: rest).drop ((next :: rest).length - 1) = first :: others := by
            cases rest <;> exact ⟨_, _, rfl⟩
          rw [hothers] at ih
          rw [htrimmed, hothers, List.intercalate_cons_cons, List.intercalate_cons_cons,
            List.append_assoc, List.append_assoc, List.singleton_append, List.singleton_append,
            nestAll_append]
          conv_rhs => rw [hline, List.append_assoc, nestAll_append]
          refine congrArg _ (funext fun s => ?_)
          obtain ⟨depth, half⟩ := s
          rw [nestAll_spaces, nestAll, nestAll, nest_of_ne (by decide) (by decide),
            Option.bind_some, Option.bind_some, ih]

/-- Spaces at the ends of lines are no part of marks. -/
theorem nestAll_trimLines (s : Nat × Half) (xs : List Char) :
    nestAll s (trimLines xs) = nestAll s xs := by
  rw [trimLines, nestAll_trimmed, List.intercalate_splitOn]

-- ── Between marks ──

/-- What a comment between marks holds is read as marks tell, up to a star behind it, and is refused
    if there is a bare return in it. -/
theorem run_block {xs ys : List Char} {depth depth' : Nat} {half half' : Half}
    (hmarks : nestAll (depth, half) xs = some (depth', half')) (hys : hasBareReturn ys = false) :
    run (.block depth half) (xs ++ '*' :: ys) =
      if hasBareReturn (xs ++ '*' :: ys) then none else run (.block depth' half') ('*' :: ys) := by
  cases xs with
  | nil =>
      obtain ⟨rfl, rfl⟩ := Prod.mk.inj (Option.some.inj hmarks)
      rw [List.nil_append, hasBareReturn_cons (by decide), hys]
      rfl
  | cons c rest =>
      rw [List.cons_append]
      by_cases hreturn : c = '\r'
      · rw [hreturn, hasBareReturn_return, run_cons_of_silent rfl]
        cases rest with
        | nil => rfl
        | cons d rest =>
            rw [List.cons_append]
            by_cases hd : d = '\n'
            · rw [hreturn, hd, nestAll, nest_of_ne (by decide) (by decide), Option.bind_some, nestAll,
                nest_of_ne (by decide) (by decide), Option.bind_some] at hmarks
              rw [hd, hasBareReturn_cons (by decide), run_cons_of_silent rfl]
              exact run_block hmarks hys
            · rw [run, step, if_neg hd]
              simp [hd]
      · rw [nestAll] at hmarks
        obtain ⟨⟨next, nextHalf⟩, hnest, hrest⟩ := Option.bind_eq_some_iff.1 hmarks
        rw [hasBareReturn_cons hreturn, ← run_block hrest hys]
        exact run_cons_of_silent (by rw [step, if_neg hreturn, hnest]) _

/-- Half of an opening mark is left only by the slash at the end of a text. -/
theorem getLast?_of_nestAll {xs : List Char} {depth depth' : Nat}
    (h : nestAll (depth, .neither) xs = some (depth', .slash)) : xs.getLast? = some '/' := by
  obtain rfl | ⟨before, c, rfl⟩ := xs.eq_nil_or_concat
  · cases h
  · rw [List.concat_eq_append] at h ⊢
    rw [nestAll_append] at h
    obtain ⟨⟨d, half⟩, -, hlast⟩ := Option.bind_eq_some_iff.1 h
    obtain ⟨s, hnest, hs⟩ := Option.bind_eq_some_iff.1 hlast
    obtain rfl : s = (depth', .slash) := Option.some.inj hs
    by_cases hslash : c = '/'
    · rw [hslash, List.getLast?_append]
      rfl
    · by_cases hstar : c = '*'
      · cases half <;> simp [nest, hstar] at hnest
      · rw [nest_of_ne hslash hstar] at hnest
        cases hnest

-- ── Documentation ──

/-- Whether documentation is an attribute, since the text would break a comment. -/
def isAttribute (text : String) : Bool :=
  (text.toList.contains '\n' || text.toList.head? == some '/') && !fitsComment text.toList

/-- The tokens of documentation. -/
def documentationTokens (text : String) : List Token :=
  if isAttribute text then
    [.sign '#', .sign '[', .word "doc".toList, .sign '=', .literal, .sign ']']
  else []

/-- A comment to the end of its line. -/
theorem run_lineComment {xs : List Char} (hnewline : '\n' ∉ xs) :
    run (.code []) ('/' :: '/' :: (xs ++ ['\n'])) =
      if hasBareReturn ('/' :: '/' :: (xs ++ ['\n'])) then none else some ([], .code []) := by
  rw [hasBareReturn_cons (by decide), hasBareReturn_cons (by decide), ← run_line hnewline,
    run_cons_of_silent rfl, run_cons_of_silent rfl]

/-- Text that fits is a comment between marks. -/
theorem run_fitsComment {inside : List Char} (hfits : fitsComment inside = true)
    (hlines : inside ≠ []) :
    run (.code []) ('/' :: '*' :: '*' :: (trimLines inside ++ ['*', '/', '\n'])) =
      if hasBareReturn ('/' :: '*' :: '*' :: (trimLines inside ++ ['*', '/', '\n'])) then none
      else some ([], .code []) := by
  obtain ⟨⟨⟨hbalanced, hlast⟩, -⟩, hhead⟩ :
      ((isBalanced 0 inside = true ∧ inside.getLast? ≠ some '/') ∧ inside.head? ≠ some '*') ∧
        inside.head? ≠ some '/' := by
    simpa [fitsComment] using hfits
  -- the text ends where it began, in the outermost comment
  obtain ⟨half, hmarks⟩ : ∃ half, nestAll (0, .neither) inside = some (0, half) := by
    rw [isBalanced_eq, beq_iff_eq] at hbalanced
    obtain ⟨⟨depth, half⟩, hmarks, hdepth⟩ := Option.map_eq_some_iff.1 hbalanced
    obtain rfl : depth = 0 := hdepth
    exact ⟨half, hmarks⟩
  have hhalf : half ≠ .slash := fun heq => hlast (getLast?_of_nestAll (heq ▸ hmarks))
  -- the second star of the opening mark is no half of a closing one
  have hstar : nestAll (0, .star) (trimLines inside) = some (0, half) := by
    rw [nestAll_trimLines, ← hmarks]
    cases inside with
    | nil => exact absurd rfl hlines
    | cons c rest =>
        have hc : ¬ Half.star.completes c := fun heq => hhead (congrArg some heq)
        rw [nestAll, nestAll, nest_eq_neither hc]
  have hclose : run (.block 0 half) ['*', '/', '\n'] = some ([], .code []) := by
    cases half with
    | slash => exact absurd rfl hhalf
    | neither => rfl
    | star => rfl
  rw [hasBareReturn_cons (by decide), hasBareReturn_cons (by decide), hasBareReturn_cons (by decide),
    ← hclose, ← run_block hstar (by decide), run_cons_of_silent rfl, run_cons_of_silent rfl,
    run_cons_of_silent rfl]

/-- Any text can be quoted in an attribute. -/
theorem run_attribute (text : String) :
    run (.code []) ("#[doc = ".toList ++ ((Text.quoteStrict text).toList ++ [']', '\n'])) =
      some ([.sign '#', .sign '[', .word "doc".toList, .sign '=', .literal, .sign ']'],
        .code []) := by
  have hopen : run (.code []) "#[doc = ".toList =
      some ([.sign '#', .sign '[', .word "doc".toList, .sign '='], .code []) := rfl
  have hclose : run .closed [']', '\n'] = some ([.sign ']'], .code []) := rfl
  exact run_append_eq hopen (run_append_eq (run_quoteStrict text) hclose)

/-- An attribute has no carriage return at all. -/
theorem return_notMem_attribute (text : String) :
    '\r' ∉ "#[doc = ".toList ++ ((Text.quoteStrict text).toList ++ [']', '\n']) := by
  rw [List.mem_append, List.mem_append]
  rintro (hmem | hmem | hmem)
  · exact absurd hmem (by decide)
  · exact return_notMem_quoteStrict text hmem
  · exact absurd hmem (by decide)

/-- **Documentation is read, whatever its text is**, unless it is printed with a bare return, when it is
    refused.  It gives no token, or those of an attribute. -/
theorem run_documentation (text : String) :
    ∃ printed : String, documentation text = [.text printed] ∧
      run (.code []) (printed.toList ++ ['\n']) =
        if hasBareReturn (printed.toList ++ ['\n']) then none
        else some (documentationTokens text, .code []) := by
  by_cases hline : (!text.toList.contains '\n' && text.toList.head? != some '/') = true
  · -- up to the end of the line
    refine ⟨_, by rw [documentation, if_pos hline], ?_⟩
    obtain ⟨hnewline, hhead⟩ : '\n' ∉ text.toList ∧ text.toList.head? ≠ some '/' := by
      simpa using hline
    have htokens : documentationTokens text = [] := by
      simp [documentationTokens, isAttribute, hnewline, hhead]
    obtain ⟨n, htrim⟩ := exists_trimEnd_append text.toList
    have htrimmed : '\n' ∉ '/' :: trimEnd text.toList := by
      rw [List.mem_cons, not_or]
      exact ⟨by decide, fun hmem => hnewline (htrim ▸ List.mem_append_left _ hmem)⟩
    have hprinted : ("///" ++ String.ofList (trimEnd text.toList)).toList ++ ['\n'] =
        '/' :: '/' :: ('/' :: trimEnd text.toList ++ ['\n']) := by simp
    rw [hprinted, htokens]
    exact run_lineComment htrimmed
  · by_cases hfits : fitsComment text.toList = true
    · -- between marks
      refine ⟨_, by rw [documentation, if_neg hline, if_pos hfits], ?_⟩
      have htokens : documentationTokens text = [] := by
        simp [documentationTokens, isAttribute, hfits]
      have hlines : text.toList ≠ [] := fun heq => hline (by rw [heq]; rfl)
      have hprinted : ("/**" ++ String.ofList (trimLines text.toList) ++ "*/").toList ++ ['\n'] =
          '/' :: '*' :: '*' :: (trimLines text.toList ++ ['*', '/', '\n']) := by simp
      rw [hprinted, htokens]
      exact run_fitsComment hfits hlines
    · -- an attribute
      refine ⟨_, by rw [documentation, if_neg hline, if_neg hfits], ?_⟩
      have hattribute : isAttribute text = true := by
        rw [Bool.not_eq_true, Bool.and_eq_false_iff, Bool.not_eq_false', bne_eq_false_iff_eq]
          at hline
        rw [isAttribute, Bool.and_eq_true, Bool.or_eq_true, beq_iff_eq, Bool.not_eq_true',
          ← Bool.not_eq_true]
        exact ⟨hline, hfits⟩
      have hprinted : ("#[doc = " ++ Text.quoteStrict text ++ "]").toList ++ ['\n'] =
          "#[doc = ".toList ++ ((Text.quoteStrict text).toList ++ [']', '\n']) := by simp
      rw [hprinted, documentationTokens, if_pos hattribute, run_attribute,
        hasBareReturn_of_notMem (return_notMem_attribute text)]
      rfl

-- A return that ends no line is refused.
example : lex "/// a\rb\n".toList = none := by decide

end ModelCatalog.Lexer
