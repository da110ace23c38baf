import ModelCatalog.Proofs.Scaffold.Rows
import ModelCatalog.Proofs.Text.Ascii

/-! # Pieces of code, as they are read

    The pieces that declarations are built of are plain code if their parts are, which is for
    `simp` to find out.  What is not plain are calls on a literal: they may go to a line of their
    own, which no token tells of, and so may an argument, which a comma tells of
    (`layout_argument`). -/

namespace ModelCatalog.Scaffold

open Doc
open Lexer (Token run isPlain)

-- ── Plain code ──

/-- Text that can be part of code that holds no literal and no comment. -/
def IsPlainText (s : String) : Prop := ∀ c ∈ s.toList, IsPlain c

@[simp]
theorem isPlainText_append (s t : String) :
    IsPlainText (s ++ t) ↔ IsPlainText s ∧ IsPlainText t := by
  rw [IsPlainText, String.toList_append, List.forall_mem_append]
  rfl

/-- Whether the characters of a text are ASCII, and plain. -/
def isPlainAscii (s : String) : Bool := (Text.ascii? s).any (·.all isPlain)

@[simp]
theorem isPlainText_of_isPlainAscii {s : String} (h : isPlainAscii s = true) : IsPlainText s := by
  rw [isPlainAscii, Option.any_eq_true] at h
  obtain ⟨cs, hcs, hplain⟩ := h
  rw [IsPlainText, Text.toList_of_ascii? hcs]
  exact List.all_eq_true.1 hplain

section Shapes

variable (item items others : Line)

@[simp]
theorem isPlain_nil : AllCharsOf IsPlain [] := trivial

@[simp]
theorem isPlain_cons (d : Doc) :
    AllCharsOf IsPlain (d :: items) ↔ AllChars IsPlain d ∧ AllCharsOf IsPlain items := Iff.rfl

@[simp]
theorem isPlain_text (s : String) : AllChars IsPlain (.text s) ↔ IsPlainText s := Iff.rfl

@[simp]
theorem isPlain_soft (flat closing : String) :
    AllChars IsPlain (.soft flat closing) ↔ IsPlainText flat ∧ IsPlainText closing := Iff.rfl

@[simp]
theorem isPlain_line : AllChars IsPlain .line := trivial

@[simp]
theorem isPlain_pause : AllChars IsPlain .pause := trivial

@[simp]
theorem isPlain_nest : AllChars IsPlain (.nest items) ↔ AllCharsOf IsPlain items := Iff.rfl

@[simp]
theorem isPlain_group (limit : Option Nat) :
    AllChars IsPlain (.group limit items) ↔ AllCharsOf IsPlain items := Iff.rfl

@[simp]
theorem isPlain_append :
    AllCharsOf IsPlain (items ++ others) ↔
      AllCharsOf IsPlain items ∧ AllCharsOf IsPlain others := by
  induction items with
  | nil => simp
  | cons d rest ih => rw [List.cons_append, isPlain_cons, isPlain_cons, ih, and_assoc]

@[simp]
theorem isPlain_angles : AllChars IsPlain (angles item) ↔ AllCharsOf IsPlain item := by
  simp +decide [angles]

@[simp]
theorem isPlain_implementation :
    AllChars IsPlain (implementation items others) ↔
      AllCharsOf IsPlain items ∧ AllCharsOf IsPlain others := by
  simp +decide [implementation]

@[simp]
theorem isPlain_block (body : List Line) :
    AllCharsOf IsPlain (block items body) ↔
      AllCharsOf IsPlain items ∧ ∀ l ∈ body, AllCharsOf IsPlain l := by
  have hbody : AllCharsOf IsPlain (body.flatMap (.line :: ·)) ↔
      ∀ l ∈ body, AllCharsOf IsPlain l := by
    induction body with
    | nil => simp
    | cons l rest ih => simp [ih]
  simp +decide [block, hbody]

end Shapes

-- ── Lines of text ──

/-- Whether a text of ASCII characters is a line of code as it is. -/
def isCode (s : String) : Bool :=
  (Text.ascii? s).any fun cs =>
    match run (.code []) (cs ++ ['\n']) with
    | some (_, .code []) => true
    | _ => false

theorem isReadable_of_isCode {s : String} (h : isCode s = true) : IsReadable [.text s] := by
  intro indent
  rw [isCode, Option.any_eq_true] at h
  obtain ⟨cs, hcs, hcode⟩ := h
  split at hcode
  · next ts hrun =>
    refine ⟨ts, ?_⟩
    rw [Row, printed_text, Text.toList_of_ascii? hcs]
    exact hrun
  · cases hcode

/-- A comment up to the end of its line. -/
theorem isReadable_comment {s : String} {cs : List Char} (hs : s.toList = ['/', '/'] ++ cs)
    (hnewline : '\n' ∉ cs) (hreturn : '\r' ∉ cs) : IsReadable [.text s] := by
  refine fun indent => ⟨[], ?_⟩
  have hline : '\r' ∉ '/' :: '/' :: (cs ++ ['\n']) := by simp [hreturn]
  have hread := Lexer.run_lineComment hnewline
  rw [Lexer.hasBareReturn_of_notMem hline] at hread
  rw [Row, printed_text, hs]
  exact hread

/-- Plain text stays on its line. -/
theorem newline_notMem_of_isPlainText {s : String} (h : IsPlainText s) :
    '\n' ∉ s.toList ∧ '\r' ∉ s.toList :=
  ⟨fun hmem => absurd (h _ hmem) (by decide), fun hmem => absurd (h _ hmem) (by decide)⟩

theorem isReadable_documentation {text : String} (h : IsPlainText text) :
    IsReadable (documentation text) := by
  obtain ⟨hnewline, hreturn⟩ := newline_notMem_of_isPlainText h
  have hhead : text.toList.head? ≠ some '/' := fun heq =>
    absurd (h _ (List.mem_of_head? heq)) (by decide)
  have hline : documentation text = [.text ("///" ++ .ofList (trimEnd text.toList))] := by
    simp [documentation, hnewline, hhead]
  obtain ⟨n, htrim⟩ := Lexer.exists_trimEnd_append text.toList
  have hprinted : ("///" ++ String.ofList (trimEnd text.toList)).toList =
      ['/', '/'] ++ ('/' :: trimEnd text.toList) := by simp
  rw [htrim] at hnewline hreturn
  rw [hline]
  exact isReadable_comment hprinted
    (List.not_mem_cons_of_ne_of_not_mem (by decide) fun hmem =>
      hnewline (List.mem_append_left _ hmem))
    (List.not_mem_cons_of_ne_of_not_mem (by decide) fun hmem =>
      hreturn (List.mem_append_left _ hmem))

attribute [simp] isReadable_block isReadable_of_isPlain isReadable_of_isCode
  isReadable_documentation

-- ── Calls ──

theorem widthAll_append (xs ys : List Doc) : widthAll (xs ++ ys) = widthAll xs + widthAll ys := by
  induction xs with
  | nil => rw [List.nil_append, widthAll, Nat.zero_add]
  | cons d rest ih => rw [List.cons_append, widthAll, widthAll, ih, Nat.add_assoc]

/-- Whether a call goes to a line of its own. -/
def callBreaks (tail column : Nat) (value : Line) (method : String) : Bool :=
  !decide (column + (widthAll value + method.utf8ByteSize) + tail ≤ lineWidth)

theorem layout_call (indent tail column : Nat) (broken : Bool) (value : Line) (method : String) :
    (layout indent broken tail column (call value method)).1 =
      (layoutAll (indent + step) (callBreaks tail column value method) 0 column value).1 ++
        ((if callBreaks tail column value method then newline (indent + step) else []) ++
          method.toList) := by
  have hwidth : widthAll [.nest (value ++ ([.soft "" "", .text method] : Line))] =
      widthAll value + method.utf8ByteSize := by
    simp [widthAll, width, widthAll_append]
  have hend : follow ([.soft "" "", .text method] : Line) (follow ([] : Line) tail) = 0 := rfl
  have hbreaks : (!decide (column + (widthAll value + method.utf8ByteSize) + tail ≤ lineWidth ∧
      (none : Option Nat).all (widthAll value + method.utf8ByteSize ≤ ·) = true)) =
        callBreaks tail column value method := by
    simp [callBreaks]
  rw [call, layout, hwidth, hbreaks, layoutAll_cons, layout, layoutAll_append, hend,
    layoutAll_cons, layoutAll_cons, layout, layout, layoutAll]
  cases callBreaks tail column value method <;> simp [layoutAll]

/-- A line with a field and a call that gives its value. -/
theorem printed_call (indent : Nat) (name : String) (value : Line) (method : String) :
    printed indent [.text name, call value method, ","] =
      let taken := callBreaks 1 (indent + name.utf8ByteSize) value method
      name.toList ++
        ((layoutAll (indent + step) taken 0 (indent + name.utf8ByteSize) value).1 ++
          ((if taken then newline (indent + step) else []) ++ (method.toList ++ [',']))) := by
  have hend : follow ([","] : Line) 0 = 1 := rfl
  rw [printed, layoutAll_cons, layoutAll_cons, layout_call, layout, hend, layoutAll_cons, layout,
    layoutAll]
  simp

/-- The argument of a call goes to a line of its own, and a comma follows it, if it is wide. -/
theorem layout_argument (indent tail column : Nat) (broken : Bool) (s : String) :
    (layout indent broken tail column (arguments [.text s])).1 =
      if column + (s.utf8ByteSize + 2) + tail ≤ lineWidth then '(' :: (s.toList ++ [')'])
      else
        '(' :: (newline (indent + step) ++ (s.toList ++ (',' :: (newline indent ++ [')'])))) := by
  have harguments : arguments [.text s] =
      .group none [.text "(", .nest [.soft "" "", .text s], .soft "" ",", .text ")"] := rfl
  have hwidth : widthAll [.text "(", .nest [.soft "" "", .text s], .soft "" ",", .text ")"] =
      s.utf8ByteSize + 2 := by
    have hopen : "(".utf8ByteSize = 1 := rfl
    have hclose : ")".utf8ByteSize = 1 := rfl
    simp [widthAll, width, hopen, hclose]
    omega
  rw [harguments, layout, hwidth]
  by_cases hfits : column + (s.utf8ByteSize + 2) + tail ≤ lineWidth
  · simp [hfits, layout, layoutAll]
  · simp [hfits, layout, layoutAll]

-- ── Literals in calls ──

theorem run_newline (n : Nat) : run (.code []) (newline n) = some ([], .code []) :=
  Lexer.run_cons_eq (t := []) rfl (Lexer.run_spaces n)

theorem run_closed_newline (n : Nat) : run .closed (newline n) = some ([], .code []) :=
  Lexer.run_cons_eq (t := []) rfl (Lexer.run_spaces n)

/-- A break that is taken or not is no token. -/
theorem run_break {s s' : Lexer.State} {xs : List Char} {ts : List Token} (taken : Bool)
    {indent : Nat} (hnewline : run s (newline indent) = some ([], .code []))
    (hflat : run s xs = some (ts, s')) (hbroken : run (.code []) xs = some (ts, s')) :
    run s ((if taken then newline indent else []) ++ xs) = some (ts, s') := by
  cases taken with
  | false => exact hflat
  | true => exact Lexer.run_append_eq (t := []) hnewline hbroken

/-- A line that gives a field a text. -/
theorem row_literal {n : String} {ts : List Token} (s : String) (indent : Nat)
    (hname : run (.code []) n.toList = some (ts, .code [])) :
    Row indent [.text n, call [.text (Text.quoteStrict s)] ".to_string()", ","]
      (ts ++ [.literal, .sign '.', .word "to_string".toList, .sign '(', .sign ')', .sign ',']) := by
  have hbehind (taken : Bool) :
      run .closed ((if taken then newline (indent + step) else []) ++ ".to_string(),\n".toList) =
        some ([.sign '.', .word "to_string".toList, .sign '(', .sign ')', .sign ','], .code []) :=
    run_break taken (run_closed_newline _) rfl rfl
  rw [Row, printed_call]
  dsimp only
  generalize callBreaks _ _ _ _ = taken
  have hline : n.toList ++
      ((layoutAll (indent + step) taken 0 (indent + n.utf8ByteSize)
          [.text (Text.quoteStrict s)]).1 ++
        ((if taken then newline (indent + step) else []) ++ (".to_string()".toList ++ [',']))) ++
        ['\n'] =
      n.toList ++ ((Text.quoteStrict s).toList ++
        ((if taken then newline (indent + step) else []) ++ ".to_string(),\n".toList)) := by
    simp [layout, layoutAll]
  rw [hline]
  exact Lexer.run_append_eq hname
    (Lexer.run_append_eq (t := [.literal]) (Lexer.run_quoteStrict s) (hbehind taken))

/-- A literal on a line of its own, with a comma. -/
theorem run_argument (s : String) (inner outer : Nat) :
    run (.code []) (newline inner ++
        ((Text.quoteStrict s).toList ++ (',' :: (newline outer ++ [')'])))) =
      some ([.literal, .sign ',', .sign ')'], .code []) := by
  have hcomma : run .closed [','] = some ([.sign ','], .code []) := rfl
  have hclose : run (.code []) [')'] = some ([.sign ')'], .code []) := rfl
  have hbehind := Lexer.run_append_eq hcomma (Lexer.run_append_eq (run_newline outer) hclose)
  exact Lexer.run_append_eq (run_newline inner)
    (Lexer.run_append_eq (Lexer.run_quoteStrict s) hbehind)

end ModelCatalog.Scaffold
