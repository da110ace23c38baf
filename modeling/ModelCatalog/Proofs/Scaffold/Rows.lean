import ModelCatalog.Proofs.Scaffold.Comments

/-! # Rows of code

    A scaffold is a list of lines, and lines have further lines inside when they are blocks.  Each
    line, with the end of the line behind it, begins and ends in code, so a reader takes the lines
    one by one (`Row`), and a block is read as what opens it, its lines, and what closes it
    (`row_block`).  How wide the lines get decides where they are broken, which matters to the
    tokens in one way only: a list that is broken has a comma behind its last item.  For code
    without literals and comments it is enough that each of its characters can be read
    (`isReadable_of_isPlain`), and the breaks need not be known. -/

namespace ModelCatalog.Doc

-- ── Layout of parts ──

theorem leadAll_append (xs ys : List Doc) :
    leadAll (xs ++ ys) =
      if (leadAll xs).2 then leadAll xs
      else ((leadAll xs).1 + (leadAll ys).1, (leadAll ys).2) := by
  induction xs with
  | nil => simp [leadAll]
  | cons d rest ih =>
      rw [List.cons_append, leadAll, leadAll]
      obtain ⟨n, ended⟩ := lead d
      cases ended with
      | true => rfl
      | false =>
          dsimp only
          rw [ih]
          by_cases hended : (leadAll rest).2 = true
          · rw [if_pos hended, if_pos hended]
          · rw [if_neg hended, if_neg hended, Nat.add_assoc]

theorem follow_append (xs ys : List Doc) (tail : Nat) :
    follow (xs ++ ys) tail = follow xs (follow ys tail) := by
  rw [follow, follow, follow, leadAll_append]
  obtain ⟨n, ended⟩ := leadAll xs
  obtain ⟨m, ended'⟩ := leadAll ys
  cases ended <;> cases ended' <;> simp [Nat.add_assoc]

theorem layoutAll_cons (indent : Nat) (broken : Bool) (tail column : Nat) (d : Doc)
    (rest : List Doc) :
    layoutAll indent broken tail column (d :: rest) =
      ((layout indent broken (follow rest tail) column d).1 ++
        (layoutAll indent broken tail
          (layout indent broken (follow rest tail) column d).2 rest).1,
       (layoutAll indent broken tail
          (layout indent broken (follow rest tail) column d).2 rest).2) :=
  rfl

theorem layoutAll_append (indent : Nat) (broken : Bool) (tail column : Nat) (xs ys : List Doc) :
    layoutAll indent broken tail column (xs ++ ys) =
      ((layoutAll indent broken (follow ys tail) column xs).1 ++
        (layoutAll indent broken tail
          (layoutAll indent broken (follow ys tail) column xs).2 ys).1,
       (layoutAll indent broken tail
          (layoutAll indent broken (follow ys tail) column xs).2 ys).2) := by
  induction xs generalizing column with
  | nil => rfl
  | cons d rest ih =>
      rw [List.cons_append, layoutAll_cons, layoutAll_cons, follow_append, ih, List.append_assoc]

mutual

/-- All characters of the texts of a document are such. -/
def AllChars (f : Char → Prop) : Doc → Prop
  | .text s => ∀ c ∈ s.toList, f c
  | .line | .pause => True
  | .soft flat closing => (∀ c ∈ flat.toList, f c) ∧ ∀ c ∈ closing.toList, f c
  | .nest parts => AllCharsOf f parts
  | .group _ parts => AllCharsOf f parts

def AllCharsOf (f : Char → Prop) : List Doc → Prop
  | [] => True
  | d :: rest => AllChars f d ∧ AllCharsOf f rest

end

theorem forall_mem_newline {f : Char → Prop} (hspace : f ' ') (indent : Nat) :
    ∀ c ∈ newline indent, c = '\n' ∨ f c := by
  intro c hc
  rcases List.mem_cons.1 hc with hend | hc
  · exact .inl hend
  · rw [(List.mem_replicate.1 hc).2]
    exact .inr hspace

mutual

/-- Layout adds the ends of lines and spaces to the texts, and nothing else. -/
theorem forall_mem_layout {f : Char → Prop} (hspace : f ' ')
    (indent : Nat) (broken : Bool) (tail column : Nat) :
    ∀ d, AllChars f d → ∀ c ∈ (layout indent broken tail column d).1, c = '\n' ∨ f c
  | .text _, h => fun c hc => .inr (h c hc)
  | .line, _ => forall_mem_newline hspace indent
  | .pause, _ => nofun
  | .soft _ closing, h => by
      cases broken with
      | true =>
          rw [layout, if_pos rfl, List.forall_mem_append]
          exact ⟨fun c hc => .inr (h.2 c hc), forall_mem_newline hspace indent⟩
      | false => exact fun c hc => .inr (h.1 c hc)
  | .nest parts, h => forall_mem_layoutAll hspace (indent + step) broken tail column parts h
  | .group _ parts, h => forall_mem_layoutAll hspace indent _ tail column parts h

theorem forall_mem_layoutAll {f : Char → Prop} (hspace : f ' ')
    (indent : Nat) (broken : Bool) (tail column : Nat) :
    ∀ ds, AllCharsOf f ds → ∀ c ∈ (layoutAll indent broken tail column ds).1, c = '\n' ∨ f c
  | [], _ => nofun
  | d :: rest, h => by
      rw [layoutAll_cons, List.forall_mem_append]
      exact ⟨forall_mem_layout hspace indent broken _ column d h.1,
        forall_mem_layoutAll hspace indent broken tail _ rest h.2⟩

end

end ModelCatalog.Doc

namespace ModelCatalog.Scaffold

open Doc
open Lexer (Token hasBareReturn run isPlain)

-- ── Lines one by one ──

/-- What a line is printed as, without the end of the line. -/
def printed (indent : Nat) (l : Line) : List Char := (layoutAll indent true 0 indent l).1

/-- Lines as they are printed. -/
def rows (indent : Nat) (ls : List Line) : List Char :=
  ls.flatMap fun l => List.replicate indent ' ' ++ (printed indent l ++ ['\n'])

theorem toList_render (ls : List Line) : (render ls).toList = rows 0 ls := by
  rw [render, String.toList_ofList]
  induction ls with
  | nil => rfl
  | cons l rest ih =>
      have hend (tail : List Doc) : layoutAll 0 true (follow (.line :: tail) 0) 0 l =
          layoutAll 0 true 0 0 l := rfl
      rw [List.flatMap_cons, List.append_assoc, List.singleton_append, layoutAll_append, hend,
        layoutAll_cons, layout, ih]
      simp [rows, printed, newline]

/-- The lines of a block start with the end of the line before them. -/
theorem layoutAll_lines (indent column : Nat) (body : List Line) :
    (layoutAll indent true 0 column (body.flatMap (.line :: ·))).1 =
      body.flatMap fun l => newline indent ++ printed indent l := by
  induction body generalizing column with
  | nil => rfl
  | cons l rest ih =>
      have hend : follow (rest.flatMap (.line :: ·)) 0 = 0 := by
        cases rest <;> rfl
      rw [List.flatMap_cons, List.flatMap_cons, List.cons_append, layoutAll_cons, layout,
        layoutAll_append, hend, ih, printed, List.append_assoc]

theorem lines_append_newline (inner outer : Nat) (body : List Line) :
    (body.flatMap fun l => newline inner ++ printed inner l) ++ newline outer =
      '\n' :: (rows inner body ++ List.replicate outer ' ') := by
  induction body with
  | nil => rfl
  | cons l rest ih =>
      rw [List.flatMap_cons, List.append_assoc, ih]
      simp [newline, rows]

/-- What opens a block, as it is printed. -/
def opened (indent : Nat) (head : Line) : List Char :=
  (layoutAll indent true 2 indent head).1 ++ [' ', '\x7b', '\n']

theorem printed_block (indent : Nat) (head : Line) (body : List Line) :
    printed indent (block head body) =
      opened indent head ++
        (rows (indent + step) body ++ (List.replicate indent ' ' ++ ['\x7d'])) := by
  have hopen :
      follow ([" \x7b", .nest (body.flatMap (.line :: ·)), .line, "\x7d"] : Line) 0 = 2 := by
    cases body <;> rfl
  have hclose : follow ([.line, "\x7d"] : Line) 0 = 0 := rfl
  have hlines := lines_append_newline (indent + step) indent body
  rw [printed, block, layoutAll_append, hopen, layoutAll_cons, layoutAll_cons, layout, layout,
    hclose, layoutAll_lines, layoutAll_cons, layout, layoutAll_cons, layout, layoutAll]
  dsimp only
  rw [← List.append_assoc _ (newline indent), hlines, opened, List.append_assoc]
  simp

-- ── Lines that are read ──

/-- A line, with the end of the line behind it, gives these tokens. -/
def Row (indent : Nat) (l : Line) (ts : List Token) : Prop :=
  run (.code []) (printed indent l ++ ['\n']) = some (ts, .code [])

/-- Lines that give these tokens, one after the other. -/
inductive Rows (indent : Nat) : List Line → List Token → Prop where
  | nil : Rows indent [] []
  | cons {l : Line} {ls : List Line} {ts us : List Token} :
      Row indent l ts → Rows indent ls us → Rows indent (l :: ls) (ts ++ us)

theorem Rows.append {indent : Nat} {ls ms : List Line} {ts us : List Token}
    (hls : Rows indent ls ts) (hms : Rows indent ms us) : Rows indent (ls ++ ms) (ts ++ us) := by
  induction hls with
  | nil => exact hms
  | cons hl _ ih =>
      rw [List.cons_append, List.append_assoc]
      exact .cons hl ih

theorem Rows.run_eq {indent : Nat} {ls : List Line} {ts : List Token} (h : Rows indent ls ts) :
    run (.code []) (rows indent ls) = some (ts, .code []) := by
  induction h with
  | nil => rfl
  | @cons l ls ts us hl _ ih =>
      have hrows : rows indent (l :: ls) =
          List.replicate indent ' ' ++ ((printed indent l ++ ['\n']) ++ rows indent ls) := by
        simp [rows]
      rw [hrows]
      exact Lexer.run_append_eq (t := []) (Lexer.run_spaces indent) (Lexer.run_append_eq hl ih)

/-- **A block is read line by line.** -/
theorem row_block {indent : Nat} {head : Line} {body : List Line} {ts us : List Token}
    (hhead : run (.code []) (opened indent head) = some (ts, .code []))
    (hbody : Rows (indent + step) body us) :
    Row indent (block head body) (ts ++ us ++ [.sign '\x7d']) := by
  have hprinted : printed indent (block head body) ++ ['\n'] =
      opened indent head ++
        (rows (indent + step) body ++ (List.replicate indent ' ' ++ ['\x7d', '\n'])) := by
    simp [printed_block]
  have hclose : run (.code []) (List.replicate indent ' ' ++ ['\x7d', '\n']) =
      some ([.sign '\x7d'], .code []) :=
    Lexer.run_append_eq (Lexer.run_spaces indent) (t := []) rfl
  rw [Row, hprinted, List.append_assoc]
  exact Lexer.run_append_eq hhead (Lexer.run_append_eq hbody.run_eq hclose)

theorem printed_text (indent : Nat) (s : String) : printed indent [.text s] = s.toList := by
  rw [printed, layoutAll_cons, layout, layoutAll, List.append_nil]

/-- What documents the code is refused if it is printed with a bare return, and read if not. -/
theorem run_row_documentation (indent : Nat) (text : String) :
    run (.code []) (printed indent (documentation text) ++ ['\n']) =
      if hasBareReturn (render [documentation text]).toList then none
      else some (Lexer.documentationTokens text, .code []) := by
  obtain ⟨s, hs, hrun⟩ := Lexer.run_documentation text
  have hprinted : (render [[.text s]]).toList = s.toList ++ ['\n'] := by
    simp [toList_render, rows, printed_text]
  rw [hs, hprinted, printed_text, hrun]

theorem row_documentation (indent : Nat) {text : String}
    (h : hasBareReturn (render [documentation text]).toList = false) :
    Row indent (documentation text) (Lexer.documentationTokens text) := by
  rw [Row, run_row_documentation, h]
  rfl

-- ── Lines that are refused ──

/-- A line is refused where code can begin. -/
def IsRefused (indent : Nat) (l : Line) : Prop :=
  run (.code []) (printed indent l ++ ['\n']) = none

/-- Lines are refused if one of them is, behind lines that are read. -/
theorem IsRefused.run_rows {indent : Nat} {front back : List Line} {l : Line} {ts : List Token}
    (h : IsRefused indent l) (hfront : Rows indent front ts) :
    run (.code []) (rows indent (front ++ l :: back)) = none := by
  have hrows : rows indent (front ++ l :: back) = rows indent front ++
      (List.replicate indent ' ' ++ ((printed indent l ++ ['\n']) ++ rows indent back)) := by
    simp [rows]
  rw [hrows]
  exact Lexer.run_append_eq_none hfront.run_eq
    (Lexer.run_append_eq_none (Lexer.run_spaces indent) (Lexer.run_append_of_none h _))

/-- **A block is refused if its lines are.** -/
theorem isRefused_block {indent : Nat} {head : Line} {body : List Line} {ts : List Token}
    (hhead : run (.code []) (opened indent head) = some (ts, .code []))
    (hbody : run (.code []) (rows (indent + step) body) = none) :
    IsRefused indent (block head body) := by
  rw [IsRefused, printed_block, List.append_assoc, List.append_assoc]
  exact Lexer.run_append_eq_none hhead (Lexer.run_append_of_none hbody _)

-- ── Lines that are plain ──

/-- A character that is read in code wherever it stands on a line. -/
abbrev IsPlain (c : Char) : Prop := isPlain c = true

/-- Lines of which it only matters that they are read, and not as which tokens. -/
def IsReadable (l : Line) : Prop := ∀ indent, ∃ ts, Row indent l ts

theorem exists_rows {ls : List Line} (h : ∀ l ∈ ls, IsReadable l) (indent : Nat) :
    ∃ ts, Rows indent ls ts := by
  induction ls with
  | nil => exact ⟨[], .nil⟩
  | cons l ls ih =>
      obtain ⟨hl, hls⟩ := List.forall_mem_cons.1 h
      obtain ⟨ts, hrow⟩ := hl indent
      obtain ⟨us, hrows⟩ := ih hls
      exact ⟨ts ++ us, .cons hrow hrows⟩

/-- **Plain code is read**, wherever its lines are broken. -/
theorem isReadable_of_isPlain {l : Line} (h : AllCharsOf IsPlain l) : IsReadable l := by
  intro indent
  have hall := forall_mem_layoutAll (f := IsPlain) rfl indent true 0 indent l h
  obtain ⟨ts, word, hrun⟩ := Lexer.run_plain hall []
  exact ⟨ts ++ Lexer.flush word, Lexer.run_append_eq hrun (by
    simp [run, Lexer.step, Lexer.stepCode, Identifier.isWordChar])⟩

/-- What opens a block is read if it is plain. -/
theorem exists_run_opened {head : Line} (h : AllCharsOf IsPlain head) (indent : Nat) :
    ∃ ts, run (.code []) (opened indent head) = some (ts, .code []) := by
  have hall := forall_mem_layoutAll (f := IsPlain) rfl indent true 2 indent head h
  obtain ⟨ts, word, hrun⟩ := Lexer.run_plain hall []
  exact ⟨ts ++ (Lexer.flush word ++ [.sign '\x7b']), Lexer.run_append_eq hrun (by
    simp [run, Lexer.step, Lexer.stepCode, Identifier.isWordChar, Lexer.signs, Lexer.flush])⟩

theorem isReadable_block {head : Line} {body : List Line}
    (hhead : AllCharsOf IsPlain head) (hbody : ∀ l ∈ body, IsReadable l) :
    IsReadable (block head body) := by
  intro indent
  obtain ⟨ts, hopened⟩ := exists_run_opened hhead indent
  obtain ⟨us, hrows⟩ := exists_rows hbody (indent + step)
  exact ⟨_, row_block hopened hrows⟩

end ModelCatalog.Scaffold
