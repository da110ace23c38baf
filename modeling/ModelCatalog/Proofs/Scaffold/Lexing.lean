import ModelCatalog.Identifier
import ModelCatalog.Proofs.Text.Literals

/-! # Taking code apart

    A reader of Rust code that gives its tokens.  It goes through the code character by character
    (`step`), so what it does with a text is what it does with one part after the other
    (`run_append_eq`).  Comments give no token, and of a literal it is only told that one stands
    there.

    The reader is strict: it refuses some of what the rules allow but generated code has no use for,
    such as character literals, prefixes and suffixes of literals, a slash that begins no comment,
    and a carriage return anywhere but at the end of a line in a comment.  What it does with code
    that holds no literal and no comment is `run_plain`, with a literal `run_quoteStrict`, and with
    a comment up to the end of its line `run_line`. -/

namespace ModelCatalog.Lexer

open Text (LiteralState)

inductive Token where
  /-- A name, a keyword or a number. -/
  | word (s : List Char)
  | sign (c : Char)
  /-- A string literal, whatever it says. -/
  | literal
  deriving DecidableEq, Repr

/-- The characters that are tokens of their own. -/
def signs : List Char :=
  [';', ',', '.', '(', ')', '\x7b', '\x7d', '[', ']', '@', '#', '~', '?', ':', '$', '=', '!', '<',
   '>', '-', '&', '|', '+', '*', '^', '%']

/-- Half of a mark that opens or closes a comment. -/
inductive Half where
  | neither
  | slash
  | star
  deriving DecidableEq, Repr

deriving instance DecidableEq for LiteralState

/-- Where a reader stands. -/
inductive State where
  /-- In code, behind these characters of a word. -/
  | code (word : List Char)
  /-- Behind a slash that begins a comment. -/
  | slash
  /-- In a comment that ends with its line. -/
  | line
  /-- There, behind a carriage return. -/
  | lineReturn
  /-- In a comment between marks, and in so many others inside it. -/
  | block (depth : Nat) (half : Half)
  /-- There, behind a carriage return. -/
  | blockReturn (depth : Nat)
  | literal (state : LiteralState)
  /-- Behind the quote that closes a literal. -/
  | closed
  deriving DecidableEq

/-- What a character does to the marks of comments, unless it closes the outermost one. -/
def nest (depth : Nat) (half : Half) (c : Char) : Option (Nat × Half) :=
  if half = .star ∧ c = '/' then
    match depth with
    | 0 => none
    | depth + 1 => some (depth, .neither)
  else if half = .slash ∧ c = '*' then some (depth + 1, .neither)
  else if c = '/' then some (depth, .slash)
  else if c = '*' then some (depth, .star)
  else some (depth, .neither)

/-- The token of a word, if there is one. -/
def flush (word : List Char) : List Token := if word.isEmpty then [] else [.word word]

def stepCode (word : List Char) (c : Char) : Option (List Token × State) :=
  if Identifier.isWordChar c then some ([], .code (word ++ [c]))
  else if c = ' ' ∨ c = '\n' then some (flush word, .code [])
  else if c = '/' then some (flush word, .slash)
  else if c = '"' ∧ word = [] then some ([.literal], .literal .plain)
  else if c = '#' ∧ word ≠ [] then none
  else if c ∈ signs then some (flush word ++ [.sign c], .code [])
  else none

/-- The tokens that are complete with a character, and where it leads; or the reader refuses it. -/
def step : State → Char → Option (List Token × State)
  | .code word, c => stepCode word c
  | .slash, c =>
    if c = '/' then some ([], .line) else if c = '*' then some ([], .block 0 .neither) else none
  | .line, c =>
    if c = '\n' then some ([], .code [])
    else if c = '\r' then some ([], .lineReturn)
    else some ([], .line)
  | .lineReturn, c => if c = '\n' then some ([], .code []) else none
  | .block depth half, c =>
    if c = '\r' then some ([], .blockReturn depth)
    else
      match nest depth half c with
      | none => some ([], .code [])
      | some (depth, half) => some ([], .block depth half)
  | .blockReturn depth, c => if c = '\n' then some ([], .block depth .neither) else none
  | .literal state, c =>
    match Text.step state c with
    | .refused => none
    | .closed => some ([], .closed)
    | .silent state => some ([], .literal state)
    | .gives _ => some ([], .literal .plain)
  -- a word would be a suffix of the literal
  | .closed, c => if Identifier.isWordChar c then none else stepCode [] c

def run : State → List Char → Option (List Token × State)
  | s, [] => some ([], s)
  | s, c :: rest =>
    match step s c with
    | none => none
    | some (ts, s') => (run s' rest).map fun (us, s'') => (ts ++ us, s'')

/-- The tokens of code, unless it is refused or ends inside a comment or a literal. -/
def lex (code : List Char) : Option (List Token) :=
  match run (.code []) code with
  | some (ts, .code word) => some (ts ++ flush word)
  | some (ts, .closed) => some ts
  | _ => none

/-- Whether a text has a carriage return that is not followed by the end of the line. -/
def hasBareReturn : List Char → Bool
  | [] => false
  | c :: rest => (c == '\r' && rest.head? != some '\n') || hasBareReturn rest

-- ── Part after part ──

theorem run_append (s : State) (xs ys : List Char) :
    run s (xs ++ ys) =
      (run s xs).bind fun read => (run read.2 ys).map fun next => (read.1 ++ next.1, next.2) := by
  induction xs generalizing s with
  | nil => exact Option.map_id'.symm
  | cons c rest ih =>
      rw [List.cons_append, run, run]
      cases step s c with
      | none => rfl
      | some next =>
          dsimp only
          rw [ih]
          cases run next.2 rest with
          | none => rfl
          | some read =>
              rw [Option.bind_some, Option.map_map, Option.map_some, Option.bind_some]
              refine congrArg (Option.map · _) (funext fun behind => ?_)
              exact Prod.ext (List.append_assoc _ _ _).symm rfl

theorem run_append_eq {s s' s'' : State} {xs ys : List Char} {t u : List Token}
    (hx : run s xs = some (t, s')) (hy : run s' ys = some (u, s'')) :
    run s (xs ++ ys) = some (t ++ u, s'') := by
  rw [run_append, hx, Option.bind_some]
  dsimp only
  rw [hy, Option.map_some]

theorem run_cons_eq {s s' s'' : State} {c : Char} {rest : List Char} {t u : List Token}
    (hstep : step s c = some (t, s')) (hrest : run s' rest = some (u, s'')) :
    run s (c :: rest) = some (t ++ u, s'') := by
  rw [run, hstep]
  dsimp only
  rw [hrest, Option.map_some]

/-- A character that completes no token changes where the reader stands, and nothing else. -/
theorem run_cons_of_silent {s s' : State} {c : Char} (hstep : step s c = some ([], s'))
    (rest : List Char) : run s (c :: rest) = run s' rest := by
  rw [run, hstep]
  exact Option.map_id'

theorem run_append_of_silent {s s' : State} {xs : List Char} (hx : run s xs = some ([], s'))
    (ys : List Char) : run s (xs ++ ys) = run s' ys := by
  rw [run_append, hx, Option.bind_some]
  exact Option.map_id'

/-- Text is refused if a part of it is, behind what is read. -/
theorem run_append_eq_none {s s' : State} {xs ys : List Char} {t : List Token}
    (hx : run s xs = some (t, s')) (hy : run s' ys = none) : run s (xs ++ ys) = none := by
  rw [run_append, hx, Option.bind_some]
  dsimp only
  rw [hy, Option.map_none]

theorem run_append_of_none {s : State} {xs : List Char} (hx : run s xs = none) (ys : List Char) :
    run s (xs ++ ys) = none := by
  rw [run_append, hx, Option.bind_none]

/-- A character that is no carriage return says nothing of bare ones. -/
theorem hasBareReturn_cons {c : Char} (hc : c ≠ '\r') (rest : List Char) :
    hasBareReturn (c :: rest) = hasBareReturn rest := by
  rw [hasBareReturn, beq_false_of_ne hc, Bool.false_and, Bool.false_or]

/-- A carriage return is bare unless the line ends behind it. -/
theorem hasBareReturn_return (rest : List Char) :
    hasBareReturn ('\r' :: rest) = (rest.head? != some '\n' || hasBareReturn rest) := rfl

/-- A text without carriage returns has no bare one. -/
theorem hasBareReturn_of_notMem {xs : List Char} (h : '\r' ∉ xs) : hasBareReturn xs = false := by
  induction xs with
  | nil => rfl
  | cons c rest ih =>
      rw [List.mem_cons, not_or] at h
      rw [hasBareReturn_cons (Ne.symm h.1), ih h.2]

-- ── Code ──

/-- Whether a character is read in code wherever it stands on a line. -/
def isPlain (c : Char) : Bool :=
  Identifier.isWordChar c || c == ' ' || (signs.contains c && c != '#')

theorem step_code_of_isPlain {c : Char} (h : c = '\n' ∨ isPlain c = true) (word : List Char) :
    ∃ ts word', step (.code word) c = some (ts, .code word') := by
  rw [step, stepCode]
  by_cases hword : Identifier.isWordChar c = true
  · exact ⟨_, _, if_pos hword⟩
  · by_cases hspace : c = ' ' ∨ c = '\n'
    · exact ⟨_, _, by rw [if_neg hword, if_pos hspace]⟩
    · rw [not_or] at hspace
      have hsign : c ∈ signs ∧ c ≠ '#' := by simpa [isPlain, hword, hspace] using h
      have hslash : c ≠ '/' := fun heq => absurd (heq ▸ hsign.1) (by decide)
      have hquote : c ≠ '"' := fun heq => absurd (heq ▸ hsign.1) (by decide)
      refine ⟨flush word ++ [.sign c], [], ?_⟩
      rw [if_neg hword, if_neg (by simp [hspace]), if_neg hslash, if_neg (by simp [hquote]),
        if_neg (by simp [hsign.2]), if_pos hsign.1]

/-- **Plain code is read** wherever it stands. -/
theorem run_plain {xs : List Char} (h : ∀ c ∈ xs, c = '\n' ∨ isPlain c = true)
    (word : List Char) :
    ∃ ts word', run (.code word) xs = some (ts, .code word') := by
  induction xs generalizing word with
  | nil => exact ⟨[], word, rfl⟩
  | cons c rest ih =>
      obtain ⟨hc, hrest⟩ := List.forall_mem_cons.1 h
      obtain ⟨ts, next, hstep⟩ := step_code_of_isPlain hc word
      obtain ⟨us, last, hrun⟩ := ih hrest next
      exact ⟨ts ++ us, last, run_cons_eq hstep hrun⟩

theorem run_spaces (n : Nat) : run (.code []) (List.replicate n ' ') = some ([], .code []) := by
  induction n with
  | zero => rfl
  | succ n ih => exact run_cons_eq (t := []) rfl ih

-- ── Literals ──

/-- A literal that can be read is one for the reader of code, too. -/
theorem run_literal {state : LiteralState} {xs text : List Char}
    (h : Text.readFrom state xs = some (text, [])) :
    run (.literal state) xs = some ([], .closed) := by
  induction xs generalizing state text with
  | nil => cases h
  | cons c rest ih =>
      rw [Text.readFrom] at h
      rw [run, step]
      cases hstep : Text.step state c with
      | refused =>
          rw [hstep] at h
          cases h
      | closed =>
          rw [hstep] at h
          obtain rfl : rest = [] := (Prod.mk.inj (Option.some.inj h)).2
          rfl
      | silent next =>
          rw [hstep] at h
          dsimp only
          rw [ih h]
          rfl
      | gives out =>
          rw [hstep] at h
          obtain ⟨⟨s, behind⟩, hrest, hresult⟩ := Option.map_eq_some_iff.1 h
          obtain rfl : behind = [] := (Prod.mk.inj hresult).2
          dsimp only
          rw [ih hrest]
          rfl

/-- What is quoted strictly is read back. -/
theorem readFrom_escapeStrict (s rest : List Char) :
    Text.readFrom .plain (Text.escapeStrict s ++ '"' :: rest) = some (s, rest) := by
  induction s with
  | nil => rfl
  | cons c s ih =>
      rw [Text.escapeStrict]
      split
      · next hnull =>
        rw [Bool.and_eq_true] at hnull
        rw [eq_of_beq hnull.1, List.append_assoc]
        -- four characters for NUL, before a digit
        have hbyte : Text.readFrom .plain
            (['\\', 'x', '0', '0'] ++ (Text.escapeStrict s ++ '"' :: rest))
              = (Text.readFrom .plain (Text.escapeStrict s ++ '"' :: rest)).map
                fun read => ('\x00' :: read.1, read.2) := rfl
        rw [hbyte, ih]
        rfl
      · rw [List.append_assoc, Text.readFrom_escapeChar, ih]
        rfl

/-- **A literal is one token**, whatever it says. -/
theorem run_quoteStrict (s : String) :
    run (.code []) (Text.quoteStrict s).toList = some ([.literal], .closed) := by
  have hquote : (Text.quoteStrict s).toList = '"' :: (Text.escapeStrict s.toList ++ ['"']) := by
    rw [Text.quoteStrict, String.toList_ofList, List.cons_append]
  rw [hquote]
  exact run_cons_eq (t := [.literal]) rfl (run_literal (readFrom_escapeStrict s.toList []))

/-- No carriage return is written into a literal as it is. -/
theorem return_notMem_quoteStrict (s : String) : '\r' ∉ (Text.quoteStrict s).toList := by
  have hinside : ∀ cs, '\r' ∉ Text.escapeStrict cs := by
    intro cs
    induction cs with
    | nil => exact List.not_mem_nil
    | cons c cs ih =>
        rw [Text.escapeStrict]
        split
        · rw [List.mem_append, not_or]
          exact ⟨by decide, ih⟩
        · rw [List.mem_append, not_or]
          exact ⟨Text.notMem_escapeChar (.inr rfl) c, ih⟩
  rw [Text.quoteStrict, String.toList_ofList, List.mem_append, List.mem_cons, not_or, not_or]
  exact ⟨⟨by decide, hinside _⟩, by decide⟩

-- ── Comments ──

/-- **A comment goes to the end of its line**, and is refused if there is a bare return in it. -/
theorem run_line {xs : List Char} (hnewline : '\n' ∉ xs) :
    run .line (xs ++ ['\n']) =
      if hasBareReturn (xs ++ ['\n']) then none else some ([], .code []) := by
  induction xs with
  | nil => rfl
  | cons c rest ih =>
      rw [List.mem_cons, not_or] at hnewline
      have hc : ¬ c = '\n' := fun heq => hnewline.1 heq.symm
      rw [List.cons_append]
      by_cases hreturn : c = '\r'
      · rw [hreturn]
        cases rest with
        | nil => rfl
        | cons d rest =>
            -- only the end of the line could follow
            have hd : ¬ d = '\n' := fun heq => hnewline.2 (heq ▸ List.mem_cons_self)
            rw [hasBareReturn_return, run_cons_of_silent rfl, List.cons_append, run, step, if_neg hd]
            simp [hd]
      · rw [hasBareReturn_cons hreturn, ← ih hnewline.2]
        exact run_cons_of_silent (by rw [step, if_neg hc, if_neg hreturn]) _

end ModelCatalog.Lexer
