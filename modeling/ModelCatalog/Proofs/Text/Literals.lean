import Mathlib.Data.Nat.Digits.Lemmas
import ModelCatalog.Text.Digits
import ModelCatalog.Text.Literal

/-! # Reading string literals

    A reader of literals that follows the rules of Rust: a quote closes the literal, a backslash
    starts an escape, and everything else stands for itself.  It goes through the literal character
    by character, and knows nothing of how `quote` chooses its escapes.

    The headline is `readLiteral_quote`: whatever text is quoted, and whatever follows, the reader
    gives the text back and stops right behind the closing quote.  Each kind of escape is a lemma of
    its own, and `readFrom_escapeChar` joins them. -/

namespace ModelCatalog.Text

-- ── The reader ──

/-- Where a reader stands inside a literal. -/
inductive LiteralState where
  /-- Between two characters. -/
  | plain
  /-- Behind a backslash. -/
  | escaped
  /-- Behind a backslash at the end of a line: the blanks that follow are no part of the text. -/
  | continued
  /-- In a code of two digits, behind these. -/
  | byte (digits : List Char)
  /-- Before the brace that opens a code. -/
  | opening
  /-- In a code between braces, behind these digits. -/
  | code (digits : List Char)

/-- What a character does to a reader. -/
inductive LiteralStep where
  /-- It is no part of a literal. -/
  | refused
  /-- It ends the literal. -/
  | closed
  /-- It stands for nothing by itself. -/
  | silent (state : LiteralState)
  /-- With it a character of the text is complete. -/
  | gives (c : Char)

/-- The character of a code point. -/
def charOf? (n : Nat) : Option Char := if n.isValidChar then some (Char.ofNat n) else none

def LiteralStep.ofChar? : Option Char → LiteralStep
  | some c => .gives c
  | none => .refused

def stepPlain (c : Char) : LiteralStep :=
  if c == '"' then .closed
  else if c == '\\' then .silent .escaped
  else if c == '\r' then .refused
  else .gives c

def stepEscaped : Char → LiteralStep
  | 'n' => .gives '\n'
  | 'r' => .gives '\r'
  | 't' => .gives '\t'
  | '0' => .gives '\x00'
  | '\\' => .gives '\\'
  | '"' => .gives '"'
  | '\'' => .gives '\''
  | 'x' => .silent (.byte [])
  | 'u' => .silent .opening
  | '\n' => .silent .continued
  | _ => .refused

/-- A code of two digits is the one of an ASCII character. -/
def stepByte (digits : List Char) (c : Char) : LiteralStep :=
  if (hexDigit? c).isNone then .refused
  else if digits.isEmpty then .silent (.byte [c])
  else .ofChar? ((hexadecimal? (digits ++ [c])).bind fun n => if n < 0x80 then charOf? n else none)

/-- A code between braces has one digit to six, and underscores anywhere but in front of them. -/
def stepCode (digits : List Char) (c : Char) : LiteralStep :=
  if (hexDigit? c).isSome then
    if digits.length < 6 then .silent (.code (digits ++ [c])) else .refused
  else if digits.isEmpty then .refused
  else if c == '_' then .silent (.code digits)
  else if c == '\x7d' then .ofChar? ((hexadecimal? digits).bind charOf?)
  else .refused

def step : LiteralState → Char → LiteralStep
  | .plain, c => stepPlain c
  | .escaped, c => stepEscaped c
  | .continued, c =>
    if c == ' ' || c == '\t' || c == '\n' || c == '\r' then .silent .continued else stepPlain c
  | .byte digits, c => stepByte digits c
  | .opening, c => if c == '\x7b' then .silent (.code []) else .refused
  | .code digits, c => stepCode digits c

/-- The text up to the closing quote, and what stands behind the quote. -/
def readFrom : LiteralState → List Char → Option (List Char × List Char)
  | _, [] => none
  | state, c :: rest =>
    match step state c with
    | .refused => none
    | .closed => some ([], rest)
    | .silent state' => readFrom state' rest
    | .gives out => (readFrom .plain rest).map fun (s, rest) => (out :: s, rest)

/-- The text of a literal, and what stands behind it. -/
def readLiteral : List Char → Option (List Char × List Char)
  | '"' :: rest => readFrom .plain rest
  | _ => none

-- ── Hexadecimal digits ──

theorem hexDigit?_digitChar {d : Nat} (h : d < 16) : hexDigit? d.digitChar = some d := by
  revert d
  decide

/-- The digits of a number are digits, and are read as the number. -/
theorem hexadecimal?_toDigits (n : Nat) :
    hexadecimal? (Nat.toDigits 16 n) = some n ∧
      ∀ c ∈ Nat.toDigits 16 n, (hexDigit? c).isSome = true := by
  induction n using Nat.strongRecOn with
  | ind n ih =>
    by_cases hn : n < 16
    · rw [Nat.toDigits_of_lt_base hn]
      refine ⟨?_, fun c hc => ?_⟩
      · simp [hexadecimal?, inBase?, hexDigit?_digitChar hn, hn]
      · rw [List.mem_singleton.1 hc, hexDigit?_digitChar hn]
        rfl
    · have hlast : n % 16 < 16 := Nat.mod_lt n (by decide)
      have hsplit : Nat.toDigits 16 n = Nat.toDigits 16 (n / 16) ++ [(n % 16).digitChar] := by
        rw [← Nat.toDigits_of_lt_base hlast,
          Nat.toDigits_append_toDigits (by decide) (by omega) hlast, Nat.div_add_mod]
      obtain ⟨hread, hdigits⟩ := ih (n / 16) (by omega)
      rw [hsplit]
      refine ⟨?_, fun c hc => ?_⟩
      · rw [hexadecimal?, inBase?] at hread ⊢
        rw [List.foldlM_append, hread]
        simp [hexDigit?_digitChar hlast, hlast, Nat.div_add_mod]
      · rcases List.mem_append.1 hc with hc | hc
        · exact hdigits c hc
        · rw [List.mem_singleton.1 hc, hexDigit?_digitChar hlast]
          rfl

/-- No code point has more than six digits. -/
theorem length_toDigits_le (c : Char) : (Nat.toDigits 16 c.toNat).length ≤ 6 := by
  rw [Nat.length_toDigits_le_iff (by decide) (by decide)]
  have hvalid : c.toNat.isValidChar := c.valid
  rcases hvalid with h | h <;> omega

theorem charOf?_toNat (c : Char) : charOf? c.toNat = some c := by
  have hvalid : c.toNat.isValidChar := c.valid
  rw [charOf?, if_pos hvalid, Char.ofNat_toNat]

-- ── Escapes ──

/-- Digits of a code are taken in, as long as there are at most six. -/
theorem readFrom_code {digits : List Char} (more rest : List Char)
    (hdigits : ∀ c ∈ more, (hexDigit? c).isSome = true)
    (hlength : digits.length + more.length ≤ 6) :
    readFrom (.code digits) (more ++ rest) = readFrom (.code (digits ++ more)) rest := by
  induction more generalizing digits with
  | nil => simp
  | cons c more ih =>
    have hstep : step (.code digits) c = .silent (.code (digits ++ [c])) := by
      rw [step, stepCode, if_pos (hdigits c List.mem_cons_self), if_pos]
      simp only [List.length_cons] at hlength
      omega
    rw [List.cons_append, readFrom, hstep]
    dsimp only
    rw [ih (fun d hd => hdigits d (List.mem_cons_of_mem c hd)), List.append_assoc,
      List.singleton_append]
    simp only [List.length_append, List.length_cons, List.length_nil] at hlength ⊢
    omega

/-- A character that is written by its code point. -/
theorem readFrom_escapeCode (c : Char) (rest : List Char) :
    readFrom .plain (escapeCode c ++ rest) =
      (readFrom .plain rest).map fun (s, rest) => (c :: s, rest) := by
  obtain ⟨hread, hdigits⟩ := hexadecimal?_toDigits c.toNat
  have hne : Nat.toDigits 16 c.toNat ≠ [] := Nat.toDigits_ne_nil
  have hclose : step (.code (Nat.toDigits 16 c.toNat)) '\x7d' = .gives c := by
    have hbrace : (hexDigit? '\x7d').isSome = false := by decide
    rw [step, stepCode, if_neg (by simp [hbrace]), if_neg (by simp [hne]), if_neg (by decide),
      if_pos (by decide), hread, Option.bind_some, charOf?_toNat, LiteralStep.ofChar?]
  calc
    readFrom .plain (escapeCode c ++ rest)
    _ = readFrom (.code []) (Nat.toDigits 16 c.toNat ++ '\x7d' :: rest) := by
      simp only [escapeCode, List.append_assoc, List.cons_append, List.nil_append]
      rfl
    _ = readFrom (.code (Nat.toDigits 16 c.toNat)) ('\x7d' :: rest) := by
      rw [readFrom_code _ _ hdigits (by simpa using length_toDigits_le c), List.nil_append]
    _ = (readFrom .plain rest).map fun (s, rest) => (c :: s, rest) := by rw [readFrom, hclose]

/-- Each character is read back from the way it is written. -/
theorem readFrom_escapeChar (c : Char) (rest : List Char) :
    readFrom .plain (escapeChar c ++ rest) =
      (readFrom .plain rest).map fun (s, rest) => (c :: s, rest) := by
  rw [escapeChar]
  split_ifs with hnull htab hreturn hline hquote hbackslash hcode
  · rw [eq_of_beq hnull]
    rfl
  · rw [eq_of_beq htab]
    rfl
  · rw [eq_of_beq hreturn]
    rfl
  · rw [eq_of_beq hline]
    rfl
  · rw [eq_of_beq hquote]
    rfl
  · rw [eq_of_beq hbackslash]
    rfl
  · exact readFrom_escapeCode c rest
  · have hstep : step .plain c = .gives c := by
      rw [step, stepPlain, if_neg hquote, if_neg hbackslash, if_neg hreturn]
    rw [List.singleton_append, readFrom, hstep]

-- ── Literals ──

theorem readFrom_escape (s rest : List Char) :
    readFrom .plain (escape s ++ '"' :: rest) = some (s, rest) := by
  induction s with
  | nil => rfl
  | cons c s ih =>
    rw [escape, List.flatMap_cons, List.append_assoc, readFrom_escapeChar, ← escape, ih]
    rfl

/-- **WHAT IS QUOTED IS READ BACK**, up to the closing quote and not beyond it. -/
theorem readLiteral_quote (s : String) (rest : List Char) :
    readLiteral ((quote s).toList ++ rest) = some (s.toList, rest) := by
  have hquote : (quote s).toList ++ rest = '"' :: (escape s.toList ++ '"' :: rest) := by
    simp [quote]
  rw [hquote, readLiteral, readFrom_escape]

-- Escapes that nothing here writes are read as well.
example : readLiteral "\"\\x41\\\n  b\" c".toList = some (['A', 'b'], [' ', 'c']) := by decide

/-- Neither the end of a line nor a carriage return is written as it is. -/
theorem notMem_escapeChar {b : Char} (hb : b = '\n' ∨ b = '\r') (c : Char) : b ∉ escapeChar c := by
  rw [escapeChar]
  split_ifs with hnull htab hreturn hline hquote hbackslash hcode
  iterate 6 rcases hb with rfl | rfl <;> decide
  · intro hmem
    simp only [escapeCode, List.mem_append] at hmem
    rcases hmem with (hmem | hmem) | hmem
    · rcases hb with rfl | rfl <;> exact absurd hmem (by decide)
    · have hdigit := (hexadecimal?_toDigits c.toNat).2 _ hmem
      rcases hb with rfl | rfl <;> exact absurd hdigit (by decide)
    · rcases hb with rfl | rfl <;> exact absurd hmem (by decide)
  · intro hmem
    obtain rfl := List.mem_singleton.1 hmem
    rcases hb with rfl | rfl
    · exact hline rfl
    · exact hreturn rfl

/-- A literal does not leave its line. -/
theorem newline_notMem_quote (s : String) : '\n' ∉ (quote s).toList := by
  rw [quote, String.toList_ofList]
  intro hmem
  rcases List.mem_append.1 hmem with hmem | hmem
  · rcases List.mem_cons.1 hmem with hmem | hmem
    · exact absurd hmem (by decide)
    · obtain ⟨c, -, hc⟩ := List.mem_flatMap.1 hmem
      exact notMem_escapeChar (.inl rfl) c hc
  · exact absurd hmem (by decide)

end ModelCatalog.Text
