/-! # Raw texts

    The system knows names and paths as bytes, and nothing makes these the bytes of a text.  A raw
    text is any sequence of bytes.  Every text is one (`ofString`); what is no text can only be shown
    with marks in it (`display`), so that two raw texts can look alike. -/

namespace ModelCatalog

namespace Text

/-- The bytes of a text. -/
def bytes (s : String) : List UInt8 := s.toByteArray.data.toList

theorem bytes_eq (s : String) : bytes s = s.toList.flatMap String.utf8EncodeChar := by
  rw [bytes, ← String.utf8Encode_toList, List.utf8Encode]
  simp

theorem length_bytes (s : String) : (bytes s).length = s.utf8ByteSize := rfl

theorem bytes_append (s t : String) : bytes (s ++ t) = bytes s ++ bytes t := by
  simp [bytes]

theorem bytes_inj {s t : String} : bytes s = bytes t ↔ s = t := by
  refine ⟨fun h => ?_, congrArg bytes⟩
  exact String.toByteArray_inj.1 (ByteArray.ext (Array.toList_inj.1 h))

end Text

structure RawText where
  bytes : List UInt8
  deriving DecidableEq, Inhabited, Repr

namespace RawText

-- ── Texts as raw texts ──

def ofString (s : String) : RawText := ⟨Text.bytes s⟩

instance : Coe String RawText := ⟨ofString⟩

instance : Append RawText := ⟨fun r s => ⟨r.bytes ++ s.bytes⟩⟩

instance : LT RawText := ⟨fun r s => r.bytes < s.bytes⟩

instance (r s : RawText) : Decidable (r < s) := inferInstanceAs (Decidable (r.bytes < s.bytes))

def size (r : RawText) : Nat := r.bytes.length

def slash : UInt8 := 0x2f

def dot : UInt8 := 0x2e

def nul : UInt8 := 0

@[ext] theorem ext {r s : RawText} (h : r.bytes = s.bytes) : r = s := by
  cases r
  cases s
  exact congrArg mk h

@[simp] theorem bytes_append (r s : RawText) : (r ++ s).bytes = r.bytes ++ s.bytes := rfl

@[simp] theorem size_append (r s : RawText) : (r ++ s).size = r.size + s.size :=
  List.length_append

@[simp] theorem ofString_inj {s t : String} : ofString s = ofString t ↔ s = t :=
  ⟨fun h => Text.bytes_inj.1 (congrArg bytes h), congrArg ofString⟩

theorem ofString_append (s t : String) : ofString (s ++ t) = ofString s ++ ofString t :=
  RawText.ext (Text.bytes_append s t)

theorem size_ofString (s : String) : (ofString s).size = s.utf8ByteSize := Text.length_bytes s

theorem append_assoc (r s t : RawText) : r ++ s ++ t = r ++ (s ++ t) :=
  RawText.ext (List.append_assoc ..)

@[simp] theorem empty_append (r : RawText) : ("" : RawText) ++ r = r := rfl

theorem eq_empty_iff {r : RawText} : r = "" ↔ r.bytes = [] :=
  ⟨fun h => h ▸ rfl, fun h => RawText.ext h⟩

theorem append_eq_empty_iff {r s : RawText} : r ++ s = "" ↔ r = "" ∧ s = "" := by
  rw [eq_empty_iff, eq_empty_iff, eq_empty_iff, bytes_append, List.append_eq_nil_iff]

theorem eq_empty_of_size {r : RawText} (h : r.size = 0) : r = "" :=
  eq_empty_iff.2 (List.eq_nil_of_length_eq_zero h)

-- ── The order of bytes ──

theorem lt_irrefl (r : RawText) : ¬ r < r := List.lt_irrefl r.bytes

theorem lt_trans {r s t : RawText} (h : r < s) (h' : s < t) : r < t := List.lt_trans h h'

theorem lt_asymm {r s : RawText} (h : r < s) : ¬ s < r := List.lt_asymm h

theorem lt_or_lt_of_ne {r s : RawText} (h : r ≠ s) : r < s ∨ s < r := by
  by_cases hlt : r.bytes < s.bytes
  · exact Or.inl hlt
  · by_cases hlt' : s.bytes < r.bytes
    · exact Or.inr hlt'
    · exact absurd (RawText.ext (List.le_antisymm hlt' hlt)) h

-- ── Characters in bytes ──

/-- The beginning of a character: what its bits so far stand for, how many bytes are missing behind
    the next one, and between which bounds the next one lies. -/
structure Begun where
  bits : Nat
  missing : Nat
  least : Nat := 0x80
  greatest : Nat := 0xbf

/-- The beginning of a character of several bytes.  The bounds of the second byte are tighter where
    others would stand for too small a number, for half of a pair, or for no character at all. -/
def begun? (byte : Nat) : Option Begun :=
  if byte < 0xc2 then none
  else if byte ≤ 0xdf then some { bits := byte - 0xc0, missing := 0 }
  else if byte = 0xe0 then some { bits := 0, missing := 1, least := 0xa0 }
  else if byte = 0xed then some { bits := 0xd, missing := 1, greatest := 0x9f }
  else if byte ≤ 0xef then some { bits := byte - 0xe0, missing := 1 }
  else if byte = 0xf0 then some { bits := 0, missing := 2, least := 0x90 }
  else if byte ≤ 0xf3 then some { bits := byte - 0xf0, missing := 2 }
  else if byte = 0xf4 then some { bits := 4, missing := 2, greatest := 0x8f }
  else none

/-- Reads a byte at which no character has begun. -/
def readFirst (byte : Nat) (next : Option Begun → List (Option Char)) : List (Option Char) :=
  if byte < 0x80 then some (Char.ofNat byte) :: next none
  else
    match begun? byte with
    | some begun => next (some begun)
    | none => none :: next none

/-- The characters in bytes.  What begins like a character and does not go on like it stands for
    none, and so does a byte with which no character begins. -/
def characters : List UInt8 → Option Begun → List (Option Char)
  | [], none => []
  | [], some _ => [none]
  | byte :: rest, none => readFirst byte.toNat (characters rest)
  | byte :: rest, some begun =>
    let bits := begun.bits * 64 + byte.toNat % 64
    if byte.toNat < begun.least || begun.greatest < byte.toNat then
      none :: readFirst byte.toNat (characters rest)
    else
      match begun.missing with
      | 0 => some (Char.ofNat bits) :: characters rest none
      | missing + 1 => characters rest (some { bits, missing })

/-- What is shown in the place of bytes that stand for no character. -/
def replacement : Char := '\ufffd'

/-- A raw text as it is shown. -/
def display (r : RawText) : String := .ofList ((characters r.bytes none).map (·.getD replacement))

/-- The text that a raw text is, if it is one. -/
def text? (r : RawText) : Option String := if ofString r.display = r then some r.display else none

def isText (r : RawText) : Bool := r.text?.isSome

end RawText

end ModelCatalog
