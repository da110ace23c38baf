import ModelCatalog.Json.Basic

/-! # Reading JSON from characters

    A `Reader` takes characters from the front of a text and yields a value or a fault.  Blanks may
    stand before every token. -/

namespace ModelCatalog.Json

/-- Takes characters from the front of a text. -/
abbrev Reader := StateT (List Char) (Except Fault)

/-- The characters that may stand between tokens. -/
def isBlank (c : Char) : Bool := c == ' ' || c == '\t' || c == '\n' || c == '\r'

/-- The first character of the next token, if any; the blanks before it are taken. -/
def token : Reader (Option Char) := do
  modify (·.dropWhile isBlank)
  return (← get).head?

def advance : Reader Unit := modify (·.drop 1)

/-- Takes the characters of a word. -/
def word : List Char → Reader Unit
  | [] => return
  | c :: rest => do
    match ← get with
    | [] => throw .endOfValue
    | d :: remaining =>
      if c == d then
        set remaining
        word rest
      else throw .unknownWord

def colon : Reader Unit := do
  match ← token with
  | none => throw .endOfObject
  | some ':' => advance
  | some _ => throw .noColon

/-- Nothing but blanks may follow. -/
def finish : Reader Unit := do
  if (← token).isSome then throw .trailingCharacters

/-- What a reader makes of a whole text. -/
def Reader.parse {α : Type} (reader : Reader α) (text : String) : Except Fault α :=
  (do let a ← reader; finish; return a : Reader α).run' text.toList

-- ── Lists ──

/-- The items from the next one to the closing bracket; there are at most as many as characters in
    the bound. -/
def itemsFrom {α : Type} (element : Reader α) : List Char → Reader (List α)
  | [] => throw .endOfList
  | _ :: bound => do
    let item ← element
    match ← token with
    | none => throw .endOfList
    | some ']' =>
      advance
      return [item]
    | some ',' =>
      advance
      if (← token) == some ']' then throw .trailingComma
      return item :: (← itemsFrom element bound)
    | some _ => throw .noItemEnd

/-- The items of a list whose bracket was taken. -/
def items {α : Type} (element : Reader α) : Reader (List α) := do
  match ← token with
  | none => throw .endOfList
  | some ']' =>
    advance
    return []
  | some _ => itemsFrom element (← get)

-- ── Objects ──

/-- The members from the next key to the closing brace.  `member` is called behind each key, before
    the colon; there are at most as many members as characters in the bound. -/
def membersFrom {σ : Type} (key : Reader String) (member : σ → String → Reader σ) :
    List Char → σ → Reader σ
  | [], _ => throw .endOfObject
  | _ :: bound, state => do
    let state ← member state (← key)
    match ← token with
    | none => throw .endOfObject
    | some '\x7d' =>
      advance
      return state
    | some ',' =>
      advance
      match ← token with
      | none => throw .endOfValue
      | some '"' => membersFrom key member bound state
      | some '\x7d' => throw .trailingComma
      | some _ => throw .keyNotText
    | some _ => throw .noMemberEnd

/-- The members of an object whose brace was taken. -/
def members {σ : Type} (key : Reader String) (member : σ → String → Reader σ) (init : σ) :
    Reader σ := do
  match ← token with
  | none => throw .endOfObject
  | some '\x7d' =>
    advance
    return init
  | some '"' => membersFrom key member (← get) init
  | some _ => throw .keyNotText

end ModelCatalog.Json
