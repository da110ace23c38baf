import ModelCatalog.Toml.Complaint
import ModelCatalog.Toml.Key

/-! # TOML values

    A value remembers where it stands.  A table also remembers how it came about, for that decides
    whether headers may open it and assignments may extend it later. -/

namespace ModelCatalog.Toml

/-- A value without parts. -/
inductive Scalar where
  | flag (value : Bool)
  | integer (value : Int)
  | float (value : Float)
  /-- Which time it is does not matter to any record. -/
  | time
  | text (value : String)
  deriving Repr, Inhabited

/-- How a table came about. -/
inductive Origin where
  /-- Written between braces. -/
  | braces (span : Span)
  /-- Opened by a header of its own.  It extends to the last value that was assigned in it. -/
  | header (span : Span)
  /-- Named in the header of a table inside it. -/
  | outer
  /-- Named in the key of an assignment. -/
  | dotted
  deriving DecidableEq, Repr

inductive Value where
  | scalar (span : Span) (content : Scalar)
  | list (span : Span) (items : List Value)
  | table (origin : Origin) (members : List (Key × Value))
  /-- Tables that were opened by headers of the same name. -/
  | tables (elements : List Value)
  deriving Inhabited

-- ── Ranges ──

/-- The range of a table, unless it is only named. -/
def Origin.span? : Origin → Option Span
  | .braces span | .header span => some span
  | .outer | .dotted => none

namespace Value

/-- The range of a value.  Tables that share a header extend from the first to the last. -/
def span? : Value → Option Span
  | .scalar span _ | .list span _ => some span
  | .table origin _ => origin.span?
  | .tables elements => do
    let own? : Value → Option Span
      | .table origin _ => origin.span?
      | _ => none
    return ⟨(← own? (← elements.head?)).start, (← own? (← elements.getLast?)).stop⟩

def members : Value → List (Key × Value)
  | .table _ members => members
  | _ => []

/-- A table that was opened by a header extends to the end of another value. -/
def extendTo (v : Value) : Value → Value
  | .table (.header span) members =>
    .table (.header ⟨span.start, (v.span?.map Span.stop).getD span.stop⟩) members
  | w => w

def kind : Value → Kind
  | .scalar _ (.flag _) => .flag
  | .scalar _ (.integer _) => .integer
  | .scalar _ (.float _) => .float
  | .scalar _ .time => .time
  | .scalar _ (.text _) => .text
  | .list _ _ | .tables _ => .list
  | .table _ _ => .inlineTable

end Value

-- ── Members ──

def member? (name : String) (members : List (Key × Value)) : Option Value :=
  (members.find? (·.1.name == name)).map (·.2)

/-- Members of which one is replaced, or added at the end. -/
def place (key : Key) (v : Value) : List (Key × Value) → List (Key × Value)
  | [] => [(key, v)]
  | (k, w) :: rest => if k.name = key.name then (k, v) :: rest else (k, w) :: place key v rest

/-- Members without the one of a name. -/
def erase (name : String) (members : List (Key × Value)) : List (Key × Value) :=
  members.filter (·.1.name != name)

/-- Where a key stands that leads to a table. -/
inductive Site where
  | header
  | line
  /-- In an assignment between braces. -/
  | braces
  deriving DecidableEq, Repr

/-- How the tables come about that a key leads through for the first time. -/
def Site.origin : Site → Origin
  | .header => .outer
  | .line | .braces => .dotted

/-- Why a key does not lead on through a table at the end of a path.  Assignments only extend tables
    that are merely named, and no key of a line leads into braces. -/
def Site.refusal? (site : Site) (path : List Key) (key : Key) : Origin → Option Cause
  | .braces _ =>
    if site = .braces then some (.duplicateKey key.name none)
    else some (.notTable (names path) .inlineTable)
  | .header _ => if site = .header then none else some (.duplicateKey key.name none)
  | .outer | .dotted => none

namespace Value

/-- A change of the table at the end of a path.  Tables that are missing on the way are made.  The
    path behind the table is told from the one to it. -/
def atPath (site : Site) (change : Value → Except Cause Value) :
    List Key → List Key → Value → Except Cause Value
  | _, [], v => change v
  | before, key :: path, .table o members =>
    let before := before ++ [key]
    match member? key.name members with
    | none => do
      let inner ← atPath site change before path (.table site.origin [])
      return .table o (place key inner members)
    | some (.table origin content) =>
      match site.refusal? before key origin with
      | some cause => .error cause
      | none => do
        let inner ← atPath site change before path (.table origin content)
        return .table o (place key inner members)
    | some (.tables elements) => do
      let some last := elements.getLast? | .error (.notTable (names before) .list)
      let last ← atPath site change before path last
      return .table o (place key (.tables (elements.dropLast ++ [last])) members)
    | some v => .error (.notTable (names before) v.kind)
  | before, _ :: _, v => .error (.notTable (names before) v.kind)

/-- Puts a value under a key, which must not be taken in a table of the given name. -/
def add (table : Option (List String)) (key : Key) (v : Value) : Value → Except Cause Value
  | .table o members =>
    if (member? key.name members).isSome then .error (.duplicateKey key.name table)
    else .ok (.table o (place key v members))
  | w => .error (.notTable [] w.kind)

/-- Puts a value under a dotted key.  Only tables made by such keys can be extended by them. -/
def assign (site : Site) (table : Option (List String)) (path : List Key) (key : Key) (v : Value)
    (w : Value) : Except Cause Value :=
  let put : Value → Except Cause Value
    | .table .dotted members => add table key v (.table .dotted members)
    | w => if path.isEmpty then add table key v w else .error (.duplicateKey key.name none)
  atPath site put [] path w

/-- The members that assignments between braces make. -/
def ofAssignments (assignments : List (List Key × Key × Value)) :
    Except Cause (List (Key × Value)) := do
  let table ← assignments.foldlM (fun w (path, key, v) => assign .braces none path key v w)
    (.table .outer [])
  return table.members

/-- Opens a table by its header.  It may have been named before in headers of tables inside it, but
    comes last from now on. -/
def openTable (span : Span) (taken : Cause) (key : Key) : Value → Except Cause Value
  | .table o members =>
    match member? key.name members with
    | none => .ok (.table o (place key (.table (.header span) []) members))
    | some (.table .outer content) =>
      .ok (.table o (place key (.table (.header span) content) (erase key.name members)))
    | some _ => .error taken
  | _ => .error taken

/-- Opens one more table of those that share a header. -/
def openElement (span : Span) (taken : Cause) (key : Key) : Value → Except Cause Value
  | .table o members =>
    match member? key.name members with
    | none => .ok (.table o (place key (.tables [.table (.header span) []]) members))
    | some (.tables elements) =>
      .ok (.table o (place key (.tables (elements ++ [.table (.header span) []])) members))
    | some _ => .error taken
  | _ => .error taken

end Value

end ModelCatalog.Toml
