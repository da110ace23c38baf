import ModelCatalog.Text.Raw

/-! # File trees

    A tree of directories and files, held as the nodes at its locations.  Locations start where
    relative paths start; that start, the directories above it and the root are always there, and
    every other node has a name in a directory that is there (`IsTree`).  The two changes of a tree
    are `put` and `prune`; each changes what stands at one location and nothing else, if no directory
    is pruned (`node?_put`, `node?_prune`). -/

namespace ModelCatalog

/-- The names on the way to a node.  It begins with `..` above the start, and with `/` if it comes
    from the root. -/
abbrev Location := List RawText

namespace Location

def root : Location := ["/"]

/-- Whether a location is the root, the start or above the start. -/
def isGround (l : Location) : Bool := decide (l = root) || l.all (· == "..")

/-- Whether a way leads down, neither up nor from the root. -/
def isDown (l : Location) : Bool :=
  l.head? != some ("/" : RawText) && l.head? != some (".." : RawText)

/-- The location one step up. -/
def up (l : Location) : Location :=
  if l = root then root else if l.isGround then l ++ [(".." : RawText)] else l.dropLast

/-- Whether a location lies above another one, which is behind it by some names. -/
def IsAbove (l k : Location) : Prop := ∃ name rest, k = l ++ name :: rest

/-- What lies above a place that is always there is always there, too. -/
theorem isGround_of_append {l k : Location} (h : (l ++ k).isGround = true) :
    l.isGround = true := by
  rw [isGround, Bool.or_eq_true, decide_eq_true_iff] at h ⊢
  rcases h with h | h
  · cases l with
    | nil => exact Or.inr rfl
    | cons name rest =>
        obtain ⟨rfl, hrest⟩ := List.cons.inj h
        exact Or.inl (by rw [(List.append_eq_nil_iff.1 hrest).1, root])
  · rw [List.all_append, Bool.and_eq_true] at h
    exact Or.inr h.1

/-- Whether a location is another or comes before it: name by name, and what lies above first. -/
def precedes : Location → Location → Bool
  | [], _ => true
  | _ :: _, [] => false
  | a :: l, b :: k => if a = b then precedes l k else decide (a < b)

end Location

namespace FileName

/-- The greatest number of bytes in the name of a file. -/
def maxSize : Nat := 255

/-- Whether a raw text can be the name of a file: it leads to another place inside its directory, has
    no slash and no NUL in it, and is short enough. -/
def isName (name : RawText) : Bool :=
  name != "" && name != "." && name != ".." && !name.bytes.contains RawText.slash &&
    !name.bytes.contains RawText.nul && decide (name.size ≤ maxSize)

end FileName

inductive Node where
  | directory
  | file (content : ByteArray)
  deriving Inhabited

instance : DecidableEq Node
  | .directory, .directory => isTrue rfl
  | .directory, .file _ => isFalse nofun
  | .file _, .directory => isFalse nofun
  | .file c, .file d =>
    match ByteArray.decEq c d with
    | isTrue h => isTrue (congrArg _ h)
    | isFalse h => isFalse fun heq => h (Node.file.inj heq)

/-- Why an operation on files fails. -/
inductive FileFault where
  | notFound
  | exists
  | notDirectory
  | isDirectory
  | nameTooLong
  | nulInName
  | invalidArgument
  | notText
  /-- The disk refuses, for want of rights or of room; the words are its own. -/
  | refused (words : String)
  deriving DecidableEq, Repr

def FileFault.message : FileFault → String
  | .notFound => "No such file or directory (os error 2)"
  | .exists => "File exists (os error 17)"
  | .notDirectory => "Not a directory (os error 20)"
  | .isDirectory => "Is a directory (os error 21)"
  | .nameTooLong => "File name too long (os error 36)"
  | .nulInName => "file name contained an unexpected NUL byte"
  | .invalidArgument => "Invalid argument (os error 22)"
  | .notText => "stream did not contain valid UTF-8"
  | .refused words => words

namespace FileTree

-- ── Nodes ──

def nodeAt (nodes : List (Location × Node)) (l : Location) : Option Node :=
  if l.isGround then some .directory else nodes.lookup l

/-- What makes nodes a tree: no location has two of them, and each has a name in a directory. -/
structure IsTree (nodes : List (Location × Node)) : Prop where
  nodup : (nodes.map Prod.fst).Nodup
  named : ∀ n ∈ nodes, n.1.getLast?.any FileName.isName = true
  inside : ∀ n ∈ nodes, nodeAt nodes n.1.dropLast = some .directory

instance (nodes : List (Location × Node)) : Decidable (IsTree nodes) :=
  decidable_of_iff
    ((nodes.map Prod.fst).Nodup ∧ (∀ n ∈ nodes, n.1.getLast?.any FileName.isName = true) ∧
      ∀ n ∈ nodes, nodeAt nodes n.1.dropLast = some .directory)
    ⟨fun h => ⟨h.1, h.2.1, h.2.2⟩, fun h => ⟨h.nodup, h.named, h.inside⟩⟩

/-- The nodes with one more, which replaces the one at its location. -/
def place (l : Location) (n : Node) : List (Location × Node) → List (Location × Node)
  | [] => [(l, n)]
  | (k, m) :: rest => if k = l then (l, n) :: rest else (k, m) :: place l n rest

theorem lookup_cons (j : Location) (m : Node) (rest : List (Location × Node)) (k : Location) :
    ((j, m) :: rest).lookup k = if k = j then some m else rest.lookup k := by
  by_cases h : k = j
  · simp [h]
  · rw [List.lookup_cons, beq_eq_false_iff_ne.2 h, if_neg h]

theorem mem_of_lookup {nodes : List (Location × Node)} {k : Location} {n : Node}
    (h : nodes.lookup k = some n) : (k, n) ∈ nodes := by
  induction nodes with
  | nil => simp at h
  | cons node rest ih =>
    obtain ⟨j, m⟩ := node
    rw [lookup_cons] at h
    by_cases hk : k = j
    · rw [if_pos hk] at h
      rw [hk, Option.some.inj h]
      exact List.mem_cons_self
    · rw [if_neg hk] at h
      exact List.mem_cons_of_mem _ (ih h)

/-- `place` decides what is found at its location and nowhere else. -/
theorem lookup_place (l : Location) (n : Node) (nodes : List (Location × Node)) (k : Location) :
    (place l n nodes).lookup k = if k = l then some n else nodes.lookup k := by
  induction nodes with
  | nil => exact lookup_cons l n [] k
  | cons node rest ih =>
    obtain ⟨j, m⟩ := node
    by_cases hj : j = l
    · subst hj
      rw [place, if_pos rfl, lookup_cons, lookup_cons]
      by_cases h : k = j <;> simp [h]
    · rw [place, if_neg hj, lookup_cons, lookup_cons, ih]
      by_cases h : k = j
      · subst h
        simp [hj]
      · simp [h]

/-- What is among the nodes after `place` was put there or was there before. -/
theorem mem_place {l : Location} {n : Node} {nodes : List (Location × Node)}
    {node : Location × Node} (h : node ∈ place l n nodes) : node = (l, n) ∨ node ∈ nodes := by
  induction nodes with
  | nil => exact Or.inl (by simpa [place] using h)
  | cons head rest ih =>
    obtain ⟨j, m⟩ := head
    by_cases hj : j = l
    · rw [place, if_pos hj] at h
      rcases List.mem_cons.1 h with h | h
      · exact Or.inl h
      · exact Or.inr (List.mem_cons_of_mem _ h)
    · rw [place, if_neg hj] at h
      rcases List.mem_cons.1 h with h | h
      · exact Or.inr (h ▸ List.mem_cons_self)
      · rcases ih h with h | h
        · exact Or.inl h
        · exact Or.inr (List.mem_cons_of_mem _ h)

/-- `place` gives no location two nodes. -/
theorem nodup_place {l : Location} {n : Node} {nodes : List (Location × Node)}
    (h : (nodes.map Prod.fst).Nodup) : ((place l n nodes).map Prod.fst).Nodup := by
  induction nodes with
  | nil => simp [place]
  | cons head rest ih =>
    obtain ⟨j, m⟩ := head
    obtain ⟨hj, hrest⟩ := List.nodup_cons.1 h
    by_cases hjl : j = l
    · rw [place, if_pos hjl]
      exact List.nodup_cons.2 ⟨hjl ▸ hj, hrest⟩
    · rw [place, if_neg hjl]
      refine List.nodup_cons.2 ⟨fun hmem => ?_, ih hrest⟩
      obtain ⟨node, hnode, heq⟩ := List.mem_map.1 hmem
      rcases mem_place hnode with rfl | hnode
      · exact hjl heq.symm
      · exact hj (List.mem_map.2 ⟨node, hnode, heq⟩)

/-- What is found among the nodes at some of the locations. -/
theorem lookup_filter (keeps : Location → Bool) (nodes : List (Location × Node)) (k : Location) :
    (nodes.filter fun n => keeps n.1).lookup k = if keeps k then nodes.lookup k else none := by
  induction nodes with
  | nil => simp
  | cons node rest ih =>
    obtain ⟨j, m⟩ := node
    by_cases hj : keeps j = true
    · rw [List.filter_cons, if_pos hj, lookup_cons, lookup_cons, ih]
      by_cases h : k = j
      · subst h
        simp [hj]
      · simp [h]
    · rw [List.filter_cons, if_neg hj, ih, lookup_cons]
      by_cases h : k = j
      · subst h
        simp [hj]
      · simp [h]

end FileTree

-- ── Trees ──

structure FileTree where
  nodes : List (Location × Node)
  isTree : FileTree.IsTree nodes

namespace FileTree

/-- Only the directories that are always there. -/
def empty : FileTree := ⟨[], by decide⟩

instance : Inhabited FileTree := ⟨empty⟩

def node? (tree : FileTree) (l : Location) : Option Node := nodeAt tree.nodes l

/-- Whether a location is always there or has a name in a directory of the tree. -/
def IsInside (tree : FileTree) (l : Location) : Prop :=
  l.isGround = true ∨
    l.getLast?.any FileName.isName = true ∧ tree.node? l.dropLast = some .directory

/-- Every node stands in a directory, if it is not always there. -/
theorem isInside_of_node? {tree : FileTree} {l : Location} {n : Node}
    (h : tree.node? l = some n) : tree.IsInside l := by
  by_cases hl : l.isGround = true
  · exact Or.inl hl
  · have hmem : (l, n) ∈ tree.nodes := mem_of_lookup (by simpa [node?, nodeAt, hl] using h)
    exact Or.inr ⟨tree.isTree.named _ hmem, tree.isTree.inside _ hmem⟩

theorem node?_ground {tree : FileTree} {l : Location} (h : l.isGround = true) :
    tree.node? l = some .directory := by
  simp [node?, nodeAt, h]

/-- Above whatever stands in a tree stand directories. -/
theorem node?_of_isAbove {tree : FileTree} {l k : Location} {n : Node} (h : l.IsAbove k)
    (hn : tree.node? k = some n) : tree.node? l = some .directory := by
  obtain ⟨name, rest, rfl⟩ := h
  -- from the node upwards, so the induction is on how far it is below
  induction hlength : rest.length generalizing rest n with
  | zero =>
      obtain rfl : rest = [] := List.eq_nil_of_length_eq_zero hlength
      rcases isInside_of_node? hn with hground | ⟨-, hup⟩
      · exact node?_ground (Location.isGround_of_append hground)
      · rwa [List.dropLast_concat] at hup
  | succ length ih =>
      rcases isInside_of_node? hn with hground | ⟨-, hup⟩
      · exact node?_ground (Location.isGround_of_append hground)
      · have hne : rest ≠ [] := by
          intro hnil
          simp [hnil] at hlength
        rw [List.dropLast_append_cons, List.dropLast_cons_of_ne_nil hne] at hup
        exact ih rest.dropLast hup (by rw [List.length_dropLast]; omega)

/-- A node in a directory, in the place of no directory, leaves the nodes a tree. -/
theorem isTree_place {tree : FileTree} {l : Location} (n : Node) (hin : tree.IsInside l)
    (hdir : tree.node? l ≠ some .directory) : IsTree (place l n tree.nodes) := by
  have hground : ¬ l.isGround = true := fun h => hdir (node?_ground h)
  -- no directory stands at `l`, so every directory of the tree stays
  have hstays : ∀ k, tree.node? k = some .directory →
      nodeAt (place l n tree.nodes) k = some .directory := by
    intro k hk
    have hkl : k ≠ l := fun h => hdir (h ▸ hk)
    rw [node?, nodeAt] at hk
    rw [nodeAt, lookup_place, if_neg hkl]
    exact hk
  refine ⟨nodup_place tree.isTree.nodup, ?_, ?_⟩
  · intro node hnode
    rcases mem_place hnode with rfl | hnode
    · exact (hin.resolve_left hground).1
    · exact tree.isTree.named _ hnode
  · intro node hnode
    rcases mem_place hnode with rfl | hnode
    · exact hstays _ (hin.resolve_left hground).2
    · exact hstays _ (tree.isTree.inside _ hnode)

/-- Puts a node at a location, in the place of no directory. -/
def put (tree : FileTree) (l : Location) (n : Node) (hin : tree.IsInside l)
    (hdir : tree.node? l ≠ some .directory) : FileTree :=
  ⟨place l n tree.nodes, isTree_place n hin hdir⟩

/-- Putting a node changes what stands at its location, and nothing else. -/
theorem node?_put {tree : FileTree} {l : Location} {n : Node} (hin : tree.IsInside l)
    (hdir : tree.node? l ≠ some .directory) (k : Location) :
    (tree.put l n hin hdir).node? k = if k = l then some n else tree.node? k := by
  have hground : l.isGround = false := Bool.eq_false_iff.2 fun h => hdir (node?_ground h)
  by_cases h : k = l
  · subst h
    simp [node?, nodeAt, hground, put, lookup_place]
  · simp [node?, nodeAt, h, put, lookup_place]

/-- Some of the nodes are a tree, as long as every directory is kept that holds one of them. -/
theorem isTree_filter {tree : FileTree} (keeps : Location → Bool)
    (h : ∀ l, keeps l = true → tree.node? l.dropLast = some .directory →
      Location.isGround l.dropLast = true ∨ keeps l.dropLast = true) :
    IsTree (tree.nodes.filter fun n => keeps n.1) := by
  refine ⟨(List.filter_sublist.map _).nodup tree.isTree.nodup, ?_, ?_⟩
  · intro node hnode
    exact tree.isTree.named _ (List.mem_filter.1 hnode).1
  · intro node hnode
    obtain ⟨hmem, hkept⟩ := List.mem_filter.1 hnode
    have hup : tree.node? node.1.dropLast = some .directory := tree.isTree.inside _ hmem
    rw [nodeAt, lookup_filter]
    rcases h _ hkept hup with hground | hkeeps
    · rw [if_pos hground]
    · rw [if_pos hkeeps]
      exact hup

/-- The way from one location down to another. -/
def below? : Location → Location → Option Location
  | [], l => some l
  | _ :: _, [] => none
  | a :: base, b :: l => if a = b then below? base l else none

/-- A way leads from one location to another if it is what the second has behind the first. -/
theorem below?_eq_some {base l way : Location} : below? base l = some way ↔ l = base ++ way := by
  induction base generalizing l with
  | nil =>
      rw [below?, List.nil_append]
      exact ⟨fun h => Option.some.inj h, fun h => congrArg some h⟩
  | cons a base ih =>
      cases l with
      | nil => simp [below?]
      | cons b l =>
          rw [below?, List.cons_append, List.cons.injEq]
          by_cases hab : a = b
          · rw [if_pos hab, ih]
            exact ⟨fun h => ⟨hab.symm, h⟩, fun h => h.2⟩
          · rw [if_neg hab]
            simp [eq_comm, hab]

/-- A directory does not lie below a location if something in it does not. -/
theorem below?_dropLast_isNone {base l : Location} (h : (below? base l).isNone = true) :
    (below? base l.dropLast).isNone = true := by
  rw [Option.isNone_iff_eq_none, Option.eq_none_iff_forall_ne_some] at h ⊢
  intro way hway
  by_cases hl : l = []
  · exact h way (hl ▸ hway)
  · refine h (way ++ [l.getLast hl]) (below?_eq_some.2 ?_)
    rw [← List.append_assoc, ← below?_eq_some.1 hway, List.dropLast_concat_getLast]

/-- The tree without what stands at a location and below it. -/
def prune (tree : FileTree) (base : Location) : FileTree :=
  ⟨tree.nodes.filter fun n => (below? base n.1).isNone,
    isTree_filter (fun l => (below? base l).isNone) fun _ hl _ =>
      Or.inr (below?_dropLast_isNone hl)⟩

/-- Pruning what is no directory changes what stands at its location, and nothing else. -/
theorem node?_prune {tree : FileTree} {l : Location} (hdir : tree.node? l ≠ some .directory)
    (k : Location) : (tree.prune l).node? k = if k = l then none else tree.node? k := by
  have hground : ¬ l.isGround = true := fun h => hdir (node?_ground h)
  have hlookup := lookup_filter (fun j => (below? l j).isNone) tree.nodes k
  rw [node?, nodeAt, prune, hlookup]
  by_cases h : k = l
  · have hbelow : below? l k = some [] := below?_eq_some.2 (by rw [h, List.append_nil])
    rw [if_pos h, if_neg (h ▸ hground), hbelow]
    rfl
  · rw [if_neg h]
    cases hbelow : below? l k with
    | none => rfl
    | some way =>
        -- nothing stands there that would be pruned with it
        have hk : k = l ++ way := below?_eq_some.1 hbelow
        have habove : l.IsAbove k := by
          cases way with
          | nil => exact absurd (hk.trans (List.append_nil l)) h
          | cons name rest => exact ⟨name, rest, hk⟩
        have hnone : tree.node? k = none :=
          Option.eq_none_iff_forall_ne_some.2 fun n hn => hdir (node?_of_isAbove habove hn)
        rw [hnone, if_neg fun hground' => hground (Location.isGround_of_append (hk ▸ hground'))]
        rfl

end FileTree

end ModelCatalog
