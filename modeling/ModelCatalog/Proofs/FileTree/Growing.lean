import ModelCatalog.FileTree.Writing

/-! # Trees that grow

    A tree grows by directories that are made where nothing stood (`GrowsBy`).  Files stay as they
    are, and so does every path that can be followed (`locate_of_keeps`).  The headline of this file
    is `growsBy_makeDirectories`: however many directories are made before one fails, on whatever
    disk, the tree has only grown by the paths that were asked for. -/

namespace ModelCatalog.FileTree

/-- What a file holds that stands at a location. -/
def file? (tree : FileTree) (l : Location) : Option ByteArray :=
  match tree.node? l with
  | some (.file content) => some content
  | _ => none

theorem file?_eq_some {tree : FileTree} {l : Location} {content : ByteArray} :
    tree.file? l = some content ↔ tree.node? l = some (.file content) := by
  rw [file?]
  cases h : tree.node? l with
  | none => simp
  | some n => cases n <;> simp

theorem file?_congr {tree other : FileTree} {l : Location} (h : tree.node? l = other.node? l) :
    tree.file? l = other.file? l := by
  rw [file?, file?, h]

-- ── Keeping directories ──

/-- Every directory of a tree is one of another, too. -/
def KeepsDirectories (before after : FileTree) : Prop :=
  ∀ l, before.node? l = some .directory → after.node? l = some .directory

theorem KeepsDirectories.trans {first second third : FileTree}
    (h : KeepsDirectories first second) (h' : KeepsDirectories second third) :
    KeepsDirectories first third :=
  fun l hl => h' l (h l hl)

theorem follow_of_keeps {before after : FileTree} (hkeeps : KeepsDirectories before after)
    {l k : Location} {pieces : List RawText} (h : before.follow l pieces = .ok k) :
    after.follow l pieces = .ok k := by
  induction pieces generalizing l with
  | nil => exact h
  | cons piece rest ih =>
      obtain ⟨hdir, hsize, hrest⟩ := follow_cons_eq_ok.1 h
      exact follow_cons_eq_ok.2 ⟨hkeeps l hdir, hsize, ih hrest⟩

/-- A path that can be followed can still be followed as long as the directories stay. -/
theorem locate_of_keeps {before after : FileTree} (hkeeps : KeepsDirectories before after)
    {p : Path} {l : Location} (h : before.locate p = .ok l) : after.locate p = .ok l := by
  obtain ⟨hsound, hfollow⟩ := locate_eq_ok.1 h
  exact locate_eq_ok.2 ⟨hsound, follow_of_keeps hkeeps hfollow⟩

/-- What a path names it still names, as long as the directories stay and the same stands where it
    leads. -/
theorem find_of_keeps {before after : FileTree} (hkeeps : KeepsDirectories before after) {p : Path}
    {n : Node} (h : before.find p = .ok n)
    (hsame : after.node? (location p) = before.node? (location p)) : after.find p = .ok n := by
  obtain ⟨l, hlocate, hnode⟩ := find_eq_ok.1 h
  obtain rfl : location p = l := location_of_locate hlocate
  exact find_eq_ok.2 ⟨_, locate_of_keeps hkeeps hlocate, hsame.trans hnode⟩

-- ── Growing ──

/-- A tree becomes another by directories at some locations, where nothing stood before. -/
def GrowsBy (places : Location → Prop) (before after : FileTree) : Prop :=
  ∀ l, after.node? l = before.node? l ∨
    before.node? l = none ∧ after.node? l = some .directory ∧ places l

namespace GrowsBy

variable {places more : Location → Prop} {before between after : FileTree}

theorem refl (places : Location → Prop) (tree : FileTree) : GrowsBy places tree tree :=
  fun _ => Or.inl rfl

theorem mono (h : GrowsBy places before after) (hmore : ∀ l, places l → more l) :
    GrowsBy more before after := by
  intro l
  rcases h l with hsame | ⟨hnone, hdir, hl⟩
  · exact Or.inl hsame
  · exact Or.inr ⟨hnone, hdir, hmore l hl⟩

theorem trans (h : GrowsBy places before between) (h' : GrowsBy places between after) :
    GrowsBy places before after := by
  intro l
  rcases h l with hsame | ⟨hnone, hdir, hl⟩
  · rw [← hsame]
    exact h' l
  · rcases h' l with hsame' | ⟨hnone', -, -⟩
    · exact Or.inr ⟨hnone, hsame'.trans hdir, hl⟩
    · rw [hdir] at hnone'
      exact nomatch hnone'

theorem congr {other : FileTree} (h : GrowsBy places before after)
    (hsame : ∀ l, other.node? l = after.node? l) : GrowsBy places before other := by
  intro l
  rw [hsame l]
  exact h l

theorem node?_of_some (h : GrowsBy places before after) {l : Location} {n : Node}
    (hn : before.node? l = some n) : after.node? l = some n := by
  rcases h l with hsame | ⟨hnone, -, -⟩
  · rw [hsame, hn]
  · rw [hn] at hnone
    exact nomatch hnone

theorem keepsDirectories (h : GrowsBy places before after) : KeepsDirectories before after :=
  fun _ hl => h.node?_of_some hl

/-- No file comes or goes while a tree grows. -/
theorem file?_eq (h : GrowsBy places before after) (l : Location) :
    after.file? l = before.file? l := by
  rcases h l with hsame | ⟨hnone, hdir, -⟩
  · exact file?_congr hsame
  · rw [file?, file?, hnone, hdir]

end GrowsBy

/-- Where the directories of a list of paths belong; the empty path names none. -/
def placesOf (paths : List Path) (l : Location) : Prop :=
  ∃ p ∈ paths, p.raw ≠ "" ∧ location p = l

theorem growsBy_make {tree after : FileTree} {p : Path}
    (h : tree.make p .directory = .ok after) : GrowsBy (· = location p) tree after := by
  obtain ⟨l, hin, hdir, hlocate, hnone, rfl⟩ := make_eq_ok.1 h
  intro k
  rw [node?_put]
  by_cases hk : k = l
  · subst hk
    exact Or.inr ⟨hnone, if_pos rfl, (location_of_locate hlocate).symm⟩
  · exact Or.inl (if_neg hk)

/-- **Making directories only adds directories**, those of the paths that were asked for, whether
    or not it succeeds and whatever the disk refuses. -/
theorem growsBy_makeDirectories (disk : Disk) (paths : List Path) (tree : FileTree) :
    GrowsBy (placesOf paths) tree (tree.makeDirectories paths disk).1 := by
  induction paths generalizing tree with
  | nil => exact GrowsBy.refl _ tree
  | cons p above ih =>
      rw [makeDirectories]
      by_cases hempty : p.raw = ""
      · rw [if_pos (by simp [hempty])]
        exact GrowsBy.refl _ tree
      · rw [if_neg (by simp [hempty])]
        have hplace : ∀ l, l = location p → placesOf (p :: above) l :=
          fun l hl => ⟨p, List.mem_cons_self, hempty, hl.symm⟩
        have hstep : ∀ {tree after : FileTree},
            unlessRefused (disk.refusesDirectory tree p) (tree.make p .directory) = .ok after →
            GrowsBy (placesOf (p :: above)) tree after := by
          intro tree after h
          exact (growsBy_make (eq_ok_of_unlessRefused h)).mono hplace
        have habove : GrowsBy (placesOf (p :: above)) tree (tree.makeDirectories above disk).1 :=
          (ih tree).mono fun l ⟨q, hq, hne, hl⟩ => ⟨q, List.mem_cons_of_mem _ hq, hne, hl⟩
        split
        · next after h => exact hstep h
        · split
          · next after fault h => rw [h] at habove; exact habove
          · next between h =>
            rw [h] at habove
            split
            · next after h' => exact habove.trans (hstep h')
            · exact habove
        · exact GrowsBy.refl _ tree

end ModelCatalog.FileTree
