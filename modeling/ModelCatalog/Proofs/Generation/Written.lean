import ModelCatalog.Proofs.Commit.Lasting
import ModelCatalog.Proofs.Generation.Apart
import ModelCatalog.Proofs.Generation.Overwriting

/-! # What has been written, also along paths that lead up

    A path with `..` in it can lead to the modules through the catalog, and making the directory of a
    module makes what is missing on the way.  So what may have changed when providers were visited is
    what lies in the directory of all modules and what was missing on the way there (`Written`).  If
    the way keeps clear of what is read (`KeepsClear`), the same is rendered as at the start
    (`rendered_of_written`), with a folder in place of the provider's own or without. -/

namespace ModelCatalog

open FileTree Commit

-- ── Changes ──

/-- A path leads to a file. -/
def IsFile (tree : FileTree) (p : Path) : Prop := ∃ content, tree.find p = .ok (.file content)

/-- What may become of a tree when files are written below a path: directories stay, and so do the
    files of modules, though with another content.  What is new lies below the path or on its way. -/
structure Written (p : Path) (before after : FileTree) : Prop where
  keepsDirectories : KeepsDirectories before after
  node? : ∀ l, after.node? l = before.node? l ∨ l.IsIn (location p) ∨
    before.node? l = none ∧ l ∈ visited (start p) p.pieces
  files : ∀ moduleName kind, Identifier.isValid moduleName = true →
    IsFile before (filePath p moduleName kind) → IsFile after (filePath p moduleName kind)

/-- A path keeps clear of a directory that is read: neither lies in the other, and nothing that is
    missing in the directory is on the way of the path. -/
structure KeepsClear (source p : Path) (tree : FileTree) : Prop where
  above : ¬ location source <+: location p
  inside : ¬ (location source).IsIn (location p)
  way : ∀ l ∈ visited (start p) p.pieces, location source <+: l → tree.node? l ≠ none

namespace Written

variable {p source : Path} {before between after : FileTree}

theorem refl (p : Path) (tree : FileTree) : Written p tree tree :=
  ⟨fun _ h => h, fun _ => Or.inl rfl, fun _ _ _ h => h⟩

theorem trans (h : Written p before between) (h' : Written p between after) :
    Written p before after := by
  refine ⟨h.keepsDirectories.trans h'.keepsDirectories, fun l => ?_,
    fun moduleName kind hvalid hfile => h'.files _ _ hvalid (h.files _ _ hvalid hfile)⟩
  rcases h.node? l with hsame | hchanged
  · rw [← hsame]
    exact h'.node? l
  · exact Or.inr hchanged

/-- **What is read is as it was**, if the path keeps clear of it. -/
theorem sameBelow (h : Written p before after) (hclear : KeepsClear source p before)
    (hlocate : before.locate source = .ok (location source)) : SameBelow source before after := by
  refine ⟨hlocate, locate_of_keeps h.keepsDirectories hlocate, fun way => ?_⟩
  refine (h.node? _).resolve_right ?_
  rintro (hbelow | ⟨hmissing, hway⟩)
  · exact Location.not_isIn_of_apart hclear.above hclear.inside way hbelow
  · exact hclear.way _ hway (List.prefix_append _ way) hmissing

end Written

namespace Generation

-- ── What a provider writes ──

section Writing

variable {catalog : Catalog} {mode : Mode} {o : Options} {id : String} {tree after : FileTree}
  {disk : Disk} {batch : List RenderedFile}

/-- The directories that are made for a provider are new, and its module or on the way there. -/
theorem RenderedFor.written_of_growsBy (h : RenderedFor mode o id batch)
    (hgrows : GrowsBy (BatchPlaces batch) tree after) (l : Location) :
    after.node? l = tree.node? l ∨ l.IsIn (location o.providersPath) ∨
      tree.node? l = none ∧ l ∈ visited (start o.providersPath) o.providersPath.pieces := by
  rcases hgrows l with hsame | ⟨hnone, -, hplace⟩
  · exact Or.inl hsame
  · obtain ⟨hslash, -⟩ := Identifier.isPiece_of_isValid h.valid
    have hvisited := h.inDirectory.visited_of_batchPlaces hplace
    rw [modulePath, mem_visited_child hslash] at hvisited
    rcases hvisited with hway | hmodule
    · exact Or.inr (Or.inr ⟨hnone, hway⟩)
    · rw [hmodule]
      exact Or.inr (Or.inl h.isIn_modulePath)

/-- **The step**: what a provider leaves has been written below the path of all modules. -/
theorem written_generate (hdry : o.dryRun = false) (catalog : Catalog) (mode : Mode) (id : String)
    (tree : FileTree) (disk : Disk) :
    Written o.providersPath tree (generate catalog mode o id tree disk).1 := by
  rcases hgenerate : generate catalog mode o id tree disk with ⟨after, result⟩
  dsimp only
  rcases generate_cases hdry hgenerate with
    ⟨rfl, -⟩ | ⟨hbatch, made, hgrows, ⟨g, rfl, -, -, hover⟩ | ⟨⟨error, rfl⟩, hback⟩⟩
  · exact Written.refl _ _
  · have hkeeps := hgrows.keepsDirectories.trans hover.sameDirectories.keepsDirectories
    refine ⟨hkeeps, fun l => ?_, fun moduleName kind _ ⟨content, hfind⟩ => ?_⟩
    · rcases hover.node?_or l with hsame | ⟨file, hfile, rfl⟩
      · rw [hsame]
        exact hbatch.written_of_growsBy hgrows l
      · exact Or.inr (Or.inl (hbatch.isIn_providersPath hfile))
    · obtain ⟨l, hlocate, hnode⟩ := find_eq_ok.1 hfind
      have hlocate' := locate_of_keeps hkeeps hlocate
      cases hlast : lastAt (batchOf tree catalog mode o id) l with
      | some file =>
          refine ⟨file.content.toUTF8, find_eq_ok.2 ⟨l, hlocate', ?_⟩⟩
          rw [hover.node? l, hlast]
      | none =>
          refine ⟨content, find_eq_ok.2 ⟨l, hlocate', ?_⟩⟩
          rw [hover.node? l, hlast]
          exact hgrows.node?_of_some hnode
  · refine ⟨hgrows.keepsDirectories.trans hback.sameDirectories.keepsDirectories, fun l => ?_,
      fun moduleName kind hvalid ⟨content, hfind⟩ => ?_⟩
    · by_cases hplace : ∃ file ∈ batchOf tree catalog mode o id, location file.path = l
      · obtain ⟨file, hfile, rfl⟩ := hplace
        exact Or.inr (Or.inl (hbatch.isIn_providersPath hfile))
      · rw [hback.node? l fun file hfile hl => absurd ⟨file, hfile, hl⟩ hplace]
        exact hbatch.written_of_growsBy hgrows l
    · exact ⟨content, find_generate hdry hvalid hfind hgenerate fun h => by cases h⟩

end Writing

-- ── What is rendered ──

section Reading

variable {catalog : Catalog} {mode : Mode} {o : Options} {id : String} {ids : List String}
  {tree later : FileTree}

/-- The directory that is read when providers have their turn: that of all providers, or the folder
    that is given. -/
def sourcePath (root : Path) (folder? : Option String) : Path :=
  match folder? with
  | none => Tree.providersPath root
  | some folder => (Tree.providersPath root).child folder

/-- The path to the modules keeps clear of a catalog, if that is a tree. -/
def IsClearOf (catalog : Catalog) (o : Options) (tree : FileTree) : Prop :=
  match catalog with
  | .tree root => KeepsClear (sourcePath root o.folder) o.providersPath tree
  | .document _ => True

/-- What is rendered from a folder is rendered from a directory. -/
theorem isDirectory_of_rendered {root : Path} {folder : String}
    {r : Option ProviderModels × List RenderedFile} (hfolder : o.folder = some folder)
    (h : rendered tree (.tree root) mode o id = .ok r) :
    tree.isDirectory ((Tree.providersPath root).child folder) = true := by
  by_contra hnone
  have hpath : Tree.providerPath tree root id (some folder) = .error (.providerNotFound folder) :=
    if_neg hnone
  obtain ⟨models, batch⟩ := r
  obtain ⟨prepared, hprepare, -, -⟩ := rendered_eq_ok.1 h
  obtain ⟨names, -, ⟨-, models, hload, -⟩ | ⟨-, info, models, hinfo, -⟩⟩ := prepare_cases hprepare
  · rw [Catalog.load, hfolder, Tree.load, hpath] at hload
    cases hload
  · rw [Catalog.info, hfolder, Tree.info, hpath] at hinfo
    cases hinfo

/-- **The same is rendered later**, if anything was rendered at the start. -/
theorem rendered_of_written {first : String} {r : Option ProviderModels × List RenderedFile}
    (hclear : IsClearOf catalog o tree) (hids : catalog.providerIds tree = .ok ids) (hid : id ∈ ids)
    (hfirst : rendered tree catalog mode o first = .ok r)
    (h : Written o.providersPath tree later) :
    rendered later catalog mode o id = rendered tree catalog mode o id := by
  cases catalog with
  | document d => exact rendered_congr rfl rfl
  | tree root =>
      cases hfolder : o.folder with
      | none =>
          rw [IsClearOf, hfolder] at hclear
          have hsame := h.sameBelow hclear
            (isDirectory_eq_true.1 (isDirectory_of_providerIds hids)).1
          have hpiece := isPiece_of_mem hids hid
          refine rendered_congr ?_ ?_
          · rw [hfolder]
            exact Tree.info_congr hsame hpiece
          · rw [hfolder]
            exact Tree.load_congr hsame hpiece
      | some folder =>
          rw [IsClearOf, hfolder] at hclear
          have hdir := isDirectory_of_rendered hfolder hfirst
          have hdir' := isDirectory_of_keeps h.keepsDirectories hdir
          have hsame := h.sameBelow hclear (isDirectory_eq_true.1 hdir).1
          have hpath : Tree.providerPath tree root id (some folder)
              = .ok ((Tree.providersPath root).child folder) := if_pos hdir
          have hpath' : Tree.providerPath later root id (some folder)
              = .ok ((Tree.providersPath root).child folder) := if_pos hdir'
          refine rendered_congr ?_ ?_
          · rw [hfolder, Catalog.info, Catalog.info, Tree.info, Tree.info, hpath, hpath']
            exact Tree.readInfo_congr hsame
          · rw [hfolder]
            exact Tree.load_of_sameBelow hsame hpath hpath'

end Reading

end Generation

end ModelCatalog
