import ModelCatalog.Proofs.Commit.Leftovers
import ModelCatalog.Proofs.Generation.Rendered
import ModelCatalog.Proofs.Models.Rereading

/-! # Writing apart from the catalog

    A run writes below the directory of all modules, and makes directories above it; it changes
    nothing elsewhere (`changedAround_generate`).  So it reads from a catalog that lies apart what it
    would have read at the start, and renders the same (`rendered_of_changedAround`).  What a provider
    comes to is then settled at the start, but for its batch: and that depends on nothing that a
    provider without success leaves behind (`generate_congr`). -/

namespace ModelCatalog

open FileTree Commit

/-- Whether a location is another or lies below it. -/
def Location.IsIn (l base : Location) : Prop := ∃ way : Location, l = base ++ way ∧ way.isDown = true

/-- Two directories neither of which lies in the other have nothing in common. -/
theorem Location.not_isIn_of_apart {source base : Location} (habove : ¬ source <+: base)
    (hin : ¬ source.IsIn base) (way : Location) : ¬ (source ++ way).IsIn base := by
  rintro ⟨down, heq, hdown⟩
  -- both lie above one place, so one of them lies above the other
  rcases List.append_eq_append_iff.1 heq with ⟨more, hmore, -⟩ | ⟨more, hmore, hdown'⟩
  · exact habove ⟨more, hmore.symm⟩
  · refine hin ⟨more, hmore, ?_⟩
    cases more with
    | nil => rfl
    | cons name rest =>
        rw [hdown'] at hdown
        exact hdown

/-- A catalog lies apart from a directory: it is no tree, or the directory of its providers is
    neither above that one nor in it. -/
def Catalog.IsApart (catalog : Catalog) (p : Path) : Prop :=
  match catalog with
  | .tree root => ¬ location (Tree.providersPath root) <+: location p ∧
      ¬ (location (Tree.providersPath root)).IsIn (location p)
  | .document _ => True

/-- A provider is listed by a name that is not its own: its directory is called by no text, and no
    directory is called by what is shown in the place of it. -/
def Catalog.IsMisnamed (catalog : Catalog) (files : FileTree) (id : String) : Prop :=
  match catalog with
  | .tree root => (∃ names name, files.directoryNames (Tree.providersPath root) = .ok names ∧
      name ∈ names ∧ name.isText = false ∧ name.display = id) ∧
      files.isDirectory ((Tree.providersPath root).child id) = false
  | .document _ => False

/-- Nothing but what lies above a path or in it has changed, and no directory has gone. -/
structure ChangedAround (p : Path) (before after : FileTree) : Prop where
  keepsDirectories : KeepsDirectories before after
  node? : ∀ l, after.node? l = before.node? l ∨ l <+: location p ∨ l.IsIn (location p)

namespace ChangedAround

variable {p : Path} {before between after : FileTree}

theorem refl (p : Path) (tree : FileTree) : ChangedAround p tree tree :=
  ⟨fun _ h => h, fun _ => Or.inl rfl⟩

theorem trans (h : ChangedAround p before between) (h' : ChangedAround p between after) :
    ChangedAround p before after := by
  refine ⟨h.keepsDirectories.trans h'.keepsDirectories, fun l => ?_⟩
  rcases h.node? l with hsame | haround
  · rw [← hsame]
    exact h'.node? l
  · exact Or.inr haround

/-- A catalog that lies apart is as it was. -/
theorem sameBelow {root : Path} (h : ChangedAround p before after)
    (hapart : (Catalog.tree root).IsApart p)
    (hlocate : before.locate (Tree.providersPath root) = .ok (location (Tree.providersPath root))) :
    SameBelow (Tree.providersPath root) before after := by
  obtain ⟨habove, hin⟩ := hapart
  refine ⟨hlocate, locate_of_keeps h.keepsDirectories hlocate, fun way => ?_⟩
  refine (h.node? _).resolve_right ?_
  rintro (hway | hbelow)
  · exact habove ((List.prefix_append _ way).trans hway)
  · exact Location.not_isIn_of_apart habove hin way hbelow

end ChangedAround

namespace Generation

section Reading

variable {catalog : Catalog} {mode : Mode} {o : Options} {id : String} {ids : List String}
  {tree other : FileTree}

/-- The ids of a tree are the names of its directories as they are shown, in order. -/
theorem exists_directoryNames {root : Path} (h : (Catalog.tree root).providerIds tree = .ok ids) :
    ∃ names, tree.directoryNames (Tree.providersPath root) = .ok names ∧
      (names.map RawText.display).mergeSort (fun a b => decide (a ≤ b)) = ids := by
  rw [Catalog.providerIds, Tree.providerIds] at h
  split at h
  · next names hnames => exact ⟨names, hnames, Except.ok.inj h⟩
  · cases h

/-- Names that are shown in order are the ids. -/
theorem providerIds_of_directoryNames {root path : Path} {names : List RawText}
    (hpath : Tree.providersPath root = path) (hnames : tree.directoryNames path = .ok names)
    (hids : (names.map RawText.display).Pairwise (· ≤ ·)) :
    (Catalog.tree root).providerIds tree = .ok (names.map RawText.display) := by
  rw [Catalog.providerIds, Tree.providerIds, hpath, hnames]
  exact congrArg Except.ok (List.mergeSort_of_pairwise (hids.imp decide_eq_true))

/-- An id of a tree is what a name is shown as. -/
theorem exists_name_of_mem {root : Path} (h : (Catalog.tree root).providerIds tree = .ok ids)
    (hid : id ∈ ids) : ∃ name : RawText, name.display = id ∧ FileName.isName name = true ∧
      tree.isDirectory ((Tree.providersPath root).child name) = true := by
  obtain ⟨names, hnames, rfl⟩ := exists_directoryNames h
  obtain ⟨name, hmem, rfl⟩ := List.mem_map.1 (List.mem_mergeSort.1 hid)
  obtain ⟨hname, hdir⟩ := (directoryNames_spec hnames).2 name hmem
  exact ⟨name, rfl, hname, hdir⟩

/-- A provider of a tree has a directory of its name, if it is listed by its own. -/
theorem isDirectory_of_not_isMisnamed {root : Path}
    (h : (Catalog.tree root).providerIds tree = .ok ids) (hid : id ∈ ids)
    (hnamed : ¬ (Catalog.tree root).IsMisnamed tree id) :
    tree.isDirectory ((Tree.providersPath root).child id) = true := by
  obtain ⟨names, hnames, rfl⟩ := exists_directoryNames h
  obtain ⟨name, hmem, rfl⟩ := List.mem_map.1 (List.mem_mergeSort.1 hid)
  by_contra hnone
  cases htext : name.isText with
  | false => exact hnamed ⟨⟨names, name, hnames, hmem, htext, rfl⟩, by simpa using hnone⟩
  | true =>
      obtain ⟨text, rfl⟩ := RawText.isText_iff.1 htext
      rw [RawText.display_ofString] at hnone
      exact hnone ((directoryNames_spec hnames).2 _ hmem).2

/-- An id of a tree leads one step down. -/
theorem isPiece_of_mem {root : Path} (h : (Catalog.tree root).providerIds tree = .ok ids)
    (hid : id ∈ ids) : FileName.IsPiece id := by
  obtain ⟨name, rfl, hname, -⟩ := exists_name_of_mem h hid
  exact FileName.isPiece_display hname

theorem isDirectory_of_providerIds {root : Path}
    (h : (Catalog.tree root).providerIds tree = .ok ids) :
    tree.isDirectory (Tree.providersPath root) = true := by
  obtain ⟨names, hnames, -⟩ := exists_directoryNames h
  exact isDirectory_of_directoryNames hnames

/-- What is rendered depends on what is read. -/
theorem rendered_congr (hinfo : catalog.info other id o.folder = catalog.info tree id o.folder)
    (hload : catalog.load other id o.folder = catalog.load tree id o.folder) :
    rendered other catalog mode o id = rendered tree catalog mode o id := by
  rw [rendered, rendered, prepare, prepare, hinfo, hload]

/-- Nothing is rendered for a provider with a directory in the place of its metadata. -/
theorem rendered_of_directory {root : Path} {names : ProviderNames} (hfolder : o.folder = none)
    (hnames : ProviderNames.ofId id o.typeName = .ok names)
    (hdir : tree.isDirectory ((Tree.providersPath root).child id) = true)
    (hinfo : tree.isDirectory (((Tree.providersPath root).child id).child "provider.toml") = true) :
    rendered tree (.tree root) .capabilities o id =
      .error (.notRead (((Tree.providersPath root).child id).child "provider.toml") .isDirectory) := by
  have hpath : Tree.providerPath tree root id none = .ok ((Tree.providersPath root).child id) :=
    if_pos hdir
  have hfind := find_eq_ok.2 ⟨_, isDirectory_eq_true.1 hinfo⟩
  have hread : tree.readText (((Tree.providersPath root).child id).child "provider.toml")
      = .error .isDirectory := by
    rw [readText, FileTree.read, hfind]
    rfl
  have hload : Tree.load tree root id none = .error
      (.notRead (((Tree.providersPath root).child id).child "provider.toml") .isDirectory) := by
    rw [Tree.load, hpath, ok_bind, Tree.readInfo, hfind, hread]
    rfl
  rw [rendered, prepare, hnames, ok_bind, hfolder, Catalog.load, hload]
  rfl

end Reading

-- ── What a provider writes ──

section Writing

variable {catalog : Catalog} {mode : Mode} {o : Options} {id : String} {tree other after : FileTree}
  {disk : Disk} {batch : List RenderedFile}

/-- The directory of a provider's module. -/
def modulePath (o : Options) (id : String) : Path :=
  o.providersPath.child (Identifier.moduleName id)

namespace RenderedFor

theorem location_modulePath (h : RenderedFor mode o id batch) :
    location (modulePath o id)
      = location o.providersPath ++ ([Identifier.moduleName id] : Location) := by
  obtain ⟨hslash, hidle, hup⟩ := Identifier.isPiece_of_isValid h.valid
  exact location_child hslash hidle hup

/-- The files of a provider lie in the directory of its module. -/
theorem inDirectory (h : RenderedFor mode o id batch) : InDirectory (modulePath o id) batch := by
  obtain ⟨hslash, hidle, hup⟩ := Identifier.isPiece_of_isValid h.valid
  refine ⟨raw_child_ne hslash hidle _, fun file hfile => ?_, fun file hfile => ?_⟩
  · rw [h.path file hfile]
    exact parent?_child_child hslash hidle file.kind.isPiece_fileName.1
      file.kind.isPiece_fileName.2 _
  · obtain ⟨hslash', hidle', hup'⟩ := file.kind.isPiece_fileName
    exact ⟨file.kind.fileName, h.path file hfile, hslash', hidle', hup'⟩

theorem batch_ne_nil (h : RenderedFor mode o id batch) : batch ≠ [] := by
  obtain ⟨file, hfile, -⟩ := h.main
  exact List.ne_nil_of_mem hfile

/-- What lies below a module lies in the directory of all modules. -/
theorem isIn_of_append (h : RenderedFor mode o id batch) (way : Location) :
    (location (modulePath o id) ++ way).IsIn (location o.providersPath) := by
  obtain ⟨hslash, -, hup⟩ := Identifier.isPiece_of_isValid h.valid
  have hroot : Identifier.moduleName id ≠ "/" := fun heq => hslash (by rw [heq]; decide)
  refine ⟨Identifier.moduleName id :: way, ?_, ?_⟩
  · rw [h.location_modulePath, List.append_assoc]
    rfl
  · rw [Location.isDown, List.head?_cons, Bool.and_eq_true]
    exact ⟨by simpa using hroot, by simpa using hup⟩

theorem isIn_modulePath (h : RenderedFor mode o id batch) :
    (location (modulePath o id)).IsIn (location o.providersPath) := by
  have hway := h.isIn_of_append []
  rwa [List.append_nil] at hway

/-- A file of a provider lies in the directory of all modules. -/
theorem isIn_providersPath (h : RenderedFor mode o id batch) {file : RenderedFile}
    (hfile : file ∈ batch) : (location file.path).IsIn (location o.providersPath) := by
  have hway := h.isIn_of_append [file.kind.fileName]
  rw [h.location_modulePath, List.append_assoc] at hway
  rw [h.path file hfile, location_filePath h.valid]
  exact hway

end RenderedFor

/-- What a provider comes to whose files have been written to some paths. -/
def generated (id : String) (models : Option ProviderModels) (paths : List Path) : Generated :=
  ⟨⟨id, (models.map (·.models.size)).getD 0, paths⟩, models⟩

theorem generate_of_rendered {models : Option ProviderModels}
    (h : rendered tree catalog mode o id = .ok (models, batch)) :
    generate catalog mode o id tree disk =
      ((commit batch o.dryRun tree disk).1,
        generated id models <$> (commit batch o.dryRun tree disk).2) := by
  rw [generate, h]
  dsimp only
  rcases commit batch o.dryRun tree disk with ⟨after, error | paths⟩ <;> rfl

/-- A provider of which nothing can be rendered has no consequence. -/
theorem generate_of_error {error : Error} (h : rendered tree catalog mode o id = .error error) :
    generate catalog mode o id tree disk = (tree, .error error) := by
  rw [generate, h]

/-- **A provider succeeds** if its files are rendered and committed. -/
theorem generate_eq_ok {g : Generated} :
    (generate catalog mode o id tree disk).2 = .ok g ↔ ∃ models batch paths,
      rendered tree catalog mode o id = .ok (models, batch) ∧
        (commit batch o.dryRun tree disk).2 = .ok paths ∧ generated id models paths = g := by
  cases hrendered : rendered tree catalog mode o id with
  | error error =>
      rw [generate_of_error hrendered]
      exact iff_of_false (fun h => by cases h) fun ⟨_, _, _, h, _⟩ => by cases h
  | ok rendering =>
      rw [generate_of_rendered hrendered, map_eq_ok]
      constructor
      · rintro ⟨paths, hcommit, rfl⟩
        exact ⟨_, _, paths, rfl, hcommit, rfl⟩
      · rintro ⟨models, batch, paths, heq, hcommit, rfl⟩
        obtain ⟨rfl, rfl⟩ := Prod.mk.inj (Except.ok.inj heq)
        exact ⟨paths, hcommit, rfl⟩

/-- **A provider fails** if its files are not rendered, or are not committed. -/
theorem generate_eq_error {error : Error} :
    (generate catalog mode o id tree disk).2 = .error error ↔
      rendered tree catalog mode o id = .error error ∨ ∃ models batch,
        rendered tree catalog mode o id = .ok (models, batch) ∧
          (commit batch o.dryRun tree disk).2 = .error error := by
  cases hrendered : rendered tree catalog mode o id with
  | error fault =>
      rw [generate_of_error hrendered]
      constructor
      · intro h
        exact Or.inl (congrArg Except.error (Except.error.inj h))
      · rintro (h | ⟨models, batch, h, -⟩)
        · rw [Except.error.inj h]
        · cases h
  | ok rendering =>
      rw [generate_of_rendered hrendered, map_eq_error]
      constructor
      · intro h
        exact Or.inr ⟨_, _, rfl, h⟩
      · rintro (h | ⟨models, batch, h, herror⟩)
        · cases h
        · obtain rfl := Except.ok.inj h
          exact herror

end Writing

end Generation

end ModelCatalog
