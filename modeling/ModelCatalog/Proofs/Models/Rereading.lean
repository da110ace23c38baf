import ModelCatalog.Catalog
import ModelCatalog.Proofs.FileTree.Below
import ModelCatalog.Proofs.Models.Loaders

/-! # Reading a catalog again

    A tree is read anew whenever it is asked, so what a run writes could change what it reads later.
    It does not if it changes nothing below the directory of all providers (`Tree.load_congr`). -/

namespace ModelCatalog

/-- What the name of a file is shown as leads one step down, too: what is shown as a slash or as dots
    are these. -/
theorem FileName.isPiece_display {name : RawText} (h : isName name = true) :
    IsPiece name.display := by
  obtain ⟨hslash, hidle, hup⟩ := isPiece_of_isName h
  rw [Path.isIdle, Bool.or_eq_false_iff, beq_eq_false_iff_ne, beq_eq_false_iff_ne] at hidle
  have hne : ∀ {s : String}, s.toList.all (·.toNat < 128) = true → name ≠ s →
      (name.display : RawText) ≠ s := fun hsmall hname heq =>
    hname (RawText.eq_of_display hsmall (RawText.ofString_inj.1 heq))
  refine ⟨fun hmem => hslash ?_, ?_, hne (by decide) hup⟩
  · exact RawText.mem_of_mem_display (by decide) (RawText.slash_mem_ofString.1 hmem)
  · rw [Path.isIdle, Bool.or_eq_false_iff, beq_eq_false_iff_ne, beq_eq_false_iff_ne]
    exact ⟨hne (by decide) hidle.1, hne (by decide) hidle.2⟩

namespace Tree

open FileTree

variable {tree other : FileTree}

-- ── Ways as paths ──

/-- The names on a way that a walk has found are the pieces of its path, and lead down. -/
theorem pieces_of_mem_walk {base way : Location} {n : Node} (h : (way, n) ∈ tree.walk base) :
    (Path.ofPieces way).isAbsolute = false ∧ (Path.ofPieces way).pieces = way ∧
      (".." : RawText) ∉ way := by
  obtain ⟨-, hne, -⟩ := mem_walk_iff_node?.1 h
  have hnames := isName_of_mem_walk h
  obtain ⟨first, rest, rfl⟩ := List.exists_cons_of_ne_nil hne
  have hpieces : (Path.ofPieces (first :: rest)).pieces = first :: rest :=
    pieces_ofPieces fun piece hpiece => (FileName.of_isName (hnames piece hpiece)).2
  have hfirst : first ≠ "" := (FileName.of_isName (hnames first List.mem_cons_self)).1
  have htext : (Path.ofPieces (first :: rest)).raw ≠ "" := by
    intro hempty
    rw [Path.pieces, hempty] at hpieces
    exact hfirst (List.cons.inj hpieces).1.symm
  refine ⟨?_, hpieces, fun hmem => absurd (hnames _ hmem) (by decide)⟩
  rw [isAbsolute_eq hpieces htext]
  exact decide_eq_false hfirst

-- ── The same tree ──

theorem readText_congr {p : Path} (h : other.find p = tree.find p) :
    other.readText p = tree.readText p := by
  rw [readText, readText, FileTree.read, FileTree.read, h]

theorem readInfo_congr {p : Path} (h : SameBelow p tree other) :
    readInfo other p = readInfo tree p := by
  have hfind : other.find (p.child "provider.toml") = tree.find (p.child "provider.toml") :=
    h.find_child (by decide) (by decide)
  rw [readInfo, readInfo, hfind, readText_congr hfind]

/-- The verdict on a record is the same where its file is. -/
theorem recordVerdict_congr {modelsPath : Path} {way : Location} {format : Format}
    (h : other.find (recordPath modelsPath way) = tree.find (recordPath modelsPath way)) :
    recordVerdict other modelsPath way format = recordVerdict tree modelsPath way format := by
  have hread : readEntry other (recordPath modelsPath way) format
      = readEntry tree (recordPath modelsPath way) format := by
    rw [readEntry, readEntry, readText_congr h]
  have hverdict : ∀ id, fileVerdict other (recordPath modelsPath way) format id
      = fileVerdict tree (recordPath modelsPath way) format id := by
    intro id
    rw [fileVerdict, fileVerdict, hread]
  simp only [recordVerdict, hverdict]

theorem verdict?_congr {p : Path} (h : SameBelow p tree other) {x : Location × Node}
    (hx : x ∈ tree.walk (location p)) : verdict? other p x = verdict? tree p x := by
  obtain ⟨way, n⟩ := x
  obtain ⟨hrelative, hpieces, hup⟩ := pieces_of_mem_walk hx
  have hdown : (".." : RawText) ∉ (Path.ofPieces way).pieces := by rwa [hpieces]
  have hfind : other.find (recordPath p way) = tree.find (recordPath p way) :=
    h.find_join hrelative hdown
  cases n with
  | directory => rw [verdict?, verdict?, hfind]
  | file content => simp only [verdict?, recordVerdict_congr hfind]

theorem verdicts_congr {p : Path} (h : SameBelow p tree other) :
    verdicts other p = verdicts tree p := by
  rw [verdicts, verdicts, h.locate, h.locate_other]
  dsimp only
  rw [walk_congr h.node?]
  exact List.filterMap_congr fun x hx => verdict?_congr h hx

section Load

variable {root : Path} {id : String}

/-- What loading does with the directory of a provider. -/
theorem load_of_providerPath {files : FileTree} {folder? : Option String} {path : Path}
    (hpath : providerPath files root id folder? = .ok path) :
    load files root id folder? = (do
      let info ← readInfo files path
      if files.isDirectory (path.child "models") then
        ProviderModels.gather id info (verdicts files (path.child "models"))
      else .error (.noActiveModels id)) := by
  rw [load, hpath, ok_bind]
  cases readInfo files path with
  | error error => rfl
  | ok info =>
      rw [ok_bind, ok_bind]
      dsimp only
      cases files.isDirectory (path.child "models") <;> rfl

/-- A provider has the same directory in both trees, if its id can be the name of one. -/
theorem providerPath_congr (h : SameBelow (providersPath root) tree other)
    (hid : FileName.IsPiece id) :
    providerPath other root id none = providerPath tree root id none := by
  obtain ⟨hslash, -, hup⟩ := hid
  rw [providerPath, providerPath, Option.getD_none, h.isDirectory_child hslash hup]

theorem sameBelow_providerPath {path : Path} (h : SameBelow (providersPath root) tree other)
    (hid : FileName.IsPiece id) (hpath : providerPath tree root id none = .ok path) :
    SameBelow path tree other := by
  obtain ⟨hslash, hidle, hup⟩ := hid
  rw [providerPath, Option.getD_none] at hpath
  split at hpath
  · next hdir =>
    obtain rfl := Except.ok.inj hpath
    obtain ⟨hlocate, -⟩ := isDirectory_eq_true.1 hdir
    exact h.child hslash hidle hup hlocate
  · exact nomatch hpath

theorem info_congr (h : SameBelow (providersPath root) tree other)
    (hid : FileName.IsPiece id) : info other root id none = info tree root id none := by
  rw [info, info, providerPath_congr h hid]
  cases hpath : providerPath tree root id none with
  | error error => rfl
  | ok path => exact readInfo_congr (sameBelow_providerPath h hid hpath)

/-- **A provider in one directory is loaded alike** from trees with the same below it. -/
theorem load_of_sameBelow {folder? : Option String} {path : Path} (h : SameBelow path tree other)
    (hpath : providerPath tree root id folder? = .ok path)
    (hpath' : providerPath other root id folder? = .ok path) :
    load other root id folder? = load tree root id folder? := by
  have hdir : other.isDirectory (path.child "models") = tree.isDirectory (path.child "models") :=
    h.isDirectory_child (by decide) (by decide)
  rw [load_of_providerPath hpath, load_of_providerPath hpath', readInfo_congr h, hdir]
  by_cases hmodels : tree.isDirectory (path.child "models") = true
  · obtain ⟨hlocate, -⟩ := isDirectory_eq_true.1 hmodels
    rw [verdicts_congr (h.child (by decide) (by decide) (by decide) hlocate)]
  · simp only [if_neg hmodels]

/-- **A provider is loaded as before.** -/
theorem load_congr (h : SameBelow (providersPath root) tree other)
    (hid : FileName.IsPiece id) : load other root id none = load tree root id none := by
  cases hpath : providerPath tree root id none with
  | error error => rw [load, load, providerPath_congr h hid, hpath]; rfl
  | ok path =>
      exact load_of_sameBelow (sameBelow_providerPath h hid hpath) hpath
        ((providerPath_congr h hid).trans hpath)

end Load

end Tree

end ModelCatalog
