import ModelCatalog.Proofs.Generation.Formatting
import ModelCatalog.Proofs.Generation.OneByOne
import ModelCatalog.Proofs.Names.LetterCase

/-! # Output stays in its place

    Ids are free text, and a catalog can hold any of them: `../x`, `/etc`, a text full of dots.  But
    the directory that is written for one is named after it, and that name is a letter with letters,
    digits and underscores behind it (`isModuleName_of_isValid`).  So the files that may be written for
    a provider in its turn are two (`MayWrite`): the registry of its module, and the scaffold if the
    metadata says that the provider is compatible.  Whatever a commit does, it changes no other files
    (`exists_file_of_change`).

    The headline, `run_inPlace`, says so of whole runs, over trees and paths of any kind, with `..` in
    them or without.  A formatter goes further: it comes from a scaffold to the module that is declared
    there, wherever that has its file (`run_outOfPlace`). -/

namespace ModelCatalog

open FileTree Commit

-- ── Names of modules ──

/-- A lower-case letter with lower-case letters, digits and underscores behind it. -/
def IsModuleName (name : String) : Prop :=
  ∃ first rest, name.toList = first :: rest ∧ first.isLower = true ∧
    ∀ c ∈ rest, (c.isLower || c.isDigit || c == '_') = true

/-- **The module of an id has such a name**, if the name is an identifier. -/
theorem isModuleName_of_isValid {id : String}
    (h : Identifier.isValid (Identifier.moduleName id) = true) :
    IsModuleName (Identifier.moduleName id) := by
  have hcase : ∀ c ∈ (Identifier.moduleName id).toList, c.isUpper = false := by
    intro c hc
    rw [Identifier.moduleName, String.toList_ofList, Identifier.snake] at hc
    obtain ⟨d, -, rfl⟩ := List.mem_map.1 hc
    exact Char.isUpper_toLower_eq_false d
  rw [Identifier.isValid, Bool.and_eq_true] at h
  have hshaped := h.1
  cases hname : (Identifier.moduleName id).toList with
  | nil =>
      rw [hname] at hshaped
      cases hshaped
  | cons first rest =>
      rw [hname] at hshaped hcase
      rw [Identifier.isShaped, Bool.and_eq_true, List.all_eq_true] at hshaped
      have hlower : ∀ {c}, c ∈ first :: rest → c.isAlpha = c.isLower := by
        intro c hc
        rw [Char.isAlpha, hcase c hc, Bool.false_or]
      refine ⟨first, rest, hname, (hlower List.mem_cons_self) ▸ hshaped.1, fun c hc => ?_⟩
      have hword := hshaped.2 c hc
      rwa [Identifier.isWordChar, Char.isAlphanum, hlower (List.mem_cons_of_mem _ hc)] at hword

-- ── Commits ──

namespace Commit

variable {batch : List RenderedFile} {dryRun : Bool} {tree : FileTree} {disk : Disk}

/-- **A commit changes no files but those of its batch**, whatever comes of it. -/
theorem exists_file_of_change {l : Location}
    (h : (commit batch dryRun tree disk).1.file? l ≠ tree.file? l) :
    ∃ file ∈ batch, location file.path = l := by
  by_contra hnone
  refine h ?_
  cases dryRun with
  | true => rw [commit_dryRun]
  | false =>
      obtain ⟨made, hgrows, ⟨after, hrun, hover⟩ | ⟨after, error, hrun, hback⟩⟩ :=
        commit_spec batch tree disk
      · rw [hrun, ← hgrows.file?_eq l]
        exact file?_congr ((hover.node?_or l).resolve_right hnone)
      · rw [hrun, ← hgrows.file?_eq l]
        refine file?_congr (hback.node? l fun file hfile hl => ?_)
        exact absurd ⟨file, hfile, hl⟩ hnone

/-- What is committed are the paths of the batch, or none in a dry run. -/
theorem paths_of_commit {paths : List Path}
    (h : (commit batch dryRun tree disk).2 = .ok paths) :
    paths = if dryRun = true then [] else batch.map (·.path) := by
  cases dryRun with
  | true =>
      rw [commit] at h
      cases hbefore : snapshots disk tree batch with
      | error error =>
          rw [hbefore] at h
          cases h
      | ok before =>
          rw [hbefore] at h
          exact (Except.ok.inj h).symm
  | false =>
      obtain ⟨made, -, ⟨after, hrun, -⟩ | ⟨after, error, hrun, -⟩⟩ := commit_spec batch tree disk
      · rw [hrun] at h
        exact (Except.ok.inj h).symm
      · rw [hrun] at h
        cases h

end Commit

namespace Generation

variable {catalog : Catalog} {mode : Mode} {o : Options} {id : String} {tree : FileTree}

-- ── One provider ──

/-- A file of a kind may be written for a provider that finds a tree in its turn: its module has the
    name of a module, and a scaffold goes with metadata that names the package of compatible
    providers, and never with an excluded id. -/
structure MayWrite (catalog : Catalog) (o : Options) (turn : FileTree) (id : String)
    (kind : FileKind) : Prop where
  module : IsModuleName (Identifier.moduleName id)
  compatible : kind = .scaffold → ∃ info, catalog.info turn id o.folder = .ok info ∧
    info.npm = some ProviderInfo.compatiblePackage ∧ id ∉ ProviderInfo.excluded

/-- A scaffold is prepared for compatible providers only. -/
theorem isCompatible_of_prepare {r : Rendering} (h : prepare tree catalog mode o id = .ok r)
    (hscaffold : r.hasScaffold = true) :
    ∃ info, catalog.info tree id o.folder = .ok info ∧ info.isCompatible id = true := by
  obtain ⟨names, -, ⟨-, models, -, rfl⟩ | ⟨-, info, models, hinfo, hcompatible, -, -⟩⟩ :=
    prepare_cases h
  · cases hscaffold
  · exact ⟨info, hinfo, hcompatible⟩

/-- **What is rendered for a provider may be written.** -/
theorem mayWrite_of_rendered {models : Option ProviderModels} {batch : List RenderedFile}
    (h : rendered tree catalog mode o id = .ok (models, batch)) {file : RenderedFile}
    (hfile : file ∈ batch) : MayWrite catalog o tree id file.kind := by
  refine ⟨isModuleName_of_isValid (renderedFor_of_rendered h).valid, fun hkind => ?_⟩
  obtain ⟨r, hprepare, hfiles, -⟩ := rendered_eq_ok.1 h
  have hmem : FileKind.scaffold ∈ batch.map (·.kind) := List.mem_map.2 ⟨file, hfile, hkind⟩
  have hscaffold : r.hasScaffold = true := by
    rw [(files_spec hfiles).2] at hmem
    by_contra hnone
    rw [if_neg hnone] at hmem
    split at hmem <;> simp at hmem
  obtain ⟨info, hinfo, hcompatible⟩ := isCompatible_of_prepare hprepare hscaffold
  rw [ProviderInfo.isCompatible, Bool.and_eq_true] at hcompatible
  exact ⟨info, hinfo, by simpa using hcompatible.1, by simpa using hcompatible.2⟩

/-- **The step**: a file that changes in the turn of a provider may be written for it. -/
theorem mayWrite_of_change {disk : Disk} {l : Location}
    (h : (generate catalog mode o id tree disk).1.file? l ≠ tree.file? l) :
    ∃ kind, MayWrite catalog o tree id kind ∧
      l = location (filePath o.providersPath (Identifier.moduleName id) kind) := by
  cases hrendered : rendered tree catalog mode o id with
  | error error =>
      rw [generate_of_error hrendered] at h
      exact absurd rfl h
  | ok rendering =>
      rw [generate_of_rendered hrendered] at h
      obtain ⟨file, hfile, rfl⟩ := exists_file_of_change h
      refine ⟨file.kind, mayWrite_of_rendered hrendered hfile, ?_⟩
      rw [(renderedFor_of_rendered hrendered).path file hfile]

/-- What a provider lists may be written for it. -/
theorem mayWrite_of_paths {disk : Disk} {g : Generated}
    (h : (generate catalog mode o id tree disk).2 = .ok g) :
    g.outcome.providerId = id ∧ ∀ path ∈ g.outcome.paths, ∃ kind, MayWrite catalog o tree id kind ∧
      path = filePath o.providersPath (Identifier.moduleName id) kind := by
  obtain ⟨models, batch, paths, hrendered, hcommit, rfl⟩ := generate_eq_ok.1 h
  refine ⟨rfl, fun path hpath => ?_⟩
  change path ∈ paths at hpath
  rw [paths_of_commit hcommit] at hpath
  split at hpath
  · cases hpath
  · obtain ⟨file, hfile, rfl⟩ := List.mem_map.1 hpath
    exact ⟨file.kind, mayWrite_of_rendered hrendered hfile,
      (renderedFor_of_rendered hrendered).path file hfile⟩

-- ── All providers ──

/-- A run gives a provider its turn, in which it finds a tree: the one that the run starts with, or
    the one that the providers before it have left. -/
inductive IsTurn (catalog : Catalog) (mode : Mode) (o : Options) (disk : String → Disk)
    (tree : FileTree) : Selector → String → FileTree → Prop
  | one (id : String) : IsTurn catalog mode o disk tree (.one id) id tree
  | all {before rest : List String} {id : String}
      (hselected : selected tree catalog mode = .ok (before ++ id :: rest)) :
      IsTurn catalog mode o disk tree .all id (visit catalog mode o disk before tree {}).1

/-- Whoever is among those that have a turn has it after those before. -/
theorem isTurn_of_turns {selector : Selector} {disk : String → Disk} {before rest : List String}
    (h : turns tree catalog mode selector = .ok (before ++ id :: rest)) :
    IsTurn catalog mode o disk tree selector id (visit catalog mode o disk before tree {}).1 := by
  cases selector with
  | one only =>
      have honly : [only] = before ++ id :: rest := Except.ok.inj h
      cases before with
      | nil =>
          obtain ⟨rfl, -⟩ := List.cons.inj honly
          exact .one _
      | cons first before => exact absurd (congrArg List.length honly) (by simp)
  | all => exact .all h

/-- What is recorded of a provider is its success, or none. -/
theorem mem_succeeded_record {s : Summary} {result : Except Error Generated} {outcome : Outcome}
    (h : outcome ∈ (record s id result).succeeded) :
    outcome ∈ s.succeeded ∨ ∃ g, result = .ok g ∧ g.outcome = outcome := by
  cases result with
  | ok g =>
      rcases List.mem_append.1 h with hbefore | hhere
      · exact Or.inl hbefore
      · exact Or.inr ⟨g, rfl, (List.mem_singleton.1 hhere).symm⟩
  | error error =>
      rw [record] at h
      split at h <;> exact Or.inl h

section Visit

variable {disk : String → Disk} {ids : List String} {s : Summary}

/-- A file that changes while providers are visited changes in the turn of one of them. -/
theorem exists_turn_of_change {l : Location}
    (h : (visit catalog mode o disk ids tree s).1.file? l ≠ tree.file? l) :
    ∃ before id rest, ids = before ++ id :: rest ∧
      let turn := (visit catalog mode o disk before tree s).1
      (generate catalog mode o id turn (disk id)).1.file? l ≠ turn.file? l := by
  induction ids generalizing tree s with
  | nil => exact absurd rfl h
  | cons id rest ih =>
      by_cases hhere : (generate catalog mode o id tree (disk id)).1.file? l = tree.file? l
      · rw [visit_cons, ← hhere] at h
        obtain ⟨before, next, behind, rfl, hturn⟩ := ih h
        exact ⟨id :: before, next, behind, rfl, hturn⟩
      · exact ⟨[], id, rest, rfl, hhere⟩

/-- What a visit lists as a success has succeeded in its turn. -/
theorem exists_turn_of_succeeded {outcome : Outcome}
    (h : outcome ∈ (visit catalog mode o disk ids tree s).2.succeeded) :
    outcome ∈ s.succeeded ∨ ∃ before id rest g, ids = before ++ id :: rest ∧
      (generate catalog mode o id (visit catalog mode o disk before tree s).1 (disk id)).2 = .ok g ∧
        g.outcome = outcome := by
  induction ids generalizing tree s with
  | nil => exact Or.inl h
  | cons id rest ih =>
      rw [visit_cons] at h
      rcases ih h with hrecorded | ⟨before, next, behind, g, rfl, hturn⟩
      · rcases mem_succeeded_record hrecorded with hbefore | ⟨g, hg, hhere⟩
        · exact Or.inl hbefore
        · exact Or.inr ⟨[], id, rest, g, rfl, hg, hhere⟩
      · exact Or.inr ⟨id :: before, next, behind, g, rfl, hturn⟩

end Visit

/-- Before anything is formatted, every file that has changed may be written for a provider in its
    turn, and so may every path that is listed. -/
theorem produce_inPlace (catalog : Catalog) (selector : Selector) (mode : Mode) (o : Options)
    (tree : FileTree) (disk : String → Disk) :
    (∀ l, (produce catalog selector mode o tree disk).1.file? l ≠ tree.file? l →
      ∃ id turn kind, IsTurn catalog mode o disk tree selector id turn ∧
        MayWrite catalog o turn id kind ∧
        l = location (filePath o.providersPath (Identifier.moduleName id) kind)) ∧
    ∀ s, (produce catalog selector mode o tree disk).2 = .ok s → ∀ outcome ∈ s.succeeded,
      ∃ turn, IsTurn catalog mode o disk tree selector outcome.providerId turn ∧
        ∀ path ∈ outcome.paths, ∃ kind, MayWrite catalog o turn outcome.providerId kind ∧
          path = filePath o.providersPath (Identifier.moduleName outcome.providerId) kind := by
  rcases produce_cases catalog selector mode o tree disk with
    ⟨error, hproduce⟩ | ⟨ids, hturns, htree, hsummary⟩
  · rw [hproduce]
    refine ⟨fun l hl => absurd rfl hl, fun s hs => ?_⟩
    cases hs
  · refine ⟨fun l hl => ?_, fun s hs outcome houtcome => ?_⟩
    · rw [htree] at hl
      obtain ⟨before, id, rest, rfl, hturn⟩ := exists_turn_of_change hl
      obtain ⟨kind, hmay, hplace⟩ := mayWrite_of_change hturn
      exact ⟨id, _, kind, isTurn_of_turns hturns, hmay, hplace⟩
    · obtain rfl := hsummary s hs
      rcases exists_turn_of_succeeded houtcome with hnone | ⟨before, id, rest, g, rfl, hg, rfl⟩
      · cases hnone
      · obtain ⟨rfl, hpaths⟩ := mayWrite_of_paths hg
        exact ⟨_, isTurn_of_turns hturns, hpaths⟩

/-- A file has been formatted that is not to be written itself: the formatter has come to it from a
    path that is listed.  It was there, and still is. -/
structure IsFormatted (catalog : Catalog) (selector : Selector) (mode : Mode) (o : Options)
    (tree : FileTree) (disk : String → Disk) (formatter : Formatter) (l : Location) : Prop where
  asked : o.format = true ∧ o.dryRun = false
  reached : ∃ s, (run catalog selector mode o tree disk formatter).2 = .ok s ∧ ∃ path ∈ s.paths,
    formatter.Reaches (produce catalog selector mode o tree disk).1 (location path) l
  before : ∃ content, (produce catalog selector mode o tree disk).1.file? l = some content
  after : ∃ content, (run catalog selector mode o tree disk formatter).1.file? l = some content

/-- What is changed by formatting alone is formatted. -/
theorem isFormatted_of_change {selector : Selector} {disk : String → Disk} {formatter : Formatter}
    (hlawful : formatter.IsLawful) {l : Location}
    (h : (run catalog selector mode o tree disk formatter).1.file? l
      ≠ (produce catalog selector mode o tree disk).1.file? l) :
    IsFormatted catalog selector mode o tree disk formatter l := by
  have hresult : (run catalog selector mode o tree disk formatter).2
      = (produce catalog selector mode o tree disk).2 := run_snd
  cases hproduce : produce catalog selector mode o tree disk with
  | mk after result =>
      cases result with
      | error error =>
          rw [run, hproduce] at h
          exact absurd rfl h
      | ok s =>
          have hrun : (run catalog selector mode o tree disk formatter).1
              = if o.format && !o.dryRun then formatter.run s.paths after else after := by
            rw [run, hproduce]
          rw [hproduce] at h hresult
          rw [hrun] at h
          split at h
          · next hasked =>
            rw [if_pos hasked] at hrun
            obtain ⟨hreached, hbefore, hafter⟩ := hlawful.exists_reached h
            refine ⟨by simpa using hasked, ⟨s, hresult, ?_⟩, ?_, ?_⟩
            · rw [hproduce]
              exact hreached
            · rw [hproduce]
              exact hbefore
            · rw [hrun]
              exact hafter
          · exact absurd rfl h

/-- **OUTPUT STAYS IN ITS PLACE.**  For any catalog, selector, mode, options, tree, faults of the disk
    and lawful formatter: every file that a run changes, creates or removes is one that may be written
    for a provider in its turn, or it has been formatted because it was asked for.  Every path that a
    run lists may be written. -/
theorem run_inPlace (catalog : Catalog) (selector : Selector) (mode : Mode) (o : Options)
    (tree : FileTree) (disk : String → Disk) {formatter : Formatter} (hlawful : formatter.IsLawful) :
    (∀ l, (run catalog selector mode o tree disk formatter).1.file? l ≠ tree.file? l →
      (∃ id turn kind, IsTurn catalog mode o disk tree selector id turn ∧
        MayWrite catalog o turn id kind ∧
        l = location (filePath o.providersPath (Identifier.moduleName id) kind)) ∨
      IsFormatted catalog selector mode o tree disk formatter l) ∧
    ∀ s, (run catalog selector mode o tree disk formatter).2 = .ok s → ∀ outcome ∈ s.succeeded,
      ∃ turn, IsTurn catalog mode o disk tree selector outcome.providerId turn ∧
        ∀ path ∈ outcome.paths, ∃ kind, MayWrite catalog o turn outcome.providerId kind ∧
          path = filePath o.providersPath (Identifier.moduleName outcome.providerId) kind := by
  obtain ⟨hfiles, hpaths⟩ := produce_inPlace catalog selector mode o tree disk
  refine ⟨fun l hl => ?_, fun s hs => hpaths s (run_snd.symm.trans hs)⟩
  by_cases hproduce : (produce catalog selector mode o tree disk).1.file? l = tree.file? l
  · exact Or.inr (isFormatted_of_change hlawful (hproduce ▸ hl))
  · exact Or.inl (hfiles l hproduce)

/-- A document with a provider whose id leads up. -/
def upDocument : Document :=
  ⟨Index.empty.insert ⟨"../x", {}, Index.empty.insert ("m", .object [])⟩⟩

/-- The settings of a run into `out/gen`. -/
def intoGen : Options := { outputRoot := ⟨"out"⟩, providersDirectory := ⟨"gen"⟩ }

/-- What is written for it stays in its place all the same. -/
theorem run_inPlace_up :
    Formatter.missing.IsLawful ∧
      ∃ s outcome, (run (.document upDocument) .all .capabilities intoGen .empty).2 = .ok s ∧
        outcome ∈ s.succeeded ∧ outcome.providerId = "../x" ∧
        outcome.paths = [⟨"out/gen/x/capabilities.rs"⟩] ∧
        ∀ path ∈ outcome.paths, ∃ name kind, IsModuleName name ∧
          path = filePath ⟨"out/gen"⟩ name kind := by
  have hlisted : (run (.document upDocument) .all .capabilities intoGen .empty).2.toOption.map
      (fun s => s.succeeded.map fun outcome =>
        (outcome.providerId, outcome.paths)) = some [("../x", [⟨"out/gen/x/capabilities.rs"⟩])] := by
    decide +kernel
  refine ⟨Formatter.isLawful_missing, ?_⟩
  cases hrun : (run (.document upDocument) .all .capabilities intoGen .empty).2 with
  | error error =>
      rw [hrun] at hlisted
      cases hlisted
  | ok s =>
      rw [hrun] at hlisted
      obtain ⟨outcome, rest, hsucceeded, houtcome, -⟩ :=
        List.map_eq_cons_iff.1 (Option.some.inj hlisted)
      obtain ⟨hid, hpaths⟩ := Prod.mk.inj houtcome
      have hmem : outcome ∈ s.succeeded := hsucceeded ▸ List.mem_cons_self
      obtain ⟨turn, -, hplaces⟩ :=
        (run_inPlace _ _ _ _ _ _ Formatter.isLawful_missing).2 s hrun outcome hmem
      refine ⟨s, outcome, rfl, hmem, hid, hpaths, fun path hpath => ?_⟩
      obtain ⟨kind, hmay, hplace⟩ := hplaces path hpath
      exact ⟨_, kind, hmay.module, hplace⟩

-- ── Out of place ──

/-- A document with a compatible provider. -/
def compatibleDocument : Document :=
  ⟨Index.empty.insert ⟨"x", { npm := some ProviderInfo.compatiblePackage }, .empty⟩⟩

/-- The file of a module in the directory of another, written by hand. -/
def byHand : FileTree :=
  ⟨[(["out"], .directory), (["out", "src"], .directory), (["out", "src", "providers"], .directory),
    (["out", "src", "providers", "x"], .directory),
    (["out", "src", "providers", "x", "capabilities"], .directory),
    (["out", "src", "providers", "x", "capabilities", "mod.rs"], .file "fn  f() {}\n".toUTF8)],
    by decide⟩

/-- A formatter that comes from the scaffold to that file, and leaves one space of two. -/
def oneSpace : Formatter :=
  .nested ["out", "src", "providers", "x", "mod.rs"]
    ["out", "src", "providers", "x", "capabilities.rs"]
    ["out", "src", "providers", "x", "capabilities", "mod.rs"] "fn f() {}\n".toUTF8

/-- **What is formatted need not have been written**: the scaffold declares its registry as a module,
    and the formatter comes to the file by hand that is one. -/
theorem run_outOfPlace :
    ¬ ∀ (catalog : Catalog) (selector : Selector) (mode : Mode) (o : Options) (tree : FileTree)
      (formatter : Formatter), formatter.IsLawful →
        ∀ l, (run catalog selector mode o tree (fun _ => {}) formatter).1.file? l ≠ tree.file? l →
          ∃ (name : RawText) (kind : FileKind), l = location o.providersPath ++
            ([name, kind.fileName] : Location) := by
  intro hplaced
  have hbefore : byHand.file? ["out", "src", "providers", "x", "capabilities", "mod.rs"]
      = some "fn  f() {}\n".toUTF8 := rfl
  have hafter : (run (.document compatibleDocument) (.one "x") .compatible
      { outputRoot := ⟨"out"⟩, format := true } byHand (fun _ => {}) oneSpace).1.file?
        ["out", "src", "providers", "x", "capabilities", "mod.rs"] = some "fn f() {}\n".toUTF8 := by
    decide +kernel
  obtain ⟨name, kind, heq⟩ := hplaced (.document compatibleDocument) (.one "x") .compatible
    { outputRoot := ⟨"out"⟩, format := true } byHand oneSpace (Formatter.isLawful_nested ..) _ (by
      rw [hafter, hbefore]
      decide)
  have hout : location (Options.providersPath { outputRoot := ⟨"out"⟩, format := true })
      = (["out", "src", "providers"] : Location) := by decide
  rw [hout] at heq
  exact absurd (congrArg List.length heq) (by simp)

end Generation

end ModelCatalog
