import ModelCatalog.Run
import ModelCatalog.Proofs.FileTree.Below
import ModelCatalog.Proofs.Models.Constructors
import ModelCatalog.Proofs.Text.Decoding

/-! # Where the files of a provider stand

    What is prepared for a provider, and what for, is said once, by `prepare_cases`, and why nothing
    is by `prepare_error_cases`.  The files that are rendered for it are known in full
    (`Rendering.files_eq_ok`): they stand in the directory of its module, one of each kind at most
    (`renderedFor_of_rendered`).  Module names are identifiers, so they are one name below the
    directory of all modules (`location_filePath`), and two such files stand at one location only if
    they are of one module and one kind (`filePath_inj`). -/

namespace ModelCatalog

open FileTree

-- ── Paths ──

/-- The path of a file of a kind in a module. -/
def filePath (providersPath : Path) (moduleName : String) (kind : FileKind) : Path :=
  (providersPath.child moduleName).child kind.fileName

/-- Identifiers lead one step down. -/
theorem Identifier.isPiece_of_isValid {name : String} (h : isValid name = true) :
    FileName.IsPiece name := by
  have hslash : RawText.slash ∉ (RawText.ofString name).bytes := fun hmem =>
    absurd (isWordChar_of_isValid h (RawText.slash_mem_ofString.1 hmem)) (by decide)
  rw [isValid, Bool.and_eq_true] at h
  have hshaped := h.1
  have hne : ∀ {other : String}, isShaped other.toList = false →
      (name : RawText) ≠ RawText.ofString other := by
    intro other hother heq
    rw [RawText.ofString_inj.1 heq, hother] at hshaped
    cases hshaped
  refine ⟨hslash, ?_, hne (by decide)⟩
  rw [Path.isIdle, Bool.or_eq_false_iff, beq_eq_false_iff_ne, beq_eq_false_iff_ne]
  exact ⟨hne (by decide), hne (by decide)⟩

theorem FileKind.isPiece_fileName (kind : FileKind) : FileName.IsPiece kind.fileName := by
  constructor <;> cases kind <;> decide

/-- The files of a module stand two names below the directory of all modules. -/
theorem location_filePath {moduleName : String} (hvalid : Identifier.isValid moduleName = true)
    (providersPath : Path) (kind : FileKind) :
    location (filePath providersPath moduleName kind)
      = location providersPath ++ ([moduleName, kind.fileName] : Location) := by
  obtain ⟨hslash, hidle, hup⟩ := Identifier.isPiece_of_isValid hvalid
  have hmodule : location (providersPath.child moduleName)
      = location providersPath ++ ([moduleName] : Location) := location_child hslash hidle hup
  obtain ⟨hslash', hidle', hup'⟩ := kind.isPiece_fileName
  rw [filePath, location_child hslash' hidle' hup', hmodule]
  simp

theorem filePath_inj {providersPath : Path} {moduleName other : String} {kind kind' : FileKind}
    (hvalid : Identifier.isValid moduleName = true) (hother : Identifier.isValid other = true)
    (h : location (filePath providersPath moduleName kind)
      = location (filePath providersPath other kind')) : moduleName = other ∧ kind = kind' := by
  rw [location_filePath hvalid, location_filePath hother, List.append_cancel_left_eq] at h
  obtain ⟨hmodule, hrest⟩ := List.cons.inj h
  refine ⟨RawText.ofString_inj.1 hmodule, ?_⟩
  have hname : kind.fileName = kind'.fileName := RawText.ofString_inj.1 (List.cons.inj hrest).1
  cases kind <;> cases kind' <;> first | rfl | exact absurd hname (by decide)

-- ── Rendering ──

/-- Registries are rendered for models that pass the check, and are their text. -/
theorem Registry.render_eq_ok {names : ProviderNames} {p : ProviderModels} {providersPath : Path}
    {file : RenderedFile} :
    render names p providersPath = .ok file ↔ check p.models.toList = .ok () ∧
      names.file providersPath .registry (text names p.models.toList) = file := by
  rw [render, bind_eq_ok]
  constructor
  · rintro ⟨⟨⟩, hcheck, hfile⟩
    exact ⟨hcheck, Except.ok.inj hfile⟩
  · rintro ⟨hcheck, rfl⟩
    exact ⟨(), hcheck, rfl⟩

/-- The files of a rendering, if its models pass the check: the scaffold, if there is to be one, and
    the registry, if there are models. -/
def Rendering.batch (r : Rendering) (providersPath : Path) : List RenderedFile :=
  (if r.hasScaffold then [Scaffold.render r.names r.info providersPath] else []) ++
    r.models.toList.map fun p =>
      r.names.file providersPath .registry (Registry.text r.names p.models.toList)

/-- **What is rendered**, and when. -/
theorem Rendering.files_eq_ok {r : Rendering} {providersPath : Path} {files : List RenderedFile} :
    r.files providersPath = .ok files ↔
      (∀ p ∈ r.models, Registry.check p.models.toList = .ok ()) ∧ r.batch providersPath = files := by
  rw [Rendering.files, batch]
  cases r.models with
  | none =>
      rw [Option.toList_none, List.map_nil, List.append_nil]
      exact ⟨fun h => ⟨fun p hp => (by cases hp), Except.ok.inj h⟩, fun h => congrArg _ h.2⟩
  | some models =>
      rw [Option.toList_some, List.map_singleton]
      dsimp only
      rw [bind_eq_ok]
      constructor
      · rintro ⟨registry, hrender, hfiles⟩
        obtain ⟨hcheck, rfl⟩ := Registry.render_eq_ok.1 hrender
        refine ⟨fun p hp => ?_, Except.ok.inj hfiles⟩
        rwa [← Option.some.inj hp]
      · rintro ⟨hcheck, hfiles⟩
        exact ⟨_, Registry.render_eq_ok.2 ⟨hcheck models rfl, rfl⟩, congrArg _ hfiles⟩

namespace Generation

def Mode.kind : Mode → FileKind
  | .capabilities => .registry
  | .compatible => .scaffold

/-- What the files are that are rendered for a provider. -/
structure RenderedFor (mode : Mode) (o : Options) (id : String) (batch : List RenderedFile) :
    Prop where
  valid : Identifier.isValid (Identifier.moduleName id) = true
  path : ∀ file ∈ batch, file.path = filePath o.providersPath (Identifier.moduleName id) file.kind
  kinds : (batch.map (·.kind)).Nodup
  main : ∃ file ∈ batch, file.kind = Mode.kind mode

/-- The names of a provider are identifiers; the one of its module is made of the id. -/
theorem moduleName_of_ofId {id : String} {typeName? : Option String} {names : ProviderNames}
    (h : ProviderNames.ofId id typeName? = .ok names) :
    names.moduleName = Identifier.moduleName id ∧
      Identifier.isValid (Identifier.moduleName id) = true := by
  rw [ProviderNames.ofId] at h
  split at h
  · exact nomatch h
  · split at h
    · exact nomatch h
    · next hmodule =>
      rw [← Except.ok.inj h]
      exact ⟨rfl, by simpa using hmodule⟩

section Preparing

variable {tree : FileTree} {catalog : Catalog} {mode : Mode} {o : Options} {id : String}
  {r : Rendering}

/-- The models that go with a scaffold are those that are loaded, if a registry is asked for and there
    are any. -/
def GoWithScaffold (tree : FileTree) (catalog : Catalog) (o : Options) (id : String)
    (models : Option ProviderModels) : Prop :=
  (o.withCapabilities = false ∧ models = none) ∨
    o.withCapabilities = true ∧
      ((∃ p, catalog.load tree id o.folder = .ok p ∧ models = some p) ∨
        ∃ error, catalog.load tree id o.folder = .error error ∧ error.isNothing = true ∧
          models = none)

theorem GoWithScaffold.load {models : Option ProviderModels}
    (h : GoWithScaffold tree catalog o id models) :
    ∀ p ∈ models, catalog.load tree id o.folder = .ok p := by
  rintro p hp
  rcases h with ⟨-, rfl⟩ | ⟨-, ⟨q, hload, rfl⟩ | ⟨error, -, -, rfl⟩⟩
  · cases hp
  · rw [hload, Option.some.inj hp]
  · cases hp

/-- **What is prepared for a provider**, in each mode. -/
theorem prepare_cases (h : prepare tree catalog mode o id = .ok r) :
    ∃ names, ProviderNames.ofId id o.typeName = .ok names ∧
      ((mode = .capabilities ∧ ∃ models, catalog.load tree id o.folder = .ok models ∧
          r = { names, info := models.info, models := some models, hasScaffold := false }) ∨
        mode = .compatible ∧ ∃ info models, catalog.info tree id o.folder = .ok info ∧
          info.isCompatible id = true ∧ GoWithScaffold tree catalog o id models ∧
          r = { names, info, models, hasScaffold := true }) := by
  rw [prepare] at h
  obtain ⟨names, hnames, hrest⟩ := bind_eq_ok.1 h
  refine ⟨names, hnames, ?_⟩
  cases mode with
  | capabilities =>
      obtain ⟨models, hload, hr⟩ := bind_eq_ok.1 hrest
      exact Or.inl ⟨rfl, models, hload, (Except.ok.inj hr).symm⟩
  | compatible =>
      obtain ⟨info, hinfo, hr⟩ := bind_eq_ok.1 hrest
      dsimp only at hr
      split at hr
      · cases hr
      · next hcompatible =>
        refine Or.inr ⟨rfl, info, r.models, hinfo, by simpa using hcompatible, ?_⟩
        split at hr
        · next hwith =>
          rw [← Except.ok.inj hr]
          exact ⟨Or.inl ⟨by simpa using hwith, rfl⟩, rfl⟩
        · next hwith =>
          have hwith' : o.withCapabilities = true := by simpa using hwith
          split at hr
          · next p hload =>
            rw [← Except.ok.inj hr]
            exact ⟨Or.inr ⟨hwith', Or.inl ⟨p, hload, rfl⟩⟩, rfl⟩
          · next error hload =>
            split at hr
            · next hnothing =>
              rw [← Except.ok.inj hr]
              exact ⟨Or.inr ⟨hwith', Or.inr ⟨error, hload, hnothing, rfl⟩⟩, rfl⟩
            · cases hr

/-- **Why nothing is prepared for a provider**, in each mode. -/
theorem prepare_error_cases {error : Error} (h : prepare tree catalog mode o id = .error error) :
    ProviderNames.ofId id o.typeName = .error error ∨
      (mode = .capabilities ∧ catalog.load tree id o.folder = .error error) ∨
        mode = .compatible ∧ (catalog.info tree id o.folder = .error error ∨
          error = .notCompatible id ∨
            catalog.load tree id o.folder = .error error ∧ error.isNothing = false) := by
  rw [prepare] at h
  rcases bind_eq_error.1 h with hnames | ⟨names, -, h⟩
  · exact Or.inl hnames
  · refine Or.inr ?_
    cases mode with
    | capabilities =>
        rcases bind_eq_error.1 h with hload | ⟨models, -, h⟩
        · exact Or.inl ⟨rfl, hload⟩
        · cases h
    | compatible =>
        refine Or.inr ⟨rfl, ?_⟩
        rcases bind_eq_error.1 h with hinfo | ⟨info, -, h⟩
        · exact Or.inl hinfo
        · refine Or.inr ?_
          dsimp only at h
          split at h
          · exact Or.inl (Except.error.inj h).symm
          · split at h
            · cases h
            · split at h
              · cases h
              · next fault hload =>
                split at h
                · cases h
                · next hhard =>
                  rw [← Except.error.inj h]
                  exact Or.inr ⟨hload, by simpa using hhard⟩

/-- What is to be rendered in a mode: the file that the mode is about, for the names of the id. -/
theorem prepare_spec (h : prepare tree catalog mode o id = .ok r) :
    ProviderNames.ofId id o.typeName = .ok r.names ∧
      (r.hasScaffold = true ↔ mode = .compatible) ∧ (mode = .capabilities → r.models ≠ none) := by
  obtain ⟨names, hnames, ⟨rfl, models, -, rfl⟩ | ⟨rfl, info, models, -, -, -, rfl⟩⟩ :=
    prepare_cases h
  · exact ⟨hnames, by simp, by simp⟩
  · exact ⟨hnames, by simp, by simp⟩

/-- The models that are prepared for a provider have been loaded for it. -/
theorem load_of_prepare (h : prepare tree catalog mode o id = .ok r) :
    ∀ p ∈ r.models, catalog.load tree id o.folder = .ok p := by
  obtain ⟨names, -, ⟨-, models, hload, rfl⟩ | ⟨-, info, models, -, -, hmodels, rfl⟩⟩ :=
    prepare_cases h
  · intro p hp
    rw [hload, Option.some.inj hp]
  · exact hmodels.load

/-- What is rendered are the files of what was prepared. -/
theorem rendered_eq_ok {models : Option ProviderModels} {batch : List RenderedFile} :
    rendered tree catalog mode o id = .ok (models, batch) ↔
      ∃ r, prepare tree catalog mode o id = .ok r ∧ r.files o.providersPath = .ok batch ∧
        r.models = models := by
  rw [rendered, bind_eq_ok]
  refine exists_congr fun r => and_congr_right fun _ => ?_
  rw [bind_eq_ok]
  constructor
  · rintro ⟨files, hfiles, hresult⟩
    obtain ⟨hmodels, rfl⟩ := Prod.mk.inj (Except.ok.inj hresult)
    exact ⟨hfiles, hmodels⟩
  · rintro ⟨hfiles, rfl⟩
    exact ⟨batch, hfiles, rfl⟩

/-- The models that are rendered for a provider bear its id, and there is one at least. -/
theorem models_of_rendered {models : Option ProviderModels} {batch : List RenderedFile}
    (h : rendered tree catalog mode o id = .ok (models, batch)) :
    ∀ p ∈ models, p.providerId = id ∧ 0 < p.models.size := by
  obtain ⟨r, hprepare, -, rfl⟩ := rendered_eq_ok.1 h
  intro p hp
  have hload := load_of_prepare hprepare p hp
  exact ⟨providerId_of_load hload, size_pos_of_load hload⟩

end Preparing

/-- The files of a rendering stand in its module, the scaffold before the registry. -/
theorem files_spec {r : Rendering} {providersPath : Path} {files : List RenderedFile}
    (h : r.files providersPath = .ok files) :
    (∀ file ∈ files, file.path = filePath providersPath r.names.moduleName file.kind) ∧
      (files.map (·.kind)) = (if r.hasScaffold = true then [.scaffold] else []) ++
        (if r.models = none then [] else [.registry]) := by
  obtain ⟨-, rfl⟩ := Rendering.files_eq_ok.1 h
  rw [Rendering.batch]
  constructor
  · intro file hfile
    rcases List.mem_append.1 hfile with hfile | hfile
    · split at hfile
      · rw [List.mem_singleton.1 hfile]
        rfl
      · cases hfile
    · obtain ⟨p, -, rfl⟩ := List.mem_map.1 hfile
      rfl
  · rw [List.map_append]
    congr 1
    · split <;> rfl
    · cases r.models <;> rfl

/-- **The files of a provider** stand in the module of its id, one of each kind at most, and the one
    that the mode is about is among them. -/
theorem renderedFor_of_rendered {tree : FileTree} {catalog : Catalog} {mode : Mode} {o : Options}
    {id : String} {models : Option ProviderModels} {batch : List RenderedFile}
    (h : rendered tree catalog mode o id = .ok (models, batch)) : RenderedFor mode o id batch := by
  obtain ⟨r, hprepare, hfiles, rfl⟩ := rendered_eq_ok.1 h
  obtain ⟨hnames, hscaffold, hregistry⟩ := prepare_spec hprepare
  obtain ⟨hmodule, hvalid⟩ := moduleName_of_ofId hnames
  obtain ⟨hpath, hkinds⟩ := files_spec hfiles
  refine ⟨hvalid, fun file hfile => hmodule ▸ hpath file hfile, ?_, ?_⟩
  · rw [hkinds]
    split <;> split <;> decide
  · rw [← List.mem_map, hkinds, List.mem_append]
    cases mode with
    | capabilities =>
        rw [if_neg (hregistry rfl)]
        exact Or.inr List.mem_cons_self
    | compatible =>
        rw [if_pos (hscaffold.2 rfl)]
        exact Or.inl List.mem_cons_self

end Generation

end ModelCatalog
