import ModelCatalog.Proofs.Generation.Apart
import ModelCatalog.Proofs.Models.Causes
import ModelCatalog.Proofs.Models.Constructors
import ModelCatalog.Proofs.Registry.Reading

/-! # Faults in names

    Everything that generated code declares has to be named by an identifier.  The names of a
    provider are looked at before anything is read, and those of its models once more when the
    registry is rendered.  That second look finds nothing in models that were loaded: each of them
    has passed it as a record (`check_of_load`).  So rendering adds no error to those of the
    preparation (`rendered_eq`), and what goes wrong in loading and in writing is never a name.  The
    headline, `rendered_of_loaded`, says where a fault in a name can come from: from the names of the
    provider alone.  That the text of a file is code is taken for granted here. -/

namespace ModelCatalog

/-- Code cannot be generated, as something in it is named by what is no identifier. -/
inductive Error.IsOfName : Error → Prop
  | provider (provider name : String) : IsOfName (.invalidProviderName provider name)
  | model (model name : String) : IsOfName (.invalidModelName model name)

theorem Error.IsOfName.isNothing {error : Error} (h : error.IsOfName) : error.isNothing = false := by
  cases h <;> rfl

-- ── Names that are looked at ──

/-- A provider that has no names has a fault in one. -/
theorem ProviderNames.isOfName_of_ofId {id : String} {typeName? : Option String} {error : Error}
    (h : ofId id typeName? = .error error) : error.IsOfName := by
  rw [ofId] at h
  split at h
  · rw [← Except.error.inj h]
    exact .provider _ _
  · split at h
    · rw [← Except.error.inj h]
      exact .provider _ _
    · cases h

/-- The check passes models with two identifiers, and no others. -/
theorem Registry.check_eq_ok {models : List Model} : check models = .ok () ↔ ∀ m ∈ models,
    Identifier.isValid m.typeName = true ∧ Identifier.isValid m.constructorName = true := by
  rw [check, forM_eq_ok]
  refine forall₂_congr fun m _ => ?_
  have hnames : [m.typeName, m.constructorName].find? (!Identifier.isValid ·) = none ↔
      Identifier.isValid m.typeName = true ∧ Identifier.isValid m.constructorName = true := by
    simp
  rw [← hnames]
  cases [m.typeName, m.constructorName].find? (!Identifier.isValid ·) with
  | none => exact iff_of_true rfl rfl
  | some name => exact iff_of_false (fun h => by cases h) fun h => by cases h

/-- A model that is named after an id passes the check. -/
theorem Model.IsNamed.isValid {model : Model} (h : model.IsNamed) :
    Identifier.isValid model.typeName = true ∧ Identifier.isValid model.constructorName = true := by
  obtain ⟨id, hid⟩ := h
  obtain ⟨htype, hconstructor, hnames⟩ := ModelId.names_eq_ok.1 hid
  obtain ⟨htype', hconstructor'⟩ := ModelNames.mk.inj hnames
  rw [htype', hconstructor']
  exact ⟨htype, hconstructor⟩

/-- **Models that are loaded pass the check**, from a tree as from a document. -/
theorem check_of_load {files : FileTree} {catalog : Catalog} {id : String} {folder? : Option String}
    {p : ProviderModels} (h : catalog.load files id folder? = .ok p) :
    Registry.check p.models.toList = .ok () :=
  Registry.check_eq_ok.2 fun m hm => (named_of_load h m hm).isValid

theorem Error.IsOfLoading.not_isOfName {error : Error} (h : error.IsOfLoading) :
    ¬ error.IsOfName := by
  rintro (⟨provider, name⟩ | ⟨model, name⟩)
  all_goals rcases h with ⟨⟨⟩⟩ | ⟨⟨⟩⟩

theorem Error.IsOfFile.not_isOfName {error : Error} (h : error.IsOfFile) : ¬ error.IsOfName := by
  rintro (⟨provider, name⟩ | ⟨model, name⟩)
  all_goals cases h

namespace Generation

variable {tree : FileTree} {catalog : Catalog} {mode : Mode} {o : Options} {id : String}
  {disk : Disk} {error : Error}

-- ── Rendering ──

/-- **Rendering adds no error**: what is prepared is rendered. -/
theorem rendered_eq (tree : FileTree) (catalog : Catalog) (mode : Mode) (o : Options) (id : String) :
    rendered tree catalog mode o id =
      (fun r => (r.models, r.batch o.providersPath)) <$> prepare tree catalog mode o id := by
  rw [rendered]
  cases hprepare : prepare tree catalog mode o id with
  | error error => rfl
  | ok r =>
      have hfiles : r.files o.providersPath = .ok (r.batch o.providersPath) :=
        Rendering.files_eq_ok.2 ⟨fun p hp => check_of_load (load_of_prepare hprepare p hp), rfl⟩
      rw [ok_bind, hfiles]
      rfl

/-- The names of a provider are all that can be wrong with a name while it is prepared. -/
theorem ofId_of_prepare (h : prepare tree catalog mode o id = .error error)
    (hname : error.IsOfName) : ProviderNames.ofId id o.typeName = .error error := by
  rcases prepare_error_cases h with hnames | ⟨-, hload⟩ | ⟨-, hinfo | rfl | ⟨hload, -⟩⟩
  · exact hnames
  · exact absurd hname (isOfLoading_of_load hload).not_isOfName
  · exact absurd hname (Error.IsOfLoading.info (isOfInfo_of_info hinfo)).not_isOfName
  · cases hname
  · exact absurd hname (isOfLoading_of_load hload).not_isOfName

/-- **A fault in a name is a fault in the names of the provider.** -/
theorem generate_isOfName : (generate catalog mode o id tree disk).2 = .error error ∧
    error.IsOfName ↔ ProviderNames.ofId id o.typeName = .error error := by
  rw [generate_eq_error, rendered_eq, map_eq_error]
  constructor
  · rintro ⟨hprepare | ⟨models, batch, -, hcommit⟩, hname⟩
    · exact ofId_of_prepare hprepare hname
    · exact absurd hname (Commit.isOfFile_of_commit hcommit).not_isOfName
  · intro hnames
    refine ⟨Or.inl ?_, ProviderNames.isOfName_of_ofId hnames⟩
    rw [prepare, hnames, error_bind]

/-- **WHAT IS LOADED IS RENDERED.**  For any tree, catalog, provider and folder: if the provider is
    loaded and has names, all names in its registry are identifiers, so that the models pass the
    check and the files are rendered, with a scaffold or without.  In either mode, everything that is
    prepared is rendered, and a fault in a name is one in the names of the provider itself. -/
theorem rendered_of_loaded (tree : FileTree) (catalog : Catalog) (id : String) :
    (∀ folder? typeName? p names, catalog.load tree id folder? = .ok p →
      ProviderNames.ofId id typeName? = .ok names →
        Registry.HasNames names p ∧ Registry.check p.models.toList = .ok () ∧
          ∀ (r : Rendering) (path : Path), r.models = some p → r.files path = .ok (r.batch path)) ∧
    ∀ mode o, rendered tree catalog mode o id =
        (fun r => (r.models, r.batch o.providersPath)) <$> prepare tree catalog mode o id ∧
      ∀ disk error, (generate catalog mode o id tree disk).2 = .error error ∧ error.IsOfName ↔
        ProviderNames.ofId id o.typeName = .error error := by
  refine ⟨fun folder? typeName? p names hload hnames => ?_, fun mode o => ?_⟩
  · have hcheck := check_of_load hload
    refine ⟨⟨⟨id, typeName?, hnames⟩, Registry.check_eq_ok.1 hcheck⟩, hcheck, fun r path hr => ?_⟩
    refine Rendering.files_eq_ok.2 ⟨fun q hq => ?_, rfl⟩
    rw [hr] at hq
    rwa [← Option.some.inj hq]
  · exact ⟨rendered_eq tree catalog mode o id, fun disk error => generate_isOfName⟩

/-- The two models of a document are rendered, and an id of digits has a fault in its names. -/
theorem rendered_of_loaded_letterCase :
    (∃ p, (Catalog.document letterCaseDocument).load .empty "p" none = .ok p ∧
      p.models.toList.length = 2 ∧ ∀ hasScaffold path,
        (Rendering.files ⟨⟨"p", "P", "p"⟩, {}, some p, hasScaffold⟩ path).isOk = true) ∧
    (generate (.document letterCaseDocument) .compatible { outputRoot := ⟨"out"⟩ } "302" .empty).2 =
      .error (.invalidProviderName "302" "302") := by
  constructor
  · have hlisted := load_letterCaseDocument
    cases hload : (Catalog.document letterCaseDocument).load .empty "p" none with
    | error error =>
        rw [hload] at hlisted
        cases hlisted
    | ok p =>
        rw [hload] at hlisted
        have hlength := congrArg List.length (Option.some.inj hlisted)
        rw [List.length_map] at hlength
        obtain ⟨-, -, hfiles⟩ :=
          (rendered_of_loaded _ _ _).1 none none p ⟨"p", "P", "p"⟩ hload rfl
        refine ⟨p, rfl, hlength, fun hasScaffold path => ?_⟩
        rw [hfiles _ path rfl]
        rfl
  · obtain ⟨-, hfault⟩ := (rendered_of_loaded .empty (.document letterCaseDocument) "302").2
      .compatible { outputRoot := ⟨"out"⟩ }
    exact ((hfault {} _).2 rfl).1

end Generation

end ModelCatalog
