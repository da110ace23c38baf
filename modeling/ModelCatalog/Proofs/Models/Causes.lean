import ModelCatalog.Proofs.Commit.Faults
import ModelCatalog.Proofs.Models.Gathering
import ModelCatalog.Run

/-! # Why a provider cannot be loaded

    Metadata, records and models each have errors of their own, and loading has no others
    (`isOfLoading_of_load`).  Of these, and of those for files, only the one for a provider without
    models means that there is nothing to generate. -/

namespace ModelCatalog

-- ── Causes ──

/-- What can be wrong with the metadata of a provider. -/
inductive Error.IsOfInfo : Error → Prop
  | providerNotFound (name : String) : IsOfInfo (.providerNotFound name)
  | notRead (path : Path) (fault : FileFault) : IsOfInfo (.notRead path fault)
  | malformedCatalog (fault : CatalogFault) : IsOfInfo (.malformedCatalog fault)

/-- What can be wrong with a record so that its provider fails. -/
inductive Error.IsOfRecord : Error → Prop
  | nestingTooDeep (path : Path) : IsOfRecord (.nestingTooDeep path)
  | invalidModelId (id : String) (fault : IdFault) : IsOfRecord (.invalidModelId id fault)
  | notRead (path : Path) (fault : FileFault) : IsOfRecord (.notRead path fault)

/-- Why a provider is not loaded. -/
inductive Error.IsOfLoading : Error → Prop
  | info {error : Error} (h : error.IsOfInfo) : IsOfLoading error
  | record {error : Error} (h : error.IsOfRecord) : IsOfLoading error
  | noActiveModels (provider : String) : IsOfLoading (.noActiveModels provider)
  | collision (provider first second typeName : String) :
      IsOfLoading (.collision provider first second typeName)

theorem Error.IsOfInfo.isNothing {error : Error} (h : error.IsOfInfo) : error.isNothing = false := by
  cases h <;> rfl

theorem Error.IsOfRecord.isNothing {error : Error} (h : error.IsOfRecord) :
    error.isNothing = false := by
  cases h <;> rfl

theorem Error.IsOfFile.isNothing {error : Error} (h : error.IsOfFile) : error.isNothing = false := by
  cases h <;> rfl

-- ── Metadata ──

theorem Tree.isOfInfo_of_readInfo {files : FileTree} {path : Path} {error : Error}
    (h : readInfo files path = .error error) : error.IsOfInfo := by
  rw [readInfo] at h
  split at h
  · cases h
  · split at h
    · rw [← Except.error.inj h]
      exact .notRead _ _
    · next text htext =>
      cases hdecode : Toml.decode ProviderInfo.read text with
      | ok info =>
          rw [hdecode] at h
          cases h
      | error fault =>
          rw [hdecode] at h
          rw [← Except.error.inj h]
          exact .malformedCatalog _

theorem Tree.isOfInfo_of_providerPath {files : FileTree} {root : Path} {id : String}
    {folder? : Option String} {error : Error}
    (h : providerPath files root id folder? = .error error) : error.IsOfInfo := by
  rw [providerPath] at h
  split at h
  · cases h
  · rw [← Except.error.inj h]
    exact .providerNotFound _

theorem Document.isOfInfo_of_provider {d : Document} {id : String} {error : Error}
    (h : d.provider id = .error error) : error.IsOfInfo := by
  rw [provider] at h
  split at h
  · cases h
  · rw [← Except.error.inj h]
    exact .providerNotFound _

/-- **Why metadata cannot be had.** -/
theorem isOfInfo_of_info {files : FileTree} {catalog : Catalog} {id : String}
    {folder? : Option String} {error : Error}
    (h : catalog.info files id folder? = .error error) : error.IsOfInfo := by
  cases catalog with
  | tree root =>
      rw [Catalog.info, Tree.info] at h
      rcases bind_eq_error.1 h with hpath | ⟨path, -, hread⟩
      · exact Tree.isOfInfo_of_providerPath hpath
      · exact Tree.isOfInfo_of_readInfo hread
  | document d =>
      cases hprovider : d.provider id with
      | ok record =>
          rw [Catalog.info, hprovider] at h
          cases h
      | error fault =>
          rw [Catalog.info, hprovider] at h
          rw [← Except.error.inj h]
          exact Document.isOfInfo_of_provider hprovider

-- ── Records ──

/-- The verdict on an entry is never fatal. -/
theorem Entry.verdict_ne_fatal {e : Entry} {identity : String} {id : ModelId} {error : Error} :
    e.verdict identity id ≠ .fatal error := by
  intro h
  rw [verdict] at h
  split at h
  · cases h
  · split at h <;> cases h

theorem Tree.isOfRecord_of_verdict? {files : FileTree} {modelsPath : Path} {x : Location × Node}
    {error : Error} (h : verdict? files modelsPath x = some (.fatal error)) : error.IsOfRecord := by
  obtain ⟨way, n⟩ := x
  cases n with
  | directory =>
      rw [verdict?] at h
      split at h
      · cases h
      · rw [← Verdict.fatal.inj (Option.some.inj h)]
        exact .notRead _ _
  | file content =>
      simp only [verdict?, Option.bind_eq_bind, Option.bind_eq_some_iff] at h
      obtain ⟨name, -, format, -, hverdict⟩ := h
      replace hverdict := Option.some.inj hverdict
      rw [recordVerdict] at hverdict
      split at hverdict
      · rw [← Verdict.fatal.inj hverdict]
        exact .nestingTooDeep _
      · split at hverdict
        · cases hverdict
        · rw [fileVerdict] at hverdict
          split at hverdict
          · cases hverdict
          · exact absurd hverdict Entry.verdict_ne_fatal

theorem Tree.isOfRecord_of_mem_verdicts {files : FileTree} {modelsPath : Path} {error : Error}
    (h : .fatal error ∈ verdicts files modelsPath) : error.IsOfRecord := by
  rw [verdicts] at h
  split at h
  · obtain ⟨x, -, hx⟩ := List.mem_filterMap.1 h
    exact isOfRecord_of_verdict? hx
  · cases h

theorem Document.isOfRecord_of_verdict {providerId key : String} {value : Json} {error : Error}
    (h : verdict providerId key value = .fatal error) : error.IsOfRecord := by
  rw [verdict] at h
  split at h
  · cases h
  · split at h
    · cases h
    · split at h
      · rw [← Verdict.fatal.inj h]
        exact .invalidModelId _ _
      · exact absurd h Entry.verdict_ne_fatal

-- ── Models ──

theorem isOfLoading_of_gather {providerId : String} {info : ProviderInfo} {verdicts : List Verdict}
    {error : Error} (hfatal : ∀ e, .fatal e ∈ verdicts → e.IsOfRecord)
    (h : ProviderModels.gather providerId info verdicts = .error error) : error.IsOfLoading := by
  rcases gather_spec providerId info verdicts with
    ⟨p, hok, -⟩ | ⟨herror, -⟩ | ⟨e, herror, hmem⟩ | ⟨first, second, t, herror, -⟩
  · rw [hok] at h
    cases h
  · rw [← Except.error.inj (herror.symm.trans h)]
    exact .noActiveModels _
  · rw [← Except.error.inj (herror.symm.trans h)]
    exact .record (hfatal e hmem)
  · rw [← Except.error.inj (herror.symm.trans h)]
    exact .collision _ _ _ _

/-- **Why a provider is not loaded**, from a tree as from a document. -/
theorem isOfLoading_of_load {files : FileTree} {catalog : Catalog} {id : String}
    {folder? : Option String} {error : Error}
    (h : catalog.load files id folder? = .error error) : error.IsOfLoading := by
  cases catalog with
  | tree root =>
      rw [Catalog.load, Tree.load] at h
      rcases bind_eq_error.1 h with hpath | ⟨path, -, h⟩
      · exact .info (Tree.isOfInfo_of_providerPath hpath)
      · rcases bind_eq_error.1 h with hinfo | ⟨info, -, h⟩
        · exact .info (Tree.isOfInfo_of_readInfo hinfo)
        · dsimp only at h
          split at h
          · rw [← Except.error.inj h]
            exact .noActiveModels _
          · exact isOfLoading_of_gather (fun _ => Tree.isOfRecord_of_mem_verdicts) h
  | document d =>
      rw [Catalog.load, Document.load] at h
      rcases bind_eq_error.1 h with hprovider | ⟨record, -, h⟩
      · exact .info (Document.isOfInfo_of_provider hprovider)
      · refine isOfLoading_of_gather (fun e he => ?_) h
        obtain ⟨x, -, hverdict⟩ := List.mem_map.1 he
        exact Document.isOfRecord_of_verdict hverdict

end ModelCatalog
