import ModelCatalog.Catalog
import ModelCatalog.Proofs.Models.Gathering
import ModelCatalog.Proofs.Names.LetterCase

/-! # Models that share a constructor name

    The models of a provider have distinct type names, but their constructor names may be the same:
    `GPT-4` and `gpt-4` are the types `GPT4` and `Gpt4`, and both have the constructor `gpt_4`.  The
    headline, `sharedConstructor_of_load`, says that letter case is the only thing that can come
    between them: models with one constructor name are one model, or their types differ in nothing
    but letter case.  It rests on where models come from: whatever the catalog, a model is named
    after some id (`named_of_load`). -/

namespace ModelCatalog

-- ── Where models get their names ──

/-- Names are made of an id if both are identifiers. -/
theorem ModelId.names_eq_ok {id : ModelId} {names : ModelNames} :
    id.names = .ok names ↔ Identifier.isValid id.typeName = true ∧
      Identifier.isValid id.constructorName = true ∧
      names = ⟨id.typeName, id.constructorName⟩ := by
  rw [ModelId.names]
  by_cases htype : Identifier.isValid id.typeName = true
  · by_cases hconstructor : Identifier.isValid id.constructorName = true
    · rw [if_neg (by simp [htype]), if_neg (by simp [hconstructor])]
      exact ⟨fun h => ⟨htype, hconstructor, (Except.ok.inj h).symm⟩, fun h => by rw [h.2.2]⟩
    · rw [if_neg (by simp [htype]), if_pos (by simp [hconstructor])]
      exact ⟨fun h => (nomatch h), fun h => absurd h.2.1 hconstructor⟩
  · rw [if_pos (by simp [htype])]
    exact ⟨fun h => (nomatch h), fun h => absurd h.1 htype⟩

/-- A model has the names of some id. -/
def Model.IsNamed (model : Model) : Prop :=
  ∃ id : ModelId, id.names = .ok ⟨model.typeName, model.constructorName⟩

theorem Model.isNamed_of_entry {e : Entry} {id : ModelId} {model : Model}
    (h : e.model id = .ok model) : model.IsNamed := by
  rw [Entry.model] at h
  obtain ⟨names, hnames, hmodel⟩ := bind_eq_ok.1 h
  obtain rfl := Except.ok.inj hmodel
  exact ⟨id, hnames⟩

theorem Model.isNamed_of_verdict {e : Entry} {identity : String} {id : ModelId} {model : Model}
    (h : e.verdict identity id = .active model) : model.IsNamed := by
  rw [Entry.verdict] at h
  split at h
  · exact nomatch h
  · split at h
    · exact nomatch h
    · next m hm =>
      obtain rfl : m = model := Verdict.active.inj h
      exact isNamed_of_entry hm

theorem Document.isNamed_of_verdict {providerId key : String} {value : Json} {model : Model}
    (h : verdict providerId key value = .active model) : model.IsNamed := by
  rw [verdict] at h
  split at h
  · exact nomatch h
  · split at h
    · exact nomatch h
    · split at h
      · exact nomatch h
      · exact Model.isNamed_of_verdict h

theorem Tree.isNamed_of_verdicts {files : FileTree} {modelsPath : Path} {model : Model}
    (h : .active model ∈ verdicts files modelsPath) : model.IsNamed := by
  rw [verdicts] at h
  split at h
  · next base hbase =>
    obtain ⟨⟨way, n⟩, -, hverdict⟩ := List.mem_filterMap.1 h
    cases n with
    | directory =>
        rw [verdict?] at hverdict
        split at hverdict
        · exact nomatch hverdict
        · exact nomatch Option.some.inj hverdict
    | file content =>
        simp only [verdict?, Option.bind_eq_bind, Option.bind_eq_some_iff] at hverdict
        obtain ⟨name, -, format, -, hrecord⟩ := hverdict
        have hactive := Option.some.inj hrecord
        rw [recordVerdict] at hactive
        split at hactive
        · exact nomatch hactive
        · split at hactive
          · exact nomatch hactive
          · rw [fileVerdict] at hactive
            split at hactive
            · exact nomatch hactive
            · exact Model.isNamed_of_verdict hactive
  · exact nomatch h

-- ── Loading ──

theorem gathered_of_gather {providerId : String} {info : ProviderInfo} {verdicts : List Verdict}
    {p : ProviderModels} (h : ProviderModels.gather providerId info verdicts = .ok p) :
    Gathered providerId info verdicts p := by
  rcases gather_spec providerId info verdicts with
    ⟨q, hq, hgathered, -⟩ | ⟨herror, -⟩ | ⟨error, herror, -⟩ | ⟨first, second, t, herror, -⟩
  · obtain rfl : q = p := Except.ok.inj (hq.symm.trans h)
    exact hgathered
  · exact nomatch herror.symm.trans h
  · exact nomatch herror.symm.trans h
  · exact nomatch herror.symm.trans h

/-- Nothing fatal is among the verdicts if a provider is gathered from them. -/
theorem fatal_notMem_of_gather {providerId : String} {info : ProviderInfo} {verdicts : List Verdict}
    {p : ProviderModels} (h : ProviderModels.gather providerId info verdicts = .ok p)
    (error : Error) : .fatal error ∉ verdicts := by
  intro hmem
  rw [ProviderModels.gather] at h
  obtain ⟨q, hrun, -⟩ := bind_eq_ok.1 h
  obtain ⟨before, after, rfl⟩ := List.append_of_mem hmem
  rw [List.foldlM_append] at hrun
  obtain ⟨r, -, hrest⟩ := bind_eq_ok.1 hrun
  cases hrest

/-- What is gathered is not empty. -/
theorem isEmpty_of_gather {providerId : String} {info : ProviderInfo} {verdicts : List Verdict}
    {p : ProviderModels} (h : ProviderModels.gather providerId info verdicts = .ok p) :
    p.models.isEmpty = false := by
  rw [ProviderModels.gather] at h
  obtain ⟨q, -, hrest⟩ := bind_eq_ok.1 h
  cases hempty : q.models.isEmpty with
  | true =>
      rw [hempty] at hrest
      cases hrest
  | false =>
      rw [hempty] at hrest
      rw [← Except.ok.inj hrest, hempty]

/-- **What is loaded is gathered from verdicts**, from a tree as from a document, and their models are
    named after ids. -/
theorem exists_gather_of_load {files : FileTree} {catalog : Catalog} {id : String}
    {folder? : Option String} {p : ProviderModels} (h : catalog.load files id folder? = .ok p) :
    ∃ info verdicts, ProviderModels.gather id info verdicts = .ok p ∧
      ∀ model, .active model ∈ verdicts → model.IsNamed := by
  cases catalog with
  | tree root =>
      rw [Catalog.load, Tree.load] at h
      obtain ⟨path, -, hload⟩ := bind_eq_ok.1 h
      obtain ⟨info, -, hload⟩ := bind_eq_ok.1 hload
      dsimp only at hload
      split at hload
      · cases hload
      · exact ⟨info, _, hload, fun model => Tree.isNamed_of_verdicts⟩
  | document d =>
      rw [Catalog.load, Document.load] at h
      obtain ⟨record, -, hgather⟩ := bind_eq_ok.1 h
      refine ⟨record.info, _, hgather, fun model hmodel => ?_⟩
      obtain ⟨⟨key, value⟩, -, hverdict⟩ := List.mem_map.1 hmodel
      exact Document.isNamed_of_verdict hverdict

section Loading

variable {files : FileTree} {catalog : Catalog} {id : String} {folder? : Option String}
  {p : ProviderModels} (h : catalog.load files id folder? = .ok p)
include h

/-- What is loaded for a provider bears its id. -/
theorem providerId_of_load : p.providerId = id := by
  obtain ⟨info, verdicts, hgather, -⟩ := exists_gather_of_load h
  exact (gathered_of_gather hgather).providerId

/-- A provider that is loaded has a model. -/
theorem size_pos_of_load : 0 < p.models.size := by
  obtain ⟨info, verdicts, hgather, -⟩ := exists_gather_of_load h
  exact List.length_pos_iff.2 (by simpa [Index.isEmpty] using isEmpty_of_gather hgather)

/-- **Every model that is loaded is named after an id.** -/
theorem named_of_load : ∀ model ∈ p.models.toList, model.IsNamed := by
  intro model hmodel
  obtain ⟨info, verdicts, hgather, hnamed⟩ := exists_gather_of_load h
  exact hnamed model (mem_modelsOf.1 ((gathered_of_gather hgather).models.subset hmodel))

end Loading

-- ── Shared constructors ──

/-- A provider with two models whose ids differ in letter case only. -/
def letterCaseDocument : Document :=
  ⟨⟨[⟨"p", {}, ⟨[("GPT-4", .object []), ("gpt-4", .object [])], by decide⟩⟩], by decide⟩⟩

/-- The two are loaded as models with one constructor name. -/
theorem load_letterCaseDocument :
    ((Catalog.document letterCaseDocument).load .empty "p" none).toOption.map
        (fun p => p.models.toList.map fun model => (model.typeName, model.constructorName))
      = some [("GPT4", "gpt_4"), ("Gpt4", "gpt_4")] := by
  decide +kernel

/-- Constructor names need not be distinct. -/
theorem constructorNames_not_distinct :
    ¬ ∀ (files : FileTree) (catalog : Catalog) (id : String) (folder? : Option String)
      (p : ProviderModels), catalog.load files id folder? = .ok p →
        (p.models.toList.map (·.constructorName)).Nodup := by
  intro hdistinct
  have hload := load_letterCaseDocument
  cases hp : (Catalog.document letterCaseDocument).load .empty "p" none with
  | error error =>
      rw [hp] at hload
      exact nomatch hload
  | ok p =>
      rw [hp] at hload
      have hnames := congrArg (List.map Prod.snd) (Option.some.inj hload)
      rw [List.map_map] at hnames
      have hnodup := hdistinct _ _ _ _ _ hp
      rw [show (fun model : Model => model.constructorName) = Prod.snd ∘ fun model : Model =>
        (model.typeName, model.constructorName) from rfl, hnames] at hnodup
      exact absurd hnodup (by decide)

/-- **ONLY LETTER CASE.**  If a provider is loaded, two of its models have one constructor name only
    if their type names differ in letter case and in nothing else. -/
theorem sharedConstructor_of_load {files : FileTree} {catalog : Catalog} {id : String}
    {folder? : Option String} {p : ProviderModels} (h : catalog.load files id folder? = .ok p)
    {a b : Model} (ha : a ∈ p.models.toList) (hb : b ∈ p.models.toList)
    (hsame : a.constructorName = b.constructorName) :
    a = b ∨ a.typeName ≠ b.typeName ∧ a.typeName.toLower = b.typeName.toLower := by
  by_cases htype : a.typeName = b.typeName
  · exact Or.inl (List.inj_on_of_nodup_map p.models.nodup_keys ha hb htype)
  · obtain ⟨idA, hA⟩ := named_of_load h a ha
    obtain ⟨idB, hB⟩ := named_of_load h b hb
    have hnamesA := ModelNames.mk.inj (ModelId.names_eq_ok.1 hA).2.2
    have hnamesB := ModelNames.mk.inj (ModelId.names_eq_ok.1 hB).2.2
    refine Or.inr ⟨htype, ?_⟩
    rw [hnamesA.1, hnamesB.1]
    refine ModelId.typeName_toLower_eq ?_
    rw [← hnamesA.2, ← hnamesB.2]
    exact hsame

/-- The two models of the document are such a pair. -/
theorem sharedConstructor_of_load_letterCase :
    ∃ (p : ProviderModels) (a b : Model),
      (Catalog.document letterCaseDocument).load .empty "p" none = .ok p ∧
        a ∈ p.models.toList ∧ b ∈ p.models.toList ∧ a.constructorName = b.constructorName ∧
        a.typeName ≠ b.typeName ∧ a.typeName.toLower = b.typeName.toLower := by
  have hload := load_letterCaseDocument
  cases hp : (Catalog.document letterCaseDocument).load .empty "p" none with
  | error error =>
      rw [hp] at hload
      exact nomatch hload
  | ok p =>
      rw [hp] at hload
      obtain ⟨a, rest, hlist, ha, hrest⟩ := List.map_eq_cons_iff.1 (Option.some.inj hload)
      obtain ⟨b, none, hlist', hb, -⟩ := List.map_eq_cons_iff.1 hrest
      have hmemA : a ∈ p.models.toList := hlist ▸ List.mem_cons_self
      have hmemB : b ∈ p.models.toList := hlist ▸ hlist' ▸ List.mem_cons_of_mem _ List.mem_cons_self
      have hsame : a.constructorName = b.constructorName :=
        (congrArg Prod.snd ha).trans (congrArg Prod.snd hb).symm
      refine ⟨p, a, b, rfl, hmemA, hmemB, hsame, ?_⟩
      refine (sharedConstructor_of_load hp hmemA hmemB hsame).resolve_left fun heq => ?_
      rw [heq] at ha
      exact absurd (ha.symm.trans hb) (by decide)

end ModelCatalog
