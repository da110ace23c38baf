import ModelCatalog.CommandLine.Answer
import ModelCatalog.Proofs.Commit.Lasting
import ModelCatalog.Proofs.Generation.OneByOne
import ModelCatalog.Proofs.Models.ReadingLater

/-! # Which failures a run over all providers records

    A provider that fails on its own fails in its turn, too, whatever has been written before it
    (`generate_of_develops`): catalogs may lie among the modules, and paths may lead up.  So a run over
    all providers records every failure of a provider that it visits.  But in compatible mode it does
    not visit those whose metadata cannot be read, and says nothing of them (`run_all_drops`).  The
    headline, `run_all_records`, tells the two apart. -/

namespace ModelCatalog.Generation

open FileTree Commit

-- ── Reading in a tree that has developed ──

theorem isFine_of_bind {α β : Type} {x : Except Error α} {f : α → Except Error β}
    (h : IsFine (x >>= f)) : IsFine x := by
  intro error hx
  refine h error ?_
  rw [hx]
  rfl

theorem exists_of_not_isFine {α : Type} {result : Except Error α} (h : ¬ IsFine result) :
    ∃ error, result = .error error ∧ error.isNothing = false := by
  rw [IsFine, not_forall] at h
  obtain ⟨error, herror⟩ := h
  rw [Classical.not_imp] at herror
  exact ⟨error, herror.1, by simpa using herror.2⟩

section Reading

variable {catalog : Catalog} {mode : Mode} {o : Options} {id : String} {provided : List String}
  {tree later : FileTree} {p : Path}

section Provided

variable (h : Develops p tree later) (hprovided : catalog.providerIds tree = .ok provided)
  (hid : id ∈ provided) (hnamed : ¬ catalog.IsMisnamed tree id)
include h hprovided hid hnamed

theorem info_of_develops {info : ProviderInfo} (hinfo : catalog.info later id none = .ok info) :
    catalog.info tree id none = .ok info := by
  cases catalog with
  | document d => exact hinfo
  | tree root =>
      exact Tree.info_of_develops h (isDirectory_of_not_isMisnamed hprovided hid hnamed) hinfo

theorem load_of_develops (hfine : IsFine (catalog.load later id none)) :
    catalog.load later id none = catalog.load tree id none := by
  cases catalog with
  | document d => rfl
  | tree root =>
      exact Tree.load_of_develops h (isDirectory_of_not_isMisnamed hprovided hid hnamed) hfine

/-- What is prepared later, if that is possible, is what is prepared now. -/
theorem prepare_of_develops (hfolder : o.folder = none)
    (hfine : IsFine (prepare later catalog mode o id)) :
    prepare later catalog mode o id = prepare tree catalog mode o id := by
  rw [prepare, hfolder] at hfine ⊢
  rw [prepare, hfolder]
  cases hnames : ProviderNames.ofId id o.typeName with
  | error error => rw [error_bind, error_bind]
  | ok names =>
      rw [hnames, ok_bind] at hfine
      rw [ok_bind, ok_bind]
      cases mode with
      | capabilities =>
          rw [load_of_develops h hprovided hid hnamed (isFine_of_bind hfine)]
      | compatible =>
          cases hinfo : catalog.info later id none with
          | error error =>
              have hhard := (isOfInfo_of_info hinfo).isNothing
              rw [hinfo] at hfine
              rw [hfine error rfl] at hhard
              cases hhard
          | ok info =>
              rw [hinfo, ok_bind] at hfine
              rw [info_of_develops h hprovided hid hnamed hinfo, ok_bind, ok_bind]
              by_cases hload : IsFine (catalog.load later id none)
              · rw [load_of_develops h hprovided hid hnamed hload]
              · -- the models are not asked for, as the fault in them would have ended it
                obtain ⟨error, herror, hhard⟩ := exists_of_not_isFine hload
                rw [herror] at hfine
                dsimp only at hfine ⊢
                cases hcompatible : info.isCompatible id with
                | false => simp only [Bool.not_false, if_true, throw_bind]
                | true =>
                    cases hwith : o.withCapabilities with
                    | false => simp only [Bool.not_true, Bool.not_false, Bool.false_eq_true, if_true,
                        if_false]
                    | true =>
                        rw [hcompatible, hwith, hhard] at hfine
                        rw [hfine error rfl] at hhard
                        cases hhard

/-- **What is rendered later, if anything can be, is what is rendered now.** -/
theorem rendered_of_develops (hfolder : o.folder = none)
    (hfine : IsFine (rendered later catalog mode o id)) :
    rendered later catalog mode o id = rendered tree catalog mode o id := by
  have hprepare := prepare_of_develops h hprovided hid hnamed hfolder (isFine_of_bind hfine)
  rw [rendered, rendered, hprepare]

end Provided

end Reading

-- ── Writing in a tree that has developed ──

section Writing

variable {catalog : Catalog} {mode : Mode} {o : Options} {id : String} {provided : List String}
  {tree later : FileTree} {batch : List RenderedFile}

namespace RenderedFor

theorem areGenerated (h : RenderedFor mode o id batch) : AreGenerated batch := by
  intro file hfile
  refine ⟨file.kind, ?_⟩
  rw [h.path file hfile, location_filePath h.valid, List.getLast?_append]
  rfl

/-- No module has the name of a generated file. -/
theorem not_isGenerated_modulePath (h : RenderedFor mode o id batch) :
    ¬ (location (modulePath o id)).IsGenerated := by
  rw [h.location_modulePath]
  refine Location.not_isGenerated_concat fun kind heq => ?_
  have hvalid := h.valid
  rw [RawText.ofString_inj.1 heq] at hvalid
  cases kind <;> exact absurd hvalid (by decide)

end RenderedFor

/-- **A provider lets a tree develop**, whatever becomes of it. -/
theorem develops_generate (catalog : Catalog) (mode : Mode) (o : Options) (id : String)
    (tree : FileTree) : Develops o.providersPath tree (generate catalog mode o id tree {}).1 := by
  cases hrendered : rendered tree catalog mode o id with
  | error error =>
      rw [generate_of_error hrendered]
      exact Develops.refl _ tree
  | ok rendering =>
      have hbatch := renderedFor_of_rendered hrendered
      rw [generate_of_rendered hrendered]
      exact develops_commit (Identifier.isPiece_of_isValid hbatch.valid).1 hbatch.inDirectory
        hbatch.batch_ne_nil hbatch.areGenerated o.dryRun tree

/-- **A failure lasts**: a provider that fails now will fail in its turn. -/
theorem generate_of_develops (hfolder : o.folder = none)
    (hprovided : catalog.providerIds tree = .ok provided) (hid : id ∈ provided)
    (hnamed : ¬ catalog.IsMisnamed tree id) (h : Develops o.providersPath tree later)
    (hlater : IsFine (generate catalog mode o id later {}).2) :
    IsFine (generate catalog mode o id tree {}).2 := by
  cases hrendered : rendered later catalog mode o id with
  | error error =>
      have hfine : IsFine (rendered later catalog mode o id) := by
        rw [generate_of_error hrendered] at hlater
        rw [hrendered]
        intro e he
        exact hlater e (congrArg Except.error (Except.error.inj he))
      have hbefore := (rendered_of_develops h hprovided hid hnamed hfolder hfine).symm.trans hrendered
      rw [generate_of_error hrendered] at hlater
      rw [generate_of_error hbefore]
      exact hlater
  | ok rendering =>
      have hfine : IsFine (rendered later catalog mode o id) := by
        intro e he
        rw [hrendered] at he
        cases he
      have hbefore := (rendered_of_develops h hprovided hid hnamed hfolder hfine).symm.trans hrendered
      have hbatch := renderedFor_of_rendered hrendered
      rw [generate_of_rendered hrendered] at hlater
      rw [generate_of_rendered hbefore]
      have hwritten : (commit rendering.2 o.dryRun later {}).2.isOk = true := by
        cases hrun : (commit rendering.2 o.dryRun later {}).2 with
        | ok paths => rfl
        | error error =>
            have hhard := (isOfFile_of_commit hrun).isNothing
            dsimp only at hlater
            rw [hrun] at hlater
            rw [hlater error rfl] at hhard
            cases hhard
      have hnow := commit_of_develops (Identifier.isPiece_of_isValid hbatch.valid).1
        hbatch.not_isGenerated_modulePath hbatch.inDirectory hbatch.batch_ne_nil
        hbatch.areGenerated o.dryRun h hwritten
      intro error herror
      dsimp only at herror
      cases hrun : (commit rendering.2 o.dryRun tree {}).2 with
      | ok paths =>
          rw [hrun] at herror
          cases herror
      | error fault =>
          rw [hrun] at hnow
          cases hnow

/-- A provider that is not listed by its own name does not succeed in capabilities mode, whatever
    has been written before it. -/
theorem generate_of_isMisnamed (hfolder : o.folder = none)
    (hprovided : catalog.providerIds tree = .ok provided) (hid : id ∈ provided)
    (hmisnamed : catalog.IsMisnamed tree id) (h : Develops o.providersPath tree later)
    (g : Generated) : (generate catalog .capabilities o id later {}).2 ≠ .ok g := by
  intro hg
  cases catalog with
  | document d => exact hmisnamed
  | tree root =>
      obtain ⟨models, batch, paths, hrendered, -⟩ := generate_eq_ok.1 hg
      obtain ⟨r, hprepare, -⟩ := rendered_eq_ok.1 hrendered
      obtain ⟨names, -, ⟨-, loaded, hload, -⟩ | ⟨hmode, -⟩⟩ := prepare_cases hprepare
      · rw [hfolder] at hload
        exact Tree.load_of_new h (isDirectory_of_providerIds hprovided)
          (isPiece_of_mem hprovided hid) hmisnamed.2 loaded hload
      · cases hmode

end Writing

-- ── A run over all ──

/-- A run over all providers passes one over if it is in compatible mode, and the metadata of the
    provider cannot be read or is not compatible. -/
def PassedOver (tree : FileTree) (catalog : Catalog) (mode : Mode) (id : String) : Prop :=
  mode = .compatible ∧ ∀ info, catalog.info tree id none = .ok info → info.isCompatible id = false

/-- What the summary of a run over all providers records: every provider that fails on its own is
    listed as a failure unless it is passed over, and then it is not listed at all.  Only one that is
    not listed by its own name can be skipped instead, as something else can have made a directory of
    the name.  Without a failure, every other provider has succeeded or has nothing to generate.  A
    failure decides the exit code of whatever command line the run is for. -/
structure Records (catalog : Catalog) (mode : Mode) (o : Options) (tree : FileTree)
    (formatter : Formatter) (provided : List String) (s : Summary) : Prop where
  failed : ∀ id ∈ provided, ¬ PassedOver tree catalog mode id → ∀ error,
    (run catalog (.one id) mode o tree (fun _ => {}) formatter).2 = .error error →
      id ∈ s.failed.map (·.1) ∨ catalog.IsMisnamed tree id ∧ id ∈ s.skipped.map (·.1)
  passedOver : ∀ id ∈ provided, PassedOver tree catalog mode id → id ∉ names s
  complete : s.failed = [] → ∀ id ∈ provided, id ∈ s.succeeded.map (·.providerId) ∨
    id ∈ s.skipped.map (·.1) ∨ PassedOver tree catalog mode id
  exitCode : s.failed ≠ [] → ∀ args directory command, CommandLine.parse args = .ok command →
    command.run directory tree formatter = run catalog .all mode o tree (fun _ => {}) formatter →
      (CommandLine.run args directory tree formatter).2.exitCode = 1

section All

variable {catalog : Catalog} {mode : Mode} {o : Options} {id : String} {ids provided : List String}
  {tree : FileTree}

theorem develops_produceEach (catalog : Catalog) (mode : Mode) (o : Options) (ids : List String)
    (tree : FileTree) :
    Develops o.providersPath tree (produceEach catalog mode o (fun _ => {}) ids tree).1 := by
  induction ids generalizing tree with
  | nil => exact Develops.refl _ tree
  | cons id rest ih =>
      rw [produceEach_cons]
      exact (develops_generate catalog mode o id tree).trans (ih _)

/-- The providers that a run visits are those that it does not pass over. -/
theorem mem_selected_iff (hprovided : catalog.providerIds tree = .ok provided)
    (hselected : selected tree catalog mode = .ok ids) :
    id ∈ ids ↔ id ∈ provided ∧ ¬ PassedOver tree catalog mode id := by
  rw [selected, hprovided, ok_bind] at hselected
  cases mode with
  | capabilities =>
      obtain rfl := Except.ok.inj hselected
      exact ⟨fun h => ⟨h, fun hover => by cases hover.1⟩, And.left⟩
  | compatible =>
      rw [← Except.ok.inj hselected, List.mem_filter, PassedOver]
      refine and_congr_right fun _ => ?_
      cases hinfo : catalog.info tree id none with
      | error error => simp
      | ok info => simp

/-- A provider that is not listed by its own name has no metadata, so it is passed over in compatible
    mode. -/
theorem mode_of_isMisnamed (hmisnamed : catalog.IsMisnamed tree id)
    (hnot : ¬ PassedOver tree catalog mode id) : mode = .capabilities := by
  cases mode with
  | capabilities => rfl
  | compatible =>
      refine absurd ⟨rfl, fun info hinfo => ?_⟩ hnot
      cases catalog with
      | document d => exact hmisnamed.elim
      | tree root =>
          have hpath : Tree.providerPath tree root id none = .error (.providerNotFound id) :=
            if_neg (by simp [hmisnamed.2])
          rw [Catalog.info, Tree.info, hpath] at hinfo
          cases hinfo

theorem own_eq_error {result : Except Error Generated} {error : Error} :
    own id result = .error error ↔ result = .error error ∧ error.isNothing = false := by
  cases result with
  | ok g => exact iff_of_false (fun h => by cases h) fun h => by cases h.1
  | error fault =>
      rw [own]
      by_cases hnothing : fault.isNothing = true
      · rw [if_pos hnothing]
        refine iff_of_false (fun h => by cases h) fun h => ?_
        rw [Except.error.inj h.1, h.2] at hnothing
        cases hnothing
      · rw [if_neg hnothing]
        constructor
        · intro h
          rw [← Except.error.inj h]
          exact ⟨rfl, by simpa using hnothing⟩
        · intro h
          rw [Except.error.inj h.1]

/-- What a provider comes to in its turn is listed. -/
theorem mem_produceEach (before rest : List String) :
    (id, own id (generate catalog mode o id
      (produceEach catalog mode o (fun _ => {}) before tree).1 {}).2) ∈
        (produceEach catalog mode o (fun _ => {}) (before ++ id :: rest) tree).2 := by
  simp only [produceEach_append, produceEach_cons]
  exact List.mem_append_right _ List.mem_cons_self

/-- **A provider that fails on its own is listed as a failure** if it is visited, or as skipped if it is
    not listed by its own name. -/
theorem failed_of_own (hfolder : o.folder = none)
    (hprovided : catalog.providerIds tree = .ok provided) (hid : id ∈ provided)
    (hvisited : id ∈ ids) (hnot : ¬ PassedOver tree catalog mode id) {error : Error}
    (hone : (produce catalog (.one id) mode o tree).2 = .error error) :
    let results := (produceEach catalog mode o (fun _ => {}) ids tree).2
    id ∈ (errors results).map (·.1) ∨
      catalog.IsMisnamed tree id ∧ id ∈ (together (·.skipped) results).map (·.1) := by
  obtain ⟨before, rest, rfl⟩ := List.append_of_mem hvisited
  have hdevelops := develops_produceEach catalog mode o before tree
  have hmem : (id, own id (generate catalog mode o id
      (produceEach catalog mode o (fun _ => {}) before tree).1 {}).2) ∈
        (produceEach catalog mode o (fun _ => {}) (before ++ id :: rest) tree).2 :=
    mem_produceEach before rest
  -- whatever is hard in its turn is listed as a failure
  have hlisted : ¬ IsFine (generate catalog mode o id
      (produceEach catalog mode o (fun _ => {}) before tree).1 {}).2 →
      id ∈ (errors (produceEach catalog mode o (fun _ => {}) (before ++ id :: rest) tree).2).map
        (·.1) := by
    intro hturn
    obtain ⟨fault, hfault, hnothing⟩ := exists_of_not_isFine hturn
    rw [own_eq_error.2 ⟨hfault, hnothing⟩] at hmem
    exact List.mem_map.2 ⟨(id, fault), List.mem_filterMap.2 ⟨_, hmem, rfl⟩, rfl⟩
  by_cases hmisnamed : catalog.IsMisnamed tree id
  · by_cases hturn : IsFine (generate catalog mode o id
        (produceEach catalog mode o (fun _ => {}) before tree).1 {}).2
    · refine Or.inr ⟨hmisnamed, ?_⟩
      have hmode : mode = .capabilities := mode_of_isMisnamed hmisnamed hnot
      subst hmode
      cases hgenerate : (generate catalog .capabilities o id
          (produceEach catalog .capabilities o (fun _ => {}) before tree).1 {}).2 with
      | ok g =>
          exact absurd hgenerate (generate_of_isMisnamed hfolder hprovided hid hmisnamed hdevelops g)
      | error fault =>
          have hnothing := hturn fault hgenerate
          rw [hgenerate, own, if_pos hnothing] at hmem
          refine List.mem_map.2 ⟨(id, fault), List.mem_flatMap.2 ⟨_, hmem, ?_⟩, rfl⟩
          rw [record, if_pos hnothing]
          exact List.mem_singleton_self _
    · exact Or.inl (hlisted hturn)
  · refine Or.inl (hlisted fun hturn => ?_)
    rw [produce_one] at hone
    obtain ⟨hgenerate, hnothing⟩ := own_eq_error.1 hone
    have hfine := generate_of_develops hfolder hprovided hid hmisnamed hdevelops hturn
    rw [hfine error hgenerate] at hnothing
    cases hnothing

/-- **EVERY FAILURE BUT THOSE PASSED OVER.**  If the providers of a catalog can be read, a run over
    all of them succeeds, and its summary records every failure, except of providers that it passes
    over. -/
theorem run_all_records {formatter : Formatter} (hfolder : o.folder = none)
    (hprovided : catalog.providerIds tree = .ok provided) :
    ∃ after s, run catalog .all mode o tree (fun _ => {}) formatter = (after, .ok s) ∧
      Records catalog mode o tree formatter provided s := by
  obtain ⟨ids, hselected, -⟩ := selected_of_providerIds mode hprovided
  have hmem : ∀ id, id ∈ ids ↔ id ∈ provided ∧ ¬ PassedOver tree catalog mode id :=
    fun _ => mem_selected_iff hprovided hselected
  obtain ⟨-, hadds⟩ := visit_eq_produceEach catalog mode o (fun _ => {}) ids tree {}
  have hnames := names_visit catalog mode o (fun _ => {}) ids tree {}
  rw [show ids ++ names {} = ids from List.append_nil ids] at hnames
  have hrun : run catalog .all mode o tree (fun _ => {}) formatter
      = ((run catalog .all mode o tree (fun _ => {}) formatter).1,
        .ok (visit catalog mode o (fun _ => {}) ids tree {}).2) := by
    refine Prod.ext rfl ?_
    rw [run_snd, produce_all_of_selected hselected]
  refine ⟨_, _, hrun, fun id hid hover error hone => ?_, fun id hid hover hlisted => ?_,
    fun hnone id hid => ?_, fun hfailed args directory command hparse hcommand => ?_⟩
  · rw [hadds.failed, hadds.skipped]
    exact failed_of_own hfolder hprovided hid ((hmem id).2 ⟨hid, hover⟩) hover
      (run_snd.symm.trans hone)
  · exact ((hmem id).1 (hnames.subset hlisted)).2 hover
  · by_cases hover : PassedOver tree catalog mode id
    · exact Or.inr (Or.inr hover)
    · have hlisted := hnames.symm.subset ((hmem id).2 ⟨hid, hover⟩)
      rw [names, hnone, List.map_nil, List.append_nil, List.mem_append] at hlisted
      exact hlisted.imp_right Or.inl
  · rw [CommandLine.run, hparse]
    dsimp only
    rw [hcommand, hrun]
    exact if_pos (by simpa [Summary.hasFailures] using hfailed)

end All

-- ── Metadata that cannot be read ──

/-- Whether a result is that the text of a catalog is not what it has to be. -/
def isMalformed {α : Type} : Except Error α → Bool
  | .error (.malformedCatalog _) => true
  | _ => false

theorem exists_of_isMalformed {α : Type} {result : Except Error α} (h : isMalformed result = true) :
    ∃ fault, result = .error (.malformedCatalog fault) := by
  cases result with
  | ok a => cases h
  | error error => cases error <;> first | exact ⟨_, rfl⟩ | cases h

/-- In capabilities mode the first of the two providers is listed as a failure. -/
theorem run_all_records_twoFolders :
    let o : Options := { outputRoot := ⟨"out"⟩ }
    let catalog : Catalog := .tree ⟨"cat"⟩
    o.folder = none ∧ ∃ after s, run catalog .all .capabilities o twoFolders = (after, .ok s) ∧
      Records catalog .capabilities o twoFolders .missing ["a", "b"] s ∧ "a" ∈ s.failed.map (·.1) := by
  intro o catalog
  obtain ⟨after, s, hrun, hrecords⟩ : ∃ after s,
      run catalog .all .capabilities o twoFolders = (after, .ok s) ∧
        Records catalog .capabilities o twoFolders .missing ["a", "b"] s :=
    run_all_records rfl providerIds_twoFolders
  have hfails : isMalformed (run catalog (.one "a") .capabilities o twoFolders).2 = true := by
    decide +kernel
  obtain ⟨fault, hone⟩ := exists_of_isMalformed hfails
  have hlisted := hrecords.failed "a" List.mem_cons_self (fun hover => nomatch hover.1) _ hone
  refine ⟨rfl, after, s, hrun, hrecords, hlisted.resolve_right fun hmisnamed => ?_⟩
  have hdir : twoFolders.isDirectory ((Tree.providersPath ⟨"cat"⟩).child "a") = true := by decide
  cases hdir.symm.trans hmisnamed.1.2

/-- **A failure is dropped**: in compatible mode a run over the two providers records nothing, though
    a run for the first one fails. -/
theorem run_all_drops :
    ¬ ∀ (catalog : Catalog) (mode : Mode) (o : Options) (tree after : FileTree)
      (provided : List String) (s : Summary), o.folder = none → o.typeName = none →
        catalog.providerIds tree = .ok provided →
        run catalog .all mode o tree = (after, .ok s) →
          ∀ id ∈ provided, ∀ error, (run catalog (.one id) mode o tree).2 = .error error →
            error ≠ .notCompatible id → id ∈ s.failed.map (·.1) := by
  intro hrecords
  have hselected : selected twoFolders (.tree ⟨"cat"⟩) .compatible = .ok [] := by
    rw [selected, providerIds_twoFolders, ok_bind]
    rfl
  have hrun : run (.tree ⟨"cat"⟩) .all .compatible { outputRoot := ⟨"out"⟩ } twoFolders
      = (twoFolders, .ok {}) := by
    rw [run_of_not_format rfl, produce_all_of_selected hselected]
    rfl
  have hfails : isMalformed (run (.tree ⟨"cat"⟩) (.one "a") .compatible { outputRoot := ⟨"out"⟩ }
      twoFolders).2 = true := by decide +kernel
  obtain ⟨fault, hone⟩ := exists_of_isMalformed hfails
  have hlisted := hrecords _ _ _ _ _ _ _ rfl rfl providerIds_twoFolders hrun "a"
    List.mem_cons_self _ hone fun h => by cases h
  cases hlisted

end ModelCatalog.Generation
