import ModelCatalog.Proofs.Generation.OneByOne
import ModelCatalog.Proofs.Generation.Written

/-! # What a dry run foretells

    A dry run reads, renders and looks at the files that it would replace, but it writes nothing.  What
    it says of a provider therefore holds in earnest, but for faults in writing (`Foresees`), as long
    as the same is rendered when the provider has its turn.  `Foretells` says so of two summaries; it
    is kept when one more provider is recorded (`Foretells.record`), and so by a whole visit, while the
    one run writes and the other does not (`foretells_visit`).

    The headline is `run_dry`.  A run over all providers of a tree has to keep clear of it: a path can
    lead through the tree by `..` and out of it again, and what is missing on the way is made, in the
    way of a later provider (`skipped_not_foretold`). -/

namespace ModelCatalog

open FileTree Commit

/-- The same settings for a dry run. -/
def Options.dry (o : Options) : Options := { o with dryRun := true }

/-- The same settings for a run in earnest. -/
def Options.inEarnest (o : Options) : Options := { o with dryRun := false }

/-- A provider that succeeded, with the number of its models. -/
def Outcome.count (outcome : Outcome) : String × Nat := (outcome.providerId, outcome.modelCount)

namespace Generation

variable {catalog : Catalog} {mode : Mode} {o : Options} {id : String} {tree turn : FileTree}

-- ── One provider ──

/-- What comes of a provider in a dry run, and in earnest: the same, but for paths and for faults in
    writing. -/
inductive Foresees (id : String) : Except Error Generated → Except Error Generated → Prop
  | fails (error : Error) : Foresees id (.error error) (.error error)
  | succeeds {models : Option ProviderModels} (hid : ∀ p ∈ models, p.providerId = id)
      (paths : List Path) :
      Foresees id (.ok (generated id models [])) (.ok (generated id models paths))
  | unwritten {models : Option ProviderModels} (hid : ∀ p ∈ models, p.providerId = id)
      (path : Path) (fault : FileFault) :
      Foresees id (.ok (generated id models [])) (.error (.notWritten path fault))

/-- **What a dry run says of a provider** holds in its turn, if the same is rendered then. -/
theorem foresees_generate {disk : Disk}
    (hread : ∀ p fault, disk.refusesReading p = some fault → IsFile tree p)
    (hwritten : Written o.providersPath tree turn)
    (hrendered : rendered turn catalog mode o id = rendered tree catalog mode o id) :
    (generate catalog mode o.dry id tree disk).1 = tree ∧
      Foresees id (generate catalog mode o.dry id tree disk).2
        (generate catalog mode o.inEarnest id turn disk).2 := by
  cases hbatch : rendered tree catalog mode o id with
  | error error =>
      have hdry : rendered tree catalog mode o.dry id = .error error := hbatch
      have hturn : rendered turn catalog mode o.inEarnest id = .error error := hrendered.trans hbatch
      rw [generate_of_error hdry, generate_of_error hturn]
      exact ⟨rfl, .fails error⟩
  | ok rendering =>
      obtain ⟨models, batch⟩ := rendering
      have hdry : rendered tree catalog mode o.dry id = .ok (models, batch) := hbatch
      have hturn : rendered turn catalog mode o.inEarnest id = .ok (models, batch) :=
        hrendered.trans hbatch
      have hfor := renderedFor_of_rendered hbatch
      have hid : ∀ p ∈ models, p.providerId = id := fun p hp => (models_of_rendered hbatch p hp).1
      rw [generate_of_rendered hdry, generate_of_rendered hturn]
      refine ⟨commit_dryRun batch tree disk, ?_⟩
      -- what the disk refuses to read was there at the start, and still is
      have hthere : ∀ file ∈ batch, disk.refusesReading file.path ≠ none → IsFile tree file.path := by
        intro file _ hrefuses
        obtain ⟨fault, hfault⟩ := Option.ne_none_iff_exists'.1 hrefuses
        exact hread _ _ hfault
      have hstill : ∀ file ∈ batch, disk.refusesReading file.path ≠ none → IsFile turn file.path := by
        intro file hfile hrefuses
        have hfind := hthere file hfile hrefuses
        rw [hfor.path file hfile] at hfind ⊢
        exact hwritten.files _ _ hfor.valid hfind
      have hsame : fault? (snapshots disk turn batch) = fault? (snapshots disk tree batch) :=
        (fault?_snapshots hstill).trans (fault?_snapshots hthere).symm
      change Foresees id (generated id models <$> (commit batch true tree disk).2)
        (generated id models <$> (commit batch false turn disk).2)
      rcases commit_foreseen hsame with
        ⟨error, hfails, hfails'⟩ | ⟨hok, ⟨paths, hok'⟩ | ⟨path, fault, hfails'⟩⟩
      · rw [hfails, hfails']
        exact .fails error
      · rw [hok, hok']
        exact .succeeds hid paths
      · rw [hok, hfails']
        exact .unwritten hid path fault

-- ── Summaries ──

/-- What a dry run foretells of the summary in earnest. -/
structure Foretells (dry real : Summary) : Prop where
  paths : dry.paths = []
  skipped : dry.skipped = real.skipped
  failed : dry.failed.Sublist real.failed
  failures : ∀ x ∈ real.failed, x ∈ dry.failed ∨
    (∃ path fault, x.2 = .notWritten path fault) ∧ x.1 ∈ dry.succeeded.map (·.providerId)
  succeeded : (real.succeeded.map Outcome.count).Sublist (dry.succeeded.map Outcome.count)
  successes : ∀ outcome ∈ dry.succeeded, outcome.count ∈ real.succeeded.map Outcome.count ∨
    ∃ path fault, (outcome.providerId, .notWritten path fault) ∈ real.failed
  catalog : ∀ id, (∀ path fault, (id, .notWritten path fault) ∉ real.failed) →
    dry.catalog.get? id = real.catalog.get? id

namespace Foretells

variable {dry real : Summary}

theorem empty : Foretells {} {} where
  paths := rfl
  skipped := rfl
  failed := .refl _
  failures x hx := by cases hx
  succeeded := .refl _
  successes outcome houtcome := by cases houtcome
  catalog id _ := rfl

/-- A success of a dry run has no paths. -/
theorem paths_record (s : Summary) (id : String) (models : Option ProviderModels) :
    (Generation.record s id (.ok (generated id models []))).paths = s.paths := by
  rw [Generation.record, Summary.paths, List.flatMap_append]
  exact List.append_nil _

/-- A success in both runs is recorded. -/
theorem success (h : Foretells dry real) {models : Option ProviderModels}
    (hid : ∀ p ∈ models, p.providerId = id) (paths : List Path) :
    Foretells (Generation.record dry id (.ok (generated id models [])))
      (Generation.record real id (.ok (generated id models paths))) := by
  refine ⟨(paths_record dry id models).trans h.paths, h.skipped, h.failed, fun x hx => ?_, ?_,
    fun outcome houtcome => ?_, fun other hother => ?_⟩
  · rcases h.failures x hx with hfailed | ⟨hwriting, hlisted⟩
    · exact Or.inl hfailed
    · exact Or.inr ⟨hwriting, List.map_subset _ (List.subset_append_left _ _) hlisted⟩
  · rw [Generation.record, Generation.record, List.map_append, List.map_append]
    exact h.succeeded.append (List.Sublist.refl _)
  · rw [Generation.record, List.map_append]
    rcases List.mem_append.1 houtcome with hbefore | hhere
    · exact (h.successes outcome hbefore).imp_left (List.mem_append_left _)
    · rw [List.mem_singleton.1 hhere]
      exact Or.inl (List.mem_append_right _ (List.mem_singleton_self _))
  · cases models with
    | none => exact h.catalog other hother
    | some p =>
        change (dry.catalog.insert p).get? other = (real.catalog.insert p).get? other
        rw [Index.get?_insert, Index.get?_insert, h.catalog other hother]

/-- A failure in both runs is recorded. -/
theorem failure (h : Foretells dry real) (id : String) (error : Error) :
    Foretells (Generation.record dry id (.error error))
      (Generation.record real id (.error error)) := by
  rw [Generation.record, Generation.record]
  by_cases hnothing : error.isNothing = true
  · rw [if_pos hnothing, if_pos hnothing]
    exact { h with skipped := by rw [h.skipped] }
  · rw [if_neg hnothing, if_neg hnothing]
    refine ⟨h.paths, h.skipped, h.failed.append (List.Sublist.refl _), fun x hx => ?_, h.succeeded,
      fun outcome houtcome => ?_, fun other hother => ?_⟩
    · rcases List.mem_append.1 hx with hbefore | hhere
      · exact (h.failures x hbefore).imp_left (List.mem_append_left _)
      · exact Or.inl (List.mem_append_right _ hhere)
    · rcases h.successes outcome houtcome with hlisted | ⟨path, fault, hfailed⟩
      · exact Or.inl hlisted
      · exact Or.inr ⟨path, fault, List.mem_append_left _ hfailed⟩
    · exact h.catalog other fun path fault hfailed =>
        hother path fault (List.mem_append_left _ hfailed)

/-- A success in the dry run is recorded with a fault in writing. -/
theorem unwritten (h : Foretells dry real) {models : Option ProviderModels}
    (hid : ∀ p ∈ models, p.providerId = id) (path : Path) (fault : FileFault) :
    Foretells (Generation.record dry id (.ok (generated id models [])))
      (Generation.record real id (.error (.notWritten path fault))) := by
  have hreal : Generation.record real id (.error (.notWritten path fault))
      = { real with failed := real.failed ++ [(id, .notWritten path fault)] } := rfl
  rw [hreal]
  refine ⟨(paths_record dry id models).trans h.paths, h.skipped,
    h.failed.trans (List.sublist_append_left _ _), fun x hx => ?_, ?_, fun outcome houtcome => ?_,
    fun other hother => ?_⟩
  · rw [Generation.record, List.map_append]
    rcases List.mem_append.1 hx with hbefore | hhere
    · rcases h.failures x hbefore with hfailed | ⟨hwriting, hlisted⟩
      · exact Or.inl hfailed
      · exact Or.inr ⟨hwriting, List.mem_append_left _ hlisted⟩
    · rw [List.mem_singleton.1 hhere]
      exact Or.inr ⟨⟨path, fault, rfl⟩, List.mem_append_right _ (List.mem_singleton_self _)⟩
  · rw [Generation.record, List.map_append]
    exact h.succeeded.trans (List.sublist_append_left _ _)
  · rcases List.mem_append.1 houtcome with hbefore | hhere
    · rcases h.successes outcome hbefore with hlisted | ⟨path', fault', hfailed⟩
      · exact Or.inl hlisted
      · exact Or.inr ⟨path', fault', List.mem_append_left _ hfailed⟩
    · rw [List.mem_singleton.1 hhere]
      exact Or.inr ⟨path, fault, List.mem_append_right _ (List.mem_singleton_self _)⟩
  · -- the catalogs may differ in the models of this provider, but it could not be written
    have hne : other ≠ id := by
      rintro rfl
      exact hother path fault (List.mem_append_right _ (List.mem_singleton_self _))
    have hbefore := h.catalog other fun path' fault' hfailed =>
      hother path' fault' (List.mem_append_left _ hfailed)
    cases models with
    | none => exact hbefore
    | some p =>
        change (dry.catalog.insert p).get? other = real.catalog.get? other
        rw [Index.get?_insert, hid p rfl, if_neg (Ne.symm hne), hbefore]

/-- **The step**: what comes of one more provider is recorded. -/
theorem record {first second : Except Error Generated} (h : Foretells dry real)
    (hforesees : Foresees id first second) :
    Foretells (Generation.record dry id first) (Generation.record real id second) := by
  cases hforesees with
  | fails error => exact h.failure id error
  | succeeds hid paths => exact h.success hid paths
  | unwritten hid path fault => exact h.unwritten hid path fault

end Foretells

-- ── All providers ──

section Visiting

variable {disk : String → Disk} {provided ids : List String} {dry real : Summary}

theorem written_inEarnest (id : String) (turn : FileTree) :
    Written o.providersPath turn (generate catalog mode o.inEarnest id turn (disk id)).1 :=
  written_generate (o := o.inEarnest) rfl catalog mode id turn (disk id)

/-- **The same is rendered after the next turn**, too. -/
theorem rendered_after_turn (hclear : IsClearOf catalog o tree)
    (hprovided : catalog.providerIds tree = .ok provided)
    (hwritten : Written o.providersPath tree turn)
    (hrendered : rendered turn catalog mode o id = rendered tree catalog mode o id) {other : String}
    (hother : other ∈ provided)
    (hsame : rendered turn catalog mode o other = rendered tree catalog mode o other) :
    rendered (generate catalog mode o.inEarnest id turn (disk id)).1 catalog mode o other
      = rendered tree catalog mode o other := by
  cases hfirst : rendered tree catalog mode o id with
  | error error =>
      -- nothing is written for a provider of which nothing can be rendered
      have hturn : rendered turn catalog mode o.inEarnest id = .error error := hrendered.trans hfirst
      rw [generate_of_error hturn]
      exact hsame
  | ok r =>
      exact rendered_of_written hclear hprovided hother hfirst
        (hwritten.trans (written_inEarnest id turn))

/-- The models that are rendered for a provider, if any are. -/
def modelsFor (tree : FileTree) (catalog : Catalog) (mode : Mode) (o : Options) (id : String) :
    Option ProviderModels :=
  (rendered tree catalog mode o id).toOption.bind (·.1)

/-- The catalog of a summary holds the models that are rendered for its providers in a tree, and for
    those that succeeded all of them: also if a provider has several turns. -/
structure KnowsModels (tree : FileTree) (catalog : Catalog) (mode : Mode) (o : Options)
    (s : Summary) : Prop where
  known : ∀ id p, s.catalog.get? id = some p → modelsFor tree catalog mode o id = some p
  succeeded : ∀ outcome ∈ s.succeeded,
    s.catalog.get? outcome.providerId = modelsFor tree catalog mode o outcome.providerId

theorem KnowsModels.empty : KnowsModels tree catalog mode o {} where
  known := by
    intro id p hget
    cases hget
  succeeded := by
    intro outcome houtcome
    cases houtcome

/-- **The step**: what is recorded has been rendered as in the tree. -/
theorem KnowsModels.record {s : Summary} {quirks : Disk} {o' : Options}
    (h : KnowsModels tree catalog mode o s)
    (hsame : rendered turn catalog mode o' id = rendered tree catalog mode o id) :
    KnowsModels tree catalog mode o
      (Generation.record s id (generate catalog mode o' id turn quirks).2) := by
  cases hresult : (generate catalog mode o' id turn quirks).2 with
  | error error =>
      rw [Generation.record]
      split <;> exact ⟨h.known, h.succeeded⟩
  | ok g =>
      obtain ⟨models, batch, paths, hrendered, -, rfl⟩ := generate_eq_ok.1 hresult
      have hmodels : modelsFor tree catalog mode o id = models := by
        rw [modelsFor, ← hsame, hrendered]
        rfl
      cases models with
      | none =>
          refine ⟨h.known, fun outcome houtcome => ?_⟩
          rcases List.mem_append.1 houtcome with hbefore | hhere
          · exact h.succeeded outcome hbefore
          · rw [List.mem_singleton.1 hhere]
            show s.catalog.get? id = modelsFor tree catalog mode o id
            cases hget : s.catalog.get? id with
            | none => exact hmodels.symm
            | some p => exact (h.known id p hget).symm
      | some p =>
          have hid : p.providerId = id := (models_of_rendered hrendered p rfl).1
          have hget : ∀ other, (s.catalog.insert p).get? other
              = if id = other then some p else s.catalog.get? other := by
            intro other
            rw [Index.get?_insert, hid]
          refine ⟨fun other q hq => ?_, fun outcome houtcome => ?_⟩
          · change (s.catalog.insert p).get? other = some q at hq
            rw [hget] at hq
            split at hq
            · next heq => rw [← heq, hmodels, hq]
            · exact h.known other q hq
          · show (s.catalog.insert p).get? outcome.providerId
              = modelsFor tree catalog mode o outcome.providerId
            rw [hget]
            split
            · next heq => rw [← heq, hmodels]
            · next hne =>
              rcases List.mem_append.1 houtcome with hbefore | hhere
              · exact h.succeeded outcome hbefore
              · exact absurd (congrArg Outcome.providerId (List.mem_singleton.1 hhere)).symm hne

/-- **A dry visit foretells a visit in earnest**: the invariant is that the same is rendered for
    every provider as at the start. -/
theorem foretells_visit
    (hread : ∀ id p fault, (disk id).refusesReading p = some fault → IsFile tree p)
    (hclear : IsClearOf catalog o tree) (hprovided : catalog.providerIds tree = .ok provided)
    (hids : ids ⊆ provided) (hwritten : Written o.providersPath tree turn)
    (hsame : ∀ id ∈ provided, rendered turn catalog mode o id = rendered tree catalog mode o id)
    (h : Foretells dry real) (hdry : KnowsModels tree catalog mode o dry)
    (hreal : KnowsModels tree catalog mode o real) :
    (visit catalog mode o.dry disk ids tree dry).1 = tree ∧
      Foretells (visit catalog mode o.dry disk ids tree dry).2
        (visit catalog mode o.inEarnest disk ids turn real).2 ∧
      KnowsModels tree catalog mode o (visit catalog mode o.dry disk ids tree dry).2 ∧
      KnowsModels tree catalog mode o (visit catalog mode o.inEarnest disk ids turn real).2 := by
  induction ids generalizing turn dry real with
  | nil => exact ⟨rfl, h, hdry, hreal⟩
  | cons id rest ih =>
      have hid : id ∈ provided := hids List.mem_cons_self
      obtain ⟨htree, hforesees⟩ := foresees_generate (hread id) hwritten (hsame id hid)
      have hdry' : KnowsModels tree catalog mode o
          (record dry id (generate catalog mode o.dry id tree (disk id)).2) := hdry.record rfl
      have hreal' : KnowsModels tree catalog mode o
          (record real id (generate catalog mode o.inEarnest id turn (disk id)).2) :=
        hreal.record (hsame id hid)
      rw [visit_cons, visit_cons, htree]
      refine ih (fun other hother => hids (List.mem_cons_of_mem _ hother))
        (hwritten.trans (written_inEarnest id turn))
        (fun other hother => ?_) (h.record hforesees) hdry' hreal'
      exact rendered_after_turn hclear hprovided hwritten (hsame id hid) hother (hsame other hother)

/-- The models of a provider that succeeds in earnest are in both catalogs. -/
theorem Foretells.models (h : Foretells dry real) (hdry : KnowsModels tree catalog mode o dry)
    (hreal : KnowsModels tree catalog mode o real) :
    ∀ outcome ∈ real.succeeded,
      dry.catalog.get? outcome.providerId = real.catalog.get? outcome.providerId := by
  intro outcome houtcome
  obtain ⟨foretold, hforetold, hcount⟩ :=
    List.mem_map.1 (h.succeeded.subset (List.mem_map_of_mem houtcome))
  have hid : foretold.providerId = outcome.providerId := congrArg Prod.fst hcount
  rw [hreal.succeeded outcome houtcome, ← hid, hdry.succeeded foretold hforetold]

end Visiting

-- ── Runs ──

/-- What a dry run says of the run in earnest. -/
inductive Predicts : Selector → Except Error Summary → Except Error Summary → Prop
  /-- An error ends both. -/
  | error (selector : Selector) (error : Error) : Predicts selector (.error error) (.error error)
  /-- Both come to an end; what succeeds in earnest succeeds with the same models. -/
  | summaries (selector : Selector) {dry real : Summary} (foretells : Foretells dry real)
      (models : ∀ outcome ∈ real.succeeded,
        dry.catalog.get? outcome.providerId = real.catalog.get? outcome.providerId) :
      Predicts selector (.ok dry) (.ok real)
  /-- The files of a single provider cannot be written. -/
  | unwritten (id : String) (models : Option ProviderModels) (path : Path) (fault : FileFault) :
      Predicts (.one id) (.ok (record {} id (.ok (generated id models []))))
        (.error (.notWritten path fault))

/-- What comes of a single provider is predicted. -/
theorem predicts_own {first second : Except Error Generated} (h : Foresees id first second) :
    Predicts (.one id) (own id first) (own id second) := by
  cases h with
  | fails error =>
      rw [own]
      split
      · exact .summaries _ (Foretells.empty.failure id error) fun _ _ => rfl
      · exact .error _ error
  | succeeds hid paths =>
      refine .summaries _ (Foretells.empty.success hid paths) fun outcome houtcome => ?_
      exact (Foretells.empty.success hid paths).catalog _ fun path fault hfailed => by cases hfailed
  | unwritten hid path fault => exact .unwritten id _ path fault

/-- **A DRY RUN PREDICTS THE RUN IN EARNEST**, and changes nothing.  It lists no paths, skips the same
    providers and fails in the same ways; all that can be different in earnest are faults in writing.
    What the disk refuses to read has to be there when the run starts, as a file that the run itself
    makes is not there in the dry run, and a run over all providers of a tree has to keep clear of
    it.  Whether the files are formatted in the end makes no difference. -/
theorem run_dry (catalog : Catalog) (selector : Selector) (mode : Mode) (o : Options)
    (tree : FileTree) (disk : String → Disk) (formatter : Formatter)
    (hread : ∀ id p fault, (disk id).refusesReading p = some fault → IsFile tree p)
    (hclear : selector = .all → IsClearOf catalog o tree) :
    (run catalog selector mode o.dry tree disk formatter).1 = tree ∧
      Predicts selector (run catalog selector mode o.dry tree disk formatter).2
        (run catalog selector mode o.inEarnest tree disk formatter).2 := by
  rw [run_of_dryRun (show o.dry.dryRun = true from rfl), run_snd]
  cases selector with
  | one id =>
      have hrendered : rendered tree catalog mode o id = rendered tree catalog mode o id := rfl
      obtain ⟨htree, hforesees⟩ := foresees_generate (hread id) (Written.refl _ tree) hrendered
      rw [produce_one, produce_one]
      exact ⟨htree, predicts_own hforesees⟩
  | all =>
      cases hprovided : catalog.providerIds tree with
      | error error =>
          rw [produce, produce, selected, hprovided]
          exact ⟨rfl, .error _ error⟩
      | ok provided =>
          obtain ⟨ids, hselected, hsub⟩ := selected_of_providerIds mode hprovided
          obtain ⟨htree, hforetells, hdry, hreal⟩ := foretells_visit hread (hclear rfl) hprovided
            hsub.subset (Written.refl _ tree) (fun _ _ => rfl) Foretells.empty .empty .empty
          rw [produce_all_of_selected hselected, produce_all_of_selected hselected]
          exact ⟨htree, .summaries _ hforetells (hforetells.models hdry hreal)⟩

/-- A catalog of two providers, the second without models, and a file of the first one's module. -/
def besideModule : FileTree :=
  ⟨[(["cat"], .directory), (["cat", "providers"], .directory),
    (["cat", "providers", "a"], .directory), (["cat", "providers", "a", "models"], .directory),
    (["cat", "providers", "a", "models", "m.json"], .file "{}".toUTF8),
    (["cat", "providers", "b"], .directory),
    (["out"], .directory), (["out", "src"], .directory), (["out", "src", "providers"], .directory),
    (["out", "src", "providers", "a"], .directory),
    (["out", "src", "providers", "a", "capabilities.rs"], .file "old".toUTF8)], by decide⟩

theorem providerIds_besideModule :
    (Catalog.tree ⟨"cat"⟩).providerIds besideModule = .ok ["a", "b"] := by
  have hwalk : besideModule.walk ["cat", "providers"] = ([(["a"], .directory),
      (["a", "models"], .directory), (["a", "models", "m.json"], .file "{}".toUTF8),
      (["b"], .directory)] : List (Location × Node)) :=
    List.mergeSort_of_pairwise (by decide +kernel)
  have hnames : besideModule.directoryNames ⟨"cat/providers"⟩ = .ok (["a", "b"] : List RawText) :=
    directoryNames_of_walk rfl rfl hwalk
  exact providerIds_of_directoryNames (by decide) hnames (by decide +kernel)

/-- A disk that refuses to read the file of the first provider's module, by the path that leads up. -/
def refusingModule : String → Disk := fun _ =>
  { refusesReading := fun p =>
      if p = ⟨"cat/providers/../../out/src/providers/a/capabilities.rs"⟩ then
        some (.refused "Permission denied (os error 13)")
      else none }

/-- A dry run into a path that leads up through the directory of all providers. -/
theorem run_dry_besideModule :
    let o : Options := { outputRoot := ⟨"cat/providers/../../out"⟩ }
    let catalog : Catalog := .tree ⟨"cat"⟩
    (∀ id p fault, (refusingModule id).refusesReading p = some fault → IsFile besideModule p) ∧
      IsClearOf catalog o besideModule ∧
      (run catalog .all .capabilities o.dry besideModule refusingModule).1 = besideModule ∧
      Predicts .all (run catalog .all .capabilities o.dry besideModule refusingModule).2
        (run catalog .all .capabilities o.inEarnest besideModule refusingModule).2 := by
  intro o catalog
  have hread : ∀ id p fault, (refusingModule id).refusesReading p = some fault →
      IsFile besideModule p := by
    intro id p fault hrefuses
    rw [refusingModule] at hrefuses
    dsimp only at hrefuses
    split at hrefuses
    · next hp => exact hp ▸ ⟨"old".toUTF8, by decide +kernel⟩
    · cases hrefuses
  have hout : location o.providersPath = (["out", "src", "providers"] : Location) := by decide
  have hcat : location (sourcePath ⟨"cat"⟩ o.folder) = (["cat", "providers"] : Location) := by decide
  have hway : visited (start o.providersPath) o.providersPath.pieces = ([[], ["cat"],
      ["cat", "providers"], ["cat"], [], ["out"], ["out", "src"], ["out", "src", "providers"]]
        : List Location) := by
    decide
  have hclear : IsClearOf catalog o besideModule := by
    refine ⟨by rw [hout, hcat]; decide, ?_, by rw [hway, hcat]; decide⟩
    rintro ⟨way, heq, -⟩
    rw [hout, hcat] at heq
    exact absurd (List.cons.inj heq).1 (by decide)
  exact ⟨hread, hclear, run_dry catalog .all .capabilities o besideModule refusingModule .missing hread
    fun _ => hclear⟩

/-- The settings of a run into a path through metadata that is missing in the catalog. -/
def throughMetadata : Options :=
  { outputRoot := ⟨"cat/providers/b/provider.toml/../../../../out"⟩ }

/-- After the turn of the first provider, a directory is in the place of the second one's metadata. -/
theorem unreadable_throughMetadata :
    rendered (generate (.tree ⟨"cat"⟩) .capabilities throughMetadata.inEarnest "a" besideModule).1
        (.tree ⟨"cat"⟩) .capabilities throughMetadata.inEarnest "b" = .error
      (.notRead (((Tree.providersPath ⟨"cat"⟩).child "b").child "provider.toml") .isDirectory) := by
  have hmade : (generate (.tree ⟨"cat"⟩) .capabilities throughMetadata.inEarnest "a"
      besideModule).1.node? ["cat", "providers", "b", "provider.toml"] = some .directory := by
    decide +kernel
  have hplace : location (((Tree.providersPath ⟨"cat"⟩).child "b").child "provider.toml")
      = (["cat", "providers", "b", "provider.toml"] : Location) := by decide
  have hlocate : besideModule.locate (((Tree.providersPath ⟨"cat"⟩).child "b").child "provider.toml")
      = .ok (location (((Tree.providersPath ⟨"cat"⟩).child "b").child "provider.toml")) := by rfl
  have hkeeps := (written_generate rfl (.tree ⟨"cat"⟩) .capabilities "a" besideModule {}
    : Written throughMetadata.inEarnest.providersPath besideModule _).keepsDirectories
  exact rendered_of_directory rfl (by rfl) (isDirectory_of_keeps hkeeps (by decide +kernel))
    (isDirectory_eq_true.2 ⟨locate_of_keeps hkeeps hlocate, by rw [hplace, hmade]⟩)

/-- **It is not enough that the directories lie apart.**  A path through the metadata that the second
    provider does not have makes a directory in its place.  The dry run skips that provider, as it has
    no models, but in earnest its metadata cannot be read. -/
theorem skipped_not_foretold :
    ¬ ∀ (root : Path) (mode : Mode) (o : Options) (tree : FileTree) (dry real : Summary),
      ¬ location root <+: location o.outputRoot → ¬ location o.outputRoot <+: location root →
      o.providersDirectory = defaultProvidersPath →
      (run (.tree root) .all mode o.dry tree).2 = .ok dry →
      (run (.tree root) .all mode o.inEarnest tree).2 = .ok real →
      dry.skipped.map (·.1) = real.skipped.map (·.1) := by
  intro hforetold
  have hselected : selected besideModule (.tree ⟨"cat"⟩) .capabilities = .ok ["a", "b"] := by
    rw [selected, providerIds_besideModule]
    rfl
  have hnothing : rendered besideModule (.tree ⟨"cat"⟩) .capabilities throughMetadata.dry "b"
      = .error (.noActiveModels "b") := by rfl
  have htree : (generate (.tree ⟨"cat"⟩) .capabilities throughMetadata.dry "a" besideModule).1
      = besideModule :=
    (foresees_generate (fun _ _ h => by cases h) (Written.refl _ _) rfl).1
  have hdry : (run (.tree ⟨"cat"⟩) .all .capabilities throughMetadata.dry besideModule).2 = .ok
      (record (record {} "a"
          (generate (.tree ⟨"cat"⟩) .capabilities throughMetadata.dry "a" besideModule).2) "b"
        (.error (.noActiveModels "b"))) := by
    rw [run_snd, produce_all_of_selected hselected]
    dsimp only
    rw [visit_cons, visit_cons, htree, generate_of_error hnothing, visit]
  have hreal : (run (.tree ⟨"cat"⟩) .all .capabilities throughMetadata.inEarnest besideModule).2 = .ok
      (record (record {} "a"
          (generate (.tree ⟨"cat"⟩) .capabilities throughMetadata.inEarnest "a" besideModule).2) "b"
        (.error (.notRead (((Tree.providersPath ⟨"cat"⟩).child "b").child "provider.toml")
          .isDirectory))) := by
    rw [run_snd, produce_all_of_selected hselected]
    dsimp only
    rw [visit_cons, visit_cons, generate_of_error unreadable_throughMetadata, visit]
  have hskips : ∀ s, (record s "b" (.error (.noActiveModels "b"))).skipped
      = s.skipped ++ [("b", .noActiveModels "b")] := fun _ => rfl
  have hfails : ∀ s path, (record s "b" (.error (.notRead path .isDirectory))).skipped = s.skipped :=
    fun _ _ => rfl
  have hsame := hforetold _ _ _ _ _ _ (by decide) (by decide) rfl hdry hreal
  rw [hskips, hfails, List.map_append, List.map_singleton] at hsame
  have hskipped := hsame ▸ List.mem_append_right _ (List.mem_singleton_self "b")
  -- but the first provider is not the second one, whatever comes of it
  have hlisted := (names_record {} fun g => outcome_of_generate).subset
    (List.mem_append_left _ (List.mem_append_right _ hskipped))
  exact absurd hlisted (by decide)

end Generation

end ModelCatalog
