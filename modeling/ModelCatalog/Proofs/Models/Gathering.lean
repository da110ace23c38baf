import Mathlib.Data.List.Induction
import Mathlib.Data.List.Nodup
import ModelCatalog.Models
import ModelCatalog.Results

/-! # Gathering models

    The verdicts on the records of a provider are taken over one by one, and what was gathered from
    those so far is always the same function of them: their models in the order of the type names,
    and their reports in the order of the records (`Gathered`).  `Gathered.add` is the step,
    `foldlM_add_spec` the run.  `gather_spec` says when gathering ends how: with the models, with
    nothing to return, with a fatal verdict, or with two models of one type name.  What comes first
    among the verdicts ends it (`gather_of_fatal`, `gather_of_firstClash`), and without fatal ones the
    models alone decide (`accounts_gather`). -/

namespace ModelCatalog

-- ── Verdicts ──

def Verdict.model? : Verdict → Option Model
  | .active model => some model
  | _ => none

def Verdict.skipped? : Verdict → Option Skipped
  | .skipped s => some s
  | _ => none

def modelsOf (verdicts : List Verdict) : List Model := verdicts.filterMap Verdict.model?

def skippedOf (verdicts : List Verdict) : List Skipped := verdicts.filterMap Verdict.skipped?

theorem modelsOf_append (verdicts : List Verdict) (v : Verdict) :
    modelsOf (verdicts ++ [v]) = modelsOf verdicts ++ v.model?.toList := by
  rw [modelsOf, List.filterMap_append, List.filterMap_cons]
  cases v.model? <;> rfl

theorem skippedOf_append (verdicts : List Verdict) (v : Verdict) :
    skippedOf (verdicts ++ [v]) = skippedOf verdicts ++ v.skipped?.toList := by
  rw [skippedOf, List.filterMap_append, List.filterMap_cons]
  cases v.skipped? <;> rfl

theorem modelsOf_append_of_none (verdicts : List Verdict) {v : Verdict} (h : v.model? = none) :
    modelsOf (verdicts ++ [v]) = modelsOf verdicts := by
  rw [modelsOf_append, h]
  exact List.append_nil _

theorem skippedOf_append_of_none (verdicts : List Verdict) {v : Verdict} (h : v.skipped? = none) :
    skippedOf (verdicts ++ [v]) = skippedOf verdicts := by
  rw [skippedOf_append, h]
  exact List.append_nil _

theorem mem_modelsOf {verdicts : List Verdict} {model : Model} :
    model ∈ modelsOf verdicts ↔ .active model ∈ verdicts := by
  rw [modelsOf, List.mem_filterMap]
  constructor
  · rintro ⟨v, hv, hmodel⟩
    cases v with
    | active m =>
        obtain rfl : m = model := Option.some.inj hmodel
        exact hv
    | _ => exact nomatch hmodel
  · intro h
    exact ⟨_, h, rfl⟩

def HaveDistinctTypes (models : List Model) : Prop := (models.map (·.typeName)).Nodup

-- ── Indexes ──

namespace Index

variable {α : Type} {key : α → String}

/-- A value with a new key is added to those that are there. -/
theorem perm_place {a : α} {xs : List α} (h : ∀ b ∈ xs, key b ≠ key a) :
    (place key a xs).Perm (a :: xs) := by
  induction xs with
  | nil => exact .refl _
  | cons b rest ih =>
      have hb : key b ≠ key a := h b List.mem_cons_self
      rw [place]
      split
      · exact .refl _
      · rw [if_neg fun heq => hb heq.symm]
        exact ((ih fun c hc => h c (List.mem_cons_of_mem _ hc)).cons b).trans (.swap a b rest)

theorem nodup_keys (index : Index key) : (index.toList.map key).Nodup := by
  refine List.pairwise_map.2 (index.sorted.imp fun {a b} hlt heq => ?_)
  rw [heq] at hlt
  exact String.lt_irrefl _ hlt

/-- Among values with distinct keys, the first one with a key is the one that has it. -/
theorem find?_eq_some_of_nodup {xs : List α} (h : (xs.map key).Nodup) {k : String} {a : α} :
    xs.find? (key · == k) = some a ↔ a ∈ xs ∧ key a = k := by
  constructor
  · intro hfind
    exact ⟨List.mem_of_find?_eq_some hfind, by simpa using List.find?_some hfind⟩
  · rintro ⟨hmem, rfl⟩
    cases hfind : xs.find? (key · == key a) with
    | none => exact absurd (beq_self_eq_true (key a)) (List.find?_eq_none.1 hfind a hmem)
    | some b =>
        have hsame : key b = key a := by simpa using List.find?_some hfind
        rw [List.inj_on_of_nodup_map h (List.mem_of_find?_eq_some hfind) hmem hsame]

/-- Under a key stands the value that has it. -/
theorem get?_eq_some {index : Index key} {k : String} {a : α} :
    index.get? k = some a ↔ a ∈ index.toList ∧ key a = k :=
  find?_eq_some_of_nodup index.nodup_keys

/-- An index is made of its values, in whatever order they come. -/
theorem eq_of_perm {index other : Index key} (h : index.toList.Perm other.toList) :
    index = other := by
  have hlist : index.toList = other.toList := by
    refine h.eq_of_pairwise (fun a b _ _ hab hba => ?_) index.sorted other.sorted
    exact absurd (String.lt_trans hab hba) (String.lt_irrefl _)
  cases index
  cases other
  cases hlist
  rfl

end Index

-- ── What was gathered ──

/-- What was gathered from some verdicts. -/
structure Gathered (providerId : String) (info : ProviderInfo) (verdicts : List Verdict)
    (p : ProviderModels) : Prop where
  providerId : p.providerId = providerId
  info : p.info = info
  models : p.models.toList.Perm (modelsOf verdicts)
  skipped : p.skipped = skippedOf verdicts

namespace Gathered

variable {providerId : String} {info : ProviderInfo} {verdicts : List Verdict}
  {p q : ProviderModels}

theorem haveDistinctTypes (h : Gathered providerId info verdicts p) :
    HaveDistinctTypes (modelsOf verdicts) :=
  (h.models.map _).nodup p.models.nodup_keys

theorem isEmpty_iff (h : Gathered providerId info verdicts p) :
    p.models.isEmpty = true ↔ modelsOf verdicts = [] := by
  rw [Index.isEmpty, List.isEmpty_iff]
  constructor
  · intro hnil
    exact List.nil_perm.1 (hnil ▸ h.models)
  · intro hnil
    exact List.perm_nil.1 (hnil ▸ h.models)

/-- One more model is added, or its type name is taken. -/
theorem insert_spec (h : Gathered providerId info verdicts p) (model : Model) :
    (∃ q, p.insert model = .ok q ∧ Gathered providerId info (verdicts ++ [.active model]) q) ∨
    ∃ first second typeName, p.insert model = .error (.collision providerId first second typeName) ∧
      ¬ HaveDistinctTypes (modelsOf (verdicts ++ [.active model])) := by
  have hmodels : modelsOf (verdicts ++ [.active model]) = modelsOf verdicts ++ [model] :=
    modelsOf_append verdicts (.active model)
  rw [ProviderModels.insert, hmodels]
  cases hget : p.models.get? model.typeName with
  | some first =>
      refine Or.inr ⟨first.id, model.id, model.typeName, by rw [h.providerId], fun hdistinct => ?_⟩
      have hmem : first ∈ modelsOf verdicts := h.models.subset (List.mem_of_find?_eq_some hget)
      rw [HaveDistinctTypes, List.map_append, List.nodup_append] at hdistinct
      exact hdistinct.2.2 _ (List.mem_map_of_mem hmem) _ (by simp) (Index.key_of_get? hget)
  | none =>
      have hnew : ∀ m ∈ p.models.toList, m.typeName ≠ model.typeName := by
        intro m hm
        simpa using List.find?_eq_none.1 hget m hm
      refine Or.inl ⟨_, rfl, h.providerId, h.info, ?_, ?_⟩
      · rw [hmodels]
        exact (Index.perm_place hnew).trans
          ((h.models.cons model).trans (List.perm_append_singleton model _).symm)
      · rw [skippedOf_append_of_none verdicts rfl]
        exact h.skipped

/-- **The step**: one more verdict is taken over, or it is fatal, or its type name is taken. -/
theorem add_spec (h : Gathered providerId info verdicts p) (v : Verdict) :
    (∃ q, p.add v = .ok q ∧ Gathered providerId info (verdicts ++ [v]) q) ∨
    (∃ error, p.add v = .error error ∧ v = .fatal error) ∨
    ∃ first second typeName, p.add v = .error (.collision providerId first second typeName) ∧
      ¬ HaveDistinctTypes (modelsOf (verdicts ++ [v])) := by
  cases v with
  | fatal error => exact Or.inr (Or.inl ⟨error, rfl, rfl⟩)
  | skipped s =>
      refine Or.inl ⟨_, rfl, h.providerId, h.info, ?_, ?_⟩
      · rw [modelsOf_append_of_none verdicts rfl]
        exact h.models
      · rw [skippedOf_append, ← h.skipped]
        rfl
  | deprecated =>
      refine Or.inl ⟨p, rfl, h.providerId, h.info, ?_, ?_⟩
      · rw [modelsOf_append_of_none verdicts rfl]
        exact h.models
      · rw [skippedOf_append_of_none verdicts rfl]
        exact h.skipped
  | active model =>
      rcases h.insert_spec model with hok | hcollision
      · exact Or.inl hok
      · exact Or.inr (Or.inr hcollision)

end Gathered

/-- **The run**: all verdicts are taken over, or one of them is fatal, or two have one type name. -/
theorem foldlM_add_spec {providerId : String} {info : ProviderInfo} :
    ∀ (rest verdicts : List Verdict) (p : ProviderModels), Gathered providerId info verdicts p →
      (∃ q, rest.foldlM ProviderModels.add p = .ok q ∧
        Gathered providerId info (verdicts ++ rest) q) ∨
      (∃ error, rest.foldlM ProviderModels.add p = .error error ∧ .fatal error ∈ rest) ∨
      ∃ first second typeName,
        rest.foldlM ProviderModels.add p = .error (.collision providerId first second typeName) ∧
          ¬ HaveDistinctTypes (modelsOf (verdicts ++ rest)) := by
  intro rest
  induction rest with
  | nil =>
      intro verdicts p h
      rw [List.append_nil]
      exact Or.inl ⟨p, rfl, h⟩
  | cons v rest ih =>
      intro verdicts p h
      rw [List.foldlM_cons]
      rcases h.add_spec v with ⟨q, hadd, hq⟩ | ⟨error, hadd, hv⟩ | ⟨first, second, t, hadd, hsame⟩
      · rw [hadd]
        have hrun := ih (verdicts ++ [v]) q hq
        rw [List.append_assoc] at hrun
        rcases hrun with hok | ⟨error, hrun, hfatal⟩ | hcollision
        · exact Or.inl hok
        · exact Or.inr (Or.inl ⟨error, hrun, List.mem_cons_of_mem _ hfatal⟩)
        · exact Or.inr (Or.inr hcollision)
      · rw [hadd]
        exact Or.inr (Or.inl ⟨error, rfl, hv ▸ List.mem_cons_self⟩)
      · rw [hadd]
        refine Or.inr (Or.inr ⟨first, second, t, rfl, fun hdistinct => hsame ?_⟩)
        have hsublist : (verdicts ++ [v]).Sublist (verdicts ++ v :: rest) :=
          List.Sublist.append_left (List.singleton_sublist.2 List.mem_cons_self) verdicts
        exact ((hsublist.filterMap _).map _).nodup hdistinct

/-- **How gathering ends**, for any verdicts. -/
theorem gather_spec (providerId : String) (info : ProviderInfo) (verdicts : List Verdict) :
    (∃ p, ProviderModels.gather providerId info verdicts = .ok p ∧
      Gathered providerId info verdicts p ∧ modelsOf verdicts ≠ []) ∨
    (ProviderModels.gather providerId info verdicts = .error (.noActiveModels providerId) ∧
      modelsOf verdicts = []) ∨
    (∃ error, ProviderModels.gather providerId info verdicts = .error error ∧
      .fatal error ∈ verdicts) ∨
    ∃ first second typeName, ProviderModels.gather providerId info verdicts
        = .error (.collision providerId first second typeName) ∧
      ¬ HaveDistinctTypes (modelsOf verdicts) := by
  have hstart : Gathered providerId info [] { providerId, info } := ⟨rfl, rfl, .refl _, rfl⟩
  rw [ProviderModels.gather]
  rcases foldlM_add_spec verdicts [] _ hstart with
    ⟨p, hrun, hp⟩ | ⟨error, hrun, hfatal⟩ | ⟨first, second, t, hrun, hsame⟩
  · rw [hrun, ok_bind]
    rw [List.nil_append] at hp
    dsimp only
    by_cases hempty : p.models.isEmpty = true
    · rw [if_pos hempty]
      exact Or.inr (Or.inl ⟨rfl, hp.isEmpty_iff.1 hempty⟩)
    · rw [if_neg hempty]
      exact Or.inl ⟨p, rfl, hp, fun hnil => hempty (hp.isEmpty_iff.2 hnil)⟩
  · rw [hrun]
    exact Or.inr (Or.inr (Or.inl ⟨error, rfl, hfatal⟩))
  · rw [hrun]
    exact Or.inr (Or.inr (Or.inr ⟨first, second, t, rfl, hsame⟩))

-- ── What ends it first ──

/-- The first model whose type name is taken, and the one that has taken it. -/
def IsFirstClash (models : List Model) (first second : Model) : Prop :=
  ∃ before after, models = before ++ second :: after ∧ HaveDistinctTypes before ∧
    first ∈ before ∧ first.typeName = second.typeName

theorem exists_firstClash_iff {models : List Model} :
    (∃ first second, IsFirstClash models first second) ↔ ¬ HaveDistinctTypes models := by
  constructor
  · rintro ⟨first, second, before, after, rfl, -, hfirst, hsame⟩ hdistinct
    rw [HaveDistinctTypes, List.map_append, List.map_cons, List.nodup_append] at hdistinct
    exact hdistinct.2.2 _ (List.mem_map_of_mem hfirst) _ List.mem_cons_self hsame
  · intro h
    induction models using List.reverseRecOn with
    | nil => exact absurd List.nodup_nil h
    | append_singleton models model ih =>
        by_cases hdistinct : HaveDistinctTypes models
        · have htaken : ∃ first ∈ models, first.typeName = model.typeName := by
            rw [HaveDistinctTypes, List.map_append, List.nodup_append] at h
            by_contra hnew
            refine h ⟨hdistinct, by simp, fun a ha b hb heq => hnew ?_⟩
            obtain ⟨first, hfirst, rfl⟩ := List.mem_map.1 ha
            exact ⟨first, hfirst, heq.trans (List.mem_singleton.1 hb)⟩
          obtain ⟨first, hfirst, hsame⟩ := htaken
          exact ⟨first, model, models, [], rfl, hdistinct, hfirst, hsame⟩
        · obtain ⟨first, second, before, after, hmodels, hclash⟩ := ih hdistinct
          refine ⟨first, second, before, after ++ [model], ?_, hclash⟩
          rw [hmodels, List.append_assoc, List.cons_append]

section Ending

variable {providerId : String} {info : ProviderInfo} {before after : List Verdict}

/-- Without fatal verdicts and with distinct types, all verdicts are taken over. -/
theorem exists_gathered (providerId : String) (info : ProviderInfo)
    (hfatal : ∀ error, .fatal error ∉ before)
    (hdistinct : HaveDistinctTypes (modelsOf before)) :
    ∃ p, before.foldlM ProviderModels.add { providerId, info } = .ok p ∧
      Gathered providerId info before p := by
  have hstart : Gathered providerId info [] { providerId, info } := ⟨rfl, rfl, .refl _, rfl⟩
  rcases foldlM_add_spec before [] _ hstart with
    ⟨p, hrun, hp⟩ | ⟨error, -, hmem⟩ | ⟨first, second, t, -, hsame⟩
  · exact ⟨p, hrun, hp⟩
  · exact absurd hmem (hfatal error)
  · exact absurd hdistinct hsame

/-- The first verdict that is not taken over ends gathering. -/
theorem gather_of_stop {p : ProviderModels} {v : Verdict} {error : Error}
    (hbefore : before.foldlM ProviderModels.add { providerId, info } = .ok p)
    (hstop : p.add v = .error error) :
    ProviderModels.gather providerId info (before ++ v :: after) = .error error := by
  rw [ProviderModels.gather, List.foldlM_append, hbefore, ok_bind, List.foldlM_cons, hstop]
  rfl

/-- A fatal verdict ends gathering, if the models before it have distinct types. -/
theorem gather_of_fatal {error : Error} (hfatal : ∀ error, .fatal error ∉ before)
    (hdistinct : HaveDistinctTypes (modelsOf before)) :
    ProviderModels.gather providerId info (before ++ .fatal error :: after) = .error error := by
  obtain ⟨p, hrun, -⟩ := exists_gathered providerId info hfatal hdistinct
  exact gather_of_stop hrun rfl

/-- **The first clash ends gathering**, and the error names both models, if nothing fatal comes
    before the second of them. -/
theorem gather_of_firstClash {first second : Model} (hfatal : ∀ error, .fatal error ∉ before)
    (hclash : IsFirstClash (modelsOf before) first second) :
    ProviderModels.gather providerId info (before ++ after)
      = .error (.collision providerId first.id second.id second.typeName) := by
  obtain ⟨models, others, hmodels, hdistinct, hfirst, hsame⟩ := hclash
  obtain ⟨verdicts, rest, hsplit, hfront, hback⟩ := List.filterMap_eq_append_iff.1 hmodels
  obtain ⟨none, v, back, hrest, hnone, hv, -⟩ := List.filterMap_eq_cons_iff.1 hback
  -- up to the second model there are the verdicts on the models before it, and on no model
  have hmodels' : modelsOf (verdicts ++ none) = models := by
    rw [modelsOf, List.filterMap_append, List.filterMap_eq_nil_iff.2 hnone, List.append_nil]
    exact hfront
  have hbefore : before = (verdicts ++ none) ++ v :: back := by
    rw [hsplit, hrest, List.append_assoc]
  have hfatal' : ∀ error, .fatal error ∉ verdicts ++ none := fun error hmem =>
    hfatal error (hbefore ▸ List.mem_append_left _ hmem)
  obtain ⟨p, hrun, hp⟩ := exists_gathered providerId info hfatal' (hmodels' ▸ hdistinct)
  obtain rfl : v = .active second := by
    cases v with
    | active model => rw [Option.some.inj hv]
    | _ => exact nomatch hv
  have htaken : p.models.get? second.typeName = some first :=
    Index.get?_eq_some.2 ⟨hp.models.symm.subset (hmodels' ▸ hfirst), hsame⟩
  have hstop : p.add (.active second)
      = .error (.collision providerId first.id second.id second.typeName) := by
    rw [ProviderModels.add, ProviderModels.insert, htaken, hp.providerId]
  rw [hbefore, List.append_assoc, List.cons_append]
  exact gather_of_stop hrun hstop

end Ending

-- ── Without fatal verdicts ──

/-- What a result tells of the models and the reports that it was made of. -/
structure Accounts (providerId : String) (info : ProviderInfo) (models : List Model)
    (reports : List Skipped) (result : Except Error ProviderModels) : Prop where
  collision : (∃ first second typeName,
    result = .error (.collision providerId first second typeName)) ↔ ¬ HaveDistinctTypes models
  clash : ∀ first second, IsFirstClash models first second →
    result = .error (.collision providerId first.id second.id second.typeName)
  nothing : result = .error (.noActiveModels providerId) ↔ models = []
  loaded : HaveDistinctTypes models → models ≠ [] → ∃ p, result = .ok p ∧
    p.providerId = providerId ∧ p.info = info ∧ p.models.toList.Perm models ∧ p.skipped = reports

/-- **Without fatal verdicts the models decide how gathering ends.** -/
theorem accounts_gather {providerId : String} {info : ProviderInfo} {verdicts : List Verdict}
    (hfatal : ∀ error, .fatal error ∉ verdicts) :
    Accounts providerId info (modelsOf verdicts) (skippedOf verdicts)
      (ProviderModels.gather providerId info verdicts) := by
  have hclash : ∀ first second, IsFirstClash (modelsOf verdicts) first second →
      ProviderModels.gather providerId info verdicts
        = .error (.collision providerId first.id second.id second.typeName) := by
    intro first second h
    have hrun : ProviderModels.gather providerId info (verdicts ++ [])
        = .error (.collision providerId first.id second.id second.typeName) :=
      gather_of_firstClash hfatal h
    rwa [List.append_nil] at hrun
  rcases gather_spec providerId info verdicts with
    ⟨p, hp, hgathered, hsome⟩ | ⟨hp, hnone⟩ | ⟨error, -, hmem⟩ | ⟨first, second, t, hp, hsame⟩
  · refine ⟨?_, hclash, ?_, fun _ _ => ⟨p, hp, hgathered.providerId, hgathered.info,
      hgathered.models, hgathered.skipped⟩⟩
    · rw [hp]
      exact iff_of_false (fun ⟨_, _, _, h⟩ => (nomatch h)) (not_not.2 hgathered.haveDistinctTypes)
    · rw [hp]
      exact iff_of_false (fun h => (nomatch h)) hsome
  · have hdistinct : HaveDistinctTypes (modelsOf verdicts) := by
      rw [hnone]
      exact List.nodup_nil
    refine ⟨?_, hclash, ?_, fun _ hsome => absurd hnone hsome⟩
    · rw [hp]
      refine iff_of_false (fun ⟨_, _, _, h⟩ => ?_) (not_not.2 hdistinct)
      exact nomatch Except.error.inj h
    · exact iff_of_true hp hnone
  · exact absurd hmem (hfatal error)
  · refine ⟨iff_of_true ⟨first, second, t, hp⟩ hsame, hclash, ?_, fun h _ => absurd h hsame⟩
    rw [hp]
    refine iff_of_false (fun h => nomatch Except.error.inj h) fun hnone => hsame ?_
    rw [hnone]
    exact List.nodup_nil

end ModelCatalog
