import ModelCatalog.Proofs.Models.Gathering
import ModelCatalog.Proofs.Text.ByteOrder

/-! # Models one after the other

    Models are offered to the models of a provider one after the other; each is stored, or it is
    refused because its type name is taken, and then nothing changes (`becomes_attempt`).  So under a
    type name stands the first model that was offered with it (`get?_offer`), and there are as many
    models as were not refused (`size_offer`).  The headline is `collects_offer`: it has all this of
    the models of a new provider, and that the order of models does not matter if none is refused. -/

namespace ModelCatalog

namespace Index

variable {α : Type} {key : α → String}

/-- An index is known by what is found in it. -/
theorem ext_get? {index other : Index key} (h : ∀ k, index.get? k = other.get? k) :
    index = other := by
  refine eq_of_perm ((List.perm_ext_iff_of_nodup (index.nodup_keys.of_map _)
    (other.nodup_keys.of_map _)).2 fun a => ?_)
  have hmem : ∀ i : Index key, a ∈ i.toList ↔ i.get? (key a) = some a := fun i =>
    get?_eq_some.trans (and_iff_left rfl) |>.symm
  rw [hmem, hmem, h]

/-- A value with a new key makes an index longer. -/
theorem size_insert {index : Index key} {a : α} (h : index.get? (key a) = none) :
    (index.insert a).size = index.size + 1 := by
  have hnew : ∀ b ∈ index.toList, key b ≠ key a := by
    intro b hb
    simpa using List.find?_eq_none.1 h b hb
  exact (perm_place hnew).length_eq

/-- The first value with a key does not depend on the order of values with distinct keys. -/
theorem find?_of_perm {xs ys : List α} (hdistinct : (xs.map key).Nodup) (h : ys.Perm xs)
    (k : String) : ys.find? (key · == k) = xs.find? (key · == k) := by
  have hdistinct' : (ys.map key).Nodup := (h.map key).nodup_iff.2 hdistinct
  refine Option.ext fun a => ?_
  rw [find?_eq_some_of_nodup hdistinct', find?_eq_some_of_nodup hdistinct, h.mem_iff]

end Index

namespace ProviderModels

-- ── Offering models ──

/-- What is held after a model was offered, and the answer to it. -/
def attempt (p : ProviderModels) (model : Model) : ProviderModels × Except Error Unit :=
  match p.insert model with
  | .ok after => (after, .ok ())
  | .error error => (p, .error error)

/-- What is held after models were offered one after the other, and the answers to them. -/
def offer (p : ProviderModels) : List Model → ProviderModels × List (Except Error Unit)
  | [] => (p, [])
  | model :: rest =>
    let (between, answer) := p.attempt model
    let (after, answers) := between.offer rest
    (after, answer :: answers)

/-- What becomes of a model that is offered. -/
inductive Becomes (p : ProviderModels) (model : Model) :
    ProviderModels × Except Error Unit → Prop
  | stored (free : p.models.get? model.typeName = none) :
      Becomes p model ({ p with models := p.models.insert model }, .ok ())
  | refused {first : Model} (taken : p.models.get? model.typeName = some first) :
      Becomes p model (p, .error (.collision p.providerId first.id model.id model.typeName))

variable {p : ProviderModels} {model : Model} {models : List Model}

theorem becomes_attempt (p : ProviderModels) (model : Model) :
    p.Becomes model (p.attempt model) := by
  rw [attempt, insert]
  cases hget : p.models.get? model.typeName with
  | none => exact .stored hget
  | some first => exact .refused hget

theorem offer_cons (p : ProviderModels) (model : Model) (rest : List Model) :
    p.offer (model :: rest) = (((p.attempt model).1.offer rest).1,
      (p.attempt model).2 :: ((p.attempt model).1.offer rest).2) := rfl

theorem offer_append (p : ProviderModels) (before rest : List Model) :
    p.offer (before ++ rest) = (((p.offer before).1.offer rest).1,
      (p.offer before).2 ++ ((p.offer before).1.offer rest).2) := by
  induction before generalizing p with
  | nil => rfl
  | cons model before ih => rw [List.cons_append, offer_cons, offer_cons, ih, List.cons_append]

theorem length_offer (p : ProviderModels) (models : List Model) :
    (p.offer models).2.length = models.length := by
  induction models generalizing p with
  | nil => rfl
  | cons model rest ih => rw [offer_cons, List.length_cons, List.length_cons, ih]

-- ── What is held ──

/-- Nothing but the models changes. -/
theorem offer_frame (p : ProviderModels) (models : List Model) :
    (p.offer models).1 = { p with models := (p.offer models).1.models } := by
  induction models generalizing p with
  | nil => rfl
  | cons model rest ih =>
      have h := becomes_attempt p model
      rw [offer_cons, ih]
      generalize p.attempt model = result at h
      cases h <;> rfl

/-- Under a type name stands what stood there before, or else the model that was offered. -/
theorem get?_attempt (p : ProviderModels) (model : Model) (typeName : String) :
    (p.attempt model).1.models.get? typeName =
      (p.models.get? typeName).or (if model.typeName = typeName then some model else none) := by
  have h := becomes_attempt p model
  generalize p.attempt model = result at h ⊢
  cases h with
  | stored free =>
      rw [Index.get?_insert]
      split
      · next hsame => rw [← hsame, free, Option.none_or]
      · rw [Option.or_none]
  | refused taken =>
      split
      · next hsame => rw [← hsame, taken, Option.some_or]
      · rw [Option.or_none]

/-- **The first one stays**: under a type name stands what stood there before, or else the first
    model that was offered with it. -/
theorem get?_offer (p : ProviderModels) (models : List Model) (typeName : String) :
    (p.offer models).1.models.get? typeName =
      (p.models.get? typeName).or (models.find? (·.typeName == typeName)) := by
  induction models generalizing p with
  | nil => rw [offer, List.find?_nil, Option.or_none]
  | cons model rest ih =>
      rw [offer_cons, ih, get?_attempt, Option.or_assoc, List.find?_cons]
      congr 1
      by_cases hsame : model.typeName = typeName
      · rw [if_pos hsame, Option.some_or, beq_iff_eq.2 hsame]
      · rw [if_neg hsame, Option.none_or, beq_eq_false_iff_ne.2 hsame]

theorem size_attempt (p : ProviderModels) (model : Model) :
    (p.attempt model).1.models.size =
      p.models.size + if (p.attempt model).2.isOk then 1 else 0 := by
  have h := becomes_attempt p model
  generalize p.attempt model = result at h ⊢
  cases h with
  | stored free => exact Index.size_insert free
  | refused taken => rfl

/-- **As many models as were not refused** are added. -/
theorem size_offer (p : ProviderModels) (models : List Model) :
    (p.offer models).1.models.size = p.models.size + (p.offer models).2.countP (·.isOk) := by
  induction models generalizing p with
  | nil => rfl
  | cons model rest ih =>
      rw [offer_cons, ih, size_attempt, List.countP_cons]
      omega

-- ── What is refused ──

/-- The answer to a model: it is refused exactly if its type name is taken, nothing changes then, and
    the error names the model that is held before the one that is refused. -/
structure IsAnswer (before : ProviderModels) (model : Model) (after : ProviderModels)
    (answer : Except Error Unit) : Prop where
  fails_iff : answer ≠ .ok () ↔ ∃ first ∈ before.models.toList, first.typeName = model.typeName
  failed : answer ≠ .ok () → after = before ∧
    ∃ first ∈ before.models.toList, first.typeName = model.typeName ∧
      answer = .error (.collision before.providerId first.id model.id model.typeName)
  stored : answer = .ok () → after.models.toList.Perm (model :: before.models.toList)

theorem taken_iff : (∃ first ∈ p.models.toList, first.typeName = model.typeName) ↔
    p.models.get? model.typeName ≠ none := by
  rw [Option.ne_none_iff_exists']
  exact exists_congr fun first => Index.get?_eq_some.symm

theorem isAnswer_attempt (p : ProviderModels) (model : Model) :
    p.IsAnswer model (p.attempt model).1 (p.attempt model).2 := by
  have h := becomes_attempt p model
  generalize p.attempt model = result at h ⊢
  cases h with
  | stored free =>
      refine ⟨?_, fun hfails => absurd rfl hfails, fun _ => Index.perm_place fun first hfirst => ?_⟩
      · rw [taken_iff]
        exact iff_of_false (fun hfails => hfails rfl) fun htaken => htaken free
      · intro hsame
        exact taken_iff.1 ⟨first, hfirst, hsame⟩ free
  | @refused first taken =>
      obtain ⟨hfirst, hsame⟩ := Index.get?_eq_some.1 taken
      refine ⟨iff_of_true (by simp) ⟨first, hfirst, hsame⟩, fun _ => ?_, fun hok => by cases hok⟩
      exact ⟨rfl, first, hfirst, hsame, rfl⟩

theorem attempt_eq_ok_iff : (p.attempt model).2 = .ok () ↔ p.models.get? model.typeName = none := by
  have h := (isAnswer_attempt p model).fails_iff.trans taken_iff
  exact not_iff_not.1 h

/-- **Nothing is refused** exactly if the models have type names of their own. -/
theorem accepted_iff (p : ProviderModels) (models : List Model) :
    (∀ answer ∈ (p.offer models).2, answer = .ok ()) ↔
      HaveDistinctTypes models ∧ ∀ model ∈ models, p.models.get? model.typeName = none := by
  induction models generalizing p with
  | nil =>
      refine iff_of_true (fun answer h => ?_) ⟨List.nodup_nil, fun model h => ?_⟩
      · cases h
      · cases h
  | cons model rest ih =>
      have hnext : ∀ other : Model, (p.attempt model).1.models.get? other.typeName = none ↔
          p.models.get? other.typeName = none ∧ model.typeName ≠ other.typeName := by
        intro other
        rw [get?_attempt, Option.or_eq_none_iff]
        simp
      rw [offer_cons, List.forall_mem_cons, attempt_eq_ok_iff, ih, List.forall_mem_cons]
      constructor
      · rintro ⟨hfree, hdistinct, hrest⟩
        refine ⟨List.nodup_cons.2 ⟨fun hmem => ?_, hdistinct⟩, hfree,
          fun other hother => ((hnext other).1 (hrest other hother)).1⟩
        obtain ⟨other, hother, hsame⟩ := List.mem_map.1 hmem
        exact ((hnext other).1 (hrest other hother)).2 hsame.symm
      · rintro ⟨hdistinct, hfree, hrest⟩
        obtain ⟨hnew, hdistinct⟩ := List.nodup_cons.1 hdistinct
        refine ⟨hfree, hdistinct, fun other hother => (hnext other).2 ⟨hrest other hother, ?_⟩⟩
        intro hsame
        exact hnew (List.mem_map.2 ⟨other, hother, hsame.symm⟩)

-- ── A new provider ──

/-- What models come to that are offered one after the other. -/
structure Collects (start : ProviderModels) (models : List Model) : Prop where
  /-- Every model is found under its own type name. -/
  filed : ∀ model ∈ (start.offer models).1.models.toList,
    (start.offer models).1.models.get? model.typeName = some model
  /-- They come in the order of the bytes of their type names. -/
  increasing : (start.offer models).1.models.toList.Pairwise fun a b =>
    Text.bytes a.typeName < Text.bytes b.typeName
  size : (start.offer models).1.models.size = (start.offer models).2.countP (·.isOk)
  /-- Under a type name stands the first model that was offered with it. -/
  first : ∀ typeName, (start.offer models).1.models.get? typeName =
    models.find? (·.typeName == typeName)
  /-- Each model gets its answer in its turn. -/
  answers : ∀ before model rest, models = before ++ model :: rest →
    ∃ answer, (start.offer models).2[before.length]? = some answer ∧
      (start.offer before).1.IsAnswer model (start.offer (before ++ [model])).1 answer
  /-- Nothing but the models changes. -/
  frame : (start.offer models).1 = { start with models := (start.offer models).1.models }
  accepted : (∀ answer ∈ (start.offer models).2, answer = .ok ()) ↔ HaveDistinctTypes models
  order : HaveDistinctTypes models → ∀ other : List Model, other.Perm models →
    start.offer other = start.offer models

/-- Each model gets its answer in its turn. -/
theorem isAnswer_offer (start : ProviderModels) (before : List Model) (model : Model)
    (rest : List Model) :
    ∃ answer, (start.offer (before ++ model :: rest)).2[before.length]? = some answer ∧
      (start.offer before).1.IsAnswer model (start.offer (before ++ [model])).1 answer := by
  refine ⟨((start.offer before).1.attempt model).2, ?_, ?_⟩
  · rw [offer_append, List.getElem?_append_right (Nat.le_of_eq (length_offer start before)), length_offer,
      Nat.sub_self]
    rfl
  · rw [offer_append]
    exact isAnswer_attempt _ model

/-- Models with type names of their own come to the same in any order. -/
theorem offer_of_perm {start : ProviderModels} {models other : List Model}
    (hmodels : ∀ answer ∈ (start.offer models).2, answer = .ok ())
    (h : other.Perm models) : start.offer other = start.offer models := by
  obtain ⟨hdistinct, hfree⟩ := (accepted_iff start models).1 hmodels
  have hother : ∀ answer ∈ (start.offer other).2, answer = .ok () :=
    (accepted_iff start other).2 ⟨(h.map _).nodup_iff.2 hdistinct,
      fun model hmodel => hfree model (h.subset hmodel)⟩
  have hheld : (start.offer other).1.models = (start.offer models).1.models := by
    refine Index.ext_get? fun typeName => ?_
    rw [get?_offer, get?_offer, Index.find?_of_perm hdistinct h]
  have hanswers : (start.offer other).2 = (start.offer models).2 := by
    rw [List.eq_replicate_of_mem hother, List.eq_replicate_of_mem hmodels, length_offer,
      length_offer, h.length_eq]
  refine Prod.ext ?_ hanswers
  rw [offer_frame start other, offer_frame start models, hheld]

/-- **ONE MODEL A TYPE NAME.**  Whatever models are offered to a new provider: those that are stored
    are filed under their type names, in the order of these; a model is refused exactly if its type
    name is taken, and then nothing changes; and all are stored exactly if their type names are
    distinct, in whatever order they come. -/
theorem collects_offer (providerId : String) (info : ProviderInfo) (models : List Model) :
    Collects { providerId, info } models := by
  have hempty : ∀ typeName,
      ({ providerId, info } : ProviderModels).models.get? typeName = none := fun _ => rfl
  have haccepted : (∀ answer ∈ (offer { providerId, info } models).2, answer = .ok ()) ↔
      HaveDistinctTypes models :=
    (accepted_iff _ models).trans (and_iff_left fun model _ => hempty model.typeName)
  refine ⟨fun model hmodel => Index.get?_eq_some.2 ⟨hmodel, rfl⟩, ?_, ?_, fun typeName => ?_, ?_,
    offer_frame _ models, haccepted, fun hdistinct other hperm => ?_⟩
  · exact (offer _ models).1.models.sorted.imp Text.lt_iff_bytes_lt.1
  · rw [size_offer]
    exact Nat.zero_add _
  · rw [get?_offer, hempty, Option.none_or]
  · rintro before model rest rfl
    exact isAnswer_offer _ before model rest
  · exact offer_of_perm (haccepted.2 hdistinct) hperm

end ProviderModels

end ModelCatalog
