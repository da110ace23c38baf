import ModelCatalog.Proofs.Models.Constructors
import ModelCatalog.Proofs.Models.Loaders

/-! # One entry of a document

    Two documents can differ in a single entry: in what stands under one key of one provider
    (`Document.DifferAt`).  Whatever is wrong with the entry then stays with it, as
    `load_of_differAt` says: the other providers are loaded alike, and this one with the same other
    models and the same other reports, unless one of the loads ends with an error that the key
    explains.  What an entry can do to its provider is said once, by `isVerdict_verdict`, and goes
    through the type name, the report or the error of its own key.  So the models and the reports of
    the other entries can be told from all of them (`filter_verdicts_congr`). -/

namespace ModelCatalog

-- ── All values but one ──

namespace Index

variable {α : Type} {key : α → String}

/-- The values under the other keys. -/
def without (index : Index key) (k : String) : Index key :=
  ⟨index.toList.filter fun a => key a != k, index.sorted.filter _⟩

theorem mem_without {index : Index key} {k : String} {a : α} :
    a ∈ (index.without k).toList ↔ a ∈ index.toList ∧ key a ≠ k := by
  rw [without, List.mem_filter, bne_iff_ne]

theorem without_of_none {index : Index key} {k : String} (h : index.get? k = none) :
    index.without k = index := by
  refine eq_of_perm (List.Perm.of_eq (List.filter_eq_self.2 fun a ha => ?_))
  simpa using List.find?_eq_none.1 h a ha

/-- Two indexes with the same values under all other keys. -/
theorem without_congr {index other : Index key} {k : String}
    (h : ∀ k', k' ≠ k → index.get? k' = other.get? k') : index.without k = other.without k := by
  have hnodup : ∀ index : Index key, index.toList.Nodup := fun index => .of_map key index.nodup_keys
  refine eq_of_perm ((List.perm_ext_iff_of_nodup (hnodup _) (hnodup _)).2 fun a => ?_)
  rw [mem_without, mem_without]
  refine and_congr_left fun hne => ?_
  have hget : index.get? (key a) = some a ↔ other.get? (key a) = some a := by rw [h _ hne]
  simpa [get?_eq_some] using hget

end Index

namespace Document

-- ── What an entry can do ──

/-- The type name of a model under a key, if names can be made of the key. -/
def typeName? (key : String) : Option String := (ModelId.parse key).toOption.map ModelId.typeName

/-- The verdicts that can be given on an entry: each of them is about its own key. -/
inductive IsVerdict (id key : String) : Verdict → Prop
  | skipped (reason : SkipReason) : IsVerdict id key (.skipped ⟨documentIdentity id key, reason⟩)
  | deprecated : IsVerdict id key .deprecated
  | fatal {fault : IdFault} (hkey : ModelId.parse key = .error fault) :
      IsVerdict id key (.fatal (.invalidModelId key fault))
  | active {model : Model} (hkey : typeName? key = some model.typeName) :
      IsVerdict id key (.active model)

theorem isVerdict_verdict (id key : String) (value : Json) :
    IsVerdict id key (verdict id key value) := by
  rw [verdict]
  split
  · exact .skipped _
  · next entry hentry =>
    split
    · exact .deprecated
    · next hstatus =>
      cases hkey : ModelId.parse key with
      | error fault => exact .fatal hkey
      | ok modelId =>
          dsimp only
          rw [Entry.verdict, if_neg hstatus, Entry.model]
          cases hnames : modelId.names with
          | error fault => exact .skipped _
          | ok names =>
              obtain ⟨-, -, rfl⟩ := ModelId.names_eq_ok.1 hnames
              refine .active ?_
              rw [typeName?, hkey]
              rfl

/-- The verdicts on the entries of a provider, in the order of their keys. -/
def verdicts (id : String) (record : ProviderRecord) : List Verdict :=
  record.models.toList.map fun (key, v) => verdict id key v

theorem mem_verdicts {id : String} {record : ProviderRecord} {v : Verdict} :
    v ∈ verdicts id record ↔
      ∃ key value, record.models.get? key = some (key, value) ∧ verdict id key value = v := by
  rw [verdicts, List.mem_map]
  constructor
  · rintro ⟨⟨key, value⟩, hmem, hv⟩
    exact ⟨key, value, Index.get?_eq_some.2 ⟨hmem, rfl⟩, hv⟩
  · rintro ⟨key, value, hget, hv⟩
    exact ⟨(key, value), (Index.get?_eq_some.1 hget).1, hv⟩

-- ── Two documents ──

/-- Two documents hold the same but for what stands under one key of one provider. -/
structure DifferAt (id key : String) (document other : Document) : Prop where
  elsewhere : ∀ id', id' ≠ id → document.providers.get? id' = other.providers.get? id'
  entry : ∃ record record', document.providers.get? id = some record ∧
    other.providers.get? id = some record' ∧ record.info = record'.info ∧
    ∀ key', key' ≠ key → record.models.get? key' = record'.models.get? key'

/-- An error that the entry under a key explains: without it there is no model left, its model takes
    a type name that another one has, or its key is no id. -/
inductive IsDueTo (id key : String) : Error → Prop
  | nothing : IsDueTo id key (.noActiveModels id)
  | collision {t : String} (first second : String) (hkey : typeName? key = some t) :
      IsDueTo id key (.collision id first second t)
  | invalid {fault : IdFault} (hkey : ModelId.parse key = .error fault) :
      IsDueTo id key (.invalidModelId key fault)

/-- Whether a model is of another type than the one under a key. -/
def isOfOtherType (key : String) (model : Model) : Bool := typeName? key != some model.typeName

/-- The reports on the other entries. -/
def reportsBut (id key : String) (reports : List Skipped) : List Skipped :=
  reports.filter fun s => s.identity != documentIdentity id key

/-- Two loads of a provider that differ in nothing but what the entry under a key brings about. -/
inductive SameBut (id key : String) :
    Except Error ProviderModels → Except Error ProviderModels → Prop
  | models {p q : ProviderModels} (providerId : p.providerId = id ∧ q.providerId = id)
      (info : p.info = q.info)
      (models : ∀ t, typeName? key ≠ some t → p.models.get? t = q.models.get? t)
      (skipped : reportsBut id key p.skipped = reportsBut id key q.skipped) :
      SameBut id key (.ok p) (.ok q)
  | secondFails {p : ProviderModels} {error : Error} (hdue : IsDueTo id key error) :
      SameBut id key (.ok p) (.error error)
  | firstFails {q : ProviderModels} {error : Error} (hdue : IsDueTo id key error) :
      SameBut id key (.error error) (.ok q)
  | bothFail (error error' : Error) : SameBut id key (.error error) (.error error')

section Entry

variable {id key : String} {record record' : ProviderRecord}
  (h : ∀ key', key' ≠ key → record.models.get? key' = record'.models.get? key')
include h

/-- **What the other verdicts hold is the same.**  It is told by something that the verdicts under
    the key never hold. -/
theorem filter_verdicts_congr {β : Type} {take : Verdict → Option β} {wanted : β → Bool}
    (hkey : ∀ v, IsVerdict id key v → ∀ b ∈ take v, wanted b = false) :
    ((verdicts id record).filterMap take).filter wanted
      = ((verdicts id record').filterMap take).filter wanted := by
  have hwithout : ∀ record : ProviderRecord,
      ((verdicts id record).filterMap take).filter wanted =
        (((record.models.without key).toList.map fun (key, v) => verdict id key v).filterMap
          take).filter wanted := by
    intro record
    rw [verdicts, Index.without, List.filterMap_map, List.filterMap_map, List.filterMap_filter,
      List.filter_filterMap, List.filter_filterMap]
    refine List.filterMap_congr fun entry _ => ?_
    by_cases hentry : entry.1 = key
    · have hnone : (take (verdict id entry.1 entry.2)).filter wanted = none := by
        rw [Option.filter_eq_none_iff]
        intro b hb
        rw [hkey _ (hentry ▸ isVerdict_verdict id entry.1 entry.2) b hb]
        exact Bool.false_ne_true
      rw [if_neg (by simpa using hentry)]
      exact hnone
    · rw [if_pos (by simpa using hentry)]
  rw [hwithout record, hwithout record', Index.without_congr h]

/-- The models of other types. -/
theorem filter_modelsOf_congr :
    (modelsOf (verdicts id record)).filter (isOfOtherType key)
      = (modelsOf (verdicts id record')).filter (isOfOtherType key) := by
  refine filter_verdicts_congr h fun v hv model hmodel => ?_
  cases hv with
  | active hkey =>
      obtain rfl := Option.some.inj hmodel
      rw [isOfOtherType, hkey, bne_self_eq_false]
  | skipped reason => cases hmodel
  | deprecated => cases hmodel
  | fatal hkey => cases hmodel

theorem reportsBut_skippedOf_congr :
    reportsBut id key (skippedOf (verdicts id record))
      = reportsBut id key (skippedOf (verdicts id record')) := by
  refine filter_verdicts_congr h fun v hv s hs => ?_
  cases hv with
  | skipped reason =>
      obtain rfl := Option.some.inj hs
      exact bne_self_eq_false _
  | deprecated => cases hs
  | fatal hkey => cases hs
  | active hkey => cases hs

/-- If only the second record has a fatal verdict, it is on the entry under the key. -/
theorem parse_of_fatal {error : Error} (hfatal : .fatal error ∉ verdicts id record)
    (hfatal' : .fatal error ∈ verdicts id record') :
    ∃ fault, ModelId.parse key = .error fault ∧ error = .invalidModelId key fault := by
  obtain ⟨key', value, hget, hverdict⟩ := mem_verdicts.1 hfatal'
  by_cases hkey : key' = key
  · subst hkey
    have hv := isVerdict_verdict id key' value
    rw [hverdict] at hv
    cases hv with
    | fatal hparse => exact ⟨_, hparse, rfl⟩
  · exact absurd (mem_verdicts.2 ⟨key', value, (h _ hkey).trans hget, hverdict⟩) hfatal

/-- **If only the first record can be gathered, the key explains why.** -/
theorem isDueTo_of_gather {info : ProviderInfo} {p : ProviderModels} {error : Error}
    (hok : ProviderModels.gather id info (verdicts id record) = .ok p)
    (herror : ProviderModels.gather id info (verdicts id record') = .error error) :
    IsDueTo id key error := by
  have hfatal := fatal_notMem_of_gather hok
  have hdistinct := (gathered_of_gather hok).haveDistinctTypes
  rcases gather_spec id info (verdicts id record') with
    ⟨q, hq, -⟩ | ⟨hq, -⟩ | ⟨e, hq, hmem⟩ | ⟨first, second, t, hq, hclash⟩
  · cases herror.symm.trans hq
  · cases herror.symm.trans hq
    exact .nothing
  · cases herror.symm.trans hq
    obtain ⟨fault, hkey, rfl⟩ := parse_of_fatal h (hfatal error) hmem
    exact .invalid hkey
  · have hothers : HaveDistinctTypes ((modelsOf (verdicts id record')).filter
        (isOfOtherType key)) := by
      rw [← filter_modelsOf_congr h]
      exact (List.filter_sublist.map _).nodup hdistinct
    have hfatal' : ∀ e, .fatal e ∉ verdicts id record' := by
      intro e hmem
      -- then the entry is no model, and the others would collide without it
      obtain ⟨fault, hkey, -⟩ := parse_of_fatal h (hfatal e) hmem
      have hall : ∀ model ∈ modelsOf (verdicts id record'), isOfOtherType key model = true := by
        intro model _
        rw [isOfOtherType, typeName?, hkey]
        rfl
      rw [List.filter_eq_self.2 hall] at hothers
      exact hclash hothers
    obtain ⟨a, b, hfirst⟩ := exists_firstClash_iff.2 hclash
    cases herror.symm.trans ((accounts_gather hfatal').clash a b hfirst)
    refine .collision a.id b.id (by_contra fun hother => ?_)
    obtain ⟨before, after, hmodels, hbefore, ha, htype⟩ := hfirst
    have hwanted : ∀ model : Model, model.typeName = b.typeName →
        isOfOtherType key model = true := by
      intro model hmodel
      rw [isOfOtherType, hmodel, bne_iff_ne]
      exact hother
    refine exists_firstClash_iff.1 ?_ hothers
    rw [hmodels, List.filter_append, List.filter_cons_of_pos (hwanted b rfl)]
    exact ⟨a, b, _, _, rfl, (List.filter_sublist.map _).nodup hbefore,
      List.mem_filter.2 ⟨ha, hwanted a htype⟩, htype⟩

/-- **Gathering is the same**, but for what the entry under the key brings about. -/
theorem sameBut_gather (info : ProviderInfo) :
    SameBut id key (ProviderModels.gather id info (verdicts id record))
      (ProviderModels.gather id info (verdicts id record')) := by
  cases hp : ProviderModels.gather id info (verdicts id record) with
  | error error =>
      cases hq : ProviderModels.gather id info (verdicts id record') with
      | error error' => exact .bothFail error error'
      | ok q => exact .firstFails (isDueTo_of_gather (fun k hk => (h k hk).symm) hq hp)
  | ok p =>
      cases hq : ProviderModels.gather id info (verdicts id record') with
      | error error => exact .secondFails (isDueTo_of_gather h hp hq)
      | ok q =>
          have hfirst := gathered_of_gather hp
          have hsecond := gathered_of_gather hq
          refine .models ⟨hfirst.providerId, hsecond.providerId⟩
            (hfirst.info.trans hsecond.info.symm) (fun t ht => ?_) ?_
          · refine Option.ext fun model => ?_
            rw [Index.get?_eq_some, Index.get?_eq_some, hfirst.models.mem_iff,
              hsecond.models.mem_iff]
            refine and_congr_left fun htype => ?_
            have hwanted : isOfOtherType key model = true := by
              rw [isOfOtherType, htype, bne_iff_ne]
              exact ht
            have hmem : ∀ models : List Model,
                model ∈ models ↔ model ∈ models.filter (isOfOtherType key) := by
              intro models
              rw [List.mem_filter, and_iff_left hwanted]
            rw [hmem, filter_modelsOf_congr h, ← hmem]
          · rw [hfirst.skipped, hsecond.skipped]
            exact reportsBut_skippedOf_congr h

end Entry

/-- **ONE ENTRY AFFECTS ONLY ITSELF.**  If two documents differ in nothing but what stands under one
    key of one provider, then every other provider is loaded alike from both, and this one too, but
    for what that entry brings about. -/
theorem load_of_differAt {id key : String} {document other : Document}
    (h : DifferAt id key document other) :
    (∀ id', id' ≠ id → document.load id' = other.load id') ∧
      SameBut id key (document.load id) (other.load id) := by
  obtain ⟨record, record', hrecord, hrecord', hinfo, hentries⟩ := h.entry
  constructor
  · intro id' hid'
    rw [load, load, provider, provider, h.elsewhere id' hid']
  · rw [load_eq_gather hrecord, load_eq_gather hrecord', hinfo]
    exact sameBut_gather hentries record'.info

/-- Two providers, one of which has a value under `f/b`. -/
def openDocument (value : Json) : Document :=
  let p : ProviderRecord :=
    ⟨"p", {}, (Index.empty.insert ("a", .object [])).insert ("f/b", value)⟩
  let q : ProviderRecord := ⟨"q", {}, Index.empty.insert ("a", .object [])⟩
  ⟨(Index.empty.insert q).insert p⟩

theorem differAt_openDocument (value other : Json) :
    DifferAt "p" "f/b" (openDocument value) (openDocument other) where
  elsewhere id' hid' := by
    simp [openDocument, Index.get?_insert, hid'.symm]
  entry := by
    refine ⟨_, _, Index.get?_insert _ _ _, Index.get?_insert _ _ _, rfl, fun key' hkey' => ?_⟩
    simp [Index.get?_insert, hkey'.symm]

/-- A value that is no entry affects neither `q` nor the other model of `p`. -/
theorem load_of_differAt_null :
    (∀ id', id' ≠ "p" → (openDocument (.object [])).load id' = (openDocument .null).load id') ∧
      SameBut "p" "f/b" ((openDocument (.object [])).load "p") ((openDocument .null).load "p") :=
  load_of_differAt (differAt_openDocument (.object []) .null)

end Document

end ModelCatalog
