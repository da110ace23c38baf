import ModelCatalog.Proofs.Models.OneEntry
import ModelCatalog.Proofs.Models.ReadingLater

/-! # Records that lie too deep

    An id has one folder at most.  In a tree a record that lies deeper is refused, whatever it holds
    (`Tree.not_isFine_of_deep`).  In a document the key of an entry is looked at last: a key with
    more slashes refuses the provider only if the value under it is an entry in use
    (`Document.load_of_inUse`), and otherwise the provider is loaded as without the key, up to a
    report on it (`Document.load_of_notInUse`).  So a deep key can pass (`deepKey_passes`), and
    `load_of_deepRecord` says when it does. -/

namespace ModelCatalog

-- ── Keys ──

theorem length_splitOn (separator : Char) (text : List Char) :
    (text.splitOn separator).length = text.count separator + 1 := by
  induction text with
  | nil => rfl
  | cons c rest ih =>
      rw [List.splitOn_cons_eq_if_modifyHead, List.count_cons]
      split
      · rw [List.length_cons, ih]
      · rw [List.length_modifyHead, ih, Nat.add_zero]

/-- A key of more than one folder. -/
def ModelId.IsDeep (key : String) : Prop := 1 < key.toList.count '/'

instance (key : String) : Decidable (ModelId.IsDeep key) := inferInstanceAs (Decidable (_ < _))

theorem ModelId.parse_of_isDeep {key : String} (h : IsDeep key) :
    parse key = .error (.nested (key.toList.count '/')) := by
  have hlength := length_splitOn '/' key.toList
  rw [IsDeep] at h
  rw [parse]
  split
  · next base hparts =>
    rw [hparts, List.length_singleton] at hlength
    omega
  · next folder base hparts =>
    rw [hparts, List.length_cons, List.length_singleton] at hlength
    omega
  · rw [hlength, Nat.add_sub_cancel]

-- ── Trees ──

/-- **In a tree a record that lies too deep is refused**, whatever it holds. -/
theorem Tree.not_isFine_of_deep {files : FileTree} {root path : Path} {id : String}
    {folder? : Option String} {r : Location × Format}
    (hpath : providerPath files root id folder? = .ok path)
    (hr : r ∈ records files (path.child "models")) (hdeep : IsTooDeep r.1) :
    ¬ IsFine (load files root id folder?) := by
  intro hfine
  rw [load_of_providerPath hpath] at hfine
  cases hinfo : readInfo files path with
  | error error =>
      rw [hinfo] at hfine
      have hhard := (isOfInfo_of_readInfo hinfo).isNothing
      rw [hfine error rfl] at hhard
      cases hhard
  | ok info =>
      have hmodels : files.isDirectory (path.child "models") = true := by
        by_contra hnone
        rw [records_eq_nil hnone] at hr
        cases hr
      rw [hinfo, ok_bind, if_pos hmodels] at hfine
      have hfatal :=
        fatal_notMem_of_isFine (fun _ h => (isOfRecord_of_mem_verdicts h).isNothing) hfine
      refine hfatal (.nestingTooDeep (.ofPieces r.1)) ?_
      rw [verdicts_eq_map (canBeEntered_of_verdicts hfatal), ← recordVerdict_of_deep hdeep]
      exact List.mem_map_of_mem hr

-- ── Documents ──

namespace Document

/-- A value is an entry, and not a deprecated one. -/
def isInUse (value : Json) : Bool :=
  match (Entry.read : Json.Decoder Entry).run value with
  | .ok entry => !entry.isDeprecated
  | .error _ => false

section Keys

variable {id key : String} {value : Json}

theorem verdict_of_inUse {fault : IdFault} (hkey : ModelId.parse key = .error fault)
    (hused : isInUse value = true) :
    verdict id key value = .fatal (.invalidModelId key fault) := by
  rw [isInUse] at hused
  rw [verdict]
  split at hused
  · next entry hentry =>
    rw [hentry]
    dsimp only
    rw [if_neg (by simpa using hused), hkey]
  · cases hused

/-- A verdict that changes nothing but the report on its entry. -/
theorem verdict_of_notInUse (hused : isInUse value = false) :
    verdict id key value = .deprecated ∨
      ∃ reason, verdict id key value = .skipped ⟨documentIdentity id key, reason⟩ := by
  rw [isInUse] at hused
  rw [verdict]
  split at hused
  · next entry hentry =>
    rw [hentry]
    dsimp only
    rw [if_pos (by simpa using hused)]
    exact Or.inl rfl
  · next fault hentry =>
    rw [hentry]
    exact Or.inr ⟨_, rfl⟩

end Keys

/-- Why a provider is refused: a key of it is no id, or two models collide. -/
inductive IsRefusal (id : String) : Error → Prop
  | invalid {key : String} {fault : IdFault} (hkey : ModelId.parse key = .error fault) :
      IsRefusal id (.invalidModelId key fault)
  | collision (first second t : String) : IsRefusal id (.collision id first second t)

/-- **An entry in use under a key that is no id** refuses its provider. -/
theorem load_of_inUse {document : Document} {record : ProviderRecord} {id key : String}
    {value : Json} {fault : IdFault} (hrecord : document.providers.get? id = some record)
    (hentry : record.models.get? key = some (key, value))
    (hkey : ModelId.parse key = .error fault) (hused : isInUse value = true) :
    ∃ error, document.load id = .error error ∧ IsRefusal id error := by
  have hmem : .fatal (.invalidModelId key fault) ∈ verdicts id record :=
    mem_verdicts.2 ⟨key, value, hentry, verdict_of_inUse hkey hused⟩
  have hrefusal : ∀ error, .fatal error ∈ verdicts id record → IsRefusal id error := by
    intro error herror
    obtain ⟨key', value', -, hverdict⟩ := mem_verdicts.1 herror
    have hv := isVerdict_verdict id key' value'
    rw [hverdict] at hv
    cases hv with
    | fatal hkey' => exact .invalid hkey'
  have hfine : ¬ IsFine (ProviderModels.gather id record.info (verdicts id record)) := by
    refine fun hfine => fatal_notMem_of_isFine (fun error herror => ?_) hfine _ hmem
    cases hrefusal error herror <;> rfl
  rw [load_eq_gather hrecord, ← verdicts]
  rcases gather_spec id record.info (verdicts id record) with
    ⟨p, hp, -⟩ | ⟨hp, -⟩ | ⟨error, hp, herror⟩ | ⟨first, second, t, hp, -⟩
  · refine absurd (fun error herror => ?_) hfine
    cases hp.symm.trans herror
  · refine absurd (fun error herror => ?_) hfine
    cases hp.symm.trans herror
    rfl
  · exact ⟨error, hp, hrefusal error herror⟩
  · exact ⟨_, hp, .collision first second t⟩

-- ── Without an entry ──

/-- A provider without the reports on an entry. -/
def forget (id key : String) (p : ProviderModels) : ProviderModels :=
  { p with skipped := reportsBut id key p.skipped }

@[simp] theorem models_forget (id key : String) (p : ProviderModels) :
    (forget id key p).models = p.models := rfl

theorem documentIdentity_inj {id key key' : String}
    (h : documentIdentity id key = documentIdentity id key') : key = key' :=
  String.append_right_inj _ |>.1 h

section Forget

variable (id : String) {key : String}

/-- What is taken over of another entry is not forgotten. -/
theorem map_forget_add (p : ProviderModels) {key' : String} {v : Verdict} (hv : IsVerdict id key' v)
    (hkey : key' ≠ key) : (p.add v).map (forget id key) = (forget id key p).add v := by
  cases hv with
  | deprecated => rfl
  | fatal hparse => rfl
  | active htype =>
      rw [ProviderModels.add, ProviderModels.add, ProviderModels.insert, ProviderModels.insert,
        models_forget]
      cases p.models.get? _ <;> rfl
  | skipped reason =>
      have hkept : reportsBut id key [⟨documentIdentity id key', reason⟩]
          = [⟨documentIdentity id key', reason⟩] := by
        refine List.filter_eq_self.2 fun s hs => ?_
        rw [List.mem_singleton.1 hs, bne_iff_ne]
        exact fun h => hkey (documentIdentity_inj h)
      rw [ProviderModels.add, ProviderModels.add, Except.map, forget, forget, reportsBut,
        List.filter_append, ← reportsBut, ← reportsBut, hkept]

/-- What is taken over of an entry that is not in use is forgotten. -/
theorem map_forget_add_of_notInUse (key : String) (p : ProviderModels) {value : Json}
    (hused : isInUse value = false) :
    (p.add (verdict id key value)).map (forget id key) = .ok (forget id key p) := by
  rcases verdict_of_notInUse hused with hverdict | ⟨reason, hverdict⟩
  · rw [hverdict]
    rfl
  · have hgone : reportsBut id key [⟨documentIdentity id key, reason⟩] = [] :=
      List.filter_eq_nil_iff.2 fun s hs => by simp [List.mem_singleton.1 hs]
    rw [hverdict, ProviderModels.add, Except.map, forget, reportsBut, List.filter_append,
      ← reportsBut, ← reportsBut, hgone, List.append_nil]
    rfl

theorem map_forget_foldlM {entries : List (String × Json)}
    (hused : ∀ value, (key, value) ∈ entries → isInUse value = false) (p : ProviderModels) :
    ((entries.map fun (key, v) => verdict id key v).foldlM ProviderModels.add p).map
        (forget id key)
      = ((entries.filter fun entry => entry.1 != key).map
          fun (key, v) => verdict id key v).foldlM ProviderModels.add (forget id key p) := by
  induction entries generalizing p with
  | nil => rfl
  | cons entry rest ih =>
      obtain ⟨key', value⟩ := entry
      replace ih := ih fun v hv => hused v (List.mem_cons_of_mem _ hv)
      rw [List.map_cons, List.foldlM_cons]
      dsimp only
      by_cases hkey : key' = key
      · subst hkey
        have hadd := map_forget_add_of_notInUse id key' p (hused value List.mem_cons_self)
        rw [List.filter_cons_of_neg (by simp)]
        cases hq : p.add (verdict id key' value) with
        | error error =>
            rw [hq] at hadd
            cases hadd
        | ok q =>
            rw [hq] at hadd
            rw [ok_bind, ih q, Except.ok.inj hadd]
      · have hadd := map_forget_add id p (isVerdict_verdict id key' value) hkey
        rw [List.filter_cons_of_pos (by simpa using hkey), List.map_cons, List.foldlM_cons,
          ← hadd]
        cases p.add (verdict id key' value) with
        | error error => rfl
        | ok q => exact ih q

theorem map_forget_gather (info : ProviderInfo) {entries : List (String × Json)}
    (hused : ∀ value, (key, value) ∈ entries → isInUse value = false) :
    (ProviderModels.gather id info (entries.map fun (key, v) => verdict id key v)).map
        (forget id key)
      = ProviderModels.gather id info ((entries.filter fun entry => entry.1 != key).map
          fun (key, v) => verdict id key v) := by
  have hrun := map_forget_foldlM id hused { providerId := id, info }
  rw [show forget id key { providerId := id, info } = { providerId := id, info } from rfl] at hrun
  rw [ProviderModels.gather, ProviderModels.gather, ← hrun]
  cases (entries.map fun (key, v) => verdict id key v).foldlM ProviderModels.add
      { providerId := id, info } with
  | error error => rfl
  | ok p =>
      rw [Except.map, ok_bind, ok_bind]
      dsimp only
      rw [models_forget]
      split <;> rfl

end Forget

/-- **An entry that is not in use** is as good as none, but for the report on it. -/
theorem load_of_notInUse {document other : Document} {record : ProviderRecord} {id key : String}
    {value : Json} (hrecord : document.providers.get? id = some record)
    (hentry : record.models.get? key = some (key, value)) (hused : isInUse value = false)
    (hdiffer : DifferAt id key document other)
    (hwithout : ∀ record', other.providers.get? id = some record' → record'.models.get? key = none) :
    (document.load id).map (forget id key) = other.load id := by
  obtain ⟨record₁, record', hrecord₁, hrecord', hinfo, hothers⟩ := hdiffer.entry
  obtain rfl := Option.some.inj (hrecord.symm.trans hrecord₁)
  have hmodels : record.models.without key = record'.models := by
    rw [Index.without_congr hothers, Index.without_of_none (hwithout record' hrecord')]
  rw [load_eq_gather hrecord, load_eq_gather hrecord', ← hmodels, ← hinfo]
  refine map_forget_gather id record.info fun v hv => ?_
  cases hentry.symm.trans (Index.get?_eq_some.2 ⟨hv, rfl⟩)
  exact hused

end Document

/-- **DEEP NESTING.**  In a tree a record that lies too deep is refused, whatever it holds.  In a
    document a key with too many folders refuses its provider if the entry under it is in use, and
    otherwise it is as good as none, but for a report on it. -/
theorem load_of_deepRecord (files : FileTree) (root : Path) (folder? : Option String)
    (document : Document) (id : String) :
    (∀ path r, Tree.providerPath files root id folder? = .ok path →
      r ∈ Tree.records files (path.child "models") → Tree.IsTooDeep r.1 →
        ¬ IsFine (Tree.load files root id folder?)) ∧
    ∀ record key value, document.providers.get? id = some record →
      record.models.get? key = some (key, value) → ModelId.IsDeep key →
        (Document.isInUse value = true →
          ∃ error, document.load id = .error error ∧ Document.IsRefusal id error) ∧
        (Document.isInUse value = false → ∀ other, Document.DifferAt id key document other →
          (∀ record', other.providers.get? id = some record' → record'.models.get? key = none) →
            (document.load id).map (Document.forget id key) = other.load id) := by
  refine ⟨fun path r hpath hr hdeep => Tree.not_isFine_of_deep hpath hr hdeep,
    fun record key value hrecord hentry hdeep => ⟨fun hused => ?_, ?_⟩⟩
  · exact Document.load_of_inUse hrecord hentry (ModelId.parse_of_isDeep hdeep) hused
  · intro hused other hdiffer hwithout
    exact Document.load_of_notInUse hrecord hentry hused hdiffer hwithout

-- ── A deep key and a deep record ──

/-- A provider with one entry, under a key with two folders. -/
def deepDocument (value : Json) : Document :=
  ⟨Index.empty.insert ⟨"x", {}, Index.empty.insert ("a/b/c", value)⟩⟩

/-- The same provider without the entry. -/
def emptyDocument : Document := ⟨Index.empty.insert ⟨"x", {}, .empty⟩⟩

def deprecatedEntry : Json := .object [("status", .text "deprecated")]

theorem differAt_deepDocument (value : Json) :
    Document.DifferAt "x" "a/b/c" (deepDocument value) emptyDocument where
  elsewhere id' hid' := by
    simp [deepDocument, emptyDocument, Index.get?_insert, hid'.symm]
  entry := by
    refine ⟨_, _, Index.get?_insert _ _ _, Index.get?_insert _ _ _, rfl, fun key' hkey' => ?_⟩
    simp [Index.get?_insert, hkey'.symm]

/-- A record two folders deep. -/
def deepTree : FileTree :=
  ⟨[(["providers"], .directory), (["providers", "x"], .directory),
    (["providers", "x", "models"], .directory), (["providers", "x", "models", "a"], .directory),
    (["providers", "x", "models", "a", "b"], .directory),
    (["providers", "x", "models", "a", "b", "c.json"],
      .file "\x7b\"status\":\"deprecated\"\x7d".toUTF8)], by decide⟩

/-- A deprecated record is refused there in the tree, and ignored in the document; one that is in use
    is refused in the document as well. -/
theorem load_of_deepRecord_abc :
    ¬ IsFine (Tree.load deepTree ⟨""⟩ "x" none) ∧
      (∃ error, (deepDocument (.object [])).load "x" = .error error ∧
        Document.IsRefusal "x" error) ∧
      ((deepDocument deprecatedEntry).load "x").map (Document.forget "x" "a/b/c")
        = emptyDocument.load "x" := by
  have hdeep : ModelId.IsDeep "a/b/c" := by decide
  have hpath : Tree.providerPath deepTree ⟨""⟩ "x" none = .ok ⟨"providers/x"⟩ := rfl
  have hr : ((["a", "b", "c.json"] : Location), Tree.Format.json)
      ∈ Tree.records deepTree ⟨"providers/x/models"⟩ :=
    Tree.mem_records_iff.2 ⟨["providers", "x", "models"], _, "c.json", rfl, by decide, by decide, rfl,
      rfl, by decide⟩
  refine ⟨?_, ?_, ?_⟩
  · exact (load_of_deepRecord deepTree ⟨""⟩ none (deepDocument (.object [])) "x").1 _ _ hpath hr
      (by decide)
  · exact ((load_of_deepRecord deepTree ⟨""⟩ none (deepDocument (.object [])) "x").2 _ _ _ rfl rfl
      hdeep).1 (by decide +kernel)
  · refine ((load_of_deepRecord deepTree ⟨""⟩ none (deepDocument deprecatedEntry) "x").2 _ _ _ rfl rfl
      hdeep).2 (by decide +kernel) _ (differAt_deepDocument deprecatedEntry) fun record' hrecord' => ?_
    obtain rfl := Option.some.inj hrecord'
    rfl

/-- A key that is too deep can pass. -/
theorem deepKey_passes :
    ¬ ∀ (document : Document) (record : ProviderRecord) (id key : String) (value : Json),
      document.providers.get? id = some record → record.models.get? key = some (key, value) →
        ModelId.IsDeep key → ¬ IsFine (document.load id) := by
  intro hrefused
  refine hrefused (deepDocument deprecatedEntry) _ "x" "a/b/c" deprecatedEntry rfl rfl (by decide)
    fun error herror => ?_
  have hload : (deepDocument deprecatedEntry).load "x" = .error (.noActiveModels "x") := by rfl
  rw [← Except.error.inj (hload.symm.trans herror)]
  rfl

end ModelCatalog
