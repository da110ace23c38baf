import Mathlib.Data.List.Nodup
import ModelCatalog.Catalog
import ModelCatalog.Proofs.FileTree.Walking
import ModelCatalog.Proofs.Models.Gathering
import ModelCatalog.Proofs.Names.ModelIds
import ModelCatalog.Proofs.Text.Decoding
import ModelCatalog.Results

/-! # The two loaders agree

    A provider can be kept in a tree, one record a file, or in a document, one record a key.  If both
    hold the same entries under the same keys (`Corresponds`), they are loaded alike
    (`loads_agree`), although the one goes through its records as a walk finds them, and the other in
    the order of the keys.  The verdicts on one record are alike (`alike_of_corresponds`): what is
    left is that gathering does not depend on an order (`gather_alike`). -/

namespace ModelCatalog

-- ── Verdicts that are alike ──

/-- Two verdicts say the same of a record, which has a name in each of two catalogs. -/
inductive Alike (identity identity' : String) : Verdict → Verdict → Prop where
  | deprecated : Alike identity identity' .deprecated .deprecated
  | active (model : Model) : Alike identity identity' (.active model) (.active model)
  | skipped (reason reason' : SkipReason) :
      Alike identity identity' (.skipped ⟨identity, reason⟩) (.skipped ⟨identity', reason'⟩)

namespace Alike

variable {identity identity' : String} {v w : Verdict}

theorem not_fatal (h : Alike identity identity' v w) (error : Error) :
    v ≠ .fatal error ∧ w ≠ .fatal error := by
  cases h <;> exact ⟨fun heq => (nomatch heq), fun heq => (nomatch heq)⟩

theorem model?_eq (h : Alike identity identity' v w) : v.model? = w.model? := by
  cases h <;> rfl

/-- The verdicts on an entry are alike, whatever it is called. -/
theorem of_entry (e : Entry) (id : ModelId) :
    Alike identity identity' (e.verdict identity id) (e.verdict identity' id) := by
  rw [Entry.verdict, Entry.verdict]
  split
  · exact .deprecated
  · cases e.model id with
    | error fault => exact .skipped _ _
    | ok model => exact .active model

end Alike

theorem modelsOf_map_eq {α : Type} {records : List α} {v w : α → Verdict} {name name' : α → String}
    (h : ∀ r ∈ records, Alike (name r) (name' r) (v r) (w r)) :
    modelsOf (records.map v) = modelsOf (records.map w) := by
  rw [modelsOf, modelsOf, List.filterMap_map, List.filterMap_map]
  exact List.filterMap_congr fun r hr => (h r hr).model?_eq

/-- None of the verdicts is fatal if they are alike. -/
theorem fatal_notMem_map {α : Type} {records : List α} {v w : α → Verdict} {name name' : α → String}
    (h : ∀ r ∈ records, Alike (name r) (name' r) (v r) (w r)) (error : Error) :
    .fatal error ∉ records.map v ∧ .fatal error ∉ records.map w := by
  constructor
  · intro hmem
    obtain ⟨r, hr, hfatal⟩ := List.mem_map.1 hmem
    exact ((h r hr).not_fatal error).1 hfatal
  · intro hmem
    obtain ⟨r, hr, hfatal⟩ := List.mem_map.1 hmem
    exact ((h r hr).not_fatal error).2 hfatal

/-- Verdicts that are alike report the same records. -/
theorem exists_skipped {α : Type} {records : List α} {v w : α → Verdict} {name name' : α → String}
    (h : ∀ r ∈ records, Alike (name r) (name' r) (v r) (w r)) :
    ∃ left : List α, left.Sublist records ∧
      (skippedOf (records.map v)).map (·.identity) = left.map name ∧
      (skippedOf (records.map w)).map (·.identity) = left.map name' := by
  induction records with
  | nil => exact ⟨[], .refl _, rfl, rfl⟩
  | cons r rest ih =>
      obtain ⟨left, hleft, hv, hw⟩ := ih fun s hs => h s (List.mem_cons_of_mem _ hs)
      have hr := h r List.mem_cons_self
      rw [List.map_cons, List.map_cons, skippedOf, skippedOf, List.filterMap_cons,
        List.filterMap_cons, ← skippedOf, ← skippedOf]
      generalize v r = a at hr ⊢
      generalize w r = b at hr ⊢
      cases hr with
      | deprecated => exact ⟨left, hleft.cons _, hv, hw⟩
      | active model => exact ⟨left, hleft.cons _, hv, hw⟩
      | skipped reason reason' =>
          refine ⟨r :: left, hleft.cons_cons r, ?_, ?_⟩
          · exact congrArg (name r :: ·) hv
          · exact congrArg (name' r :: ·) hw

-- ── Gathering alike ──

/-- **Gathering does not depend on the order** of the verdicts: with the same models and nothing
    fatal, it ends alike. -/
theorem gather_alike {id : String} {info : ProviderInfo} {v w : List Verdict}
    (hv : ∀ error, .fatal error ∉ v) (hw : ∀ error, .fatal error ∉ w)
    (hmodels : (modelsOf v).Perm (modelsOf w)) :
    (∃ p q, ProviderModels.gather id info v = .ok p ∧ ProviderModels.gather id info w = .ok q ∧
      Gathered id info v p ∧ Gathered id info w q ∧ p.models = q.models) ∨
    (ProviderModels.gather id info v = .error (.noActiveModels id) ∧
      ProviderModels.gather id info w = .error (.noActiveModels id)) ∨
    (∃ first second t, ProviderModels.gather id info v = .error (.collision id first second t)) ∧
      ∃ first second t, ProviderModels.gather id info w = .error (.collision id first second t) := by
  have hdistinct : HaveDistinctTypes (modelsOf v) ↔ HaveDistinctTypes (modelsOf w) :=
    (hmodels.map _).nodup_iff
  have hnil : modelsOf v = [] ↔ modelsOf w = [] :=
    ⟨fun h => List.nil_perm.1 (h ▸ hmodels), fun h => List.perm_nil.1 (h ▸ hmodels)⟩
  rcases gather_spec id info v with
    ⟨p, hp, hgathered, hsome⟩ | ⟨hp, hnone⟩ | ⟨error, -, hfatal⟩ | ⟨a, b, t, hp, hsame⟩
  · rcases gather_spec id info w with
      ⟨q, hq, hgathered', -⟩ | ⟨-, hnone'⟩ | ⟨error, -, hfatal⟩ | ⟨a', b', t', -, hsame'⟩
    · refine Or.inl ⟨p, q, hp, hq, hgathered, hgathered', Index.eq_of_perm ?_⟩
      exact (hgathered.models.trans hmodels).trans hgathered'.models.symm
    · exact absurd (hnil.2 hnone') hsome
    · exact absurd hfatal (hw error)
    · exact absurd (hdistinct.1 hgathered.haveDistinctTypes) hsame'
  · rcases gather_spec id info w with
      ⟨q, -, -, hsome'⟩ | ⟨hq, -⟩ | ⟨error, -, hfatal⟩ | ⟨a', b', t', -, hsame'⟩
    · exact absurd (hnil.1 hnone) hsome'
    · exact Or.inr (Or.inl ⟨hp, hq⟩)
    · exact absurd hfatal (hw error)
    · refine absurd ?_ hsame'
      rw [hnil.1 hnone]
      exact List.nodup_nil
  · exact absurd hfatal (hv error)
  · rcases gather_spec id info w with
      ⟨q, -, hgathered', -⟩ | ⟨-, hnone'⟩ | ⟨error, -, hfatal⟩ | ⟨a', b', t', hq, -⟩
    · exact absurd (hdistinct.2 hgathered'.haveDistinctTypes) hsame
    · refine absurd ?_ hsame
      rw [hnil.2 hnone']
      exact List.nodup_nil
    · exact absurd hfatal (hw error)
    · exact Or.inr (Or.inr ⟨⟨a, b, t, hp⟩, ⟨a', b', t', hq⟩⟩)

-- ── The records of a tree ──

namespace Tree

/-- The record that stands at the end of a way, with its format. -/
def record? : Location × Node → Option (Location × Format)
  | (way, .file _) => do return (way, ← Format.ofName? (← way.getLast?))
  | (_, .directory) => none

/-- The records below a directory of models, in the order of the walk. -/
def records (files : FileTree) (modelsPath : Path) : List (Location × Format) :=
  match files.locate modelsPath with
  | .ok base => (files.walk base).filterMap record?
  | .error _ => []

/-- The id of a record by the texts on the way to it, if it does not lie too deep. -/
def recordId? (way : Location) : Option ModelId := do
  return ⟨← recordFolder? way, ← recordBase? way⟩

/-- The key of a record: its stem, behind its folder if it has one. -/
def recordKey (way : Location) : String := ((recordId? way).map ModelId.text).getD ""

theorem mem_records {files : FileTree} {modelsPath : Path} {r : Location × Format}
    (h : r ∈ records files modelsPath) :
    (∀ name ∈ r.1, FileName.isName name = true) ∧
      ∃ name ∈ r.1.getLast?, Format.ofName? name = some r.2 := by
  rw [records] at h
  split at h
  · obtain ⟨⟨way, n⟩, hmem, hrecord⟩ := List.mem_filterMap.1 h
    cases n with
    | directory => exact nomatch hrecord
    | file content =>
        simp only [record?, Option.bind_eq_bind, Option.bind_eq_some_iff] at hrecord
        obtain ⟨name, hlast, format, hformat, hr⟩ := hrecord
        obtain rfl : (way, format) = r := Option.some.inj hr
        exact ⟨FileTree.isName_of_mem_walk hmem, name, hlast, hformat⟩
  · exact nomatch h

/-- The name of a record is a stem and an extension, and the stem of a text is a text. -/
theorem exists_stem {name : String} {format : Format} (h : Format.ofName? name = some format) :
    ∃ base : String, FileName.stem name = base ∧ base ≠ "" ∧ ∀ c ∈ base.toList, c ∈ name.toList := by
  obtain ⟨extension, hextension, hascii⟩ : ∃ extension : String,
      FileName.extension? name = some (RawText.ofString extension) ∧
        (Text.bytes ("." ++ extension)).all (· < 128) = true := by
    rw [Format.ofName?] at h
    split at h
    · next htext =>
      obtain ⟨r, hr, htext⟩ := Option.bind_eq_some_iff.1 htext
      exact ⟨"json", hr.trans (congrArg some (RawText.text?_eq_some.1 htext)), by decide⟩
    · next htext =>
      obtain ⟨r, hr, htext⟩ := Option.bind_eq_some_iff.1 htext
      exact ⟨"toml", hr.trans (congrArg some (RawText.text?_eq_some.1 htext)), by decide⟩
    · cases h
  obtain ⟨hstem, hname⟩ := FileName.name_eq_of_extension hextension
  rw [RawText.append_assoc, ← RawText.ofString_append] at hname
  obtain ⟨base, hbase⟩ := RawText.exists_of_ofString_append hascii hname
  refine ⟨base, hbase, fun hempty => hstem (by rw [hbase, hempty]), fun c hc => ?_⟩
  rw [hbase, ← RawText.ofString_append, RawText.ofString_inj] at hname
  rw [hname, String.toList_append]
  exact List.mem_append_left _ hc

/-- A record that is called by texts has a base, and no slash is in what it is called by. -/
theorem exists_texts_of_record {files : FileTree} {modelsPath : Path} {r : Location × Format}
    (h : r ∈ records files modelsPath) (htexts : ∀ name ∈ r.1, name.isText = true) :
    ∃ (texts : List String) (base : String), r.1 = texts.map RawText.ofString ∧ texts ≠ [] ∧
      (∀ text ∈ texts, text ≠ "" ∧ '/' ∉ text.toList) ∧
      recordBase? r.1 = some base ∧ base ≠ "" ∧ '/' ∉ base.toList := by
  obtain ⟨way, format⟩ := r
  obtain ⟨hnames, last, hlast, hformat⟩ := mem_records h
  obtain ⟨texts, rfl⟩ := RawText.exists_texts htexts
  dsimp only at hnames hlast hformat ⊢
  have hplain : ∀ text ∈ texts, text ≠ "" ∧ '/' ∉ text.toList := by
    intro text htext
    obtain ⟨hne, hslash⟩ := FileName.of_isName (hnames text (List.mem_map_of_mem htext))
    exact ⟨fun hempty => hne (congrArg _ hempty),
      fun hmem => hslash (RawText.slash_mem_ofString.2 hmem)⟩
  obtain ⟨name, hmem, rfl⟩ := List.mem_map.1 (List.mem_of_getLast? hlast)
  obtain ⟨base, hstem, hne, hbase⟩ := exists_stem hformat
  refine ⟨texts, base, rfl, List.ne_nil_of_mem hmem, hplain, ?_, hne,
    fun hc => (hplain name hmem).2 (hbase _ hc)⟩
  rw [recordBase?, hlast, Option.bind_some, hstem, RawText.text?_ofString]

/-- A record that is not too deep, and called by texts, has an id, which can be read from its key. -/
theorem exists_recordId {files : FileTree} {modelsPath : Path} {r : Location × Format}
    (h : r ∈ records files modelsPath) (hshallow : r.1.length ≤ 2)
    (htexts : ∀ name ∈ r.1, name.isText = true) :
    ∃ folder? base, recordFolder? r.1 = some folder? ∧ recordBase? r.1 = some base ∧
      recordKey r.1 = ModelId.text ⟨folder?, base⟩ ∧
      ModelId.parse (ModelId.text ⟨folder?, base⟩) = .ok ⟨folder?, base⟩ := by
  obtain ⟨texts, base, hway, hsome, hplain, hbase, hne, hslash⟩ := exists_texts_of_record h htexts
  -- the folder is what stands before the name, if anything does
  obtain ⟨folder?, hfolder, hparse⟩ : ∃ folder?, recordFolder? r.1 = some folder? ∧
      ModelId.parse (ModelId.text ⟨folder?, base⟩) = .ok ⟨folder?, base⟩ := by
    rw [hway, List.length_map] at hshallow
    rw [hway, recordFolder?, segments, RawText.filterMap_text?]
    rcases texts with _ | ⟨first, _ | ⟨second, _ | ⟨third, rest⟩⟩⟩
    · exact absurd rfl hsome
    · exact ⟨none, rfl, ModelId.parse_text ⟨hslash, fun _ hfolder => by cases hfolder⟩⟩
    · refine ⟨some first, rfl, ModelId.parse_text ⟨hslash, fun _ hfolder => ?_⟩⟩
      obtain rfl := Option.some.inj hfolder
      obtain ⟨hfirst, hfolderSlash⟩ := hplain first List.mem_cons_self
      exact ⟨hfolderSlash, hfirst, hne⟩
    · simp only [List.length_cons] at hshallow
      omega
  refine ⟨folder?, base, hfolder, hbase, ?_, hparse⟩
  rw [recordKey, recordId?, hfolder, hbase]
  rfl

/-- A directory of models whose path leads into every directory below it. -/
def CanBeEntered (files : FileTree) (modelsPath : Path) : Prop :=
  ∀ base way, files.locate modelsPath = .ok base → (way, .directory) ∈ files.walk base →
    ∃ n, files.find (recordPath modelsPath way) = .ok n

/-- The verdicts of a tree are those on its records, if all directories can be entered. -/
theorem verdicts_eq_map {files : FileTree} {modelsPath : Path}
    (h : CanBeEntered files modelsPath) :
    verdicts files modelsPath = (records files modelsPath).map fun r =>
      recordVerdict files modelsPath r.1 r.2 := by
  rw [verdicts, records]
  cases hlocate : files.locate modelsPath with
  | error fault => rfl
  | ok base =>
      dsimp only
      rw [List.map_filterMap]
      refine List.filterMap_congr fun x hx => ?_
      obtain ⟨way, n⟩ := x
      cases n with
      | directory =>
          obtain ⟨n, hn⟩ := h base way hlocate hx
          rw [verdict?, hn]
          rfl
      | file content =>
          rw [verdict?, record?]
          cases hlast : way.getLast? with
          | none => rfl
          | some name => cases hformat : Format.ofName? name <;> simp [hformat]

end Tree

-- ── One provider in two catalogs ──

/-- The models of a provider in a tree and in a document correspond: the tree can be walked, its
    records lie no deeper than one folder, the names on the way to them are texts, their keys are
    distinct and those of the document, and what is read under one key is the same entry, or none. -/
structure Corresponds (files : FileTree) (modelsPath : Path)
    (models : Index (Prod.fst : String × Json → String)) : Prop where
  readable : ∀ base way, files.locate modelsPath = .ok base → (way, .directory) ∈ files.walk base →
    ∃ n, files.find (Tree.recordPath modelsPath way) = .ok n
  shallow : ∀ r ∈ Tree.records files modelsPath, r.1.length ≤ 2
  texts : ∀ r ∈ Tree.records files modelsPath, ∀ name ∈ r.1, name.isText = true
  distinct : ((Tree.records files modelsPath).map fun r => Tree.recordKey r.1).Nodup
  keys : ∀ key, key ∈ models.toList.map Prod.fst ↔
    key ∈ (Tree.records files modelsPath).map fun r => Tree.recordKey r.1
  entries : ∀ r ∈ Tree.records files modelsPath, ∀ value,
    (Tree.recordKey r.1, value) ∈ models.toList →
      (Tree.readEntry files (Tree.recordPath modelsPath r.1) r.2).toOption
        = ((Entry.read : Json.Decoder Entry).run value).toOption

def documentIdentity (providerId key : String) : String := providerId ++ "/models/" ++ key

/-- The reports from a tree and from a document are on the same records, each called by the path or
    by the key. -/
def SkippedAlike (files : FileTree) (modelsPath : Path) (id : String) (s s' : List Skipped) : Prop :=
  ∃ left : List (Location × Tree.Format), left.Sublist (Tree.records files modelsPath) ∧
    s.map (·.identity) = left.map (fun r => (Tree.recordPath modelsPath r.1).text) ∧
    (s'.map (·.identity)).Perm (left.map fun r => documentIdentity id (Tree.recordKey r.1))

/-- A provider is loaded alike from a tree and from a document. -/
inductive LoadedAlike (files : FileTree) (modelsPath : Path) (id : String) :
    Except Error ProviderModels → Except Error ProviderModels → Prop where
  | models {p q : ProviderModels} (providerId : p.providerId = id ∧ q.providerId = id)
      (info : p.info = q.info) (models : p.models = q.models)
      (skipped : SkippedAlike files modelsPath id p.skipped q.skipped) :
      LoadedAlike files modelsPath id (.ok p) (.ok q)
  | nothing : LoadedAlike files modelsPath id
      (.error (.noActiveModels id)) (.error (.noActiveModels id))
  | collision (first second typeName first' second' typeName' : String) :
      LoadedAlike files modelsPath id (.error (.collision id first second typeName))
        (.error (.collision id first' second' typeName'))

namespace Corresponds

variable {files : FileTree} {modelsPath : Path} {models : Index (Prod.fst : String × Json → String)}

def value (models : Index (Prod.fst : String × Json → String)) (r : Location × Tree.Format) : Json :=
  ((models.get? (Tree.recordKey r.1)).map Prod.snd).getD .null

theorem mem_value (h : Corresponds files modelsPath models) {r : Location × Tree.Format}
    (hr : r ∈ Tree.records files modelsPath) :
    (Tree.recordKey r.1, value models r) ∈ models.toList := by
  have hkey := (h.keys (Tree.recordKey r.1)).2 (List.mem_map_of_mem hr)
  obtain ⟨⟨key, v⟩, hmem, hsame⟩ := List.mem_map.1 hkey
  obtain rfl : key = Tree.recordKey r.1 := hsame
  rw [value, Index.get?_eq_some.2 ⟨hmem, rfl⟩]
  exact hmem

/-- A document holds one value for each record, and nothing else. -/
theorem perm_values (h : Corresponds files modelsPath models) :
    models.toList.Perm
      ((Tree.records files modelsPath).map fun r => (Tree.recordKey r.1, value models r)) := by
  have hdistinct : ((Tree.records files modelsPath).map
      fun r => (Tree.recordKey r.1, value models r)).Nodup := by
    refine List.Nodup.of_map Prod.fst ?_
    rw [List.map_map]
    exact h.distinct
  refine (List.perm_ext_iff_of_nodup (List.Nodup.of_map _ models.nodup_keys) hdistinct).2 ?_
  rintro ⟨key, v⟩
  constructor
  · intro hmem
    obtain ⟨r, hr, hkey⟩ := List.mem_map.1 ((h.keys key).1 (List.mem_map_of_mem hmem))
    have hsame : (Tree.recordKey r.1, value models r) = (key, v) :=
      List.inj_on_of_nodup_map models.nodup_keys (h.mem_value hr) hmem hkey
    exact List.mem_map.2 ⟨r, hr, hsame⟩
  · intro hmem
    obtain ⟨r, hr, hsame⟩ := List.mem_map.1 hmem
    exact hsame ▸ h.mem_value hr

/-- The verdicts of a tree are those on its records. -/
theorem verdicts_eq (h : Corresponds files modelsPath models) :
    Tree.verdicts files modelsPath = (Tree.records files modelsPath).map fun r =>
      Tree.recordVerdict files modelsPath r.1 r.2 :=
  Tree.verdicts_eq_map h.readable

/-- **The verdicts on one record are alike**, by its file and by its value. -/
theorem alike (h : Corresponds files modelsPath models) (id : String) {r : Location × Tree.Format}
    (hr : r ∈ Tree.records files modelsPath) :
    Alike (Tree.recordPath modelsPath r.1).text (documentIdentity id (Tree.recordKey r.1))
      (Tree.recordVerdict files modelsPath r.1 r.2)
      (Document.verdict id (Tree.recordKey r.1) (value models r)) := by
  obtain ⟨folder?, base, hfolder, hbase, hkey, hparse⟩ :=
    Tree.exists_recordId hr (h.shallow r hr) (h.texts r hr)
  have hentry := h.entries r hr (value models r) (h.mem_value hr)
  rw [Tree.recordVerdict, hfolder, hbase, Document.verdict]
  dsimp only
  rw [Tree.fileVerdict]
  cases hread : Tree.readEntry files (Tree.recordPath modelsPath r.1) r.2 with
  | error reason =>
      cases hdecode : (Entry.read : Json.Decoder Entry).run (value models r) with
      | error fault => exact .skipped _ _
      | ok entry =>
          rw [hread, hdecode] at hentry
          exact nomatch hentry
  | ok entry =>
      cases hdecode : (Entry.read : Json.Decoder Entry).run (value models r) with
      | error fault =>
          rw [hread, hdecode] at hentry
          exact nomatch hentry
      | ok entry' =>
          rw [hread, hdecode] at hentry
          obtain rfl : entry = entry' := Option.some.inj hentry
          dsimp only
          by_cases hdeprecated : entry.isDeprecated = true
          · rw [if_pos hdeprecated, Entry.verdict, if_pos hdeprecated]
            exact .deprecated
          · rw [if_neg hdeprecated, hkey, hparse]
            exact .of_entry entry _

end Corresponds

-- ── Loading ──

theorem Tree.records_eq_nil {files : FileTree} {modelsPath : Path}
    (h : ¬ files.isDirectory modelsPath = true) : records files modelsPath = [] := by
  rw [records]
  cases hlocate : files.locate modelsPath with
  | error fault => rfl
  | ok base =>
      have hbase : files.node? base ≠ some .directory := by
        intro hdirectory
        refine h ?_
        rw [FileTree.isDirectory, FileTree.find_eq_ok.2 ⟨base, hlocate, hdirectory⟩]
      dsimp only
      rw [FileTree.walk_eq_nil hbase]
      rfl

section Loading

variable {files : FileTree} {root path : Path} {id : String} {folder? : Option String}
  {document : Document} {record : ProviderRecord}

/-- A tree gathers the verdicts on its records, also if it has no directory of models: then there
    are none, and nothing comes of it. -/
theorem Corresponds.load_tree {info : ProviderInfo}
    (h : Corresponds files (path.child "models") record.models)
    (hpath : Tree.providerPath files root id folder? = .ok path)
    (hinfo : Tree.readInfo files path = .ok info) :
    Tree.load files root id folder? = ProviderModels.gather id info
      ((Tree.records files (path.child "models")).map fun r =>
        Tree.recordVerdict files (path.child "models") r.1 r.2) := by
  rw [← h.verdicts_eq, Tree.load, hpath, ok_bind, hinfo, ok_bind]
  dsimp only
  by_cases hdirectory : files.isDirectory (path.child "models") = true
  · rw [if_neg (by simp [hdirectory])]
  · rw [if_pos (by simp [hdirectory]), h.verdicts_eq, Tree.records_eq_nil hdirectory]
    rfl

theorem Document.load_eq_gather (hrecord : document.providers.get? id = some record) :
    document.load id = ProviderModels.gather id record.info
      (record.models.toList.map fun (key, v) => Document.verdict id key v) := by
  rw [Document.load, Document.provider, hrecord]
  rfl

/-- **THE TWO LOADERS AGREE.**  A provider whose models correspond in a tree and in a document is
    loaded alike from both: with the same metadata and the same models in the same order, and with
    reports on the same records, or with nothing, or not at all as two models collide. -/
theorem loads_agree (hpath : Tree.providerPath files root id folder? = .ok path)
    (hinfo : Tree.readInfo files path = .ok record.info)
    (hrecord : document.providers.get? id = some record)
    (h : Corresponds files (path.child "models") record.models) :
    LoadedAlike files (path.child "models") id
      ((Catalog.tree root).load files id folder?)
      ((Catalog.document document).load files id folder?) := by
  rw [Catalog.load, Catalog.load, h.load_tree hpath hinfo, Document.load_eq_gather hrecord]
  have halike := fun r hr => h.alike id (r := r) hr
  have hfatal := fatal_notMem_map halike
  -- the document has the verdicts on the records in another order
  have hperm : (record.models.toList.map fun (key, v) => Document.verdict id key v).Perm
      ((Tree.records files (path.child "models")).map fun r =>
        Document.verdict id (Tree.recordKey r.1) (Corresponds.value record.models r)) := by
    have hvalues := h.perm_values.map fun x : String × Json => Document.verdict id x.1 x.2
    rw [List.map_map] at hvalues
    exact hvalues
  have hmodels := (List.Perm.of_eq (modelsOf_map_eq halike)).trans (hperm.symm.filterMap _)
  rcases gather_alike (fun error => (hfatal error).1)
    (fun error hmem => (hfatal error).2 (hperm.subset hmem)) hmodels with
    ⟨p, q, hp, hq, hgathered, hgathered', hsame⟩ | ⟨hp, hq⟩ | ⟨⟨a, b, t, hp⟩, ⟨a', b', t', hq⟩⟩
  · rw [hp, hq]
    obtain ⟨left, hleft, hskipped, hskipped'⟩ := exists_skipped halike
    refine .models ⟨hgathered.providerId, hgathered'.providerId⟩
      (hgathered.info.trans hgathered'.info.symm) hsame ⟨left, hleft, ?_, ?_⟩
    · rw [hgathered.skipped, hskipped]
    · rw [hgathered'.skipped, ← hskipped']
      exact (hperm.filterMap _).map _
  · rw [hp, hq]
    exact .nothing
  · rw [hp, hq]
    exact .collision a b t a' b' t'

end Loading

-- ── Two records ──

/-- A tree with two records of one provider, the second of which is no entry. -/
def recordTree : FileTree :=
  ⟨[(["providers"], .directory), (["providers", "p"], .directory),
    (["providers", "p", "models"], .directory),
    (["providers", "p", "models", "a.json"], .file "{}".toUTF8),
    (["providers", "p", "models", "f"], .directory),
    (["providers", "p", "models", "f", "b.toml"], .file "=".toUTF8)], by decide⟩

/-- The same provider in a document. -/
def recordOfTree : ProviderRecord :=
  ⟨"p", {}, ⟨[("a", .object []), ("f/b", .null)], by decide⟩⟩

theorem walk_recordTree : recordTree.walk ["providers", "p", "models"]
    = ([(["a.json"], .file "{}".toUTF8), (["f"], .directory),
      (["f", "b.toml"], .file "=".toUTF8)] : List (Location × Node)) := by
  rw [FileTree.walk]
  exact List.mergeSort_of_pairwise (by decide +kernel)

theorem records_recordTree : Tree.records recordTree ⟨"providers/p/models"⟩
    = ([(["a.json"], .json), (["f", "b.toml"], .toml)] : List (Location × Tree.Format)) := by
  show (recordTree.walk ["providers", "p", "models"]).filterMap Tree.record? = _
  rw [walk_recordTree]
  rfl

theorem corresponds_recordTree :
    Corresponds recordTree ⟨"providers/p/models"⟩ recordOfTree.models where
  readable base way hbase hway := by
    obtain rfl : (["providers", "p", "models"] : Location) = base := Except.ok.inj hbase
    rw [walk_recordTree] at hway
    obtain rfl : way = (["f"] : Location) := by simpa using hway
    exact ⟨.directory, rfl⟩
  texts := by
    rw [records_recordTree]
    decide +kernel
  shallow := by
    rw [records_recordTree]
    decide
  distinct := by
    rw [records_recordTree]
    decide
  keys key := by
    rw [records_recordTree]
    exact Iff.rfl
  entries r hr value hvalue := by
    rw [records_recordTree, List.mem_pair] at hr
    rcases hr with rfl | rfl
    · change ("a", value) ∈ recordOfTree.models.toList at hvalue
      obtain rfl : value = .object [] := by simpa [recordOfTree] using hvalue
      decide +kernel
    · change ("f/b", value) ∈ recordOfTree.models.toList at hvalue
      obtain rfl : value = .null := by simpa [recordOfTree] using hvalue
      decide +kernel

/-- The two are loaded alike, with one model and one report each. -/
theorem loads_agree_recordTree :
    LoadedAlike recordTree ⟨"providers/p/models"⟩ "p"
      ((Catalog.tree ⟨""⟩).load recordTree "p" none)
      ((Catalog.document ⟨⟨[recordOfTree], by decide⟩⟩).load recordTree "p" none) := by
  have hpath : Tree.providerPath recordTree ⟨""⟩ "p" none = .ok ⟨"providers/p"⟩ := rfl
  have hinfo : Tree.readInfo recordTree ⟨"providers/p"⟩ = .ok recordOfTree.info := rfl
  exact loads_agree hpath hinfo rfl corresponds_recordTree

end ModelCatalog
