import ModelCatalog.Proofs.FileTree.Walking
import ModelCatalog.Proofs.Models.Constructors
import ModelCatalog.Proofs.Models.Loaders

/-! # What becomes of every record of a tree

    Loading a provider from a tree accounts for every record below its directory of models.  How deep
    a record lies is read off the texts on the way to it, and names that are no texts are passed over:
    so a record can lie deeper than it seems (`deepRecord_loads`), and only where all names are texts
    is its depth the length of the way.  A record that lies too deep ends the loading whatever it
    holds, unless two records before it clash; otherwise each record is of one kind (`exists_kind`),
    and the kinds decide what comes of the whole: a model for each that has names, a report for each
    that cannot be read or named, and nothing for the deprecated ones.  `load_accounts` says so, with
    what the records are and in which order they come (`mem_records_iff`, `pairwise_records`). -/

namespace ModelCatalog.Tree

-- ── Records ──

/-- A way below a directory of models leads to a regular file of a known format. -/
def IsRecord (files : FileTree) (modelsPath : Path) (way : Location) (format : Format) : Prop :=
  ∃ base content name, files.locate modelsPath = .ok base ∧ way ≠ [] ∧ way.isDown = true ∧
    files.node? (base ++ way) = some (.file content) ∧ way.getLast? = some name ∧
    Format.ofName? name = some format

theorem mem_records_iff {files : FileTree} {modelsPath : Path} {way : Location} {format : Format} :
    (way, format) ∈ records files modelsPath ↔ IsRecord files modelsPath way format := by
  rw [records, IsRecord]
  cases hlocate : files.locate modelsPath with
  | error fault =>
      refine iff_of_false (fun h => by cases h) ?_
      rintro ⟨base, _, _, hbase, -⟩
      cases hbase
  | ok base =>
      dsimp only
      rw [List.mem_filterMap]
      constructor
      · rintro ⟨⟨way', n⟩, hmem, hrecord⟩
        cases n with
        | directory => cases hrecord
        | file content =>
            simp only [record?, Option.bind_eq_bind, Option.bind_eq_some_iff] at hrecord
            obtain ⟨name, hlast, format', hformat, hsame⟩ := hrecord
            obtain ⟨rfl, rfl⟩ := Prod.mk.inj (Option.some.inj hsame)
            obtain ⟨hnode, hway, hdown⟩ := FileTree.mem_walk_iff_node?.1 hmem
            exact ⟨base, content, name, rfl, hway, hdown, hnode, hlast, hformat⟩
      · rintro ⟨base', content, name, hbase, hway, hdown, hnode, hlast, hformat⟩
        obtain rfl : base = base' := Except.ok.inj hbase
        refine ⟨(way, .file content), FileTree.mem_walk_iff_node?.2 ⟨hnode, hway, hdown⟩, ?_⟩
        simp [record?, hlast, hformat]

/-- The records come in the order of the walk, and each comes once. -/
theorem pairwise_records (files : FileTree) (modelsPath : Path) :
    (records files modelsPath).Pairwise fun a b => a.1.Before b.1 := by
  rw [records]
  cases files.locate modelsPath with
  | error fault => exact .nil
  | ok base =>
      dsimp only
      rw [List.pairwise_filterMap]
      refine (FileTree.pairwise_walk files base).imp ?_
      have hway : ∀ {x r}, record? x = some r → r.1 = x.1 := by
        rintro ⟨way, n⟩ r h
        cases n with
        | directory => cases h
        | file content =>
            simp only [record?, Option.bind_eq_bind, Option.bind_eq_some_iff] at h
            obtain ⟨_, -, _, -, hr⟩ := h
            rw [← Option.some.inj hr]
      intro x y hxy r hr s hs
      rw [hway hr, hway hs]
      exact hxy

-- ── Depth ──

/-- The texts on a way are none, or more than those of a folder and a name. -/
def IsTooDeep (way : Location) : Prop := segments way = [] ∨ 2 < (segments way).length

instance (way : Location) : Decidable (IsTooDeep way) := inferInstanceAs (Decidable (_ ∨ _))

theorem recordFolder?_of_isTooDeep {way : Location} (h : IsTooDeep way) :
    recordFolder? way = none := by
  rw [recordFolder?]
  rcases hsegments : segments way with _ | ⟨first, _ | ⟨second, _ | ⟨third, rest⟩⟩⟩
  · rfl
  · simp [IsTooDeep, hsegments] at h
  · simp [IsTooDeep, hsegments] at h
  · rfl

theorem exists_recordFolder {way : Location} (h : ¬ IsTooDeep way) :
    ∃ folder?, recordFolder? way = some folder? := by
  rw [recordFolder?]
  rcases hsegments : segments way with _ | ⟨first, _ | ⟨second, _ | ⟨third, rest⟩⟩⟩
  · exact absurd (Or.inl hsegments) h
  · exact ⟨none, rfl⟩
  · exact ⟨some first, rfl⟩
  · exact absurd (Or.inr (by simp [hsegments])) h

/-- Texts on a way all count. -/
theorem isTooDeep_texts {texts : List String} (h : texts ≠ []) :
    IsTooDeep (texts.map RawText.ofString) ↔ 2 < (texts.map RawText.ofString).length := by
  rw [IsTooDeep, segments, RawText.filterMap_text?, List.length_map, or_iff_right h]

-- ── Kinds ──

/-- What a record is to its provider. -/
inductive RecordKind where
  | nameless
  | undecodable (reason : SkipReason)
  | deprecated
  | unnamed (id : ModelId) (fault : IdFault)
  | named (model : Model)

namespace RecordKind

def model? : RecordKind → Option Model
  | .named model => some model
  | _ => none

/-- Why a record is reported. -/
def reason? : RecordKind → Option SkipReason
  | .nameless => some .nameNotText
  | .undecodable reason => some reason
  | .unnamed id fault => some (.invalidModelId id.text fault)
  | _ => none

end RecordKind

/-- A record is of a kind: by whether its name is a text, by whether its file can be read as an entry,
    by the status of the entry, and by whether names can be made of its id. -/
inductive IsOf (files : FileTree) (modelsPath : Path) (r : Location × Format) : RecordKind → Prop
  | nameless (hbase : recordBase? r.1 = none) : IsOf files modelsPath r .nameless
  | undecodable {id : ModelId} {reason : SkipReason} (hid : recordId? r.1 = some id)
      (hread : readEntry files (recordPath modelsPath r.1) r.2 = .error reason) :
      IsOf files modelsPath r (.undecodable reason)
  | deprecated {id : ModelId} {e : Entry} (hid : recordId? r.1 = some id)
      (hread : readEntry files (recordPath modelsPath r.1) r.2 = .ok e)
      (hstatus : e.isDeprecated = true) : IsOf files modelsPath r .deprecated
  | unnamed {id : ModelId} {e : Entry} {fault : IdFault} (hid : recordId? r.1 = some id)
      (hread : readEntry files (recordPath modelsPath r.1) r.2 = .ok e)
      (hstatus : e.isDeprecated = false) (hnames : id.names = .error fault) :
      IsOf files modelsPath r (.unnamed id fault)
  | named {id : ModelId} {e : Entry} {names : ModelNames} {sent : String}
      (hid : recordId? r.1 = some id)
      (hread : readEntry files (recordPath modelsPath r.1) r.2 = .ok e)
      (hstatus : e.isDeprecated = false) (hnames : id.names = .ok names)
      (hsent : e.modelName.getD id.text = sent) :
      IsOf files modelsPath r (.named ⟨sent, names.typeName, names.constructorName,
        e.name.getD sent, e.capabilities⟩)

/-- The report on a record of a kind. -/
def report? (modelsPath : Path) (r : Location × Format) (kind : RecordKind) : Option Skipped :=
  kind.reason?.map fun reason => ⟨(recordPath modelsPath r.1).text, reason⟩

section Kinds

variable {files : FileTree} {modelsPath : Path} {r : Location × Format}

theorem recordBase?_of_recordId? {way : Location} {id : ModelId} (h : recordId? way = some id) :
    recordBase? way = some id.base := by
  simp only [recordId?, Option.bind_eq_bind, Option.bind_eq_some_iff] at h
  obtain ⟨_, -, base, hbase, hid⟩ := h
  rw [hbase, ← Option.some.inj hid]

/-- A record with an id is not nameless. -/
theorem not_nameless {id : ModelId} (hid : recordId? r.1 = some id)
    (hbase : recordBase? r.1 = none) : False := by
  cases (recordBase?_of_recordId? hid).symm.trans hbase

/-- No record is of two kinds. -/
theorem IsOf.eq {kind other : RecordKind} (h : IsOf files modelsPath r kind)
    (h' : IsOf files modelsPath r other) : kind = other := by
  cases h with
  | nameless hbase =>
      cases h' with
      | nameless _ => rfl
      | undecodable hid _ => exact (not_nameless hid hbase).elim
      | deprecated hid _ _ => exact (not_nameless hid hbase).elim
      | unnamed hid _ _ _ => exact (not_nameless hid hbase).elim
      | named hid _ _ _ _ => exact (not_nameless hid hbase).elim
  | undecodable hid hread =>
      cases h' with
      | nameless hbase => exact (not_nameless hid hbase).elim
      | undecodable _ hread' =>
          cases hread.symm.trans hread'
          rfl
      | deprecated _ hread' _ => cases hread.symm.trans hread'
      | unnamed _ hread' _ _ => cases hread.symm.trans hread'
      | named _ hread' _ _ _ => cases hread.symm.trans hread'
  | deprecated hid hread hstatus =>
      cases h' with
      | nameless hbase => exact (not_nameless hid hbase).elim
      | undecodable _ hread' => cases hread.symm.trans hread'
      | deprecated _ _ _ => rfl
      | unnamed _ hread' hstatus' _ =>
          cases hread.symm.trans hread'
          cases hstatus.symm.trans hstatus'
      | named _ hread' hstatus' _ _ =>
          cases hread.symm.trans hread'
          cases hstatus.symm.trans hstatus'
  | unnamed hid hread hstatus hnames =>
      cases h' with
      | nameless hbase => exact (not_nameless hid hbase).elim
      | undecodable _ hread' => cases hread.symm.trans hread'
      | deprecated _ hread' hstatus' =>
          cases hread.symm.trans hread'
          cases hstatus.symm.trans hstatus'
      | unnamed hid' _ _ hnames' =>
          cases hid.symm.trans hid'
          cases hnames.symm.trans hnames'
          rfl
      | named hid' _ _ hnames' _ =>
          cases hid.symm.trans hid'
          cases hnames.symm.trans hnames'
  | named hid hread hstatus hnames hsent =>
      cases h' with
      | nameless hbase => exact (not_nameless hid hbase).elim
      | undecodable _ hread' => cases hread.symm.trans hread'
      | deprecated _ hread' hstatus' =>
          cases hread.symm.trans hread'
          cases hstatus.symm.trans hstatus'
      | unnamed hid' _ _ hnames' =>
          cases hid.symm.trans hid'
          cases hnames.symm.trans hnames'
      | named hid' hread' _ hnames' hsent' =>
          cases hread.symm.trans hread'
          cases hid.symm.trans hid'
          cases hnames.symm.trans hnames'
          rw [← hsent, ← hsent']

/-- **A record that is not too deep is of a kind**, and the verdict on it says what the kind does. -/
theorem exists_kind (hshallow : ¬ IsTooDeep r.1) :
    ∃ kind, IsOf files modelsPath r kind ∧
      (recordVerdict files modelsPath r.1 r.2).model? = kind.model? ∧
      (recordVerdict files modelsPath r.1 r.2).skipped? = report? modelsPath r kind ∧
      ∀ error, recordVerdict files modelsPath r.1 r.2 ≠ .fatal error := by
  obtain ⟨folder?, hfolder⟩ := exists_recordFolder hshallow
  rw [recordVerdict, hfolder]
  cases hbase : recordBase? r.1 with
  | none => exact ⟨_, .nameless hbase, rfl, rfl, fun _ h => by cases h⟩
  | some base =>
      have hid : recordId? r.1 = some ⟨folder?, base⟩ := by
        rw [recordId?, hfolder, hbase]
        rfl
      dsimp only
      rw [fileVerdict]
      cases hread : readEntry files (recordPath modelsPath r.1) r.2 with
      | error reason => exact ⟨_, .undecodable hid hread, rfl, rfl, fun _ h => by cases h⟩
      | ok e =>
          dsimp only
          rw [Entry.verdict]
          by_cases hdeprecated : e.isDeprecated = true
          · rw [if_pos hdeprecated]
            exact ⟨_, .deprecated hid hread hdeprecated, rfl, rfl, fun _ h => by cases h⟩
          · rw [if_neg hdeprecated, Entry.model]
            have hstatus : e.isDeprecated = false := by simpa using hdeprecated
            cases hnames : (⟨folder?, base⟩ : ModelId).names with
            | error fault =>
                exact ⟨_, .unnamed hid hread hstatus hnames, rfl, rfl, fun _ h => by cases h⟩
            | ok names =>
                exact ⟨_, .named hid hread hstatus hnames rfl, rfl, rfl, fun _ h => by cases h⟩

/-- The kinds of records that are not too deep, with the verdicts on them. -/
theorem exists_kinds {part : List (Location × Format)} (hshallow : ∀ r ∈ part, ¬ IsTooDeep r.1) :
    ∃ kinds, List.Forall₂ (IsOf files modelsPath) part kinds ∧
      modelsOf (part.map fun r => recordVerdict files modelsPath r.1 r.2)
        = kinds.filterMap RecordKind.model? ∧
      skippedOf (part.map fun r => recordVerdict files modelsPath r.1 r.2)
        = (part.zip kinds).filterMap (fun x => report? modelsPath x.1 x.2) ∧
      ∀ error, .fatal error ∉ part.map fun r => recordVerdict files modelsPath r.1 r.2 := by
  induction part with
  | nil => exact ⟨[], .nil, rfl, rfl, fun _ h => by cases h⟩
  | cons r rest ih =>
      obtain ⟨kinds, hkinds, hmodels, hskipped, hfatal⟩ :=
        ih fun s hs => hshallow s (List.mem_cons_of_mem _ hs)
      obtain ⟨kind, hkind, hmodel, hreport, hnot⟩ :=
        exists_kind (hshallow r List.mem_cons_self)
      refine ⟨kind :: kinds, .cons hkind hkinds, ?_, ?_, ?_⟩
      · rw [List.map_cons, modelsOf, List.filterMap_cons, List.filterMap_cons, hmodel, ← modelsOf,
          hmodels]
      · rw [List.map_cons, skippedOf, List.filterMap_cons, hreport, ← skippedOf, hskipped,
          List.zip_cons_cons, List.filterMap_cons]
      · intro error hmem
        rcases List.mem_cons.1 hmem with heq | hmem
        · exact hnot error heq.symm
        · exact hfatal error hmem

/-- Where all names are texts, depth is what it seems, and no record is nameless. -/
theorem depth_of_texts (hr : r ∈ records files modelsPath)
    (htexts : ∀ name ∈ r.1, name.isText = true) :
    (IsTooDeep r.1 ↔ 2 < r.1.length) ∧ ¬ IsOf files modelsPath r .nameless := by
  obtain ⟨texts, base, hway, hsome, -, hbase, -⟩ := exists_texts_of_record hr htexts
  refine ⟨?_, fun hkind => ?_⟩
  · rw [hway]
    exact isTooDeep_texts hsome
  · cases hkind with
    | nameless hnone => cases hbase.symm.trans hnone

end Kinds

-- ── Loading ──

/-- A result accounts for every record below a directory of models.  If one lies too deep, the first
    that does ends it, or a clash before that one; otherwise the kinds of all records decide.  Where
    the names on the way to a record are texts, it lies too deep if the way has more than a folder
    and a name. -/
structure AccountsForRecords (files : FileTree) (modelsPath : Path) (id : String)
    (info : ProviderInfo) (result : Except Error ProviderModels) : Prop where
  areRecords : ∀ way format,
    (way, format) ∈ records files modelsPath ↔ IsRecord files modelsPath way format
  inOrder : (records files modelsPath).Pairwise fun a b => a.1.Before b.1
  depth : ∀ r ∈ records files modelsPath, (∀ name ∈ r.1, name.isText = true) →
    (IsTooDeep r.1 ↔ 2 < r.1.length) ∧ ¬ IsOf files modelsPath r .nameless
  kind : ∀ r ∈ records files modelsPath, ¬ IsTooDeep r.1 → ∃! kind, IsOf files modelsPath r kind
  deep : (∃ r ∈ records files modelsPath, IsTooDeep r.1) → ∃ before r after kinds,
    records files modelsPath = before ++ r :: after ∧ (∀ s ∈ before, ¬ IsTooDeep s.1) ∧
      IsTooDeep r.1 ∧ List.Forall₂ (IsOf files modelsPath) before kinds ∧
      (HaveDistinctTypes (kinds.filterMap RecordKind.model?) ∧
          result = .error (.nestingTooDeep (.ofPieces r.1)) ∨
        ∃ first second, IsFirstClash (kinds.filterMap RecordKind.model?) first second ∧
          result = .error (.collision id first.id second.id second.typeName))
  shallow : (∀ r ∈ records files modelsPath, ¬ IsTooDeep r.1) → ∃ kinds,
    List.Forall₂ (IsOf files modelsPath) (records files modelsPath) kinds ∧
      Accounts id info (kinds.filterMap RecordKind.model?)
        (((records files modelsPath).zip kinds).filterMap fun x => report? modelsPath x.1 x.2) result

section Loading

variable {files : FileTree} {root path : Path} {id : String} {folder? : Option String}
  {info : ProviderInfo}

/-- A tree gathers the verdicts on its records, if it has a directory of models. -/
theorem load_eq_gather (hpath : providerPath files root id folder? = .ok path)
    (hinfo : readInfo files path = .ok info)
    (hmodels : files.isDirectory (path.child "models") = true)
    (henter : CanBeEntered files (path.child "models")) :
    load files root id folder? = ProviderModels.gather id info
      ((records files (path.child "models")).map fun r =>
        recordVerdict files (path.child "models") r.1 r.2) := by
  rw [← verdicts_eq_map henter, load, hpath, ok_bind, hinfo, ok_bind]
  dsimp only
  rw [if_neg (by simp [hmodels])]

theorem recordVerdict_of_deep {modelsPath : Path} {r : Location × Format} (h : IsTooDeep r.1) :
    recordVerdict files modelsPath r.1 r.2 = .fatal (.nestingTooDeep (.ofPieces r.1)) := by
  rw [recordVerdict, recordFolder?_of_isTooDeep h]

/-- The first record that lies too deep, if one does. -/
theorem exists_firstDeep {all : List (Location × Format)} (h : ∃ r ∈ all, IsTooDeep r.1) :
    ∃ before r after, all = before ++ r :: after ∧ (∀ s ∈ before, ¬ IsTooDeep s.1) ∧
      IsTooDeep r.1 := by
  obtain ⟨r, hr, hdeep⟩ := h
  cases hfind : all.find? (fun s => decide (IsTooDeep s.1)) with
  | none => exact absurd (decide_eq_true hdeep) (List.find?_eq_none.1 hfind r hr)
  | some first =>
      obtain ⟨hfirst, before, after, hall, hbefore⟩ := List.find?_eq_some_iff_append.1 hfind
      refine ⟨before, first, after, hall, fun s hs => ?_, of_decide_eq_true hfirst⟩
      simpa using hbefore s hs

/-- **EVERY RECORD IS ACCOUNTED FOR.**  If the directory of a provider exists, its metadata can be
    read, and every directory of its models can be entered, then loading it accounts for all of its
    records. -/
theorem load_accounts (hpath : providerPath files root id folder? = .ok path)
    (hinfo : readInfo files path = .ok info)
    (hmodels : files.isDirectory (path.child "models") = true)
    (henter : CanBeEntered files (path.child "models")) :
    AccountsForRecords files (path.child "models") id info (load files root id folder?) := by
  have hload := load_eq_gather hpath hinfo hmodels henter
  refine ⟨fun _ _ => mem_records_iff, pairwise_records _ _, fun _ hr htexts => depth_of_texts hr htexts,
    fun r _ hshallow => ?_, fun hdeep => ?_, fun hshallow => ?_⟩
  · obtain ⟨kind, hkind, -⟩ := exists_kind hshallow
    exact ⟨kind, hkind, fun other hother => hother.eq hkind⟩
  · obtain ⟨before, r, after, hrecords, hbefore, hr⟩ := exists_firstDeep hdeep
    obtain ⟨kinds, hkinds, hactive, -, hfatal⟩ := exists_kinds hbefore
    refine ⟨before, r, after, kinds, hrecords, hbefore, hr, hkinds, ?_⟩
    rw [hload, hrecords, List.map_append, List.map_cons, recordVerdict_of_deep hr]
    by_cases hdistinct : HaveDistinctTypes (kinds.filterMap RecordKind.model?)
    · exact Or.inl ⟨hdistinct, gather_of_fatal hfatal (hactive ▸ hdistinct)⟩
    · obtain ⟨first, second, hclash⟩ := exists_firstClash_iff.2 hdistinct
      exact Or.inr ⟨first, second, hclash, gather_of_firstClash hfatal (hactive ▸ hclash)⟩
  · obtain ⟨kinds, hkinds, hactive, hreports, hfatal⟩ := exists_kinds hshallow
    refine ⟨kinds, hkinds, ?_⟩
    rw [hload, ← hactive, ← hreports]
    exact accounts_gather hfatal

end Loading

-- ── One record of each kind ──

/-- A provider with a record of each kind, and a file that is none. -/
def everyKindTree : FileTree :=
  ⟨[(["providers"], .directory), (["providers", "p"], .directory),
    (["providers", "p", "models"], .directory),
    (["providers", "p", "models", "README.md"], .file "notes".toUTF8),
    (["providers", "p", "models", "a.toml"], .file "=".toUTF8),
    (["providers", "p", "models", "b.json"], .file "\x7b\"status\":\"deprecated\"\x7d".toUTF8),
    (["providers", "p", "models", "f"], .directory),
    (["providers", "p", "models", "f", "c.json"], .file "\x7b\x7d".toUTF8),
    (["providers", "p", "models", "f", ⟨[0xff]⟩ ++ ".json"], .file "\x7b\x7d".toUTF8),
    (["providers", "p", "models", "type.json"], .file "\x7b\x7d".toUTF8)], by decide⟩

/-- All five records of this provider are accounted for. -/
theorem load_accounts_everyKind :
    AccountsForRecords everyKindTree ⟨"providers/p/models"⟩ "p" {}
      (load everyKindTree ⟨""⟩ "p" none) := by
  have hpath : providerPath everyKindTree ⟨""⟩ "p" none = .ok ⟨"providers/p"⟩ := rfl
  have hinfo : readInfo everyKindTree ⟨"providers/p"⟩ = .ok {} := rfl
  have hmodels : everyKindTree.isDirectory ⟨"providers/p/models"⟩ = true := rfl
  refine load_accounts hpath hinfo hmodels ?_
  intro base way hbase hway
  obtain rfl : (["providers", "p", "models"] : Location) = base := Except.ok.inj hbase
  obtain ⟨hmem, hne, -⟩ := FileTree.mem_walk.1 hway
  obtain rfl : way = (["f"] : Location) := by simpa [everyKindTree, hne] using hmem
  exact ⟨.directory, rfl⟩

-- ── A deep record that loads ──

/-- A record two folders deep, of which the second is called by no text. -/
def folderNotText : FileTree :=
  ⟨[(["providers"], .directory), (["providers", "p"], .directory),
    (["providers", "p", "models"], .directory), (["providers", "p", "models", "x"], .directory),
    (["providers", "p", "models", "x", ⟨[0xff]⟩], .directory),
    (["providers", "p", "models", "x", ⟨[0xff]⟩, "b.toml"], .file "".toUTF8)], by decide⟩

theorem walk_folderNotText : folderNotText.walk ["providers", "p", "models"]
    = ([(["x"], .directory), (["x", ⟨[0xff]⟩], .directory),
      (["x", ⟨[0xff]⟩, "b.toml"], .file "".toUTF8)] : List (Location × Node)) := by
  rw [FileTree.walk]
  exact List.mergeSort_of_pairwise (by decide +kernel)

/-- The record of this provider is loaded as if it lay in the first folder. -/
theorem load_folderNotText : (load folderNotText ⟨""⟩ "p" none).map
    (fun models => models.models.toList.map (·.id)) = .ok ["x/b"] := by
  have hmodels : folderNotText.isDirectory ⟨"providers/p/models"⟩ = true := rfl
  have hverdicts : verdicts folderNotText ⟨"providers/p/models"⟩
      = [recordVerdict folderNotText ⟨"providers/p/models"⟩ ["x", ⟨[0xff]⟩, "b.toml"] .toml] := by
    show (folderNotText.walk ["providers", "p", "models"]).filterMap
      (verdict? folderNotText ⟨"providers/p/models"⟩) = _
    rw [walk_folderNotText]
    rfl
  have hload : load folderNotText ⟨""⟩ "p" none = ProviderModels.gather "p" {}
      [recordVerdict folderNotText ⟨"providers/p/models"⟩ ["x", ⟨[0xff]⟩, "b.toml"] .toml] := by
    rw [← hverdicts]
    rfl
  rw [hload]
  rfl

/-- A record that lies two folders deep can be loaded. -/
theorem deepRecord_loads :
    ¬ ∀ (files : FileTree) (root path : Path) (id : String) (folder? : Option String)
      (info : ProviderInfo) (r : Location × Format),
      providerPath files root id folder? = .ok path → readInfo files path = .ok info →
        files.isDirectory (path.child "models") = true →
        CanBeEntered files (path.child "models") → r ∈ records files (path.child "models") →
        2 < r.1.length → ∃ error, load files root id folder? = .error error := by
  intro hrefused
  have henter : CanBeEntered folderNotText ⟨"providers/p/models"⟩ := by
    intro base way hbase hway
    obtain rfl : (["providers", "p", "models"] : Location) = base := Except.ok.inj hbase
    rw [walk_folderNotText] at hway
    obtain rfl | rfl : way = (["x"] : Location) ∨ way = (["x", ⟨[0xff]⟩] : Location) := by
      simpa using hway
    · exact ⟨.directory, rfl⟩
    · exact ⟨.directory, rfl⟩
  have hr : ((["x", ⟨[0xff]⟩, "b.toml"] : Location), Format.toml)
      ∈ records folderNotText ⟨"providers/p/models"⟩ := by
    show _ ∈ (folderNotText.walk ["providers", "p", "models"]).filterMap record?
    rw [walk_folderNotText]
    exact List.mem_singleton.2 rfl
  obtain ⟨error, herror⟩ := hrefused folderNotText ⟨""⟩ ⟨"providers/p"⟩ "p" none {}
    ((["x", ⟨[0xff]⟩, "b.toml"] : Location), Format.toml) rfl rfl rfl henter hr (by decide)
  cases (congrArg (Except.map _) herror).symm.trans load_folderNotText

end ModelCatalog.Tree
