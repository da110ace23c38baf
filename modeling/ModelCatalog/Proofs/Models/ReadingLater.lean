import ModelCatalog.Proofs.FileTree.Developing
import ModelCatalog.Proofs.Models.Causes
import ModelCatalog.Proofs.Models.Rereading
import ModelCatalog.Proofs.Models.TreeLoading

/-! # Reading a catalog later

    A catalog tree can lie among the modules, and a run can write into it.  But generated files are
    no metadata and no records.  So while the tree develops, a provider that can still be read is read
    as before (`load_of_develops`): what is new can only keep it from being read, as a directory that
    stands where the metadata should or cannot be entered. -/

namespace ModelCatalog

-- ── Errors that stay errors ──

/-- A result is good enough: it is no error, or one that only means that there is nothing to
    generate. -/
def IsFine {α : Type} (result : Except Error α) : Prop :=
  ∀ error, result = .error error → error.isNothing = true

/-- Gathering fails if some verdict is fatal. -/
theorem foldlM_add_of_fatal {verdicts : List Verdict} {error : Error}
    (hfatal : .fatal error ∈ verdicts)
    (hhard : ∀ e, .fatal e ∈ verdicts → e.isNothing = false) (p : ProviderModels) :
    ∃ e, verdicts.foldlM ProviderModels.add p = .error e ∧ e.isNothing = false := by
  induction verdicts generalizing p with
  | nil => cases hfatal
  | cons v rest ih =>
      rw [List.foldlM_cons]
      have hnext : v ≠ .fatal error → ∀ q, ∃ e, rest.foldlM ProviderModels.add q = .error e ∧
          e.isNothing = false := fun hv =>
        ih ((List.mem_cons.1 hfatal).resolve_left (Ne.symm hv))
          fun e he => hhard e (List.mem_cons_of_mem _ he)
      cases v with
      | fatal e => exact ⟨e, rfl, hhard e List.mem_cons_self⟩
      | skipped s => exact hnext (fun h => by cases h) _
      | deprecated => exact hnext (fun h => by cases h) _
      | active model =>
          rw [ProviderModels.add, ProviderModels.insert]
          split
          · exact ⟨_, rfl, rfl⟩
          · exact hnext (fun h => by cases h) _

theorem fatal_notMem_of_isFine {providerId : String} {info : ProviderInfo} {verdicts : List Verdict}
    (hhard : ∀ e, .fatal e ∈ verdicts → e.isNothing = false)
    (h : IsFine (ProviderModels.gather providerId info verdicts)) (error : Error) :
    .fatal error ∉ verdicts := by
  intro hfatal
  obtain ⟨e, hrun, he⟩ := foldlM_add_of_fatal hfatal hhard { providerId, info }
  have hgather : ProviderModels.gather providerId info verdicts = .error e := by
    rw [ProviderModels.gather, hrun]
    rfl
  rw [h e hgather] at he
  cases he

namespace Tree

open FileTree

variable {p root path : Path} {tree later : FileTree} {id : String}

-- ── Metadata ──

/-- **Metadata that can be read later is the same as before.** -/
theorem readInfo_of_develops (h : Develops p tree later) (hdir : tree.isDirectory path = true)
    {info : ProviderInfo} (hinfo : readInfo later path = .ok info) :
    readInfo tree path = .ok info := by
  have hname : ∀ {l}, later.locate (path.child "provider.toml") = .ok l → ¬ l.IsGenerated := by
    intro l hl
    rw [← location_of_locate hl,
      location_child (by decide) (by decide) (by decide)]
    exact Location.not_isGenerated_concat fun kind => by cases kind <;> decide
  have hlocate : later.locate (path.child "provider.toml")
      = tree.locate (path.child "provider.toml") :=
    locate_child_congr (by decide) hdir (isDirectory_of_keeps h.keepsDirectories hdir)
  rw [readInfo] at hinfo
  split at hinfo
  · next fault hnone =>
    -- what is not found later was not there before
    rw [readInfo]
    split
    · exact hinfo
    · next n hn =>
      obtain ⟨l, hl, hnode⟩ := find_eq_ok.1 hn
      rw [← hlocate] at hl
      rw [find_eq_ok.2 ⟨l, hl, h.node?_of_some (hname hl) hnode⟩] at hnone
      cases hnone
  · next n hn =>
    obtain ⟨l, hl, hnode⟩ := find_eq_ok.1 hn
    cases n with
    | directory =>
        rw [readText, FileTree.read, hn] at hinfo
        cases hinfo
    | file content =>
        have hfind : tree.find (path.child "provider.toml") = .ok (.file content) :=
          find_eq_ok.2 ⟨l, hlocate ▸ hl, h.node?_of_file (hname hl) hnode⟩
        have hsame : later.find (path.child "provider.toml")
            = tree.find (path.child "provider.toml") := hn.trans hfind.symm
        rw [readInfo, hfind]
        rw [readText_congr hsame] at hinfo
        exact hinfo

-- ── Records ──

/-- No file with the extension of a record is a generated one. -/
theorem not_isGenerated_of_format {way base : Location} {name : RawText} {format : Format}
    (hlast : way.getLast? = some name) (hformat : Format.ofName? name = some format) :
    ¬ (base ++ way).IsGenerated := by
  rintro ⟨kind, hkind⟩
  rw [List.getLast?_append, hlast] at hkind
  have hnone : Format.ofName? kind.fileName = none := by cases kind <;> decide
  rw [Option.some.inj hkind, hnone] at hformat
  cases hformat

/-- Where no verdict is fatal, every directory can be entered. -/
theorem canBeEntered_of_verdicts {files : FileTree} {modelsPath : Path}
    (h : ∀ error, .fatal error ∉ verdicts files modelsPath) : CanBeEntered files modelsPath := by
  intro base way hbase hway
  cases hfind : files.find (recordPath modelsPath way) with
  | ok n => exact ⟨n, rfl⟩
  | error fault =>
      refine absurd ?_ (h (.notRead (recordPath modelsPath way) fault))
      rw [verdicts, hbase]
      refine List.mem_filterMap.2 ⟨(way, .directory), hway, ?_⟩
      rw [verdict?, hfind]

section Models

variable {modelsPath : Path} (h : Develops p tree later)
include h

/-- What a walk has found is found later by the same path, or still not, if it stands there. -/
theorem find_recordPath_congr {base way : Location} {n : Node}
    (hbase : tree.locate modelsPath = .ok base) (hway : (way, n) ∈ tree.walk base)
    (hlater : later.node? (base ++ way) = some n) :
    later.find (recordPath modelsPath way) = tree.find (recordPath modelsPath way) := by
  obtain ⟨hnode, -, -⟩ := mem_walk_iff_node?.1 hway
  obtain ⟨hrelative, hpieces, -⟩ := pieces_of_mem_walk hway
  have hnames := isName_of_mem_walk hway
  by_cases hsound : IsSound (recordPath modelsPath way)
  · have hfind : ∀ {t : FileTree}, t.locate modelsPath = .ok base →
        t.node? (base ++ way) = some n → t.find (recordPath modelsPath way) = .ok n := by
      intro t hlocate hn
      refine find_eq_ok.2 ⟨base ++ way, ?_, hn⟩
      have hjoin : t.locate (recordPath modelsPath way) = t.follow base (Path.ofPieces way).pieces :=
        locate_join hrelative hlocate hsound
      rw [hjoin, hpieces, follow_of_isName hnames hn]
    rw [hfind hbase hnode, hfind (locate_of_keeps h.keepsDirectories hbase) hlater]
  · rw [find, find, locate_of_not_isSound hsound tree later]
    cases hlocate : tree.locate (recordPath modelsPath way) with
    | error fault => rfl
    | ok l => exact absurd (locate_eq_ok.1 hlocate).1 hsound

/-- The same records are found later. -/
theorem records_of_develops (hdir : tree.isDirectory modelsPath = true) :
    records later modelsPath = records tree modelsPath := by
  obtain ⟨hlocate, -⟩ := isDirectory_eq_true.1 hdir
  have hlater : later.locate modelsPath = .ok (location modelsPath) :=
    locate_of_keeps h.keepsDirectories hlocate
  refine eq_of_pairwise_before (pairwise_records later modelsPath)
    (pairwise_records tree modelsPath) ?_
  rintro ⟨way, format⟩
  rw [mem_records_iff, mem_records_iff, IsRecord, IsRecord, hlocate, hlater]
  constructor
  · rintro ⟨base, content, name, hbase, hway, hdown, hnode, hlast, hformat⟩
    exact ⟨base, content, name, hbase, hway, hdown,
      h.node?_of_file (not_isGenerated_of_format hlast hformat) hnode, hlast, hformat⟩
  · rintro ⟨base, content, name, hbase, hway, hdown, hnode, hlast, hformat⟩
    exact ⟨base, content, name, hbase, hway, hdown,
      h.node?_of_some (not_isGenerated_of_format hlast hformat) hnode, hlast, hformat⟩

/-- **The verdicts are the same later**, as long as none of them is fatal then. -/
theorem verdicts_of_develops (hdir : tree.isDirectory modelsPath = true)
    (hfatal : ∀ error, .fatal error ∉ verdicts later modelsPath) :
    verdicts later modelsPath = verdicts tree modelsPath := by
  obtain ⟨base, hbase⟩ : ∃ base, tree.locate modelsPath = .ok base :=
    ⟨_, (isDirectory_eq_true.1 hdir).1⟩
  have hlater : later.locate modelsPath = .ok base := locate_of_keeps h.keepsDirectories hbase
  have henter := canBeEntered_of_verdicts hfatal
  have henter' : CanBeEntered tree modelsPath := by
    intro base' way hbase' hway
    obtain rfl : base = base' := Except.ok.inj (hbase.symm.trans hbase')
    obtain ⟨hnode, hne, hdown⟩ := mem_walk_iff_node?.1 hway
    have hnode' := h.keepsDirectories _ hnode
    rw [← find_recordPath_congr h hbase hway hnode']
    exact henter base way hlater (mem_walk_iff_node?.2 ⟨hnode', hne, hdown⟩)
  rw [verdicts_eq_map henter, verdicts_eq_map henter', records_of_develops h hdir]
  refine List.map_congr_left fun r hr => ?_
  obtain ⟨way, format⟩ := r
  obtain ⟨base', content, name, hbase', hne, hdown, hnode, hlast, hformat⟩ := mem_records_iff.1 hr
  obtain rfl : base = base' := Except.ok.inj (hbase.symm.trans hbase')
  exact recordVerdict_congr (find_recordPath_congr h hbase
    (mem_walk_iff_node?.2 ⟨hnode, hne, hdown⟩)
    (h.node?_of_some (not_isGenerated_of_format hlast hformat) hnode))

end Models

-- ── Providers ──

/-- Without a directory of models, none of the models is found later. -/
theorem records_of_not_isDirectory {modelsPath : Path} (h : Develops p tree later)
    (hlocate : later.locate modelsPath = tree.locate modelsPath)
    (hdir : tree.isDirectory modelsPath = false) : records later modelsPath = [] := by
  refine List.eq_nil_iff_forall_not_mem.2 ?_
  rintro ⟨way, format⟩ hrecord
  obtain ⟨base, content, name, hbase, hne, -, hnode, hlast, hformat⟩ := mem_records_iff.1 hrecord
  obtain ⟨first, rest, rfl⟩ := List.exists_cons_of_ne_nil hne
  obtain rfl : location modelsPath = base := location_of_locate hbase
  have hbefore := h.node?_of_file (not_isGenerated_of_format hlast hformat) hnode
  have hthere : tree.isDirectory modelsPath = true :=
    isDirectory_eq_true.2 ⟨hlocate ▸ hbase, node?_of_isAbove ⟨first, rest, rfl⟩ hbefore⟩
  rw [hdir] at hthere
  cases hthere

section Provider

variable (h : Develops p tree later)
  (hdir : tree.isDirectory ((providersPath root).child id) = true)
include h hdir

theorem info_of_develops {info : ProviderInfo} (hinfo : Tree.info later root id none = .ok info) :
    Tree.info tree root id none = .ok info := by
  have hlater := isDirectory_of_keeps h.keepsDirectories hdir
  rw [Tree.info, providerPath, Option.getD_none, if_pos hlater] at hinfo
  rw [Tree.info, providerPath, Option.getD_none, if_pos hdir]
  exact readInfo_of_develops h hdir hinfo

/-- **A provider that can be loaded later is loaded as before**, and so is one without models. -/
theorem load_of_develops (hfine : IsFine (load later root id none)) :
    load later root id none = load tree root id none := by
  have hpath : providerPath tree root id none = .ok ((providersPath root).child id) := by
    rw [providerPath, Option.getD_none, if_pos hdir]
  have hlater := isDirectory_of_keeps h.keepsDirectories hdir
  have hpath' : providerPath later root id none = .ok ((providersPath root).child id) := by
    rw [providerPath, Option.getD_none, if_pos hlater]
  rw [load_of_providerPath hpath'] at hfine ⊢
  rw [load_of_providerPath hpath]
  generalize (providersPath root).child id = path at hdir hlater hfine ⊢
  cases hinfo : readInfo later path with
  | error error =>
      rw [hinfo] at hfine
      have hhard := (isOfInfo_of_readInfo hinfo).isNothing
      rw [hfine error rfl] at hhard
      cases hhard
  | ok info =>
      rw [hinfo, ok_bind] at hfine
      rw [readInfo_of_develops h hdir hinfo, ok_bind, ok_bind]
      have hlocate : later.locate (path.child "models") = tree.locate (path.child "models") :=
        locate_child_congr (by decide) hdir hlater
      by_cases hmodels : tree.isDirectory (path.child "models") = true
      · have hmodels' := isDirectory_of_keeps h.keepsDirectories hmodels
        rw [if_pos hmodels'] at hfine
        rw [if_pos hmodels, if_pos hmodels', verdicts_of_develops h hmodels
          (fatal_notMem_of_isFine (fun _ h => (isOfRecord_of_mem_verdicts h).isNothing) hfine)]
      · rw [if_neg hmodels]
        by_cases hmodels' : later.isDirectory (path.child "models") = true
        · -- the directory is new, and there is no record in it
          rw [if_pos hmodels'] at hfine ⊢
          have henter := canBeEntered_of_verdicts
            (fatal_notMem_of_isFine (fun _ h => (isOfRecord_of_mem_verdicts h).isNothing) hfine)
          rw [verdicts_eq_map henter, records_of_not_isDirectory h hlocate (by simpa using hmodels)]
          rfl
        · rw [if_neg hmodels']

end Provider

-- ── New directories ──

/-- A model is read from a record. -/
theorem exists_record_of_active {files : FileTree} {modelsPath : Path} {model : Model}
    (h : .active model ∈ verdicts files modelsPath) : ∃ r, r ∈ records files modelsPath := by
  rw [verdicts] at h
  rw [records]
  cases hlocate : files.locate modelsPath with
  | error fault =>
      rw [hlocate] at h
      cases h
  | ok base =>
      rw [hlocate] at h
      obtain ⟨⟨way, n⟩, hmem, hverdict⟩ := List.mem_filterMap.1 h
      cases n with
      | directory =>
          rw [verdict?] at hverdict
          split at hverdict <;> cases hverdict
      | file content =>
          simp only [verdict?, Option.bind_eq_bind, Option.bind_eq_some_iff] at hverdict
          obtain ⟨name, hlast, format, hformat, -⟩ := hverdict
          refine ⟨(way, format), List.mem_filterMap.2 ⟨_, hmem, ?_⟩⟩
          simp [record?, hlast, hformat]

/-- **No models are in a directory that is new**, as nothing but modules is written. -/
theorem load_of_new (h : Develops p tree later)
    (hproviders : tree.isDirectory (providersPath root) = true) (hid : FileName.IsPiece id)
    (hnone : tree.isDirectory ((providersPath root).child id) = false) (models : ProviderModels) :
    load later root id none ≠ .ok models := by
  intro hload
  have hcatalog : (Catalog.tree root).load later id none = .ok models := hload
  obtain ⟨model, hmodel⟩ := List.exists_mem_of_length_pos (size_pos_of_load hcatalog)
  obtain ⟨hslash, hidle, hup⟩ := hid
  cases hpath : providerPath later root id none with
  | error error =>
      rw [load, hpath] at hload
      cases hload
  | ok path =>
      have hlater : later.isDirectory ((providersPath root).child id) = true ∧
          (providersPath root).child id = path := by
        rw [providerPath, Option.getD_none] at hpath
        split at hpath
        · next hdir => exact ⟨hdir, Except.ok.inj hpath⟩
        · cases hpath
      rw [load_of_providerPath hpath] at hload
      obtain ⟨info, -, hload⟩ := bind_eq_ok.1 hload
      split at hload
      · have hactive := (gathered_of_gather hload).models.subset hmodel
        obtain ⟨⟨way, format⟩, hrecord⟩ := exists_record_of_active (mem_modelsOf.1 hactive)
        obtain ⟨base, content, name, hbase, -, -, hnode, hlast, hformat⟩ := mem_records_iff.1 hrecord
        have hbefore := h.node?_of_file (not_isGenerated_of_format hlast hformat) hnode
        -- the record was there, and so was the directory of the provider
        obtain rfl : location (path.child "models") = base := location_of_locate hbase
        rw [← hlater.2, location_child (by decide) (by decide) (by decide), List.append_assoc]
          at hbefore
        have hdir : tree.node? (location ((providersPath root).child id)) = some .directory :=
          node?_of_isAbove ⟨_, _, rfl⟩ hbefore
        have hlocate := locate_child_congr hslash hproviders
          (isDirectory_of_keeps h.keepsDirectories hproviders)
        have hthere : tree.isDirectory ((providersPath root).child id) = true :=
          isDirectory_eq_true.2 ⟨hlocate ▸ (isDirectory_eq_true.1 hlater.1).1, hdir⟩
        rw [hnone] at hthere
        cases hthere
      · cases hload

end Tree

end ModelCatalog
