import Mathlib.Data.List.Nodup
import ModelCatalog.Proofs.Commit.AllOrNothing
import ModelCatalog.Proofs.Generation.Rendered

/-! # What later providers leave of earlier ones

    In a run over all providers, each batch is written over what those before have left.  A provider
    that fails leaves the files of the others alone, for what it has written over is brought back; a
    provider that succeeds leaves those alone that are of another module (`find_generate`).  But ids
    can share a module: `a-b` and `a.b` are both written to `a_b`, and the second takes the place of
    the first, which is listed as a success all the same (`run_overwrites`).

    The headline is `faithful_iff_distinctModules`: a summary can be relied on exactly if the
    providers that it lists have distinct modules. -/

namespace ModelCatalog.Generation

open FileTree Commit

-- ── What is listed, and what was rendered for it ──

/-- The files that are rendered for a provider. -/
def batchOf (tree : FileTree) (catalog : Catalog) (mode : Mode) (o : Options) (id : String) :
    List RenderedFile :=
  match rendered tree catalog mode o id with
  | .ok (_, batch) => batch
  | .error _ => []

/-- The providers that succeed in their turn, each with the files that were rendered for it then. -/
def successes (catalog : Catalog) (mode : Mode) (o : Options) (disk : String → Disk) :
    List String → FileTree → List (Outcome × List RenderedFile)
  | [], _ => []
  | id :: rest, tree =>
    match generate catalog mode o id tree (disk id) with
    | (after, .ok g) =>
      (g.outcome, batchOf tree catalog mode o id) :: successes catalog mode o disk rest after
    | (after, .error _) => successes catalog mode o disk rest after

/-- The providers that succeed in a run over all, each with what was rendered for it. -/
def runSuccesses (catalog : Catalog) (mode : Mode) (o : Options) (disk : String → Disk)
    (tree : FileTree) : List (Outcome × List RenderedFile) :=
  match selected tree catalog mode with
  | .ok ids => successes catalog mode o disk ids tree
  | .error _ => []

def Stands (tree : FileTree) (file : RenderedFile) : Prop :=
  tree.find file.path = .ok (.file file.content.toUTF8)

def moduleOf (outcome : Outcome) : String := Identifier.moduleName outcome.providerId

/-- What is listed can be relied on: the paths are those of what was rendered, each holds what was
    rendered for it, and none is listed twice. -/
structure Faithful (listed : List (Outcome × List RenderedFile)) (after : FileTree) : Prop where
  paths : ∀ x ∈ listed, x.1.paths = x.2.map (·.path)
  stands : ∀ x ∈ listed, ∀ file ∈ x.2, Stands after file
  apart : (listed.map (·.1)).Pairwise fun a b => ∀ path ∈ a.paths, path ∉ b.paths

-- ── One provider ──

section Step

variable {catalog : Catalog} {mode : Mode} {o : Options} {id : String} {tree after : FileTree}
  {disk : Disk}

/-- No two files of a provider stand at one location. -/
theorem RenderedFor.eq_of_location {batch : List RenderedFile} (h : RenderedFor mode o id batch)
    {file other : RenderedFile} (hfile : file ∈ batch) (hother : other ∈ batch)
    (hsame : location file.path = location other.path) : file = other := by
  rw [h.path file hfile, h.path other hother] at hsame
  have hkind : file.kind = other.kind := (filePath_inj h.valid h.valid hsame).2
  exact List.inj_on_of_nodup_map h.kinds hfile hother hkind

/-- A file at the location of one of another module is of that module, and has the same path. -/
theorem RenderedFor.eq_filePath {batch : List RenderedFile} (h : RenderedFor mode o id batch)
    {moduleName : String} {kind : FileKind} (hvalid : Identifier.isValid moduleName = true)
    {file : RenderedFile} (hfile : file ∈ batch)
    (hsame : location file.path = location (filePath o.providersPath moduleName kind)) :
    Identifier.moduleName id = moduleName ∧
      file.path = filePath o.providersPath moduleName kind := by
  have hpath := h.path file hfile
  rw [hpath] at hsame
  obtain ⟨hmodule, hkind⟩ := filePath_inj h.valid hvalid hsame
  exact ⟨hmodule, by rw [hpath, hmodule, hkind]⟩

/-- **What becomes of a provider**: nothing is rendered for it, or what is rendered is laid over a
    tree that has only grown, or it is taken back. -/
theorem generate_cases {result : Except Error Generated} (hdry : o.dryRun = false)
    (h : generate catalog mode o id tree disk = (after, result)) :
    (after = tree ∧ ∃ error, result = .error error) ∨
    RenderedFor mode o id (batchOf tree catalog mode o id) ∧
      ∃ made, GrowsBy (BatchPlaces (batchOf tree catalog mode o id)) tree made ∧
        ((∃ g, result = .ok g ∧ g.outcome.providerId = id ∧
          g.outcome.paths = (batchOf tree catalog mode o id).map (·.path) ∧
          Overlay made (batchOf tree catalog mode o id) after) ∨
        (∃ error, result = .error error) ∧
          TakenBack (batchOf tree catalog mode o id) tree made after) := by
  rw [batchOf]
  rw [generate] at h
  cases hrendered : rendered tree catalog mode o id with
  | error error =>
      rw [hrendered] at h
      obtain ⟨rfl, rfl⟩ := Prod.mk.inj h
      exact Or.inl ⟨rfl, error, rfl⟩
  | ok rendering =>
      obtain ⟨models, batch⟩ := rendering
      rw [hrendered] at h
      dsimp only at h ⊢
      rw [hdry] at h
      obtain ⟨made, hgrows, ⟨written, hcommit, hover⟩ | ⟨written, error, hcommit, hback⟩⟩ :=
        commit_spec batch tree disk
      · rw [hcommit] at h
        obtain ⟨rfl, rfl⟩ := Prod.mk.inj h
        exact Or.inr ⟨renderedFor_of_rendered hrendered, made, hgrows,
          Or.inl ⟨_, rfl, rfl, rfl, hover⟩⟩
      · rw [hcommit] at h
        obtain ⟨rfl, rfl⟩ := Prod.mk.inj h
        exact Or.inr ⟨renderedFor_of_rendered hrendered, made, hgrows,
          Or.inr ⟨⟨error, rfl⟩, hback⟩⟩

/-- **A provider that succeeds** lists what was rendered for it, and all of it stands. -/
theorem generate_ok_spec {g : Generated} (hdry : o.dryRun = false)
    (h : generate catalog mode o id tree disk = (after, .ok g)) :
    g.outcome.providerId = id ∧ RenderedFor mode o id (batchOf tree catalog mode o id) ∧
      g.outcome.paths = (batchOf tree catalog mode o id).map (·.path) ∧
      ∀ file ∈ batchOf tree catalog mode o id, Stands after file := by
  rcases generate_cases hdry h with
    ⟨-, error, herror⟩ | ⟨hbatch, made, -, ⟨g', hg, hid, hpaths, hover⟩ | ⟨⟨error, herror⟩, -⟩⟩
  · exact nomatch herror
  · obtain rfl : g = g' := Except.ok.inj hg
    refine ⟨hid, hbatch, hpaths, fun file hfile => ?_⟩
    obtain ⟨last, hlast, hat⟩ := exists_lastAt hfile
    obtain rfl : last = file := hbatch.eq_of_location hlast hfile (mem_of_lastAt hat).2
    refine find_eq_ok.2 ⟨location last.path, ?_, ?_⟩
    · exact hover.sameDirectories.locate_eq_ok_iff.2 (hover.writable last hfile).locate
    · rw [hover.node? (location last.path), hat]
  · exact nomatch herror

/-- **A provider leaves a file of a module alone**, unless it succeeds and puts another one there. -/
theorem find_generate_or {moduleName : String} {kind : FileKind} {content : ByteArray}
    {result : Except Error Generated} (hdry : o.dryRun = false)
    (hvalid : Identifier.isValid moduleName = true)
    (hfind : tree.find (filePath o.providersPath moduleName kind) = .ok (.file content))
    (h : generate catalog mode o id tree disk = (after, result)) :
    after.find (filePath o.providersPath moduleName kind) = .ok (.file content) ∨
      result.isOk = true ∧ ∃ file ∈ batchOf tree catalog mode o id,
        location file.path = location (filePath o.providersPath moduleName kind) := by
  obtain ⟨l, hlocate, hnode⟩ := find_eq_ok.1 hfind
  obtain rfl : location (filePath o.providersPath moduleName kind) = l :=
    location_of_locate hlocate
  rcases generate_cases hdry h with
    ⟨rfl, -⟩ | ⟨hbatch, made, hgrows, ⟨g, rfl, -, -, hover⟩ | ⟨-, hback⟩⟩
  · exact Or.inl hfind
  · rcases hover.node?_or (location (filePath o.providersPath moduleName kind)) with
      hsame | hfile
    · refine Or.inl (find_of_keeps
        (hgrows.keepsDirectories.trans hover.sameDirectories.keepsDirectories) hfind ?_)
      rw [hsame, hgrows.node?_of_some hnode, hnode]
    · exact Or.inr ⟨rfl, hfile⟩
  · refine Or.inl (find_of_keeps
      (hgrows.keepsDirectories.trans hback.sameDirectories.keepsDirectories) hfind ?_)
    -- what the batch has written over was found before by the same path
    have hrecorded : after.node? (location (filePath o.providersPath moduleName kind))
        = made.node? (location (filePath o.providersPath moduleName kind)) := by
      refine hback.node? _ fun file hfile hsame _ before hbefore => ?_
      rw [(hbatch.eq_filePath hvalid hfile hsame).2, hfind]
      rw [hnode] at hbefore
      exact congrArg Except.ok (Option.some.inj hbefore)
    rw [hrecorded, hgrows.node?_of_some hnode, hnode]

/-- **A provider leaves the files of other modules alone**, and those of its own if it fails. -/
theorem find_generate {moduleName : String} {kind : FileKind} {content : ByteArray}
    {result : Except Error Generated} (hdry : o.dryRun = false)
    (hvalid : Identifier.isValid moduleName = true)
    (hfind : tree.find (filePath o.providersPath moduleName kind) = .ok (.file content))
    (h : generate catalog mode o id tree disk = (after, result))
    (hother : result.isOk = true → Identifier.moduleName id ≠ moduleName) :
    after.find (filePath o.providersPath moduleName kind) = .ok (.file content) := by
  refine (find_generate_or hdry hvalid hfind h).resolve_right ?_
  rintro ⟨hok, file, hfile, hsame⟩
  cases result with
  | ok g =>
      obtain ⟨-, hbatch, -, -⟩ := generate_ok_spec hdry h
      exact hother hok (hbatch.eq_filePath hvalid hfile hsame).1
  | error error => cases hok

end Step

-- ── All providers ──

section Run

variable {catalog : Catalog} {mode : Mode} {o : Options} {disk : String → Disk}

theorem succeeded_visit (ids : List String) (tree : FileTree) (s : Summary) :
    (visit catalog mode o disk ids tree s).2.succeeded
      = s.succeeded ++ (successes catalog mode o disk ids tree).map (·.1) := by
  induction ids generalizing tree s with
  | nil => exact (List.append_nil _).symm
  | cons id rest ih =>
      rw [visit, successes]
      cases hgenerate : generate catalog mode o id tree (disk id) with
      | mk after result =>
          cases result with
          | ok g =>
              dsimp only
              rw [ih, List.map_cons]
              simp [record]
          | error error =>
              dsimp only
              rw [ih]
              rw [record]
              split <;> rfl

/-- What succeeded lists the files that were rendered for it. -/
theorem successes_spec (hdry : o.dryRun = false) (ids : List String) (tree : FileTree) :
    ∀ x ∈ successes catalog mode o disk ids tree,
      RenderedFor mode o x.1.providerId x.2 ∧ x.1.paths = x.2.map (·.path) := by
  induction ids generalizing tree with
  | nil =>
      intro x hx
      exact nomatch hx
  | cons id rest ih =>
      intro x hx
      rw [successes] at hx
      cases hgenerate : generate catalog mode o id tree (disk id) with
      | mk after result =>
          rw [hgenerate] at hx
          cases result with
          | ok g =>
              obtain ⟨hid, hbatch, hpaths, -⟩ := generate_ok_spec hdry hgenerate
              rcases List.mem_cons.1 hx with rfl | hx
              · exact ⟨hid ▸ hbatch, hpaths⟩
              · exact ih after x hx
          | error error => exact ih after x hx

/-- Something that succeeded has put a file at a location. -/
def Overwritten (listed : List (Outcome × List RenderedFile)) (l : Location) : Prop :=
  ∃ x ∈ listed, ∃ file ∈ x.2, location file.path = l

/-- A file of a module stays while providers are visited, unless one of them succeeds and puts another
    one there. -/
theorem find_visit_or {moduleName : String} {kind : FileKind} {content : ByteArray}
    (hdry : o.dryRun = false) (hvalid : Identifier.isValid moduleName = true) (ids : List String)
    (tree : FileTree) (s : Summary)
    (hfind : tree.find (filePath o.providersPath moduleName kind) = .ok (.file content)) :
    (visit catalog mode o disk ids tree s).1.find (filePath o.providersPath moduleName kind)
        = .ok (.file content) ∨
      Overwritten (successes catalog mode o disk ids tree)
        (location (filePath o.providersPath moduleName kind)) := by
  induction ids generalizing tree s with
  | nil => exact Or.inl hfind
  | cons id rest ih =>
      rw [visit, successes]
      cases hgenerate : generate catalog mode o id tree (disk id) with
      | mk after result =>
          dsimp only
          rcases find_generate_or hdry hvalid hfind hgenerate with hafter | ⟨hok, hfile⟩
          · cases result with
            | error error => exact ih after (record s id (.error error)) hafter
            | ok g =>
                refine (ih after (record s id (.ok g)) hafter).imp_right ?_
                rintro ⟨x, hx, hat⟩
                exact ⟨x, List.mem_cons_of_mem _ hx, hat⟩
          · cases result with
            | error error => cases hok
            | ok g => exact Or.inr ⟨_, List.mem_cons_self, hfile⟩

/-- A file stays while providers are visited of which none succeeds in its module. -/
theorem find_visit {moduleName : String} {kind : FileKind} {content : ByteArray}
    (hdry : o.dryRun = false) (hvalid : Identifier.isValid moduleName = true) (ids : List String)
    (tree : FileTree) (s : Summary)
    (hfind : tree.find (filePath o.providersPath moduleName kind) = .ok (.file content))
    (hothers : ∀ x ∈ successes catalog mode o disk ids tree, moduleOf x.1 ≠ moduleName) :
    (visit catalog mode o disk ids tree s).1.find (filePath o.providersPath moduleName kind)
      = .ok (.file content) := by
  refine (find_visit_or hdry hvalid ids tree s hfind).resolve_right ?_
  rintro ⟨x, hx, file, hfile, hsame⟩
  exact hothers x hx ((successes_spec hdry ids tree x hx).1.eq_filePath hvalid hfile hsame).1

/-- **What succeeded stands at the end**, if no two of the successes have one module. -/
theorem stands_visit (hdry : o.dryRun = false) (ids : List String) (tree : FileTree) (s : Summary)
    (hmodules : ((successes catalog mode o disk ids tree).map fun x => moduleOf x.1).Nodup) :
    ∀ x ∈ successes catalog mode o disk ids tree, ∀ file ∈ x.2,
      Stands (visit catalog mode o disk ids tree s).1 file := by
  induction ids generalizing tree s with
  | nil =>
      intro x hx
      exact nomatch hx
  | cons id rest ih =>
      intro x hx file hfile
      rw [successes] at hx hmodules
      rw [visit]
      cases hgenerate : generate catalog mode o id tree (disk id) with
      | mk after result =>
          rw [hgenerate] at hx hmodules
          dsimp only
          cases result with
          | error error => exact ih after _ hmodules x hx file hfile
          | ok g =>
              obtain ⟨hid, hbatch, -, hstands⟩ := generate_ok_spec hdry hgenerate
              obtain ⟨hhead, hrest⟩ := List.nodup_cons.1 hmodules
              rcases List.mem_cons.1 hx with rfl | hx
              · have hfind := hstands file hfile
                rw [Stands, hbatch.path file hfile] at hfind ⊢
                refine find_visit hdry hbatch.valid rest after _ hfind fun y hy hsame => hhead ?_
                have hmodule : moduleOf g.outcome = moduleOf y.1 := by
                  rw [hsame, moduleOf, hid]
                exact List.mem_map.2 ⟨y, hy, hmodule.symm⟩
              · exact ih after _ hrest x hx file hfile

/-- Providers that succeeded share a path exactly if they share a module. -/
theorem shares_path_iff {x y : Outcome × List RenderedFile}
    (hx : RenderedFor mode o x.1.providerId x.2 ∧ x.1.paths = x.2.map (·.path))
    (hy : RenderedFor mode o y.1.providerId y.2 ∧ y.1.paths = y.2.map (·.path)) :
    (∀ path ∈ x.1.paths, path ∉ y.1.paths) ↔ moduleOf x.1 ≠ moduleOf y.1 := by
  rw [hx.2, hy.2]
  constructor
  · intro hapart hsame
    obtain ⟨file, hfile, hkind⟩ := hx.1.main
    obtain ⟨other, hother, hkind'⟩ := hy.1.main
    refine hapart file.path (List.mem_map_of_mem hfile) (List.mem_map.2 ⟨other, hother, ?_⟩)
    rw [hx.1.path file hfile, hy.1.path other hother, hkind, hkind']
    rw [moduleOf, moduleOf] at hsame
    rw [hsame]
  · intro hdiffer path hpath hpath'
    obtain ⟨file, hfile, rfl⟩ := List.mem_map.1 hpath
    obtain ⟨other, hother, hsame⟩ := List.mem_map.1 hpath'
    rw [hx.1.path file hfile, hy.1.path other hother] at hsame
    exact hdiffer (filePath_inj hy.1.valid hx.1.valid (congrArg location hsame)).1.symm

theorem produce_all_eq_ok {tree after : FileTree} {s : Summary}
    (h : produce catalog .all mode o tree disk = (after, .ok s)) :
    ∃ ids, selected tree catalog mode = .ok ids ∧
      visit catalog mode o disk ids tree {} = (after, s) := by
  rw [produce] at h
  cases hids : selected tree catalog mode with
  | error error =>
      rw [hids] at h
      exact nomatch (Prod.mk.inj h).2
  | ok ids =>
      rw [hids] at h
      obtain ⟨hafter, hs⟩ := Prod.mk.inj h
      exact ⟨ids, rfl, Prod.ext hafter (Except.ok.inj hs)⟩

/-- What the summary of a run lists is what succeeded. -/
theorem map_runSuccesses {tree : FileTree} {s : Summary}
    (h : (produce catalog .all mode o tree disk).2 = .ok s) :
    (runSuccesses catalog mode o disk tree).map (·.1) = s.succeeded := by
  obtain ⟨ids, hids, hvisit⟩ := produce_all_eq_ok (Prod.ext rfl h)
  have hsucceeded : (visit catalog mode o disk ids tree {}).2.succeeded
      = [] ++ (successes catalog mode o disk ids tree).map (·.1) := succeeded_visit ids tree {}
  rw [hvisit, List.nil_append] at hsucceeded
  rw [runSuccesses, hids]
  exact hsucceeded.symm

/-- **RELIABLE EXACTLY IF APART.**  The summary of a run over all providers lists what succeeded, and
    every path that it lists holds what was rendered for its provider, no path being of two, exactly
    if the listed providers have distinct modules. -/
theorem faithful_iff_distinctModules {tree after : FileTree} {s : Summary} {formatter : Formatter}
    (hdry : o.dryRun = false) (hformat : o.format = false)
    (hrun : run catalog .all mode o tree disk formatter = (after, .ok s)) :
    (runSuccesses catalog mode o disk tree).map (·.1) = s.succeeded ∧
      (Faithful (runSuccesses catalog mode o disk tree) after ↔
        (s.succeeded.map moduleOf).Nodup) := by
  rw [run_of_not_format hformat] at hrun
  have hlisted := map_runSuccesses (congrArg Prod.snd hrun)
  refine ⟨hlisted, ?_⟩
  rw [← hlisted, List.map_map]
  obtain ⟨ids, hids, hvisit⟩ := produce_all_eq_ok hrun
  rw [runSuccesses, hids]
  have hspec : ∀ x ∈ successes catalog mode o disk ids tree,
      RenderedFor mode o x.1.providerId x.2 ∧ x.1.paths = x.2.map (·.path) :=
    successes_spec hdry ids tree
  constructor
  · intro h
    refine List.pairwise_map.2 ((List.pairwise_map.1 h.apart).imp_of_mem ?_)
    intro x y hx hy hapart
    exact (shares_path_iff (hspec x hx) (hspec y hy)).1 hapart
  · intro h
    have hstands := stands_visit hdry ids tree {} h
    rw [hvisit] at hstands
    refine ⟨fun x hx => (hspec x hx).2, hstands, ?_⟩
    refine List.pairwise_map.2 ((List.pairwise_map.1 h).imp_of_mem ?_)
    intro x y hx hy hdiffer
    exact (shares_path_iff (hspec x hx) (hspec y hy)).2 hdiffer

end Run

-- ── Two providers ──

/-- A document with two providers of one model each. -/
def twoProviders (second : String) (h : "a-b" < second) : Document :=
  ⟨⟨[⟨"a-b", {}, ⟨[("m", .object [])], by decide⟩⟩, ⟨second, {}, ⟨[("n", .object [])], by decide⟩⟩],
    List.pairwise_pair.2 h⟩⟩

/-- The settings of a run into `out`. -/
def intoOut : Options := { outputRoot := ⟨"out"⟩ }

/-- What a run over the two lists. -/
def listedPaths (second : String) (h : "a-b" < second) : Option (List (String × List Path)) :=
  (run (.document (twoProviders second h)) .all .capabilities intoOut .empty).2.toOption.map
    fun s => s.succeeded.map fun outcome => (outcome.providerId, outcome.paths)

/-- Ids of two modules can be relied on. -/
theorem faithful_iff_distinctModules_apart :
    ∃ after s, run (.document (twoProviders "c" (by decide))) .all .capabilities intoOut .empty
        = (after, .ok s) ∧ intoOut.dryRun = false ∧ intoOut.format = false ∧
      Faithful (runSuccesses (.document (twoProviders "c" (by decide))) .capabilities intoOut
        (fun _ => {}) .empty) after := by
  have hlisted : listedPaths "c" (by decide)
      = some [("a-b", [⟨"out/src/providers/a_b/capabilities.rs"⟩]),
        ("c", [⟨"out/src/providers/c/capabilities.rs"⟩])] := by decide +kernel
  rw [listedPaths] at hlisted
  cases hrun : run (.document (twoProviders "c" (by decide))) .all .capabilities intoOut .empty with
  | mk after result =>
      rw [hrun] at hlisted
      cases result with
      | error error => exact nomatch hlisted
      | ok s =>
          refine ⟨after, s, rfl, rfl, rfl, (faithful_iff_distinctModules rfl rfl hrun).2.2 ?_⟩
          have hids := congrArg (List.map fun x => Identifier.moduleName x.1)
            (Option.some.inj hlisted)
          rw [List.map_map] at hids
          rw [show s.succeeded.map moduleOf = _ from hids]
          decide

/-- **Ids of one module overwrite each other**: `a-b` and `a.b` are both listed with the file of the
    second. -/
theorem run_overwrites :
    ¬ ∀ (catalog : Catalog) (mode : Mode) (o : Options) (disk : String → Disk)
      (tree after : FileTree) (s : Summary), o.dryRun = false → o.format = false →
        run catalog .all mode o tree disk = (after, .ok s) →
          Faithful (runSuccesses catalog mode o disk tree) after := by
  intro hfaithful
  have hlisted : listedPaths "a.b" (by decide)
      = some [("a-b", [⟨"out/src/providers/a_b/capabilities.rs"⟩]),
        ("a.b", [⟨"out/src/providers/a_b/capabilities.rs"⟩])] := by decide +kernel
  rw [listedPaths] at hlisted
  cases hrun : run (.document (twoProviders "a.b" (by decide))) .all .capabilities intoOut
    .empty with
  | mk after result =>
      rw [hrun] at hlisted
      cases result with
      | error error => exact nomatch hlisted
      | ok s =>
          have hapart := (hfaithful _ _ _ _ _ _ _ rfl rfl hrun).apart
          rw [map_runSuccesses (run_snd.symm.trans (congrArg Prod.snd hrun))] at hapart
          have hpaths := congrArg (List.map Prod.snd) (Option.some.inj hlisted)
          rw [List.map_map] at hpaths
          have hpairwise : (s.succeeded.map (·.paths)).Pairwise fun a b => ∀ p ∈ a, p ∉ b :=
            List.pairwise_map.2 hapart
          rw [show s.succeeded.map (·.paths) = _ from hpaths] at hpairwise
          exact absurd hpairwise (by decide)

end ModelCatalog.Generation
