import ModelCatalog.Registry
import ModelCatalog.Proofs.Models.Capabilities
import ModelCatalog.Proofs.Text.Literals

/-! # Reading a registry back

    A reader of registries that goes through the lines of a text: a fixed head, six lines for each
    model, a fixed foot.  Names have to be identifiers, texts from the catalog are read as string
    literals, and tags are separated by commas.

    The headline is `lists_text`: whatever texts the models hold, the registry is laid out like this
    and is read back as what was written, so a registry determines everything that went into it. -/

namespace ModelCatalog.Registry

-- ── The reader ──

/-- What a registry says of a model. -/
structure Listed where
  typeName : String
  id : String
  constructorName : String
  displayName : String
  tags : List Capability
  deriving DecidableEq

/-- What a registry says. -/
structure Listing where
  moduleName : String
  typeName : String
  models : List Listed
  deriving DecidableEq

/-- What stands between the given ends of a line. -/
def between? (front back : String) (line : List Char) : Option (List Char) :=
  (line.dropPrefix? front.toList).bind (·.dropSuffix? back.toList)

/-- The identifier between the given ends of a line. -/
def name? (front back : String) (line : List Char) : Option String := do
  let name ← between? front back line
  if Identifier.isValid (.ofList name) then some (.ofList name) else none

/-- The text of the literal that stands between the given ends of a line. -/
def literal? (front back : String) (line : List Char) : Option String := do
  let rest ← line.dropPrefix? front.toList
  let (content, behind) ← Text.readLiteral rest
  if behind = back.toList then some (.ofList content) else none

def tag? (part : List Char) : Option Capability :=
  Capability.ofName? (.ofList (part.dropWhile (· == ' ')))

/-- The tags between the given ends of a line. -/
def tags? (front back : String) (line : List Char) : Option (List Capability) := do
  let inside ← between? front back line
  if inside.isEmpty then some [] else (inside.splitOn ',').mapM tag?

/-- The model that six lines declare. -/
def listed? (opening id constructorName displayName tags closing : List Char) : Option Listed := do
  let typeName ← name? "        " " \x7b" opening
  let id ← literal? "            model_name: " "," id
  let constructorName ← name? "            constructor_name: " "," constructorName
  let displayName ← literal? "            display_name: " "," displayName
  let tags ← tags? "            capabilities: [" "]" tags
  if closing = "        \x7d,".toList then
    some ⟨typeName, id, constructorName, displayName, tags⟩
  else none

/-- The models that lines declare, six by six, down to the foot. -/
def readModels : List (List Char) → Option (List Listed)
  | a :: b :: c :: d :: e :: f :: rest => do
    let model ← listed? a b c d e f
    let models ← readModels rest
    return model :: models
  | rest => if rest = footLines.map String.toList ++ [[]] then some [] else none

/-- What a registry says, if the text is one. -/
def read (text : String) : Option Listing := do
  let lines := text.toList.splitOn '\n'
  let moduleName ← lines[2]?.bind (name? "//! Capabilities for " " models.")
  let typeName ← lines[12]?.bind (name? "    provider: " ",")
  let rest ← lines.dropPrefix? ((headLines ⟨"", typeName, moduleName⟩).map String.toList)
  let models ← readModels rest
  return ⟨moduleName, typeName, models⟩

/-- What the registry is to say of a model. -/
def Listed.ofModel (m : Model) : Listed :=
  ⟨m.typeName, m.id, m.constructorName, m.displayName, m.capabilities.toList⟩

-- ── Lines ──

/-- Lines that are written one after the other are the lines of the whole. -/
theorem splitOn_join {lines : List String} (h : ∀ line ∈ lines, '\n' ∉ line.toList) :
    (String.join (lines.map (· ++ "\n"))).toList.splitOn '\n' =
      lines.map String.toList ++ [[]] := by
  induction lines with
  | nil => rfl
  | cons line lines ih =>
    have hjoin : (String.join ((line :: lines).map (· ++ "\n"))).toList =
        line.toList ++ '\n' :: (String.join (lines.map (· ++ "\n"))).toList := by
      simp [String.toList_join]
    rw [hjoin, List.splitOn_append_cons_self_of_not_mem (h line List.mem_cons_self),
      ih fun l hl => h l (List.mem_cons_of_mem _ hl), List.map_cons, List.cons_append]

/-- Identifiers stay on their line. -/
theorem newline_notMem_of_isValid {name : String} (h : Identifier.isValid name = true) :
    '\n' ∉ name.toList :=
  fun hmem => absurd (Identifier.isWordChar_of_isValid h hmem) (by decide)

theorem newline_notMem_headLines {names : ProviderNames}
    (hmodule : Identifier.isValid names.moduleName = true)
    (htype : Identifier.isValid names.typeName = true) :
    ∀ line ∈ headLines names, '\n' ∉ line.toList := by
  have hm := newline_notMem_of_isValid hmodule
  have ht := newline_notMem_of_isValid htype
  simp [headLines, generatedNotice, hm, ht]

/-- No tag has a separator in its name, or leaves its line. -/
theorem notMem_name {c : Char} (h : c.isAlpha = false) (tag : Capability) :
    c ∉ tag.name.toList := by
  have hall : tag.name.toList.all Char.isAlpha = true := by cases tag <;> decide
  intro hmem
  rw [List.all_eq_true.1 hall c hmem] at h
  exact nomatch h

theorem newline_notMem_tags (tags : List Capability) :
    '\n' ∉ (", ".intercalate (tags.map Capability.name)).toList := by
  rw [String.toList_intercalate]
  induction tags with
  | nil => simp
  | cons tag tags ih =>
    have htag : '\n' ∉ tag.name.toList := notMem_name (by decide) tag
    cases tags with
    | nil => simpa using htag
    | cons tag' tags =>
      rw [List.map_cons, List.map_cons] at ih ⊢
      simpa [List.intercalate_cons_cons, htag] using ih

theorem newline_notMem_modelLines {m : Model} (htype : Identifier.isValid m.typeName = true)
    (hconstructor : Identifier.isValid m.constructorName = true) :
    ∀ line ∈ modelLines m, '\n' ∉ line.toList := by
  have ht := newline_notMem_of_isValid htype
  have hc := newline_notMem_of_isValid hconstructor
  have htags := newline_notMem_tags m.capabilities.toList
  simp [modelLines, ht, hc, htags, Text.newline_notMem_quote, -String.toList_intercalate]

-- ── Fields of a line ──

theorem between?_self (front back : String) (inside : List Char) :
    between? front back (front.toList ++ (inside ++ back.toList)) = some inside := by
  have hfront : (front.toList ++ (inside ++ back.toList)).dropPrefix? front.toList =
      some (inside ++ back.toList) :=
    List.dropPrefix?_eq_some_iff.2 ⟨front.toList, rfl, beq_self_eq_true _⟩
  rw [between?, hfront, Option.bind_some]
  exact List.dropSuffix?_eq_some_iff.2 ⟨back.toList, rfl, beq_self_eq_true _⟩

theorem name?_self (front back : String) {name : String} (h : Identifier.isValid name = true) :
    name? front back (front ++ name ++ back).toList = some name := by
  have hbetween := between?_self front back name.toList
  rw [name?, String.toList_append, String.toList_append, List.append_assoc, hbetween]
  simp [h]

theorem literal?_self (front back content : String) :
    literal? front back (front ++ Text.quote content ++ back).toList = some content := by
  have hfront : (front.toList ++ ((Text.quote content).toList ++ back.toList)).dropPrefix?
      front.toList = some ((Text.quote content).toList ++ back.toList) :=
    List.dropPrefix?_eq_some_iff.2 ⟨front.toList, rfl, beq_self_eq_true _⟩
  rw [literal?, String.toList_append, String.toList_append, List.append_assoc, hfront]
  simp [Text.readLiteral_quote]

theorem tag?_name (tag : Capability) : tag? tag.name.toList = some tag := by
  cases tag <;> decide

/-- The blank behind a comma does not matter. -/
theorem mapM_tag?_blank {parts : List (List Char)} (h : parts ≠ []) :
    (parts.modifyHead (' ' :: ·)).mapM tag? = parts.mapM tag? := by
  obtain ⟨part, parts, rfl⟩ := List.exists_cons_of_ne_nil h
  rfl

theorem mapM_tag?_splitOn {tags : List Capability} (h : tags ≠ []) :
    ((", ".intercalate (tags.map Capability.name)).toList.splitOn ',').mapM tag? = some tags := by
  rw [String.toList_intercalate]
  induction tags with
  | nil => exact absurd rfl h
  | cons tag tags ih =>
    have htag : ',' ∉ tag.name.toList := notMem_name (by decide) tag
    cases tags with
    | nil =>
      simp [List.splitOn_eq_singleton htag, tag?_name]
    | cons tag' tags =>
      specialize ih (by simp)
      have hsplit : (", ".toList.intercalate
          (((tag :: tag' :: tags).map Capability.name).map String.toList)).splitOn ',' =
          tag.name.toList :: ((", ".toList.intercalate
            (((tag' :: tags).map Capability.name).map String.toList)).splitOn ',').modifyHead
              (' ' :: ·) := by
        simp only [List.map_cons, List.intercalate_cons_cons, List.append_assoc]
        rw [show ", ".toList = [',', ' '] from rfl, List.cons_append,
          List.splitOn_append_cons_self_of_not_mem htag, List.cons_append, List.nil_append,
          List.splitOn_cons_eq_if_modifyHead, if_neg (by decide)]
      rw [hsplit, List.mapM_cons, tag?_name, mapM_tag?_blank (List.splitOn_ne_nil _ _), ih]
      rfl

theorem tags?_self (front back : String) (tags : List Capability) :
    tags? front back
      (front ++ ", ".intercalate (tags.map Capability.name) ++ back).toList = some tags := by
  rw [tags?, String.toList_append, String.toList_append, List.append_assoc, between?_self]
  cases tags with
  | nil => rfl
  | cons tag tags =>
    have hne : (", ".intercalate ((tag :: tags).map Capability.name)).toList.isEmpty = false := by
      rw [String.toList_intercalate]
      cases tag <;> cases tags <;> rfl
    rw [Option.bind_eq_bind, Option.bind_some, hne, if_neg (by decide),
      mapM_tag?_splitOn (List.cons_ne_nil tag tags)]

-- ── Reading what is written ──

/-- The lines of a model are read as the model. -/
theorem listed?_modelLines {m : Model} (htype : Identifier.isValid m.typeName = true)
    (hconstructor : Identifier.isValid m.constructorName = true) (rest : List (List Char)) :
    ∃ a b c d e f, (modelLines m).map String.toList ++ rest = a :: b :: c :: d :: e :: f :: rest ∧
      listed? a b c d e f = some (.ofModel m) := by
  refine ⟨_, _, _, _, _, _, rfl, ?_⟩
  rw [listed?, name?_self _ _ htype, literal?_self, name?_self _ _ hconstructor, literal?_self,
    tags?_self]
  rfl

theorem readModels_flatMap {models : List Model} (hvalid : ∀ m ∈ models,
      Identifier.isValid m.typeName = true ∧ Identifier.isValid m.constructorName = true) :
    readModels ((models.flatMap modelLines ++ footLines).map String.toList ++ [[]]) =
      some (models.map Listed.ofModel) := by
  induction models with
  | nil => rfl
  | cons m models ih =>
    obtain ⟨htype, hconstructor⟩ := hvalid m List.mem_cons_self
    obtain ⟨a, b, c, d, e, f, hlines, hlisted⟩ := listed?_modelLines htype hconstructor
      ((models.flatMap modelLines ++ footLines).map String.toList ++ [[]])
    have hsplit : ((m :: models).flatMap modelLines ++ footLines).map String.toList ++ [[]] =
        (modelLines m).map String.toList ++
          ((models.flatMap modelLines ++ footLines).map String.toList ++ [[]]) := by
      simp only [List.flatMap_cons, List.map_append, List.append_assoc]
    rw [hsplit, hlines, readModels, hlisted, ih fun m hm => hvalid m (List.mem_cons_of_mem _ hm)]
    rfl

/-- The names in a registry are identifiers. -/
structure HasNames (names : ProviderNames) (p : ProviderModels) : Prop where
  provider : ∃ id typeName?, ProviderNames.ofId id typeName? = .ok names
  models : ∀ m ∈ p.models.toList,
    Identifier.isValid m.typeName = true ∧ Identifier.isValid m.constructorName = true

/-- A text is the registry of some models: it is laid out as one, and is read as one. -/
structure Lists (text : String) (names : ProviderNames) (p : ProviderModels) : Prop where
  layout : text.toList.splitOn '\n' =
    (headLines names ++ p.models.toList.flatMap modelLines ++ footLines).map String.toList ++ [[]]
  sixLines : ∀ m ∈ p.models.toList, (modelLines m).length = 6
  reading : read text =
    some ⟨names.moduleName, names.typeName, p.models.toList.map Listed.ofModel⟩
  typesIncrease : p.models.toList.Pairwise fun m m' => m.typeName < m'.typeName
  tagsIncrease : ∀ m ∈ p.models.toList,
    m.capabilities.toList.Pairwise fun tag tag' => tag.name < tag'.name

theorem isValid_of_ofId {id : String} {typeName? : Option String} {names : ProviderNames}
    (h : ProviderNames.ofId id typeName? = .ok names) :
    Identifier.isValid names.moduleName = true ∧ Identifier.isValid names.typeName = true := by
  rw [ProviderNames.ofId] at h
  split_ifs at h with htype hmodule
  obtain rfl := Except.ok.inj h
  exact ⟨by simpa using hmodule, by simpa using htype⟩

theorem lists_text {names : ProviderNames} {p : ProviderModels} (h : HasNames names p) :
    Lists (text names p.models.toList) names p := by
  obtain ⟨⟨id, typeName?, hnames⟩, hvalid⟩ := h
  obtain ⟨hmodule, htype⟩ := isValid_of_ofId hnames
  have hlayout : (text names p.models.toList).toList.splitOn '\n' =
      (headLines names ++ p.models.toList.flatMap modelLines ++ footLines).map String.toList ++
        [[]] := by
    refine splitOn_join fun line hline => ?_
    rcases List.mem_append.1 hline with hline | hfoot
    · rcases List.mem_append.1 hline with hhead | hmodel
      · exact newline_notMem_headLines hmodule htype line hhead
      · obtain ⟨m, hm, hline⟩ := List.mem_flatMap.1 hmodel
        exact newline_notMem_modelLines (hvalid m hm).1 (hvalid m hm).2 line hline
    · have hnone : ∀ line ∈ footLines, '\n' ∉ line.toList := by decide
      exact hnone line hfoot
  refine ⟨hlayout, fun m hm => rfl, ?_, p.models.sorted, fun m hm => CapabilitySet.pairwise_toList _⟩
  have hbody : ((headLines names ++ p.models.toList.flatMap modelLines ++ footLines).map
        String.toList ++ [[]]).dropPrefix? ((headLines names).map String.toList) =
      some ((p.models.toList.flatMap modelLines ++ footLines).map String.toList ++ [[]]) := by
    refine List.dropPrefix?_eq_some_iff.2 ⟨(headLines names).map String.toList, ?_, beq_self_eq_true _⟩
    simp only [List.map_append, List.append_assoc]
  have hmoduleName : (((headLines names ++ p.models.toList.flatMap modelLines ++ footLines).map
        String.toList ++ [[]])[2]?).bind (name? "//! Capabilities for " " models.") =
      some names.moduleName := name?_self _ _ hmodule
  have htypeName : (((headLines names ++ p.models.toList.flatMap modelLines ++ footLines).map
        String.toList ++ [[]])[12]?).bind (name? "    provider: " ",") =
      some names.typeName := name?_self _ _ htype
  have hhead : headLines ⟨"", names.typeName, names.moduleName⟩ = headLines names := rfl
  rw [read, hlayout, hmoduleName, Option.bind_eq_bind, Option.bind_some, htypeName, Option.bind_eq_bind,
    Option.bind_some, hhead, hbody, Option.bind_eq_bind, Option.bind_some,
    readModels_flatMap hvalid]
  rfl

theorem ofModel_injective : Function.Injective Listed.ofModel := by
  rintro ⟨id, typeName, constructorName, displayName, capabilities⟩
    ⟨id', typeName', constructorName', displayName', capabilities'⟩ h
  obtain ⟨rfl, rfl, rfl, rfl, htags⟩ := Listed.mk.inj h
  obtain rfl : capabilities = capabilities' := CapabilitySet.toList_injective htags
  rfl

/-- **A REGISTRY IS DECODED WITHOUT LOSS.**  Its text is laid out as a head, six lines for each model
    and a foot, and is read as the names and models it was made of; so registries with one text
    are made of the same names and the same models. -/
theorem text_decodes {names : ProviderNames} {p : ProviderModels} (h : HasNames names p) :
    Lists (text names p.models.toList) names p ∧
      ∀ {names' : ProviderNames} {p' : ProviderModels}, HasNames names' p' →
        text names' p'.models.toList = text names p.models.toList →
        names'.moduleName = names.moduleName ∧ names'.typeName = names.typeName ∧
          p'.models.toList = p.models.toList := by
  refine ⟨lists_text h, fun {names' p'} h' htext => ?_⟩
  have hread := (lists_text h').reading
  rw [htext, (lists_text h).reading] at hread
  obtain ⟨hmodule, htype, hmodels⟩ := Listing.mk.inj (Option.some.inj hread)
  exact ⟨hmodule.symm, htype.symm, List.map_injective_iff.2 ofModel_injective hmodels.symm⟩

/-- A provider with a model whose texts need escapes of every kind. -/
def awkwardModels : ProviderModels where
  providerId := "x"
  info := {}
  models := ⟨[⟨"a\"b\\\n", "A", "a", "\x00e\u0301\t\r,", .ofList [.toolCall, .reasoning]⟩,
    ⟨"b", "B", "b", "B", .ofList []⟩], by decide⟩

theorem text_decodes_awkward :
    read (text ⟨"x", "X", "x"⟩ awkwardModels.models.toList) = some ⟨"x", "X",
      [⟨"A", "a\"b\\\n", "a", "\x00e\u0301\t\r,", [.reasoning, .toolCall]⟩,
       ⟨"B", "b", "b", "B", []⟩]⟩ := by
  have hnames : HasNames ⟨"x", "X", "x"⟩ awkwardModels := ⟨⟨"x", none, rfl⟩, by decide⟩
  exact (text_decodes hnames).1.reading

end ModelCatalog.Registry
