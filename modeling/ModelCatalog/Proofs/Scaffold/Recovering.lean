import ModelCatalog.Proofs.Registry.Reading
import ModelCatalog.Proofs.Scaffold.Tokens

/-! # What can be told from a scaffold

    A scaffold shows the four texts that it is made of, and nothing else.  The name of the type is in
    its first line, up to the next space.  Everything else is the same for all scaffolds of one type
    name but for two places (`exists_text`): two lines with a literal each, and a comment.  These tell
    what stands in them whatever follows (`Tells`).  A literal is read back, and how wide it is, and
    with it where its line has been broken, follows from what it says; the comment ends with its
    line.  The headline is `render_tells`.  It leaves out default models of more than one line, whose
    comments lose the spaces at the ends of lines. -/

namespace ModelCatalog.Scaffold

open Doc

-- ── Places in a text ──

/-- Text that tells a value that it is made for, and where it ends, whatever follows. -/
def Tells {α β : Type} (place : α → List Char) (value : α → β) : Prop :=
  ∀ a b x y, place a ++ x = place b ++ y → value a = value b ∧ x = y

theorem eq_of_append_cons {c : Char} {s t x y : List Char} (hs : c ∉ s) (ht : c ∉ t)
    (h : s ++ c :: x = t ++ c :: y) : s = t ∧ x = y := by
  induction s generalizing t with
  | nil =>
      cases t with
      | nil => exact ⟨rfl, (List.cons.inj h).2⟩
      | cons d t => exact absurd ((List.cons.inj h).1 ▸ List.mem_cons_self) ht
  | cons d s ih =>
      cases t with
      | nil => exact absurd ((List.cons.inj h).1 ▸ List.mem_cons_self) hs
      | cons e t =>
          obtain ⟨rfl, hrest⟩ := List.cons.inj h
          obtain ⟨rfl, hxy⟩ := ih (fun hmem => hs (List.mem_cons_of_mem d hmem))
            (fun hmem => ht (List.mem_cons_of_mem d hmem)) hrest
          exact ⟨rfl, hxy⟩

/-- A text that is decided by the first literal in it tells what that literal says. -/
theorem tells_of_literal {row : String → List Char}
    (h : ∀ s, ∃ gap rest, '"' ∉ gap ∧ row s = gap ++ ((Text.quoteStrict s).toList ++ rest)) :
    Tells row id := by
  have hread : ∀ s x, ∃ rest,
      Text.readLiteral ((row s ++ x).dropWhile (· != '"')) = some (s.toList, rest) := by
    intro s x
    obtain ⟨gap, rest, hgap, hrow⟩ := h s
    refine ⟨rest ++ x, ?_⟩
    have hquote : (Text.quoteStrict s).toList ++ (rest ++ x) =
        '"' :: (Text.escapeStrict s.toList ++ '"' :: (rest ++ x)) := by
      simp [Text.quoteStrict]
    have hskip : ∀ c ∈ gap, (c != '"') = true := by
      intro c hc
      rw [bne_iff_ne]
      rintro rfl
      exact hgap hc
    rw [hrow, List.append_assoc, List.append_assoc, hquote, List.dropWhile_append_of_pos hskip,
      List.dropWhile_cons_of_neg (by decide)]
    exact Lexer.readFrom_escapeStrict s.toList (rest ++ x)
  intro s t x y heq
  obtain ⟨rest, hs⟩ := hread s x
  obtain ⟨rest', ht⟩ := hread t y
  rw [heq, ht] at hs
  have hvalue : s = t := String.toList_inj.1 (Prod.mk.inj (Option.some.inj hs)).1.symm
  subst hvalue
  exact ⟨rfl, List.append_cancel_left heq⟩

/-- Lines that depend on something, while they are printed as the same text but for one place. -/
def PrintedAround {α : Type} (indent : Nat) (ls : α → List Line) (place : α → List Char) : Prop :=
  ∃ before after, ∀ a, rows indent (ls a) = before ++ place a ++ after

theorem rows_append (indent : Nat) (ls ms : List Line) :
    rows indent (ls ++ ms) = rows indent ls ++ rows indent ms :=
  List.flatMap_append

namespace PrintedAround

variable {α : Type} {indent : Nat} {ls : α → List Line} {place : α → List Char}

theorem block (head : Line) (h : PrintedAround (indent + step) ls place) :
    PrintedAround indent (fun a => [Scaffold.block head (ls a)]) place := by
  obtain ⟨before, after, hrows⟩ := h
  refine ⟨List.replicate indent ' ' ++ opened indent head ++ before,
    after ++ List.replicate indent ' ' ++ ['\x7d', '\n'], fun a => ?_⟩
  rw [rows, List.flatMap_singleton, printed_block, hrows]
  simp

theorem between (front back : List Line) (h : PrintedAround indent ls place) :
    PrintedAround indent (fun a => front ++ ls a ++ back) place := by
  obtain ⟨before, after, hrows⟩ := h
  refine ⟨rows indent front ++ before, after ++ rows indent back, fun a => ?_⟩
  rw [rows_append, rows_append, hrows]
  simp

end PrintedAround

-- ── The three lines ──

/-- The line with the address. -/
def addressLine (s : String) : Line :=
  ["base_url: ", call [.text (Text.quoteStrict s)] ".to_string()", ","]

/-- The line with the variable. -/
def variableLine (s : String) : Line :=
  ["api_key: ",
    call ["std::env::var", arguments [.text (Text.quoteStrict s)]] ".unwrap_or_default()", ","]

theorem rows_singleton (indent : Nat) (l : Line) :
    rows indent [l] = List.replicate indent ' ' ++ (printed indent l ++ ['\n']) :=
  List.flatMap_singleton _ _

theorem tells_address : Tells (fun s => rows 16 [addressLine s]) id := by
  refine tells_of_literal fun s => ?_
  rw [rows_singleton, addressLine, printed_call]
  dsimp only
  generalize callBreaks _ _ _ _ = taken
  refine ⟨List.replicate 16 ' ' ++ "base_url: ".toList,
    (if taken then newline (16 + step) else []) ++ (".to_string()".toList ++ [',', '\n']),
    by decide, ?_⟩
  simp [layoutAll, layout]

theorem quote_notMem_newline (indent : Nat) : '"' ∉ newline indent := by
  simp [newline]

/-- The literal stands behind the bracket, or on the next line. -/
theorem tells_variable : Tells (fun s => rows 16 [variableLine s]) id := by
  refine tells_of_literal fun s => ?_
  have hstart : '"' ∉ List.replicate 16 ' ' ++ "api_key: std::env::var(".toList := by decide
  rw [rows_singleton, variableLine, printed_call]
  dsimp only
  generalize callBreaks _ _ _ _ = taken
  rw [layoutAll_cons, layout, layoutAll_cons, layout_argument, layoutAll]
  split
  · refine ⟨_, ')' :: ((if taken then newline (16 + step) else []) ++
      (".unwrap_or_default()".toList ++ [',', '\n'])), hstart, ?_⟩
    simp
  · refine ⟨List.replicate 16 ' ' ++ "api_key: std::env::var(".toList ++
        newline (16 + step + step),
      ',' :: (newline (16 + step) ++ ')' :: ((if taken then newline (16 + step) else []) ++
        (".unwrap_or_default()".toList ++ [',', '\n']))), ?_, ?_⟩
    · rw [List.mem_append, not_or]
      exact ⟨hstart, quote_notMem_newline _⟩
    · simp

-- ── The comment ──

theorem trimEnd_eq_self {s : List Char} (h : s.getLast? ≠ some ' ') : trimEnd s = s := by
  rw [List.getLast?_eq_head?_reverse] at h
  rw [trimEnd]
  cases hs : s.reverse with
  | nil => rw [List.reverse_eq_nil_iff.1 hs]; rfl
  | cons c rest =>
      rw [hs, List.head?_cons] at h
      rw [List.dropWhile_cons_of_neg (by simpa using fun heq => h (congrArg some heq)), ← hs,
        List.reverse_reverse]

theorem rows_documentation (indent : Nat) {text : String} (hnewline : '\n' ∉ text.toList)
    (hhead : text.toList.head? = some ' ') (hlast : text.toList.getLast? ≠ some ' ') :
    rows indent [documentation text] =
      (List.replicate indent ' ' ++ "///".toList) ++ (text.toList ++ ['\n']) := by
  have hline : documentation text = [.text ("///" ++ .ofList text.toList)] := by
    rw [documentation, if_pos (by simp [hnewline, hhead]), trimEnd_eq_self hlast]
  rw [rows_singleton, hline, printed_text, String.ofList_toList, String.toList_append,
    List.append_assoc, List.append_assoc]

/-- **A comment of one line** ends with the line, and tells what stands between two texts in it. -/
theorem tells_documentation (indent : Nat) (before after : String)
    (hbefore : '\n' ∉ before.toList) (hafter : '\n' ∉ after.toList)
    (hhead : before.toList.head? = some ' ') (hlast : after.toList.getLast? = some '.') :
    Tells (fun s : { s : String // '\n' ∉ s.toList } =>
      rows indent [documentation (before ++ s.1 ++ after)]) (·.1) := by
  have hrows : ∀ s : { s : String // '\n' ∉ s.toList },
      '\n' ∉ (before ++ s.1 ++ after).toList ∧
      rows indent [documentation (before ++ s.1 ++ after)] =
        (List.replicate indent ' ' ++ "///".toList) ++
          ((before ++ s.1 ++ after).toList ++ ['\n']) := by
    rintro ⟨s, hs⟩
    have hnone : '\n' ∉ (before ++ s ++ after).toList := by
      simp [hbefore, hs, hafter]
    refine ⟨hnone, rows_documentation indent hnone ?_ ?_⟩
    · rw [String.toList_append, String.toList_append, List.append_assoc, List.head?_append, hhead]
      rfl
    · rw [String.toList_append, List.getLast?_append, hlast, Option.some_or]
      decide
  generalize List.replicate indent ' ' ++ "///".toList = start at hrows
  intro s t x y heq
  obtain ⟨hs, hrow⟩ := hrows s
  obtain ⟨ht, hrow'⟩ := hrows t
  dsimp only at heq
  rw [hrow, hrow'] at heq
  simp only [List.append_assoc, List.singleton_append] at heq
  have hrest := List.append_cancel_left heq
  obtain ⟨hline, hxy⟩ := eq_of_append_cons hs ht hrest
  rw [String.toList_append, String.toList_append, String.toList_append, String.toList_append] at hline
  refine ⟨String.toList_inj.1 ?_, hxy⟩
  exact List.append_cancel_left (List.append_cancel_right hline)

theorem tells_model {typeName : String} (htype : '\n' ∉ typeName.toList) :
    Tells (fun s : { s : String // '\n' ∉ s.toList } =>
      rows 4 [documentation (modelDocumentation ⟨typeName, "", "", s.1⟩)]) (·.1) := by
  refine tells_documentation 4
    (" Creates a " ++ typeName ++ " provider with a dynamic model name (e.g. \"")
    "\") using default settings." ?_ (by decide) ?_ (by decide)
  · have hstart : '\n' ∉ " Creates a ".toList := by decide
    have hend : '\n' ∉ " provider with a dynamic model name (e.g. \"".toList := by decide
    rw [String.toList_append, String.toList_append, List.mem_append, List.mem_append]
    exact fun hmem => hmem.elim (fun hmem => hmem.elim hstart htype) hend
  · have hstart : " Creates a ".toList.head? = some ' ' := by decide
    rw [String.toList_append, String.toList_append, List.append_assoc, List.head?_append, hstart]
    rfl

-- ── The whole scaffold ──

theorem PrintedAround.self {α : Type} (indent : Nat) (ls : α → List Line) :
    PrintedAround indent ls fun a => rows indent (ls a) :=
  ⟨[], [], fun a => by simp⟩

/-- The lines with literals. -/
def literalLines (p : Parameters) : List Line := [addressLine p.endpoint, variableLine p.keyVariable]

theorem printedAround_settingsModule (typeName : String) :
    PrintedAround 0 (fun p : Parameters => [settingsModule { p with typeName }])
      fun p => rows 16 (literalLines p) := by
  let q : Parameters := ⟨typeName, "", "", ""⟩
  have hfields := (PrintedAround.self 16 literalLines).between
    [["provider_name: ", call [.text (Text.quoteStrict typeName)] ".to_string()", ","]]
    [["path: None,"]]
  have hdefault := ((hfields.block ["Self"]).block ["fn default() -> Self"]).block
    [implementation [" Default"] [.text q.settingsName]]
  exact (hdefault.between (["//! Defines the settings for this provider."] :: settingsType q)
    (settingsMethods q :: settingsBuilderType q)).block ["pub mod settings"]

theorem printedAround_providerType (typeName : String) :
    PrintedAround 0 (fun p : Parameters => providerType { p with typeName })
      fun p => rows 4 [documentation (modelDocumentation ⟨typeName, "", "", p.defaultModel⟩)] := by
  let q : Parameters := ⟨typeName, "", "", ""⟩
  have hmethods := (PrintedAround.self 4 fun p : Parameters =>
    [documentation (modelDocumentation ⟨typeName, "", "", p.defaultModel⟩)]).between []
      [block ["pub fn model_name(name: impl Into<String>) -> Self"]
        [[.text ("let settings = " ++ q.settingsName ++ "::default();")],
         ["let inner = OpenAIChatCompletions::<DynamicModel>::model_name(name);"],
         [parts (some recordWidth) q.typeName]]]
  exact (hmethods.block ("impl " :: applied typeName "DynamicModel")).between
    ((providerType q).take 4) ((providerType q).drop 5)

/-- **Scaffolds for one type name** are the same text but for the two places. -/
theorem exists_text (typeName : String) :
    ∃ before between after, ∀ endpoint keyVariable defaultModel,
      (text ⟨typeName, endpoint, keyVariable, defaultModel⟩).toList =
        before ++ (rows 16 [addressLine endpoint] ++ (rows 16 [variableLine keyVariable] ++
          (between ++ (rows 4 [documentation (modelDocumentation ⟨typeName, "", "", defaultModel⟩)] ++
            after)))) := by
  let q : Parameters := ⟨typeName, "", "", ""⟩
  obtain ⟨before, between, hsettings⟩ := printedAround_settingsModule typeName
  obtain ⟨between', after, hprovider⟩ := printedAround_providerType typeName
  refine ⟨(generatedNotice ++ "\n\n").toList ++ (rows 0 (opening q) ++ before),
    between ++ (rows 0 (uses q) ++ between'),
    after ++ rows 0 (builderType q ++ languageModelModule q :: closing),
    fun endpoint keyVariable defaultModel => ?_⟩
  let p : Parameters := ⟨typeName, endpoint, keyVariable, defaultModel⟩
  have hlines : lines p = opening q ++ ([settingsModule p] ++ (uses q ++ (providerType p ++
      (builderType q ++ languageModelModule q :: closing)))) := by
    rw [lines]
    simp only [List.append_assoc, List.cons_append, List.nil_append]
    rfl
  have hsettings' : rows 0 [settingsModule p] = before ++ rows 16 (literalLines p) ++ between :=
    hsettings p
  have hprovider' : rows 0 (providerType p) =
      between' ++ rows 4 [documentation (modelDocumentation ⟨typeName, "", "", defaultModel⟩)] ++
        after := hprovider p
  have hliterals : rows 16 (literalLines p) =
      rows 16 [addressLine endpoint] ++ rows 16 [variableLine keyVariable] :=
    rows_append 16 [addressLine endpoint] [variableLine keyVariable]
  rw [text, String.toList_append, toList_render, hlines, rows_append, rows_append, rows_append,
    rows_append, hsettings', hprovider', hliterals]
  simp only [List.append_assoc]

/-- **The first line tells the name of the type**, which ends at a space. -/
theorem typeName_eq_of_text {p q : Parameters} (hp : ' ' ∉ p.typeName.toList)
    (hq : ' ' ∉ q.typeName.toList) (h : text p = text q) : p.typeName = q.typeName := by
  have hfirst : ∀ p : Parameters, ∃ rest, (text p).toList =
      (generatedNotice ++ "\n\n").toList ++ ("//! This module provides the ".toList ++
        (p.typeName.toList ++ ' ' :: rest)) := by
    intro p
    have hspace : " provider, wrapping OpenAI Chat Completions for ".toList =
        ' ' :: "provider, wrapping OpenAI Chat Completions for ".toList := rfl
    obtain ⟨others, hlines⟩ : ∃ others, lines p =
        [.text ("//! This module provides the " ++ p.typeName ++
          " provider, wrapping OpenAI Chat Completions for " ++ p.typeName ++ " requests.")] ::
            others := ⟨_, rfl⟩
    refine ⟨"provider, wrapping OpenAI Chat Completions for ".toList ++ (p.typeName.toList ++
      (" requests.".toList ++ ('\n' :: rows 0 others))), ?_⟩
    rw [text, String.toList_append, toList_render, hlines, ← List.singleton_append, rows_append,
      rows_singleton, printed_text, List.replicate_zero, List.nil_append]
    simp only [String.toList_append, hspace, List.append_assoc, List.cons_append, List.nil_append]
  obtain ⟨rest, htext⟩ := hfirst p
  obtain ⟨rest', htext'⟩ := hfirst q
  rw [h, htext'] at htext
  have hname := List.append_cancel_left (List.append_cancel_left htext)
  exact String.toList_inj.1 (eq_of_append_cons hq hp hname).1.symm

/-- A name that ends at the next space or end of line. -/
def IsOneWord (name : String) : Prop := ' ' ∉ name.toList ∧ '\n' ∉ name.toList

theorem isOneWord_of_isValid {name : String} (h : Identifier.isValid name = true) :
    IsOneWord name := by
  have hnotMem : ∀ c, Identifier.isWordChar c = false → c ∉ name.toList := by
    intro c hc hmem
    rw [Identifier.isWordChar_of_isValid h hmem] at hc
    cases hc
  exact ⟨hnotMem ' ' (by decide), hnotMem '\n' (by decide)⟩

/-- All names that are made for providers are of one word. -/
theorem isOneWord_of_ofId {id : String} {typeName? : Option String} {names : ProviderNames}
    (h : ProviderNames.ofId id typeName? = .ok names) : IsOneWord names.typeName :=
  isOneWord_of_isValid (Registry.isValid_of_ofId h).2

/-- **A scaffold tells its parameters**, if they stay on their lines. -/
theorem eq_of_text {p q : Parameters} (htype : IsOneWord p.typeName) (htype' : IsOneWord q.typeName)
    (hmodel : '\n' ∉ p.defaultModel.toList) (hmodel' : '\n' ∉ q.defaultModel.toList)
    (h : text p = text q) : p = q := by
  have hname := typeName_eq_of_text htype.1 htype'.1 h
  obtain ⟨typeName, endpoint, keyVariable, defaultModel⟩ := p
  obtain ⟨typeName', endpoint', keyVariable', defaultModel'⟩ := q
  obtain rfl : typeName = typeName' := hname
  obtain ⟨before, between, after, htext⟩ := exists_text typeName
  rw [← String.toList_inj, htext, htext] at h
  -- the two places, one after the other
  obtain ⟨hendpoint, h⟩ := tells_address _ _ _ _ (List.append_cancel_left h)
  obtain ⟨hvariable, h⟩ := tells_variable _ _ _ _ h
  obtain ⟨hmodels, -⟩ := tells_model htype.2 ⟨defaultModel, hmodel⟩ ⟨defaultModel', hmodel'⟩ _ _
    (List.append_cancel_left h)
  obtain rfl : endpoint = endpoint' := hendpoint
  obtain rfl : keyVariable = keyVariable' := hvariable
  obtain rfl : defaultModel = defaultModel' := hmodels
  rfl

/-- **SCAFFOLDS RECORD THEIR PARAMETERS.**  Two scaffolds of the same text are of providers with the
    same type name, address, variable and default model, if these models have no end of line in them;
    an address or a variable that is missing counts as an empty one, and a model that is missing as the
    id of the provider.  All that is asked of the type names is that they are of one word, as every
    identifier is.  The other way about, providers that agree on the four, and on the name of the
    module, have the same file, whatever else the catalog says of them. -/
theorem render_tells :
    (∀ (names names' : ProviderNames) (info info' : ProviderInfo)
        (providersPath providersPath' : Path),
      IsOneWord names.typeName → IsOneWord names'.typeName →
      '\n' ∉ (info.defaultModel names.providerId).toList →
      '\n' ∉ (info'.defaultModel names'.providerId).toList →
      (render names info providersPath).content = (render names' info' providersPath').content →
      names.typeName = names'.typeName ∧ info.endpoint = info'.endpoint ∧
        info.primaryVariable = info'.primaryVariable ∧
        info.defaultModel names.providerId = info'.defaultModel names'.providerId) ∧
    ∀ (names names' : ProviderNames) (info info' : ProviderInfo) (providersPath : Path),
      names.typeName = names'.typeName → info.endpoint = info'.endpoint →
      info.primaryVariable = info'.primaryVariable →
      info.defaultModel names.providerId = info'.defaultModel names'.providerId →
      names.moduleName = names'.moduleName →
      render names info providersPath = render names' info' providersPath := by
  constructor
  · intro names names' info info' _ _ htype htype' hmodel hmodel' htext
    have hsame : Parameters.of names info = Parameters.of names' info' :=
      eq_of_text htype htype' hmodel hmodel' htext
    exact ⟨congrArg Parameters.typeName hsame, congrArg Parameters.endpoint hsame,
      congrArg Parameters.keyVariable hsame, congrArg Parameters.defaultModel hsame⟩
  · intro names names' info info' providersPath htype hendpoint hvariable hmodel hmodule
    have hsame : Parameters.of names info = Parameters.of names' info' := by
      rw [Parameters.of, Parameters.of, htype, hendpoint, hvariable, hmodel]
    rw [render, render, hsame, ProviderNames.file, ProviderNames.file, ProviderNames.modulePath,
      ProviderNames.modulePath, hmodule]

/-- A mirror of a provider that says little of itself. -/
def mirror : ProviderNames := ⟨"mirror", "Acme", "mirror"⟩

/-- What the mirror says in other words: an empty variable before another one, and the model that the
    other provider is named like. -/
def mirrored : ProviderInfo where
  name := some "Mirror"
  api := some "https://\"\x00\"1"
  env := ["", "MIRROR_KEY"]
  model := some "acme"

theorem render_tells_mirror :
    let info : ProviderInfo := { api := some "https://\"\x00\"1" }
    IsOneWord acme.typeName ∧ IsOneWord mirror.typeName ∧
      '\n' ∉ (info.defaultModel acme.providerId).toList ∧
      '\n' ∉ (mirrored.defaultModel mirror.providerId).toList ∧
      (render acme info ⟨"a"⟩).content = (render mirror mirrored ⟨"b"⟩).content ∧
      info.primaryVariable = mirrored.primaryVariable ∧
      render acme info ⟨"a"⟩ = render { mirror with moduleName := "acme" } mirrored ⟨"a"⟩ := by
  intro info
  have hacme : ProviderNames.ofId "acme" none = .ok acme := rfl
  have hmirror : ProviderNames.ofId "mirror" (some "Acme") = .ok mirror := rfl
  have htype := isOneWord_of_ofId hacme
  have htype' := isOneWord_of_ofId hmirror
  have hmodel : '\n' ∉ (info.defaultModel acme.providerId).toList := by decide
  have hmodel' : '\n' ∉ (mirrored.defaultModel mirror.providerId).toList := by decide
  have htext : (render acme info ⟨"a"⟩).content = (render mirror mirrored ⟨"b"⟩).content := rfl
  obtain ⟨-, -, hvariable, -⟩ :=
    render_tells.1 acme mirror info mirrored ⟨"a"⟩ ⟨"b"⟩ htype htype' hmodel hmodel' htext
  exact ⟨htype, htype', hmodel, hmodel', htext, hvariable,
    render_tells.2 acme { mirror with moduleName := "acme" } info mirrored ⟨"a"⟩ rfl rfl rfl rfl rfl⟩

end ModelCatalog.Scaffold
