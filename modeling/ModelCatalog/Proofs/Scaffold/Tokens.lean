import ModelCatalog.Proofs.Scaffold.Pieces
import ModelCatalog.Scaffold.File

/-! # The tokens of a scaffold

    Four texts go into a scaffold.  The name of the type is an identifier and stands in the code;
    the other three are free text from the catalog, and stand in two literals and a comment.  The
    headline is `lex_render`: whatever these three are, the scaffold is read as code, and its tokens
    outside literals and comments are given by the name of the type, but for two places.

    The proof follows the lines of the scaffold.  Most of them depend on the name of the type alone,
    so their tokens need not be known: it is enough that they are read (`IsReadable`).  The lines
    with the default settings and those of the provider's type have one place each that depends on
    the catalog (`ReadAround`), which is found again in every block around it.

    One thing can break the code.  A default model with a carriage return inside gets into the comment
    as it is; if no line ends there, the comment is refused, and with it each block around it
    (`lex_text_eq_none`, `lex_render_return`). -/

namespace ModelCatalog.Scaffold

open Doc
open Lexer (Token hasBareReturn run isPlain)

-- ── What is the same for all texts ──

section Same

variable {p : Parameters} (htype : IsPlainText p.typeName)

include htype

theorem isReadable_opening : ∀ l ∈ opening p, IsReadable l := by
  let rest : String := "! This module provides the " ++ p.typeName ++
    " provider, wrapping OpenAI Chat Completions for " ++ p.typeName ++ " requests."
  have hrest : IsPlainText rest := by simp +decide [rest, htype]
  obtain ⟨hnewline, hreturn⟩ := newline_notMem_of_isPlainText hrest
  simp only [opening, List.forall_mem_cons]
  refine ⟨isReadable_comment ?_ hnewline hreturn, ?_⟩
  · simp [rest]
  · simp +decide

theorem isReadable_settingsType : ∀ l ∈ settingsType p, IsReadable l := by
  simp only [settingsType, List.forall_mem_cons]
  refine ⟨?_, ?_, isReadable_block ?_ ?_, ?_⟩ <;>
    simp +decide [Parameters.settingsName, htype]

theorem isReadable_settingsMethods : IsReadable (settingsMethods p) := by
  refine isReadable_block ?_ ?_ <;>
    simp +decide [Parameters.settingsName, Parameters.settingsBuilderName, htype]

theorem isReadable_settingsBuilderType : ∀ l ∈ settingsBuilderType p, IsReadable l := by
  simp only [settingsBuilderType, List.forall_mem_cons]
  refine ⟨?_, ?_, ?_, isReadable_block ?_ ?_, ?_⟩ <;>
    simp +decide [Parameters.settingsName, Parameters.settingsBuilderName, htype, settingsSetter,
      arguments, fields, brackets]

theorem isReadable_uses : ∀ l ∈ uses p, IsReadable l := by
  simp +decide [uses, Parameters.settingsName, htype]

/-- The lines around the one that has the default model inside. -/
theorem isReadable_providerType :
    (∀ l ∈ (providerType p).take 4, IsReadable l) ∧
      ∀ l ∈ (providerType p).drop 5, IsReadable l := by
  simp only [providerType, List.take_succ_cons, List.take_zero, List.drop_succ_cons,
    List.drop_zero, List.forall_mem_cons]
  refine ⟨⟨?_, ?_, isReadable_block ?_ ?_, isReadable_block ?_ ?_, nofun⟩,
    isReadable_block ?_ ?_, nofun⟩ <;>
    simp +decide [Parameters.settingsName, Parameters.builderName, htype, applied, modelParameter,
      parts, fields, brackets]

theorem isReadable_builderType : ∀ l ∈ builderType p, IsReadable l := by
  simp only [builderType, List.forall_mem_cons]
  refine ⟨?_, ?_, ?_, isReadable_block ?_ ?methods, isReadable_block ?_ ?_, ?_⟩
  case methods =>
    simp only [List.forall_mem_cons]
    refine ⟨?_, ?_, ?_, ?_, ?_, isReadable_block ?_ ?_, ?_⟩ <;>
      simp +decide [htype, setter, applied, arguments, fields, brackets]
  all_goals
    simp +decide [Parameters.settingsName, Parameters.builderName, htype, applied, modelParameter]

theorem isReadable_languageModelModule : IsReadable (languageModelModule p) := by
  refine isReadable_block (by simp +decide) ?_
  simp only [List.forall_mem_cons]
  refine ⟨?_, ?_, ?_, ?_, ?_, isReadable_block ?_ ?_, ?_⟩ <;>
    simp +decide [htype, forward, applied, modelParameter, arguments, brackets]

end Same

-- ── Lines with one place that is different ──

/-- Lines that depend on something, while their tokens do so in one place at most. -/
def ReadAround {α : Type} (indent : Nat) (ls : α → List Line) (place : α → List Token) : Prop :=
  ∃ before after, ∀ a, Rows indent (ls a) (before ++ place a ++ after)

namespace ReadAround

variable {α : Type} {indent : Nat} {ls : α → List Line} {place : α → List Token}

theorem block {head : Line} (hhead : AllCharsOf IsPlain head)
    (h : ReadAround (indent + step) ls place) :
    ReadAround indent (fun a => [Scaffold.block head (ls a)]) place := by
  obtain ⟨before, after, hrows⟩ := h
  obtain ⟨ts, hopened⟩ := exists_run_opened hhead indent
  refine ⟨ts ++ before, after ++ [.sign '\x7d'], fun a => ?_⟩
  simpa using Rows.cons (row_block hopened (hrows a)) .nil

theorem between {front back : List Line} (h : ReadAround indent ls place)
    (hfront : ∀ l ∈ front, IsReadable l) (hback : ∀ l ∈ back, IsReadable l) :
    ReadAround indent (fun a => front ++ ls a ++ back) place := by
  obtain ⟨before, after, hrows⟩ := h
  obtain ⟨ts, hts⟩ := exists_rows hfront indent
  obtain ⟨us, hus⟩ := exists_rows hback indent
  refine ⟨ts ++ before, after ++ us, fun a => ?_⟩
  simpa using (hts.append (hrows a)).append hus

end ReadAround

-- ── The settings, around the variable ──

/-- The tokens of the look-up of the variable.  A comma follows its name if the literal is wide. -/
def variableTokens (p : Parameters) : List Token :=
  [.word "std".toList, .sign ':', .sign ':', .word "env".toList, .sign ':', .sign ':',
   .word "var".toList, .sign '(', .literal] ++
    (if 49 < (Text.quoteStrict p.keyVariable).utf8ByteSize then [.sign ','] else []) ++ [.sign ')']

/-- **The line with the variable** is broken where it is too wide.  Its tokens tell of it if the
    argument is. -/
theorem row_variable (p : Parameters) :
    Row 16
      ["api_key: ",
       call ["std::env::var", arguments [.text (Text.quoteStrict p.keyVariable)]]
         ".unwrap_or_default()", ","]
      ([.word "api_key".toList, .sign ':'] ++ variableTokens p ++
        [.sign '.', .word "unwrap_or_default".toList, .sign '(', .sign ')', .sign ',']) := by
  have hopen : run (.code []) "api_key: std::env::var(".toList =
      some ([.word "api_key".toList, .sign ':', .word "std".toList, .sign ':', .sign ':',
        .word "env".toList, .sign ':', .sign ':', .word "var".toList, .sign '('], .code []) := rfl
  have hbehind (taken : Bool) :
      run (.code []) ((if taken then newline (16 + step) else []) ++
        ".unwrap_or_default(),\n".toList) =
        some ([.sign '.', .word "unwrap_or_default".toList, .sign '(', .sign ')', .sign ','],
          .code []) :=
    run_break taken (run_newline _) rfl rfl
  have hcolumn : 16 + "api_key: ".utf8ByteSize + "std::env::var".utf8ByteSize = 38 := rfl
  rw [Row, printed_call]
  dsimp only
  generalize callBreaks _ _ _ _ = taken
  rw [layoutAll_cons, layout, layoutAll_cons, layout_argument, hcolumn, layoutAll]
  by_cases hwide : 49 < (Text.quoteStrict p.keyVariable).utf8ByteSize
  · rw [if_neg (by simp only [lineWidth, follow, leadAll]; omega), variableTokens, if_pos hwide]
    have hline := Lexer.run_append_eq hopen
      (Lexer.run_append_eq (run_argument p.keyVariable (16 + step + step) (16 + step))
        (hbehind taken))
    simpa using hline
  · rw [if_pos (by simp only [lineWidth, follow, leadAll]; omega), variableTokens, if_neg hwide]
    have hclose : run .closed [')'] = some ([.sign ')'], .code []) := rfl
    have hline := Lexer.run_append_eq hopen
      (Lexer.run_append_eq (Lexer.run_append_eq (Lexer.run_quoteStrict p.keyVariable) hclose)
        (hbehind taken))
    simpa using hline

section Whole

variable {typeName : String}

/-- The default settings.  The address is a literal like any other. -/
theorem readAround_fields :
    ReadAround 16
      (fun p =>
        [["provider_name: ", call [.text (Text.quoteStrict typeName)] ".to_string()", ","],
         ["base_url: ", call [.text (Text.quoteStrict p.endpoint)] ".to_string()", ","],
         ["api_key: ",
          call ["std::env::var", arguments [.text (Text.quoteStrict p.keyVariable)]]
            ".unwrap_or_default()", ","],
         ["path: None,"]])
      variableTokens := by
  obtain ⟨ts, hname⟩ : ∃ ts, Row 16
      ["provider_name: ", call [.text (Text.quoteStrict typeName)] ".to_string()", ","] ts :=
    ⟨_, row_literal (n := "provider_name: ") typeName 16 rfl⟩
  obtain ⟨us, haddress⟩ : ∃ us, ∀ s, Row 16
      ["base_url: ", call [.text (Text.quoteStrict s)] ".to_string()", ","] us :=
    ⟨_, fun s => row_literal (n := "base_url: ") s 16 rfl⟩
  obtain ⟨vs, hpath⟩ : ∃ vs, Row 16 ["path: None,"] vs := by
    have hpath : IsReadable ["path: None,"] := by simp +decide
    exact hpath 16
  refine ⟨ts ++ us ++ [.word "api_key".toList, .sign ':'],
    [.sign '.', .word "unwrap_or_default".toList, .sign '(', .sign ')', .sign ','] ++ vs,
    fun p => ?_⟩
  simpa using Rows.cons hname
    (.cons (haddress p.endpoint) (.cons (row_variable p) (.cons hpath .nil)))

theorem readAround_settingsModule (htype : IsPlainText typeName) :
    ReadAround 0 (fun p => [settingsModule { p with typeName }]) variableTokens := by
  let q : Parameters := ⟨typeName, "", "", ""⟩
  have hq : IsPlainText q.typeName := htype
  have hvalue : AllCharsOf IsPlain ["Self"] := by simp +decide
  have hmethod : AllCharsOf IsPlain ["fn default() -> Self"] := by simp +decide
  have hdefault : AllCharsOf IsPlain [implementation [" Default"] [.text q.settingsName]] := by
    simp +decide [Parameters.settingsName, hq]
  have hmodule : AllCharsOf IsPlain ["pub mod settings"] := by simp +decide
  have hcomment : IsReadable ["//! Defines the settings for this provider."] := by simp +decide
  have hfront := List.forall_mem_cons.2 ⟨hcomment, isReadable_settingsType hq⟩
  have hback := List.forall_mem_cons.2
    ⟨isReadable_settingsMethods hq, isReadable_settingsBuilderType hq⟩
  exact ((((readAround_fields.block hvalue).block hmethod).block hdefault).between
    hfront hback).block hmodule

-- ── The type of the provider, around the default model ──

/-- The text that documents how a provider is made for a model. -/
def modelDocumentation (p : Parameters) : String :=
  " Creates a " ++ p.typeName ++ " provider with a dynamic model name (e.g. \"" ++
    p.defaultModel ++ "\") using default settings."

/-- The tokens of the documentation, and of the beginning of the method that it documents. -/
def modelTokens (p : Parameters) : List Token :=
  Lexer.documentationTokens (modelDocumentation p) ++
    [.word "pub".toList, .word "fn".toList, .word "model_name".toList]

/-- What is said of the default model is printed without a bare return. -/
def HasNoBareReturn (p : Parameters) : Prop :=
  hasBareReturn (Doc.render [documentation (modelDocumentation p)]).toList = false

instance : DecidablePred HasNoBareReturn := fun p =>
  decEq (hasBareReturn (Doc.render [documentation (modelDocumentation p)]).toList) false

theorem readAround_providerType (htype : IsPlainText typeName) :
    ReadAround 0
      (fun p : { p : Parameters // HasNoBareReturn { p with typeName } } =>
        providerType { p.1 with typeName })
      fun p => modelTokens { p.1 with typeName } := by
  let q : Parameters := ⟨typeName, "", "", ""⟩
  have hq : IsPlainText q.typeName := htype
  obtain ⟨ts, hopened⟩ : ∃ ts, run (.code [])
      (opened 4 ["pub fn model_name(name: impl Into<String>) -> Self"]) =
        some ([.word "pub".toList, .word "fn".toList, .word "model_name".toList] ++ ts,
          .code []) := ⟨_, rfl⟩
  let body : List Line :=
    [[.text ("let settings = " ++ q.settingsName ++ "::default();")],
     ["let inner = OpenAIChatCompletions::<DynamicModel>::model_name(name);"],
     [parts (some recordWidth) q.typeName]]
  have hbody : ∀ l ∈ body, IsReadable l := by
    simp +decide [body, Parameters.settingsName, hq, parts, fields, brackets]
  obtain ⟨us, hus⟩ := exists_rows hbody 8
  have hmethod : ReadAround 4
      (fun p : { p : Parameters // HasNoBareReturn { p with typeName } } =>
        [documentation (modelDocumentation { p.1 with typeName }),
         block ["pub fn model_name(name: impl Into<String>) -> Self"] body])
      fun p => modelTokens { p.1 with typeName } := by
    refine ⟨[], ts ++ us ++ [.sign '\x7d'], fun p => ?_⟩
    simpa [modelTokens] using
      Rows.cons (row_documentation 4 p.2) (.cons (row_block hopened hus) .nil)
  have hhead : AllCharsOf IsPlain ("impl " :: applied q.typeName "DynamicModel") := by
    simp +decide [applied, hq]
  exact (hmethod.block hhead).between (isReadable_providerType hq).1 (isReadable_providerType hq).2

/-- The lines of the provider's type are refused if its documentation is. -/
theorem run_providerType_eq_none {p : Parameters} (htype : IsPlainText p.typeName)
    (hreturn : ¬ HasNoBareReturn p) (back : List Line) :
    run (.code []) (rows 0 (providerType p ++ back)) = none := by
  have hrefused : IsRefused 4 (documentation (modelDocumentation p)) := by
    rw [HasNoBareReturn, Bool.not_eq_false] at hreturn
    rw [IsRefused, run_row_documentation, if_pos hreturn]
  have hhead : AllCharsOf IsPlain ("impl " :: applied p.typeName "DynamicModel") := by
    simp +decide [applied, htype]
  obtain ⟨ts, hopened⟩ := exists_run_opened hhead 0
  obtain ⟨us, hfront⟩ := exists_rows (isReadable_providerType htype).1 0
  have hnothing : Rows 4 [] [] := .nil
  exact (isRefused_block hopened (hrefused.run_rows hnothing)).run_rows hfront

-- ── The whole scaffold ──

theorem lines_eq (p : Parameters) :
    lines p = (opening p ++ [settingsModule p] ++ uses p) ++ (providerType p ++
      (builderType p ++ languageModelModule p :: closing)) := by
  simp [lines]

/-- The notice gives no token. -/
theorem run_text (p : Parameters) :
    run (.code []) (text p).toList = run (.code []) (rows 0 (lines p)) := by
  have hnotice : run (.code []) (generatedNotice.toList ++ ['\n', '\n']) = some ([], .code []) := by
    decide +kernel
  have htext : (text p).toList = (generatedNotice.toList ++ ['\n', '\n']) ++ rows 0 (lines p) := by
    rw [text, String.toList_append, String.toList_append, toList_render]
    rfl
  rw [htext, Lexer.run_append_of_silent hnotice]

theorem isPlainText_of_isValid (htype : Identifier.isValid typeName = true) :
    IsPlainText typeName := fun c hc => by
  simp [IsPlain, isPlain, Identifier.isWordChar_of_isValid htype hc]

/-- A scaffold is read, and the two places are all that its tokens tell of the texts in it. -/
theorem exists_lex_text (htype : Identifier.isValid typeName = true) :
    ∃ before between after : List Token, ∀ p : Parameters, HasNoBareReturn { p with typeName } →
      Lexer.lex (text { p with typeName }).toList =
        some (before ++ variableTokens p ++ between ++ modelTokens { p with typeName } ++
          after) := by
  let q : Parameters := ⟨typeName, "", "", ""⟩
  have hq : IsPlainText q.typeName := isPlainText_of_isValid htype
  have hclosing : ∀ l ∈ closing, IsReadable l := by simp +decide [closing]
  obtain ⟨before, ts, hsettings⟩ := (readAround_settingsModule hq).between
    (isReadable_opening hq) (isReadable_uses hq)
  obtain ⟨us, after, hprovider⟩ := readAround_providerType hq
  obtain ⟨vs, hbuilder⟩ := exists_rows (isReadable_builderType hq) 0
  obtain ⟨ws, hmodule⟩ := exists_rows
    (List.forall_mem_cons.2 ⟨isReadable_languageModelModule hq, hclosing⟩) 0
  refine ⟨before, ts ++ us, after ++ (vs ++ ws), fun p hreturn => ?_⟩
  have hrows : Rows 0 (lines { p with typeName })
      ((before ++ variableTokens p ++ ts) ++ ((us ++ modelTokens { p with typeName } ++ after) ++
        (vs ++ ws))) := by
    rw [lines_eq]
    exact (hsettings p).append ((hprovider ⟨p, hreturn⟩).append (hbuilder.append hmodule))
  rw [Lexer.lex, run_text, hrows.run_eq]
  simp [Lexer.flush]

/-- **A scaffold with a bare return in its comment is no code.** -/
theorem lex_text_eq_none {p : Parameters} (htype : Identifier.isValid p.typeName = true)
    (hreturn : ¬ HasNoBareReturn p) : Lexer.lex (text p).toList = none := by
  have hplain : IsPlainText p.typeName := isPlainText_of_isValid htype
  obtain ⟨before, ts, hsettings⟩ := (readAround_settingsModule hplain).between
    (isReadable_opening hplain) (isReadable_uses hplain)
  have hrows : rows 0 (lines p) = rows 0 (opening p ++ [settingsModule p] ++ uses p) ++
      rows 0 (providerType p ++ (builderType p ++ languageModelModule p :: closing)) := by
    rw [lines_eq, rows, List.flatMap_append]
    rfl
  rw [Lexer.lex, run_text, hrows,
    Lexer.run_append_eq_none (hsettings p).run_eq (run_providerType_eq_none hplain hreturn _)]

end Whole

/-- **CATALOG STRINGS DO NOT BREAK CODE, BUT FOR A BARE RETURN.**  For all names, whatever the catalog
    says of the address, the variable and the default model, the scaffold is read without error
    exactly if the comment on the default model is printed without a bare return.  Its tokens outside
    literals and comments are then always the same, but for two things the printer does: a comma
    behind the name of the variable if its literal is wide, and an attribute in place of the comment
    if the default model would break the comment. -/
theorem lex_render (names : ProviderNames) (providersPath : Path)
    (htype : Identifier.isValid names.typeName = true) :
    ∃ before between after : List Token, ∀ info : ProviderInfo,
      Lexer.lex (render names info providersPath).content.toList =
        if HasNoBareReturn (.of names info) then
          some (before ++ variableTokens (.of names info) ++ between ++
            modelTokens (.of names info) ++ after)
        else none := by
  obtain ⟨before, between, after, htext⟩ := exists_lex_text htype
  refine ⟨before, between, after, fun info => ?_⟩
  split
  · next hreturn => exact htext (.of names info) hreturn
  · next hreturn => exact lex_text_eq_none htype hreturn

def acme : ProviderNames := ⟨"acme", "Acme", "acme"⟩

/-- A provider that tries to break out of its literals and its comment, and breaks the line. -/
def hostile : ProviderInfo where
  api := some "\"*/"
  env := ["\"); /* \\ ACME_CLOUD_PLATFORM_SERVICE_ACCOUNT_KEY"]
  model := some "*/\n/* \""

theorem lex_render_hostile :
    Identifier.isValid acme.typeName = true ∧ HasNoBareReturn (.of acme hostile) ∧
      ∃ before between after : List Token,
        Lexer.lex (render acme hostile ⟨"providers"⟩).content.toList =
          some (before ++
            [.word "std".toList, .sign ':', .sign ':', .word "env".toList, .sign ':', .sign ':',
             .word "var".toList, .sign '(', .literal, .sign ',', .sign ')'] ++ between ++
            [.sign '#', .sign '[', .word "doc".toList, .sign '=', .literal, .sign ']',
             .word "pub".toList, .word "fn".toList, .word "model_name".toList] ++ after) := by
  have htype : Identifier.isValid acme.typeName = true := by decide
  have hreturn : HasNoBareReturn (.of acme hostile) := by decide +kernel
  have hvariable : variableTokens (.of acme hostile) =
      [.word "std".toList, .sign ':', .sign ':', .word "env".toList, .sign ':', .sign ':',
       .word "var".toList, .sign '(', .literal, .sign ',', .sign ')'] := by decide +kernel
  have hmodel : modelTokens (.of acme hostile) =
      [.sign '#', .sign '[', .word "doc".toList, .sign '=', .literal, .sign ']',
       .word "pub".toList, .word "fn".toList, .word "model_name".toList] := by decide +kernel
  obtain ⟨before, between, after, htokens⟩ := lex_render acme ⟨"providers"⟩ htype
  have hlex := htokens hostile
  rw [if_pos hreturn, hvariable, hmodel] at hlex
  exact ⟨htype, hreturn, before, between, after, hlex⟩

/-- A provider with a carriage return in its default model. -/
def returning : ProviderInfo where
  model := some "a\rb"

/-- **A carriage return breaks the code**: the scaffold of this provider is refused. -/
theorem lex_render_return :
    ¬ ∀ (names : ProviderNames) (info : ProviderInfo) (providersPath : Path),
      Identifier.isValid names.typeName = true →
        (Lexer.lex (render names info providersPath).content.toList).isSome = true := by
  intro hread
  have htype : Identifier.isValid acme.typeName = true := by decide
  have hreturn : ¬ HasNoBareReturn (.of acme returning) := by decide +kernel
  have hsome := hread acme returning ⟨"providers"⟩ htype
  have hnone : Lexer.lex (render acme returning ⟨"providers"⟩).content.toList = none :=
    lex_text_eq_none htype hreturn
  rw [hnone] at hsome
  cases hsome

/-- A provider whose variable is too wide for its line. -/
def wideVariable : ProviderInfo where
  env := ["ACME_CLOUD_INFERENCE_PLATFORM_SERVICE_ACCOUNT_KEY"]

/-- The tokens are not always those of a provider without any metadata. -/
theorem lex_render_wideVariable :
    ¬ ∀ (names : ProviderNames) (info : ProviderInfo) (providersPath : Path),
      Identifier.isValid names.typeName = true →
        ∃ tokens, Lexer.lex (render names info providersPath).content.toList = some tokens ∧
          Lexer.lex (render names {} providersPath).content.toList = some tokens := by
  intro hsame
  have htype : Identifier.isValid acme.typeName = true := by decide
  obtain ⟨tokens, hwide, hbare⟩ := hsame acme wideVariable ⟨"providers"⟩ htype
  -- the comment is the same for both
  have hreturn : HasNoBareReturn (.of acme {}) := by decide +kernel
  obtain ⟨before, between, after, htext⟩ := exists_lex_text htype
  have hcomma := htext (.of acme wideVariable) hreturn
  have hplain := htext (.of acme {}) hreturn
  have hlists := Option.some.inj (hcomma.symm.trans (hwide.trans (hbare.symm.trans hplain)))
  have hmodel :
      (modelTokens { Parameters.of acme wideVariable with typeName := acme.typeName }).length =
        (modelTokens { Parameters.of acme {} with typeName := acme.typeName }).length := rfl
  have hcommaLength : (variableTokens (.of acme wideVariable)).length = 11 := by decide +kernel
  have hplainLength : (variableTokens (.of acme {})).length = 10 := by decide +kernel
  have hlength := congrArg List.length hlists
  simp only [List.length_append, hcommaLength, hplainLength, hmodel] at hlength
  omega

end ModelCatalog.Scaffold
