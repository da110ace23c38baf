import ModelCatalog.Proofs.Models.Nesting
import ModelCatalog.Proofs.Names.ModelIds

/-! # Which texts are ids

    A text without a slash is an id, and so are two texts with a slash between them if neither is
    empty and neither has a slash itself; there is no other (`parse_eq_ok`).  Everything else is
    refused, for a slash at one of its ends or for its slashes (`parse_eq_error`).  An id tells its
    text, so no two texts are read as one id.  The text without characters is the only one on which
    the grammar (`Splits`) differs: it has no slash in it, so it is read as an id like any other, and
    only finds no names (`emptyText_passes`).  The headline is `parse_spec`. -/

namespace ModelCatalog.ModelId

/-- A text has no slash, one between two parts, or more. -/
theorem slashes_cases (text : String) :
    '/' ∉ text.toList ∨
      (∃ folder base : String, '/' ∉ folder.toList ∧ '/' ∉ base.toList ∧
        text = folder ++ "/" ++ base) ∨ IsDeep text := by
  have hlength := length_splitOn '/' text.toList
  have hwhole : ['/'].intercalate (text.toList.splitOn '/') = text.toList :=
    List.intercalate_splitOn '/'
  have hslash : ∀ part ∈ text.toList.splitOn '/', '/' ∉ part := fun _ hpart => (mem_splitOn hpart).1
  rcases hparts : text.toList.splitOn '/' with _ | ⟨first, _ | ⟨second, _ | ⟨third, others⟩⟩⟩
  · exact absurd hparts (List.splitOn_ne_nil '/' text.toList)
  · rw [hparts] at hwhole hslash
    rw [List.intercalate_singleton] at hwhole
    exact Or.inl (hwhole ▸ hslash first List.mem_cons_self)
  · rw [hparts] at hwhole hslash
    obtain ⟨hfirst, hrest⟩ := List.forall_mem_cons.1 hslash
    refine Or.inr (Or.inl ⟨.ofList first, .ofList second, ?_, ?_, ?_⟩)
    · rwa [String.toList_ofList]
    · rw [String.toList_ofList]
      exact hrest second List.mem_cons_self
    · rw [← String.toList_inj, toList_joined, String.toList_ofList, String.toList_ofList, ← hwhole,
        List.intercalate_cons_cons, List.intercalate_singleton, List.append_assoc,
        List.singleton_append]
  · rw [hparts, List.length_cons, List.length_cons, List.length_cons] at hlength
    refine Or.inr (Or.inr ?_)
    rw [IsDeep]
    omega

/-- **A text is read as the plain id that it is the text of**, and as nothing else. -/
theorem parse_eq_ok {text : String} {id : ModelId} :
    parse text = .ok id ↔ id.IsPlain ∧ id.text = text := by
  constructor
  · intro h
    rcases slashes_cases text with hnone | ⟨folder, base, hfolder, hbase, rfl⟩ | hdeep
    · rw [parse_plain hnone] at h
      obtain rfl := Except.ok.inj h
      exact ⟨isPlain_base.2 hnone, rfl⟩
    · rw [parse_joined folder base hfolder hbase] at h
      split at h
      · cases h
      · next hempty =>
        obtain rfl := Except.ok.inj h
        rw [Bool.or_eq_true, not_or, List.isEmpty_iff, List.isEmpty_iff, String.toList_eq_nil_iff,
          String.toList_eq_nil_iff] at hempty
        exact ⟨isPlain_inFolder.2 ⟨hempty.1, hempty.2, hfolder, hbase⟩, rfl⟩
    · rw [parse_of_isDeep hdeep] at h
      cases h
  · rintro ⟨hplain, rfl⟩
    exact parse_text hplain

/-- What is wrong with a text that is no id: its only slash stands at one of its ends, or it has more
    of them. -/
inductive IsFaultOf (text : String) : IdFault → Prop
  | emptyPart (part : String) (hslash : '/' ∉ part.toList)
      (htext : text = "/" ++ part ∨ text = part ++ "/") : IsFaultOf text .emptyPart
  | nested (hdeep : IsDeep text) : IsFaultOf text (.nested (text.toList.count '/'))

/-- **A text is refused for its slashes**, and for nothing else. -/
theorem parse_eq_error {text : String} {fault : IdFault} :
    parse text = .error fault ↔ IsFaultOf text fault := by
  constructor
  · intro h
    rcases slashes_cases text with hnone | ⟨folder, base, hfolder, hbase, rfl⟩ | hdeep
    · rw [parse_plain hnone] at h
      cases h
    · rw [parse_joined folder base hfolder hbase] at h
      split at h
      · next hempty =>
        obtain rfl := Except.error.inj h
        rw [Bool.or_eq_true, List.isEmpty_iff, List.isEmpty_iff, String.toList_eq_nil_iff,
          String.toList_eq_nil_iff] at hempty
        rcases hempty with rfl | rfl
        · exact .emptyPart base hbase (.inl (by rw [String.empty_append]))
        · exact .emptyPart folder hfolder (.inr String.append_empty)
      · cases h
    · rw [parse_of_isDeep hdeep] at h
      obtain rfl := Except.error.inj h
      exact .nested hdeep
  · rintro (⟨part, hslash, rfl | rfl⟩ | hdeep)
    · have hjoined := parse_joined "" part List.not_mem_nil hslash
      rw [String.empty_append] at hjoined
      exact hjoined
    · have hjoined := parse_joined part "" hslash List.not_mem_nil
      rw [String.append_empty] at hjoined
      rw [hjoined, if_pos (by simp)]
    · exact parse_of_isDeep hdeep

/-- **The grammar of ids**: one part, or a folder and a base with a slash between them, where no part is
    empty or has a slash in it. -/
inductive Splits : String → ModelId → Prop
  | plain (base : String) (hne : base ≠ "") (hslash : '/' ∉ base.toList) : Splits base ⟨none, base⟩
  | joined (folder base : String) (hfolder : folder ≠ "") (hbase : base ≠ "")
      (hslash : '/' ∉ folder.toList) (hslash' : '/' ∉ base.toList) :
      Splits (folder ++ "/" ++ base) ⟨some folder, base⟩

theorem splits_iff {text : String} {id : ModelId} :
    Splits text id ↔ id.IsPlain ∧ id.text = text ∧ text ≠ "" := by
  constructor
  · rintro (⟨base, hne, hslash⟩ | ⟨folder, base, hfolder, hbase, hslash, hslash'⟩)
    · exact ⟨isPlain_base.2 hslash, rfl, hne⟩
    · exact ⟨isPlain_inFolder.2 ⟨hfolder, hbase, hslash, hslash'⟩, rfl, by simp⟩
  · rintro ⟨hplain, rfl, hne⟩
    obtain ⟨_ | folder, base⟩ := id
    · exact .plain base hne (isPlain_base.1 hplain)
    · obtain ⟨hfolder, hbase, hslash, hslash'⟩ := isPlain_inFolder.1 hplain
      exact .joined folder base hfolder hbase hslash hslash'

/-- **WHICH TEXTS ARE IDS.**  A text is split as the grammar has it exactly if it is not empty.  Whatever
    it is, it is a plain id exactly if there is no slash in it, and an id in a folder exactly if it is
    the folder, a slash and the base, which are not empty and have no slash in them.  A text with one
    slash at one of its ends is refused, and so is one with more slashes; an entry in use under such a
    key refuses its provider, with the text in the error.  An id gives its text back, so no two texts
    are read as one. -/
theorem parse_spec (text : String) :
    ((∀ id, parse text = .ok id ↔ Splits text id) ↔ text ≠ "") ∧
    (∀ base : String, parse text = .ok ⟨none, base⟩ ↔ base = text ∧ '/' ∉ text.toList) ∧
    (∀ folder base : String, parse text = .ok ⟨some folder, base⟩ ↔
      text = folder ++ "/" ++ base ∧ folder ≠ "" ∧ base ≠ "" ∧
        '/' ∉ folder.toList ∧ '/' ∉ base.toList) ∧
    (∀ fault, parse text = .error fault ↔ IsFaultOf text fault) ∧
    (∀ fault, IsFaultOf text fault →
      ∀ (provider : String) (value : Json), Document.isInUse value = true →
        Document.verdict provider text value = .fatal (.invalidModelId text fault)) ∧
    ∀ id, parse text = .ok id → id.text = text ∧ ∀ other, parse other = .ok id → other = text := by
  refine ⟨?_, ?_, ?_, fun _ => parse_eq_error, ?_, ?_⟩
  · simp only [parse_eq_ok, splits_iff]
    constructor
    · -- the text without characters is the text of a plain id
      rintro hall rfl
      have hempty : IsPlain ⟨none, ""⟩ := isPlain_base.2 List.not_mem_nil
      exact ((hall ⟨none, ""⟩).1 ⟨hempty, rfl⟩).2.2 rfl
    · intro hne id
      exact and_congr_right fun _ => (and_iff_left hne).symm
  · intro base
    rw [parse_eq_ok, isPlain_base]
    constructor
    · rintro ⟨hslash, rfl⟩
      exact ⟨rfl, hslash⟩
    · rintro ⟨rfl, hslash⟩
      exact ⟨hslash, rfl⟩
  · intro folder base
    rw [parse_eq_ok, isPlain_inFolder, and_comm]
    exact and_congr_left fun _ => eq_comm
  · intro fault hfault provider value hused
    exact Document.verdict_of_inUse (parse_eq_error.2 hfault) hused
  · intro id hid
    obtain ⟨-, htext⟩ := parse_eq_ok.1 hid
    refine ⟨htext, ?_⟩
    intro other hother
    exact (parse_eq_ok.1 hother).2.symm.trans htext

/-- Slashes at both ends, at one end, in the middle, and none at all. -/
theorem parse_spec_slashes :
    parse "meta/llama-3" = .ok ⟨some "meta", "llama-3"⟩ ∧
      (∀ other, parse other = .ok ⟨some "meta", "llama-3"⟩ → other = "meta/llama-3") ∧
      (∀ id, parse " " = .ok id ↔ Splits " " id) ∧ parse " " = .ok ⟨none, " "⟩ ∧
      parse "/llama" = .error .emptyPart ∧ parse "//" = .error (.nested 2) ∧
      Document.isInUse (.object []) = true ∧
      Document.verdict "x" "//" (.object []) = .fatal (.invalidModelId "//" (.nested 2)) := by
  obtain ⟨-, -, hfolder, -, -, htells⟩ := parse_spec "meta/llama-3"
  have hllama := (hfolder "meta" "llama-3").2 (by decide)
  obtain ⟨hgrammar, hplain, -⟩ := parse_spec " "
  obtain ⟨-, -, -, hslash, -⟩ := parse_spec "/llama"
  obtain ⟨-, -, -, hslashes, hverdict, -⟩ := parse_spec "//"
  have hfault : IsFaultOf "//" (.nested 2) := .nested (by decide)
  have hused : Document.isInUse (.object []) = true := by decide +kernel
  refine ⟨hllama, (htells _ hllama).2, hgrammar.2 (by decide), (hplain " ").2 (by decide), ?_,
    (hslashes _).2 hfault, hused, hverdict _ hfault "x" _ hused⟩
  exact (hslash _).2 (.emptyPart "llama" (by decide) (.inl (by decide)))

/-- A text without characters is read as an id, and only left out for want of names. -/
theorem emptyText_passes :
    ¬ (∀ text id, parse text = .ok id ↔ Splits text id) ∧
    Document.verdict "x" "" (.object []) =
      .skipped ⟨"x/models/", .invalidModelId "" (.invalidName "")⟩ := by
  refine ⟨?_, rfl⟩
  intro hall
  have hempty : parse "" = .ok ⟨none, ""⟩ := by decide
  exact (splits_iff.1 ((hall "" _).1 hempty)).2.2 rfl

end ModelCatalog.ModelId
