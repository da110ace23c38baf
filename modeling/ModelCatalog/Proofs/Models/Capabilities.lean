import ModelCatalog.Capability

/-! # Which tags an entry has

    The tags of an entry are come upon one by one, flag by flag and name by name; which of them it has
    is told by a table (`Entry.Has`).  The two agree (`Entry.mem_tags`): a name of a kind of content
    counts exactly if it is one of four (`Modality.mem_ofNames`), and no matter where it stands and how
    often.  The headline is `Entry.tagged_iff_table`. -/

namespace ModelCatalog

-- ── Sets of tags ──

namespace CapabilitySet

variable {s : CapabilitySet} {tag : Capability} {tags tags' : List Capability}

theorem mem_toList : tag ∈ s.toList ↔ s.has tag = true := by
  have hall : tag ∈ Capability.all := by cases tag <;> decide
  rw [toList, List.mem_filter]
  exact and_iff_right hall

theorem pairwise_toList (s : CapabilitySet) :
    s.toList.Pairwise fun tag tag' => tag.name < tag'.name := by
  have hall : Capability.all.Pairwise fun tag tag' => tag.name < tag'.name := by decide
  exact hall.sublist List.filter_sublist

theorem has_ofList : (ofList tags).has tag = true ↔ tag ∈ tags := decide_eq_true_iff

/-- A set is known by what it has. -/
theorem eq_of_has {s s' : CapabilitySet} (h : ∀ tag, s.has tag = true ↔ s'.has tag = true) :
    s = s' := by
  obtain ⟨has⟩ := s
  obtain ⟨has'⟩ := s'
  rw [show has = has' from funext fun tag => Bool.eq_iff_iff.2 (h tag)]

/-- A set is known by its tags. -/
theorem toList_injective : Function.Injective toList := by
  intro s s' h
  refine eq_of_has fun tag => ?_
  rw [← mem_toList, h, mem_toList]

end CapabilitySet

-- ── Kinds of content ──

namespace Modality

variable {m : Modality} {s : String} {names : List String}

/-- A text names a kind of content exactly if it is its name. -/
theorem ofName?_eq_some : ofName? s = some m ↔ m.name = s := by
  constructor
  · intro h
    simpa using List.find?_some h
  · rintro rfl
    cases m <;> decide

/-- **A kind of content is listed exactly if its name is.** -/
theorem mem_ofNames : m ∈ ofNames names ↔ m.name ∈ names := by
  rw [ofNames, List.mem_filterMap]
  constructor
  · rintro ⟨s, hs, hname⟩
    rwa [ofName?_eq_some.1 hname]
  · intro h
    exact ⟨m.name, h, ofName?_eq_some.2 rfl⟩

theorem exists_iff {P : Modality → Prop} :
    (∃ m, P m) ↔ P .text ∨ P .audio ∨ P .image ∨ P .video := by
  constructor
  · rintro ⟨m, h⟩
    cases m <;> simp [h]
  · rintro (h | h | h | h) <;> exact ⟨_, h⟩

end Modality

-- ── The table ──

namespace Entry

variable {e : Entry} {tag : Capability}

/-- The table of tags: what has to hold of an entry that has one. -/
def Has (e : Entry) : Capability → Prop
  | .toolCall => e.toolCall = true
  | .reasoning => e.reasoning = true
  | .structuredOutput => e.structuredOutput = true
  | .textInput => "text" ∈ e.modalities.input
  | .audioInput => "audio" ∈ e.modalities.input
  | .imageInput => "image" ∈ e.modalities.input ∨ e.attachment = true
  | .videoInput => "video" ∈ e.modalities.input
  | .textOutput => "text" ∈ e.modalities.output
  | .audioOutput => "audio" ∈ e.modalities.output
  | .imageOutput => "image" ∈ e.modalities.output
  | .videoOutput => "video" ∈ e.modalities.output

/-- A tag comes from a flag, or from a kind of content on one side. -/
theorem mem_tags_or : tag ∈ e.tags ↔ (true, tag) ∈ e.flags ∨
    (∃ m : Modality, m.name ∈ e.modalities.input ∧ m.inputTag = tag) ∨
    ∃ m : Modality, m.name ∈ e.modalities.output ∧ m.outputTag = tag := by
  have hflags : tag ∈ (e.flags.filter (·.1)).map (·.2) ↔ (true, tag) ∈ e.flags := by
    simp [List.mem_map, List.mem_filter]
  rw [tags, List.mem_append, List.mem_append, hflags, List.mem_map, List.mem_map, or_assoc]
  simp only [Modality.mem_ofNames]

/-- **The tags that are come upon are those of the table.** -/
theorem mem_tags : tag ∈ e.tags ↔ e.Has tag := by
  rw [mem_tags_or, Modality.exists_iff, Modality.exists_iff]
  cases tag with
  | imageInput =>
      -- the one tag that comes from two places
      simp [Has, flags, Modality.name, Modality.inputTag, Modality.outputTag, or_comm]
  | _ => simp [Has, flags, Modality.name, Modality.inputTag, Modality.outputTag]

/-- Entries that differ in nothing that the table asks for: they have the same flags, and on each
    side they list the same of the four kinds of content, in whatever order, how often and among
    whatever other names. -/
structure IsLike (e e' : Entry) : Prop where
  toolCall : e'.toolCall = e.toolCall
  reasoning : e'.reasoning = e.reasoning
  structuredOutput : e'.structuredOutput = e.structuredOutput
  attachment : e'.attachment = e.attachment
  input : ∀ m : Modality, m.name ∈ e'.modalities.input ↔ m.name ∈ e.modalities.input
  output : ∀ m : Modality, m.name ∈ e'.modalities.output ↔ m.name ∈ e.modalities.output

theorem IsLike.mem_tags {e e' : Entry} (h : e.IsLike e') : tag ∈ e'.tags ↔ tag ∈ e.tags := by
  have hflags : e'.flags = e.flags := by
    rw [flags, flags, h.toolCall, h.reasoning, h.structuredOutput, h.attachment]
  rw [mem_tags_or, mem_tags_or, hflags]
  simp only [h.input, h.output]

/-- **THE TABLE IS THE RULE.**  An entry has exactly the tags of the table, they are listed in the
    order of their names, and entries that are alike in what the table asks for have the same. -/
theorem tagged_iff_table (e : Entry) :
    (∀ tag, e.capabilities.has tag = true ↔ e.Has tag) ∧
      (∀ tag, tag ∈ e.capabilities.toList ↔ e.Has tag) ∧
      (e.capabilities.toList.map Capability.name).Pairwise (· < ·) ∧
      ∀ e', e.IsLike e' → e'.capabilities = e.capabilities := by
  have hhas : ∀ tag, e.capabilities.has tag = true ↔ e.Has tag := fun tag =>
    CapabilitySet.has_ofList.trans mem_tags
  refine ⟨hhas, fun tag => CapabilitySet.mem_toList.trans (hhas tag), ?_, fun e' h => ?_⟩
  · exact List.pairwise_map.2 (CapabilitySet.pairwise_toList e.capabilities)
  · refine CapabilitySet.eq_of_has fun tag => ?_
    exact CapabilitySet.has_ofList.trans (h.mem_tags.trans CapabilitySet.has_ofList.symm)

end Entry

end ModelCatalog
