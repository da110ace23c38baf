import ModelCatalog.ModelId
import ModelCatalog.Path

/-! # Model ids as texts and as files

    A model id can be written as a text, with a slash behind the folder, or as the name of a file in
    a folder, with a dot and an extension behind it.  Both lead back to the id: `parse_text` for the
    text, `name_eq_of_extension` for the file. -/

namespace ModelCatalog

namespace ModelId

/-- An id that can be told from its text: its parts have no slash in them, and with a folder neither
    is empty. -/
structure IsPlain (id : ModelId) : Prop where
  base : '/' ∉ id.base.toList
  folder : ∀ folder, id.folder? = some folder →
    '/' ∉ folder.toList ∧ folder ≠ "" ∧ id.base ≠ ""

theorem isPlain_base {base : String} : IsPlain ⟨none, base⟩ ↔ '/' ∉ base.toList :=
  ⟨IsPlain.base, fun h => ⟨h, fun _ hnone => by cases hnone⟩⟩

theorem isPlain_inFolder {folder base : String} : IsPlain ⟨some folder, base⟩ ↔
    folder ≠ "" ∧ base ≠ "" ∧ '/' ∉ folder.toList ∧ '/' ∉ base.toList := by
  constructor
  · intro h
    obtain ⟨hslash, hne, hne'⟩ := h.folder folder rfl
    exact ⟨hne, hne', hslash, h.base⟩
  · rintro ⟨hne, hne', hslash, hbase⟩
    refine ⟨hbase, ?_⟩
    intro other hother
    obtain rfl := Option.some.inj hother
    exact ⟨hslash, hne, hne'⟩

theorem toList_joined (folder base : String) :
    (folder ++ "/" ++ base).toList = folder.toList ++ '/' :: base.toList := by
  rw [String.toList_append, String.toList_append, List.append_assoc]
  rfl

/-- A text without a slash is a base. -/
theorem parse_plain {base : String} (h : '/' ∉ base.toList) : parse base = .ok ⟨none, base⟩ := by
  rw [parse, List.splitOn_eq_singleton h]
  dsimp only
  rw [String.ofList_toList]

/-- One slash parts a folder from a base. -/
theorem parse_joined (folder base : String) (hfolder : '/' ∉ folder.toList)
    (hbase : '/' ∉ base.toList) :
    parse (folder ++ "/" ++ base) =
      if folder.toList.isEmpty || base.toList.isEmpty then .error .emptyPart
      else .ok ⟨some folder, base⟩ := by
  rw [parse, toList_joined, List.splitOn_append_cons_self_of_not_mem hfolder,
    List.splitOn_eq_singleton hbase]
  dsimp only
  rw [String.ofList_toList, String.ofList_toList]

/-- **An id is read from its text** as what it was. -/
theorem parse_text {id : ModelId} (h : id.IsPlain) : parse id.text = .ok id := by
  obtain ⟨_ | folder, base⟩ := id
  · exact parse_plain (isPlain_base.1 h)
  · obtain ⟨hne, hne', hfolder, hbase⟩ := isPlain_inFolder.1 h
    rw [text]
    dsimp only
    rw [parse_joined folder base hfolder hbase, if_neg (by simpa using ⟨hne, hne'⟩)]

end ModelId

namespace FileName

/-- **A name with an extension** is its stem, a dot and the extension; the stem is not empty. -/
theorem name_eq_of_extension {name extension : RawText} (h : extension? name = some extension) :
    stem name ≠ "" ∧ name = stem name ++ "." ++ extension := by
  have happend := List.takeWhile_append_dropWhile (p := (· != RawText.dot)) (l := name.bytes.reverse)
  have hhead := List.head?_dropWhile_not (· != RawText.dot) name.bytes.reverse
  rw [extension?, split] at h
  rw [stem, split]
  cases hdrop : name.bytes.reverse.dropWhile (· != RawText.dot) with
  | nil =>
      rw [hdrop] at h
      exact nomatch h
  | cons c rest =>
      rw [hdrop] at h happend hhead
      obtain rfl : c = RawText.dot := by simpa using hhead
      cases rest with
      | nil => exact nomatch h
      | cons d rest =>
          obtain rfl := Option.some.inj h
          have hname := congrArg List.reverse happend
          rw [List.reverse_reverse, List.reverse_append, List.reverse_cons] at hname
          exact ⟨by simp [RawText.eq_empty_iff], RawText.ext hname.symm⟩

end FileName

end ModelCatalog
