import ModelCatalog.Text.Raw

/-! # Characters from bytes

    A text is kept as bytes, and to decode them is much work, in proofs too.  Where each byte is a
    character, there is no need to (`toList_of_ascii?`), which makes long texts of code easy to
    check. -/

namespace ModelCatalog.Text

/-- The characters of a text, if each of its bytes is one. -/
def ascii? (s : String) : Option (List Char) :=
  if (bytes s).all (· < 128) then some ((bytes s).map fun b => Char.ofNat b.toNat) else none

/-- A character of more than one byte starts with a greater one. -/
theorem utf8EncodeChar_of_lt {c : Char} (h : ∀ b ∈ String.utf8EncodeChar c, b < 128) :
    (String.utf8EncodeChar c).map (fun b => Char.ofNat b.toNat) = [c] := by
  unfold String.utf8EncodeChar at h ⊢
  dsimp only at h ⊢
  split at h
  · next hsmall =>
    have hbyte : (UInt8.ofNat c.val.toNat).toNat = c.val.toNat :=
      Nat.mod_eq_of_lt (Nat.lt_of_le_of_lt hsmall (by decide))
    rw [if_pos hsmall, List.map_singleton, hbyte]
    exact congrArg (fun c => [c]) (Char.ofNat_toNat c)
  · -- the first of two bytes or more
    exfalso
    split at h
    · have hfirst := UInt8.lt_iff_toNat_lt.1 (h _ List.mem_cons_self)
      simp at hfirst
      omega
    · split at h
      · have hfirst := UInt8.lt_iff_toNat_lt.1 (h _ List.mem_cons_self)
        simp at hfirst
        omega
      · have hfirst := UInt8.lt_iff_toNat_lt.1 (h _ List.mem_cons_self)
        simp at hfirst
        omega

theorem map_flatMap_encode {cs : List Char}
    (h : ∀ b ∈ cs.flatMap String.utf8EncodeChar, b < 128) :
    (cs.flatMap String.utf8EncodeChar).map (fun b => Char.ofNat b.toNat) = cs := by
  induction cs with
  | nil => rfl
  | cons c rest ih =>
      rw [List.flatMap_cons, List.forall_mem_append] at h
      rw [List.flatMap_cons, List.map_append, utf8EncodeChar_of_lt h.1, ih h.2]
      rfl

theorem toList_of_ascii? {s : String} {cs : List Char} (h : ascii? s = some cs) :
    s.toList = cs := by
  rw [ascii?, bytes_eq, Option.ite_none_right_eq_some, Option.some.injEq] at h
  obtain ⟨hascii, rfl⟩ := h
  exact (map_flatMap_encode (by simpa only [List.all_eq_true, decide_eq_true_eq] using hascii)).symm

end ModelCatalog.Text
