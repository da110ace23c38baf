import ModelCatalog.Proofs.Text.ByteOrder

/-! # Texts in raw texts

    A text is found again in its bytes (`text?_ofString`), as its characters are read from them one
    after the other (`characters_encode`), so a raw text is known to be a text by what it is shown as
    (`text?_eq_some`).  A character of one byte is in a text if its byte is (`mem_bytes_ofString`).

    What is no text is shown with marks.  But a character of several bytes that has begun is never
    read as one of a single byte (`Begun.IsSound`), so those that are shown are there
    (`mem_of_mem_display`), and what is shown with no others is what it seems (`eq_of_display`). -/

namespace ModelCatalog.RawText

-- ── Characters are read again ──

theorem toNat_ofNat_of_lt {n : Nat} (h : n < 256) : (UInt8.ofNat n).toNat = n := Nat.mod_eq_of_lt h

/-- The last byte of a character. -/
theorem characters_last {bits byte least greatest : Nat} (h : byte < 256) (hleast : least ≤ byte)
    (hgreatest : byte ≤ greatest) (rest : List UInt8) :
    characters (UInt8.ofNat byte :: rest) (some ⟨bits, 0, least, greatest⟩)
      = some (Char.ofNat (bits * 64 + byte % 64)) :: characters rest none := by
  rw [characters]
  dsimp only
  rw [toNat_ofNat_of_lt h, if_neg (by simp; omega)]

theorem characters_more {bits missing byte least greatest : Nat} (h : byte < 256)
    (hleast : least ≤ byte) (hgreatest : byte ≤ greatest) (rest : List UInt8) :
    characters (UInt8.ofNat byte :: rest) (some ⟨bits, missing + 1, least, greatest⟩)
      = characters rest (some { bits := bits * 64 + byte % 64, missing }) := by
  rw [characters]
  dsimp only
  rw [toNat_ofNat_of_lt h, if_neg (by simp; omega)]

theorem characters_first {byte : Nat} (h : byte < 256) (hlarge : 0x80 ≤ byte) {begun : Begun}
    (hbegun : begun? byte = some begun) (rest : List UInt8) :
    characters (UInt8.ofNat byte :: rest) none = characters rest (some begun) := by
  rw [characters, readFirst, toNat_ofNat_of_lt h, if_neg (by omega), hbegun]


/-- The first byte of a character of three, and the bounds that its second byte keeps. -/
theorem begun?_of_three {v : Nat} (hlarge : 0x7ff < v) (hsmall : v ≤ 0xffff)
    (hpair : v < 0xd800 ∨ 0xdfff < v) : ∃ least greatest,
    begun? (v / 4096 + 0xe0) = some ⟨v / 4096, 1, least, greatest⟩ ∧
      least ≤ v / 64 % 64 + 0x80 ∧ v / 64 % 64 + 0x80 ≤ greatest := by
  rw [begun?, if_neg (by omega), if_neg (by omega)]
  by_cases hleast : v / 4096 = 0
  · exact ⟨0xa0, 0xbf, by rw [hleast, if_pos rfl], by omega, by omega⟩
  · rw [if_neg (by omega)]
    by_cases hgreatest : v / 4096 = 0xd
    · exact ⟨0x80, 0x9f, by rw [hgreatest, if_pos rfl], by omega, by omega⟩
    · rw [if_neg (by omega), if_pos (by omega), Nat.add_sub_cancel]
      exact ⟨0x80, 0xbf, rfl, by omega, by omega⟩

/-- The first byte of a character of four, and the bounds that its second byte keeps. -/
theorem begun?_of_four {v : Nat} (hlarge : 0xffff < v) (hsmall : v < 0x110000) :
    ∃ least greatest,
    begun? (v / 262144 + 0xf0) = some ⟨v / 262144, 2, least, greatest⟩ ∧
      least ≤ v / 4096 % 64 + 0x80 ∧ v / 4096 % 64 + 0x80 ≤ greatest := by
  rw [begun?, if_neg (by omega), if_neg (by omega), if_neg (by omega), if_neg (by omega),
    if_neg (by omega)]
  by_cases hleast : v / 262144 = 0
  · exact ⟨0x90, 0xbf, by rw [hleast, if_pos rfl], by omega, by omega⟩
  · rw [if_neg (by omega)]
    by_cases hgreatest : v / 262144 = 4
    · exact ⟨0x80, 0x8f, by rw [hgreatest, if_neg (by omega), if_pos rfl], by omega, by omega⟩
    · rw [if_pos (by omega), Nat.add_sub_cancel]
      exact ⟨0x80, 0xbf, rfl, by omega, by omega⟩

theorem characters_encode (c : Char) (rest : List UInt8) :
    characters (String.utf8EncodeChar c ++ rest) none = some c :: characters rest none := by
  have hc : Char.ofNat c.val.toNat = c := Char.ofNat_toNat c
  have hvalid : c.val.toNat < 0xd800 ∨ 0xdfff < c.val.toNat ∧ c.val.toNat < 0x110000 := c.valid
  unfold String.utf8EncodeChar
  generalize c.val.toNat = v at hc hvalid
  dsimp only
  split
  · rw [List.singleton_append, characters, readFirst, toNat_ofNat_of_lt (by omega),
      if_pos (by omega), hc]
  · split
    · have hbegun : begun? (v / 64 % 32 + 0xc0) = some { bits := v / 64, missing := 0 } := by
        rw [begun?, if_neg (by omega), if_pos (by omega), Nat.add_sub_cancel,
          Nat.mod_eq_of_lt (by omega)]
      rw [List.cons_append, characters_first (by omega) (by omega) hbegun, List.singleton_append,
        characters_last (by omega) (by omega) (by omega),
        show v / 64 * 64 + (v % 64 + 0x80) % 64 = v by omega, hc]
    · split
      · obtain ⟨least, greatest, hbegun, hleast, hgreatest⟩ :=
          begun?_of_three (v := v) (by omega) (by omega) (by omega)
        rw [Nat.mod_eq_of_lt (show v / 4096 < 16 by omega), List.cons_append,
          characters_first (by omega) (by omega) hbegun, List.cons_append,
          characters_more (by omega) hleast hgreatest, List.singleton_append,
          characters_last (by omega) (by omega) (by omega),
          show (v / 4096 * 64 + (v / 64 % 64 + 0x80) % 64) * 64 + (v % 64 + 0x80) % 64 = v by omega,
          hc]
      · obtain ⟨least, greatest, hbegun, hleast, hgreatest⟩ :=
          begun?_of_four (v := v) (by omega) (by omega)
        rw [Nat.mod_eq_of_lt (show v / 262144 < 8 by omega), List.cons_append,
          characters_first (by omega) (by omega) hbegun, List.cons_append,
          characters_more (by omega) hleast hgreatest, List.cons_append,
          characters_more (by omega) (by omega) (by omega), List.singleton_append,
          characters_last (by omega) (by omega) (by omega),
          show ((v / 262144 * 64 + (v / 4096 % 64 + 0x80) % 64) * 64
            + (v / 64 % 64 + 0x80) % 64) * 64 + (v % 64 + 0x80) % 64 = v by omega, hc]

theorem characters_flatMap_encode (cs : List Char) :
    characters (cs.flatMap String.utf8EncodeChar) none = cs.map some := by
  induction cs with
  | nil => rfl
  | cons c rest ih => rw [List.flatMap_cons, characters_encode, ih, List.map_cons]

theorem display_ofString (s : String) : (ofString s).display = s := by
  rw [display, ofString, Text.bytes_eq, characters_flatMap_encode, List.map_map]
  exact (congrArg String.ofList (List.map_id _)).trans String.ofList_toList

/-- **A text is found again** in its bytes. -/
@[simp] theorem text?_ofString (s : String) : (ofString s).text? = some s := by
  rw [text?, display_ofString, if_pos rfl]

theorem text?_eq_some {r : RawText} {s : String} : r.text? = some s ↔ r = ofString s := by
  constructor
  · intro h
    rw [text?, Option.ite_none_right_eq_some, Option.some.injEq] at h
    rw [← h.2, h.1]
  · rintro rfl
    exact text?_ofString s

theorem isText_iff {r : RawText} : r.isText = true ↔ ∃ s : String, r = s := by
  rw [isText, Option.isSome_iff_exists]
  exact exists_congr fun s => text?_eq_some

/-- Raw texts that are texts. -/
theorem exists_texts {rs : List RawText} (h : ∀ r ∈ rs, r.isText = true) :
    ∃ texts : List String, rs = texts.map ofString := by
  induction rs with
  | nil => exact ⟨[], rfl⟩
  | cons r rest ih =>
      obtain ⟨hr, hrest⟩ := List.forall_mem_cons.1 h
      obtain ⟨s, rfl⟩ := isText_iff.1 hr
      obtain ⟨texts, rfl⟩ := ih hrest
      exact ⟨s :: texts, rfl⟩

theorem filterMap_text? (texts : List String) : (texts.map ofString).filterMap text? = texts := by
  rw [List.filterMap_map, show text? ∘ ofString = some from funext text?_ofString,
    List.filterMap_some]

-- ── Characters of one byte ──

theorem ofNat_inj {a b : Nat} (ha : a < 256) (hb : b < 256) :
    UInt8.ofNat a = UInt8.ofNat b ↔ a = b := by
  rw [← UInt8.toNat_inj, toNat_ofNat_of_lt ha, toNat_ofNat_of_lt hb]

theorem encode_ne_nil (c : Char) : String.utf8EncodeChar c ≠ [] := by
  rw [Text.utf8EncodeChar_eq]
  exact List.cons_ne_nil _ _

theorem encode_of_lt {c : Char} (hc : c.toNat < 128) :
    String.utf8EncodeChar c = [UInt8.ofNat c.toNat] := by
  rw [Text.utf8EncodeChar_eq, Text.tailLength, if_pos (by omega), Text.firstByte, Text.tailLength,
    if_pos (by omega)]
  simp [Text.tailBytes, Text.mark]

theorem le_of_mem_tailBytes {v k : Nat} {b : UInt8} (h : b ∈ Text.tailBytes v k) :
    128 ≤ b.toNat := by
  induction k with
  | zero => exact absurd h List.not_mem_nil
  | succ k ih =>
      rcases List.mem_cons.1 h with rfl | h
      · rw [toNat_ofNat_of_lt (by omega)]
        omega
      · exact ih h

/-- A character of several bytes has great ones only. -/
theorem le_of_mem_encode {c : Char} (hc : 128 ≤ c.toNat) {b : UInt8}
    (h : b ∈ String.utf8EncodeChar c) : 128 ≤ b.toNat := by
  rw [Text.utf8EncodeChar_eq] at h
  rcases List.mem_cons.1 h with rfl | h
  · rw [toNat_ofNat_of_lt (Text.firstByte_lt (Text.toNat_le c)), Text.firstByte, Text.tailLength]
    split_ifs <;> simp only [Text.mark, Nat.pow_one, Nat.reducePow] <;> omega
  · exact le_of_mem_tailBytes h

/-- A byte that is a character of its own is the only one of its character. -/
theorem encode_eq_singleton {b : UInt8} {c : Char} (hb : b < 128)
    (h : b ∈ String.utf8EncodeChar c) : String.utf8EncodeChar c = [b] := by
  have hsmall : b.toNat < 128 := UInt8.lt_iff_toNat_lt.1 hb
  by_cases hc : c.toNat < 128
  · rw [encode_of_lt hc] at h ⊢
    rw [List.mem_singleton.1 h]
  · have hlarge := le_of_mem_encode (Nat.le_of_not_lt hc) h
    omega

/-- The byte of a character of one byte is in no other character. -/
theorem mem_encode_iff {c d : Char} (hc : c.toNat < 128) :
    UInt8.ofNat c.toNat ∈ String.utf8EncodeChar d ↔ c = d := by
  by_cases hd : d.toNat < 128
  · rw [encode_of_lt hd, List.mem_singleton, ofNat_inj (by omega) (by omega), Char.toNat_inj]
  · refine iff_of_false (fun h => ?_) fun h => hd (h ▸ hc)
    have hlarge := le_of_mem_encode (Nat.le_of_not_lt hd) h
    rw [toNat_ofNat_of_lt (by omega)] at hlarge
    omega

/-- **A character of one byte** is in a text if its byte is. -/
theorem mem_bytes_ofString {c : Char} (hc : c.toNat < 128) (s : String) :
    UInt8.ofNat c.toNat ∈ (ofString s).bytes ↔ c ∈ s.toList := by
  rw [ofString, Text.bytes_eq, List.mem_flatMap]
  constructor
  · rintro ⟨d, hd, hmem⟩
    rwa [(mem_encode_iff hc).1 hmem]
  · intro h
    exact ⟨c, h, (mem_encode_iff hc).2 rfl⟩

theorem slash_mem_ofString {s : String} : slash ∈ (ofString s).bytes ↔ '/' ∈ s.toList :=
  mem_bytes_ofString (c := '/') (by decide) s

theorem nul_mem_ofString {s : String} : nul ∈ (ofString s).bytes ↔ '\x00' ∈ s.toList :=
  mem_bytes_ofString (c := '\x00') (by decide) s

-- ── Parts of texts ──

/-- Before a byte at the end of a text that is a character of its own stands a text. -/
theorem exists_of_encode_concat {cs : List Char} {front : List UInt8} {b : UInt8} (hb : b < 128)
    (h : cs.flatMap String.utf8EncodeChar = front ++ [b]) :
    ∃ before : List Char, front = before.flatMap String.utf8EncodeChar := by
  rcases List.eq_nil_or_concat' cs with rfl | ⟨before, c, rfl⟩
  · exact absurd h (by simp)
  · rw [List.flatMap_append, List.flatMap_singleton] at h
    have hlast : b ∈ String.utf8EncodeChar c := by
      have hgetLast := congrArg List.getLast? h
      rw [List.getLast?_concat, List.getLast?_append_of_ne_nil _ (encode_ne_nil c)] at hgetLast
      exact List.mem_of_getLast? hgetLast
    rw [encode_eq_singleton hb hlast] at h
    exact ⟨before, (List.append_cancel_right h).symm⟩

theorem exists_of_encode_append {cs : List Char} {front back : List UInt8}
    (hback : ∀ b ∈ back, b < 128) (h : cs.flatMap String.utf8EncodeChar = front ++ back) :
    ∃ before : List Char, front = before.flatMap String.utf8EncodeChar := by
  induction back generalizing front with
  | nil => exact ⟨cs, (h.trans (List.append_nil front)).symm⟩
  | cons b rest ih =>
      obtain ⟨hb, hrest⟩ := List.forall_mem_cons.1 hback
      obtain ⟨between, hbetween⟩ := ih hrest (h.trans (List.append_cons front b rest))
      exact exists_of_encode_concat hb hbetween.symm

/-- **What stands before characters of one byte** in a text is a text. -/
theorem exists_of_ofString_append {s t : String} {r : RawText}
    (ht : (Text.bytes t).all (· < 128) = true) (h : ofString s = r ++ ofString t) :
    ∃ u : String, r = u := by
  have hsmall : ∀ b ∈ Text.bytes t, b < 128 := fun b hb =>
    of_decide_eq_true (List.all_eq_true.1 ht b hb)
  have hbytes : s.toList.flatMap String.utf8EncodeChar = r.bytes ++ Text.bytes t := by
    rw [← Text.bytes_eq]
    exact congrArg bytes h
  obtain ⟨cs, hcs⟩ := exists_of_encode_append hsmall hbytes
  refine ⟨.ofList cs, RawText.ext ?_⟩
  rw [ofString, Text.bytes_eq, String.toList_ofList, hcs]

-- ── What is shown ──

namespace Begun

/-- The least number that a character can stand for that has begun so. -/
def low (b : Begun) : Nat := (b.bits * 64 + (b.least - 128)) * 64 ^ b.missing

/-- The number behind the greatest one. -/
def high (b : Begun) : Nat := (b.bits * 64 + (b.greatest - 128) + 1) * 64 ^ b.missing

/-- A character of several bytes has begun: whatever comes next within the bounds, it stands for no
    small number, for none behind all characters, and for no half of a pair. -/
structure IsSound (b : Begun) : Prop where
  least : 128 ≤ b.least
  greatest : b.greatest < 192
  low : 128 ≤ b.low
  high : b.high ≤ 0xd800 ∨ 0xe000 ≤ b.low ∧ b.high ≤ 0x110000

variable {b : Begun} {byte : Nat}

theorem isSound_of_begun? (h : begun? byte = some b) : b.IsSound := by
  rw [begun?] at h
  split_ifs at h
  all_goals
    obtain rfl := Option.some.inj h
    constructor <;> simp only [Begun.low, Begun.high] <;> omega

namespace IsSound

theorem next (h : b.IsSound) {missing : Nat} (hmissing : b.missing = missing + 1)
    (hleast : b.least ≤ byte) (hgreatest : byte ≤ b.greatest) :
    IsSound { bits := b.bits * 64 + byte % 64, missing } := by
  obtain ⟨hl, hg, hlow, hhigh⟩ := h
  have hbyte : byte % 64 = byte - 128 := by omega
  have hlow' : b.low ≤ Begun.low { bits := b.bits * 64 + byte % 64, missing } := by
    rw [Begun.low, Begun.low, hmissing, Nat.pow_succ', ← Nat.mul_assoc, hbyte]
    exact Nat.mul_le_mul_right _ (by dsimp only; omega)
  have hhigh' : Begun.high { bits := b.bits * 64 + byte % 64, missing } ≤ b.high := by
    rw [Begun.high, Begun.high, hmissing, Nat.pow_succ', ← Nat.mul_assoc, hbyte]
    exact Nat.mul_le_mul_right _ (by dsimp only; omega)
  refine ⟨Nat.le_refl 128, Nat.lt_succ_self 191, Nat.le_trans hlow hlow', ?_⟩
  rcases hhigh with hhigh | ⟨hpair, hhigh⟩
  · exact Or.inl (Nat.le_trans hhigh' hhigh)
  · exact Or.inr ⟨Nat.le_trans hpair hlow', Nat.le_trans hhigh' hhigh⟩

theorem last (h : b.IsSound) (hmissing : b.missing = 0)
    (hleast : b.least ≤ byte) (hgreatest : byte ≤ b.greatest) :
    128 ≤ (Char.ofNat (b.bits * 64 + byte % 64)).toNat := by
  obtain ⟨hl, hg, hlow, hhigh⟩ := h
  rw [Begun.low, hmissing, Nat.pow_zero, Nat.mul_one] at hlow hhigh
  rw [Begun.high, hmissing, Nat.pow_zero, Nat.mul_one] at hhigh
  have hvalid : (b.bits * 64 + byte % 64).isValidChar := by
    rw [Nat.isValidChar]
    omega
  have hvalue : (Char.ofNat (b.bits * 64 + byte % 64)).toNat = b.bits * 64 + byte % 64 := by
    rw [Char.ofNat, dif_pos hvalid]
    rfl
  omega

end IsSound

end Begun

/-- Where a character of several bytes has begun, the next one has as many, or none is there. -/
theorem exists_large (bytes : List UInt8) {b : Begun} (h : b.IsSound) :
    ∃ x ∈ characters bytes (some b), ∀ c ∈ x, 128 ≤ c.toNat := by
  induction bytes generalizing b with
  | nil => exact ⟨none, List.mem_cons_self, fun c hc => by cases hc⟩
  | cons byte rest ih =>
      rw [characters]
      by_cases hbounds : byte.toNat < b.least ∨ b.greatest < byte.toNat
      · rw [if_pos (by simpa using hbounds)]
        exact ⟨none, List.mem_cons_self, fun c hc => by cases hc⟩
      · rw [if_neg (by simpa using hbounds)]
        rw [not_or, Nat.not_lt, Nat.not_lt] at hbounds
        cases hmissing : b.missing with
        | zero =>
            refine ⟨_, List.mem_cons_self, fun c hc => ?_⟩
            obtain rfl := Option.some.inj hc
            exact h.last hmissing hbounds.1 hbounds.2
        | succ missing => exact ih (h.next hmissing hbounds.1 hbounds.2)

/-- A byte that is a character of its own. -/
theorem ofNat_toNat_of_lt {byte : UInt8} (h : byte.toNat < 128) :
    UInt8.ofNat (Char.ofNat byte.toNat).toNat = byte := by
  have hvalid : byte.toNat.isValidChar := Or.inl (by omega)
  have hvalue : (Char.ofNat byte.toNat).toNat = byte.toNat := by
    rw [Char.ofNat, dif_pos hvalid]
    rfl
  rw [hvalue, UInt8.ofNat_toNat]

/-- A character of one byte that is read is one of the bytes. -/
theorem mem_of_mem_characters {bytes : List UInt8} {begun : Option Begun}
    (hsound : ∀ b ∈ begun, b.IsSound) {c : Char} (hc : c.toNat < 128)
    (h : some c ∈ characters bytes begun) : UInt8.ofNat c.toNat ∈ bytes := by
  induction bytes generalizing begun with
  | nil => cases begun <;> simp [characters] at h
  | cons byte rest ih =>
      have hfirst : some c ∈ readFirst byte.toNat (characters rest) →
          UInt8.ofNat c.toNat ∈ byte :: rest := by
        intro hmem
        rw [readFirst] at hmem
        split at hmem
        · next hsmall =>
          rcases List.mem_cons.1 hmem with hhere | hrest
          · rw [Option.some.inj hhere, ofNat_toNat_of_lt hsmall]
            exact List.mem_cons_self
          · exact List.mem_cons_of_mem _ (ih (by simp) hrest)
        · split at hmem
          · next b hb =>
            refine List.mem_cons_of_mem _ (ih (fun b' hb' => ?_) hmem)
            rw [← Option.some.inj hb']
            exact Begun.isSound_of_begun? hb
          · exact List.mem_cons_of_mem _ (ih (by simp) (List.mem_of_ne_of_mem (by simp) hmem))
      cases begun with
      | none => exact hfirst (by rwa [characters] at h)
      | some b =>
          have hb := hsound b rfl
          rw [characters] at h
          by_cases hbounds : byte.toNat < b.least ∨ b.greatest < byte.toNat
          · rw [if_pos (by simpa using hbounds)] at h
            exact hfirst (List.mem_of_ne_of_mem (by simp) h)
          · rw [if_neg (by simpa using hbounds)] at h
            rw [not_or, Nat.not_lt, Nat.not_lt] at hbounds
            refine List.mem_cons_of_mem _ ?_
            cases hmissing : b.missing with
            | zero =>
                rw [hmissing] at h
                rcases List.mem_cons.1 h with hhere | hrest
                · have hlarge := hb.last hmissing hbounds.1 hbounds.2
                  rw [← Option.some.inj hhere] at hlarge
                  omega
                · exact ih (by simp) hrest
            | succ missing =>
                rw [hmissing] at h
                refine ih (fun b' hb' => ?_) h
                rw [← Option.some.inj hb']
                exact hb.next hmissing hbounds.1 hbounds.2

/-- Bytes that are shown as characters of one byte each are these. -/
theorem eq_map_of_characters {bytes : List UInt8} {cs : List Char} (hsmall : ∀ c ∈ cs, c.toNat < 128)
    (h : characters bytes none = cs.map some) : bytes = cs.map fun c => UInt8.ofNat c.toNat := by
  induction bytes generalizing cs with
  | nil =>
      rw [characters] at h
      rw [List.map_eq_nil_iff.1 h.symm]
      rfl
  | cons byte rest ih =>
      rw [characters, readFirst] at h
      split at h
      · next hbyte =>
        obtain ⟨c, others, rfl, hc, hothers⟩ := List.map_eq_cons_iff.1 h.symm
        rw [List.map_cons, ← ih (fun d hd => hsmall d (List.mem_cons_of_mem _ hd)) hothers.symm,
          Option.some.inj hc, ofNat_toNat_of_lt hbyte]
      · split at h
        · next b hb =>
          -- the character that has begun is none of one byte
          obtain ⟨x, hx, hlarge⟩ := exists_large rest (Begun.isSound_of_begun? hb)
          rw [h] at hx
          obtain ⟨c, hc, rfl⟩ := List.mem_map.1 hx
          have := hlarge c rfl
          have := hsmall c hc
          omega
        · obtain ⟨c, others, -, hc, -⟩ := List.map_eq_cons_iff.1 h.symm
          cases hc

/-- A character of one byte that is shown is one of the bytes. -/
theorem mem_of_mem_display {r : RawText} {c : Char} (hc : c.toNat < 128)
    (h : c ∈ r.display.toList) : UInt8.ofNat c.toNat ∈ r.bytes := by
  rw [display, String.toList_ofList] at h
  obtain ⟨x, hx, hshown⟩ := List.mem_map.1 h
  cases x with
  | none =>
      rw [Option.getD_none] at hshown
      rw [← hshown] at hc
      exact absurd hc (by decide)
  | some d =>
      obtain rfl : d = c := hshown
      exact mem_of_mem_characters (by simp) hc hx

/-- A raw text that is shown as characters of one byte each is the text that is shown. -/
theorem eq_of_display {r : RawText} {s : String} (hs : s.toList.all (·.toNat < 128) = true)
    (h : r.display = s) : r = s := by
  have hsmall : ∀ c ∈ s.toList, c.toNat < 128 := fun c hc =>
    of_decide_eq_true (List.all_eq_true.1 hs c hc)
  have hshown : (characters r.bytes none).map (·.getD replacement) = s.toList := by
    rw [← h, display, String.toList_ofList]
  -- no mark is a character of one byte
  have hcharacters : characters r.bytes none = s.toList.map some := by
    rw [← hshown, List.map_map]
    refine (List.map_id _).symm.trans (List.map_congr_left fun x hx => ?_)
    cases x with
    | some c => rfl
    | none =>
        have hmark : replacement ∈ s.toList := hshown ▸ List.mem_map_of_mem hx
        exact absurd (hsmall _ hmark) (by decide)
  refine RawText.ext ?_
  rw [eq_map_of_characters hsmall hcharacters, ofString, Text.bytes_eq, List.map_eq_flatMap]
  exact List.flatMap_congr fun c hc => (encode_of_lt (hsmall c hc)).symm

end ModelCatalog.RawText
