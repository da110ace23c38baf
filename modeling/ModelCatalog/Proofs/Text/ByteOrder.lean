import Mathlib.Algebra.Group.Nat.Defs
import Mathlib.Data.List.Nodup
import ModelCatalog.Proofs.Text.Ascii

/-! # The order of bytes

    Texts are compared character by character, and it comes to the same to compare their bytes
    (`lt_iff_bytes_lt`).  A character with a greater number has a greater first byte, or the first
    bytes are the same and the others are in the order of what they stand for. -/

namespace ModelCatalog.Text

/-- How many bytes come behind the first one of a character. -/
def tailLength (v : Nat) : Nat :=
  if v ≤ 0x7f then 0 else if v ≤ 0x7ff then 1 else if v ≤ 0xffff then 2 else 3

/-- The bits of the first byte that tell how many come behind it. -/
def mark : Nat → Nat
  | 0 => 0
  | 1 => 0xc0
  | 2 => 0xe0
  | _ => 0xf0

def firstByte (v : Nat) : Nat := v / 64 ^ tailLength v + mark (tailLength v)

/-- The last bytes of a character, with six bits of its number in each. -/
def tailBytes (v : Nat) : Nat → List UInt8
  | 0 => []
  | k + 1 => UInt8.ofNat (v / 64 ^ k % 64 + 0x80) :: tailBytes v k

theorem toNat_le (c : Char) : c.toNat ≤ 0x10ffff := by
  rcases c.valid with h | h
  · exact Nat.le_trans (Nat.le_of_lt h) (by decide)
  · exact Nat.le_of_lt_succ h.2

theorem utf8EncodeChar_eq (c : Char) : String.utf8EncodeChar c =
    UInt8.ofNat (firstByte c.toNat) :: tailBytes c.toNat (tailLength c.toNat) := by
  have hmax := toNat_le c
  unfold String.utf8EncodeChar
  rw [show c.val.toNat = c.toNat from rfl]
  generalize c.toNat = v at hmax ⊢
  rw [firstByte, tailLength]
  dsimp only
  split_ifs with hone htwo hthree
  · simp only [tailBytes, mark, Nat.pow_zero, Nat.div_one, Nat.add_zero]
  · have hfirst : v / 64 % 32 = v / 64 := Nat.mod_eq_of_lt (by omega)
    simp only [tailBytes, mark, Nat.pow_zero, Nat.div_one, Nat.pow_one, hfirst]
  · have hfirst : v / 4096 % 16 = v / 4096 := Nat.mod_eq_of_lt (by omega)
    simp only [tailBytes, mark, Nat.pow_zero, Nat.div_one, Nat.pow_one, hfirst, Nat.reducePow]
  · have hfirst : v / 262144 % 8 = v / 262144 := Nat.mod_eq_of_lt (by omega)
    simp only [tailBytes, mark, Nat.pow_zero, Nat.div_one, Nat.pow_one, hfirst, Nat.reducePow]

theorem firstByte_lt {v : Nat} (h : v ≤ 0x10ffff) : firstByte v < 256 := by
  rw [firstByte, tailLength]
  split_ifs <;> simp only [mark, Nat.pow_zero, Nat.pow_one, Nat.reducePow] <;> omega

/-- **The first bytes decide**, or there are as many bytes behind them. -/
theorem firstByte_lt_or {v w : Nat} (h : v < w) :
    firstByte v < firstByte w ∨ firstByte v = firstByte w ∧ tailLength v = tailLength w ∧
      v % 64 ^ tailLength w < w % 64 ^ tailLength w := by
  rw [firstByte, firstByte, tailLength, tailLength]
  split_ifs <;> simp only [mark, Nat.pow_zero, Nat.pow_one, Nat.reducePow, true_and] <;> omega

theorem ofNat_lt_ofNat {a b : Nat} (ha : a < 256) (hb : b < 256) :
    UInt8.ofNat a < UInt8.ofNat b ↔ a < b := by
  rw [UInt8.lt_iff_toNat_lt, UInt8.toNat_ofNat', UInt8.toNat_ofNat', Nat.mod_eq_of_lt ha,
    Nat.mod_eq_of_lt hb]

/-- **Six bits a byte**: tails of one length are in the order of what they stand for. -/
theorem tailBytes_append_lt {v w : Nat} (rest rest' : List UInt8) :
    ∀ k, v % 64 ^ k < w % 64 ^ k → tailBytes v k ++ rest < tailBytes w k ++ rest' := by
  intro k
  induction k with
  | zero =>
      intro h
      rw [Nat.pow_zero, Nat.mod_one, Nat.mod_one] at h
      exact absurd h (Nat.lt_irrefl 0)
  | succ k ih =>
      intro h
      rw [Nat.mod_pow_succ, Nat.mod_pow_succ] at h
      rw [tailBytes, tailBytes, List.cons_append, List.cons_append, List.cons_lt_cons_iff,
        ofNat_lt_ofNat (by omega) (by omega)]
      rcases Nat.lt_trichotomy (v / 64 ^ k % 64) (w / 64 ^ k % 64) with hless | hsame | hgreater
      · exact Or.inl (Nat.add_lt_add_right hless _)
      · rw [hsame] at h ⊢
        exact Or.inr ⟨rfl, ih (Nat.lt_of_add_lt_add_right h)⟩
      · have hstep := Nat.mul_le_mul_left (64 ^ k) hgreater
        have hw := Nat.mod_lt w (Nat.pow_pos (n := k) (show 0 < 64 by decide))
        rw [Nat.mul_succ] at hstep
        omega

/-- **The bytes of a smaller character come first**, whatever stands behind them. -/
theorem utf8EncodeChar_append_lt {c d : Char} (h : c < d) (rest rest' : List UInt8) :
    String.utf8EncodeChar c ++ rest < String.utf8EncodeChar d ++ rest' := by
  have hlt : c.toNat < d.toNat := h
  rw [utf8EncodeChar_eq, utf8EncodeChar_eq, List.cons_append, List.cons_append,
    List.cons_lt_cons_iff, ofNat_lt_ofNat (firstByte_lt (toNat_le c)) (firstByte_lt (toNat_le d))]
  rcases firstByte_lt_or hlt with hfirst | ⟨hfirst, hlength, hrest⟩
  · exact Or.inl hfirst
  · rw [hfirst, hlength]
    exact Or.inr ⟨rfl, tailBytes_append_lt rest rest' _ hrest⟩

theorem bytes_lt_of_lt {s t : String} (h : s < t) : bytes s < bytes t := by
  rw [String.lt_iff] at h
  rw [bytes_eq, bytes_eq]
  generalize s.toList = cs at h ⊢
  generalize t.toList = ds at h ⊢
  induction cs generalizing ds with
  | nil =>
      cases ds with
      | nil => exact absurd h (List.lt_irrefl _)
      | cons d ds =>
          rw [List.flatMap_nil, List.flatMap_cons, utf8EncodeChar_eq, List.cons_append]
          exact List.nil_lt_cons _ _
  | cons c cs ih =>
      cases ds with
      | nil => cases h
      | cons d ds =>
          rw [List.flatMap_cons, List.flatMap_cons]
          rcases List.cons_lt_cons_iff.1 h with hlt | ⟨rfl, hrest⟩
          · exact utf8EncodeChar_append_lt hlt _ _
          · exact List.append_left_lt (ih ds hrest)

/-- **TEXTS ARE IN THE ORDER OF THEIR BYTES.** -/
theorem lt_iff_bytes_lt {s t : String} : s < t ↔ bytes s < bytes t := by
  refine ⟨bytes_lt_of_lt, fun h => ?_⟩
  by_contra hnot
  by_cases hsame : t = s
  · rw [hsame] at h
    exact List.lt_irrefl _ h
  · have hgreater : t < s := by
      by_contra hless
      exact hsame (String.le_antisymm (String.not_lt.1 hnot) (String.not_lt.1 hless))
    exact List.lt_asymm h (bytes_lt_of_lt hgreater)

end ModelCatalog.Text
