/-! # Collections in the order of a key

    An `Index key` holds values in strictly increasing order of a key that is read off each value,
    so no two of its values share a key.  The order is the one of strings: by code points, which is
    also the order of their UTF-8 bytes. -/

namespace ModelCatalog

/-- Values in strictly increasing order of their keys. -/
structure Index {α : Type} (key : α → String) where
  toList : List α
  sorted : toList.Pairwise fun a b => key a < key b

namespace Index

variable {α : Type} {key : α → String}

/-- A value is put at the place of its key and replaces the value that has the same one. -/
def place (key : α → String) (a : α) : List α → List α
  | [] => [a]
  | b :: rest =>
    if key a < key b then a :: b :: rest
    else if key a = key b then a :: rest
    else b :: place key a rest

/-- What is held after `place` was put there or was held before. -/
theorem mem_place {a c : α} {xs : List α} (h : c ∈ place key a xs) : c = a ∨ c ∈ xs := by
  induction xs with
  | nil => simpa [place] using h
  | cons b rest ih =>
    simp only [place] at h
    split at h
    · simpa using h
    · split at h
      · rcases List.mem_cons.1 h with h | h <;> simp [h]
      · rcases List.mem_cons.1 h with h | h
        · simp [h]
        · rcases ih h with h | h <;> simp [h]

/-- `place` keeps the order. -/
theorem pairwise_place (a : α) {xs : List α} (h : xs.Pairwise fun a b => key a < key b) :
    (place key a xs).Pairwise fun a b => key a < key b := by
  induction xs with
  | nil => simp [place]
  | cons b rest ih =>
    obtain ⟨hb, hrest⟩ := List.pairwise_cons.1 h
    simp only [place]
    split
    · next hlt =>
      refine List.pairwise_cons.2 ⟨fun c hc => ?_, h⟩
      rcases List.mem_cons.1 hc with rfl | hc
      · exact hlt
      · exact String.lt_trans hlt (hb c hc)
    · next hlt =>
      split
      · next heq => exact List.pairwise_cons.2 ⟨fun c hc => heq ▸ hb c hc, hrest⟩
      · next hne =>
        refine List.pairwise_cons.2 ⟨fun c hc => ?_, ih hrest⟩
        rcases mem_place hc with rfl | hc
        · have hle : key b ≤ key c := String.not_lt.1 hlt
          exact Decidable.byContradiction fun hn =>
            hne (String.le_antisymm (String.not_lt.1 hn) hle)
        · exact hb c hc

def empty : Index key := ⟨[], .nil⟩

instance : Inhabited (Index key) := ⟨empty⟩

def get? (index : Index key) (k : String) : Option α := index.toList.find? (key · == k)

/-- Adds a value; one that has the same key is replaced. -/
def insert (index : Index key) (a : α) : Index key :=
  ⟨place key a index.toList, pairwise_place a index.sorted⟩

/-- A value that is found under a key has that key. -/
theorem key_of_get? {index : Index key} {k : String} {a : α} (h : index.get? k = some a) :
    key a = k := by
  simpa using List.find?_some h

/-- What is found in a list after a value was put into it. -/
theorem find?_place (a : α) (xs : List α) (k : String) :
    (place key a xs).find? (key · == k) =
      if key a = k then some a else xs.find? (key · == k) := by
  induction xs with
  | nil => by_cases h : key a = k <;> simp [place, h]
  | cons b rest ih =>
    simp only [place]
    split
    · by_cases h : key a = k <;> simp [h]
    · split
      · next heq => by_cases h : key a = k <;> simp [h, ← heq]
      · next hne =>
        by_cases h : key b = k
        · have ha : key a ≠ k := fun ha => hne (ha.trans h.symm)
          simp [h, ha]
        · simp [h, ih]

/-- An inserted value is found under its key, and the others are found as before. -/
theorem get?_insert (index : Index key) (a : α) (k : String) :
    (index.insert a).get? k = if key a = k then some a else index.get? k :=
  find?_place a index.toList k

/-- All values of a list; of those with the same key the last one stays. -/
def ofList (xs : List α) : Index key := xs.foldl insert empty

def size (index : Index key) : Nat := index.toList.length

def isEmpty (index : Index key) : Bool := index.toList.isEmpty

end Index

end ModelCatalog
