import Mathlib.Data.List.Nodup
import ModelCatalog.FileTree.Reading
import ModelCatalog.Proofs.FileTree.Locations

/-! # What a walk finds

    A walk lists the nodes below a location by the ways to them (`mem_walk`).  Every name on such a
    way is the name of a file (`isName_of_mem_walk`): it is not empty and has no slash in it.  Below
    what is no directory there is nothing (`walk_eq_nil`).  The ways come in their order and each
    comes once (`pairwise_walk`), so what is found decides the whole list. -/

namespace ModelCatalog

theorem FileName.of_isName {name : RawText} (h : isName name = true) :
    name ≠ "" ∧ RawText.slash ∉ name.bytes := by
  simp only [isName, Bool.and_eq_true] at h
  exact ⟨by simpa using h.1.1.1.1.1, by simpa using h.1.1.2⟩

namespace FileTree

/-- **A walk finds the nodes below a location**, by the ways down to them. -/
theorem mem_walk {tree : FileTree} {base way : Location} {n : Node} :
    (way, n) ∈ tree.walk base ↔
      (base ++ way, n) ∈ tree.nodes ∧ way ≠ [] ∧ way.isDown = true := by
  rw [walk, List.mem_mergeSort, List.mem_filterMap]
  constructor
  · rintro ⟨⟨l, m⟩, hmem, hway⟩
    dsimp only at hway
    split at hway
    · next found hfound =>
      split at hway
      · next hdown =>
        obtain ⟨rfl, rfl⟩ := Prod.mk.inj (Option.some.inj hway)
        exact ⟨below?_eq_some.1 hfound ▸ hmem, hdown⟩
      · exact nomatch hway
    · exact nomatch hway
  · rintro ⟨hmem, hdown⟩
    refine ⟨_, hmem, ?_⟩
    have hbelow : below? base (base ++ way) = some way := below?_eq_some.2 rfl
    simp only [hbelow]
    rw [if_pos hdown]

theorem node?_of_mem {tree : FileTree} {l : Location} {n : Node} (h : (l, n) ∈ tree.nodes) :
    ∃ m, tree.node? l = some m := by
  by_cases hground : l.isGround = true
  · exact ⟨_, node?_ground hground⟩
  · rw [node?, nodeAt, if_neg hground]
    cases hlookup : tree.nodes.lookup l with
    | some m => exact ⟨m, rfl⟩
    | none =>
        rw [List.lookup_eq_none_iff] at hlookup
        exact absurd (hlookup _ h) (by simp)

/-- A way down leads to no place that is always there. -/
theorem not_isGround_of_isDown {base way : Location} (hway : way ≠ []) (hdown : way.isDown = true) :
    ¬ (base ++ way).isGround = true := by
  obtain ⟨name, rest, rfl⟩ := List.exists_cons_of_ne_nil hway
  rw [Location.isDown, List.head?_cons, Bool.and_eq_true] at hdown
  rw [Location.isGround, Bool.or_eq_true, decide_eq_true_iff, List.all_append, List.all_cons]
  rintro (hroot | hall)
  · cases base with
    | nil =>
        obtain rfl : name = "/" := (List.cons.inj hroot).1
        simp at hdown
    | cons a base => simp [Location.root] at hroot
  · rw [Bool.and_eq_true, Bool.and_eq_true] at hall
    obtain rfl : name = ".." := by simpa using hall.2.1
    simp at hdown

theorem isName_of_node? {tree : FileTree} {base : Location} {n : Node} :
    ∀ {way : Location}, way ≠ [] → way.isDown = true → tree.node? (base ++ way) = some n →
      ∀ name ∈ way, FileName.isName name = true := by
  intro way
  -- the last name is one, and those before it lead to a directory
  induction hlength : way.length generalizing way n with
  | zero =>
      intro hway
      exact absurd (List.eq_nil_of_length_eq_zero hlength) hway
  | succ length ih =>
      intro hway hdown hn name hname
      obtain ⟨hlast, hup⟩ :=
        (isInside_of_node? hn).resolve_left (not_isGround_of_isDown hway hdown)
      rw [List.getLast?_append, List.getLast?_eq_some_getLast hway, Option.some_or,
        Option.any_some] at hlast
      rw [← List.dropLast_concat_getLast hway] at hname
      rcases List.mem_append.1 hname with hname | hname
      · have hfront : way.dropLast ≠ [] := List.ne_nil_of_mem hname
        have hdown' : Location.isDown way.dropLast = true := by
          rw [Location.isDown, List.head?_dropLast, if_pos]
          · exact hdown
          · have hpos := List.length_pos_of_mem hname
            rw [List.length_dropLast] at hpos
            omega
        rw [List.dropLast_append_of_ne_nil hway] at hup
        exact ih (by rw [List.length_dropLast]; omega) hfront hdown' hup name hname
      · rw [List.mem_singleton.1 hname]
        exact hlast

/-- **The names on the ways of a walk** are names of files. -/
theorem isName_of_mem_walk {tree : FileTree} {base way : Location} {n : Node}
    (h : (way, n) ∈ tree.walk base) : ∀ name ∈ way, FileName.isName name = true := by
  obtain ⟨hmem, hway, hdown⟩ := mem_walk.1 h
  obtain ⟨m, hm⟩ := node?_of_mem hmem
  exact isName_of_node? hway hdown hm

theorem walk_eq_nil {tree : FileTree} {base : Location} (h : tree.node? base ≠ some .directory) :
    tree.walk base = [] := by
  refine List.eq_nil_iff_forall_not_mem.2 fun ⟨way, n⟩ hmem => h ?_
  obtain ⟨hmem, hway, -⟩ := mem_walk.1 hmem
  obtain ⟨m, hm⟩ := node?_of_mem hmem
  obtain ⟨name, rest, rfl⟩ := List.exists_cons_of_ne_nil hway
  exact node?_of_isAbove ⟨name, rest, rfl⟩ hm

/-- What stands at a location that is not always there is one of the nodes. -/
theorem mem_nodes_iff {tree : FileTree} {l : Location} {n : Node} (hl : ¬ l.isGround = true) :
    (l, n) ∈ tree.nodes ↔ tree.node? l = some n := by
  have hnode : tree.node? l = tree.nodes.lookup l := by rw [node?, nodeAt, if_neg hl]
  constructor
  · intro hmem
    obtain ⟨m, hm⟩ := node?_of_mem hmem
    have hother : (l, m) ∈ tree.nodes := mem_of_lookup (hnode.symm.trans hm)
    have hsame : (l, m) = (l, n) := List.inj_on_of_nodup_map tree.isTree.nodup hother hmem rfl
    rw [hm, (Prod.mk.inj hsame).2]
  · intro h
    exact mem_of_lookup (hnode.symm.trans h)

/-- **A walk finds what stands below a location**, by the ways down. -/
theorem mem_walk_iff_node? {tree : FileTree} {base way : Location} {n : Node} :
    (way, n) ∈ tree.walk base ↔
      tree.node? (base ++ way) = some n ∧ way ≠ [] ∧ way.isDown = true := by
  rw [mem_walk]
  constructor
  · rintro ⟨hmem, hway, hdown⟩
    exact ⟨(mem_nodes_iff (not_isGround_of_isDown hway hdown)).1 hmem, hway, hdown⟩
  · rintro ⟨hnode, hway, hdown⟩
    exact ⟨(mem_nodes_iff (not_isGround_of_isDown hway hdown)).2 hnode, hway, hdown⟩

end FileTree

-- ── The order of a walk ──

namespace Location

theorem precedes_trans {l k j : Location} (h : precedes l k = true) (h' : precedes k j = true) :
    precedes l j = true := by
  induction l generalizing k j with
  | nil => rfl
  | cons a l ih =>
      cases k with
      | nil => exact nomatch h
      | cons b k =>
          cases j with
          | nil => exact nomatch h'
          | cons c j =>
              rw [precedes] at h h' ⊢
              by_cases hab : a = b
              · subst hab
                by_cases hac : a = c
                · rw [if_pos rfl] at h
                  rw [if_pos hac] at h' ⊢
                  exact ih h h'
                · rw [if_neg hac] at h' ⊢
                  exact h'
              · rw [if_neg hab, decide_eq_true_iff] at h
                by_cases hbc : b = c
                · subst hbc
                  rw [if_neg hab]
                  exact decide_eq_true h
                · rw [if_neg hbc, decide_eq_true_iff] at h'
                  have hlt : a < c := RawText.lt_trans h h'
                  have hac : a ≠ c := fun heq => RawText.lt_irrefl c (heq ▸ hlt)
                  rw [if_neg hac]
                  exact decide_eq_true hlt

theorem precedes_total (l k : Location) : (precedes l k || precedes k l) = true := by
  induction l generalizing k with
  | nil => rfl
  | cons a l ih =>
      cases k with
      | nil => rfl
      | cons b k =>
          rw [precedes, precedes]
          by_cases hab : a = b
          · rw [if_pos hab, if_pos hab.symm]
            exact ih k
          · rw [if_neg hab, if_neg fun heq => hab heq.symm, Bool.or_eq_true, decide_eq_true_iff,
              decide_eq_true_iff]
            exact RawText.lt_or_lt_of_ne hab

theorem precedes_antisymm {l k : Location} (h : precedes l k = true) (h' : precedes k l = true) :
    l = k := by
  induction l generalizing k with
  | nil =>
      cases k with
      | nil => rfl
      | cons b k => exact nomatch h'
  | cons a l ih =>
      cases k with
      | nil => exact nomatch h
      | cons b k =>
          rw [precedes] at h h'
          by_cases hab : a = b
          · rw [if_pos hab] at h
            rw [if_pos hab.symm] at h'
            rw [hab, ih h h']
          · rw [if_neg hab, decide_eq_true_iff] at h
            rw [if_neg fun heq => hab heq.symm, decide_eq_true_iff] at h'
            exact absurd h' (RawText.lt_asymm h)

/-- Whether a location comes before another in a walk. -/
def Before (l k : Location) : Prop := precedes l k = true ∧ l ≠ k

end Location

namespace FileTree

/-- Nodes on ways of their own are sorted with none before itself. -/
theorem pairwise_mergeSort_of_ne {found : List (Location × Node)}
    (h : found.Pairwise fun a b => a.1 ≠ b.1) :
    (found.mergeSort fun a b => Location.precedes a.1 b.1).Pairwise
      fun a b => a.1.Before b.1 := by
  have hsorted : (found.mergeSort fun a b => Location.precedes a.1 b.1).Pairwise
      fun a b => Location.precedes a.1 b.1 = true :=
    List.pairwise_mergeSort (fun a b c => Location.precedes_trans (l := a.1) (k := b.1) (j := c.1))
      (fun a b => Location.precedes_total a.1 b.1) found
  have hdistinct : (found.mergeSort fun a b => Location.precedes a.1 b.1).Pairwise
      fun a b => a.1 ≠ b.1 :=
    (List.mergeSort_perm found _).symm.pairwise h fun hne heq => hne heq.symm
  exact hsorted.and hdistinct

/-- **The ways of a walk come in their order**, and each comes once. -/
theorem pairwise_walk (tree : FileTree) (base : Location) :
    (tree.walk base).Pairwise fun a b => a.1.Before b.1 := by
  refine pairwise_mergeSort_of_ne ?_
  rw [List.pairwise_filterMap]
  refine (List.pairwise_map.1 tree.isTree.nodup).imp ?_
  -- two nodes found by one way stand at one location
  rintro ⟨l, n⟩ ⟨k, m⟩ hlk x hx y hy hxy
  dsimp only at hlk hx hy
  split at hx
  · next way hway =>
    split at hx
    · split at hy
      · next way' hway' =>
        split at hy
        · rw [← Option.some.inj hx, ← Option.some.inj hy] at hxy
          obtain rfl : way = way' := hxy
          exact hlk ((below?_eq_some.1 hway).trans (below?_eq_some.1 hway').symm)
        · exact nomatch hy
      · exact nomatch hy
    · exact nomatch hx
  · exact nomatch hx

end FileTree

end ModelCatalog
