import ModelCatalog.Proofs.FileTree.Growing
import ModelCatalog.Run

/-! # What formatting changes

    A formatter is asked for the files that were written, but it also looks into the modules that they
    declare, and a scaffold declares one.  So what it changes need not have been written
    (`Formatter.IsLawful.exists_reached`).  The formatter `nested` does just this, and no more: it
    shows what a run with formatting can come to. -/

namespace ModelCatalog

open FileTree

namespace Formatter

/-- Where there is no formatter, all is as it should be. -/
theorem isLawful_missing : missing.IsLawful where
  reached _ _ _ h := absurd rfl h
  rewrites _ _ _ h := absurd rfl h

/-- **A file that is changed by formatting** is reached from one that was given, and stays a file. -/
theorem IsLawful.exists_reached {formatter : Formatter} (h : formatter.IsLawful) {paths : List Path}
    {tree : FileTree} {l : Location} (hl : (formatter.run paths tree).file? l ≠ tree.file? l) :
    (∃ p ∈ paths, formatter.Reaches tree (location p) l) ∧
      (∃ before, tree.file? l = some before) ∧
        ∃ after, (formatter.run paths tree).file? l = some after := by
  rw [run] at hl ⊢
  split at hl
  · exact absurd rfl hl
  · next hsome =>
    have hnode : (formatter.format paths tree).node? l ≠ tree.node? l :=
      fun heq => hl (file?_congr heq)
    obtain ⟨before, after, hbefore, hafter⟩ := h.rewrites paths tree l hnode
    rw [if_neg hsome]
    exact ⟨h.reached paths tree l hnode, ⟨before, file?_eq_some.2 hbefore⟩, after,
      file?_eq_some.2 hafter⟩

end Formatter

-- ── A formatter of one nested file ──

/-- The tree with another content in a file, if it is there. -/
def FileTree.refill (tree : FileTree) (l : Location) (content : ByteArray) : FileTree :=
  match h : tree.node? l with
  | some (.file _) => tree.put l (.file content) (isInside_of_node? h) (by simp [h])
  | _ => tree

theorem FileTree.refill_spec {tree : FileTree} {l k : Location} {content : ByteArray}
    (h : (tree.refill l content).node? k ≠ tree.node? k) :
    k = l ∧ ∃ before after, tree.node? k = some (.file before) ∧
      (tree.refill l content).node? k = some (.file after) := by
  rw [refill] at h ⊢
  split at h
  · next before hfile =>
    rw [node?_put] at h ⊢
    by_cases hk : k = l
    · rw [if_pos hk]
      exact ⟨hk, before, content, hk ▸ hfile, rfl⟩
    · exact absurd (if_neg hk) h
  · exact absurd rfl h

namespace Formatter

/-- A formatter that has something to say of one file only.  It comes to it from one that declares it,
    unless another file has the place in which the declared one is looked for as well. -/
def nested (outer other inner : Location) (content : ByteArray) : Formatter where
  format paths tree :=
    if paths.any (fun p => location p = outer) && (tree.node? other).isNone then
      tree.refill inner content
    else tree
  moduleFiles tree l := if l = outer ∧ tree.node? other = none then [inner] else []

theorem isLawful_nested (outer other inner : Location) (content : ByteArray) :
    (nested outer other inner content).IsLawful where
  reached paths tree l h := by
    simp only [nested] at h
    split at h
    · next hgiven =>
      obtain ⟨rfl, -⟩ := refill_spec h
      rw [Bool.and_eq_true, List.any_eq_true] at hgiven
      obtain ⟨⟨p, hp, hplace⟩, hother⟩ := hgiven
      refine ⟨p, hp, .module .self ?_⟩
      simp only [nested]
      rw [if_pos ⟨of_decide_eq_true hplace, Option.isNone_iff_eq_none.1 hother⟩]
      exact List.mem_cons_self
    · exact absurd rfl h
  rewrites paths tree l h := by
    simp only [nested] at h ⊢
    split at h
    · next hgiven =>
      rw [if_pos hgiven]
      exact (refill_spec h).2
    · exact absurd rfl h

end Formatter

end ModelCatalog
