import ModelCatalog.Proofs.FileTree.Ways
import ModelCatalog.RenderedFile

/-! # Trees that develop

    While providers are visited, files are written over and taken back, and all of them have the names
    of generated files.  Everything else only grows (`Develops`): directories come and stay, no other
    file changes, and what blocks the way to the modules goes on blocking it.  Nothing more is known
    in general, as the catalog can lie below the modules and a path can lead up. -/

namespace ModelCatalog

/-- Whether a location has the name of a generated file. -/
def Location.IsGenerated (l : Location) : Prop := ∃ kind : FileKind, l.getLast? = some kind.fileName

theorem Location.not_isGenerated_concat {l : Location} {name : RawText}
    (h : ∀ kind : FileKind, name ≠ kind.fileName) : ¬ (l ++ [name]).IsGenerated := by
  rintro ⟨kind, hlast⟩
  rw [List.getLast?_concat] at hlast
  exact h kind (Option.some.inj hlast)

namespace FileTree

/-- What may become of a tree while files are generated below a path. -/
structure Develops (p : Path) (before after : FileTree) : Prop where
  keepsDirectories : KeepsDirectories before after
  elsewhere : ∀ l, ¬ l.IsGenerated → after.node? l = before.node? l ∨
    before.node? l = none ∧ after.node? l = some .directory
  blocks : ∀ v ∈ visited (start p) p.pieces, before.file? v ≠ none → after.file? v ≠ none

namespace Develops

variable {p : Path} {before between after : FileTree} {l : Location}

theorem refl (p : Path) (tree : FileTree) : Develops p tree tree :=
  ⟨fun _ h => h, fun _ _ => Or.inl rfl, fun _ _ h => h⟩

theorem trans (h : Develops p before between) (h' : Develops p between after) :
    Develops p before after := by
  refine ⟨h.keepsDirectories.trans h'.keepsDirectories, fun l hl => ?_,
    fun v hv hfile => h'.blocks v hv (h.blocks v hv hfile)⟩
  rcases h.elsewhere l hl with hsame | ⟨hnone, hdir⟩
  · rw [← hsame]
    exact h'.elsewhere l hl
  · exact Or.inr ⟨hnone, h'.keepsDirectories l hdir⟩

theorem of_growsBy {places : Location → Prop} (h : GrowsBy places before after) :
    Develops p before after := by
  refine ⟨h.keepsDirectories, fun l _ => ?_, fun v _ hfile => (h.file?_eq v).symm ▸ hfile⟩
  rcases h l with hsame | ⟨hnone, hdir, -⟩
  · exact Or.inl hsame
  · exact Or.inr ⟨hnone, hdir⟩

/-- What is not generated stays. -/
theorem node?_of_some (h : Develops p before after) {n : Node} (hl : ¬ l.IsGenerated)
    (hn : before.node? l = some n) : after.node? l = some n := by
  rcases h.elsewhere l hl with hsame | ⟨hnone, -⟩
  · rw [hsame, hn]
  · rw [hn] at hnone
    exact nomatch hnone

/-- No file comes but generated ones. -/
theorem node?_of_file (h : Develops p before after) {content : ByteArray} (hl : ¬ l.IsGenerated)
    (hfile : after.node? l = some (.file content)) : before.node? l = some (.file content) := by
  rcases h.elsewhere l hl with hsame | ⟨-, hdir⟩
  · rw [← hsame, hfile]
  · rw [hfile] at hdir
    exact nomatch hdir

end Develops

end FileTree

end ModelCatalog
