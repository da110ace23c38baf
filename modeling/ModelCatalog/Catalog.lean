import ModelCatalog.Document
import ModelCatalog.Tree

/-! # Catalogs

    A catalog is a directory tree or a document.  A tree is read anew whenever it is asked. -/

namespace ModelCatalog

inductive Catalog where
  | tree (root : Path)
  | document (document : Document)

namespace Catalog

/-- The catalog at a path: a directory is a tree, a file a document. -/
def openPath (files : FileTree) (path : Path) : Except Error Catalog :=
  match files.find path with
  | .error fault => .error (.notRead path fault)
  | .ok .directory => .ok (.tree path)
  | .ok (.file _) =>
    match files.readText path with
    | .error fault => .error (.notRead path fault)
    | .ok text => .document <$> Document.parse text

def providerIds (files : FileTree) (catalog : Catalog) : Except Error (List String) :=
  match catalog with
  | .tree root => Tree.providerIds files root
  | .document d => .ok (d.providers.toList.map (·.id))

/-- The metadata of a provider.  Only trees have folders. -/
def info (files : FileTree) (catalog : Catalog) (id : String) (folder? : Option String) :
    Except Error ProviderInfo :=
  match catalog with
  | .tree root => Tree.info files root id folder?
  | .document d => (·.info) <$> d.provider id

def load (files : FileTree) (catalog : Catalog) (id : String) (folder? : Option String) :
    Except Error ProviderModels :=
  match catalog with
  | .tree root => Tree.load files root id folder?
  | .document d => d.load id

end Catalog

end ModelCatalog
