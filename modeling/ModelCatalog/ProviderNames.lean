import ModelCatalog.Error

/-! # The names of a provider

    Generated code for a provider stands in a module of its own and declares a type.  Both are named
    after the id of the provider; the name of the type can be chosen. -/

namespace ModelCatalog

structure ProviderNames where
  providerId : String
  typeName : String
  moduleName : String
  deriving DecidableEq, Repr

namespace ProviderNames

/-- The names for an id, as long as they are identifiers. -/
def ofId (id : String) (typeName? : Option String) : Except Error ProviderNames :=
  let typeName := typeName?.getD (Identifier.typeName id)
  let moduleName := Identifier.moduleName id
  if !Identifier.isValid typeName then .error (.invalidProviderName id typeName)
  else if !Identifier.isValid moduleName then .error (.invalidProviderName id moduleName)
  else .ok ⟨id, typeName, moduleName⟩

/-- The directory of the module. -/
def modulePath (names : ProviderNames) (providersPath : Path) : Path :=
  providersPath.child names.moduleName

end ProviderNames

end ModelCatalog
