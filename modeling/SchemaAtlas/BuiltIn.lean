import SchemaAtlas.Declaration

/-!
# Built-in definitions

The scalars and directives that every schema starts with.
-/

namespace SchemaAtlas.BuiltIn

def scalarNames : List String := ["Boolean", "Float", "ID", "Int", "String"]

def directiveNames : List String := ["deprecated", "include", "skip", "specifiedBy"]

def scalar (name : String) : Declaration := .type { name, body := .scalar }

def deprecated : DirectiveDecl where
  name := "deprecated"
  arguments := [{
    name := "reason", type := .named "String", default := some (.string "No longer supported") }]
  locations := [.fieldDefinition, .argumentDefinition, .inputFieldDefinition, .enumValue]

/-- A directive on selections that depends on a condition. -/
def conditional (name : String) : DirectiveDecl where
  name := name
  arguments := [{ name := "if", type := .nonNull (.named "Boolean") }]
  locations := [.field, .fragmentSpread, .inlineFragment]

def specifiedBy : DirectiveDecl where
  name := "specifiedBy"
  arguments := [{ name := "url", type := .nonNull (.named "String") }]
  locations := [.scalar]

def directives : List DirectiveDecl :=
  [deprecated, conditional "include", conditional "skip", specifiedBy]

def declarations : List Sourced :=
  (scalarNames.map scalar ++ directives.map Declaration.directive).map fun d => ⟨.builtIn, d⟩

end SchemaAtlas.BuiltIn
