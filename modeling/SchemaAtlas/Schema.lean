import SchemaAtlas.Graph.Fit

/-!
# Schemas

A graph whose analysis found no problem, and the questions that can be asked of it.
-/

namespace SchemaAtlas

structure Schema where
  types : Table TypeDef
  directives : Table DirectiveDef
  /-- Empty only if a root was not required and the schema implies none. -/
  root : Option Root

def Graph.toSchema (g : Graph) : Schema := ⟨g.types, g.directives, g.root⟩

namespace Schema

def typeAt? (s : Schema) (t : TypeId) : Option TypeDef := (s.types.at? t.index).map Prod.snd

def type? (s : Schema) (name : String) : Option TypeDef := s.types.get? name

def typeId? (s : Schema) (name : String) : Option TypeId := (s.types.indexOf? name).map TypeId.mk

def directiveAt? (s : Schema) (d : DirectiveId) : Option DirectiveDef :=
  (s.directives.at? d.index).map Prod.snd

def directive? (s : Schema) (name : String) : Option DirectiveDef := s.directives.get? name

def block? (s : Schema) : Option SchemaBlock := s.root.bind Root.block

/-- The type that serves an operation. -/
def operationType? (s : Schema) (kind : OperationKind) : Option TypeDef :=
  (s.root.bind (·.operation? kind)).bind s.typeAt?

def path (s : Schema) (e : ElementId) : ElementPath := elementPath s.types s.directives e

def usages (s : Schema) (e : ElementId) : List Usage :=
  elementUsages s.types s.directives s.block? e

/-- Follow a remembered usage back to where it stands. -/
def usage? (s : Schema) (u : UsageId) : Option Usage := (s.usages u.owner)[u.index]?

/-- Whether a value may stand where a type is expected. -/
def fits (s : Schema) (a : TypeUse) (v : Value) : Bool := v.fits s.types a

end Schema

end SchemaAtlas
