import SchemaAtlas.Definition

/-!
# Schema graphs

A graph holds the types and directives of a schema in the order in which they were defined, the
schema block if there is one, and the root once it is known. This module looks elements up in it.
-/

namespace SchemaAtlas

structure Graph where
  types : Table TypeDef := .empty
  directives : Table DirectiveDef := .empty
  block : Option SchemaBlock := none
  root : Option Root := none

namespace Graph

def typeAt? (g : Graph) (t : TypeId) : Option TypeDef := (g.types.at? t.index).map Prod.snd

def typeId? (g : Graph) (name : String) : Option TypeId := (g.types.indexOf? name).map TypeId.mk

def directiveAt? (g : Graph) (d : DirectiveId) : Option DirectiveDef :=
  (g.directives.at? d.index).map Prod.snd

def directiveId? (g : Graph) (name : String) : Option DirectiveId :=
  (g.directives.indexOf? name).map DirectiveId.mk

/-- The type that a linked reference points at. -/
def resolve (g : Graph) (ref : TypeRef) : Option (TypeId × TypeDef) :=
  ref.target.bind fun t => (g.typeAt? t).map fun d => (t, d)

def typeIds (g : Graph) : List TypeId := (List.range g.types.size).map TypeId.mk

def directiveIds (g : Graph) : List DirectiveId :=
  (List.range g.directives.size).map DirectiveId.mk

/-- Non-built-in types with their positions. -/
def ownTypes (g : Graph) : List (TypeId × TypeDef) :=
  (g.types.values.mapIdx fun i d => (TypeId.mk i, d)).filter fun e => !e.2.builtIn

/-- Non-built-in directives with their positions. -/
def ownDirectives (g : Graph) : List (DirectiveId × DirectiveDef) :=
  (g.directives.values.mapIdx fun i d => (DirectiveId.mk i, d)).filter fun e => !e.2.builtIn

end Graph

/-- The segment of a type under its name in the table. -/
def typeSegment (name : String) (d : TypeDef) : PathSegment := .type d.kind name

/-- The path of an element. A position that does not exist ends the path early. -/
def elementPath (types : Table TypeDef) (directives : Table DirectiveDef) :
    ElementId → ElementPath
  | .schema => .schema
  | .directive d =>
    match directives.at? d.index with
    | none => ⟨[]⟩
    | some (name, _) => ⟨[.directive name]⟩
  | .directiveArgument d a =>
    match directives.at? d.index with
    | none => ⟨[]⟩
    | some (name, definition) =>
      match definition.arguments.at? a with
      | none => ⟨[.directive name]⟩
      | some (argument, _) => ⟨[.directive name, .argument argument]⟩
  | .type t =>
    match types.at? t.index with
    | none => ⟨[]⟩
    | some (name, definition) => ⟨[typeSegment name definition]⟩
  | .enumValue t v =>
    match types.at? t.index with
    | none => ⟨[]⟩
    | some (name, definition) =>
      match definition.enumValues?.bind (·.at? v) with
      | none => ⟨[typeSegment name definition]⟩
      | some (value, _) => ⟨[typeSegment name definition, .enumValue value]⟩
  | .inputField t f =>
    match types.at? t.index with
    | none => ⟨[]⟩
    | some (name, definition) =>
      match definition.inputFields?.bind (·.at? f) with
      | none => ⟨[typeSegment name definition]⟩
      | some (field, _) => ⟨[typeSegment name definition, .inputField field]⟩
  | .field t f =>
    match types.at? t.index with
    | none => ⟨[]⟩
    | some (name, definition) =>
      match definition.shape?.bind (·.fields.at? f) with
      | none => ⟨[typeSegment name definition]⟩
      | some (field, _) => ⟨[typeSegment name definition, .field field]⟩
  | .fieldArgument t f a =>
    match types.at? t.index with
    | none => ⟨[]⟩
    | some (name, definition) =>
      match definition.shape?.bind (·.fields.at? f) with
      | none => ⟨[typeSegment name definition]⟩
      | some (field, fieldDef) =>
        match fieldDef.arguments.at? a with
        | none => ⟨[typeSegment name definition, .field field]⟩
        | some (argument, _) => ⟨[typeSegment name definition, .field field, .argument argument]⟩

/-- The directives applied to an element; none for one that does not exist. Directive definitions
cannot carry any. -/
def elementUsages (types : Table TypeDef) (directives : Table DirectiveDef)
    (block : Option SchemaBlock) : ElementId → List Usage
  | .schema => (block.map (·.usages)).getD []
  | .directive _ => []
  | .directiveArgument d a =>
    (((directives.at? d.index).bind fun e => e.2.arguments.at? a).map (·.2.usages)).getD []
  | .type t => ((types.at? t.index).map (·.2.usages)).getD []
  | .enumValue t v =>
    ((((types.at? t.index).bind fun e => e.2.enumValues?).bind (·.at? v)).map (·.2.usages)).getD []
  | .inputField t f =>
    ((((types.at? t.index).bind fun e => e.2.inputFields?).bind (·.at? f)).map (·.2.usages)).getD []
  | .field t f =>
    ((((types.at? t.index).bind fun e => e.2.shape?).bind (·.fields.at? f)).map
      (·.2.usages)).getD []
  | .fieldArgument t f a =>
    (((((types.at? t.index).bind fun e => e.2.shape?).bind (·.fields.at? f)).bind
      (·.2.arguments.at? a)).map (·.2.usages)).getD []

namespace Graph

def path (g : Graph) (e : ElementId) : ElementPath := elementPath g.types g.directives e

def usages (g : Graph) (e : ElementId) : List Usage :=
  elementUsages g.types g.directives g.block e

end Graph

end SchemaAtlas
