import SchemaAtlas.Graph
import SchemaAtlas.Report

/-!
# Mentions

Every place in a graph that names a type or a directive, in one list. The order of the list is the
order in which missing names are reported and in which the sites of a name are remembered.
-/

namespace SchemaAtlas

/-- A place that names a type. -/
structure TypeMention where
  kind : ReferenceKind
  name : String
  location : SourceLocation
  site : ElementId
  path : ElementPath
  /-- What is wrong if no type has this name. -/
  undefined : Problem

/-- A place that names a directive. -/
structure UsageMention where
  name : String
  location : SourceLocation
  usage : UsageId
  /-- The path of the element that the directive is applied to. -/
  owner : ElementPath

inductive Mention where
  | type (m : TypeMention)
  | directive (m : UsageMention)

namespace Mention

/-- The directives applied to one element. -/
def ofUsages (owner : ElementId) (path : ElementPath) (usages : List Usage) : List Mention :=
  usages.mapIdx fun index u => directive ⟨u.name, u.location, ⟨owner, index⟩, path⟩

/-- The type of a field, argument or input field. -/
def ofTypeUse (site : ElementId) (path : ElementPath) (a : TypeUse) : Mention :=
  let ref := a.innermost
  type ⟨.typeUse, ref.name, ref.location, site, path, .undefinedType ref.name path⟩

def ofInputValue (site : ElementId) (path : ElementPath) (v : InputValue) : List Mention :=
  ofUsages site path v.usages ++ [ofTypeUse site path v.type]

/-- Arguments or input fields, as `site` and `segment` say. -/
def ofInputValues (site : Nat → ElementId) (container : ElementPath)
    (segment : String → PathSegment) (t : Table InputValue) : List Mention :=
  (t.values.mapIdx fun i v => ofInputValue (site i) (container.child (segment v.name)) v).flatten

def ofField (t : TypeId) (index : Nat) (type : ElementPath) (f : Field) : List Mention :=
  let path := type.child (.field f.name)
  ofUsages (.field t index) path f.usages ++ [ofTypeUse (.field t index) path f.type] ++
    ofInputValues (.fieldArgument t index) path .argument f.arguments

def ofShape (t : TypeId) (path : ElementPath) (s : Shape) : List Mention :=
  (s.implements.values.map fun ref =>
    type ⟨.implements, ref.name, ref.location, .type t, path, .undefinedInterface ref.name path⟩) ++
  (s.fields.values.mapIdx fun i f => ofField t i path f).flatten

def ofEnumValue (t : TypeId) (index : Nat) (type : ElementPath) (v : EnumValue) : List Mention :=
  ofUsages (.enumValue t index) (type.child (.enumValue v.name)) v.usages

def ofBody (t : TypeId) (name : String) (path : ElementPath) : TypeBody → List Mention
  | .enum values => (values.values.mapIdx fun i v => ofEnumValue t i path v).flatten
  | .inputObject fields => ofInputValues (.inputField t) path .inputField fields
  | .interface shape | .object shape => ofShape t path shape
  | .scalar => []
  | .union members => members.values.map fun ref =>
    type ⟨.unionMember, ref.name, ref.location, .type t, path,
      .undefinedUnionMember ref.name name⟩

def ofType (t : TypeId) (name : String) (d : TypeDef) : List Mention :=
  let path := ElementPath.type d.kind name
  ofUsages (.type t) path d.usages ++ ofBody t name path d.body

def ofDirective (d : DirectiveId) (definition : DirectiveDef) : List Mention :=
  ofInputValues (.directiveArgument d) (.directive definition.name) .argument definition.arguments

def ofBlock (b : SchemaBlock) : List Mention :=
  ofUsages .schema .schema b.usages ++
  b.operations.map fun o =>
    type ⟨.operation o.kind, o.type.name, o.type.location, .schema,
      ElementPath.schema.child (.operation o.kind), .undefinedOperationType o.kind o.type.name⟩

end Mention

/-- All mentions: those of each type, then of each directive, then of the schema block. -/
def Graph.mentions (g : Graph) : List Mention :=
  (g.types.entries.mapIdx fun i e => Mention.ofType ⟨i⟩ e.1 e.2).flatten ++
  (g.directives.values.mapIdx fun i d => Mention.ofDirective ⟨i⟩ d).flatten ++
  (g.block.map Mention.ofBlock).getD []

end SchemaAtlas
