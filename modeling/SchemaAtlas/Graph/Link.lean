import SchemaAtlas.Graph.Mention

/-!
# Linking

Linking looks up every mention. A name that is found becomes the target of its reference, and the
definition it leads to remembers the site; a name that is not found is reported once, and its
reference stays open. Members also learn which element they belong to.
-/

namespace SchemaAtlas

/-- The positions that names stand for. -/
structure Names where
  type? : String → Option TypeId
  directive? : String → Option DirectiveId

namespace Names

variable (names : Names)

def linkRef (ref : TypeRef) : TypeRef := { ref with target := names.type? ref.name }

def linkUsage (owner : ElementId) (u : Usage) : Usage :=
  { u with definition := names.directive? u.name, parent := some owner }

def linkUsages (owner : ElementId) (us : List Usage) : List Usage := us.map (names.linkUsage owner)

/-- `self` is the element itself and `parent` the one it belongs to. -/
def linkInputValue (self parent : ElementId) (v : InputValue) : InputValue :=
  { v with
    usages := names.linkUsages self v.usages
    type := v.type.mapRef names.linkRef
    parent := some parent }

def linkInputValues (self : Nat → ElementId) (parent : ElementId) (t : Table InputValue) :
    Table InputValue :=
  t.mapIdx fun i v => names.linkInputValue (self i) parent v

def linkField (t : TypeId) (index : Nat) (f : Field) : Field :=
  { f with
    usages := names.linkUsages (.field t index) f.usages
    type := f.type.mapRef names.linkRef
    arguments := names.linkInputValues (.fieldArgument t index) (.field t index) f.arguments
    parent := some (.type t) }

def linkShape (t : TypeId) (s : Shape) : Shape :=
  { fields := s.fields.mapIdx fun i f => names.linkField t i f
    implements := s.implements.map names.linkRef }

def linkEnumValue (t : TypeId) (index : Nat) (v : EnumValue) : EnumValue :=
  { v with
    usages := names.linkUsages (.enumValue t index) v.usages
    parent := some (.type t) }

def linkBody (t : TypeId) : TypeBody → TypeBody
  | .enum values => .enum (values.mapIdx fun i v => names.linkEnumValue t i v)
  | .inputObject fields => .inputObject (names.linkInputValues (.inputField t) (.type t) fields)
  | .interface shape => .interface (names.linkShape t shape)
  | .object shape => .object (names.linkShape t shape)
  | .scalar => .scalar
  | .union members => .union (members.map names.linkRef)

/-- `found` are the sites that name this type. -/
def linkType (t : TypeId) (found : List Reference) (d : TypeDef) : TypeDef :=
  { d with
    usages := names.linkUsages (.type t) d.usages
    body := names.linkBody t d.body
    references := d.references ++ found }

/-- `found` are the usages of this directive. -/
def linkDirective (d : DirectiveId) (found : List UsageId) (definition : DirectiveDef) :
    DirectiveDef :=
  { definition with
    arguments := names.linkInputValues (.directiveArgument d) (.directive d) definition.arguments
    references := definition.references ++ found }

def linkBlock (b : SchemaBlock) : SchemaBlock :=
  { b with
    usages := names.linkUsages .schema b.usages
    operations := b.operations.map fun o => { o with type := names.linkRef o.type } }

/-- The type that a mention names, with the reference to remember there. -/
def typeReference? : Mention → Option (TypeId × Reference)
  | .type m => (names.type? m.name).map fun t => (t, ⟨m.kind, m.site⟩)
  | .directive _ => none

def usageReference? : Mention → Option (DirectiveId × UsageId)
  | .type _ => none
  | .directive m => (names.directive? m.name).map fun d => (d, m.usage)

/-- A mention of a name that nothing has. -/
def dangling? : Mention → Option Diagnostic
  | .type m =>
    match names.type? m.name with
    | some _ => none
    | none => some ⟨m.undefined, some m.location, m.path⟩
  | .directive m =>
    match names.directive? m.name with
    | some _ => none
    | none => some ⟨.undefinedDirective m.name m.owner, some m.location,
        m.owner.child (.usage m.name)⟩

end Names

/-- The references of `key` among pairs of a target and a reference. -/
def referencesOf {κ ρ : Type} [DecidableEq κ] (key : κ) (found : List (κ × ρ)) : List ρ :=
  found.filterMap fun e => if e.1 = key then some e.2 else none

namespace Graph

def names (g : Graph) : Names := ⟨g.typeId?, g.directiveId?⟩

def typeReferences (g : Graph) : List (TypeId × Reference) :=
  g.mentions.filterMap g.names.typeReference?

def usageReferences (g : Graph) : List (DirectiveId × UsageId) :=
  g.mentions.filterMap g.names.usageReference?

/-- The names that nothing has, in the order of the mentions. -/
def danglingNames (g : Graph) : List Diagnostic := g.mentions.filterMap g.names.dangling?

/-- The graph with every reference, parent and list of sites filled in. -/
def linked (g : Graph) : Graph :=
  let typeRefs := g.typeReferences
  let usageRefs := g.usageReferences
  { g with
    types := g.types.mapIdx fun i d => g.names.linkType ⟨i⟩ (referencesOf ⟨i⟩ typeRefs) d
    directives := g.directives.mapIdx fun i d =>
      g.names.linkDirective ⟨i⟩ (referencesOf ⟨i⟩ usageRefs) d
    block := g.block.map g.names.linkBlock }

def link (g : Graph) : Reported Graph :=
  Reported.summarize
    (fun errors => s!"Linked {g.typeReferences.length} type references and " ++
      s!"{g.usageReferences.length} directive references ({errors} errors).")
    ⟨g.linked, g.danglingNames.map Event.problem⟩

end Graph

end SchemaAtlas
