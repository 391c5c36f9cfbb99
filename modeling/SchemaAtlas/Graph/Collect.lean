import SchemaAtlas.Graph
import SchemaAtlas.Report

/-!
# Collecting definitions

Each definition of a document becomes an element of the graph. A name that is taken keeps its first
definition, and the later one is reported and leaves no trace; the same holds inside the lists of a
definition.
-/

namespace SchemaAtlas

/-- Read a list into a table. The first entry of each name is kept; later ones are reported. -/
def gather {α β : Type} (key : α → String) (repeated : α → Reported Unit)
    (read : α → Reported β) (t : Table β) : List α → Reported (Table β)
  | [] => pure t
  | a :: rest =>
    if t.contains (key a) then do
      repeated a
      gather key repeated read t rest
    else do
      let b ← read a
      gather key repeated read (t.push (key a) b) rest

/-- A name that its list already holds. -/
def reportDuplicate (listed : Listed) (name : String) (container : ElementPath)
    (location : SourceLocation) : Reported Unit :=
  report (.duplicateName listed name container) location container

namespace Collect

def usage (origin : Origin) (owner : ElementPath) (d : UsageDecl) : Reported Usage := do
  let location := origin.locate d.pos
  let repeated (a : String × Value) : Reported Unit :=
    report (.duplicateUsageArgument a.1 d.name owner) location
      ((owner.child (.usage d.name)).child (.argument a.1))
  let arguments ← gather Prod.fst repeated (fun a => pure a.2.canonical) .empty d.arguments
  return { name := d.name, location, arguments }

def usages (origin : Origin) (owner : ElementPath) (ds : List UsageDecl) :
    Reported (List Usage) :=
  Reported.each (usage origin owner) ds

/-- An argument or input field, as `segment` says. -/
def inputValue (origin : Origin) (container : ElementPath) (segment : String → PathSegment)
    (d : InputDecl) : Reported InputValue := do
  let location := origin.locate d.pos
  let us ← usages origin (container.child (segment d.name)) d.usages
  return {
    name := d.name, description := d.description, location,
    type := .ofExpr location d.type, default := d.default.map Value.canonical, usages := us }

def inputValues (origin : Origin) (container : ElementPath) (listed : Listed)
    (segment : String → PathSegment) (ds : List InputDecl) : Reported (Table InputValue) :=
  gather InputDecl.name
    (fun d => reportDuplicate listed d.name container (origin.locate d.pos))
    (inputValue origin container segment) .empty ds

def arguments (origin : Origin) (container : ElementPath) (ds : List InputDecl) :
    Reported (Table InputValue) :=
  inputValues origin container .argument .argument ds

def inputFields (origin : Origin) (container : ElementPath) (ds : List InputDecl) :
    Reported (Table InputValue) :=
  inputValues origin container .inputField .inputField ds

def enumValue (origin : Origin) (type : ElementPath) (d : EnumValueDecl) :
    Reported EnumValue := do
  let us ← usages origin (type.child (.enumValue d.name)) d.usages
  return {
    name := d.name, description := d.description, location := origin.locate d.pos, usages := us }

def enumValues (origin : Origin) (type : ElementPath) (ds : List EnumValueDecl) :
    Reported (Table EnumValue) :=
  gather EnumValueDecl.name
    (fun d => reportDuplicate .enumValue d.name type (origin.locate d.pos))
    (enumValue origin type) .empty ds

def field (origin : Origin) (type : ElementPath) (d : FieldDecl) : Reported Field := do
  let location := origin.locate d.pos
  let path := type.child (.field d.name)
  let args ← arguments origin path d.arguments
  let us ← usages origin path d.usages
  return {
    name := d.name, description := d.description, location, arguments := args,
    type := .ofExpr location d.type, usages := us }

def fields (origin : Origin) (type : ElementPath) (ds : List FieldDecl) :
    Reported (Table Field) :=
  gather FieldDecl.name
    (fun d => reportDuplicate .field d.name type (origin.locate d.pos))
    (field origin type) .empty ds

/-- A list of type names: implemented interfaces or union members. The names have no positions of
their own, so each reference lies where the declaration does. -/
def typeRefs (location : SourceLocation) (type : ElementPath) (listed : Listed)
    (names : List String) : Reported (Table TypeRef) :=
  gather id (fun name => reportDuplicate listed name type location)
    (fun name => pure { name, location }) .empty names

/-- The members of a type definition. -/
def body (origin : Origin) (location : SourceLocation) (type : ElementPath) :
    BodyDecl → Reported TypeBody
  | .enum values => do
    let values ← enumValues origin type values
    return .enum values
  | .inputObject fs => do
    let fs ← inputFields origin type fs
    return .inputObject fs
  | .interface implements fs => do
    let fs ← fields origin type fs
    let implements ← typeRefs location type .interface implements
    return .interface ⟨fs, implements⟩
  | .object implements fs => do
    let fs ← fields origin type fs
    let implements ← typeRefs location type .interface implements
    return .object ⟨fs, implements⟩
  | .scalar => pure .scalar
  | .union members => do
    let members ← typeRefs location type .memberType members
    return .union members

/-- The set of a directive's locations; a repeated one is reported. -/
def locations (location : SourceLocation) (directive : ElementPath) (s : LocationSet) :
    List DirectiveLocation → Reported LocationSet
  | [] => pure s
  | l :: rest =>
    if s.contains l then do
      reportDuplicate .directiveLocation l.name directive location
      locations location directive s rest
    else locations location directive (s.insert l) rest

def bindings (location : SourceLocation) (d : SchemaDecl) : List OperationBinding :=
  d.bindings.map fun b => ⟨b.1, { name := b.2, location }⟩

end Collect

namespace Graph

def defineDirective (g : Graph) (origin : Origin) (d : DirectiveDecl) : Reported Graph := do
  let location := origin.locate d.pos
  let path := ElementPath.directive d.name
  if g.directives.contains d.name then
    report (.duplicateDirective d.name) location path
    return g
  else
    let locations ← Collect.locations location path .empty d.locations
    let arguments ← Collect.arguments origin path d.arguments
    return { g with directives := g.directives.push d.name {
      name := d.name, description := d.description, location, builtIn := location.isBuiltIn,
      arguments, locations, repeatable := d.repeatable } }

def defineSchema (g : Graph) (origin : Origin) (d : SchemaDecl) : Reported Graph := do
  let location := origin.locate d.pos
  if g.block.isSome then
    report .duplicateSchema location .schema
    return g
  else
    let usages ← Collect.usages origin .schema d.usages
    return { g with block := some ⟨location, usages, Collect.bindings location d⟩ }

def defineType (g : Graph) (origin : Origin) (d : TypeDecl) : Reported Graph := do
  let location := origin.locate d.pos
  let path := ElementPath.type d.body.kind d.name
  if g.types.contains d.name then
    report (.duplicateType d.name) location path
    return g
  else
    let usages ← Collect.usages origin path d.usages
    let body ← Collect.body origin location path d.body
    return { g with types := g.types.push d.name {
      name := d.name, description := d.description, location, builtIn := location.isBuiltIn,
      usages, body } }

/-- Add one definition. Extensions and executable definitions define nothing. -/
def define (g : Graph) (s : Sourced) : Reported Graph :=
  match s.declaration with
  | .type d => g.defineType s.origin d
  | .directive d => g.defineDirective s.origin d
  | .schema d => g.defineSchema s.origin d
  | .typeExtension _ | .schemaExtension _ | .executable _ _ => pure g

end Graph

end SchemaAtlas
