import SchemaAtlas.Graph.Collect

/-!
# Merging extensions

An extension adds to what its target already has: new members come after the existing ones, and a
member that is declared again keeps its place and takes the new directive usages and arguments. A
redeclaration may not change a type, and an extension that adds nothing is reported.
-/

namespace SchemaAtlas

/-- Add entries to a table. A name that is already there goes through `clash`, which gives the
entry to keep. -/
def absorb {α : Type} (clash : α → α → Reported α) (t : Table α) :
    List (String × α) → Reported (Table α)
  | [] => pure t
  | (name, new) :: rest =>
    match t.get? name with
    | some old => do
      let kept ← clash old new
      absorb clash (t.modify name fun _ => kept) rest
    | none => absorb clash (t.push name new) rest

namespace Extend

/-- A member of an existing list may not be listed again. -/
def keepOld {α : Type} (listed : Listed) (type : ElementPath) (name : α → String)
    (location : α → SourceLocation) (old new : α) : Reported α := do
  reportDuplicate listed (name new) type (location new)
  return old

/-- Declare an argument again. Only its usages count. -/
def argument (field : ElementPath) (old new : InputValue) : Reported InputValue :=
  let path := field.child (.argument new.name)
  if !old.type.equivalent new.type then do
    report (.extensionChangesType path old.type new.type) new.location path
    return old
  else pure { old with usages := old.usages ++ new.usages }

/-- Whether declaring an argument again, or for the first time, adds anything to a field. -/
def argumentAdds (field : Field) (new : String × InputValue) : Bool :=
  match field.arguments.get? new.1 with
  | some old => old.type.equivalent new.2.type && !new.2.usages.isEmpty
  | none => true

/-- Declare a field again: same type, and a new usage, a new argument or a new usage on an
argument. -/
def field (type : ElementPath) (old new : Field) : Reported Field := do
  let path := type.child (.field new.name)
  if !old.type.equivalent new.type then
    report (.extensionChangesType path old.type new.type) new.location path
    return old
  else
    let arguments ← absorb (argument path) old.arguments new.arguments.entries
    if new.usages.isEmpty && !new.arguments.entries.any (argumentAdds old) then
      report (.emptyExtension path) new.location path
    return { old with usages := old.usages ++ new.usages, arguments }

/-- Declare an input field again: same type, and a new usage. -/
def inputField (type : ElementPath) (old new : InputValue) : Reported InputValue := do
  let path := type.child (.inputField new.name)
  if !old.type.equivalent new.type then
    report (.extensionChangesType path old.type new.type) new.location path
    return old
  else if new.usages.isEmpty then
    report (.emptyExtension path) new.location path
    return old
  else return { old with usages := old.usages ++ new.usages }

/-- Merge the interfaces and fields of an object or interface extension. Both lists are read before
either is merged. -/
def shape (origin : Origin) (location : SourceLocation) (type : ElementPath)
    (implements : List String) (fields : List FieldDecl) (old : Shape) : Reported Shape := do
  let newImplements ← Collect.typeRefs location type .interface implements
  let newFields ← Collect.fields origin type fields
  let implements ← absorb (keepOld .interface type TypeRef.name TypeRef.location)
    old.implements newImplements.entries
  let fields ← absorb (field type) old.fields newFields.entries
  return ⟨fields, implements⟩

/-- Merge the members of an extension into a type of the same kind. -/
def body (origin : Origin) (location : SourceLocation) (type : ElementPath) :
    BodyDecl → TypeBody → Reported TypeBody
  | .enum values, .enum old => do
    let new ← Collect.enumValues origin type values
    let merged ← absorb (keepOld .enumValue type EnumValue.name EnumValue.location)
      old new.entries
    return .enum merged
  | .inputObject fields, .inputObject old => do
    let new ← Collect.inputFields origin type fields
    let merged ← absorb (inputField type) old new.entries
    return .inputObject merged
  | .interface implements fields, .interface old => do
    let merged ← shape origin location type implements fields old
    return .interface merged
  | .object implements fields, .object old => do
    let merged ← shape origin location type implements fields old
    return .object merged
  | .union members, .union old => do
    let merged ← gather id (fun name => reportDuplicate .memberType name type location)
      (fun name => pure { name, location }) old members
    return .union merged
  | _, old => pure old

end Extend

namespace Graph

def extendType (g : Graph) (origin : Origin) (e : TypeExtension) : Reported Graph := do
  let location := origin.locate e.pos
  let path := ElementPath.type e.body.kind e.name
  match g.types.get? e.name with
  | none =>
    report (.extensionOfUndefinedType e.body.kind e.name) location path
    return g
  | some old =>
    if old.kind ≠ e.body.kind then
      report (.extensionKindMismatch old.kind e.body.kind e.name) location path
      return g
    else if e.isEmpty then
      report (.emptyExtension path) location path
      return g
    else
      trace s!"Merging extension of {path.text} from {location.text}."
      let usages ← Collect.usages origin path e.usages
      let body ← Extend.body origin location path e.body old.body
      let merged := { old with usages := old.usages ++ usages, body }
      return { g with types := g.types.modify e.name fun _ => merged }

def extendSchema (g : Graph) (origin : Origin) (d : SchemaDecl) : Reported Graph := do
  let location := origin.locate d.pos
  match g.block with
  | none =>
    report .schemaExtensionWithoutSchema location .schema
    return g
  | some old =>
    let usages ← Collect.usages origin .schema d.usages
    let operations := Collect.bindings location d
    if usages.isEmpty && operations.isEmpty then
      report (.emptyExtension .schema) location .schema
      return g
    else
      trace s!"Merging schema extension from {location.text}."
      return { g with block := some { old with
        usages := old.usages ++ usages, operations := old.operations ++ operations } }

/-- Merge one extension. Definitions extend nothing. -/
def extend (g : Graph) (s : Sourced) : Reported Graph :=
  match s.declaration with
  | .typeExtension e => g.extendType s.origin e
  | .schemaExtension d => g.extendSchema s.origin d
  | .type _ | .directive _ | .schema _ | .executable _ _ => pure g

/-- The graph of a document: all definitions first, then all extensions, so that an extension may
stand before what it extends. -/
def collect (declarations : List Sourced) : Reported Graph :=
  let definitions := declarations.filter fun s => !s.declaration.isExtension
  let extensions := declarations.filter fun s => s.declaration.isExtension
  Reported.summarize
    (fun errors => s!"Converted {definitions.length} definitions and {extensions.length} " ++
      s!"extensions ({errors} errors).")
    (do
      let defined ← Reported.through define {} definitions
      Reported.through extend defined extensions)

end Graph

end SchemaAtlas
