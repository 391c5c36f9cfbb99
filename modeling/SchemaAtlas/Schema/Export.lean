import SchemaAtlas.Schema

/-!
# Schemas as data

The whole content of a schema as a tree of plain data, for tools that want to keep or send it. A
choice between alternatives is an object with the name of the alternative, or that name alone if the
alternative holds nothing.
-/

namespace SchemaAtlas

inductive Tree where
  | null
  | boolean (b : Bool)
  | int (n : Int)
  | decimal (negative : Bool) (magnitude : Decimal)
  | text (s : String)
  | list (items : List Tree)
  | object (entries : List (String × Tree))

namespace Tree

def nat (n : Nat) : Tree := int n

/-- An alternative with its content. -/
def tagged (name : String) (content : Tree) : Tree := object [(name, content)]

def option {α : Type} (f : α → Tree) : Option α → Tree
  | some a => f a
  | none => null

def ofList {α : Type} (f : α → Tree) (as : List α) : Tree := list (as.map f)

def ofTable {α : Type} (f : α → Tree) (t : Table α) : Tree :=
  object (t.entries.map fun e => (e.1, f e.2))

def ofFloat (x : Float) : Tree :=
  match NumberClass.ofFloat x with
  | .finite negative d => decimal negative d
  | .infinite _ | .nan => null

mutual

def ofValue : Value → Tree
  | .null => text "Null"
  | .boolean b => tagged "Boolean" (boolean b)
  | .int n => tagged "Int" (int n)
  | .float x => tagged "Float" (ofFloat x)
  | .string s => tagged "String" (text s)
  | .enum name => tagged "Enum" (text name)
  | .var name => tagged "Variable" (text name)
  | .list items => tagged "List" (list (ofItems items))
  | .object entries => tagged "Object" (object (ofEntries entries))

def ofItems : List Value → List Tree
  | [] => []
  | v :: rest => ofValue v :: ofItems rest

def ofEntries : List (String × Value) → List (String × Tree)
  | [] => []
  | (key, v) :: rest => (key, ofValue v) :: ofEntries rest

end

def ofLocation : SourceLocation → Tree
  | .builtIn => text "GraphQLBuiltIn"
  | .source p => tagged "Schema" (object [
      ("col", nat p.column), ("file", option text p.file), ("line", nat p.line)])

def ofElement : ElementId → Tree
  | .schema => text "Schema"
  | .type t => tagged "Type" (nat t.index)
  | .field t f => tagged "Field" (object [("type_id", nat t.index), ("field", nat f)])
  | .fieldArgument t f a => tagged "FieldArgument" (object [
      ("type_id", nat t.index), ("field", nat f), ("argument", nat a)])
  | .inputField t f => tagged "InputField" (object [("type_id", nat t.index), ("field", nat f)])
  | .enumValue t v => tagged "EnumValue" (object [("type_id", nat t.index), ("value", nat v)])
  | .directive d => tagged "Directive" (nat d.index)
  | .directiveArgument d a => tagged "DirectiveArgument" (object [
      ("directive_id", nat d.index), ("argument", nat a)])

def ofParent (parent : Option ElementId) : Tree := option ofElement parent

def ofTypeRef (r : TypeRef) : Tree := object [
  ("name", text r.name), ("ref_location", ofLocation r.location),
  ("target", option (fun t => nat t.index) r.target)]

def ofTypeUse : TypeUse → Tree
  | .named ref => tagged "Named" (ofTypeRef ref)
  | .list item => tagged "List" (ofTypeUse item)
  | .nonNull inner => tagged "NonNull" (ofTypeUse inner)

def ofUsage (u : Usage) : Tree := object [
  ("arguments", ofTable ofValue u.arguments),
  ("definition", option (fun d => nat d.index) u.definition),
  ("location", ofLocation u.location), ("name", text u.name), ("parent", ofParent u.parent)]

def ofEnumValue (v : EnumValue) : Tree := object [
  ("description", option text v.description), ("directives", ofList ofUsage v.usages),
  ("location", ofLocation v.location), ("name", text v.name), ("parent", ofParent v.parent)]

def ofInputValue (v : InputValue) : Tree := object [
  ("default_value", option ofValue v.default), ("description", option text v.description),
  ("directives", ofList ofUsage v.usages), ("location", ofLocation v.location),
  ("name", text v.name), ("parent", ofParent v.parent), ("type_node", ofTypeUse v.type)]

def ofField (f : Field) : Tree := object [
  ("arguments", ofTable ofInputValue f.arguments), ("description", option text f.description),
  ("directives", ofList ofUsage f.usages), ("location", ofLocation f.location),
  ("name", text f.name), ("parent", ofParent f.parent), ("type_node", ofTypeUse f.type)]

def ofShape (s : Shape) : Tree := object [
  ("fields", ofTable ofField s.fields), ("implements", ofTable ofTypeRef s.implements)]

def ofBody : TypeBody → Tree
  | .enum values => tagged "Enum" (object [("values", ofTable ofEnumValue values)])
  | .inputObject fields => tagged "InputObject" (object [("fields", ofTable ofInputValue fields)])
  | .interface shape => tagged "Interface" (ofShape shape)
  | .object shape => tagged "Object" (ofShape shape)
  | .scalar => text "Scalar"
  | .union members => tagged "Union" (object [("members", ofTable ofTypeRef members)])

def ofOperation (kind : OperationKind) : Tree := text kind.defaultTypeName

def ofReferenceKind : ReferenceKind → Tree
  | .typeUse => text "Annotation"
  | .implements => text "Implements"
  | .operation kind => tagged "OperationType" (ofOperation kind)
  | .unionMember => text "UnionMember"

def ofReference (r : Reference) : Tree := object [
  ("kind", ofReferenceKind r.kind), ("site", ofElement r.site)]

def ofTypeDef (d : TypeDef) : Tree := object [
  ("built_in", boolean d.builtIn), ("description", option text d.description),
  ("directives", ofList ofUsage d.usages), ("kind", ofBody d.body),
  ("location", ofLocation d.location), ("name", text d.name),
  ("references", ofList ofReference d.references), ("rooted", boolean d.rooted)]

def ofUsageId (u : UsageId) : Tree := object [
  ("index", nat u.index), ("owner", ofElement u.owner)]

def ofDirectiveDef (d : DirectiveDef) : Tree := object [
  ("arguments", ofTable ofInputValue d.arguments), ("built_in", boolean d.builtIn),
  ("description", option text d.description), ("location", ofLocation d.location),
  ("locations", nat d.locations.bits.toNat), ("name", text d.name),
  ("references", ofList ofUsageId d.references), ("repeatable", boolean d.repeatable)]

def ofBinding (o : OperationBinding) : Tree := object [
  ("kind", ofOperation o.kind), ("type_ref", ofTypeRef o.type)]

def ofBlock (b : SchemaBlock) : Tree := object [
  ("directives", ofList ofUsage b.usages), ("location", ofLocation b.location),
  ("operations", ofList ofBinding b.operations)]

def ofRoot (r : Root) : Tree := object [
  ("definition", option ofBlock r.block),
  ("mutation", option (fun t => nat t.index) r.mutation), ("query", nat r.query.index),
  ("subscription", option (fun t => nat t.index) r.subscription)]

end Tree

/-- Everything a schema holds. -/
def Schema.toTree (s : Schema) : Tree := .object [
  ("directives", .ofTable .ofDirectiveDef s.directives), ("root", .option .ofRoot s.root),
  ("types", .ofTable .ofTypeDef s.types)]

end SchemaAtlas
