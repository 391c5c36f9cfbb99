import SchemaAtlas.Document.Writer
import SchemaAtlas.Schema

/-!
# The definitions of a schema

A schema as a list of definitions that says the same: the schema block if one was declared, the
directives and the types, without what is built in and with all extensions merged. Its text is the
document of these definitions.
-/

namespace SchemaAtlas

def Usage.toDecl (u : Usage) : UsageDecl where
  name := u.name
  arguments := u.arguments.entries.map fun e => (e.1, e.2.literal)

def InputValue.toDecl (v : InputValue) : InputDecl where
  description := v.description
  name := v.name
  type := v.type.toExpr
  default := v.default.map Value.literal
  usages := v.usages.map Usage.toDecl

def Field.toDecl (f : Field) : FieldDecl where
  description := f.description
  name := f.name
  arguments := f.arguments.values.map InputValue.toDecl
  type := f.type.toExpr
  usages := f.usages.map Usage.toDecl

def EnumValue.toDecl (v : EnumValue) : EnumValueDecl where
  description := v.description
  name := v.name
  usages := v.usages.map Usage.toDecl

def TypeBody.toDecl : TypeBody → BodyDecl
  | enum values => .enum (values.values.map EnumValue.toDecl)
  | inputObject fields => .inputObject (fields.values.map InputValue.toDecl)
  | interface shape => .interface shape.implements.keys (shape.fields.values.map Field.toDecl)
  | object shape => .object shape.implements.keys (shape.fields.values.map Field.toDecl)
  | scalar => .scalar
  | union members => .union members.keys

def TypeDef.toDecl (d : TypeDef) : TypeDecl where
  description := d.description
  name := d.name
  usages := d.usages.map Usage.toDecl
  body := d.body.toDecl

def DirectiveDef.toDecl (d : DirectiveDef) : DirectiveDecl where
  description := d.description
  name := d.name
  arguments := d.arguments.values.map InputValue.toDecl
  repeatable := d.repeatable
  locations := d.locations.toList

namespace Schema

/-- The schema block, with the operations as they were resolved. -/
def blockDecl (s : Schema) (block : SchemaBlock) : SchemaDecl where
  usages := block.usages.map Usage.toDecl
  query := (s.operationType? .query).map TypeDef.name
  mutation := (s.operationType? .mutation).map TypeDef.name
  subscription := (s.operationType? .subscription).map TypeDef.name

def definitions (s : Schema) : List Declaration :=
  (s.block?.map fun block => Declaration.schema (s.blockDecl block)).toList ++
  (s.directives.values.filter fun d => !d.builtIn).map (fun d => .directive d.toDecl) ++
  (s.types.values.filter fun d => !d.builtIn).map fun d => .type d.toDecl

/-- The schema as a document. -/
def text (s : Schema) : String := Writer.document s.definitions

end Schema

end SchemaAtlas
