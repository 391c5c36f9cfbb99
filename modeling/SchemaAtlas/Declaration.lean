import SchemaAtlas.DirectiveLocation
import SchemaAtlas.Kind
import SchemaAtlas.Location
import SchemaAtlas.Value

/-!
# Declarations

What a schema document says, before any name in it has been looked up: definitions of types and
directives, schema blocks, extensions, and executable definitions, which have no place in a schema
but can stand in the same document.
-/

namespace SchemaAtlas

/-- A type as written: a name inside any number of list and non-null wrappers. -/
inductive TypeExpr where
  | named (name : String)
  | list (item : TypeExpr)
  | nonNull (inner : TypeExpr)
deriving DecidableEq

/-- A directive applied to the declaration it stands on. Arguments are kept as written, repeated
names included. -/
structure UsageDecl where
  pos : Pos := {}
  name : String
  arguments : List (String × Value) := []

/-- An argument or an input field. -/
structure InputDecl where
  pos : Pos := {}
  description : Option String := none
  name : String
  type : TypeExpr
  default : Option Value := none
  usages : List UsageDecl := []

structure FieldDecl where
  pos : Pos := {}
  description : Option String := none
  name : String
  arguments : List InputDecl := []
  type : TypeExpr
  usages : List UsageDecl := []

structure EnumValueDecl where
  pos : Pos := {}
  description : Option String := none
  name : String
  usages : List UsageDecl := []

/-- The members of a type, by kind. -/
inductive BodyDecl where
  | enum (values : List EnumValueDecl)
  | inputObject (fields : List InputDecl)
  | interface (implements : List String) (fields : List FieldDecl)
  | object (implements : List String) (fields : List FieldDecl)
  | scalar
  | union (members : List String)

namespace BodyDecl

def kind : BodyDecl → TypeKind
  | enum _ => .enum
  | inputObject _ => .inputObject
  | interface _ _ => .interface
  | object _ _ => .object
  | scalar => .scalar
  | union _ => .union

def isEmpty : BodyDecl → Bool
  | enum values => values.isEmpty
  | inputObject fields => fields.isEmpty
  | interface implements fields | object implements fields => implements.isEmpty && fields.isEmpty
  | scalar => true
  | union members => members.isEmpty

end BodyDecl

structure TypeDecl where
  pos : Pos := {}
  description : Option String := none
  name : String
  usages : List UsageDecl := []
  body : BodyDecl

structure TypeExtension where
  pos : Pos := {}
  name : String
  usages : List UsageDecl := []
  body : BodyDecl

/-- An extension that says nothing. -/
def TypeExtension.isEmpty (e : TypeExtension) : Bool := e.usages.isEmpty && e.body.isEmpty

structure DirectiveDecl where
  pos : Pos := {}
  description : Option String := none
  name : String
  arguments : List InputDecl := []
  repeatable : Bool := false
  locations : List DirectiveLocation := []

/-- A schema block, or an extension of it: the type names bound to the root operations. -/
structure SchemaDecl where
  pos : Pos := {}
  usages : List UsageDecl := []
  query : Option String := none
  mutation : Option String := none
  subscription : Option String := none

/-- The bindings that are present, query first. -/
def SchemaDecl.bindings (d : SchemaDecl) : List (OperationKind × String) :=
  let all := [(OperationKind.query, d.query), (.mutation, d.mutation),
    (.subscription, d.subscription)]
  all.filterMap fun b => b.2.map fun name => (b.1, name)

inductive ExecutableKind where
  | fragment
  | mutation
  | query
  | selectionSet
  | subscription
deriving DecidableEq

def ExecutableKind.described : ExecutableKind → String
  | fragment => "fragment"
  | mutation => "mutation operation"
  | query => "query operation"
  | selectionSet => "anonymous operation"
  | subscription => "subscription operation"

inductive Declaration where
  | type (d : TypeDecl)
  | typeExtension (d : TypeExtension)
  | directive (d : DirectiveDecl)
  | schema (d : SchemaDecl)
  | schemaExtension (d : SchemaDecl)
  | executable (kind : ExecutableKind) (pos : Pos)

namespace Declaration

def isExtension : Declaration → Bool
  | typeExtension _ | schemaExtension _ => true
  | _ => false

def pos : Declaration → Pos
  | type d => d.pos
  | typeExtension d => d.pos
  | directive d => d.pos
  | schema d | schemaExtension d => d.pos
  | executable _ pos => pos

end Declaration

/-- A declaration together with where it comes from. -/
structure Sourced where
  origin : Origin
  declaration : Declaration

def Sourced.location (s : Sourced) : SourceLocation := s.origin.locate s.declaration.pos

end SchemaAtlas
