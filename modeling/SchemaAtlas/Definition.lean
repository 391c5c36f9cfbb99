import SchemaAtlas.TypeUse
import SchemaAtlas.Table

/-!
# Definitions

The elements of a schema graph. References by name carry an optional target, and members carry an
optional parent; both are empty until the graph is linked.
-/

namespace SchemaAtlas

/-- A directive applied to an element. -/
structure Usage where
  name : String
  location : SourceLocation
  arguments : Table Value
  definition : Option DirectiveId := none
  parent : Option ElementId := none

structure EnumValue where
  name : String
  description : Option String
  location : SourceLocation
  usages : List Usage
  parent : Option ElementId := none

/-- An argument or an input field. -/
structure InputValue where
  name : String
  description : Option String
  location : SourceLocation
  type : TypeUse
  default : Option Value
  usages : List Usage
  parent : Option ElementId := none

/-- A value must always be given for it. -/
def InputValue.isRequired (v : InputValue) : Bool := v.type.isNonNull && v.default.isNone

structure Field where
  name : String
  description : Option String
  location : SourceLocation
  arguments : Table InputValue
  type : TypeUse
  usages : List Usage
  parent : Option ElementId := none

/-- What objects and interfaces have in common. -/
structure Shape where
  fields : Table Field
  implements : Table TypeRef

inductive TypeBody where
  | enum (values : Table EnumValue)
  | inputObject (fields : Table InputValue)
  | interface (shape : Shape)
  | object (shape : Shape)
  | scalar
  | union (members : Table TypeRef)

namespace TypeBody

def kind : TypeBody → TypeKind
  | enum _ => .enum
  | inputObject _ => .inputObject
  | interface _ => .interface
  | object _ => .object
  | scalar => .scalar
  | union _ => .union

end TypeBody

/-- How a type is named by one of its references. -/
inductive ReferenceKind where
  /-- The type of a field, argument or input field. -/
  | typeUse
  | implements
  | operation (kind : OperationKind)
  | unionMember
deriving DecidableEq

/-- A site that names a type. -/
structure Reference where
  kind : ReferenceKind
  site : ElementId
deriving DecidableEq

structure TypeDef where
  name : String
  description : Option String
  location : SourceLocation
  builtIn : Bool
  usages : List Usage
  body : TypeBody
  /-- Every site that names this type. -/
  references : List Reference := []
  /-- Whether it can be reached from a root operation type. -/
  rooted : Bool := false

namespace TypeDef

def kind (d : TypeDef) : TypeKind := d.body.kind

def enumValues? (d : TypeDef) : Option (Table EnumValue) :=
  match d.body with
  | .enum values => some values
  | _ => none

def inputFields? (d : TypeDef) : Option (Table InputValue) :=
  match d.body with
  | .inputObject fields => some fields
  | _ => none

def interface? (d : TypeDef) : Option Shape :=
  match d.body with
  | .interface shape => some shape
  | _ => none

/-- Fields and interfaces of an object or interface. -/
def shape? (d : TypeDef) : Option Shape :=
  match d.body with
  | .interface shape | .object shape => some shape
  | _ => none

def isObject (d : TypeDef) : Bool := d.kind == .object

end TypeDef

structure DirectiveDef where
  name : String
  description : Option String
  location : SourceLocation
  builtIn : Bool
  arguments : Table InputValue
  locations : LocationSet
  repeatable : Bool
  /-- Every usage of this directive. -/
  references : List UsageId := []

/-- One root operation bound in a schema block. -/
structure OperationBinding where
  kind : OperationKind
  type : TypeRef

/-- A schema block with its extensions merged in. -/
structure SchemaBlock where
  location : SourceLocation
  usages : List Usage
  operations : List OperationBinding

/-- The first binding of an operation. -/
def SchemaBlock.operation? (b : SchemaBlock) (kind : OperationKind) : Option OperationBinding :=
  b.operations.find? (·.kind == kind)

/-- The root operation types, taken from a schema block or detected by name. -/
structure Root where
  block : Option SchemaBlock
  query : TypeId
  mutation : Option TypeId
  subscription : Option TypeId

namespace Root

def isDetected (r : Root) : Bool := r.block.isNone

def operation? (r : Root) : OperationKind → Option TypeId
  | .query => some r.query
  | .mutation => r.mutation
  | .subscription => r.subscription

end Root

end SchemaAtlas
