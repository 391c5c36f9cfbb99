/-!
# Kinds

The six kinds of named type and the three kinds of root operation.
-/

namespace SchemaAtlas

inductive TypeKind where
  | enum
  | inputObject
  | interface
  | object
  | scalar
  | union
deriving DecidableEq

namespace TypeKind

def all : List TypeKind := [enum, inputObject, interface, object, scalar, union]

def name : TypeKind → String
  | enum => "enum"
  | inputObject => "input object"
  | interface => "interface"
  | object => "object"
  | scalar => "scalar"
  | union => "union"

/-- The name as it stands at the start of a sentence. -/
def title : TypeKind → String
  | enum => "Enum"
  | inputObject => "Input object"
  | interface => "Interface"
  | object => "Object"
  | scalar => "Scalar"
  | union => "Union"

/-- Whether arguments and input fields may have a type of this kind. -/
def isInput : TypeKind → Bool
  | enum | inputObject | scalar => true
  | interface | object | union => false

/-- Whether fields may have a type of this kind. -/
def isOutput : TypeKind → Bool
  | inputObject => false
  | _ => true

/-- The name with its article. -/
def described : TypeKind → String
  | enum => "an enum"
  | inputObject => "an input object"
  | interface => "an interface"
  | object => "an object"
  | scalar => "a scalar"
  | union => "an union"

/-- What a type of this kind must have at least one of. -/
def memberNoun : TypeKind → String
  | enum => "value"
  | inputObject => "input field"
  | interface | object => "field"
  | scalar => "value"
  | union => "member type"

end TypeKind

inductive OperationKind where
  | query
  | mutation
  | subscription
deriving DecidableEq

namespace OperationKind

def all : List OperationKind := [query, mutation, subscription]

def name : OperationKind → String
  | query => "query"
  | mutation => "mutation"
  | subscription => "subscription"

/-- The object type that serves the operation when no schema block says otherwise. -/
def defaultTypeName : OperationKind → String
  | query => "Query"
  | mutation => "Mutation"
  | subscription => "Subscription"

def ofName? (s : String) : Option OperationKind := all.find? (·.name == s)

end OperationKind

end SchemaAtlas
