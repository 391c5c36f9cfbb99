/-!
# Directive locations

The places where a directive may be applied, and sets of them. A set is a bit vector with one bit
for each location in the order of `DirectiveLocation.all`.
-/

namespace SchemaAtlas

inductive DirectiveLocation where
  | field
  | fragmentDefinition
  | fragmentSpread
  | inlineFragment
  | mutation
  | query
  | subscription
  | variableDefinition
  | argumentDefinition
  | enum
  | enumValue
  | fieldDefinition
  | inputFieldDefinition
  | inputObject
  | interface
  | object
  | scalar
  | schema
  | union
deriving DecidableEq

namespace DirectiveLocation

/-- The executable locations, then those of the type system. -/
def all : List DirectiveLocation :=
  [field, fragmentDefinition, fragmentSpread, inlineFragment, mutation, query, subscription,
    variableDefinition, argumentDefinition, enum, enumValue, fieldDefinition,
    inputFieldDefinition, inputObject, interface, object, scalar, schema, union]

def name : DirectiveLocation → String
  | field => "FIELD"
  | fragmentDefinition => "FRAGMENT_DEFINITION"
  | fragmentSpread => "FRAGMENT_SPREAD"
  | inlineFragment => "INLINE_FRAGMENT"
  | mutation => "MUTATION"
  | query => "QUERY"
  | subscription => "SUBSCRIPTION"
  | variableDefinition => "VARIABLE_DEFINITION"
  | argumentDefinition => "ARGUMENT_DEFINITION"
  | enum => "ENUM"
  | enumValue => "ENUM_VALUE"
  | fieldDefinition => "FIELD_DEFINITION"
  | inputFieldDefinition => "INPUT_FIELD_DEFINITION"
  | inputObject => "INPUT_OBJECT"
  | interface => "INTERFACE"
  | object => "OBJECT"
  | scalar => "SCALAR"
  | schema => "SCHEMA"
  | union => "UNION"

def ofName? (s : String) : Option DirectiveLocation := all.find? (·.name == s)

/-- Position in `all`. -/
def index : DirectiveLocation → Nat
  | field => 0
  | fragmentDefinition => 1
  | fragmentSpread => 2
  | inlineFragment => 3
  | mutation => 4
  | query => 5
  | subscription => 6
  | variableDefinition => 7
  | argumentDefinition => 8
  | enum => 9
  | enumValue => 10
  | fieldDefinition => 11
  | inputFieldDefinition => 12
  | inputObject => 13
  | interface => 14
  | object => 15
  | scalar => 16
  | schema => 17
  | union => 18

theorem all_getElem?_index (l : DirectiveLocation) : all[l.index]? = some l := by
  cases l <;> rfl

end DirectiveLocation

/-- A set of directive locations. -/
structure LocationSet where
  bits : BitVec 19
deriving DecidableEq

namespace LocationSet

def empty : LocationSet := ⟨0⟩

def isEmpty (s : LocationSet) : Bool := s.bits == 0

def contains (s : LocationSet) (l : DirectiveLocation) : Bool := s.bits.getLsbD l.index

def insert (s : LocationSet) (l : DirectiveLocation) : LocationSet :=
  ⟨s.bits ||| (1#19 <<< l.index)⟩

/-- Members in the order of `DirectiveLocation.all`. -/
def toList (s : LocationSet) : List DirectiveLocation :=
  DirectiveLocation.all.filter s.contains

def size (s : LocationSet) : Nat := s.toList.length

def ofList (ls : List DirectiveLocation) : LocationSet := ls.foldl insert empty

end LocationSet

end SchemaAtlas
