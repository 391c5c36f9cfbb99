import SchemaAtlas.Kind

/-!
# Elements and their paths

An element is anything in a schema that a diagnostic or a reference can point at. It is addressed
by positions in the tables that hold it, and described to a reader by the chain of names that leads
to it.
-/

namespace SchemaAtlas

/-- Position in the table of types. -/
structure TypeId where
  index : Nat
deriving DecidableEq

/-- Position in the table of directives. -/
structure DirectiveId where
  index : Nat
deriving DecidableEq

inductive ElementId where
  | schema
  | type (type : TypeId)
  | field (type : TypeId) (field : Nat)
  | fieldArgument (type : TypeId) (field argument : Nat)
  | inputField (type : TypeId) (field : Nat)
  | enumValue (type : TypeId) (value : Nat)
  | directive (directive : DirectiveId)
  | directiveArgument (directive : DirectiveId) (argument : Nat)
deriving DecidableEq

namespace ElementId

/-- The element in which this one is written. -/
def container? : ElementId → Option ElementId
  | schema | type _ | directive _ => none
  | field t _ | inputField t _ | enumValue t _ => some (type t)
  | fieldArgument t f _ => some (field t f)
  | directiveArgument d _ => some (directive d)

/-- The type that this element is, or belongs to. -/
def owningType? : ElementId → Option TypeId
  | schema | directive _ | directiveArgument _ _ => none
  | type t | field t _ | fieldArgument t _ _ | inputField t _ | enumValue t _ => some t

end ElementId

/-- One directive usage: its position among those applied to `owner`. -/
structure UsageId where
  owner : ElementId
  index : Nat
deriving DecidableEq

inductive PathSegment where
  | schema
  | type (kind : TypeKind) (name : String)
  | field (name : String)
  | argument (name : String)
  | inputField (name : String)
  | enumValue (name : String)
  /-- The definition of a directive. -/
  | directive (name : String)
  /-- A directive applied to the element before. -/
  | usage (name : String)
  | operation (kind : OperationKind)
deriving DecidableEq

namespace PathSegment

def label : PathSegment → String
  | schema => "schema"
  | type kind _ => kind.name
  | field _ => "field"
  | argument _ => "argument"
  | inputField _ => "input field"
  | enumValue _ => "enum value"
  | directive _ | usage _ => "directive"
  | operation _ => "operation"

def name? : PathSegment → Option String
  | schema => none
  | type _ name | field name | argument name | inputField name | enumValue name => some name
  | directive name | usage name => some ("@" ++ name)
  | operation kind => some kind.name

end PathSegment

/-- The way to an element, outermost step first. -/
structure ElementPath where
  segments : List PathSegment
deriving DecidableEq

namespace ElementPath

def isEmpty (p : ElementPath) : Bool := p.segments.isEmpty

/-- One step further in. -/
def child (p : ElementPath) (s : PathSegment) : ElementPath := ⟨p.segments ++ [s]⟩

/-- From outside in, as in `object Query, field a`. -/
def breadcrumb (p : ElementPath) : String :=
  ", ".intercalate <| p.segments.map fun s =>
    match s.name? with
    | some name => s.label ++ " " ++ name
    | none => s.label

/-- From inside out, as in `field 'a' of object 'Query'`. -/
def text (p : ElementPath) : String :=
  " of ".intercalate <| p.segments.reverse.map fun s =>
    match s.name? with
    | some name => s.label ++ " '" ++ name ++ "'"
    | none => s.label

def schema : ElementPath := ⟨[.schema]⟩

def type (kind : TypeKind) (name : String) : ElementPath := ⟨[.type kind name]⟩

def directive (name : String) : ElementPath := ⟨[.directive name]⟩

end ElementPath

end SchemaAtlas
