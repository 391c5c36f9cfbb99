import SchemaAtlas.Graph

/-!
# Values that fit a type

Whether a constant may stand where a type is expected: null for anything nullable, a list for a list
type or a single item in its place, integers for floating-point numbers but not the other way round,
and an object literal for an input object with all it requires and nothing it does not know. A
variable never fits a defined type, and anything fits a name that has no definition, since the name
itself is reported elsewhere.

The recursion is on the value, so types that refer to themselves need no special care.
-/

namespace SchemaAtlas

/-- The type that a reference means. A link is used if it leads to a type of that name. -/
def lookupRef (types : Table TypeDef) (ref : TypeRef) : Option TypeDef :=
  match ref.target.bind fun t => types.at? t.index with
  | some (name, d) => if name = ref.name then some d else types.get? ref.name
  | none => types.get? ref.name

/-- Follow the wrappers of a type, given what is known of a value: whether it is null, how
its items do if it is a list, and whether it fits a named type. -/
def TypeUse.admits (null : Bool) (items : Option (TypeUse → Bool)) (leaf : TypeRef → Bool) :
    TypeUse → Bool
  | .nonNull inner => !null && inner.admits null items leaf
  | .list item => null ||
    match items with
    | some fit => fit item
    | none => item.admits null items leaf
  | .named ref => null || leaf ref

/-- The literals that a built-in scalar takes. -/
def builtInFits (name : String) : Value → Bool
  | .boolean _ => name == "Boolean"
  | .float _ => name == "Float"
  | .int n => name == "Float" || name == "ID" || (name == "Int" && Value.fitsInt32 n)
  | .string _ => name == "ID" || name == "String"
  | _ => false

/-- A scalar that is not built in takes every constant. -/
def TypeDef.scalarFits (d : TypeDef) (v : Value) : Bool := !d.builtIn || builtInFits d.name v

/-- Whether a value that is not null fits the type of a name. The entries of an object come as
tests, since each is asked about the type of its own field. -/
def leafFits (types : Table TypeDef) (v : Value) (entries : List (String × (TypeUse → Bool)))
    (ref : TypeRef) : Bool :=
  match lookupRef types ref with
  | none => true
  | some d =>
    match v, d.body with
    | .var _, _ => false
    | _, .scalar => d.scalarFits v
    | .enum name, .enum values => values.contains name
    | .string name, .enum values => values.contains name
    | .object _, .inputObject fields =>
      entries.all (fun e => fields.contains e.1) &&
      fields.values.all fun f =>
        match entries.lookup f.name with
        | some fit => fit f.type
        | none => !f.isRequired
    | _, _ => false

namespace Value

mutual

def fits (types : Table TypeDef) : Value → TypeUse → Bool
  | null, a => a.admits true none fun _ => true
  | boolean b, a => a.admits false none (leafFits types (boolean b) [])
  | int n, a => a.admits false none (leafFits types (int n) [])
  | float x, a => a.admits false none (leafFits types (float x) [])
  | string s, a => a.admits false none (leafFits types (string s) [])
  | enum name, a => a.admits false none (leafFits types (enum name) [])
  | var name, a => a.admits false none (leafFits types (var name) [])
  | list items, a => a.admits false (some (allFit types items)) (leafFits types (list items) [])
  | object entries, a =>
    a.admits false none (leafFits types (object entries) (entryTests types entries))

def allFit (types : Table TypeDef) : List Value → TypeUse → Bool
  | [], _ => true
  | v :: rest, a => v.fits types a && allFit types rest a

def entryTests (types : Table TypeDef) :
    List (String × Value) → List (String × (TypeUse → Bool))
  | [] => []
  | (key, v) :: rest => (key, v.fits types) :: entryTests types rest

end

end Value

end SchemaAtlas
