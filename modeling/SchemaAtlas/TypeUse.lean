import SchemaAtlas.Declaration
import SchemaAtlas.Element

/-!
# Type uses

The type of a field, argument or input field in a schema graph: a reference to a named type inside
list and non-null wrappers. Two uses are equivalent when they are written alike, wherever
they stand and whatever their references have been linked to.
-/

namespace SchemaAtlas

/-- A type named somewhere in a schema. The target is set once the name has been looked up, and
stays empty when no type has that name. -/
structure TypeRef where
  name : String
  location : SourceLocation
  target : Option TypeId := none
deriving DecidableEq

inductive TypeUse where
  | named (ref : TypeRef)
  | list (item : TypeUse)
  | nonNull (inner : TypeUse)
deriving DecidableEq

namespace TypeUse

def ofExpr (location : SourceLocation) : TypeExpr → TypeUse
  | .named name => named { name, location }
  | .list item => list (ofExpr location item)
  | .nonNull inner => nonNull (ofExpr location inner)

def toExpr : TypeUse → TypeExpr
  | named ref => .named ref.name
  | list item => .list item.toExpr
  | nonNull inner => .nonNull inner.toExpr

/-- The reference inside all wrappers. -/
def innermost : TypeUse → TypeRef
  | named ref => ref
  | list item => item.innermost
  | nonNull inner => inner.innermost

/-- Change the reference inside all wrappers. -/
def mapRef (f : TypeRef → TypeRef) : TypeUse → TypeUse
  | named ref => named (f ref)
  | list item => list (item.mapRef f)
  | nonNull inner => nonNull (inner.mapRef f)

def isNonNull : TypeUse → Bool
  | nonNull _ => true
  | _ => false

/-- Written alike. -/
def equivalent : TypeUse → TypeUse → Bool
  | named a, named b => a.name == b.name
  | list a, list b => a.equivalent b
  | nonNull a, nonNull b => a.equivalent b
  | _, _ => false

def text : TypeUse → String
  | named ref => ref.name
  | list item => "[" ++ item.text ++ "]"
  | nonNull inner => inner.text ++ "!"

end TypeUse

end SchemaAtlas
