/-!
# Locations

Positions in a source text, and where an element of a schema was declared.
-/

namespace SchemaAtlas

/-- Line and column, both from one. -/
structure Pos where
  line : Nat := 1
  column : Nat := 1
deriving DecidableEq

instance : Inhabited Pos := ⟨{}⟩

/-- A position together with the file, or the label of the text, that it lies in. -/
structure FilePosition where
  file : Option String
  line : Nat
  column : Nat
deriving DecidableEq

def FilePosition.text (p : FilePosition) : String :=
  let place := toString p.line ++ ":" ++ toString p.column
  match p.file with
  | some file => file ++ ":" ++ place
  | none => place

inductive SourceLocation where
  /-- Part of the language itself. -/
  | builtIn
  | source (position : FilePosition)
deriving DecidableEq

namespace SourceLocation

instance : Inhabited SourceLocation := ⟨builtIn⟩

def isBuiltIn : SourceLocation → Bool
  | builtIn => true
  | source _ => false

def position? : SourceLocation → Option FilePosition
  | builtIn => none
  | source p => some p

def text : SourceLocation → String
  | builtIn => "<graphql built-in>"
  | source p => p.text

end SourceLocation

/-- Where a declaration comes from. -/
inductive Origin where
  | builtIn
  | given (file : Option String)
deriving DecidableEq

def Origin.locate (origin : Origin) (pos : Pos) : SourceLocation :=
  match origin with
  | builtIn => .builtIn
  | given file => .source ⟨file, pos.line, pos.column⟩

end SchemaAtlas
