import SchemaAtlas.Analysis
import SchemaAtlas.Document.Reader

/-!
# Builders

A builder gathers declarations from any number of documents. Adding never analyzes, and each
analysis starts over from the buffer, so nothing of an earlier run carries into the next one.
-/

namespace SchemaAtlas

structure Builder where
  declarations : List Sourced := []
  /-- How many unnamed texts have been loaded; the counter has sixteen bits. -/
  unnamed : UInt16 := 0
  /-- The schema of the last analysis, if it succeeded and nothing was added since. -/
  schema : Option Schema := none

namespace Builder

/-- Add declarations from a file, or from nowhere in particular. -/
def add (b : Builder) (file : Option String) (ds : List Declaration) : Builder :=
  { b with
    declarations := b.declarations ++ ds.map fun d => ⟨.given file, d⟩
    schema := none }

/-- The label of an unnamed text. -/
def label (n : UInt16) : String := "str://" ++ toString n.toNat

/-- Read a text and add what it declares. A text without a file takes the next label, also if it
cannot be read. -/
def load (b : Builder) (file : Option String) (content : String) : Except BuildError Builder :=
  let (file, b) := match file with
    | some file => (file, b)
    | none => (label b.unnamed, { b with unnamed := b.unnamed + 1 })
  match readDocument content with
  | some ds => .ok (b.add (some file) ds)
  | none => .error (.notADocument file)

/-- Load files in order; the first failure ends it. -/
def loadAll (b : Builder) : List (String × Except ReadFailure String) → Except BuildError Builder
  | [] => .ok b
  | (path, .ok content) :: rest =>
    match b.load (some path) content with
    | .ok b => b.loadAll rest
    | .error e => .error e
  | (_, .error cause) :: _ => .error (.unreadable cause)

/-- Analyze the buffer without requiring a root, and keep the schema if there is one. -/
def validate (b : Builder) : Builder × Outcome :=
  let outcome := analyze false b.declarations
  ({ b with schema := outcome.result.toOption }, outcome)

/-- Analyze the buffer and require a root. -/
def build (b : Builder) : Outcome := analyze true b.declarations

def isValidated (b : Builder) : Bool := b.schema.isSome

def size (b : Builder) : Nat := b.declarations.length

end Builder

end SchemaAtlas
