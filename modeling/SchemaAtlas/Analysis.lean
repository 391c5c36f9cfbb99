import SchemaAtlas.BuiltIn
import SchemaAtlas.Graph.Extend
import SchemaAtlas.Graph.Link
import SchemaAtlas.Graph.Root
import SchemaAtlas.Rule.Definition
import SchemaAtlas.Schema

/-!
# Analysis

From a buffer of declarations to a schema, or to the reasons why there is none. The built-in
definitions come first; then the graph is collected, linked and checked, and its root is found. All
problems of a run are given together.
-/

namespace SchemaAtlas

/-- Why a schema file could not be read. -/
inductive ReadFailure where
  | notAFile (path : String)
  | notText (path : String)
  | unreadable (path : String)

def ReadFailure.message : ReadFailure → String
  | notAFile path => "`" ++ path ++ "` is not a file"
  | notText path => "Schema file `" ++ path ++ "` is not valid UTF-8"
  | unreadable path => "Unable to read schema file `" ++ path ++ "`"

/-- Why there is no schema. -/
inductive BuildError where
  | executable (kind : ExecutableKind) (location : SourceLocation)
  | notADocument (file : String)
  | unreadable (cause : ReadFailure)
  /-- Exactly one problem. -/
  | invalid (problem : Diagnostic)
  /-- Two problems or more. -/
  | invalidMany (problems : List Diagnostic)

namespace BuildError

def bullet (line : String) : String := "  * " ++ line

def message : BuildError → String
  | executable kind location =>
    s!"Found a {kind.described} definition at {location.text}, but only type-system " ++
      "definitions may appear in a schema"
  | notADocument file => "Error parsing schema string `" ++ file ++ "`: not a schema document"
  | unreadable _ => "Failure while trying to read a schema file from disk"
  | invalid problem => problem.message
  | invalidMany problems =>
    "Encountered the following schema validation errors:\n\n" ++
      "\n".intercalate (problems.map fun p => bullet p.message)

/-- The problems of the schema itself. -/
def problems : BuildError → List Diagnostic
  | invalid problem => [problem]
  | invalidMany problems => problems
  | executable _ _ | notADocument _ | unreadable _ => []

/-- The error for a list of problems, if there are any. -/
def ofProblems? : List Diagnostic → Option BuildError
  | [] => none
  | [problem] => some (invalid problem)
  | problems => some (invalidMany problems)

end BuildError

/-- The first executable definition in a buffer. -/
def firstExecutable? (declarations : List Sourced) : Option BuildError :=
  declarations.findSome? fun s =>
    match s.declaration with
    | .executable kind _ => some (.executable kind s.location)
    | _ => none

/-- The steps of an analysis, with all that they report. -/
def analyzeGraph (required : Bool) (declarations : List Sourced) : Reported Graph := do
  let collected ← Graph.collect (BuiltIn.declarations ++ declarations)
  let linked ← collected.link
  linked.check
  linked.resolveRoot required

/-- The outcome of an analysis and its log. -/
structure Outcome where
  log : List LogRecord
  result : Except BuildError Schema

/-- Analyze a buffer. With `required`, a schema without a query type fails. -/
def analyze (required : Bool) (declarations : List Sourced) : Outcome :=
  match firstExecutable? declarations with
  | some error => ⟨[], .error error⟩
  | none =>
    let run := analyzeGraph required declarations
    let counted := run.summarize fun errors =>
      s!"Analyzed {declarations.length} declarations into {run.value.types.size} types and " ++
        s!"{run.value.directives.size} directives ({errors} errors)."
    ⟨counted.events.map Event.logged,
      match BuildError.ofProblems? run.problems with
      | some error => .error error
      | none => .ok run.value.toSchema⟩

end SchemaAtlas
