import SchemaAtlas.Builder
import SchemaAtlas.Files
import SchemaAtlas.Schema.Definitions

/-!
# The command line

The arguments of the program, and what each command says about the files it is given. A run is a
function of the arguments, the chosen log level and a view of the files; the outer layer only prints
its answer.
-/

namespace SchemaAtlas

/-- What a run prints and how it ends. -/
structure Answer where
  exit : Nat
  stdout : String := ""
  stderr : String := ""
  log : List LogRecord := []

namespace Command

inductive Action where
  | print
  | validate
deriving DecidableEq

/-- The arguments of a command that reads files. -/
structure Inputs where
  /-- As given on the command line; the default otherwise. -/
  extensions : List String := ["graphql", "graphqls"]
  paths : List String := []
  requireRoot : Bool := false

/-- What the arguments ask for. -/
inductive Request where
  /-- Nothing, which is answered like a request for help. -/
  | nothing
  | help
  | actionHelp (action : Action)
  | version
  | run (action : Action) (inputs : Inputs)

/-! ### Arguments -/

/-- What has been read of a command's arguments. -/
structure Reading where
  extensions : List String := []
  paths : List String := []
  requireRoot : Bool := false
  help : Bool := false

def startsWith (start s : String) : Bool := start.toList.isPrefixOf s.toList

/-- A path may not be empty. -/
def readPath (r : Reading) (path : String) : Option Reading :=
  if path = "" then none else some { r with paths := r.paths ++ [path] }

def extensionOption : String := "--graphql-file-exts"

def readExtensions (r : Reading) (value : String) : Reading :=
  { r with extensions := r.extensions ++ value.splitOn "," }

/-- Read the arguments after a command. Options may stand among the paths, up to `--`; a request
for help ends the reading. -/
def readArguments (action : Action) (r : Reading) : List String → Option Reading
  | [] => some r
  | arg :: rest =>
    if arg = "--" then rest.foldlM readPath r
    else if startsWith "-h" arg || arg = "--help" then some { r with help := true }
    else if arg = "--require-root" then
      if action = .validate && !r.requireRoot then
        readArguments action { r with requireRoot := true } rest
      else none
    else if arg = extensionOption then
      match rest with
      | [] => none
      | value :: rest =>
        if startsWith "-" value && value ≠ "-" then none
        else readArguments action (readExtensions r value) rest
    else if startsWith (extensionOption ++ "=") arg then
      readArguments action
        (readExtensions r (String.ofList (arg.toList.drop (extensionOption.length + 1)))) rest
    else if startsWith "-" arg && arg ≠ "-" then none
    else
      match readPath r arg with
      | some r => readArguments action r rest
      | none => none

/-- A command with its arguments; it needs a path. -/
def readAction (action : Action) (args : List String) : Option Request := do
  let r ← readArguments action {} args
  if r.help then return .actionHelp action
  else if r.paths.isEmpty then none
  else
    let extensions := if r.extensions.isEmpty then ({} : Inputs).extensions else r.extensions
    return .run action ⟨extensions, r.paths, r.requireRoot⟩

/-- The letters of a group of short options: at most one of each, and the first that asks for a
text decides. -/
def readLetters (verbose : Bool) : List Char → Option (Bool × Option Request)
  | [] => some (verbose, none)
  | 'v' :: rest => if verbose then none else readLetters true rest
  | 'h' :: _ => some (verbose, some .help)
  | 'V' :: _ => some (verbose, some .version)
  | _ :: _ => none

/-- The command after `help`, if there is one. -/
def readHelp : List String → Option Request
  | [] => some .help
  | ["print"] => some (.actionHelp .print)
  | ["validate"] => some (.actionHelp .validate)
  | ["help"] => some .help
  | _ => none

/-- Read all arguments: options of the program, then a command. The flag is for verbose output. -/
def readArgs (verbose : Bool) : List String → Option (Bool × Request)
  | [] => some (verbose, .nothing)
  | arg :: rest =>
    if arg = "--" then
      if rest.isEmpty then some (verbose, .nothing) else none
    else if arg = "--verbose" then
      if verbose then none else readArgs true rest
    else if arg = "--help" then some (verbose, .help)
    else if arg = "--version" then some (verbose, .version)
    else if arg = "print" then (readAction .print rest).map (verbose, ·)
    else if arg = "validate" then (readAction .validate rest).map (verbose, ·)
    else if arg = "help" then (readHelp rest).map (verbose, ·)
    else
      match arg.toList with
      | '-' :: c :: letters =>
        match readLetters verbose (c :: letters) with
        | some (_, some request) => some (verbose, request)
        | some (verbose, none) => readArgs verbose rest
        | none => none
      | _ => none

/-! ### Texts -/

def versionText : String := "graphql-sdl 0.0.1\n"

def helpText : String :=
  "Usage: graphql-sdl [OPTIONS] [COMMAND]\n\n" ++
  "Commands:\n" ++
  "  print     Analyze SDL files and print the merged schema back out as SDL\n" ++
  "  validate  Analyze SDL files and report every problem found\n" ++
  "  help      Print this message or the help of the given subcommand(s)\n\n" ++
  "Options:\n" ++
  "  -v, --verbose  Enable verbose output.\n" ++
  "  -h, --help     Print help\n" ++
  "  -V, --version  Print version\n"

/-- Said when the arguments make no sense. -/
def usageText : String := "error: invalid arguments\n\nUsage: graphql-sdl [OPTIONS] [COMMAND]\n"

def actionHelpText : Action → String
  | .print =>
    "Analyze SDL files and print the merged schema back out as SDL\n\n" ++
    "Usage: graphql-sdl print [OPTIONS] <FILE_OR_DIR_PATHS>...\n\n" ++ argumentsHelp ++
    "  -h, --help\n          Print help\n"
  | .validate =>
    "Analyze SDL files and report every problem found\n\n" ++
    "Usage: graphql-sdl validate [OPTIONS] <FILE_OR_DIR_PATHS>...\n\n" ++ argumentsHelp ++
    "      --require-root\n          " ++
    "Fail unless the schema declares or implies a query root operation type.\n" ++
    "  -h, --help\n          Print help\n"
where
  argumentsHelp : String :=
    "Arguments:\n" ++
    "  <FILE_OR_DIR_PATHS>...  " ++
    "Paths to one or more GraphQL files or directories containing GraphQL files.\n\n" ++
    "Options:\n" ++
    "      --graphql-file-exts <GRAPHQL_FILE_EXTS>\n          " ++
    "Set of file extensions to filter to when searching for files within a directory. " ++
    "[default: graphql graphqls]\n"

def check : String := "✅"

def cross : String := "❌"

def bulleted (items : List String) : String := "\n".intercalate (items.map BuildError.bullet)

/-! ### Log level -/

/-- The level of verbose output, or of the environment; an unknown name is the default and worth a
warning. -/
def chooseLevel (verbose : Bool) (setting : Option String) : Level × List LogRecord :=
  if verbose then (.debug, [])
  else match setting with
    | none => (.info, [])
    | some s =>
      let name := String.ofList (Text.trim s.toList)
      match name with
      | "DEBUG" | "debug" | "VERBOSE" | "verbose" => (.debug, [])
      | "ERROR" | "error" => (.error, [])
      | "INFO" | "info" => (.info, [])
      | "TRACE" | "trace" => (.trace, [])
      | "WARN" | "warn" => (.warn, [])
      | _ => (.info,
          [⟨.warn, "Invalid `LOG_LEVEL` environment variable value: `" ++ name ++ "`"⟩])

/-! ### Input files -/

/-- The files that the path arguments lead to. -/
structure Scan where
  errors : List String := []
  files : List (String × FileTree) := []
  skipped : Nat := 0
  log : List LogRecord := []

/-- The part of a file name after its last point, unless the point comes first. -/
def extension? (path : String) : Option String :=
  let name := (path.toList.reverse.takeWhile (· != '/')).reverse
  let tail := (name.reverse.takeWhile (· != '.')).reverse
  if name = ['.', '.'] then none
  else if tail.length + 1 < name.length then some (String.ofList tail) else none

def Scan.note (s : Scan) (level : Level) (message : String) : Scan :=
  { s with log := s.log ++ [⟨level, message⟩] }

/-- Take or skip one file by its extension. -/
def scanFile (extensions : List String) (s : Scan) (file : String × FileTree) : Scan :=
  if ((extension? file.1).map (extensions.contains ·)).getD false then
    { s with files := s.files ++ [file] }.note .trace
      ("Found GraphQL file at " ++ Text.quoted file.1 ++ ".")
  else
    { s with skipped := s.skipped + 1 }.note .trace
      ("Skipping non-graphql file: " ++ Text.quoted file.1 ++ ".")

def scanError (s : Scan) (path reason : String) : Scan :=
  { s with errors := s.errors ++ ["IO error for operation on " ++ path ++ ": " ++ reason] }.note
    .trace ("Encountered an error while iterating recursive filesystem entities at/under " ++
      Text.quoted path ++ ".")

def scanPath (find : String → Found) (extensions : List String) (s : Scan) (path : String) :
    Scan :=
  match find path with
  | .tree t => (t.files path).foldl (scanFile extensions) s
  | .missing => scanError s path "No such file or directory (os error 2)"
  | .notADirectory => scanError s path "Not a directory (os error 20)"

/-- The file that a single path argument names, if it is one. -/
def singleFile? (find : String → Found) : List String → Option (String × FileTree)
  | [path] =>
    match find path with
    | .tree (.directory _) => none
    | .tree t => some (path, t)
    | _ => none
  | _ => none

/-- Scan all paths. A single file is loaded whatever its extension. -/
def scan (find : String → Found) (inputs : Inputs) : Scan :=
  let extensions := inputs.extensions.map fun e =>
    String.ofList (e.toList.dropWhile (· == '.'))
  let start := ({} : Scan).note .debug s!"Scanning {inputs.paths.length} input paths..."
  let s := inputs.paths.foldl (scanPath find extensions) start
  let s := match s.files, singleFile? find inputs.paths with
    | [], some file =>
      let listed := ", ".intercalate (inputs.extensions.map fun e => "`" ++ e ++ "`")
      { s with files := [file], skipped := s.skipped - 1 }.note .warn
        ("Proceeding to load " ++ Text.quoted file.1 ++
          " even though it doesn't match any of the --graphql-file-exts (" ++ listed ++ ").")
    | _, _ => s
  s.note .debug s!"Found {s.files.length} GraphQL files."

/-! ### Commands -/

def succeed (log : List LogRecord) (text : String) : Answer :=
  { exit := 0, stdout := text ++ "\n", log }

def fail (log : List LogRecord) (text : String) : Answer :=
  { exit := 1, stderr := cross ++ " " ++ text ++ "\n", log }

/-- What a successful validation says. -/
def summary (s : Scan) (schema : Schema) : String :=
  let types := (schema.types.values.filter fun d => !d.builtIn).length
  let directives := (schema.directives.values.filter fun d => !d.builtIn).length
  let root := match schema.operationType? .query with
    | some d => "query root `" ++ d.name ++ "`"
    | none => "no root operation types"
  check ++ " All GraphQL validated successfully:\n" ++ bulleted [
    s!"Analyzed {s.files.length} files.",
    s!"Skipped {s.skipped} non-graphql files.",
    s!"Validated {types} type definitions.",
    s!"Validated {directives} directive definitions.",
    s!"Resolved {root}."]

/-- What a failed validation says. -/
def failure (e : BuildError) : String :=
  match e.problems with
  | [] => e.message
  | problems =>
    s!"Found {problems.length} schema errors:\n" ++ bulleted (problems.map Diagnostic.located)

/-- Scan, load and analyze the files of a command. -/
def runAction (find : String → Found) (action : Action) (inputs : Inputs) : Answer :=
  let s := scan find inputs
  if !s.errors.isEmpty then
    fail s.log ("Failed to scan input paths:\n" ++ bulleted s.errors)
  else
    match ({} : Builder).loadAll (s.files.map fun f => (f.1, f.2.content f.1)) with
    | .error e => fail s.log e.message
    | .ok b =>
      let outcome := if action = .print || inputs.requireRoot then b.build else b.validate.2
      let log := s.log ++ outcome.log
      match action, outcome.result with
      | .print, .ok schema => succeed log schema.text
      | .print, .error e => fail log e.message
      | .validate, .ok schema => succeed log (summary s schema)
      | .validate, .error e => fail log (failure e)

/-- Do what is asked. -/
def perform (find : String → Found) : Request → Answer
  | .nothing | .help => { exit := 0, stdout := helpText }
  | .actionHelp action => { exit := 0, stdout := actionHelpText action }
  | .version => { exit := 0, stdout := versionText }
  | .run action inputs => runAction find action inputs

/-- Whether a request gets as far as setting up a log. -/
def isLogged : Request → Bool
  | .nothing | .run _ _ => true
  | .help | .actionHelp _ | .version => false

/-- A run of the program. The log holds only records at the chosen level or above, and none at all
for a request that is answered by a text. -/
def run (find : String → Found) (setting : Option String) (args : List String) : Answer :=
  match readArgs false args with
  | none => { exit := 2, stderr := usageText }
  | some (verbose, request) =>
    let answer := perform find request
    if isLogged request then
      let (level, warnings) := chooseLevel verbose setting
      let start : LogRecord := ⟨.trace, "Initial logging level set to `" ++ level.name ++ "`."⟩
      { answer with
        log := (start :: warnings ++ answer.log).filter fun r => r.level.rank ≤ level.rank }
    else answer

end Command

end SchemaAtlas
