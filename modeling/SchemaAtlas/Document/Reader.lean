import SchemaAtlas.Declaration
import SchemaAtlas.Document.Token

/-!
# Reading a schema document

The grammar of schema documents over their tokens. One token of look-ahead always decides, so a
construct that has started must go through. Keywords are not reserved: any name may be used as one.
-/

namespace SchemaAtlas

/-- Read something off the front of the tokens, or fail. -/
abbrev Reader := StateT (List PlacedToken) Option

namespace Reader

variable {α : Type}

def peek? : Reader (Option Token) := do
  let ts ← get
  return ts.head?.map PlacedToken.token

/-- The position of the next token. -/
def here : Reader Pos := do
  let ts ← get
  return (ts.head?.map PlacedToken.pos).getD {}

def next : Reader Token := do
  match ← get with
  | [] => failure
  | t :: rest =>
    set rest
    return t.token

def isPunct (c : Char) : Token → Bool
  | .punct d => c == d
  | _ => false

def isWord (word : String) : Token → Bool
  | .name s => s == word
  | _ => false

def isString : Token → Bool
  | .string _ => true
  | _ => false

/-- Whether the next token satisfies a test. -/
def sees (test : Token → Bool) : Reader Bool := do
  return ((← peek?).map test).getD false

/-- Take the next token if it satisfies a test. -/
def accept (test : Token → Bool) : Reader Bool := do
  if ← sees test then
    let _ ← next
    return true
  else return false

def expect (test : Token → Bool) : Reader Unit := do
  if !(← accept test) then failure

def punct (c : Char) : Reader Unit := expect (isPunct c)

def word (w : String) : Reader Unit := expect (isWord w)

def name : Reader String := do
  match ← next with
  | .name s => return s
  | _ => failure

/-- Read items as long as the next token may start one. Each must take at least one token. -/
def manyWhile (start : Token → Bool) (item : Reader α) (ts : List PlacedToken) :
    Option (List α × List PlacedToken) :=
  match ts.head? with
  | none => some ([], ts)
  | some t =>
    if start t.token then
      match item ts with
      | none => none
      | some (a, rest) =>
        if rest.length < ts.length then
          (manyWhile start item rest).map fun r => (a :: r.1, r.2)
        else none
    else some ([], ts)
termination_by ts.length

/-- Items up to a closing punctuator, which is taken too. -/
def untilClose (close : Char) (item : Reader α) : Reader (List α) := do
  let items ← manyWhile (fun t => !isPunct close t) item
  punct close
  return items

/-- At least one item between two punctuators. -/
def block (opening closing : Char) (item : Reader α) : Reader (List α) := do
  punct opening
  let items ← untilClose closing item
  if items.isEmpty then failure
  return items

/-- A block that may be missing altogether. -/
def optionalBlock (opening closing : Char) (item : Reader α) : Reader (List α) := do
  if ← sees (isPunct opening) then block opening closing item else return []

/-- Names between separators, the first of which may also stand in front. -/
def separated (c : Char) : Reader (List String) := do
  let _ ← accept (isPunct c)
  let first ← name
  let rest ← manyWhile (isPunct c) (do punct c; name)
  return first :: rest

/-- The text of an optional description. -/
def description : Reader (Option String) := do
  if ← sees isString then
    match ← next with
    | .string s => return some s
    | _ => return none
  else return none

/-! ### Types and values -/

/-- Take an exclamation mark, if there is one, as a non-null wrapper. -/
def wrapNonNull (type : TypeExpr) : List PlacedToken → TypeExpr × List PlacedToken
  | ⟨.punct '!', _⟩ :: rest => (.nonNull type, rest)
  | ts => (type, ts)

def typeExpr : List PlacedToken → Option (TypeExpr × List PlacedToken)
  | ⟨.name s, _⟩ :: rest => some (wrapNonNull (.named s) rest)
  | ⟨.punct '[', _⟩ :: rest =>
    match typeExpr rest with
    | some (item, ⟨.punct ']', _⟩ :: rest) => some (wrapNonNull (.list item) rest)
    | _ => none
  | _ => none

/-- A value with at most `depth` levels of brackets. `constant` excludes variables. -/
def valueWithin (constant : Bool) : (depth : Nat) → Reader Value
  | 0 => failure
  | depth + 1 => do
    match ← next with
    | .name "true" => return .boolean true
    | .name "false" => return .boolean false
    | .name "null" => return .null
    | .name s => return .enum s
    | .int n => return .int n
    | .float x => return .float x
    | .string s => return .string s
    | .punct '$' => if constant then failure else return .var (← name)
    | .punct '[' => return .list (← untilClose ']' (valueWithin constant depth))
    | .punct '{' =>
      let entries ← untilClose '}' (do
        let key ← name
        punct ':'
        let v ← valueWithin constant depth
        return (key, v))
      return .object (Value.sortEntries entries)
    | _ => failure

/-- Brackets never nest deeper than tokens allow. -/
def value (constant : Bool) : Reader Value := valueWithin constant (Token.nestingLimit + 1)

/-! ### Parts of definitions -/

def usage : Reader UsageDecl := do
  let pos ← here
  punct '@'
  let directive ← name
  let arguments ← optionalBlock '(' ')' do
    let argument ← name
    punct ':'
    let v ← value false
    return (argument, v)
  return { pos, name := directive, arguments }

def usages : Reader (List UsageDecl) := manyWhile (isPunct '@') usage

def inputDecl : Reader InputDecl := do
  let pos ← here
  let description ← description
  let input ← name
  punct ':'
  let type ← typeExpr
  let default ← (do
    if ← accept (isPunct '=') then return some (← value true) else return none)
  let usages ← usages
  return { pos, description, name := input, type, default, usages }

def fieldDecl : Reader FieldDecl := do
  let pos ← here
  let description ← description
  let field ← name
  let arguments ← optionalBlock '(' ')' inputDecl
  punct ':'
  let type ← typeExpr
  let usages ← usages
  return { pos, description, name := field, arguments, type, usages }

def enumValueDecl : Reader EnumValueDecl := do
  let pos ← here
  let description ← description
  let value ← name
  let usages ← usages
  return { pos, description, name := value, usages }

def implements : Reader (List String) := do
  if ← accept (isWord "implements") then separated '&' else return []

def members : Reader (List String) := do
  if ← accept (isPunct '=') then separated '|' else return []

/-- A name, its usages and its members, after the keyword of the kind. Interfaces stand before the
usages. -/
def typeRest : TypeKind → Reader (String × List UsageDecl × BodyDecl)
  | .scalar => do
    let name ← name
    let usages ← usages
    return (name, usages, .scalar)
  | .object => do
    let name ← name
    let implements ← implements
    let usages ← usages
    let fields ← optionalBlock '{' '}' fieldDecl
    return (name, usages, .object implements fields)
  | .interface => do
    let name ← name
    let implements ← implements
    let usages ← usages
    let fields ← optionalBlock '{' '}' fieldDecl
    return (name, usages, .interface implements fields)
  | .union => do
    let name ← name
    let usages ← usages
    let members ← members
    return (name, usages, .union members)
  | .enum => do
    let name ← name
    let usages ← usages
    let values ← optionalBlock '{' '}' enumValueDecl
    return (name, usages, .enum values)
  | .inputObject => do
    let name ← name
    let usages ← usages
    let fields ← optionalBlock '{' '}' inputDecl
    return (name, usages, .inputObject fields)

def typeKeyword? : String → Option TypeKind
  | "scalar" => some .scalar
  | "type" => some .object
  | "interface" => some .interface
  | "union" => some .union
  | "enum" => some .enum
  | "input" => some .inputObject
  | _ => none

/-! ### Definitions -/

/-- The locations of a directive; none if neither a name nor a bar comes next. -/
def locations : Reader (List DirectiveLocation) := do
  let start (t : Token) : Bool := match t with
    | .name _ => true
    | t => isPunct '|' t
  if ← sees start then
    let names ← separated '|'
    names.mapM fun s => (DirectiveLocation.ofName? s : Option DirectiveLocation)
  else return []

def directiveDecl (pos : Pos) (description : Option String) : Reader Declaration := do
  punct '@'
  let directive ← name
  let arguments ← optionalBlock '(' ')' inputDecl
  let repeatable ← accept (isWord "repeatable")
  word "on"
  let locations ← locations
  return .directive { pos, description, name := directive, arguments, repeatable, locations }

/-- The type names bound to operations; each operation at most once and no others. -/
def operations (d : SchemaDecl) : List (String × String) → Option SchemaDecl
  | [] => some d
  | (operation, type) :: rest =>
    match OperationKind.ofName? operation with
    | some .query => if d.query.isNone then operations { d with query := some type } rest else none
    | some .mutation =>
      if d.mutation.isNone then operations { d with mutation := some type } rest else none
    | some .subscription =>
      if d.subscription.isNone then operations { d with subscription := some type } rest else none
    | none => none

def schemaDecl (pos : Pos) : Reader Declaration := do
  let usages ← usages
  punct '{'
  let bindings ← untilClose '}' do
    let operation ← name
    punct ':'
    let type ← name
    return (operation, type)
  let d ← operations { pos, usages } bindings
  return .schema d

/-- Whether an extension says enough. Interfaces alone do not make an extension of an interface. -/
def addsContent (usages : List UsageDecl) : BodyDecl → Bool
  | .interface _ fields => !usages.isEmpty || !fields.isEmpty
  | body => !usages.isEmpty || !body.isEmpty

def extension : Reader Declaration := do
  word "extend"
  let pos ← here
  let keyword ← name
  let kind ← typeKeyword? keyword
  let (name, usages, body) ← typeRest kind
  if !addsContent usages body then failure
  return .typeExtension { pos, name, usages, body }

/-- A definition with its description, whose position is that of its keyword. -/
def definition : Reader Declaration := do
  let description ← description
  let pos ← here
  let keyword ← name
  if keyword == "directive" then directiveDecl pos description
  else if keyword == "schema" && description.isNone then schemaDecl pos
  else
    let kind ← typeKeyword? keyword
    let (name, usages, body) ← typeRest kind
    return .type { pos, description, name, usages, body }

def declaration : Reader Declaration := do
  if ← sees (isWord "extend") then extension else definition

/-! ### Executable definitions -/

/-- A field of a selection with its optional alias, arguments, directives and selections. -/
def selectionWithin : (depth : Nat) → Reader Unit
  | 0 => failure
  | depth + 1 => do
    if ← accept (fun t => match t with | .spread => true | _ => false) then
      if ← sees (fun t => match t with | .name s => s != "on" | _ => false) then
        let _ ← name
        let _ ← usages
      else
        if ← accept (isWord "on") then
          let _ ← name
        let _ ← usages
        let _ ← block '{' '}' (selectionWithin depth)
    else
      let _ ← name
      if ← accept (isPunct ':') then
        let _ ← name
      let _ ← optionalBlock '(' ')' do
        let _ ← name
        punct ':'
        value false
      let _ ← usages
      let _ ← optionalBlock '{' '}' (selectionWithin depth)

def selectionSet : Reader Unit := do
  let _ ← block '{' '}' (selectionWithin (Token.nestingLimit + 1))

/-- A variable of an operation with its type and default value. -/
def variableDecl : Reader Unit := do
  punct '$'
  let _ ← name
  punct ':'
  let _ ← typeExpr
  if ← accept (isPunct '=') then
    let _ ← value true

/-- An operation after its keyword. -/
def operationRest : Reader Unit := do
  if ← sees (fun t => match t with | .name _ => true | _ => false) then
    let _ ← name
  let _ ← optionalBlock '(' ')' variableDecl
  let _ ← usages
  selectionSet

def executable : Reader Declaration := do
  let pos ← here
  if ← sees (isPunct '{') then
    selectionSet
    return .executable .selectionSet pos
  else
    match ← name with
    | "query" =>
      operationRest
      return .executable .query pos
    | "mutation" =>
      operationRest
      return .executable .mutation pos
    | "subscription" =>
      operationRest
      return .executable .subscription pos
    | "fragment" =>
      let _ ← name
      word "on"
      let _ ← name
      let _ ← usages
      selectionSet
      return .executable .fragment pos
    | _ => failure

/-- Read items to the end of the tokens; at least one. -/
def wholeText (item : Reader α) (s : String) : Option (List α) := do
  let ts ← Token.ofText s
  let (items, _) ← manyWhile (fun _ => true) item ts
  if items.isEmpty then none else some items

end Reader

/-- The declarations of a schema document. -/
def readDocument (s : String) : Option (List Declaration) := Reader.wholeText Reader.declaration s

/-- The definitions of an executable document. -/
def readExecutable (s : String) : Option (List Declaration) := Reader.wholeText Reader.executable s

end SchemaAtlas
