import SchemaAtlas.Declaration
import SchemaAtlas.Text.Blank

/-!
# Writing a schema document

The text of declarations. Definitions are separated by one empty line and blocks are indented by two
columns.
-/

namespace SchemaAtlas.Writer

/-- The indent of a block. -/
def step : Nat := 2

def indentation (columns : Nat) : String := String.ofList (List.replicate columns ' ')

/-! ### Strings -/

/-- Characters that a block string can hold and a quoted one need not escape. -/
def isPlain (c : Char) : Bool := 0x20 ≤ c.toNat && c.toNat ≤ 0xFFFF

/-- The code point in decimal, with at least four digits. -/
def numbered (c : Char) : List Char :=
  let digits := Nat.toDigits 10 c.toNat
  ['\\', 'u'] ++ List.replicate (4 - digits.length) '0' ++ digits

def escape (c : Char) : List Char :=
  if c = '\r' then ['\\', 'r']
  else if c = '\n' then ['\\', 'n']
  else if c = '\t' then ['\\', 't']
  else if c = '"' then ['\\', '"']
  else if c = '\\' then ['\\', '\\']
  else if isPlain c then [c]
  else numbered c

/-- Write a backslash before three quotes in a row. -/
def escapeBlock : List Char → List Char
  | '"' :: '"' :: '"' :: rest => '\\' :: '"' :: '"' :: '"' :: escapeBlock rest
  | c :: rest => c :: escapeBlock rest
  | [] => []

def blockLine (columns : Nat) (line : List Char) : String :=
  if line.all Text.isBlank then "\n"
  else indentation columns ++ String.ofList (escapeBlock line) ++ "\n"

/-- Whether a text is written as a block: it has several lines and nothing that needs a number. -/
def asBlock (cs : List Char) : Bool :=
  cs.contains '\n' && cs.all fun c => c == '\n' || c == '\r' || c == '\t' || isPlain c

/-- A string, or a description, at the given indent. -/
def string (columns : Nat) (s : String) : String :=
  let cs := s.toList
  if asBlock cs then
    "\"\"\"\n" ++ String.join ((Text.lines cs).map (blockLine (columns + step))) ++
      indentation columns ++ "\"\"\""
  else String.ofList (['"'] ++ cs.flatMap escape ++ ['"'])

/-! ### Values and types -/

mutual

def value (columns : Nat) : Value → String
  | .null => "null"
  | .boolean b => if b then "true" else "false"
  | .int n => toString n
  | .float x => NumberStyle.literal.writeFloat x
  | .string s => string columns s
  | .enum name => name
  | .var name => "$" ++ name
  | .list items => "[" ++ ", ".intercalate (itemTexts columns items) ++ "]"
  | .object entries => "\x7b" ++ ", ".intercalate (entryTexts columns entries) ++ "\x7d"

def itemTexts (columns : Nat) : List Value → List String
  | [] => []
  | v :: rest => value columns v :: itemTexts columns rest

def entryTexts (columns : Nat) : List (String × Value) → List String
  | [] => []
  | (key, v) :: rest => (key ++ ": " ++ value columns v) :: entryTexts columns rest

end

def typeExpr : TypeExpr → String
  | .named name => name
  | .list item => "[" ++ typeExpr item ++ "]"
  | .nonNull inner => typeExpr inner ++ "!"

/-! ### Parts of definitions -/

def usage (columns : Nat) (u : UsageDecl) : String :=
  let arguments := u.arguments.map fun a => a.1 ++ ": " ++ value columns a.2
  " @" ++ u.name ++
    if arguments.isEmpty then "" else "(" ++ ", ".intercalate arguments ++ ")"

def usages (columns : Nat) (us : List UsageDecl) : String := String.join (us.map (usage columns))

/-- A description on the same line as what it describes. -/
def inlineDescription (columns : Nat) : Option String → String
  | some s => string columns s ++ " "
  | none => ""

/-- A description on lines of its own. -/
def description (columns : Nat) : Option String → String
  | some s => indentation columns ++ string columns s ++ "\n"
  | none => ""

def inputDecl (columns : Nat) (d : InputDecl) : String :=
  inlineDescription columns d.description ++ d.name ++ ": " ++ typeExpr d.type ++
    (match d.default with
      | some v => " = " ++ value columns v
      | none => "") ++
    usages columns d.usages

def arguments (columns : Nat) (ds : List InputDecl) : String :=
  if ds.isEmpty then "" else "(" ++ ", ".intercalate (ds.map (inputDecl columns)) ++ ")"

def fieldDecl (d : FieldDecl) : String :=
  description step d.description ++ indentation step ++ d.name ++ arguments step d.arguments ++
    ": " ++ typeExpr d.type ++ usages step d.usages ++ "\n"

def inputFieldDecl (d : InputDecl) : String := indentation step ++ inputDecl step d ++ "\n"

def enumValueDecl (d : EnumValueDecl) : String :=
  indentation step ++ inlineDescription step d.description ++ d.name ++ usages step d.usages ++
    "\n"

/-- Lines between braces; nothing at all without lines. -/
def block (lines : List String) : String :=
  if lines.isEmpty then "" else " \x7b\n" ++ String.join lines ++ "\x7d"

def implements (names : List String) : String :=
  if names.isEmpty then "" else " implements " ++ " & ".intercalate names

/-! ### Definitions -/

/-- A type from its keyword on; `us` are its usages. -/
def typeRest (name us : String) : BodyDecl → String
  | .scalar => "scalar " ++ name ++ us
  | .object interfaces fields =>
    "type " ++ name ++ implements interfaces ++ us ++ block (fields.map fieldDecl)
  | .interface interfaces fields =>
    "interface " ++ name ++ implements interfaces ++ us ++ block (fields.map fieldDecl)
  | .union members =>
    "union " ++ name ++ us ++ if members.isEmpty then "" else " = " ++ " | ".intercalate members
  | .enum values => "enum " ++ name ++ us ++ block (values.map enumValueDecl)
  | .inputObject fields => "input " ++ name ++ us ++ block (fields.map inputFieldDecl)

def directiveDecl (d : DirectiveDecl) : String :=
  description 0 d.description ++ "directive @" ++ d.name ++ arguments 0 d.arguments ++
    (if d.repeatable then " repeatable" else "") ++
    if d.locations.isEmpty then ""
    else " on " ++ " | ".intercalate (d.locations.map DirectiveLocation.name)

def schemaDecl (d : SchemaDecl) : String :=
  "schema" ++ usages 0 d.usages ++ " \x7b\n" ++
    String.join (d.bindings.map fun b => indentation step ++ b.1.name ++ ": " ++ b.2 ++ "\n") ++
    "\x7d"

/-- A declaration without its final line end. Executable definitions have no place in a schema and
extensions of the schema block no text. -/
def declaration : Declaration → String
  | .type d => description 0 d.description ++ typeRest d.name (usages 0 d.usages) d.body
  | .typeExtension d => "extend " ++ typeRest d.name (usages 0 d.usages) d.body
  | .directive d => directiveDecl d
  | .schema d => schemaDecl d
  | .schemaExtension _ | .executable _ _ => ""

def document (ds : List Declaration) : String :=
  "\n".intercalate (ds.map fun d => declaration d ++ "\n")

end SchemaAtlas.Writer
