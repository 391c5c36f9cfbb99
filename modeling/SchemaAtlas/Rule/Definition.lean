import SchemaAtlas.Report
import SchemaAtlas.Rule.Conformance
import SchemaAtlas.Rule.Cycle
import SchemaAtlas.Rule.Usage

/-!
# Rules for definitions

The checks of each type and directive that is not built in: names, members, types in the right
position, default values, directive usages and interfaces; then the schema block's usages and the
rules against cycles. The graph is linked, and references without a target are left alone.
-/

namespace SchemaAtlas.Graph

/-- Names that start with two underscores are reserved. -/
def checkName (name : String) (location : SourceLocation) (path : ElementPath) : List Diagnostic :=
  if name.toList.take 2 = ['_', '_'] then
    [⟨.doubleUnderscoreName path, some location, path⟩]
  else []

/-- Where a directive stands when it is applied to a type. -/
def typeLocation : TypeKind → DirectiveLocation
  | .enum => .enum
  | .inputObject => .inputObject
  | .interface => .interface
  | .object => .object
  | .scalar => .scalar
  | .union => .union

/-- Types that cannot be given as input. -/
def checkInputType (g : Graph) (v : InputValue) (path : ElementPath) : List Diagnostic :=
  match g.resolve v.type.innermost with
  | some (_, target) =>
    if target.kind.isInput then []
    else [⟨.notInputType path target.kind target.name, some v.type.innermost.location, path⟩]
  | none => []

/-- A default value that does not fit, where the type is an input type at all. -/
def checkDefault (g : Graph) (v : InputValue) (path : ElementPath) : List Diagnostic :=
  match g.resolve v.type.innermost, v.default with
  | some (_, target), some value =>
    if target.kind.isInput && !value.fits g.types v.type then
      [⟨.incompatibleDefault path v.type value, some v.location, path⟩]
    else []
  | _, _ => []

/-- Whether a usage is of the built-in directive that marks an element as deprecated. -/
def isDeprecation (g : Graph) (u : Usage) : Bool :=
  match u.definition.bind g.directiveAt? with
  | some d => d.builtIn && d.name == "deprecated"
  | none => false

/-- What is required cannot be deprecated. -/
def checkDeprecation (g : Graph) (v : InputValue) (path : ElementPath) : List Diagnostic :=
  if v.isRequired then
    (v.usages.filter g.isDeprecation).map fun u =>
      ⟨.invalidDeprecation u.name path, some u.location, path.child (.usage u.name)⟩
  else []

/-- An argument or input field. -/
def checkInputValue (g : Graph) (location : DirectiveLocation) (path : ElementPath)
    (v : InputValue) : List Diagnostic :=
  checkName v.name v.location path ++ g.checkUsages location path v.usages ++
    g.checkInputType v path ++ g.checkDefault v path ++ g.checkDeprecation v path

def checkArgument (g : Graph) (container : ElementPath) (e : String × InputValue) :
    List Diagnostic :=
  g.checkInputValue .argumentDefinition (container.child (.argument e.1)) e.2

def checkInputField (g : Graph) (type : ElementPath) (e : String × InputValue) :
    List Diagnostic :=
  g.checkInputValue .inputFieldDefinition (type.child (.inputField e.1)) e.2

/-- Enum values that read as other literals. -/
def checkReserved (d : TypeDef) (path : ElementPath) (e : String × EnumValue) : List Diagnostic :=
  if e.1 = "true" ∨ e.1 = "false" ∨ e.1 = "null" then
    [⟨.reservedEnumValue d.name e.1, some e.2.location, path⟩]
  else []

def checkEnumValue (g : Graph) (d : TypeDef) (type : ElementPath) (e : String × EnumValue) :
    List Diagnostic :=
  let path := type.child (.enumValue e.1)
  checkName e.1 e.2.location path ++ checkReserved d path e ++
    g.checkUsages .enumValue path e.2.usages

/-- Types that cannot be given as a result. -/
def checkOutputType (g : Graph) (f : Field) (path : ElementPath) : List Diagnostic :=
  match g.resolve f.type.innermost with
  | some (_, target) =>
    if target.kind.isOutput then []
    else [⟨.notOutputType path target.kind target.name, some f.type.innermost.location, path⟩]
  | none => []

def checkField (g : Graph) (type : ElementPath) (e : String × Field) : List Diagnostic :=
  let path := type.child (.field e.1)
  checkName e.1 e.2.location path ++ g.checkUsages .fieldDefinition path e.2.usages ++
    g.checkOutputType e.2 path ++ e.2.arguments.entries.flatMap (g.checkArgument path)

/-- Unions hold objects only. -/
def checkMember (g : Graph) (d : TypeDef) (type : ElementPath) (ref : TypeRef) : List Diagnostic :=
  match g.resolve ref with
  | some (_, target) =>
    if target.isObject then []
    else [⟨.unionMemberNotObject target.kind target.name d.name, some ref.location, type⟩]
  | none => []

/-- A type other than a scalar needs a member. -/
def checkEmpty (d : TypeDef) (empty : Bool) : List Diagnostic :=
  if empty then
    [⟨.emptyDefinition d.kind d.name, some d.location, .type d.kind d.name⟩]
  else []

/-- The members of a type. Interfaces are checked only for a type that has fields. -/
def checkBody (g : Graph) (t : TypeId) (d : TypeDef) (path : ElementPath) : List Diagnostic :=
  match d.body with
  | .enum values =>
    checkEmpty d values.isEmpty ++ values.entries.flatMap (g.checkEnumValue d path)
  | .inputObject fields =>
    checkEmpty d fields.isEmpty ++ fields.entries.flatMap (g.checkInputField path)
  | .interface shape | .object shape =>
    checkEmpty d shape.fields.isEmpty ++ shape.fields.entries.flatMap (g.checkField path) ++
      if shape.fields.isEmpty then [] else g.checkInterfaces t d shape
  | .scalar => []
  | .union members =>
    checkEmpty d members.isEmpty ++ members.values.flatMap (g.checkMember d path)

def checkType (g : Graph) (e : TypeId × TypeDef) : List Diagnostic :=
  let path := g.path (.type e.1)
  checkName e.2.name e.2.location path ++
    g.checkUsages (typeLocation e.2.kind) path e.2.usages ++ g.checkBody e.1 e.2 path

def checkDirective (g : Graph) (e : DirectiveId × DirectiveDef) : List Diagnostic :=
  let path := g.path (.directive e.1)
  checkName e.2.name e.2.location path ++
    e.2.arguments.entries.flatMap (g.checkArgument path)

def checkBlock (g : Graph) : List Diagnostic :=
  match g.block with
  | some block => g.checkUsages .schema .schema block.usages
  | none => []

/-- Every rule that a linked graph breaks. -/
def violations (g : Graph) : List Diagnostic :=
  g.ownTypes.flatMap g.checkType ++ g.ownDirectives.flatMap g.checkDirective ++ g.checkBlock ++
    g.inputCycles ++ g.directiveCycles

def check (g : Graph) : Reported Unit :=
  Reported.summarize
    (fun errors => s!"Validated {g.types.size} types and {g.directives.size} directives " ++
      s!"({errors} errors).")
    ⟨(), g.violations.map Event.problem⟩

end SchemaAtlas.Graph
