import SchemaAtlas.Graph
import SchemaAtlas.Problem
import SchemaAtlas.Reach

/-!
# Rules against cycles

No value of an input object may have to contain another value of the same object, and no directive
may depend on itself through its arguments. A member of a cycle is reported once, and what merely
leads into a cycle is not.
-/

namespace SchemaAtlas.Graph

/-- The input object that a field makes part of every value: its type is non-null and not a list,
since an empty list or a null ends any chain. -/
def requiredObject? (g : Graph) (f : InputValue) : Option TypeId :=
  match f.type with
  | .nonNull (.named ref) =>
    match g.resolve ref with
    | some (t, d) => if d.inputFields?.isSome then some t else none
    | none => none
  | _ => none

/-- The input objects that every value of a type contains. -/
def requiredObjects (g : Graph) (t : TypeId) : List TypeId :=
  match (g.typeAt? t).bind TypeDef.inputFields? with
  | none => []
  | some fields => fields.values.filterMap g.requiredObject?

def requiresItself (g : Graph) (t : TypeId) : Bool :=
  leadsTo g.requiredObjects g.typeIds t t

/-- Input objects that no finite value can have. -/
def inputCycles (g : Graph) : List Diagnostic :=
  (g.ownTypes.filter fun e => e.2.inputFields?.isSome && g.requiresItself e.1).map fun e =>
    ⟨.circularInputObject e.2.name, some e.2.location, g.path (.type e.1)⟩

/-- What a directive can depend on. -/
inductive Dependency where
  | directive (d : DirectiveId)
  | type (t : TypeId)
deriving DecidableEq

namespace Dependency

def ofUsages (us : List Usage) : List Dependency := us.filterMap fun u => u.definition.map directive

def ofInputValue (v : InputValue) : List Dependency :=
  ofUsages v.usages ++ (v.type.innermost.target.map type).toList

/-- Types in argument positions; output types lead no further than their own usages. -/
def ofType (d : TypeDef) : List Dependency :=
  ofUsages d.usages ++
  match d.body with
  | .enum values => values.values.flatMap fun v => ofUsages v.usages
  | .inputObject fields => fields.values.flatMap ofInputValue
  | _ => []

end Dependency

/-- One step of dependency: through arguments and fields into their types and the directives on
them. -/
def dependencies (g : Graph) : Dependency → List Dependency
  | .directive d =>
    match g.directiveAt? d with
    | none => []
    | some definition => definition.arguments.values.flatMap Dependency.ofInputValue
  | .type t =>
    match g.typeAt? t with
    | none => []
    | some definition => Dependency.ofType definition

def dependencyNodes (g : Graph) : List Dependency :=
  g.directiveIds.map Dependency.directive ++ g.typeIds.map Dependency.type

def dependsOnItself (g : Graph) (d : DirectiveId) : Bool :=
  leadsTo g.dependencies g.dependencyNodes (.directive d) (.directive d)

/-- Directives that depend on themselves. -/
def directiveCycles (g : Graph) : List Diagnostic :=
  (g.ownDirectives.filter fun e => g.dependsOnItself e.1).map fun e =>
    ⟨.circularDirective e.2.name, some e.2.location, g.path (.directive e.1)⟩

end SchemaAtlas.Graph
