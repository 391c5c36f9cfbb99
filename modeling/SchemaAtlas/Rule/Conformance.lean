import SchemaAtlas.Graph
import SchemaAtlas.Problem
import SchemaAtlas.Reach

/-!
# Rules for implementing an interface

A type lists every interface that the interfaces it lists implement, and has each of their fields
with a type that may stand for the declared one and with arguments of the same types. Interfaces
that are not defined are reported elsewhere.
-/

namespace SchemaAtlas.Graph

/-- The interfaces that a type lists, as far as they are linked. -/
def interfacesOf (g : Graph) (t : TypeId) : List TypeId :=
  match (g.typeAt? t).bind TypeDef.shape? with
  | none => []
  | some shape => shape.implements.values.filterMap TypeRef.target

/-- Whether `interface` can be reached from `t` by one or more steps along the lists of
interfaces. -/
def implementsInterface (g : Graph) (t interface : TypeId) : Bool :=
  leadsTo g.interfacesOf g.typeIds t interface

/-- Whether a named type may stand for another one. -/
def namedMayStandFor (g : Graph) (found expected : TypeRef) : Bool :=
  found.name == expected.name ||
  match g.resolve found, g.resolve expected with
  | some (foundId, foundDef), some (expectedId, expectedDef) =>
    match expectedDef.body with
    | .interface _ => foundDef.shape?.isSome && g.implementsInterface foundId expectedId
    | .union members => foundDef.isObject && members.contains foundDef.name
    | _ => false
  | _, _ => true

/-- Whether a field of type `found` may implement a field of type `expected`. A non-null type may
stand for a nullable one, and wrappers otherwise correspond. -/
def mayStandFor (g : Graph) : TypeUse → TypeUse → Bool
  | .nonNull found, .nonNull expected => g.mayStandFor found expected
  | .nonNull found, expected => g.mayStandFor found expected
  | _, .nonNull _ => false
  | .list found, .list expected => g.mayStandFor found expected
  | .list _, _ => false
  | _, .list _ => false
  | .named found, .named expected => g.namedMayStandFor found expected

/-- An argument of the interface's field, against the implementing field. -/
def declaredArgument (interface : String) (path : ElementPath) (f : Field)
    (e : String × InputValue) : List Diagnostic :=
  match f.arguments.get? e.1 with
  | none => [⟨.missingInterfaceArgument e.1 path interface, some f.location, path⟩]
  | some argument =>
    if argument.type.equivalent e.2.type then []
    else
      let argumentPath := path.child (.argument e.1)
      [⟨.interfaceArgumentMismatch argumentPath e.2.type argument.type interface,
        some argument.location, argumentPath⟩]

/-- Non-null arguments that the interface's field does not have. -/
def extraArguments (interface : String) (path : ElementPath) (f declared : Field) :
    List Diagnostic :=
  (f.arguments.entries.filter fun e =>
    !declared.arguments.contains e.1 && e.2.type.isNonNull).map fun e =>
      let argumentPath := path.child (.argument e.1)
      ⟨.requiredExtraArgument argumentPath interface, some e.2.location, argumentPath⟩

/-- A field against the interface's field of the same name. -/
def fieldConformance (g : Graph) (interface : String) (path : ElementPath) (f declared : Field) :
    List Diagnostic :=
  declared.arguments.entries.flatMap (declaredArgument interface path f) ++
  extraArguments interface path f declared ++
  if g.mayStandFor f.type declared.type then []
  else [⟨.invalidInterfaceFieldType path declared.type f.type interface, some f.location, path⟩]

/-- A field of the interface, against the implementing type. -/
def declaredField (g : Graph) (t : TypeId) (d : TypeDef) (shape : Shape) (interface : String)
    (e : String × Field) : List Diagnostic :=
  match shape.fields.indexOf? e.1, shape.fields.get? e.1 with
  | some index, some f => g.fieldConformance interface (g.path (.field t index)) f e.2
  | _, _ => [⟨.missingInterfaceField d.kind d.name e.1 interface, some d.location,
      g.path (.type t)⟩]

/-- Interfaces of the listed interface that the type itself does not list. Those in `demanded` have
been asked for already. -/
def missingInterfaces (d : TypeDef) (shape interface : Shape) (demanded : List String) :
    List String :=
  interface.implements.keys.filter fun name =>
    name != d.name && !shape.implements.contains name && !demanded.contains name

/-- Check the listed interfaces in order, where `fields` is the check of one of their fields. -/
def interfaceProblems (g : Graph) (t : TypeId) (d : TypeDef) (shape : Shape)
    (fields : String → String × Field → List Diagnostic) (demanded : List String) :
    List (String × TypeRef) → List Diagnostic
  | [] => []
  | (name, ref) :: rest =>
    match g.resolve ref with
    | none => g.interfaceProblems t d shape fields demanded rest
    | some (id, target) =>
      match target.interface? with
      | none =>
        ⟨.implementsNonInterface d.kind d.name target.kind name, some ref.location,
          g.path (.type t)⟩ :: g.interfaceProblems t d shape fields demanded rest
      | some interface =>
        if id = t then g.interfaceProblems t d shape fields demanded rest
        else
          let missing := missingInterfaces d shape interface demanded
          (missing.map fun absent =>
            ⟨.missingTransitiveInterface d.kind d.name absent name, some ref.location,
              g.path (.type t)⟩) ++
          interface.fields.entries.flatMap (fields name) ++
          g.interfaceProblems t d shape fields (demanded ++ missing) rest

/-- Everything that keeps a type from implementing what it lists. -/
def checkInterfaces (g : Graph) (t : TypeId) (d : TypeDef) (shape : Shape) : List Diagnostic :=
  (if d.kind == .interface && g.implementsInterface t t then
      [⟨.selfImplementingInterface d.name, some d.location, g.path (.type t)⟩]
    else []) ++
  g.interfaceProblems t d shape (g.declaredField t d shape) [] shape.implements.entries

end SchemaAtlas.Graph
