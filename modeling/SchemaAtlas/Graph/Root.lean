import SchemaAtlas.Graph
import SchemaAtlas.Reach
import SchemaAtlas.Report

/-!
# The root of a schema

The root operation types come from the schema block, or else from the object types named `Query`,
`Mutation` and `Subscription` that nothing else in the schema refers to. From the root, every type
that a request can come across is marked.
-/

namespace SchemaAtlas

/-- What is known while the bindings of a schema block are read. -/
structure Binding where
  seen : List OperationKind := []
  bound : List (OperationKind × TypeId) := []
  /-- Whether every binding so far is good. -/
  sound : Bool := true

def Binding.typeOf? (b : Binding) (kind : OperationKind) : Option TypeId :=
  (b.bound.find? (·.1 == kind)).map Prod.snd

namespace Graph

/-- Read one binding. Names that are not defined have been reported already. -/
def bindOperation (g : Graph) (s : Binding) (o : OperationBinding) : Reported Binding := do
  let path := ElementPath.schema.child (.operation o.kind)
  if s.seen.contains o.kind then
    report (.duplicateOperation o.kind) o.type.location path
    return { s with sound := false }
  else
    let s := { s with seen := s.seen ++ [o.kind] }
    match g.resolve o.type with
    | none => return { s with sound := false }
    | some (t, d) =>
      if !d.isObject then
        report (.operationTypeNotObject o.kind d.kind d.name) o.type.location path
        return { s with sound := false }
      else
        match s.bound.find? (·.2 == t) with
        | some (first, _) =>
          report (.operationTypesNotDistinct first o.kind d.name) o.type.location path
          return { s with sound := false }
        | none => return { s with bound := s.bound ++ [(o.kind, t)] }

/-- The root that a schema block declares. -/
def declaredRoot (g : Graph) (block : SchemaBlock) : Reported (Option Root) := do
  if block.operations.isEmpty then
    report .schemaWithoutOperations block.location .schema
    return none
  else
    let s ← Reported.through g.bindOperation {} block.operations
    if !s.seen.contains .query then
      report .schemaWithoutQuery block.location .schema
      return none
    else if !s.sound then
      return none
    else
      return (s.typeOf? .query).map fun query =>
        ⟨some block, query, s.typeOf? .mutation, s.typeOf? .subscription⟩

/-- Whether the type named after an operation may serve as its root: it is an object, and only the
type itself refers to it. -/
def rootCandidate (g : Graph) (kind : OperationKind) (t : TypeId) :
    Reported (Option TypeId) := do
  match g.typeAt? t with
  | none => return none
  | some d =>
    if !d.isObject then
      report (.operationTypeNotObject kind d.kind d.name) d.location (g.path (.type t))
      return none
    else
      match d.references.find? fun r => r.site.owningType? != some t with
      | some r =>
        report (.rootTypeReferenced kind (g.path r.site) d.name) d.location (g.path (.type t))
        return none
      | none => return some t

/-- The operations whose default type exists, each with its type if that may serve. -/
def detectOperation (g : Graph) (kind : OperationKind) :
    Reported (Option (OperationKind × Option TypeId)) := do
  match g.typeId? kind.defaultTypeName with
  | none => return none
  | some t =>
    let candidate ← g.rootCandidate kind t
    return some (kind, candidate)

/-- Remember on a type that it is the root of an operation. -/
def recordRoot (g : Graph) (detected : OperationKind × TypeId) : Reported Graph := do
  match g.typeAt? detected.2 with
  | none => return g
  | some d =>
    trace s!"Detected '{d.name}' as the {detected.1.name} root type."
    let reference : Reference := ⟨.operation detected.1, .schema⟩
    return { g with types := g.types.mapIdx fun i d =>
      if i = detected.2.index then { d with references := d.references ++ [reference] } else d }

/-- The root that the default type names imply. Without any of these types there is none, which is
an error only if a root is required. -/
def detectedRoot (g : Graph) (required : Bool) : Reported (Graph × Option Root) := do
  let found ← Reported.each g.detectOperation OperationKind.all
  let detected := found.filterMap id
  match detected.find? (·.1 == .query) with
  | none =>
    if required || !detected.isEmpty then
      ⟨(), [.problem ⟨.queryTypeNotDefined, none, .schema⟩]⟩
    return (g, none)
  | some (_, none) => return (g, none)
  | some (_, some query) =>
    let good := detected.filterMap fun e => e.2.map fun t => (e.1, t)
    let typeOf? (kind : OperationKind) : Option TypeId := (good.find? (·.1 == kind)).map Prod.snd
    let recorded ← Reported.through recordRoot g good
    return (recorded, some ⟨none, query, typeOf? .mutation, typeOf? .subscription⟩)

/-- The types that a type leads to: those of its fields, arguments and input fields, and the
members of a union. -/
def typesWithin (g : Graph) (t : TypeId) : List TypeId :=
  match g.typeAt? t with
  | none => []
  | some d =>
    match d.body with
    | .enum _ | .scalar => []
    | .inputObject fields => fields.values.filterMap fun f => f.type.innermost.target
    | .interface shape | .object shape => shape.fields.values.flatMap fun f =>
      f.type.innermost.target.toList ++
        f.arguments.values.filterMap fun a => a.type.innermost.target
    | .union members => members.values.filterMap TypeRef.target

/-- The types reachable from a root. -/
def rootedTypes (g : Graph) (root : Root) : List TypeId :=
  reach g.typesWithin g.typeIds (OperationKind.all.filterMap root.operation?)

/-- Mark the given types as rooted. -/
def markRooted (g : Graph) (rooted : List TypeId) : Graph :=
  { g with types := g.types.mapIdx fun i d =>
      if rooted.contains ⟨i⟩ then { d with rooted := true } else d }

/-- Find the root and mark what it reaches. -/
def resolveRoot (g : Graph) (required : Bool) : Reported Graph :=
  let found : Reported (Graph × Option Root) :=
    match g.block with
    | some block => do
      let root ← g.declaredRoot block
      return (g, root)
    | none => g.detectedRoot required
  match found.value with
  | (g, none) =>
    Reported.summarize (fun errors => s!"Resolved no schema root ({errors} errors).")
      ⟨g, found.events⟩
  | (g, some root) =>
    let rooted := g.rootedTypes root
    let origin := if root.isDetected then "synthesized" else "explicit"
    Reported.summarize
      (fun errors => s!"Resolved {origin} schema root with {rooted.length} rooted types " ++
        s!"({errors} errors).")
      ⟨{ g.markRooted rooted with root := some root }, found.events⟩

end Graph

end SchemaAtlas
