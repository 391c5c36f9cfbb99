import Mathlib.Data.List.Nodup
import Mathlib.Tactic.MkIffOfInductiveProp
import SchemaAtlas.Proofs.Reports
import SchemaAtlas.Proofs.Tables

/-!
# Definitions without problems

A run over definitions reports nothing exactly if no name is defined twice and each definition can
be read by itself. The graph is then the list of what was read, in order.
-/

namespace SchemaAtlas

namespace Collect

/-- A type definition by itself. -/
def typeDef (origin : Origin) (d : TypeDecl) : Reported TypeDef := do
  let location := origin.locate d.pos
  let path := ElementPath.type d.body.kind d.name
  let usages ← Collect.usages origin path d.usages
  let body ← Collect.body origin location path d.body
  return {
    name := d.name, description := d.description, location, builtIn := location.isBuiltIn,
    usages, body }

/-- A directive definition by itself. -/
def directiveDef (origin : Origin) (d : DirectiveDecl) : Reported DirectiveDef := do
  let location := origin.locate d.pos
  let path := ElementPath.directive d.name
  let locations ← Collect.locations location path .empty d.locations
  let arguments ← Collect.arguments origin path d.arguments
  return {
    name := d.name, description := d.description, location, builtIn := location.isBuiltIn,
    arguments, locations, repeatable := d.repeatable }

/-- A schema block by itself. -/
def block (origin : Origin) (d : SchemaDecl) : Reported SchemaBlock := do
  let location := origin.locate d.pos
  let usages ← Collect.usages origin .schema d.usages
  return ⟨location, usages, Collect.bindings location d⟩

end Collect

namespace Sourced

/-- The type that a declaration defines, under its name. -/
def typeEntry? (s : Sourced) : Option (String × TypeDef) :=
  match s.declaration with
  | .type d => some (d.name, (Collect.typeDef s.origin d).value)
  | _ => none

def directiveEntry? (s : Sourced) : Option (String × DirectiveDef) :=
  match s.declaration with
  | .directive d => some (d.name, (Collect.directiveDef s.origin d).value)
  | _ => none

def block? (s : Sourced) : Option SchemaBlock :=
  match s.declaration with
  | .schema d => some (Collect.block s.origin d).value
  | _ => none

/-- What is wrong with a definition by itself. -/
def ownProblems (s : Sourced) : List Diagnostic :=
  match s.declaration with
  | .type d => (Collect.typeDef s.origin d).problems
  | .directive d => (Collect.directiveDef s.origin d).problems
  | .schema d => (Collect.block s.origin d).problems
  | _ => []

end Sourced

namespace Graph

theorem defineType_problems_iff (g : Graph) (origin : Origin) (d : TypeDecl) :
    (g.defineType origin d).problems = [] ↔
      d.name ∉ g.types.keys ∧ (Collect.typeDef origin d).problems = [] := by
  rw [defineType, ← Table.contains_iff_mem]
  by_cases taken : g.types.contains d.name = true
  · simp [taken]
  · simp [taken, Collect.typeDef]

theorem defineType_value (g : Graph) (origin : Origin) (d : TypeDecl)
    (free : d.name ∉ g.types.keys) :
    (g.defineType origin d).value =
      { g with types := g.types.push d.name (Collect.typeDef origin d).value } := by
  rw [← Table.contains_iff_mem] at free
  simp [defineType, free, Collect.typeDef]

theorem defineDirective_problems_iff (g : Graph) (origin : Origin) (d : DirectiveDecl) :
    (g.defineDirective origin d).problems = [] ↔
      d.name ∉ g.directives.keys ∧ (Collect.directiveDef origin d).problems = [] := by
  rw [defineDirective, ← Table.contains_iff_mem]
  by_cases taken : g.directives.contains d.name = true
  · simp [taken]
  · simp [taken, Collect.directiveDef]

theorem defineDirective_value (g : Graph) (origin : Origin) (d : DirectiveDecl)
    (free : d.name ∉ g.directives.keys) :
    (g.defineDirective origin d).value =
      { g with directives := g.directives.push d.name (Collect.directiveDef origin d).value } := by
  rw [← Table.contains_iff_mem] at free
  simp [defineDirective, free, Collect.directiveDef]

theorem defineSchema_problems_iff (g : Graph) (origin : Origin) (d : SchemaDecl) :
    (g.defineSchema origin d).problems = [] ↔
      g.block = none ∧ (Collect.block origin d).problems = [] := by
  rw [defineSchema]
  cases g.block with
  | some b => simp
  | none => simp [Collect.block]

theorem defineSchema_value (g : Graph) (origin : Origin) (d : SchemaDecl)
    (free : g.block = none) :
    (g.defineSchema origin d).value =
      { g with block := some (Collect.block origin d).value } := by
  simp [defineSchema, free, Collect.block]

/-- The definitions that can be added to a graph without a problem. -/
@[mk_iff] structure Admits (g : Graph) (defs : List Sourced) : Prop where
  types : (g.types.keys ++ (defs.filterMap Sourced.typeEntry?).map Prod.fst).Nodup
  directives : (g.directives.keys ++ (defs.filterMap Sourced.directiveEntry?).map Prod.fst).Nodup
  block : (g.block.toList ++ defs.filterMap Sourced.block?).length ≤ 1
  own : ∀ s ∈ defs, s.ownProblems = []

/-- A graph with what definitions say at its end. -/
def extendedBy (g : Graph) (defs : List Sourced) : Graph :=
  { g with
    types := ⟨g.types.entries ++ defs.filterMap Sourced.typeEntry?⟩
    directives := ⟨g.directives.entries ++ defs.filterMap Sourced.directiveEntry?⟩
    block := (g.block.toList ++ defs.filterMap Sourced.block?).head? }

theorem admits_type (g : Graph) (origin : Origin) (d : TypeDecl) (rest : List Sourced) :
    g.Admits (⟨origin, .type d⟩ :: rest) ↔
      d.name ∉ g.types.keys ∧ (Collect.typeDef origin d).problems = [] ∧
      { g with types := g.types.push d.name (Collect.typeDef origin d).value }.Admits rest := by
  have free : (g.types.keys ++ d.name :: (rest.filterMap Sourced.typeEntry?).map Prod.fst).Nodup →
      d.name ∉ g.types.keys := fun distinct taken =>
    (List.nodup_append.mp distinct).2.2 _ taken _ List.mem_cons_self rfl
  simp only [admits_iff, List.filterMap_cons, Sourced.typeEntry?, Sourced.directiveEntry?,
    Sourced.block?, List.map_cons, List.forall_mem_cons, Sourced.ownProblems, Table.keys_push,
    List.append_assoc, List.singleton_append]
  constructor
  · rintro ⟨types, directives, block, own, others⟩
    exact ⟨free types, own, types, directives, block, others⟩
  · rintro ⟨_, own, types, directives, block, others⟩
    exact ⟨types, directives, block, own, others⟩

theorem admits_directive (g : Graph) (origin : Origin) (d : DirectiveDecl) (rest : List Sourced) :
    g.Admits (⟨origin, .directive d⟩ :: rest) ↔
      d.name ∉ g.directives.keys ∧ (Collect.directiveDef origin d).problems = [] ∧
      { g with directives := g.directives.push d.name (Collect.directiveDef origin d).value }.Admits
        rest := by
  have free : (g.directives.keys ++
      d.name :: (rest.filterMap Sourced.directiveEntry?).map Prod.fst).Nodup →
      d.name ∉ g.directives.keys := fun distinct taken =>
    (List.nodup_append.mp distinct).2.2 _ taken _ List.mem_cons_self rfl
  simp only [admits_iff, List.filterMap_cons, Sourced.typeEntry?, Sourced.directiveEntry?,
    Sourced.block?, List.map_cons, List.forall_mem_cons, Sourced.ownProblems, Table.keys_push,
    List.append_assoc, List.singleton_append]
  constructor
  · rintro ⟨types, directives, block, own, others⟩
    exact ⟨free directives, own, types, directives, block, others⟩
  · rintro ⟨_, own, types, directives, block, others⟩
    exact ⟨types, directives, block, own, others⟩

theorem admits_schema (g : Graph) (origin : Origin) (d : SchemaDecl) (rest : List Sourced) :
    g.Admits (⟨origin, .schema d⟩ :: rest) ↔
      g.block = none ∧ (Collect.block origin d).problems = [] ∧
      { g with block := some (Collect.block origin d).value }.Admits rest := by
  simp only [admits_iff, List.filterMap_cons, Sourced.typeEntry?, Sourced.directiveEntry?,
    Sourced.block?, List.forall_mem_cons, Sourced.ownProblems]
  cases g.block with
  | some b => simp
  | none =>
    simp only [Option.toList_none, List.nil_append, Option.toList_some, List.singleton_append,
      true_and]
    constructor
    · rintro ⟨types, directives, block, own, others⟩
      exact ⟨own, types, directives, block, others⟩
    · rintro ⟨own, types, directives, block, others⟩
      exact ⟨types, directives, block, own, others⟩

/-- What is not a definition makes no difference. -/
theorem admits_other (g : Graph) (s : Sourced) (rest : List Sourced)
    (type : s.typeEntry? = none) (directive : s.directiveEntry? = none) (block : s.block? = none)
    (own : s.ownProblems = []) : g.Admits (s :: rest) ↔ g.Admits rest := by
  simp only [admits_iff, List.filterMap_cons, type, directive, block, List.forall_mem_cons, own,
    true_and]

/-- A run over definitions reports nothing exactly if the graph admits them all. -/
theorem through_define_problems_iff (defs : List Sourced) (g : Graph)
    (types : g.types.keys.Nodup) (directives : g.directives.keys.Nodup) :
    (Reported.through define g defs).problems = [] ↔ g.Admits defs := by
  induction defs generalizing g with
  | nil =>
    simp only [Reported.through_nil, Reported.pure_problems, admits_iff, List.filterMap_nil,
      List.map_nil, List.append_nil, types, directives]
    cases g.block <;> simp
  | cons s rest ih =>
    obtain ⟨origin, declaration⟩ := s
    rw [Reported.through_cons_problems, List.append_eq_nil_iff]
    cases declaration with
    | type d =>
      rw [admits_type, define, defineType_problems_iff, and_assoc]
      refine and_congr_right fun free => and_congr_right fun _ => ?_
      rw [defineType_value g origin d free]
      exact ih _ (Table.nodup_keys_push types free) directives
    | directive d =>
      rw [admits_directive, define, defineDirective_problems_iff, and_assoc]
      refine and_congr_right fun free => and_congr_right fun _ => ?_
      rw [defineDirective_value g origin d free]
      exact ih _ types (Table.nodup_keys_push directives free)
    | schema d =>
      rw [admits_schema, define, defineSchema_problems_iff, and_assoc]
      refine and_congr_right fun free => and_congr_right fun _ => ?_
      rw [defineSchema_value g origin d free]
      exact ih _ types directives
    | _ =>
      rw [admits_other g _ rest rfl rfl rfl rfl]
      exact (and_iff_right rfl).trans (ih g types directives)

/-- The graph after such a run. -/
theorem through_define_value (defs : List Sourced) (g : Graph) (admits : g.Admits defs) :
    (Reported.through define g defs).value = g.extendedBy defs := by
  induction defs generalizing g with
  | nil => simp [extendedBy]
  | cons s rest ih =>
    obtain ⟨origin, declaration⟩ := s
    rw [Reported.through_cons_value]
    cases declaration with
    | type d =>
      obtain ⟨free, _, others⟩ := (admits_type g origin d rest).mp admits
      rw [define, defineType_value g origin d free, ih _ others]
      simp [extendedBy, Table.push, List.filterMap_cons, Sourced.typeEntry?,
        Sourced.directiveEntry?, Sourced.block?]
    | directive d =>
      obtain ⟨free, _, others⟩ := (admits_directive g origin d rest).mp admits
      rw [define, defineDirective_value g origin d free, ih _ others]
      simp [extendedBy, Table.push, List.filterMap_cons, Sourced.typeEntry?,
        Sourced.directiveEntry?, Sourced.block?]
    | schema d =>
      obtain ⟨free, _, others⟩ := (admits_schema g origin d rest).mp admits
      rw [define, defineSchema_value g origin d free, ih _ others]
      simp [extendedBy, List.filterMap_cons, Sourced.typeEntry?,
        Sourced.directiveEntry?, Sourced.block?, free]
    | _ =>
      have others := (admits_other g _ rest rfl rfl rfl rfl).mp admits
      rw [define, Reported.pure_value, ih g others]
      rfl

end Graph

/-- The definitions among declarations. -/
def definitionsOf (ds : List Sourced) : List Sourced :=
  ds.filter fun s => !s.declaration.isExtension

/-- The extensions among declarations. -/
def extensionsOf (ds : List Sourced) : List Sourced :=
  ds.filter fun s => s.declaration.isExtension

theorem firstExecutable?_eq_none_iff (ds : List Sourced) :
    firstExecutable? ds = none ↔ ∀ s ∈ definitionsOf ds, ∀ kind pos,
      s.declaration ≠ .executable kind pos := by
  rw [firstExecutable?, List.findSome?_eq_none_iff, definitionsOf]
  constructor
  · intro none s member kind pos found
    have here := none s (List.mem_filter.mp member).1
    rw [found] at here
    cases here
  · intro none s member
    cases found : s.declaration with
    | executable kind pos =>
      have defined : s ∈ ds.filter fun s => !s.declaration.isExtension :=
        List.mem_filter.mpr ⟨member, by rw [found]; rfl⟩
      exact absurd found (none s defined kind pos)
    | _ => rfl

namespace Graph

/-- Collecting reports nothing if the definitions can stand together and the extensions can be
merged into them. -/
theorem collect_problems_iff (ds : List Sourced) :
    (collect ds).problems = [] ↔
      ({} : Graph).Admits (definitionsOf ds) ∧
      (Reported.through extend (({} : Graph).extendedBy (definitionsOf ds))
        (extensionsOf ds)).problems = [] := by
  have defined := through_define_problems_iff (definitionsOf ds) {} List.nodup_nil List.nodup_nil
  simp only [collect, Reported.summarize_problems, Reported.bind_problems,
    List.append_eq_nil_iff]
  constructor
  · rintro ⟨first, second⟩
    have admits := defined.mp first
    refine ⟨admits, ?_⟩
    rw [← through_define_value _ _ admits]
    exact second
  · rintro ⟨admits, second⟩
    refine ⟨defined.mpr admits, ?_⟩
    rw [← through_define_value _ _ admits] at second
    exact second

theorem collect_value (ds : List Sourced) (admits : ({} : Graph).Admits (definitionsOf ds)) :
    (collect ds).value =
      (Reported.through extend (({} : Graph).extendedBy (definitionsOf ds))
        (extensionsOf ds)).value := by
  rw [← through_define_value _ _ admits]
  rfl

end Graph

end SchemaAtlas
