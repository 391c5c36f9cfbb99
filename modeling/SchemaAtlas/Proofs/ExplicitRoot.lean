import SchemaAtlas.Proofs.Conformance
import SchemaAtlas.Proofs.Defining
import SchemaAtlas.Proofs.Marking
import SchemaAtlas.Proofs.Places

/-!
# Explicit roots

A schema block that binds the operations to the types of their default names says what is detected
without it. The block is collected and linked, so the references to the root types are found by
another step of the analysis and accepted under other conditions, but the schema is the same: its
types with all their references and marks, its directives, and the types that serve the operations.
-/

namespace SchemaAtlas

open Relabeling (still)

/-! Without a schema block, extensions of types are all that can be merged, and they leave room for
a block. -/

namespace Graph

theorem extend_undeclared {g : Graph} (undeclared : g.block = none) {s : Sourced}
    (silent : (g.extend s).problems = []) : (g.extend s).value.block = none := by
  obtain ⟨origin, declaration⟩ := s
  cases declaration with
  | typeExtension e =>
    simp only [extend, extendType]
    split
    · exact undeclared
    · split
      · exact undeclared
      · split <;> exact undeclared
  | schemaExtension d => simp [extend, extendSchema, undeclared] at silent
  | _ => exact undeclared

theorem extend_withBlock {g : Graph} (undeclared : g.block = none) {s : Sourced}
    (silent : (g.extend s).problems = []) (block : SchemaBlock) :
    ({ g with block := some block }.extend s).problems = [] ∧
      ({ g with block := some block }.extend s).value =
        { (g.extend s).value with block := some block } := by
  obtain ⟨origin, declaration⟩ := s
  cases declaration with
  | typeExtension e =>
    simp only [extend, extendType] at silent ⊢
    cases found : g.types.get? e.name with
    | none => simp [found] at silent
    | some old =>
      simp only [found] at silent ⊢
      split
      · simp_all
      · split <;> simp_all
  | schemaExtension d => simp [extend, extendSchema, undeclared] at silent
  | _ => exact ⟨rfl, rfl⟩

theorem through_extend_undeclared (exts : List Sourced) {g : Graph} (undeclared : g.block = none)
    (silent : (Reported.through extend g exts).problems = []) :
    (Reported.through extend g exts).value.block = none := by
  induction exts generalizing g with
  | nil => exact undeclared
  | cons s rest ih =>
    rw [Reported.through_cons_problems, List.append_eq_nil_iff] at silent
    rw [Reported.through_cons_value]
    exact ih (extend_undeclared undeclared silent.1) silent.2

theorem through_extend_withBlock (exts : List Sourced) {g : Graph} (undeclared : g.block = none)
    (silent : (Reported.through extend g exts).problems = []) (block : SchemaBlock) :
    (Reported.through extend { g with block := some block } exts).problems = [] ∧
      (Reported.through extend { g with block := some block } exts).value =
        { (Reported.through extend g exts).value with block := some block } := by
  induction exts generalizing g with
  | nil => exact ⟨rfl, rfl⟩
  | cons s rest ih =>
    rw [Reported.through_cons_problems, List.append_eq_nil_iff] at silent
    obtain ⟨first, later⟩ := silent
    obtain ⟨quiet, value⟩ := extend_withBlock undeclared first block
    obtain ⟨quiet', value'⟩ := ih (extend_undeclared undeclared first) later
    simp only [Reported.through_cons_problems, Reported.through_cons_value, quiet, value,
      List.nil_append]
    exact ⟨quiet', value'⟩

theorem extendedBy_undeclared {ds : List Sourced} (undeclared : ∀ x ∈ ds, x.block? = none) :
    (({} : Graph).extendedBy (definitionsOf ds)).block = none := by
  have blocks : (definitionsOf ds).filterMap Sourced.block? = [] := by
    rw [List.filterMap_eq_nil_iff]
    exact fun x member => undeclared x (List.mem_filter.mp member).1
  rw [extendedBy, blocks]
  rfl

theorem collect_undeclared {ds : List Sourced} (undeclared : ∀ x ∈ ds, x.block? = none)
    (silent : (collect ds).problems = []) : (collect ds).value.block = none := by
  obtain ⟨admits, merged⟩ := (collect_problems_iff _).mp silent
  rw [collect_value _ admits]
  exact through_extend_undeclared _ (extendedBy_undeclared undeclared) merged

section Insertion

variable {before after : List Sourced} {origin : Origin} {d : SchemaDecl}

theorem definitionsOf_insert_schema :
    definitionsOf (before ++ ⟨origin, .schema d⟩ :: after) =
      definitionsOf before ++ ⟨origin, .schema d⟩ :: definitionsOf after := by
  simp [definitionsOf, Declaration.isExtension]

/-- Among definitions, a block that can be read by itself is admitted if there is no other. -/
theorem admits_insert_schema (undeclared : ∀ x ∈ before ++ after, x.block? = none)
    (admits : ({} : Graph).Admits (definitionsOf (before ++ after)))
    (read : (Collect.block origin d).problems = []) :
    ({} : Graph).Admits (definitionsOf (before ++ ⟨origin, .schema d⟩ :: after)) ∧
      ({} : Graph).extendedBy (definitionsOf (before ++ ⟨origin, .schema d⟩ :: after)) =
        { ({} : Graph).extendedBy (definitionsOf (before ++ after)) with
          block := some (Collect.block origin d).value } := by
  have old : definitionsOf (before ++ after) = definitionsOf before ++ definitionsOf after :=
    List.filter_append ..
  have types : (definitionsOf (before ++ ⟨origin, .schema d⟩ :: after)).filterMap
      Sourced.typeEntry? = (definitionsOf (before ++ after)).filterMap Sourced.typeEntry? := by
    rw [definitionsOf_insert_schema, old, List.filterMap_append, List.filterMap_cons,
      List.filterMap_append]
    rfl
  have directives : (definitionsOf (before ++ ⟨origin, .schema d⟩ :: after)).filterMap
      Sourced.directiveEntry? =
        (definitionsOf (before ++ after)).filterMap Sourced.directiveEntry? := by
    rw [definitionsOf_insert_schema, old, List.filterMap_append, List.filterMap_cons,
      List.filterMap_append]
    rfl
  have one : (definitionsOf (before ++ ⟨origin, .schema d⟩ :: after)).filterMap Sourced.block? =
      [(Collect.block origin d).value] := by
    have none (ds : List Sourced) (inside : ∀ x ∈ ds, x ∈ before ++ after) :
        (definitionsOf ds).filterMap Sourced.block? = [] :=
      List.filterMap_eq_nil_iff.mpr fun x member =>
        undeclared x (inside x (List.mem_filter.mp member).1)
    rw [definitionsOf_insert_schema, List.filterMap_append, List.filterMap_cons,
      none before fun x => List.mem_append_left _, none after fun x => List.mem_append_right _]
    rfl
  refine ⟨⟨?_, ?_, ?_, ?_⟩, ?_⟩
  · rw [types]
    exact admits.types
  · rw [directives]
    exact admits.directives
  · rw [one]
    exact Nat.le_refl 1
  · intro x member
    rw [definitionsOf_insert_schema, List.mem_append, List.mem_cons] at member
    have own := admits.own x
    rw [old, List.mem_append] at own
    rcases member with first | rfl | last
    · exact own (.inl first)
    · exact read
    · exact own (.inr last)
  · simp only [extendedBy, types, directives, one]
    rfl

/-- A block without usages can be added anywhere among declarations that have none. -/
theorem collect_insert_schema (undeclared : ∀ x ∈ before ++ after, x.block? = none)
    (silent : (collect (before ++ after)).problems = []) (origin : Origin)
    (plain : d.usages = []) :
    (collect (before ++ ⟨origin, .schema d⟩ :: after)).problems = [] ∧
      (collect (before ++ ⟨origin, .schema d⟩ :: after)).value =
        { (collect (before ++ after)).value with
          block := some ⟨origin.locate d.pos, [], Collect.bindings (origin.locate d.pos) d⟩ } := by
  have read : (Collect.block origin d).problems = [] ∧ (Collect.block origin d).value =
      ⟨origin.locate d.pos, [], Collect.bindings (origin.locate d.pos) d⟩ := by
    simp [Collect.block, Collect.usages, Reported.each, plain]
  have extensions : extensionsOf (before ++ ⟨origin, .schema d⟩ :: after) =
      extensionsOf (before ++ after) := by
    simp [extensionsOf, Declaration.isExtension]
  obtain ⟨admits, merged⟩ := (collect_problems_iff _).mp silent
  obtain ⟨admits', start⟩ := admits_insert_schema undeclared admits read.1
  obtain ⟨quiet, value⟩ := through_extend_withBlock _ (extendedBy_undeclared undeclared) merged
    (Collect.block origin d).value
  rw [collect_value _ admits, collect_value _ admits', collect_problems_iff, start, extensions,
    ← read.2]
  exact ⟨⟨admits', quiet⟩, value⟩

end Insertion

/-! The rules for types and directives do not look at the block. -/

section Unread

variable (g : Graph) (b : Option SchemaBlock)

theorem checkUsages_block : ({ g with block := b } : Graph).checkUsages = g.checkUsages := by
  funext location owner us
  have from_seen (seen : List DirectiveId) :
      ({ g with block := b } : Graph).checkUsagesFrom location owner seen us =
        g.checkUsagesFrom location owner seen us := by
    induction us generalizing seen with
    | nil => rfl
    | cons u rest ih =>
      simp only [checkUsagesFrom, ih]
      rfl
  exact from_seen []

theorem mayStandFor_block (found expected : TypeUse) :
    ({ g with block := b } : Graph).mayStandFor found expected = g.mayStandFor found expected := by
  have named : ({ g with block := b } : Graph).namedMayStandFor = g.namedMayStandFor := rfl
  fun_induction mayStandFor g found expected <;> simp_all [mayStandFor]

theorem checkInterfaces_block :
    ({ g with block := b } : Graph).checkInterfaces = g.checkInterfaces := by
  have declared : ({ g with block := b } : Graph).declaredField = g.declaredField := by
    funext t d shape interface e
    simp only [declaredField, fieldConformance, mayStandFor_block]
    rfl
  funext t d shape
  have from_demanded (fields : String → String × Field → List Diagnostic)
      (refs : List (String × TypeRef)) (demanded : List String) :
      ({ g with block := b } : Graph).interfaceProblems t d shape fields demanded refs =
        g.interfaceProblems t d shape fields demanded refs := by
    induction refs generalizing demanded with
    | nil => rfl
    | cons e rest ih =>
      simp only [interfaceProblems, ih]
      rfl
  simp only [checkInterfaces, from_demanded, declared]
  rfl

theorem checkArgument_block :
    ({ g with block := b } : Graph).checkArgument = g.checkArgument := by
  funext container e
  simp only [checkArgument, checkInputValue, checkUsages_block]
  rfl

theorem checkType_block : ({ g with block := b } : Graph).checkType = g.checkType := by
  have inputField : ({ g with block := b } : Graph).checkInputField = g.checkInputField := by
    funext type e
    simp only [checkInputField, checkInputValue, checkUsages_block]
    rfl
  have enumValue : ({ g with block := b } : Graph).checkEnumValue = g.checkEnumValue := by
    funext d type e
    simp only [checkEnumValue, checkUsages_block]
  have field : ({ g with block := b } : Graph).checkField = g.checkField := by
    funext type e
    simp only [checkField, checkUsages_block, checkArgument_block]
    rfl
  funext e
  simp only [checkType, checkBody, checkUsages_block, checkInterfaces_block, inputField, enumValue,
    field]
  rfl

theorem checkDirective_block :
    ({ g with block := b } : Graph).checkDirective = g.checkDirective := by
  funext e
  simp only [checkDirective, checkArgument_block]
  rfl

variable {g b}

theorem Lawful.of_block (lawful : ({ g with block := b } : Graph).Lawful)
    (block : g.checkBlock = []) : g.Lawful where
  types := by
    rw [← checkType_block g b]
    exact lawful.types
  directives := by
    rw [← checkDirective_block g b]
    exact lawful.directives
  block := block
  finite := lawful.finite
  acyclic := lawful.acyclic

end Unread

/-! A graph, and the same graph with a block for the default names. -/

/-- The operations whose default type exists. -/
def namedKinds (g : Graph) : List OperationKind :=
  OperationKind.all.filter fun kind => (g.typeId? kind.defaultTypeName).isSome

/-- Each of these operations bound to its default type. -/
def namedBindings (g : Graph) (location : SourceLocation) : List OperationBinding :=
  g.namedKinds.map fun kind => ⟨kind, { name := kind.defaultTypeName, location }⟩

def declaring (g : Graph) (location : SourceLocation) : Graph :=
  { g with block := some ⟨location, [], g.namedBindings location⟩ }

section Declaring

variable {g : Graph} (location : SourceLocation)

theorem declaring_linked_block :
    (g.declaring location).linked.block = some ⟨location, [], g.namedKinds.map fun kind =>
      ⟨kind, g.names.linkRef { name := kind.defaultTypeName, location }⟩⟩ := by
  rw [linked_block, declaring, Option.map_some, Names.linkBlock, namedBindings, List.map_map]
  rfl

theorem namedKinds_find? (kind : OperationKind) :
    g.namedKinds.find? (· == kind) =
      if (g.typeId? kind.defaultTypeName).isSome then some kind else none := by
  rw [namedKinds, List.find?_filter]
  cases kind <;> simp [OperationKind.all, List.find?_cons] <;> split <;> simp_all

/-- Different operations have different default types. -/
theorem nodup_namedKinds_types (distinct : g.types.keys.Nodup) :
    (g.namedKinds.map fun kind => g.typeId? kind.defaultTypeName).Nodup := by
  have kinds : g.namedKinds.Nodup := (by decide : OperationKind.all.Nodup).filter _
  refine kinds.map_on ?_
  intro kind member kind' _ same
  obtain ⟨t, named⟩ := Option.isSome_iff_exists.mp (List.mem_filter.mp member).2
  exact OperationKind.defaultTypeName_injective
    (typeId?_injective distinct named (same.symm.trans named))

theorem declaring_rootSound (fresh : g.Fresh) (sound : g.linked.NamesSound true) :
    (g.declaring location).linked.RootSound true := by
  simp only [RootSound, declaring_linked_block]
  refine ⟨?_, ?_, ?_, ?_⟩
  · rw [List.map_map]
    exact ((by decide : OperationKind.all.Nodup).filter _).map fun _ _ same => same
  · rw [List.map_map]
    exact nodup_namedKinds_types fresh.types.distinct
  · intro o member t d resolved
    obtain ⟨kind, _, rfl⟩ := List.mem_map.mp member
    obtain ⟨target, found⟩ := resolve_target resolved
    rw [linked_typeAt?, Option.map_eq_some_iff] at found
    obtain ⟨old, found, rfl⟩ := found
    have named : g.linked.typeId? kind.defaultTypeName = some t := by
      rw [linked_typeId?]
      exact target
    have before : g.linked.typeAt? t = _ := linked_typeAt? g t
    have same : g.typeAt? t = some old := found
    rw [same, Option.map_some] at before
    have object := sound.objects kind t _ named before
    rw [TypeDef.isObject, TypeDef.kind] at object ⊢
    exact object
  · rw [List.map_map]
    refine List.mem_map.mpr ⟨.query, List.mem_filter.mpr ⟨by decide, ?_⟩, rfl⟩
    rcases sound.query with named | ⟨optional, _⟩
    · rwa [linked_typeId?] at named
    · cases optional

variable (undeclared : g.block = none)
include undeclared

theorem declaring_fixedSites : (g.declaring location).fixedSites = g.fixedSites := by
  simp [fixedSites, declaring, undeclared, usageSites]

theorem declaring_usageReferences :
    (g.declaring location).usageReferences = g.usageReferences := by
  rw [usageReferences_fixed, usageReferences_fixed, declaring_fixedSites location undeclared]
  rfl

/-- The block adds the references that a detected root would remember. -/
theorem declaring_typeReferences (t : TypeId) :
    referencesOf t (g.declaring location).typeReferences =
      referencesOf t g.typeReferences ++ g.linked.rootReferences t := by
  have undeclared' : g.linked.block = none := by rw [linked_block, undeclared, Option.map_none]
  have bindings : ((g.declaring location).bound.filter fun o => g.typeId? o.type.name = some t) =
      (OperationKind.all.filter fun kind => g.typeId? kind.defaultTypeName = some t).map
        fun kind => ⟨kind, { name := kind.defaultTypeName, location }⟩ := by
    have own : (g.declaring location).bound = g.namedBindings location := rfl
    rw [own, namedBindings, List.filter_map, namedKinds, List.filter_filter]
    congr 1
    refine List.filter_congr fun kind _ => ?_
    cases named : g.typeId? kind.defaultTypeName <;> simp [named]
  have roots : g.linked.rootReferences t =
      (OperationKind.all.filter fun kind => g.typeId? kind.defaultTypeName = some t).map
        fun kind => ⟨.operation kind, .schema⟩ := by
    simp only [rootReferences, rootType?, undeclared', linked_typeId?]
  have nothing : g.bound = [] := by rw [bound, undeclared]; rfl
  have names : (g.declaring location).names = g.names := rfl
  have ids : (g.declaring location).typeId? = g.typeId? := rfl
  rw [referencesOf_typeReferences, referencesOf_typeReferences,
    declaring_fixedSites location undeclared, names, ids, bindings, roots, nothing, List.map_map]
  simp [Function.comp_def]

theorem declaring_usages (e : ElementId) : (g.declaring location).usages e = g.usages e := by
  cases e with
  | schema => simp [usages, elementUsages, declaring, undeclared]
  | _ => rfl

theorem declaring_namesKnown (known : g.NamesKnown) : (g.declaring location).NamesKnown := by
  rintro (⟨kind, site⟩ | u) name named
  · cases kind with
    | typeUse => exact known (.type ⟨.typeUse, site⟩) name named
    | implements =>
      cases site with
      | type t => exact known (.type ⟨.implements, .type t⟩) name named
      | _ => cases named
    | unionMember =>
      cases site with
      | type t => exact known (.type ⟨.unionMember, .type t⟩) name named
      | _ => cases named
    | operation kind =>
      cases site with
      | schema =>
        obtain ⟨b, declared, o, member, _, rfl⟩ := named
        cases declared
        obtain ⟨kind', listed, rfl⟩ := List.mem_map.mp member
        exact (List.mem_filter.mp listed).2
      | _ => cases named
  · refine known (.usage u) name ?_
    simp only [NamedAt, declaring_usages location undeclared] at named
    exact named

theorem declaring_directives :
    (g.declaring location).linked.directives = g.linked.directives := by
  simp only [linked, declaring_usageReferences location undeclared]
  rfl

/-- The linked graphs differ in their marks and in the block. -/
theorem declaring_matches (fresh : g.Fresh) :
    g.linked.Matches still { (g.declaring location).linked with block := none } := by
  refine matches_of_unmarked fresh.linked_types_distinct fresh.linked_directives_distinct
    (Table.ext_at? fun i => ?_) (declaring_directives location undeclared) ?_
  · rw [Table.at?_map, Table.at?_map, linked_types_at?, linked_types_at?, Option.map_map,
      Option.map_map]
    rfl
  · rw [linked_block, undeclared]
    rfl

theorem declaring_lawful (fresh : g.Fresh) (lawful : g.linked.Lawful) :
    (g.declaring location).linked.Lawful := by
  exact ((declaring_matches location undeclared fresh).lawful.mpr lawful).of_block rfl

/-- The block serves each operation as the names do. -/
theorem declaring_rootType? (kind : OperationKind) :
    (g.declaring location).linked.rootType? kind = g.linked.rootType? kind := by
  have named : g.linked.rootType? kind = g.typeId? kind.defaultTypeName := by
    simp only [rootType?, linked_block, undeclared, Option.map_none, linked_typeId?]
  rw [named]
  simp only [rootType?, declaring_linked_block, SchemaBlock.operation?, List.find?_map,
    Function.comp_def, namedKinds_find?]
  cases found : g.typeId? kind.defaultTypeName with
  | none => simp
  | some t => simpa [Names.linkRef, names] using found

theorem declaring_impliedRoot? :
    (g.declaring location).linked.impliedRoot? = g.linked.impliedRoot?.map fun root =>
      { root with block := (g.declaring location).linked.block } := by
  simp only [impliedRoot?, declaring_rootType? location undeclared, Option.map_map]
  rfl

theorem declaring_rootedIds : (g.declaring location).linked.rootedIds = g.linked.rootedIds := by
  rw [rootedIds, rootedIds, declaring_impliedRoot? location undeclared]
  cases g.linked.impliedRoot? with
  | none => rfl
  | some root =>
    have same := rootedTypes_congr (g := g.linked) (h := (g.declaring location).linked)
      (by simp [linked, declaring]) (fun t => by
        rw [linked_typeAt?, linked_typeAt?, Option.map_map, Option.map_map]
        rfl) root
    exact same

theorem declaring_resolved_types :
    (g.declaring location).resolved.types = g.resolved.types := by
  apply Table.ext_at?
  intro i
  rw [resolved_types_at?, resolved_types_at?]
  have same (d : TypeDef) : (g.declaring location).resolvedType ⟨i⟩ d = g.resolvedType ⟨i⟩ d := by
    have nothing : (g.declaring location).linked.rootReferences ⟨i⟩ = [] := by
      rw [rootReferences, declaring_linked_block]
    rw [resolvedType, resolvedType, declaring_typeReferences location undeclared, nothing,
      declaring_rootedIds location undeclared, List.append_nil, List.append_assoc]
    rfl
  simp only [same]
  rfl

end Declaring

theorem resolved_type?_isSome (g : Graph) (name : String) :
    (g.resolved.type? name).isSome = (g.typeId? name).isSome := by
  rw [Schema.type?, ← Table.contains_eq_isSome, Table.contains, resolved_types_keys, typeId?,
    Option.isSome_map, Table.indexOf?, Bool.eq_iff_iff, List.contains_iff_mem]
  simp

end Graph

/-- A block without directives for the operations whose default types a schema has. -/
def Schema.defaultBlock (s : Schema) (pos : Pos) : SchemaDecl where
  pos := pos
  query := some "Query"
  mutation := if (s.type? "Mutation").isSome then some "Mutation" else none
  subscription := if (s.type? "Subscription").isSome then some "Subscription" else none

theorem Graph.bindings_defaultBlock {g : Graph} (query : (g.typeId? "Query").isSome)
    (location : SourceLocation) (pos : Pos) :
    Collect.bindings location (g.resolved.defaultBlock pos) = g.namedBindings location := by
  simp only [Collect.bindings, SchemaDecl.bindings, Schema.defaultBlock,
    Graph.resolved_type?_isSome, namedBindings, namedKinds, OperationKind.all, List.filter_cons,
    OperationKind.defaultTypeName, query, List.filter_nil]
  cases (g.typeId? "Mutation").isSome <;> cases (g.typeId? "Subscription").isSome <;> rfl

theorem firstExecutable?_insert {before after : List Sourced}
    (none : firstExecutable? (before ++ after) = none) (origin : Origin) (d : SchemaDecl) :
    firstExecutable? (before ++ ⟨origin, .schema d⟩ :: after) = .none := by
  rw [firstExecutable?, List.findSome?_eq_none_iff] at none ⊢
  intro x member
  rw [List.mem_append, List.mem_cons] at member
  rcases member with first | rfl | last
  · exact none x (List.mem_append_left _ first)
  · rfl
  · exact none x (List.mem_append_right _ last)

/-- Nothing built in is a schema block. -/
theorem block?_of_builtIn {ds : List Sourced} (undeclared : ∀ x ∈ ds, x.block? = none) :
    ∀ x ∈ BuiltIn.declarations ++ ds, x.block? = none := by
  have every : ∀ x ∈ BuiltIn.declarations, x.block?.isNone = true := by decide
  intro x member
  rcases List.mem_append.mp member with builtIn | given
  · exact Option.isNone_iff_eq_none.mp (every x builtIn)
  · exact undeclared x given

theorem Sound.namesSound {ds : List Sourced} (sound : Sound true ds)
    (undeclared : (Graph.described ds).block = none) :
    (Graph.described ds).linked.NamesSound true := by
  have rooted := sound.rooted
  simp only [Graph.RootSound, Graph.linked_block, undeclared] at rooted
  exact rooted

theorem Graph.NamesSound.query_isSome {g : Graph} (sound : g.linked.NamesSound true) :
    (g.typeId? "Query").isSome := by
  rcases sound.query with named | ⟨optional, _⟩
  · rwa [linked_typeId?] at named
  · cases optional

theorem Graph.NamesSound.impliedRoot? {g : Graph} (sound : g.linked.NamesSound true)
    (undeclared : g.block = none) :
    ∃ root, g.linked.impliedRoot? = some root ∧ root.block = none := by
  obtain ⟨query, named⟩ := Option.isSome_iff_exists.mp sound.query_isSome
  have served : g.linked.rootType? .query = some query := by
    simp only [rootType?, linked_block, undeclared, Option.map_none, linked_typeId?,
      OperationKind.defaultTypeName, named]
  refine ⟨_, by rw [Graph.impliedRoot?, served, Option.map_some], ?_⟩
  rw [linked_block, undeclared, Option.map_none]

/-- A buffer without a schema block, accepted as it is, is accepted with a block for the default
names, and that block is all that it adds to the graph. -/
theorem Sound.insert_schema {before after : List Sourced}
    (undeclared : ∀ x ∈ before ++ after, x.block? = none) (sound : Sound true (before ++ after))
    (origin : Origin) (pos : Pos) {d : SchemaDecl}
    (block : d = (Graph.described (before ++ after)).resolved.defaultBlock pos) :
    Graph.described (before ++ ⟨origin, .schema d⟩ :: after) =
        (Graph.described (before ++ after)).declaring (origin.locate pos) ∧
      Sound true (before ++ ⟨origin, .schema d⟩ :: after) := by
  have fresh := Graph.described_fresh (before ++ after)
  have lawful := (Graph.violations_eq_nil_iff _).mp sound.lawful
  have standard := block?_of_builtIn undeclared
  have none : (Graph.described (before ++ after)).block = none :=
    Graph.collect_undeclared standard sound.collected
  have names := sound.namesSound none
  have plain : d.usages = [] := by
    rw [block]
    rfl
  have silent := sound.collected
  rw [← List.append_assoc] at standard silent
  obtain ⟨collected, value⟩ := Graph.collect_insert_schema standard silent origin plain
  rw [List.append_assoc] at collected value
  have graph : Graph.described (before ++ ⟨origin, .schema d⟩ :: after) =
      (Graph.described (before ++ after)).declaring (origin.locate pos) := by
    have place : d.pos = pos := by
      rw [block]
      rfl
    have bindings := Graph.bindings_defaultBlock names.query_isSome (origin.locate pos) pos
    rw [← block] at bindings
    rw [Graph.described, value, place, bindings, List.append_assoc]
    rfl
  refine ⟨graph, firstExecutable?_insert sound.noExecutable origin d, collected, ?_, ?_, ?_⟩
  · rw [graph]
    exact Graph.declaring_namesKnown _ none sound.known
  · rw [graph, Graph.violations_eq_nil_iff]
    exact Graph.declaring_lawful _ none fresh lawful
  · rw [graph]
    exact Graph.declaring_rootSound _ fresh names

/-- Where a root is detected, a schema block for the default names can be put anywhere, and the
schema stays as it is: its directives, its types with their references and marks, and the types of
its root. Only the block itself is new. -/
theorem explicit_root_agrees (before after : List Sourced)
    (undeclared : ∀ x ∈ before ++ after, ∀ d, x.declaration ≠ .schema d) (s : Schema)
    (accepted : (analyze true (before ++ after)).result = .ok s) (origin : Origin) (pos : Pos) :
    ∃ s' root block,
      (analyze true (before ++ ⟨origin, .schema (s.defaultBlock pos)⟩ :: after)).result = .ok s' ∧
      s'.types = s.types ∧ s'.directives = s.directives ∧ s.root = some root ∧
      root.block = none ∧ s'.root = some { root with block := some block } := by
  obtain ⟨sound, rfl⟩ := (analyze_eq_ok_iff_sound true (before ++ after) s).mp accepted
  have blocks : ∀ x ∈ before ++ after, x.block? = none := by
    intro x member
    have other := undeclared x member
    unfold Sourced.block?
    cases declared : x.declaration with
    | schema d => exact absurd declared (other d)
    | _ => rfl
  have none : (Graph.described (before ++ after)).block = none :=
    Graph.collect_undeclared (block?_of_builtIn blocks) sound.collected
  obtain ⟨graph, sound'⟩ := sound.insert_schema blocks origin pos rfl
  obtain ⟨root, implied, bare⟩ := (sound.namesSound none).impliedRoot? none
  have declared := Graph.declaring_impliedRoot? (origin.locate pos) none
  rw [implied, Option.map_some, Graph.declaring_linked_block, ← graph] at declared
  refine ⟨_, root, _, (analyze_eq_ok_iff_sound true _ _).mpr ⟨sound', rfl⟩, ?_, ?_, implied, bare,
    declared⟩
  · rw [graph]
    exact Graph.declaring_resolved_types _ none
  · rw [graph]
    exact Graph.declaring_directives _ none

/-- A library with a detected root, its query type extended before it is defined. -/
def lending : List Sourced := given [
  (some "lending", .typeExtension {
    name := "Query"
    body := .object [] [{ name := "loans", type := .list (.named "Loan") }] }),
  (some "lending", .type {
    name := "Loan"
    body := .object [] [{ name := "title", type := .nonNull (.named "String") }] }),
  (some "root", .type {
    name := "Query", body := .object [] [{ name := "open", type := .named "Boolean" }] }),
  (some "root", .type {
    name := "Mutation"
    body := .object [] [
      { name := "lend", type := .named "Loan",
        arguments := [{ name := "title", type := .nonNull (.named "String") }] }] })]

/-- The block put between the two files. -/
theorem explicit_root_agrees_lending :
    ∃ s s' root block, (analyze true lending).result = .ok s ∧
      (s.defaultBlock ⟨1, 1⟩).bindings = [(.query, "Query"), (.mutation, "Mutation")] ∧
      (analyze true (lending.take 2 ++
        ⟨.given none, .schema (s.defaultBlock ⟨1, 1⟩)⟩ :: lending.drop 2)).result = .ok s' ∧
      s'.types = s.types ∧ s'.directives = s.directives ∧ s.root = some root ∧
      root.block = none ∧ s'.root = some { root with block := some block } := by
  obtain ⟨s, accepted, bindings⟩ : ∃ s, (analyze true lending).result = .ok s ∧
      ((s.defaultBlock ⟨1, 1⟩).bindings == [(.query, "Query"), (.mutation, "Mutation")]) = true :=
    exists_of_any (by decide +kernel)
  have parts : lending.take 2 ++ lending.drop 2 = lending := List.take_append_drop 2 lending
  have undeclared : ∀ x ∈ lending.take 2 ++ lending.drop 2, ∀ d, x.declaration ≠ .schema d := by
    rw [parts]
    simp [lending, given]
  obtain ⟨s', root, block, agrees⟩ := explicit_root_agrees (lending.take 2) (lending.drop 2)
    undeclared s (by rw [parts]; exact accepted) (.given none) ⟨1, 1⟩
  exact ⟨s, s', root, block, accepted, by simpa using bindings, agrees⟩

end SchemaAtlas
