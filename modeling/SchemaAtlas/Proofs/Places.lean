import SchemaAtlas.Proofs.SchemaInvariance

/-!
# Places

Where things stand in a source text decides nothing. A graph and the same graph with all its places
erased give the same schema, places apart: not only the same types and directives at the same
positions, but also the same references in the same order.
-/

namespace SchemaAtlas

open Relabeling (erasing)

theorem Table.All.map {α : Type} {name : α → String} {P : α → Prop} {t : Table α}
    (all : t.All name P) {f : α → α} (named : ∀ a, name (f a) = name a)
    (good : ∀ a, P a → P (f a)) : (t.map f).All name P where
  toKeyed := all.toKeyed.map named
  each := by
    intro e member
    obtain ⟨old, present, rfl⟩ := List.mem_map.mp member
    exact good old.2 (all.each old present)

/-! What has not been looked up stays so. -/

namespace Relabeling

variable (r : Relabeling)

theorem usages_fresh {us : List Usage} (fresh : ∀ u ∈ us, u.Fresh) :
    ∀ u ∈ r.usages us, u.Fresh := by
  intro u member
  obtain ⟨old, present, rfl⟩ := List.mem_map.mp member
  have unlinked := fresh old present
  refine ⟨?_, ?_, unlinked.distinct, unlinked.canonical⟩
  · simp [usage, unlinked.definition]
  · simp [usage, unlinked.parent]

theorem ref_fresh {x : TypeRef} (fresh : x.Fresh) : (r.ref x).Fresh := by
  have target : x.target = none := fresh
  simp [TypeRef.Fresh, target]

theorem inputValue_fresh {v : InputValue} (fresh : v.Fresh) : (r.inputValue v).Fresh where
  type := by
    rw [inputValue_type, typeUse_innermost]
    exact r.ref_fresh fresh.type
  default := fresh.default
  usages := r.usages_fresh fresh.usages
  parent := by simp [inputValue, fresh.parent]

theorem field_fresh {f : Field} (fresh : f.Fresh) : (r.field f).Fresh where
  arguments := fresh.arguments.map (fun _ => rfl) fun _ => r.inputValue_fresh
  type := by
    rw [field_type, typeUse_innermost]
    exact r.ref_fresh fresh.type
  usages := r.usages_fresh fresh.usages
  parent := by simp [field, fresh.parent]

theorem enumValue_fresh {v : EnumValue} (fresh : v.Fresh) : (r.enumValue v).Fresh where
  usages := r.usages_fresh fresh.usages
  parent := by simp [enumValue, fresh.parent]

theorem shape_fresh {s : Shape} (fresh : s.Fresh) : (r.shape s).Fresh where
  fields := fresh.fields.map (fun _ => rfl) fun _ => r.field_fresh
  implements := fresh.implements.map (fun _ => rfl) fun _ => r.ref_fresh

theorem body_fresh {b : TypeBody} (fresh : b.Fresh) : (r.body b).Fresh := by
  cases b with
  | enum values =>
    have all : values.All EnumValue.name EnumValue.Fresh := fresh
    exact all.map (fun _ => rfl) fun _ => r.enumValue_fresh
  | inputObject fields =>
    have all : fields.All InputValue.name InputValue.Fresh := fresh
    exact all.map (fun _ => rfl) fun _ => r.inputValue_fresh
  | interface s => exact r.shape_fresh fresh
  | object s => exact r.shape_fresh fresh
  | scalar => trivial
  | union members =>
    have all : members.All TypeRef.name TypeRef.Fresh := fresh
    exact all.map (fun _ => rfl) fun _ => r.ref_fresh

theorem typeDef_fresh {d : TypeDef} (fresh : d.Fresh) : (r.typeDef d).Fresh where
  usages := r.usages_fresh fresh.usages
  body := r.body_fresh fresh.body
  references := by simp [typeDef, fresh.references]
  rooted := fresh.rooted

theorem directiveDef_fresh {d : DirectiveDef} (fresh : d.Fresh) : (r.directiveDef d).Fresh where
  arguments := fresh.arguments.map (fun _ => rfl) fun _ => r.inputValue_fresh
  references := by simp [directiveDef, fresh.references]

theorem block_fresh {b : SchemaBlock} (fresh : b.Fresh) : (r.block b).Fresh where
  usages := r.usages_fresh fresh.usages
  operations := by
    intro o member
    obtain ⟨old, present, rfl⟩ := List.mem_map.mp member
    exact r.ref_fresh (fresh.operations old present)

/-! Names stand at the same sites, wherever these lie. -/

@[simp] theorem usageSites_usages (owner : ElementId) (us : List Usage) :
    usageSites owner (r.usages us) = usageSites owner us := by
  rw [usageSites, usages, mapIdx_map]
  rfl

@[simp] theorem typedSites_relabelled (self : ElementId) (us : List Usage) (a : TypeUse) :
    typedSites self (r.usages us) (r.typeUse a) = typedSites self us a := by
  simp [typedSites, typeUseSite]

@[simp] theorem inputSites_map (self : Nat → ElementId) (t : Table InputValue) :
    inputSites self (t.map r.inputValue) = inputSites self t := by
  simp [inputSites, mapIdx_map, InputValue.sites]

@[simp] theorem field_sites (t : TypeId) (i : Nat) (f : Field) :
    (r.field f).sites t i = f.sites t i := by
  simp [Field.sites]

@[simp] theorem refSites_map (kind : ReferenceKind) (t : TypeId) (refs : Table TypeRef) :
    refSites kind t (refs.map r.ref) = refSites kind t refs := by
  simp [refSites, Function.comp_def]

theorem body_sites (t : TypeId) (b : TypeBody) : (r.body b).sites t = b.sites t := by
  cases b with
  | enum values => simp [body, TypeBody.sites, mapIdx_map]
  | inputObject fields => simp [body, TypeBody.sites]
  | interface s => simp [body, TypeBody.sites, Shape.sites, mapIdx_map]
  | object s => simp [body, TypeBody.sites, Shape.sites, mapIdx_map]
  | scalar => rfl
  | union members => simp [body, TypeBody.sites]

@[simp] theorem erasing_type (t : TypeId) : erasing.type t = t := rfl

@[simp] theorem erasing_directive (d : DirectiveId) : erasing.directive d = d := rfl

@[simp] theorem erasing_element (e : ElementId) : erasing.element e = e := by
  cases e <;> rfl

@[simp] theorem map_erasing_reference (xs : List Reference) : xs.map erasing.reference = xs := by
  refine (List.map_congr_left fun x _ => ?_).trans (List.map_id xs)
  simp [reference]

@[simp] theorem map_erasing_usageId (xs : List UsageId) : xs.map erasing.usageId = xs := by
  refine (List.map_congr_left fun x _ => ?_).trans (List.map_id xs)
  simp [usageId]

end Relabeling

namespace Graph

/-- The same graph without places. -/
def erased (g : Graph) : Graph where
  types := g.types.map erasing.typeDef
  directives := g.directives.map erasing.directiveDef
  block := g.block.map erasing.block

theorem erased_fresh {g : Graph} (fresh : g.Fresh) : g.erased.Fresh where
  types := fresh.types.map (fun _ => rfl) fun _ => erasing.typeDef_fresh
  directives := fresh.directives.map (fun _ => rfl) fun _ => erasing.directiveDef_fresh
  block := by
    intro b declared
    obtain ⟨old, found, rfl⟩ := Option.map_eq_some_iff.mp declared
    exact erasing.block_fresh (fresh.block old found)
  root := rfl

/-- Graphs that erasing makes equal match, also if they bind operations in another order. -/
theorem matches_of_erased {g e : Graph} (fresh : g.Fresh)
    (types : e.types = g.types.map erasing.typeDef)
    (directives : e.directives = g.directives.map erasing.directiveDef)
    (block : Option.Rel (SchemaBlock.Alike erasing) g.block e.block) : g.Matches erasing e where
  types := by
    rw [types]
    exact .of_map fresh.types.distinct fun _ => ⟨rfl, rfl, rfl, rfl, rfl, rfl⟩
  directives := by
    rw [directives]
    exact .of_map fresh.directives.distinct fun _ => ⟨rfl, rfl, rfl, rfl, rfl, rfl, rfl⟩
  block := block

theorem matches_erased {g : Graph} (fresh : g.Fresh) : g.Matches erasing g.erased := by
  refine matches_of_erased fresh rfl rfl ?_
  rw [erased]
  cases g.block with
  | none => exact .none
  | some b => exact .some ⟨rfl, rfl, .refl _⟩

end Graph

section Keys

variable {α β : Type} [DecidableEq β]

/-- An element can be found by its key in any order. -/
theorem filter_eq_of_perm {key : α → β} {as bs : List α} (perm : bs.Perm as)
    (distinct : (as.map key).Nodup) (b : β) :
    bs.filter (fun a => key a = b) = as.filter fun a => key a = b := by
  refine eq_of_perm_of_length_le_one (perm.filter _) ?_
  have once := List.nodup_iff_count_le_one.mp ((perm.map key).nodup_iff.mpr distinct) b
  rw [List.count_eq_countP, List.countP_map, List.countP_eq_length_filter] at once
  exact once

end Keys

namespace Graph

/-- The sites of a graph, apart from the operations that its block binds. -/
def fixedSites (g : Graph) : List (Site × String) :=
  (g.types.values.mapIdx fun i d => d.sites ⟨i⟩).flatten ++
  (g.directives.values.mapIdx fun i d => inputSites (.directiveArgument ⟨i⟩) d.arguments).flatten ++
  (g.block.map fun b => usageSites .schema b.usages).getD []

/-- The operations that the block of a graph binds. -/
def bound (g : Graph) : List OperationBinding := (g.block.map SchemaBlock.operations).getD []

theorem sites_eq (g : Graph) :
    g.sites = g.fixedSites ++
      g.bound.map fun o => (.type ⟨.operation o.kind, .schema⟩, o.type.name) := by
  rw [sites, fixedSites, bound]
  cases g.block with
  | none => simp
  | some b => simp [SchemaBlock.sites]

/-- The bindings that lead to a type are those that name it. -/
theorem referencesOf_typeReferences (g : Graph) (t : TypeId) :
    referencesOf t g.typeReferences =
      referencesOf t (g.fixedSites.filterMap g.names.typeReferenceAt?) ++
        (g.bound.filter fun o => g.typeId? o.type.name = some t).map
          fun o => ⟨.operation o.kind, .schema⟩ := by
  rw [typeReferences_eq, sites_eq, List.filterMap_append, referencesOf, List.filterMap_append,
    ← referencesOf]
  congr 1
  rw [List.filterMap_map, List.filterMap_filterMap]
  have found (o : OperationBinding) :
      (((g.names.typeReferenceAt? ∘ fun o : OperationBinding =>
        (Site.type ⟨.operation o.kind, .schema⟩, o.type.name)) o).bind fun x =>
          if x.1 = t then some x.2 else none) =
        if g.typeId? o.type.name = some t then some ⟨.operation o.kind, .schema⟩ else none := by
    have name : g.names.type? o.type.name = g.typeId? o.type.name := rfl
    simp only [Function.comp_apply, Names.typeReferenceAt?, name]
    cases g.typeId? o.type.name <;> simp
  rw [List.filterMap_congr fun o _ => found o]
  induction g.bound with
  | nil => rfl
  | cons o rest ih =>
    by_cases named : g.typeId? o.type.name = some t <;> simp [named, ih]

theorem usageReferences_fixed (g : Graph) :
    g.usageReferences = g.fixedSites.filterMap g.names.usageReferenceAt? := by
  rw [usageReferences_eq, sites_eq, List.filterMap_append, List.filterMap_map]
  have none : g.bound.filterMap (g.names.usageReferenceAt? ∘ fun o : OperationBinding =>
      (.type ⟨.operation o.kind, .schema⟩, o.type.name)) = [] :=
    List.filterMap_eq_nil_iff.mpr fun _ _ => rfl
  rw [none, List.append_nil]

namespace Matches

variable {g e : Graph}

theorem names_eq (m : g.Matches erasing e) : e.names = g.names := by
  have types : e.typeId? = g.typeId? := by
    funext name
    rw [m.typeId?]
    cases g.typeId? name <;> rfl
  have directives : e.directiveId? = g.directiveId? := by
    funext name
    rw [m.directiveId?]
    cases g.directiveId? name <;> rfl
  rw [names, names, types, directives]

theorem fixedSites_eq (m : g.Matches erasing e) : e.fixedSites = g.fixedSites := by
  have types : (e.types.values.mapIdx fun i d => d.sites ⟨i⟩) =
      g.types.values.mapIdx fun i d => d.sites ⟨i⟩ :=
    m.types.mapIdx_values fun i d d' alike => by
      simp [TypeDef.sites, alike.usages, alike.body, erasing.body_sites]
  have directives :
      (e.directives.values.mapIdx fun i d => inputSites (.directiveArgument ⟨i⟩) d.arguments) =
        g.directives.values.mapIdx fun i d => inputSites (.directiveArgument ⟨i⟩) d.arguments :=
    m.directives.mapIdx_values fun i d d' alike => by simp [alike.arguments]
  have block : (e.block.map fun b => usageSites .schema b.usages) =
      g.block.map fun b => usageSites .schema b.usages := by
    have related := m.block
    generalize g.block = source at related
    generalize e.block = image at related
    cases related with
    | none => rfl
    | some alike => simp [alike.usages]
  rw [fixedSites, fixedSites, types, directives, block]

/-- A type serves one operation at most, so the order of the bindings does not show. -/
theorem referencesOf_type_eq (m : g.Matches erasing e) {required : Bool}
    (sound : g.linked.RootSound required) (t : TypeId) :
    referencesOf t e.typeReferences = referencesOf t g.typeReferences := by
  have types : e.typeId? = g.typeId? := congrArg Names.type? m.names_eq
  rw [referencesOf_typeReferences, referencesOf_typeReferences, m.fixedSites_eq, m.names_eq, types]
  congr 1
  have related := m.block
  cases declared : g.block with
  | none =>
    rw [declared] at related
    cases declared' : e.block with
    | none => simp [bound, declared, declared']
    | some b =>
      rw [declared'] at related
      cases related
  | some b =>
    have targets : (b.operations.map fun o => g.typeId? o.type.name).Nodup := by
      simp only [RootSound, linked_block, declared, Option.map_some] at sound
      have types := sound.types
      rw [Names.linkBlock, List.map_map] at types
      exact types
    cases declared' : e.block with
    | none =>
      rw [declared, declared'] at related
      cases related
    | some b' =>
      rw [declared, declared'] at related
      cases related with
      | some alike =>
        have distinct : ((b.operations.map erasing.binding).map
            fun o => g.typeId? o.type.name).Nodup := by
          rw [List.map_map]
          exact targets
        have same := filter_eq_of_perm alike.operations distinct (some t)
        simp only [bound, declared, declared', Option.map_some, Option.getD_some, same,
          List.filter_map, List.map_map]
        rfl

theorem usageReferences_eq (m : g.Matches erasing e) : e.usageReferences = g.usageReferences := by
  rw [usageReferences_fixed, usageReferences_fixed, m.fixedSites_eq, m.names_eq]

end Matches

end Graph

/-! Schemas without places. -/

theorem TypeDef.Corresponds.eq {r : Relabeling} {d d' : TypeDef} (corresponds : d.Corresponds r d')
    (references : d'.references = d.references.map r.reference) : d' = r.typeDef d := by
  obtain ⟨alike, _, rooted⟩ := corresponds
  obtain ⟨name, description, location, builtIn, usages, body⟩ := alike
  obtain ⟨_, _, _, _, _, _, _, _⟩ := d'
  simp only at name description location builtIn usages body references rooted
  simp only [Relabeling.typeDef, name, description, location, builtIn, usages, body, references,
    rooted]

theorem DirectiveDef.Corresponds.eq {r : Relabeling} {d d' : DirectiveDef}
    (corresponds : d.Corresponds r d') (references : d'.references = d.references.map r.usageId) :
    d' = r.directiveDef d := by
  obtain ⟨alike, _⟩ := corresponds
  obtain ⟨name, description, location, builtIn, arguments, locations, repeatable⟩ := alike
  obtain ⟨_, _, _, _, _, _, _, _⟩ := d'
  simp only at name description location builtIn arguments locations repeatable references
  simp only [Relabeling.directiveDef, name, description, location, builtIn, arguments, locations,
    repeatable, references]

/-- A block with its bindings in the order of queries, mutations and subscriptions. -/
def SchemaBlock.ordered (b : SchemaBlock) : SchemaBlock :=
  { b with operations := OperationKind.all.flatMap fun kind =>
      b.operations.filter fun o => o.kind = kind }

def Root.ordered (x : Root) : Root := { x with block := x.block.map SchemaBlock.ordered }

/-- A schema up to its places and the order of the bindings in its block. -/
def Schema.erased (s : Schema) : Schema where
  types := s.types.map erasing.typeDef
  directives := s.directives.map erasing.directiveDef
  root := s.root.map fun x => (erasing.root x).ordered

namespace Graph

theorem resolved_type_references {g : Graph} (fresh : g.Fresh) {i : Nat} {name : String}
    {d : TypeDef} (found : g.resolved.types.at? i = some (name, d)) :
    d.references = referencesOf ⟨i⟩ g.typeReferences ++ g.linked.rootReferences ⟨i⟩ := by
  rw [resolved_types_at?, Option.map_eq_some_iff] at found
  obtain ⟨e, collected, same⟩ := found
  cases same
  have started := (fresh.types.each e ((Table.mem_entries_iff _ _).mpr ⟨i, collected⟩)).references
  simp [resolvedType, started]

theorem resolved_directive_references {g : Graph} (fresh : g.Fresh) {i : Nat} {name : String}
    {d : DirectiveDef} (found : g.resolved.directives.at? i = some (name, d)) :
    d.references = referencesOf ⟨i⟩ g.usageReferences := by
  rw [resolved_directives_at?, Option.map_eq_some_iff] at found
  obtain ⟨e, collected, same⟩ := found
  cases same
  have started :=
    (fresh.directives.each e ((Table.mem_entries_iff _ _).mpr ⟨i, collected⟩)).references
  simp [resolvedDirective, Names.linkDirective, started]

namespace Matches

variable {g e : Graph} {required : Bool}

theorem resolved_types_eq (m : g.Matches erasing e) (fresh : g.Fresh) (fresh' : e.Fresh)
    (sound : g.linked.RootSound required) :
    e.resolved.types = g.resolved.types.map erasing.typeDef := by
  refine (m.resolved_types fresh fresh' sound).eq_map ?_
  intro i name d d' found found' corresponds
  apply corresponds.eq
  have added : e.linked.rootReferences ⟨i⟩ =
      (g.linked.rootReferences ⟨i⟩).map erasing.reference :=
    m.linked.rootReferences (kinds sound) ⟨i⟩
  rw [resolved_type_references fresh found, resolved_type_references fresh' found', added,
    m.referencesOf_type_eq sound]
  simp

theorem resolved_directives_eq (m : g.Matches erasing e) (fresh : g.Fresh) (fresh' : e.Fresh)
    (sound : g.linked.RootSound required) :
    e.resolved.directives = g.resolved.directives.map erasing.directiveDef := by
  refine (m.resolved_directives fresh fresh' sound).eq_map ?_
  intro i name d d' found found' corresponds
  apply corresponds.eq
  rw [resolved_directive_references fresh found, resolved_directive_references fresh' found',
    m.usageReferences_eq, Relabeling.map_erasing_usageId]

theorem ordered_eq {b b' : SchemaBlock} (alike : b.Alike erasing b')
    (kinds : (b.operations.map OperationBinding.kind).Nodup) :
    b'.ordered = (erasing.block b).ordered := by
  have distinct : ((b.operations.map erasing.binding).map OperationBinding.kind).Nodup := by
    rw [List.map_map]
    exact kinds
  have operations (kind : OperationKind) :
      b'.operations.filter (fun o => o.kind = kind) =
        (b.operations.map erasing.binding).filter fun o => o.kind = kind :=
    filter_eq_of_perm alike.operations distinct kind
  simp only [SchemaBlock.ordered, operations, alike.location, alike.usages, Relabeling.block]

theorem resolved_root_ordered (m : g.Matches erasing e) (sound : g.linked.RootSound required) :
    e.resolved.root.map Root.ordered = g.resolved.root.map fun x => (erasing.root x).ordered := by
  have types (kind : OperationKind) : e.linked.rootType? kind = g.linked.rootType? kind := by
    rw [m.linked.rootType? (kinds sound)]
    cases g.linked.rootType? kind <;> rfl
  have block : e.linked.block.map SchemaBlock.ordered =
      g.linked.block.map fun b => (erasing.block b).ordered := by
    have related := m.linked.block
    have distinct := kinds sound
    generalize g.linked.block = source at related distinct
    generalize e.linked.block = image at related
    cases related with
    | none => rfl
    | some alike => exact congrArg some (ordered_eq alike (distinct _ rfl))
  rw [Graph.resolved_root, Graph.resolved_root, Graph.impliedRoot?, Graph.impliedRoot?]
  simp only [types, Option.map_map]
  refine congrArg (fun f => (g.linked.rootType? .query).map f) ?_
  funext query
  have mutations : (g.linked.rootType? .mutation).map erasing.type =
      g.linked.rootType? .mutation := by
    cases g.linked.rootType? .mutation <;> rfl
  have subscriptions : (g.linked.rootType? .subscription).map erasing.type =
      g.linked.rootType? .subscription := by
    cases g.linked.rootType? .subscription <;> rfl
  simp only [Function.comp_apply, Root.ordered, Relabeling.root, block, Option.map_map, mutations,
    subscriptions]
  rfl

/-- Schemas without places are those of graphs without places. -/
theorem resolved_erased (m : g.Matches erasing e) (fresh : g.Fresh) (fresh' : e.Fresh)
    (sound : g.linked.RootSound required) :
    g.resolved.erased =
      ⟨e.resolved.types, e.resolved.directives, e.resolved.root.map Root.ordered⟩ := by
  rw [Schema.erased, m.resolved_types_eq fresh fresh' sound,
    m.resolved_directives_eq fresh fresh' sound, m.resolved_root_ordered sound]

end Matches

end Graph

end SchemaAtlas
