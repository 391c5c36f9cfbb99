import SchemaAtlas.Builder
import SchemaAtlas.Proofs.BuiltIns
import SchemaAtlas.Proofs.Places
import SchemaAtlas.Proofs.Rereading

/-!
# Round trip through definitions

The definitions of an accepted schema are themselves a buffer. Analyzing it succeeds, and gives the
schema back: written definitions say all that a schema holds, places and built-in elements apart.
-/

namespace SchemaAtlas

open Relabeling (erasing)

section Lists

variable {α β γ : Type}

theorem map_mapIdx_of_same {f : Nat → α → β} {view : β → γ} {view' : α → γ}
    (same : ∀ i a, view (f i a) = view' a) (l : List α) :
    (l.mapIdx f).map view = l.map view' := by
  apply List.ext_getElem?
  intro i
  simp [Function.comp_def, same]

theorem flatMap_mapIdx_of_same {f : Nat → α → β} {view : β → List γ} {view' : α → List γ}
    (same : ∀ i a, view (f i a) = view' a) (l : List α) :
    (l.mapIdx f).flatMap view = l.flatMap view' := by
  rw [List.flatMap_def, List.flatMap_def, map_mapIdx_of_same same]

theorem map_filter_mapIdx_of_same {f : Nat → α → β} {kept : β → Bool} {kept' : α → Bool}
    {view : β → γ} {view' : α → γ} (keeps : ∀ i a, kept (f i a) = kept' a)
    (same : ∀ i a, view (f i a) = view' a) (l : List α) :
    ((l.mapIdx f).filter kept).map view = (l.filter kept').map view' := by
  induction l generalizing f with
  | nil => rfl
  | cons a rest ih =>
    have later := ih (f := fun i => f (i + 1)) (fun i => keeps (i + 1)) fun i => same (i + 1)
    rw [List.mapIdx_cons, List.filter_cons, List.filter_cons, keeps]
    cases kept' a <;> simp [later, same]

end Lists

/-! Looking names up changes neither what is written nor the literals. -/

namespace Names

variable (names : Names)

@[simp] theorem toExpr_linkRef (a : TypeUse) : (a.mapRef names.linkRef).toExpr = a.toExpr := by
  induction a with
  | named x => rfl
  | list item ih => exact congrArg TypeExpr.list ih
  | nonNull inner ih => exact congrArg TypeExpr.nonNull ih

@[simp] theorem linkUsages_toDecl (owner : ElementId) (us : List Usage) :
    (names.linkUsages owner us).map Usage.toDecl = us.map Usage.toDecl := by
  rw [linkUsages, List.map_map]
  rfl

@[simp] theorem linkUsages_literals (owner : ElementId) (us : List Usage) :
    usageLiterals (names.linkUsages owner us) = usageLiterals us := by
  rw [usageLiterals, linkUsages, List.flatMap_map]
  rfl

theorem linkInputValue_toDecl (self parent : ElementId) (v : InputValue) :
    (names.linkInputValue self parent v).toDecl = v.toDecl := by
  simp [InputValue.toDecl, linkInputValue]

@[simp] theorem linkInputValues_toDecl (self : Nat → ElementId) (parent : ElementId)
    (t : Table InputValue) :
    (names.linkInputValues self parent t).values.map InputValue.toDecl =
      t.values.map InputValue.toDecl := by
  rw [linkInputValues, Table.values_mapIdx]
  exact map_mapIdx_of_same (fun i v => names.linkInputValue_toDecl (self i) parent v) _

@[simp] theorem linkInputValues_literals (self : Nat → ElementId) (parent : ElementId)
    (t : Table InputValue) :
    inputLiterals (names.linkInputValues self parent t) = inputLiterals t := by
  rw [inputLiterals, linkInputValues, Table.values_mapIdx]
  refine flatMap_mapIdx_of_same (fun i v => ?_) _
  simp [InputValue.literals, linkInputValue]

theorem linkField_toDecl (t : TypeId) (i : Nat) (f : Field) :
    (names.linkField t i f).toDecl = f.toDecl := by
  simp [Field.toDecl, linkField]

theorem linkField_literals (t : TypeId) (i : Nat) (f : Field) :
    (names.linkField t i f).literals = f.literals := by
  simp [Field.literals, linkField]

theorem linkShape_toDecl (t : TypeId) (s : Shape) :
    (names.linkShape t s).fields.values.map Field.toDecl = s.fields.values.map Field.toDecl := by
  rw [linkShape, Table.values_mapIdx]
  exact map_mapIdx_of_same (names.linkField_toDecl t) _

theorem linkShape_literals (t : TypeId) (s : Shape) :
    (names.linkShape t s).fields.values.flatMap Field.literals =
      s.fields.values.flatMap Field.literals := by
  rw [linkShape, Table.values_mapIdx]
  exact flatMap_mapIdx_of_same (names.linkField_literals t) _

theorem linkBody_toDecl (t : TypeId) (b : TypeBody) : (names.linkBody t b).toDecl = b.toDecl := by
  cases b with
  | enum values =>
    simp only [linkBody, TypeBody.toDecl, Table.values_mapIdx]
    refine congrArg BodyDecl.enum (map_mapIdx_of_same (fun i v => ?_) _)
    simp [EnumValue.toDecl, linkEnumValue]
  | inputObject fields => simp [linkBody, TypeBody.toDecl]
  | interface s =>
    simp only [linkBody, TypeBody.toDecl, linkShape_toDecl]
    simp [linkShape]
  | object s =>
    simp only [linkBody, TypeBody.toDecl, linkShape_toDecl]
    simp [linkShape]
  | scalar => rfl
  | union members => simp [linkBody, TypeBody.toDecl]

theorem linkBody_literals (t : TypeId) (b : TypeBody) :
    (names.linkBody t b).literals = b.literals := by
  cases b with
  | enum values =>
    simp only [linkBody, TypeBody.literals, Table.values_mapIdx]
    refine flatMap_mapIdx_of_same (fun i v => ?_) _
    simp [linkEnumValue]
  | inputObject fields => simp [linkBody, TypeBody.literals]
  | interface s => exact names.linkShape_literals t s
  | object s => exact names.linkShape_literals t s
  | scalar => rfl
  | union members => rfl

end Names

namespace Graph

theorem resolvedType_toDecl (g : Graph) (t : TypeId) (d : TypeDef) :
    (g.resolvedType t d).toDecl = d.toDecl := by
  simp [TypeDef.toDecl, resolvedType, Names.linkBody_toDecl]

theorem resolvedType_literals (g : Graph) (t : TypeId) (d : TypeDef) :
    (g.resolvedType t d).literals = d.literals := by
  simp [TypeDef.literals, resolvedType, Names.linkBody_literals]

theorem resolvedDirective_toDecl (g : Graph) (id : DirectiveId) (d : DirectiveDef) :
    (g.resolvedDirective id d).toDecl = d.toDecl := by
  simp [DirectiveDef.toDecl, resolvedDirective, Names.linkDirective]

theorem resolvedDirective_literals (g : Graph) (id : DirectiveId) (d : DirectiveDef) :
    (g.resolvedDirective id d).literals = d.literals := by
  simp [DirectiveDef.literals, resolvedDirective, Names.linkDirective]

/-- The types that are not built in. -/
def ownTypeDefs (g : Graph) : List TypeDef := g.types.values.filter fun d => !d.builtIn

def ownDirectiveDefs (g : Graph) : List DirectiveDef :=
  g.directives.values.filter fun d => !d.builtIn

theorem resolved_types_values (g : Graph) :
    g.resolved.types.values = g.types.values.mapIdx fun i d => g.resolvedType ⟨i⟩ d := by
  apply List.ext_getElem?
  intro i
  simp [Function.comp_def]

theorem resolved_directives_values (g : Graph) :
    g.resolved.directives.values =
      g.directives.values.mapIdx fun i d => g.resolvedDirective ⟨i⟩ d := by
  apply List.ext_getElem?
  intro i
  simp [Function.comp_def]

/-- What is written of a schema: its block, then the directives and types of the graph behind it. -/
theorem resolved_definitions (g : Graph) :
    g.resolved.definitions =
      (g.resolved.block?.map fun b => Declaration.schema (g.resolved.blockDecl b)).toList ++
      g.ownDirectiveDefs.map (fun d => .directive d.toDecl) ++
      g.ownTypeDefs.map fun d => .type d.toDecl := by
  have directives : (g.resolved.directives.values.filter fun d => !d.builtIn).map
      (fun d => Declaration.directive d.toDecl) =
      g.ownDirectiveDefs.map fun d => .directive d.toDecl := by
    rw [resolved_directives_values, ownDirectiveDefs]
    apply map_filter_mapIdx_of_same
    · intro i d
      rfl
    · intro i d
      rw [g.resolvedDirective_toDecl]
  have types : (g.resolved.types.values.filter fun d => !d.builtIn).map
      (fun d => Declaration.type d.toDecl) = g.ownTypeDefs.map fun d => .type d.toDecl := by
    rw [resolved_types_values, ownTypeDefs]
    apply map_filter_mapIdx_of_same
    · intro i d
      rfl
    · intro i d
      rw [g.resolvedType_toDecl]
  rw [Schema.definitions, directives, types]

end Graph

/-- The values that stand anywhere in a schema. -/
def Schema.literals (s : Schema) : List Value :=
  s.types.values.flatMap TypeDef.literals ++ s.directives.values.flatMap DirectiveDef.literals ++
    (s.block?.map SchemaBlock.literals).getD []

theorem Graph.resolved_literals (g : Graph) :
    g.resolved.literals =
      g.types.values.flatMap TypeDef.literals ++
        g.directives.values.flatMap DirectiveDef.literals ++
        (g.resolved.block?.map SchemaBlock.literals).getD [] := by
  rw [Schema.literals, resolved_types_values, resolved_directives_values,
    flatMap_mapIdx_of_same fun i d => g.resolvedType_literals ⟨i⟩ d,
    flatMap_mapIdx_of_same fun i d => g.resolvedDirective_literals ⟨i⟩ d]

section Block

variable {required : Bool} {declarations : List Sourced}

/-- A binding of the block is written with the name that it was declared with. -/
theorem Sound.operationType?_name (sound : Sound required declarations) {b : SchemaBlock}
    (declared : (Graph.described declarations).block = some b) (kind : OperationKind) :
    ((Graph.described declarations).resolved.operationType? kind).map TypeDef.name =
      (b.operation? kind).map fun o => o.type.name := by
  have fresh := Graph.described_fresh declarations
  have served : (Graph.described declarations).linked.rootType? kind =
      (b.operation? kind).bind fun o => (Graph.described declarations).typeId? o.type.name := by
    simp only [Graph.rootType?, Graph.linked_block, declared, Option.map_some,
      SchemaBlock.operation?, Names.linkBlock, List.find?_map, Option.bind_map]
    rfl
  rw [Schema.operationType?, sound.operation? kind, served]
  cases found : b.operation? kind with
  | none => rfl
  | some o =>
    have member : o ∈ b.operations := List.mem_of_find?_eq_some found
    have known := sound.known (.type ⟨.operation o.kind, .schema⟩) o.type.name
      ⟨b, declared, o, member, rfl, rfl⟩
    obtain ⟨t, id⟩ := Option.isSome_iff_exists.mp known
    have id' : (Graph.described declarations).typeId? o.type.name = some t := id
    obtain ⟨d, entry⟩ := (Graph.typeId?_eq_some_iff fresh.types.distinct o.type.name t).mp id'
    have named : d.name = o.type.name := fresh.types.at?_name entry
    simp only [Option.bind_some, id', Graph.resolved_typeAt?, Graph.typeAt?, entry,
      Option.map_some]
    exact congrArg some named

/-- With one binding for each kind, the bindings are those that can be looked up. -/
theorem perm_operations {b : SchemaBlock} (kinds : (b.operations.map OperationBinding.kind).Nodup) :
    b.operations.Perm (OperationKind.all.filterMap b.operation?) := by
  refine (List.perm_ext_iff_of_nodup kinds.of_map ?_).mpr ?_
  · have distinct : OperationKind.all.Nodup := by decide
    refine distinct.filterMap ?_
    intro kind kind' o first second
    rw [← ((Graph.operation?_eq_some_iff kinds kind o).mp first).2,
      ← ((Graph.operation?_eq_some_iff kinds kind' o).mp second).2]
  · intro o
    rw [List.mem_filterMap]
    constructor
    · intro member
      exact ⟨o.kind, by cases o.kind <;> decide,
        (Graph.operation?_eq_some_iff kinds o.kind o).mpr ⟨member, rfl⟩⟩
    · rintro ⟨kind, _, found⟩
      exact ((Graph.operation?_eq_some_iff kinds kind o).mp found).1

/-- The block of a schema, written out and given again. -/
theorem Sound.block_reread (sound : Sound required declarations) {b : SchemaBlock}
    (declared : (Graph.described declarations).block = some b) (narrow : AllNarrow b.literals)
    (file : Option String) :
    (Collect.block (.given file) ((Graph.described declarations).resolved.blockDecl
        ((Graph.described declarations).names.linkBlock b))).problems = [] ∧
      (Collect.block (.given file) ((Graph.described declarations).resolved.blockDecl
        ((Graph.described declarations).names.linkBlock b))).value.Alike erasing
          (erasing.block b) := by
  have fresh := (Graph.described_fresh declarations).block b declared
  have kinds := Graph.linked_block_kinds sound.rooted b declared
  obtain ⟨silent, usages⟩ := Collect.usages_gives (.given file) .schema fresh.usages narrow
  have bindings : ((Graph.described declarations).resolved.blockDecl
      ((Graph.described declarations).names.linkBlock b)).bindings =
      (OperationKind.all.filterMap b.operation?).map fun o => (o.kind, o.type.name) := by
    have pair (kind : OperationKind) :
        ((b.operation? kind).map fun o => o.type.name).map (fun name => (kind, name)) =
          (b.operation? kind).map fun o => (o.kind, o.type.name) := by
      cases found : b.operation? kind with
      | none => rfl
      | some o =>
        have bound := ((Graph.operation?_eq_some_iff kinds kind o).mp found).2
        simp [bound]
    rw [List.map_filterMap]
    simp only [SchemaDecl.bindings, Schema.blockDecl, sound.operationType?_name declared,
      OperationKind.all, List.filterMap_cons, List.filterMap_nil, pair]
  have operations : (Collect.bindings ((Origin.given file).locate {})
      ((Graph.described declarations).resolved.blockDecl
        ((Graph.described declarations).names.linkBlock b))).map erasing.binding =
      (OperationKind.all.filterMap b.operation?).map erasing.binding := by
    rw [Collect.bindings, bindings, List.map_map, List.map_map]
    refine List.map_congr_left fun o member => ?_
    have unlinked : o.type.target = none :=
      fresh.operations o ((perm_operations kinds).mem_iff.mpr member)
    simp [Relabeling.binding, Relabeling.ref, unlinked, erasing]
  have written : ((Graph.described declarations).resolved.blockDecl
      ((Graph.described declarations).names.linkBlock b)).usages = b.usages.map Usage.toDecl :=
    Names.linkUsages_toDecl _ .schema b.usages
  constructor
  · simp only [Collect.block, Reported.bind_problems, written, silent, Reported.pure_problems,
      List.append_nil]
  · refine ⟨rfl, ?_, ?_⟩
    · simp only [Collect.block, Reported.bind_value, Reported.pure_value, written, usages,
        Relabeling.block]
    · have perm := (perm_operations kinds).map erasing.binding
      rw [← operations] at perm
      exact perm

end Block

/-- The definitions of the schema of a graph, as a buffer. -/
def Graph.reread (g : Graph) (file : Option String) : List Sourced :=
  g.resolved.definitions.map fun d => ⟨.given file, d⟩

section Reread

variable (g : Graph) (file : Option String)

theorem reread_eq :
    g.reread file =
      (g.resolved.block?.map fun b =>
        (⟨.given file, .schema (g.resolved.blockDecl b)⟩ : Sourced)).toList ++
      g.ownDirectiveDefs.map (fun d => ⟨.given file, .directive d.toDecl⟩) ++
      g.ownTypeDefs.map fun d => ⟨.given file, .type d.toDecl⟩ := by
  rw [Graph.reread, Graph.resolved_definitions, List.map_append, List.map_append, List.map_map,
    List.map_map]
  cases g.resolved.block? <;> rfl

/-- What a reader makes of each part of the buffer. -/
theorem filterMap_reread {β : Type} (read : Sourced → Option β) :
    (g.reread file).filterMap read =
      (g.resolved.block?.bind fun b =>
        read ⟨.given file, .schema (g.resolved.blockDecl b)⟩).toList ++
      g.ownDirectiveDefs.filterMap (fun d => read ⟨.given file, .directive d.toDecl⟩) ++
      g.ownTypeDefs.filterMap fun d => read ⟨.given file, .type d.toDecl⟩ := by
  rw [reread_eq, List.filterMap_append, List.filterMap_append, List.filterMap_map,
    List.filterMap_map]
  cases g.resolved.block? with
  | none => rfl
  | some b =>
    cases found : read ⟨.given file, .schema (g.resolved.blockDecl b)⟩ <;> simp [found]

theorem reread_typeEntries :
    (g.reread file).filterMap Sourced.typeEntry? =
      g.ownTypeDefs.map fun d => (d.name, (Collect.typeDef (.given file) d.toDecl).value) := by
  rw [filterMap_reread]
  simp [Sourced.typeEntry?, TypeDef.toDecl]

theorem reread_directiveEntries :
    (g.reread file).filterMap Sourced.directiveEntry? =
      g.ownDirectiveDefs.map fun d =>
        (d.name, (Collect.directiveDef (.given file) d.toDecl).value) := by
  rw [filterMap_reread]
  simp [Sourced.directiveEntry?, DirectiveDef.toDecl]

theorem reread_blocks :
    (g.reread file).filterMap Sourced.block? =
      (g.resolved.block?.map fun b =>
        (Collect.block (.given file) (g.resolved.blockDecl b)).value).toList := by
  rw [filterMap_reread]
  cases g.resolved.block? <;> simp [Sourced.block?]

theorem mem_reread {s : Sourced} (member : s ∈ g.reread file) :
    (∃ b, g.resolved.block? = some b ∧ s = ⟨.given file, .schema (g.resolved.blockDecl b)⟩) ∨
      (∃ d ∈ g.ownDirectiveDefs, s = ⟨.given file, .directive d.toDecl⟩) ∨
      ∃ d ∈ g.ownTypeDefs, s = ⟨.given file, .type d.toDecl⟩ := by
  rw [reread_eq, List.mem_append, List.mem_append] at member
  rcases member with (block | directive) | type
  · obtain ⟨b, declared, same⟩ := Option.map_eq_some_iff.mp (Option.mem_toList.mp block)
    exact .inl ⟨b, declared, same.symm⟩
  · obtain ⟨d, own, same⟩ := List.mem_map.mp directive
    exact .inr (.inl ⟨d, own, same.symm⟩)
  · obtain ⟨d, own, same⟩ := List.mem_map.mp type
    exact .inr (.inr ⟨d, own, same.symm⟩)

/-- Nothing in the buffer is an extension. -/
theorem reread_definitions :
    definitionsOf (BuiltIn.declarations ++ g.reread file) =
        BuiltIn.declarations ++ g.reread file ∧
      extensionsOf (BuiltIn.declarations ++ g.reread file) = [] := by
  have plain : ∀ s ∈ BuiltIn.declarations ++ g.reread file, s.declaration.isExtension = false := by
    intro s member
    rcases List.mem_append.mp member with standard | written
    · have all : ∀ s ∈ BuiltIn.declarations, s.declaration.isExtension = false := by decide
      exact all s standard
    · rcases mem_reread g file written with ⟨b, _, rfl⟩ | ⟨d, _, rfl⟩ | ⟨d, _, rfl⟩ <;> rfl
  constructor
  · rw [definitionsOf, List.filter_eq_self]
    intro s member
    simp [plain s member]
  · rw [extensionsOf, List.filter_eq_nil_iff]
    intro s member
    simp [plain s member]

/-- The graph that the definitions describe, if they can stand together. -/
theorem described_reread
    (admits : ({} : Graph).Admits (BuiltIn.declarations ++ g.reread file)) :
    Graph.described (g.reread file) =
      ({} : Graph).extendedBy (BuiltIn.declarations ++ g.reread file) := by
  obtain ⟨definitions, extensions⟩ := reread_definitions g file
  rw [Graph.described, Graph.collect_value _ (definitions.symm ▸ admits), definitions, extensions]
  rfl

end Reread

section Split

variable {buffer : List (Option String × Declaration)}

/-- A built-in scalar without usages is known by its outline. -/
def TypeDef.Outline.scalar (o : TypeDef.Outline) : TypeDef where
  name := o.name
  description := o.description
  location := o.location
  builtIn := o.builtIn
  usages := []
  body := .scalar

/-- What is built in comes first, and is not written. -/
theorem filter_own {α : Type} {builtIn : α → Bool} {base own : List α}
    (standard : ∀ a ∈ base, builtIn a = true) (others : ∀ a ∈ own, builtIn a = false) :
    (base ++ own).filter (fun a => !builtIn a) = own := by
  have none : base.filter (fun a => !builtIn a) = [] := by
    rw [List.filter_eq_nil_iff]
    intro a member
    simp [standard a member]
  have all : own.filter (fun a => !builtIn a) = own := by
    rw [List.filter_eq_self]
    intro a member
    simp [others a member]
  rw [List.filter_append, none, all, List.nil_append]

/-- Own entries are known by their values. -/
theorem own_entries {α : Type} {name : α → String} {builtIn : α → Bool} {t : Table α}
    (keyed : t.Keyed name) {base own : List (String × α)} (split : t.entries = base ++ own)
    (standard : ∀ e ∈ base, builtIn e.2 = true) (others : ∀ e ∈ own, builtIn e.2 = false) :
    own = (t.values.filter fun a => !builtIn a).map fun a => (name a, a) := by
  rw [Table.values, split, List.map_append,
    filter_own (List.forall_mem_map.mpr standard) (List.forall_mem_map.mpr others), List.map_map]
  refine ((List.map_congr_left ?_).trans (List.map_id own)).symm
  intro e member
  have entry : e ∈ t.entries := by
    rw [split]
    exact List.mem_append_right _ member
  simp [keyed.named e entry]

theorem described_types_split
    (collected : (Graph.collect (BuiltIn.declarations ++ given buffer)).problems = [])
    (bare : ∀ d ∈ (Graph.described (given buffer)).types.values, d.builtIn = true → d.usages = []) :
    (Graph.described (given buffer)).types.entries =
      builtInTypes ++ (Graph.described (given buffer)).ownTypeDefs.map fun d => (d.name, d) := by
  have fresh := Graph.described_fresh (given buffer)
  obtain ⟨base, own, split, standard, scalars, others⟩ := described_types collected
  have known : base.map (fun e => (e.1, e.2.outline.scalar)) = base := by
    refine (List.map_congr_left ?_).trans (List.map_id base)
    intro e member
    have entry : e ∈ (Graph.described (given buffer)).types.entries := by
      rw [split]
      exact List.mem_append_left _ member
    obtain ⟨builtIn, body⟩ := scalars e member
    have usages := bare e.2 (List.mem_map_of_mem entry) builtIn
    have references := (fresh.types.each e entry).references
    have rooted := (fresh.types.each e entry).rooted
    obtain ⟨key, name, description, location, flag, us, b, rs, marked⟩ := e
    simp only at body usages references rooted
    simp [TypeDef.outline, TypeDef.Outline.scalar, body, usages, references, rooted]
  have same : base = builtInTypes := by
    have outlines := congrArg (List.map fun e => (e.1, TypeDef.Outline.scalar e.2)) standard
    rw [List.map_map, List.map_map] at outlines
    exact known.symm.trans outlines
  rw [split, same]
  exact congrArg (builtInTypes ++ ·)
    (own_entries fresh.types.toKeyed split (fun e member => (scalars e member).1) others)

theorem builtInDirectives_builtIn : ∀ e ∈ builtInDirectives, e.2.builtIn = true := by
  rw [← List.all_eq_true]
  rfl

theorem described_directives_split
    (collected : (Graph.collect (BuiltIn.declarations ++ given buffer)).problems = []) :
    (Graph.described (given buffer)).directives.entries =
      builtInDirectives ++
        (Graph.described (given buffer)).ownDirectiveDefs.map fun d => (d.name, d) := by
  have fresh := Graph.described_fresh (given buffer)
  obtain ⟨own, split, others⟩ := described_directives collected
  rw [split]
  exact congrArg (builtInDirectives ++ ·)
    (own_entries fresh.directives.toKeyed split builtInDirectives_builtIn others)

end Split

section RoundTrip

variable {required : Bool} {buffer : List (Option String × Declaration)}

theorem ownType_gives {g : Graph} (fresh : g.Fresh) (narrow : AllNarrow g.resolved.literals)
    (file : Option String) {d : TypeDef} (own : d ∈ g.ownTypeDefs) :
    (Collect.typeDef (.given file) d.toDecl).Gives erasing.typeDef d := by
  obtain ⟨member, given⟩ := List.mem_filter.mp own
  obtain ⟨e, entry, rfl⟩ := List.mem_map.mp member
  rw [Graph.resolved_literals] at narrow
  obtain ⟨⟨types, _⟩, _⟩ := (allNarrow_append.trans (and_congr_left' allNarrow_append)).mp narrow
  exact Collect.typeDef_gives file (fresh.types.each e entry) (by simpa using given)
    (types.of_flatMap e.2 member)

theorem ownDirective_gives {g : Graph} (fresh : g.Fresh) (narrow : AllNarrow g.resolved.literals)
    (file : Option String) {d : DirectiveDef} (own : d ∈ g.ownDirectiveDefs) :
    (Collect.directiveDef (.given file) d.toDecl).Gives erasing.directiveDef d := by
  obtain ⟨member, given⟩ := List.mem_filter.mp own
  obtain ⟨e, entry, rfl⟩ := List.mem_map.mp member
  rw [Graph.resolved_literals] at narrow
  obtain ⟨⟨_, directives⟩, _⟩ :=
    (allNarrow_append.trans (and_congr_left' allNarrow_append)).mp narrow
  exact Collect.directiveDef_gives file (fresh.directives.each e entry) (by simpa using given)
    (directives.of_flatMap e.2 member)

/-- A declared block, as it is found in the schema and read back. -/
theorem Sound.block_gives (sound : Sound required (given buffer))
    (narrow : AllNarrow (Graph.described (given buffer)).resolved.literals) (file : Option String)
    {b : SchemaBlock} (declared : (Graph.described (given buffer)).block = some b) :
    (Collect.block (.given file) ((Graph.described (given buffer)).resolved.blockDecl
        ((Graph.described (given buffer)).names.linkBlock b))).problems = [] ∧
      (Collect.block (.given file) ((Graph.described (given buffer)).resolved.blockDecl
        ((Graph.described (given buffer)).names.linkBlock b))).value.Alike erasing
          (erasing.block b) := by
  refine sound.block_reread declared ?_ file
  rw [Graph.resolved_literals, sound.block?, declared] at narrow
  have literals := (allNarrow_append.mp narrow).2
  simpa [SchemaBlock.literals, Names.linkBlock] using literals

variable (sound : Sound required (given buffer))
  (narrow : AllNarrow (Graph.described (given buffer)).resolved.literals)
  (bare : ∀ d ∈ (Graph.described (given buffer)).types.values, d.builtIn = true → d.usages = [])
  (file : Option String)
include sound narrow bare

theorem Sound.reread_admits :
    ({} : Graph).Admits (BuiltIn.declarations ++ (Graph.described (given buffer)).reread file) := by
  have fresh := Graph.described_fresh (given buffer)
  obtain ⟨admits, _⟩ := (Graph.collect_problems_iff _).mp sound.collected
  refine ⟨?_, ?_, ?_, ?_⟩
  · have keys := fresh.types.distinct
    rw [Table.keys, described_types_split sound.collected bare] at keys
    rw [List.filterMap_append, reread_typeEntries]
    simpa [Table.keys, Table.empty, builtInTypes, Function.comp_def] using keys
  · have keys := fresh.directives.distinct
    rw [Table.keys, described_directives_split sound.collected] at keys
    rw [List.filterMap_append, reread_directiveEntries]
    simpa [Table.keys, Table.empty, builtInDirectives, Function.comp_def] using keys
  · have none : BuiltIn.declarations.filterMap Sourced.block? = [] := rfl
    rw [List.filterMap_append, reread_blocks, none]
    cases (Graph.described (given buffer)).resolved.block? <;> simp
  · intro s member
    rcases List.mem_append.mp member with standard | written
    · rw [definitionsOf_given] at admits
      exact admits.own s (List.mem_append_left _ standard)
    · rcases mem_reread _ file written with ⟨b, declared, rfl⟩ | ⟨d, own, rfl⟩ | ⟨d, own, rfl⟩
      · rw [sound.block?, Option.map_eq_some_iff] at declared
        obtain ⟨old, declared, rfl⟩ := declared
        exact (sound.block_gives narrow file declared).1
      · exact (ownDirective_gives fresh narrow file own).silent
      · exact (ownType_gives fresh narrow file own).silent

/-- It is the graph that the schema came from, places apart. -/
theorem Sound.matches_reread :
    (Graph.described ((Graph.described (given buffer)).reread file)).Matches erasing
      (Graph.described (given buffer)).erased := by
  have fresh := Graph.described_fresh (given buffer)
  have fresh' := Graph.described_fresh ((Graph.described (given buffer)).reread file)
  have described := described_reread _ file (sound.reread_admits narrow bare file)
  refine Graph.matches_of_erased fresh' ?_ ?_ ?_
  · rw [described]
    apply Table.entries_ext
    simp only [Graph.erased, Table.map_entries, Graph.extendedBy, List.filterMap_append,
      reread_typeEntries, described_types_split sound.collected bare, List.map_append,
      List.map_map]
    refine congrArg (builtInTypes.map _ ++ ·) (List.map_congr_left fun d own => ?_)
    simp [(ownType_gives fresh narrow file own).same]
  · rw [described]
    apply Table.entries_ext
    simp only [Graph.erased, Table.map_entries, Graph.extendedBy, List.filterMap_append,
      reread_directiveEntries, described_directives_split sound.collected, List.map_append,
      List.map_map]
    refine congrArg (builtInDirectives.map _ ++ ·) (List.map_congr_left fun d own => ?_)
    simp [(ownDirective_gives fresh narrow file own).same]
  · have none : BuiltIn.declarations.filterMap Sourced.block? = [] := rfl
    rw [described]
    simp only [Graph.erased, Graph.extendedBy, List.filterMap_append, none, reread_blocks,
      sound.block?]
    cases declared : (Graph.described (given buffer)).block with
    | none => exact .none
    | some b => exact .some (sound.block_gives narrow file declared).2

theorem Sound.reread :
    Sound required ((Graph.described (given buffer)).reread file) := by
  have fresh := Graph.described_fresh (given buffer)
  have fresh' := Graph.described_fresh ((Graph.described (given buffer)).reread file)
  have without := Graph.erased_fresh fresh
  have first := Graph.matches_erased fresh
  have second := sound.matches_reread narrow bare file
  obtain ⟨definitions, extensions⟩ := reread_definitions (Graph.described (given buffer)) file
  refine ⟨?_, ?_, ?_, ?_, ?_⟩
  · rw [firstExecutable?_eq_none_iff]
    intro s member kind pos
    obtain ⟨written, _⟩ := List.mem_filter.mp member
    rcases mem_reread _ file written with ⟨b, _, rfl⟩ | ⟨d, _, rfl⟩ | ⟨d, _, rfl⟩ <;> simp
  · rw [Graph.collect_problems_iff, definitions, extensions]
    exact ⟨sound.reread_admits narrow bare file, rfl⟩
  · exact second.namesKnown.mp (first.namesKnown.mpr sound.known)
  · have lawful := (Graph.violations_eq_nil_iff _).mp sound.lawful
    exact (Graph.violations_eq_nil_iff _).mpr
      (second.linked.lawful.mp (first.linked.lawful.mpr lawful))
  · exact (second.rootSound fresh' without required).mp
      ((first.rootSound fresh without required).mpr sound.rooted)

end RoundTrip

/-- The definitions of an accepted schema, given to an empty builder, are accepted in turn, and the
new schema equals the old one up to places and the order of the bindings in its block. -/
theorem analyze_definitions (required : Bool) (buffer : List (Option String × Declaration))
    (file : Option String) (s : Schema)
    (accepted : (analyze required (given buffer)).result = .ok s)
    (narrow : ∀ v ∈ s.literals, v.Narrow)
    (bare : ∀ d ∈ s.types.values, d.builtIn = true → d.usages = []) :
    ∃ s', (analyze required (({} : Builder).add file s.definitions).declarations).result = .ok s' ∧
      s'.erased = s.erased := by
  obtain ⟨sound, rfl⟩ := (analyze_eq_ok_iff_sound required (given buffer) s).mp accepted
  have bare' : ∀ d ∈ (Graph.described (given buffer)).types.values, d.builtIn = true →
      d.usages = [] := by
    intro d member builtIn
    obtain ⟨i, present⟩ := List.mem_iff_getElem?.mp member
    have resolved : (Graph.described (given buffer)).resolvedType ⟨i⟩ d ∈
        (Graph.described (given buffer)).resolved.types.values := by
      rw [Graph.resolved_types_values, mem_mapIdx_iff]
      exact ⟨i, d, present, rfl⟩
    exact List.map_eq_nil_iff.mp (bare _ resolved builtIn)
  have sound' := sound.reread narrow bare' file
  have fresh := Graph.described_fresh (given buffer)
  have fresh' := Graph.described_fresh ((Graph.described (given buffer)).reread file)
  have without := Graph.erased_fresh fresh
  refine ⟨(Graph.described ((Graph.described (given buffer)).reread file)).resolved, ?_, ?_⟩
  · exact (analyze_eq_ok_iff_sound required _ _).mpr ⟨sound', rfl⟩
  · rw [(sound.matches_reread narrow bare' file).resolved_erased fresh' without sound'.rooted,
      (Graph.matches_erased fresh).resolved_erased fresh without sound.rooted]

instance (v : Value) : Decidable v.Narrow :=
  inferInstanceAs (Decidable (∀ n ∈ v.ints, Value.fitsInt32 n = true))

/-- The bookshop in nine definitions, with its extension merged. -/
theorem analyze_definitions_bookshop :
    ∃ s s', (analyze true (given bookshop)).result = .ok s ∧ s.definitions.length = 9 ∧
      (analyze true (({} : Builder).add none s.definitions).declarations).result = .ok s' ∧
      s'.erased = s.erased := by
  obtain ⟨s, accepted, holds⟩ : ∃ s, (analyze true (given bookshop)).result = .ok s ∧
      decide (s.definitions.length = 9 ∧ (∀ v ∈ s.literals, v.Narrow) ∧
        ∀ d ∈ s.types.values, d.builtIn = true → d.usages = []) = true :=
    exists_of_any (by decide +kernel)
  rw [decide_eq_true_iff] at holds
  obtain ⟨nine, narrow, bare⟩ := holds
  obtain ⟨s', accepted', same⟩ := analyze_definitions true bookshop none s accepted narrow bare
  exact ⟨s, s', accepted, nine, accepted', same⟩

end SchemaAtlas
