import SchemaAtlas.Proofs.RoundTrip

/-!
# Stable definitions

Writing a schema changes what it says: wide integers become floating-point numbers, usages on
built-in scalars are dropped, and locations, object entries and bindings come in a fixed order. All
this happens once. If the definitions of a schema are accepted in turn, the new schema is written
with the very same definitions.
-/

namespace SchemaAtlas

namespace Value

mutual

/-- Objects are written in the order of their keys. -/
theorem isCanonical_literal : ∀ v : Value, v.literal.IsCanonical
  | null | boolean _ | float _ | string _ | enum _ | var _ => by simp [literal, IsCanonical]
  | int n => by
    rw [literal]
    split <;> simp [IsCanonical]
  | list items => by
    simp only [literal, IsCanonical]
    exact itemsCanonical_literalItems items
  | object entries => by
    simp only [literal, IsCanonical]
    refine ⟨ascending_sortEntries _, (entriesCanonical_iff _).mpr fun e member => ?_⟩
    have all := (entriesCanonical_iff _).mp (entriesCanonical_literalEntries entries)
    exact all e (mem_of_mem_sortEntries member)

theorem itemsCanonical_literalItems : ∀ items : List Value, ItemsCanonical (literalItems items)
  | [] => trivial
  | v :: rest => ⟨isCanonical_literal v, itemsCanonical_literalItems rest⟩

theorem entriesCanonical_literalEntries :
    ∀ entries : List (String × Value), EntriesCanonical (literalEntries entries)
  | [] => trivial
  | (_, v) :: rest => ⟨isCanonical_literal v, entriesCanonical_literalEntries rest⟩

end

theorem entryInts_eq (entries : List (String × Value)) :
    entryInts entries = entries.flatMap fun e => e.2.ints := by
  induction entries with
  | nil => rfl
  | cons e rest ih => rw [List.flatMap_cons, ← ih, entryInts]

mutual

/-- No wide integer is written. -/
theorem narrow_literal : ∀ v : Value, v.literal.Narrow
  | null | boolean _ | float _ | string _ | enum _ | var _ => by simp [literal, Narrow, ints]
  | int n => by
    rw [literal]
    split <;> simp_all [Narrow, ints]
  | list items => by
    simp only [literal, Narrow, ints]
    exact narrow_literalItems items
  | object entries => by
    simp only [literal, Narrow, ints, entryInts_eq, List.mem_flatMap]
    rintro n ⟨e, member, inside⟩
    refine narrow_literalEntries entries n ?_
    rw [entryInts_eq, List.mem_flatMap]
    exact ⟨e, mem_of_mem_sortEntries member, inside⟩

theorem narrow_literalItems :
    ∀ items : List Value, ∀ n ∈ itemInts (literalItems items), fitsInt32 n = true
  | [], _, member => by cases member
  | v :: rest, n, member => by
    rcases List.mem_append.mp member with first | later
    · exact narrow_literal v n first
    · exact narrow_literalItems rest n later

theorem narrow_literalEntries :
    ∀ entries : List (String × Value), ∀ n ∈ entryInts (literalEntries entries), fitsInt32 n = true
  | [], _, member => by cases member
  | (_, v) :: rest, n, member => by
    rcases List.mem_append.mp member with first | later
    · exact narrow_literal v n first
    · exact narrow_literalEntries rest n later

end

/-- What has been written once is written the same way again after it is read. -/
theorem literal_canonical_literal (v : Value) : v.literal.canonical.literal = v.literal := by
  have canonical := isCanonical_literal v
  rw [canonical_of_isCanonical _ canonical, literal_of_narrow _ canonical (narrow_literal v)]

end Value

/-- A keyed table whose values are written out, read and written again. -/
theorem gather_rewrites {α β : Type} {key : α → String} {write : β → α}
    {repeated : α → Reported Unit} {read : α → Reported β} {name : β → String} {t : Table β}
    (keyed : t.Keyed name) (named : ∀ b, key (write b) = name b)
    (back : ∀ b ∈ t.values, write (read (write b)).value = write b) :
    (gather key repeated read .empty (t.values.map write)).value.values.map write =
      t.values.map write := by
  rw [gather_value _ _ (keyed.nodup_written named)]
  simp only [Table.empty, Table.values, List.nil_append, List.map_map] at back ⊢
  refine List.map_congr_left fun e member => ?_
  exact back e.2 (List.mem_map_of_mem member)

theorem TypeUse.toExpr_ofExpr (location : SourceLocation) (a : TypeExpr) :
    (TypeUse.ofExpr location a).toExpr = a := by
  induction a with
  | named name => rfl
  | list item ih => exact congrArg TypeExpr.list ih
  | nonNull inner ih => exact congrArg TypeExpr.nonNull ih

/-! Each part of a definition, written, read and written again. -/

namespace Collect

theorem usage_rewrites (origin : Origin) (owner : ElementPath) {u : Usage} (fresh : u.Fresh) :
    (Collect.usage origin owner u.toDecl).value.toDecl = u.toDecl := by
  have arguments : (u.toDecl.arguments.map fun a => (a.1, a.2.canonical)).map
      (fun a => (a.1, a.2.literal)) = u.toDecl.arguments := by
    simp only [Usage.toDecl, List.map_map]
    refine List.map_congr_left fun e _ => ?_
    simp only [Function.comp_apply, Value.literal_canonical_literal]
  simp only [Collect.usage, Reported.bind_value, gather_value _ _ (nodup_writtenArguments fresh)]
  simp only [Reported.pure_value, Table.empty, List.nil_append]
  rw [Usage.toDecl]
  simp only [arguments]
  rfl

theorem usages_rewrites (origin : Origin) (owner : ElementPath) {us : List Usage}
    (fresh : ∀ u ∈ us, u.Fresh) :
    (Collect.usages origin owner (us.map Usage.toDecl)).value.map Usage.toDecl =
      us.map Usage.toDecl := by
  simp only [Collect.usages, Reported.each_value, List.map_map]
  exact List.map_congr_left fun u member => usage_rewrites origin owner (fresh u member)

theorem inputValue_rewrites (origin : Origin) (container : ElementPath)
    (segment : String → PathSegment) {v : InputValue} (fresh : v.Fresh) :
    (Collect.inputValue origin container segment v.toDecl).value.toDecl = v.toDecl := by
  have default : ((v.default.map Value.literal).map Value.canonical).map Value.literal =
      v.default.map Value.literal := by
    cases v.default with
    | none => rfl
    | some x => simp [Value.literal_canonical_literal]
  have usages := usages_rewrites origin (container.child (segment v.name)) fresh.usages
  simp only [Collect.inputValue, InputValue.toDecl, Reported.bind_value, Reported.pure_value,
    TypeUse.toExpr_ofExpr, default, usages]

theorem inputValues_rewrites (origin : Origin) (container : ElementPath) (listed : Listed)
    (segment : String → PathSegment) {t : Table InputValue}
    (fresh : t.All InputValue.name InputValue.Fresh) :
    (Collect.inputValues origin container listed segment
      (t.values.map InputValue.toDecl)).value.values.map InputValue.toDecl =
      t.values.map InputValue.toDecl := by
  refine gather_rewrites fresh.toKeyed (fun _ => rfl) fun v member => ?_
  obtain ⟨e, entry, rfl⟩ := List.mem_map.mp member
  exact inputValue_rewrites origin container segment (fresh.each e entry)

theorem enumValues_rewrites (origin : Origin) (type : ElementPath) {t : Table EnumValue}
    (fresh : t.All EnumValue.name EnumValue.Fresh) :
    (Collect.enumValues origin type (t.values.map EnumValue.toDecl)).value.values.map
      EnumValue.toDecl = t.values.map EnumValue.toDecl := by
  refine gather_rewrites fresh.toKeyed (fun _ => rfl) fun v member => ?_
  obtain ⟨e, entry, rfl⟩ := List.mem_map.mp member
  have usages := usages_rewrites origin (type.child (.enumValue e.2.name))
    (fresh.each e entry).usages
  simp only [Collect.enumValue, EnumValue.toDecl, Reported.bind_value, Reported.pure_value, usages]

theorem fields_rewrites (origin : Origin) (type : ElementPath) {t : Table Field}
    (fresh : t.All Field.name Field.Fresh) :
    (Collect.fields origin type (t.values.map Field.toDecl)).value.values.map Field.toDecl =
      t.values.map Field.toDecl := by
  refine gather_rewrites fresh.toKeyed (fun _ => rfl) fun f member => ?_
  obtain ⟨e, entry, rfl⟩ := List.mem_map.mp member
  have field := fresh.each e entry
  have arguments := inputValues_rewrites origin (type.child (.field e.2.name)) .argument .argument
    field.arguments
  have usages := usages_rewrites origin (type.child (.field e.2.name)) field.usages
  simp only [Collect.field, Collect.arguments, Field.toDecl, Reported.bind_value,
    Reported.pure_value, TypeUse.toExpr_ofExpr, arguments, usages]

theorem typeRefs_rewrites (location : SourceLocation) (type : ElementPath) (listed : Listed)
    {names : List String} (distinct : names.Nodup) :
    (Collect.typeRefs location type listed names).value.keys = names := by
  have keys : ((Table.empty : Table TypeRef).keys ++ names.map id).Nodup := by simpa using distinct
  simp only [Collect.typeRefs, gather_value _ _ keys]
  simp [Table.keys, Table.empty, Function.comp_def]

theorem body_rewrites (origin : Origin) (location : SourceLocation) (type : ElementPath)
    {b : TypeBody} (fresh : b.Fresh) :
    (Collect.body origin location type b.toDecl).value.toDecl = b.toDecl := by
  cases b with
  | scalar => rfl
  | enum values => exact congrArg BodyDecl.enum (enumValues_rewrites origin type fresh)
  | inputObject fields =>
    exact congrArg BodyDecl.inputObject
      (inputValues_rewrites origin type .inputField .inputField fresh)
  | union members =>
    exact congrArg BodyDecl.union (typeRefs_rewrites location type .memberType fresh.distinct)
  | interface shape =>
    exact congrArg₂ BodyDecl.interface
      (typeRefs_rewrites location type .interface fresh.implements.distinct)
      (fields_rewrites origin type fresh.fields)
  | object shape =>
    exact congrArg₂ BodyDecl.object
      (typeRefs_rewrites location type .interface fresh.implements.distinct)
      (fields_rewrites origin type fresh.fields)

theorem typeDef_rewrites (origin : Origin) {d : TypeDef} (fresh : d.Fresh) :
    (Collect.typeDef origin d.toDecl).value.toDecl = d.toDecl := by
  have usages := usages_rewrites origin (ElementPath.type d.body.toDecl.kind d.name) fresh.usages
  have body := body_rewrites origin (origin.locate {})
    (ElementPath.type d.body.toDecl.kind d.name) fresh.body
  simp only [Collect.typeDef, TypeDef.toDecl, Reported.bind_value, Reported.pure_value, usages,
    body]

theorem directiveDef_rewrites (origin : Origin) {d : DirectiveDef} (fresh : d.Fresh) :
    (Collect.directiveDef origin d.toDecl).value.toDecl = d.toDecl := by
  have locations := (locations_gives (origin.locate {}) (ElementPath.directive d.name)
    d.locations).same
  have arguments := inputValues_rewrites origin (ElementPath.directive d.name) .argument .argument
    fresh.arguments
  simp only [id] at locations
  simp only [Collect.directiveDef, Collect.arguments, DirectiveDef.toDecl, Reported.bind_value,
    Reported.pure_value, locations, arguments]

/-- The bindings of a block are those that its declaration names. -/
theorem block_operation? (origin : Origin) (d : SchemaDecl) (kind : OperationKind) :
    ((Collect.block origin d).value.operation? kind).map (fun o => o.type.name) =
      match kind with
      | .query => d.query
      | .mutation => d.mutation
      | .subscription => d.subscription := by
  simp only [Collect.block, Reported.bind_value, Reported.pure_value, SchemaBlock.operation?,
    Collect.bindings, SchemaDecl.bindings]
  cases kind <;> cases d.query <;> cases d.mutation <;> cases d.subscription <;> rfl

end Collect

/-! The graph that the definitions of a schema describe. -/

section Reread

variable {g : Graph} {file : Option String}
  (admits : ({} : Graph).Admits (BuiltIn.declarations ++ g.reread file))
include admits

theorem reread_ownTypeDefs : (Graph.described (g.reread file)).ownTypeDefs =
    g.ownTypeDefs.map fun d => (Collect.typeDef (.given file) d.toDecl).value := by
  have standard : ∀ e ∈ builtInTypes, e.2.builtIn = true := by
    rw [← List.all_eq_true]
    rfl
  rw [described_reread g file admits, Graph.ownTypeDefs, Graph.extendedBy]
  simp only [Table.values, Table.empty, List.nil_append, List.filterMap_append, List.map_append,
    reread_typeEntries, List.map_map]
  refine filter_own (List.forall_mem_map.mpr standard) (List.forall_mem_map.mpr ?_)
  exact fun d _ => rfl

theorem reread_ownDirectiveDefs : (Graph.described (g.reread file)).ownDirectiveDefs =
    g.ownDirectiveDefs.map fun d => (Collect.directiveDef (.given file) d.toDecl).value := by
  rw [described_reread g file admits, Graph.ownDirectiveDefs, Graph.extendedBy]
  simp only [Table.values, Table.empty, List.nil_append, List.filterMap_append, List.map_append,
    reread_directiveEntries, List.map_map]
  refine filter_own (List.forall_mem_map.mpr builtInDirectives_builtIn)
    (List.forall_mem_map.mpr ?_)
  exact fun d _ => rfl

theorem reread_block : (Graph.described (g.reread file)).block =
    g.resolved.block?.map fun b =>
      (Collect.block (.given file) (g.resolved.blockDecl b)).value := by
  have none : BuiltIn.declarations.filterMap Sourced.block? = [] := rfl
  rw [described_reread g file admits, Graph.extendedBy]
  simp only [List.filterMap_append, none, reread_blocks]
  cases g.resolved.block? <;> rfl

end Reread

/-- A block without extensions is written as it was declared, if its usages are. -/
theorem Sound.blockDecl_eq {required : Bool} {declarations : List Sourced}
    (sound : Sound required declarations) {origin : Origin} {d : SchemaDecl} (place : d.pos = {})
    (declared : (Graph.described declarations).block = some (Collect.block origin d).value)
    (usages : (Collect.usages origin .schema d.usages).value.map Usage.toDecl = d.usages) :
    (Graph.described declarations).resolved.blockDecl
      ((Graph.described declarations).names.linkBlock (Collect.block origin d).value) = d := by
  have written : ((Graph.described declarations).names.linkBlock
      (Collect.block origin d).value).usages.map Usage.toDecl = d.usages :=
    (Names.linkUsages_toDecl _ .schema _).trans usages
  rw [Schema.blockDecl, written]
  simp only [sound.operationType?_name declared, Collect.block_operation?, ← place]

section Stable

variable {required : Bool} {declarations : List Sourced} {file : Option String}
  (sound : Sound required declarations)
  (sound' : Sound required ((Graph.described declarations).reread file))

include sound' in
/-- Definitions that are accepted can stand together. -/
theorem Sound.admits_reread :
    ({} : Graph).Admits (BuiltIn.declarations ++ (Graph.described declarations).reread file) := by
  have admits := ((Graph.collect_problems_iff _).mp sound'.collected).1
  rwa [(reread_definitions _ file).1] at admits

include sound sound'

theorem Sound.blockDecl_stable :
    ((Graph.described ((Graph.described declarations).reread file)).resolved.block?.map
      (Graph.described ((Graph.described declarations).reread file)).resolved.blockDecl) =
      (Graph.described declarations).resolved.block?.map
        (Graph.described declarations).resolved.blockDecl := by
  have reread := reread_block sound'.admits_reread
  rw [sound'.block?]
  cases found : (Graph.described declarations).resolved.block? with
  | none =>
    rw [found, Option.map_none] at reread
    rw [reread, Option.map_none, Option.map_none, Option.map_none]
  | some b =>
    rw [found, Option.map_some] at reread
    rw [reread, Option.map_some, Option.map_some, Option.map_some, sound'.blockDecl_eq rfl reread]
    rw [sound.block?, Option.map_eq_some_iff] at found
    obtain ⟨old, declared, rfl⟩ := found
    have fresh := (Graph.described_fresh declarations).block old declared
    have written : ((Graph.described declarations).resolved.blockDecl
        ((Graph.described declarations).names.linkBlock old)).usages =
        old.usages.map Usage.toDecl := Names.linkUsages_toDecl _ .schema old.usages
    rw [written]
    exact Collect.usages_rewrites _ .schema fresh.usages

/-- A schema whose definitions are accepted is written as before. -/
theorem Sound.definitions_reread :
    (Graph.described ((Graph.described declarations).reread file)).resolved.definitions =
      (Graph.described declarations).resolved.definitions := by
  have fresh := Graph.described_fresh declarations
  have admits := sound'.admits_reread
  have block := congrArg (Option.map Declaration.schema) (sound.blockDecl_stable sound')
  rw [Option.map_map, Option.map_map] at block
  rw [Graph.resolved_definitions, Graph.resolved_definitions, reread_ownTypeDefs admits,
    reread_ownDirectiveDefs admits, List.map_map, List.map_map]
  refine congrArg₂ (· ++ ·) (congrArg₂ (· ++ ·) (congrArg Option.toList block) ?_) ?_
  · refine List.map_congr_left fun d own => congrArg Declaration.directive ?_
    obtain ⟨e, entry, rfl⟩ := List.mem_map.mp (List.mem_filter.mp own).1
    exact Collect.directiveDef_rewrites _ (fresh.directives.each e entry)
  · refine List.map_congr_left fun d own => congrArg Declaration.type ?_
    obtain ⟨e, entry, rfl⟩ := List.mem_map.mp (List.mem_filter.mp own).1
    exact Collect.typeDef_rewrites _ (fresh.types.each e entry)

end Stable

/-- If the definitions of an accepted schema are accepted in turn, the new schema has the same
definitions. -/
theorem definitions_stable (required : Bool) (buffer : List (Option String × Declaration))
    (file : Option String) (s s' : Schema)
    (accepted : (analyze required (given buffer)).result = .ok s)
    (accepted' :
      (analyze required (({} : Builder).add file s.definitions).declarations).result = .ok s') :
    s'.definitions = s.definitions := by
  obtain ⟨sound, rfl⟩ := (analyze_eq_ok_iff_sound required (given buffer) s).mp accepted
  obtain ⟨sound', rfl⟩ := (analyze_eq_ok_iff_sound required
    ((Graph.described (given buffer)).reread file) s').mp accepted'
  exact sound.definitions_reread sound'

/-! A schema that is not written as it was declared: a wide integer inside an object whose entries
are out of order, a usage on a built-in scalar, and bindings and locations in another order. -/

def ledger : List Declaration := [
  .type { name := "Amount", body := .scalar },
  .directive {
    name := "unit", locations := [.scalar, .fieldDefinition]
    arguments := [{ name := "scale", type := .named "Amount" }] },
  .typeExtension { name := "Int", usages := [{ name := "unit" }], body := .scalar },
  .type {
    name := "Account"
    body := .object [] [{
      name := "balance", type := .nonNull (.named "Amount")
      arguments := [{
        name := "limit", type := .named "Amount"
        default := some (.object [("upper", .int 9000000000), ("lower", .int (-5))]) }]
      usages := [{ name := "unit", arguments := [("scale", .list [.int 4294967296])] }] }] },
  .type {
    name := "Booking"
    body := .object [] [{ name := "account", type := .named "Account" }] },
  .schema { mutation := some "Booking" },
  .schemaExtension { query := some "Account" }]

/-- The ledger is not narrow and a built-in scalar in it is not bare, and yet what is written of it
is written again. -/
theorem definitions_stable_ledger :
    ∃ s s', (analyze true (given (ledger.map (none, ·)))).result = .ok s ∧
      (analyze true (({} : Builder).add none s.definitions).declarations).result = .ok s' ∧
      (∃ v ∈ s.literals, ¬ v.Narrow) ∧
      (∃ d ∈ s.types.values, d.builtIn = true ∧ d.usages.length = 1) ∧
      s'.definitions = s.definitions := by
  obtain ⟨s, accepted, holds⟩ : ∃ s, (analyze true (given (ledger.map (none, ·)))).result = .ok s ∧
      decide ((∃ v ∈ s.literals, ¬ v.Narrow) ∧
        (∃ d ∈ s.types.values, d.builtIn = true ∧ d.usages.length = 1) ∧
        (analyze true (({} : Builder).add none s.definitions).declarations).result.toOption.any
          (fun _ => true) = true) = true :=
    exists_of_any (by decide +kernel)
  rw [decide_eq_true_iff] at holds
  obtain ⟨wide, dressed, again⟩ := holds
  obtain ⟨s', accepted', _⟩ := exists_of_any again
  exact ⟨s, s', accepted, accepted', wide, dressed,
    definitions_stable true (ledger.map (none, ·)) none s s' accepted accepted'⟩

end SchemaAtlas
