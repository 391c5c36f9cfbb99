import SchemaAtlas.Proofs.Merging
import SchemaAtlas.Proofs.Trimming

/-!
# Rejected declarations

A declaration that cannot be used is reported once and leaves no trace. Whether it can be used
depends on the others only through what they define: the kinds of the types, the names of the
directives and whether there is a schema block. The graph knows this at every moment, so a buffer
without the declaration gives the same graph and the same problems but one. The same holds for an
entry that repeats a name inside a declaration that is used.
-/

namespace SchemaAtlas

open Reported (Drops)

/-- The kind of the type that a declaration defines under a name. -/
def Sourced.definedKind? (name : String) (s : Sourced) : Option TypeKind :=
  match s.declaration with
  | .type x => if name = x.name then some x.body.kind else none
  | _ => none

/-- The kind of a type by its first definition. -/
def definedKind? (ds : List Sourced) (name : String) : Option TypeKind :=
  ds.findSome? (Sourced.definedKind? name)

/-- One of the declarations `all`, with `before` in front of it, is rejected as a whole and reported
once. Definitions are rejected for what comes before them, and extensions, which are read last, for
what is there at all. -/
inductive Rejected (before all : List Sourced) : Sourced → Diagnostic → Prop
  | type {origin : Origin} {x : TypeDecl} (taken : (definedKind? before x.name).isSome = true) :
    Rejected before all ⟨origin, .type x⟩
      ⟨.duplicateType x.name, some (origin.locate x.pos), .type x.body.kind x.name⟩
  | directive {origin : Origin} {x : DirectiveDecl}
    (taken : x.name ∈ before.filterMap Sourced.directiveName?) :
    Rejected before all ⟨origin, .directive x⟩
      ⟨.duplicateDirective x.name, some (origin.locate x.pos), .directive x.name⟩
  | schema {origin : Origin} {x : SchemaDecl}
    (taken : before.filterMap Sourced.schemaDefinition? ≠ []) :
    Rejected before all ⟨origin, .schema x⟩
      ⟨.duplicateSchema, some (origin.locate x.pos), .schema⟩
  | schemaless {origin : Origin} {x : SchemaDecl}
    (missing : all.filterMap Sourced.schemaDefinition? = []) :
    Rejected before all ⟨origin, .schemaExtension x⟩
      ⟨.schemaExtensionWithoutSchema, some (origin.locate x.pos), .schema⟩
  | emptySchema {origin : Origin} {x : SchemaDecl}
    (present : all.filterMap Sourced.schemaDefinition? ≠ []) (usages : x.usages = [])
    (bindings : x.bindings = []) :
    Rejected before all ⟨origin, .schemaExtension x⟩
      ⟨.emptyExtension .schema, some (origin.locate x.pos), .schema⟩
  | undefined {origin : Origin} {x : TypeExtension} (missing : definedKind? all x.name = none) :
    Rejected before all ⟨origin, .typeExtension x⟩
      ⟨.extensionOfUndefinedType x.body.kind x.name, some (origin.locate x.pos),
        .type x.body.kind x.name⟩
  | otherKind {origin : Origin} {x : TypeExtension} {kind : TypeKind}
    (found : definedKind? all x.name = some kind) (other : kind ≠ x.body.kind) :
    Rejected before all ⟨origin, .typeExtension x⟩
      ⟨.extensionKindMismatch kind x.body.kind x.name, some (origin.locate x.pos),
        .type x.body.kind x.name⟩
  | empty {origin : Origin} {x : TypeExtension}
    (found : definedKind? all x.name = some x.body.kind) (usages : x.usages = [])
    (body : x.body.isEmpty = true) :
    Rejected before all ⟨origin, .typeExtension x⟩
      ⟨.emptyExtension (.type x.body.kind x.name), some (origin.locate x.pos),
        .type x.body.kind x.name⟩

/-! What a graph knows of the declarations that have been collected. -/

namespace Graph

structure Knows (g : Graph) (ds : List Sourced) : Prop where
  types : ∀ name, (g.types.get? name).map TypeDef.kind = definedKind? ds name
  directives : ∀ name, g.directives.contains name = true ↔
    name ∈ ds.filterMap Sourced.directiveName?
  block : g.block = none ↔ ds.filterMap Sourced.schemaDefinition? = []

theorem knows_nil : ({} : Graph).Knows [] where
  types _ := rfl
  directives := by simp [Table.contains]
  block := by simp

theorem collectBody_kind (origin : Origin) (location : SourceLocation) (type : ElementPath)
    (b : BodyDecl) : (Collect.body origin location type b).value.kind = b.kind := by
  cases b <;> rfl

variable {g : Graph} {ds : List Sourced}

theorem Knows.types_contains (knows : g.Knows ds) (name : String) :
    g.types.contains name = (definedKind? ds name).isSome := by
  rw [Table.contains_eq_isSome, ← knows.types, Option.isSome_map]

/-- What one more declaration adds to the knowledge. -/
theorem Knows.concat (knows : g.Knows ds) {next : Graph} {s : Sourced}
    (types : ∀ name, (next.types.get? name).map TypeDef.kind =
      ((g.types.get? name).map TypeDef.kind).or (s.definedKind? name))
    (directives : ∀ name, next.directives.contains name = true ↔
      g.directives.contains name = true ∨ s.directiveName? = some name)
    (block : next.block = none ↔ g.block = none ∧ s.schemaDefinition? = none) :
    next.Knows (ds ++ [s]) where
  types name := by
    rw [types, knows.types]
    simp [definedKind?, List.findSome?_append]
  directives name := by
    rw [directives, knows.directives, List.filterMap_append, List.mem_append]
    simp
  block := by
    rw [block, knows.block, List.filterMap_append, List.append_eq_nil_iff]
    simp

theorem Knows.defineType (knows : g.Knows ds) (origin : Origin) (x : TypeDecl) :
    (g.defineType origin x).value.Knows (ds ++ [⟨origin, .type x⟩]) := by
  by_cases taken : g.types.contains x.name = true
  · have kept : (g.defineType origin x).value = g := by simp [Graph.defineType, taken]
    rw [kept]
    refine knows.concat (fun name => ?_) (by simp [Sourced.directiveName?])
      (by simp [Sourced.schemaDefinition?])
    by_cases same : name = x.name
    · rw [Table.contains_eq_isSome, Option.isSome_iff_exists] at taken
      obtain ⟨old, found⟩ := taken
      simp [same, found]
    · simp [Sourced.definedKind?, same]
  · rw [defineType_value g origin x (mt (g.types.contains_iff_mem x.name).mpr taken)]
    refine knows.concat (fun name => ?_) (by simp [Sourced.directiveName?])
      (by simp [Sourced.schemaDefinition?])
    rw [Table.get?_push, Option.map_or]
    congr 1
    by_cases same : name = x.name
    · simp [Sourced.definedKind?, same, Collect.typeDef, TypeDef.kind, collectBody_kind]
    · simp [Sourced.definedKind?, same]

theorem Knows.defineDirective (knows : g.Knows ds) (origin : Origin) (x : DirectiveDecl) :
    (g.defineDirective origin x).value.Knows (ds ++ [⟨origin, .directive x⟩]) := by
  by_cases taken : g.directives.contains x.name = true
  · have kept : (g.defineDirective origin x).value = g := by simp [Graph.defineDirective, taken]
    rw [kept]
    refine knows.concat (by simp [Sourced.definedKind?]) (fun name => ?_)
      (by simp [Sourced.schemaDefinition?])
    constructor
    · exact .inl
    · rintro (old | same)
      · exact old
      · cases same
        exact taken
  · rw [defineDirective_value g origin x (mt (g.directives.contains_iff_mem x.name).mpr taken)]
    refine knows.concat (by simp [Sourced.definedKind?]) (fun name => ?_)
      (by simp [Sourced.schemaDefinition?])
    rw [Table.contains_iff_mem, Table.contains_iff_mem, Table.keys_push, List.mem_append,
      List.mem_singleton]
    exact or_congr_right
      ⟨fun same => congrArg some same.symm, fun same => (Option.some.inj same).symm⟩

theorem Knows.defineSchema (knows : g.Knows ds) (origin : Origin) (x : SchemaDecl) :
    (g.defineSchema origin x).value.Knows (ds ++ [⟨origin, .schema x⟩]) := by
  refine knows.concat ?_ ?_ ?_ <;> cases block : g.block <;>
    simp [Graph.defineSchema, block, Sourced.definedKind?, Sourced.directiveName?,
      Sourced.schemaDefinition?]

/-- Each step of collecting definitions keeps the knowledge up to date. -/
theorem Knows.define (knows : g.Knows ds) (s : Sourced) :
    (g.define s).value.Knows (ds ++ [s]) := by
  obtain ⟨origin, declaration⟩ := s
  cases declaration with
  | type x => exact knows.defineType origin x
  | directive x => exact knows.defineDirective origin x
  | schema x => exact knows.defineSchema origin x
  | _ =>
    exact knows.concat (by simp [Graph.define, Sourced.definedKind?])
      (by simp [Graph.define, Sourced.directiveName?])
      (by simp [Graph.define, Sourced.schemaDefinition?])

theorem knows_defined (ds : List Sourced) : (Reported.through define {} ds).value.Knows ds :=
  Reported.through_follows (fun _ _ s _ knows => knows.define s) knows_nil

/-- Extensions define nothing. -/
theorem Knows.extend (knows : g.Knows ds) (s : Sourced) : (g.extend s).value.Knows ds := by
  have directives : ∀ name, (g.extend s).value.directives.contains name = true ↔
      name ∈ ds.filterMap Sourced.directiveName? := by
    rw [extend_directives]
    exact knows.directives
  obtain ⟨origin, declaration⟩ := s
  cases declaration with
  | typeExtension x =>
    refine ⟨fun name => ?_, directives, ?_⟩
    · rw [← knows.types]
      simp only [Graph.extend, extendType]
      split
      · rfl
      · next old found =>
        split
        · rfl
        · split
          · rfl
          · simp only [Reported.bind_value, Reported.pure_value, Table.get?_modify]
            by_cases same : name = x.name
            · simp [same, found, TypeDef.kind, extendBody_kind]
            · simp [same]
    · rw [← knows.block]
      simp only [Graph.extend, extendType]
      split
      · rfl
      · split
        · rfl
        · split <;> rfl
  | schemaExtension x =>
    refine ⟨fun name => ?_, directives, ?_⟩
    · rw [← knows.types]
      simp only [Graph.extend, extendSchema]
      split
      · rfl
      · simp only [Reported.bind_value]
        split <;> rfl
    · rw [← knows.block]
      simp only [Graph.extend, extendSchema]
      split
      · next missing => simp [missing]
      · next old found =>
        simp only [Reported.bind_value]
        split <;> simp [found]
  | _ => exact knows

theorem Knows.extended (knows : g.Knows ds) (exts : List Sourced) :
    (Reported.through Graph.extend g exts).value.Knows ds :=
  Reported.through_preserves (P := fun g : Graph => g.Knows ds)
    (fun _ s _ known => known.extend s) knows

/-! A rejected declaration leaves a graph as it is and reports its one problem. -/

theorem define_of_rejected {before all : List Sourced} {s : Sourced} {d : Diagnostic}
    (rejected : Rejected before all s d) (definition : s.declaration.isExtension = false)
    (knows : g.Knows before) : (g.define s).value = g ∧ (g.define s).problems = [d] := by
  cases rejected with
  | type taken =>
    rw [← knows.types_contains] at taken
    simp only [define, Graph.defineType, taken, if_true]
    exact ⟨rfl, rfl⟩
  | directive taken =>
    rw [← knows.directives] at taken
    simp only [define, Graph.defineDirective, taken, if_true]
    exact ⟨rfl, rfl⟩
  | schema taken =>
    have block : g.block.isSome = true := by
      rwa [Option.isSome_iff_ne_none, ne_eq, knows.block]
    simp only [define, Graph.defineSchema, block, if_true]
    exact ⟨rfl, rfl⟩
  | _ => cases definition

theorem extend_of_rejected {before all : List Sourced} {s : Sourced} {d : Diagnostic}
    (rejected : Rejected before all s d) (extension : s.declaration.isExtension = true)
    (knows : g.Knows all) : (g.extend s).value = g ∧ (g.extend s).problems = [d] := by
  cases rejected with
  | schemaless missing =>
    rw [← knows.block] at missing
    simp only [Graph.extend, extendSchema, missing]
    exact ⟨rfl, rfl⟩
  | emptySchema present usages bindings =>
    rw [ne_eq, ← knows.block] at present
    obtain ⟨block, found⟩ := Option.ne_none_iff_exists'.mp present
    simp only [Graph.extend, extendSchema, found, usages, Collect.bindings, bindings]
    exact ⟨rfl, rfl⟩
  | undefined missing =>
    rw [← knows.types, Option.map_eq_none_iff] at missing
    simp only [Graph.extend, extendType, missing]
    exact ⟨rfl, rfl⟩
  | otherKind found other =>
    rw [← knows.types, Option.map_eq_some_iff] at found
    obtain ⟨old, found, rfl⟩ := found
    simp only [Graph.extend, extendType, found, ne_eq, other, not_false_eq_true, if_true]
    exact ⟨rfl, rfl⟩
  | empty found usages body =>
    rw [← knows.types, Option.map_eq_some_iff] at found
    obtain ⟨old, found, kind⟩ := found
    simp only [Graph.extend, extendType, found, kind, ne_eq, not_true_eq_false, if_false,
      TypeExtension.isEmpty, usages, body, List.isEmpty_nil, Bool.and_self, if_true]
    exact ⟨rfl, rfl⟩
  | _ => cases extension

/-! A declaration that is used, with one entry less. -/

theorem drops_define {before all : List Sourced} {origin : Origin} {x x' : Declaration}
    {d : Diagnostic} (trims : x.Trims origin x' d) (definition : x.isExtension = false)
    (used : ∀ e, ¬ Rejected before all ⟨origin, x⟩ e) (knows : g.Knows before) :
    Drops d (g.define ⟨origin, x⟩) (g.define ⟨origin, x'⟩) := by
  have typeFree (y : TypeDecl) (own : x = .type y) : g.types.contains y.name = false := by
    rw [← Bool.not_eq_true, knows.types_contains]
    subst own
    exact fun taken => used _ (.type taken)
  have directiveFree (y : DirectiveDecl) (own : x = .directive y) :
      g.directives.contains y.name = false := by
    rw [← Bool.not_eq_true, knows.directives]
    subst own
    exact fun taken => used _ (.directive taken)
  cases trims with
  | @typeUsages y us d trims =>
    simp only [define, Graph.defineType, typeFree y rfl]
    exact (Collect.drops_usages trims).bind _
  | @typeBody y body d trims =>
    simp only [define, Graph.defineType, typeFree y rfl, trims.kind]
    exact .after _ ((Collect.drops_body trims).bind _)
  | @directiveLocations y ls d repeats =>
    simp only [define, Graph.defineDirective, directiveFree y rfl]
    exact (Collect.drops_locations repeats).bind _
  | @directiveArguments y vs d trims =>
    simp only [define, Graph.defineDirective, directiveFree y rfl]
    exact .after _ ((Collect.drops_inputValues trims).bind _)
  | @schemaUsages y us d trims =>
    have free : g.block.isSome = false := by
      rw [Option.isSome_eq_false_iff, Option.isNone_iff_eq_none, knows.block]
      by_contra taken
      exact used _ (.schema taken)
    simp only [define, Graph.defineSchema, free]
    exact (Collect.drops_usages trims).bind _
  | _ => cases definition

/-- The type that a used extension is merged into. -/
theorem exists_extended {before all : List Sourced} {origin : Origin} {x : TypeExtension}
    (used : ∀ e, ¬ Rejected before all ⟨origin, .typeExtension x⟩ e) (knows : g.Knows all) :
    (∃ old, g.types.get? x.name = some old ∧ old.kind = x.body.kind) ∧ x.isEmpty = false := by
  cases defined : definedKind? all x.name with
  | none => exact (used _ (.undefined defined)).elim
  | some kind =>
    have same : kind = x.body.kind := by
      by_contra other
      exact used _ (.otherKind defined other)
    subst same
    refine ⟨?_, ?_⟩
    · rw [← knows.types, Option.map_eq_some_iff] at defined
      exact defined
    · rw [← Bool.not_eq_true, TypeExtension.isEmpty, Bool.and_eq_true, List.isEmpty_iff]
      rintro ⟨usages, body⟩
      exact used _ (.empty defined usages body)

theorem drops_extend {before all : List Sourced} {origin : Origin} {x x' : Declaration}
    {d : Diagnostic} (trims : x.Trims origin x' d) (extension : x.isExtension = true)
    (used : ∀ e, ¬ Rejected before all ⟨origin, x⟩ e) (knows : g.Knows all) :
    Drops d (g.extend ⟨origin, x⟩) (g.extend ⟨origin, x'⟩) := by
  cases trims with
  | @extensionUsages y us d trims =>
    obtain ⟨⟨old, found, kind⟩, content⟩ := exists_extended used knows
    have content' : ({ y with usages := us } : TypeExtension).isEmpty = false := by
      rw [← content, TypeExtension.isEmpty, TypeExtension.isEmpty, trims.isEmpty]
    simp only [Graph.extend, extendType, found, kind, ne_eq, not_true_eq_false, if_false, content,
      content', Bool.false_eq_true]
    exact .after _ ((Collect.drops_usages trims).bind _)
  | @extensionBody y body d trims =>
    obtain ⟨⟨old, found, kind⟩, content⟩ := exists_extended used knows
    have content' : ({ y with body } : TypeExtension).isEmpty = false := by
      rw [← content, TypeExtension.isEmpty, TypeExtension.isEmpty, trims.isEmpty]
    simp only [Graph.extend, extendType, found, kind, trims.kind, ne_eq, not_true_eq_false,
      if_false, content, content', Bool.false_eq_true]
    exact .after _ (.after _ ((Extend.drops_body trims kind).bind _))
  | @schemaExtensionUsages y us d trims =>
    have present : g.block ≠ none := by
      rw [ne_eq, knows.block]
      exact fun missing => used _ (.schemaless missing)
    obtain ⟨block, found⟩ := Option.ne_none_iff_exists'.mp present
    simp only [Graph.extend, extendSchema, found]
    exact (Collect.drops_usages trims).bind _
  | _ => cases extension

/-! Both runs of collecting go over the whole buffer, since each leaves alone what the other is
for. -/

theorem define_extension (g : Graph) (s : Sourced) (extension : s.declaration.isExtension = true) :
    g.define s = pure g := by
  obtain ⟨origin, declaration⟩ := s
  cases declaration <;> first | rfl | cases extension

theorem extend_definition (g : Graph) (s : Sourced)
    (definition : s.declaration.isExtension = false) : g.extend s = pure g := by
  obtain ⟨origin, declaration⟩ := s
  cases declaration <;> first | rfl | cases definition

def collectBoth (ds : List Sourced) : Reported Graph := do
  let defined ← Reported.through define {} ds
  Reported.through extend defined ds

theorem collect_eq_both (ds : List Sourced) :
    (collect ds).value = (collectBoth ds).value ∧
      (collect ds).problems = (collectBoth ds).problems := by
  have definitions (g : Graph) :
      Reported.through define g (ds.filter fun s => !s.declaration.isExtension) =
        Reported.through define g ds :=
    Reported.through_filter (fun g s left => define_extension g s (by simpa using left)) g ds
  have extensions (g : Graph) :
      Reported.through extend g (ds.filter fun s => s.declaration.isExtension) =
        Reported.through extend g ds :=
    Reported.through_filter extend_definition g ds
  simp only [collect, collectBoth, Reported.summarize_value, Reported.summarize_problems,
    definitions, extensions, and_self]

theorem drops_collect {d : Diagnostic} {ds ds' : List Sourced}
    (drops : Drops d (collectBoth ds) (collectBoth ds')) : Drops d (collect ds) (collect ds') := by
  constructor
  · rw [(collect_eq_both ds).1, (collect_eq_both ds').1]
    exact drops.value
  · rw [(collect_eq_both ds).2, (collect_eq_both ds').2]
    exact drops.problems

variable {before after : List Sourced} {d : Diagnostic}

theorem drops_collect_rejected {s : Sourced}
    (rejected : Rejected before (before ++ s :: after) s d) :
    Drops d (collect (before ++ s :: after)) (collect (before ++ after)) := by
  apply drops_collect
  cases kind : s.declaration.isExtension with
  | false =>
    obtain ⟨idle, told⟩ := define_of_rejected rejected kind (knows_defined before)
    have unread (g : Graph) := Reported.through_skip (fun g => extend_definition g s kind) g
      before after
    simp only [collectBoth, unread]
    exact (Reported.drops_through_step told idle after).bind _
  | true =>
    have unread := Reported.through_skip (fun g => define_extension g s kind) {} before after
    have knows := (knows_defined (before ++ s :: after)).extended before
    rw [unread] at knows
    obtain ⟨idle, told⟩ := extend_of_rejected rejected kind knows
    rw [collectBoth, collectBoth, unread]
    exact .after _ (Reported.drops_through_step told idle after)

theorem isExtension_of_trims {origin : Origin} {x x' : Declaration} (trims : x.Trims origin x' d) :
    x'.isExtension = x.isExtension := by
  cases trims <;> rfl

theorem drops_collect_trimmed {origin : Origin} {x x' : Declaration}
    (used : ∀ e, ¬ Rejected before (before ++ ⟨origin, x⟩ :: after) ⟨origin, x⟩ e)
    (trims : x.Trims origin x' d) :
    Drops d (collect (before ++ ⟨origin, x⟩ :: after))
      (collect (before ++ ⟨origin, x'⟩ :: after)) := by
  have kind' := isExtension_of_trims trims
  apply drops_collect
  cases kind : x.isExtension with
  | false =>
    rw [kind] at kind'
    have unread (y : Declaration) (definition : y.isExtension = false) (g : Graph) :=
      Reported.through_skip (fun g => extend_definition g ⟨origin, y⟩ definition) g before after
    simp only [collectBoth, unread x kind, unread x' kind']
    have step := drops_define trims kind used (knows_defined before)
    exact (Reported.drops_through step after).bind _
  | true =>
    rw [kind] at kind'
    have unread (y : Declaration) (extension : y.isExtension = true) :=
      Reported.through_skip (fun g => define_extension g ⟨origin, y⟩ extension) {} before after
    have knows := (knows_defined (before ++ ⟨origin, x⟩ :: after)).extended before
    rw [unread x kind] at knows
    rw [collectBoth, collectBoth, unread x kind, unread x' kind']
    exact .after _ (Reported.drops_through (drops_extend trims kind used knows) after)

end Graph

/-- A buffer without one declaration that is rejected, or without one repeated entry of a
declaration that is used. What is built in stands before the buffer. -/
inductive Erases : List Sourced → List Sourced → Diagnostic → Prop
  | declaration (before : List Sourced) {s : Sourced} (after : List Sourced) {d : Diagnostic}
    (rejected : Rejected (BuiltIn.declarations ++ before)
      (BuiltIn.declarations ++ before ++ s :: after) s d) :
    Erases (before ++ s :: after) (before ++ after) d
  | entry (before : List Sourced) {origin : Origin} {x x' : Declaration} (after : List Sourced)
    {d : Diagnostic}
    (used : ∀ e, ¬ Rejected (BuiltIn.declarations ++ before)
      (BuiltIn.declarations ++ before ++ ⟨origin, x⟩ :: after) ⟨origin, x⟩ e)
    (trims : x.Trims origin x' d) :
    Erases (before ++ ⟨origin, x⟩ :: after) (before ++ ⟨origin, x'⟩ :: after) d

namespace Erases

variable {ds ds' : List Sourced} {d : Diagnostic}

theorem drops (erases : Erases ds ds' d) :
    Drops d (Graph.collect (BuiltIn.declarations ++ ds))
      (Graph.collect (BuiltIn.declarations ++ ds')) := by
  cases erases with
  | declaration before after rejected =>
    rw [← List.append_assoc, ← List.append_assoc]
    exact Graph.drops_collect_rejected rejected
  | entry before after used trims =>
    rw [← List.append_assoc, ← List.append_assoc]
    exact Graph.drops_collect_trimmed used trims

theorem noExecutable (erases : Erases ds ds' d) (absent : firstExecutable? ds = none) :
    firstExecutable? ds' = none := by
  rw [firstExecutable?, List.findSome?_eq_none_iff] at absent ⊢
  intro s member
  cases erases with
  | declaration before after rejected =>
    refine absent s ?_
    rw [List.mem_append] at member ⊢
    exact member.imp_right (List.mem_cons_of_mem _)
  | entry before after used trims =>
    rw [List.mem_append, List.mem_cons] at member
    rcases member with front | rfl | back
    · exact absent s (List.mem_append_left _ front)
    · cases trims <;> rfl
    · exact absent s (List.mem_append_right _ (List.mem_cons_of_mem _ back))

end Erases

/-- A rejected declaration and a repeated entry leave no trace but their one problem: without them
the collected graph is the same, and so is the report up to this problem. -/
theorem rejected_without_trace (required : Bool) (ds ds' : List Sourced) (d : Diagnostic)
    (noExecutable : firstExecutable? ds = none) (erases : Erases ds ds' d) :
    Graph.described ds' = Graph.described ds ∧
      Removes d (analyze required ds).problems (analyze required ds').problems := by
  have dropped := erases.drops
  have same : Graph.described ds' = Graph.described ds := dropped.value
  refine ⟨same, ?_⟩
  rw [analyze_problems required noExecutable,
    analyze_problems required (erases.noExecutable noExecutable), analyzeGraph_problems,
    analyzeGraph_problems, same]
  exact dropped.problems.append_right _

/-- A second definition of `Book`. -/
def secondBook : Sourced := ⟨.given none, .type { name := "Book", body := .scalar }⟩

/-- A new field of the shop, deprecated for the given reasons. -/
def oldestBook (reasons : List String) : Sourced :=
  ⟨.given none, .typeExtension {
    name := "Shop"
    body := .object [] [{
      name := "oldest", type := .named "Node"
      usages := [{
        name := "deprecated", arguments := reasons.map fun r => ("reason", .string r) }] }] }⟩

def secondReason : Diagnostic :=
  let field := (ElementPath.type .object "Shop").child (.field "oldest")
  ⟨.duplicateUsageArgument "reason" "deprecated" field, some ((Origin.given none).locate {}),
    (field.child (.usage "deprecated")).child (.argument "reason")⟩

/-- The second book is rejected, and of two reasons the second one is left out, deep inside an
extension that is used. -/
theorem rejected_without_trace_bookshop :
    (analyze true (given bookshop ++ [secondBook])).problems =
      [⟨.duplicateType "Book", some secondBook.location, .type .scalar "Book"⟩] ∧
    (analyze true (given bookshop ++ [oldestBook ["sold", "lost"]])).problems = [secondReason] ∧
    Graph.described (given bookshop ++ [oldestBook ["sold"]]) =
      Graph.described (given bookshop ++ [oldestBook ["sold", "lost"]]) := by
  constructor
  · have erases : Erases (given bookshop ++ [secondBook]) (given bookshop ++ [])
        ⟨.duplicateType "Book", some secondBook.location, .type .scalar "Book"⟩ :=
      .declaration (given bookshop) [] (.type (by decide +kernel))
    have removes := (rejected_without_trace true _ _ _ rfl erases).2
    have silent : (analyze true (given bookshop ++ [])).problems = [] := by decide +kernel
    rw [silent] at removes
    exact removes.eq_singleton
  · have known : definedKind? (BuiltIn.declarations ++ given bookshop ++
        [oldestBook ["sold", "lost"]]) "Shop" = some .object := by decide +kernel
    have repeats : Repeats Prod.fst
        (duplicateArgument (.given none) ((ElementPath.type .object "Shop").child (.field "oldest"))
          { name := "deprecated" })
        [("reason", .string "sold"), ("reason", .string "lost")] [("reason", .string "sold")]
        secondReason :=
      .intro [("reason", Value.string "sold")] ("reason", Value.string "lost") [] (by simp)
    have trims : (oldestBook ["sold", "lost"]).declaration.Trims (.given none)
        (oldestBook ["sold"]).declaration secondReason :=
      .extensionBody (.object (.within [] [] (by simp)
        (.usages (.intro [] [] (.arguments repeats)))))
    have erases : Erases (given bookshop ++ [oldestBook ["sold", "lost"]])
        (given bookshop ++ [oldestBook ["sold"]]) secondReason := by
      refine .entry (given bookshop) [] (fun e rejected => ?_) trims
      cases rejected with
      | undefined missing => cases known.symm.trans missing
      | otherKind found other =>
        cases known.symm.trans found
        exact other rfl
      | empty _ _ body => cases body
    obtain ⟨same, removes⟩ := rejected_without_trace true _ _ _ rfl erases
    have silent : (analyze true (given bookshop ++ [oldestBook ["sold"]])).problems = [] := by
      decide +kernel
    rw [silent] at removes
    exact ⟨removes.eq_singleton, same⟩

end SchemaAtlas
