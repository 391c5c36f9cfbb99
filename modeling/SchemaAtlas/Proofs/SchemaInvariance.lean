import SchemaAtlas.Proofs.References
import SchemaAtlas.Proofs.RuleInvariance

/-!
# Schemas of matching graphs

Matching graphs imply corresponding roots and give corresponding schemas: the same types and
directives at exchanged positions, with the same marks and the same references up to their order.
-/

namespace SchemaAtlas

/-- A type and the same type relabelled, with all that the analysis adds; references may come in
another order. -/
structure TypeDef.Corresponds (r : Relabeling) (d d' : TypeDef) : Prop
    extends TypeDef.Alike r d d' where
  references : d'.references.Perm (d.references.map r.reference)
  rooted : d'.rooted = d.rooted

structure DirectiveDef.Corresponds (r : Relabeling) (d d' : DirectiveDef) : Prop
    extends DirectiveDef.Alike r d d' where
  references : d'.references.Perm (d.references.map r.usageId)

namespace Graph.Matches

variable {r : Relabeling} {g h : Graph}

section References

theorem mem_typeReferences (m : g.Matches r h) (fresh : g.Fresh) (fresh' : h.Fresh) (t : TypeId)
    (x : Reference) :
    (r.type t, r.reference x) ∈ h.typeReferences ↔ (t, x) ∈ g.typeReferences := by
  rw [Graph.mem_typeReferences, Graph.mem_typeReferences]
  refine exists_congr fun name => ?_
  rw [mem_sites_iff fresh', mem_sites_iff fresh, m.typeId?]
  refine and_congr (m.namedAt (.type x) name) ?_
  simp

theorem mem_usageReferences (m : g.Matches r h) (fresh : g.Fresh) (fresh' : h.Fresh)
    (id : DirectiveId) (u : UsageId) :
    (r.directive id, r.usageId u) ∈ h.usageReferences ↔ (id, u) ∈ g.usageReferences := by
  rw [Graph.mem_usageReferences, Graph.mem_usageReferences]
  refine exists_congr fun name => ?_
  rw [mem_sites_iff fresh', mem_sites_iff fresh, m.directiveId?]
  refine and_congr (m.namedAt (.usage u) name) ?_
  simp

theorem mem_referencesOf_type (m : g.Matches r h) (fresh : g.Fresh) (fresh' : h.Fresh)
    (t : TypeId) (y : Reference) :
    y ∈ referencesOf (r.type t) h.typeReferences ↔
      y ∈ (referencesOf t g.typeReferences).map r.reference := by
  rw [mem_referencesOf, List.mem_map]
  constructor
  · intro member
    rw [← r.reference_back y] at member
    exact ⟨_, mem_referencesOf.mpr ((m.mem_typeReferences fresh fresh' t _).mp member),
      r.reference_back y⟩
  · rintro ⟨x, member, rfl⟩
    exact (m.mem_typeReferences fresh fresh' t x).mpr (mem_referencesOf.mp member)

theorem mem_referencesOf_directive (m : g.Matches r h) (fresh : g.Fresh) (fresh' : h.Fresh)
    (id : DirectiveId) (y : UsageId) :
    y ∈ referencesOf (r.directive id) h.usageReferences ↔
      y ∈ (referencesOf id g.usageReferences).map r.usageId := by
  rw [mem_referencesOf, List.mem_map]
  constructor
  · intro member
    rw [← r.usageId_back y] at member
    exact ⟨_, mem_referencesOf.mpr ((m.mem_usageReferences fresh fresh' id _).mp member),
      r.usageId_back y⟩
  · rintro ⟨x, member, rfl⟩
    exact (m.mem_usageReferences fresh fresh' id x).mpr (mem_referencesOf.mp member)

end References

section Roots

/-- What is asked of the type with a given name is asked of it in both graphs. -/
theorem forall_named (m : g.Matches r h) (name : String) (P P' : TypeId → TypeDef → Prop)
    (same : ∀ t d d', g.typeAt? t = some d → h.typeAt? (r.type t) = some d' → d.Alike r d' →
      (P' (r.type t) d' ↔ P t d)) :
    (∀ t d, h.typeId? name = some t → h.typeAt? t = some d → P' t d) ↔
      ∀ t d, g.typeId? name = some t → g.typeAt? t = some d → P t d := by
  rw [m.typeId?]
  cases g.typeId? name with
  | none => simp
  | some t =>
    constructor
    · intro all t' d sameId found
      cases sameId
      obtain ⟨d', found', alike⟩ := m.typeAt?_left found
      exact (same t d d' found found' alike).mp (all _ d' rfl found')
    · intro all t' d' sameId found'
      cases sameId
      obtain ⟨d, found, alike⟩ := m.typeAt?_right found'
      exact (same t d d' found found' alike).mpr (all t d rfl found)

/-- The references of a linked type in both graphs. -/
theorem mem_linked_references (m : g.Matches r h) (fresh : g.Fresh) (fresh' : h.Fresh)
    {t : TypeId} {d d' : TypeDef} (found : g.linked.typeAt? t = some d)
    (found' : h.linked.typeAt? (r.type t) = some d') (y : Reference) :
    y ∈ d'.references ↔ y ∈ d.references.map r.reference := by
  have none : ∀ (k : Graph), k.Fresh → ∀ u e, k.linked.typeAt? u = some e →
      e.references = referencesOf u k.typeReferences := by
    intro k kf u e entry
    rw [linked_typeAt?, Option.map_eq_some_iff] at entry
    obtain ⟨e₀, collected, rfl⟩ := entry
    obtain ⟨⟨name, _⟩, at_u, rfl⟩ := Option.map_eq_some_iff.mp collected
    have started := (kf.types.each _ ((Table.mem_entries_iff _ _).mpr ⟨_, at_u⟩)).references
    rw [Names.linkType, started, List.nil_append]
  rw [none h fresh' _ d' found', none g fresh t d found]
  exact m.mem_referencesOf_type fresh fresh' t y

theorem namesSound (m : g.Matches r h) (fresh : g.Fresh) (fresh' : h.Fresh) (required : Bool) :
    h.linked.NamesSound required ↔ g.linked.NamesSound required := by
  have objects := fun kind : OperationKind => m.linked.forall_named kind.defaultTypeName
    (fun _ d => d.isObject = true) (fun _ d => d.isObject = true)
    (fun t d d' _ _ alike => by rw [alike.isObject])
  have unreferenced := fun kind : OperationKind => m.linked.forall_named kind.defaultTypeName
    (fun t d => ∀ x ∈ d.references, x.site.owningType? = some t)
    (fun t d => ∀ x ∈ d.references, x.site.owningType? = some t)
    (fun t d d' found found' _ => by
      simp [m.mem_linked_references fresh fresh' found found', Relabeling.reference])
  have names : ∀ name, h.linked.typeId? name = (g.linked.typeId? name).map r.type :=
    m.linked.typeId?
  constructor
  · intro sound
    refine ⟨fun kind => (objects kind).mp (sound.objects kind),
      fun kind => (unreferenced kind).mp (sound.unreferenced kind), ?_⟩
    simpa [names] using sound.query
  · intro sound
    refine ⟨fun kind => (objects kind).mpr (sound.objects kind),
      fun kind => (unreferenced kind).mpr (sound.unreferenced kind), ?_⟩
    simpa [names] using sound.query

theorem blockSound (m : g.Matches r h) (b b' : SchemaBlock) (alike : b.Alike r b') :
    h.BlockSound b' ↔ g.BlockSound b := by
  have kinds : (b'.operations.map OperationBinding.kind).Perm
      (b.operations.map OperationBinding.kind) := by
    simpa [Relabeling.binding, Function.comp_def] using
      alike.operations.map OperationBinding.kind
  have types : (b'.operations.map fun o => o.type.target).Perm
      ((b.operations.map fun o => o.type.target).map (Option.map r.type)) := by
    simpa [Relabeling.binding, Function.comp_def] using
      alike.operations.map fun o => o.type.target
  have objects : (∀ o ∈ b'.operations, ∀ t d, h.resolve o.type = some (t, d) →
        d.isObject = true) ↔
      ∀ o ∈ b.operations, ∀ t d, g.resolve o.type = some (t, d) → d.isObject = true := by
    simp only [alike.operations.mem_iff, List.forall_mem_map]
    refine forall₂_congr fun o _ => ?_
    have related := m.resolve o.type
    simp only [Relabeling.binding]
    generalize g.resolve o.type = source at related
    generalize h.resolve (r.ref o.type) = image at related
    cases related with
    | none => simp
    | @some e e' both =>
      obtain ⟨t, d⟩ := e
      obtain ⟨t', d'⟩ := e'
      have object : d'.isObject = d.isObject := both.2.isObject
      simp [object]
  constructor
  · intro sound
    exact ⟨kinds.nodup_iff.mp sound.kinds,
      ((types.nodup_iff.mp sound.types).of_map _), objects.mp sound.objects,
      kinds.mem_iff.mp sound.query⟩
  · intro sound
    exact ⟨kinds.nodup_iff.mpr sound.kinds,
      types.nodup_iff.mpr (sound.types.map (Option.map_injective r.type.injective)),
      objects.mpr sound.objects, kinds.mem_iff.mpr sound.query⟩

theorem rootSound (m : g.Matches r h) (fresh : g.Fresh) (fresh' : h.Fresh) (required : Bool) :
    h.linked.RootSound required ↔ g.linked.RootSound required := by
  have names := m.namesSound fresh fresh' required
  have blocks := m.linked.blockSound
  have related := m.linked.block
  simp only [RootSound]
  generalize g.linked.block = source at related
  generalize h.linked.block = image at related
  cases related with
  | none => exact names
  | some alike => exact blocks _ _ alike

/-- An operation is bound alike in both blocks. -/
theorem operation? {b b' : SchemaBlock} (alike : b.Alike r b')
    (kinds : (b.operations.map OperationBinding.kind).Nodup) (kind : OperationKind) :
    b'.operation? kind = (b.operation? kind).map r.binding := by
  have same : (b'.operations.map OperationBinding.kind).Perm
      (b.operations.map OperationBinding.kind) := by
    simpa [Relabeling.binding, Function.comp_def] using
      alike.operations.map OperationBinding.kind
  have kinds' := same.nodup_iff.mpr kinds
  apply Option.ext
  intro o'
  rw [operation?_eq_some_iff kinds', Option.map_eq_some_iff, alike.operations.mem_iff,
    List.mem_map]
  constructor
  · rintro ⟨⟨o, member, rfl⟩, bound⟩
    exact ⟨o, (operation?_eq_some_iff kinds kind o).mpr ⟨member, bound⟩, rfl⟩
  · rintro ⟨o, found, rfl⟩
    obtain ⟨member, bound⟩ := (operation?_eq_some_iff kinds kind o).mp found
    exact ⟨⟨o, member, rfl⟩, bound⟩

theorem rootType? (m : g.Matches r h)
    (kinds : ∀ b, g.block = some b → (b.operations.map OperationBinding.kind).Nodup)
    (kind : OperationKind) : h.rootType? kind = (g.rootType? kind).map r.type := by
  have related := m.block
  have names := m.typeId? kind.defaultTypeName
  simp only [Graph.rootType?]
  cases declared : g.block with
  | none =>
    rw [declared] at related
    generalize h.block = image at related
    cases related
    exact names
  | some b =>
    rw [declared] at related
    generalize h.block = image at related
    cases related with
    | some alike =>
      simp only [operation? alike (kinds b declared) kind, Option.bind_map, Option.map_bind]
      rfl

/-- The roots of two graphs. -/
def SameRoot (r : Relabeling) (x x' : Root) : Prop :=
  (∀ kind, x'.operation? kind = (x.operation? kind).map r.type) ∧
    Option.Rel (SchemaBlock.Alike r) x.block x'.block

theorem impliedRoot? (m : g.Matches r h)
    (kinds : ∀ b, g.block = some b → (b.operations.map OperationBinding.kind).Nodup) :
    Option.Rel (SameRoot r) g.impliedRoot? h.impliedRoot? := by
  have types := m.rootType? kinds
  cases implied : g.rootType? .query with
  | none =>
    have missing : h.rootType? .query = none := by rw [types, implied, Option.map_none]
    simp only [Graph.impliedRoot?, implied, missing, Option.map_none]
    exact .none
  | some query =>
    have present : h.rootType? .query = some (r.type query) := by
      rw [types, implied, Option.map_some]
    simp only [Graph.impliedRoot?, implied, present, Option.map_some]
    refine .some ⟨?_, m.block⟩
    intro kind
    cases kind with
    | query => rfl
    | mutation => exact types .mutation
    | subscription => exact types .subscription

theorem rootReferences (m : g.Matches r h)
    (kinds : ∀ b, g.block = some b → (b.operations.map OperationBinding.kind).Nodup) (t : TypeId) :
    h.rootReferences (r.type t) = (g.rootReferences t).map r.reference := by
  have types := m.rootType? kinds
  have related := m.block
  simp only [Graph.rootReferences]
  generalize g.block = source at related
  generalize h.block = image at related
  cases related with
  | some alike => rfl
  | none =>
    have serves : ∀ kind, h.rootType? kind = some (r.type t) ↔ g.rootType? kind = some t := by
      intro kind
      rw [types]
      simp
    simp only [serves, List.map_map]
    rfl

theorem typesWithin (m : g.Matches r h) (t : TypeId) :
    h.typesWithin (r.type t) = (g.typesWithin t).map r.type := by
  have related := m.typeAt? t
  simp only [Graph.typesWithin]
  generalize g.typeAt? t = source at related
  generalize h.typeAt? (r.type t) = image at related
  have targets : ∀ values : Table InputValue,
      ((values.map r.inputValue).values.filterMap fun v => v.type.innermost.target) =
        (values.values.filterMap fun v => v.type.innermost.target).map r.type := by
    intro values
    rw [Table.values_map, List.filterMap_map, List.map_filterMap]
    exact List.filterMap_congr fun v _ => by simp
  have shaped : ∀ s : Shape, ((r.shape s).fields.values.flatMap fun f =>
        f.type.innermost.target.toList ++
          f.arguments.values.filterMap fun a => a.type.innermost.target) =
      (s.fields.values.flatMap fun f => f.type.innermost.target.toList ++
          f.arguments.values.filterMap fun a => a.type.innermost.target).map r.type := by
    intro s
    simp only [r.shape_fields, Table.values_map, List.flatMap_map, List.map_flatMap,
      r.field_type, r.typeUse_innermost, r.ref_target, r.field_arguments, List.map_append]
    congr 1
    funext f
    rw [← Table.values_map, targets]
    cases f.type.innermost.target <;> rfl
  cases related with
  | none => rfl
  | @some d d' alike =>
    simp only [alike.body]
    cases d.body with
    | enum values => rfl
    | scalar => rfl
    | inputObject fields => exact targets fields
    | interface s => exact shaped s
    | object s => exact shaped s
    | union members =>
      simp only [Relabeling.body, Table.values_map, List.filterMap_map, List.map_filterMap]
      rfl

/-- The same types are marked. -/
theorem mem_rootedIds (m : g.Matches r h)
    (kinds : ∀ b, g.block = some b → (b.operations.map OperationBinding.kind).Nodup) (t : TypeId) :
    r.type t ∈ h.rootedIds ↔ t ∈ g.rootedIds := by
  have related := m.impliedRoot? kinds
  simp only [Graph.rootedIds]
  generalize g.impliedRoot? = source at related
  generalize h.impliedRoot? = image at related
  cases related with
  | none => simp
  | @some root root' both =>
    refine mem_reach_equiv r.type ?_ m.mem_typeIds ?_ t
    · intro a b
      rw [m.typesWithin, List.mem_map_of_injective r.type.injective]
    · intro a
      simp only [List.mem_filterMap, both.1]
      simp

end Roots

section Resolved

variable {required : Bool}

/-- The sites of both graphs are distinct once the root is sound. -/
theorem nodup_sites (m : g.Matches r h) (fresh : g.Fresh) (fresh' : h.Fresh)
    (sound : g.linked.RootSound required) : g.sites.Nodup ∧ h.sites.Nodup :=
  ⟨Graph.nodup_sites fresh (linked_block_kinds sound),
    Graph.nodup_sites fresh' (linked_block_kinds ((m.rootSound fresh fresh' required).mpr sound))⟩

theorem perm_typeReferences (m : g.Matches r h) (fresh : g.Fresh) (fresh' : h.Fresh)
    (sound : g.linked.RootSound required) (t : TypeId) :
    (referencesOf (r.type t) h.typeReferences).Perm
      ((referencesOf t g.typeReferences).map r.reference) := by
  obtain ⟨sites, sites'⟩ := m.nodup_sites fresh fresh' sound
  have distinct := Graph.nodup_typeReferences fresh.types.distinct sites
  have distinct' := Graph.nodup_typeReferences fresh'.types.distinct sites'
  refine (List.perm_ext_iff_of_nodup (nodup_referencesOf distinct') ?_).mpr
    (m.mem_referencesOf_type fresh fresh' t)
  exact (nodup_referencesOf distinct).map fun _ _ => r.reference_injective

theorem perm_usageReferences (m : g.Matches r h) (fresh : g.Fresh) (fresh' : h.Fresh)
    (sound : g.linked.RootSound required) (id : DirectiveId) :
    (referencesOf (r.directive id) h.usageReferences).Perm
      ((referencesOf id g.usageReferences).map r.usageId) := by
  obtain ⟨sites, sites'⟩ := m.nodup_sites fresh fresh' sound
  have distinct := Graph.nodup_usageReferences fresh.directives.distinct sites
  have distinct' := Graph.nodup_usageReferences fresh'.directives.distinct sites'
  refine (List.perm_ext_iff_of_nodup (nodup_referencesOf distinct') ?_).mpr
    (m.mem_referencesOf_directive fresh fresh' id)
  exact (nodup_referencesOf distinct).map fun _ _ => r.usageId_injective

/-- The kinds in the block of a graph with a sound root. -/
theorem kinds (sound : g.linked.RootSound required) :
    ∀ b, g.linked.block = some b → (b.operations.map OperationBinding.kind).Nodup := by
  intro b declared
  simp only [RootSound, declared] at sound
  exact sound.kinds

theorem resolved_types (m : g.Matches r h) (fresh : g.Fresh) (fresh' : h.Fresh)
    (sound : g.linked.RootSound required) :
    g.resolved.types.Alike r.types (TypeDef.Corresponds r) h.resolved.types where
  distinct := by
    change g.linked.withRoot.types.keys.Nodup
    simpa using fresh.types.distinct
  distinct' := by
    change h.linked.withRoot.types.keys.Nodup
    simpa using fresh'.types.distinct
  entries := by
    intro i
    rw [resolved_types_at?, resolved_types_at?]
    have related := m.types.entries i
    have started : ∀ e, g.types.at? i = some e → e.2.Fresh := fun e found =>
      fresh.types.each e ((Table.mem_entries_iff _ _).mpr ⟨i, found⟩)
    have started' : ∀ e, h.types.at? (r.types i) = some e → e.2.Fresh := fun e found =>
      fresh'.types.each e ((Table.mem_entries_iff _ _).mpr ⟨_, found⟩)
    generalize g.types.at? i = source at related started
    generalize h.types.at? (r.types i) = image at related started'
    cases related with
    | none => exact .none
    | @some e e' both =>
      obtain ⟨same, alike⟩ := both
      refine .some ⟨same, { alike with usages := ?_, body := ?_, references := ?_, rooted := ?_ }⟩
      · simp only [resolvedType, alike.usages]
        exact m.linkUsages (.type ⟨i⟩) _
      · simp only [resolvedType, alike.body]
        exact m.linkBody ⟨i⟩ _
      · have added := m.linked.rootReferences (kinds sound) ⟨i⟩
        have linked := m.perm_typeReferences fresh fresh' sound ⟨i⟩
        simp only [resolvedType, (started e rfl).references, (started' e' rfl).references,
          List.nil_append, List.map_append]
        exact linked.append (added ▸ .refl _)
      · have marked := m.linked.mem_rootedIds (kinds sound) ⟨i⟩
        simp only [resolvedType, (started e rfl).rooted, (started' e' rfl).rooted,
          Bool.false_or, List.contains_eq_mem]
        exact decide_eq_decide.mpr marked

theorem resolved_directives (m : g.Matches r h) (fresh : g.Fresh) (fresh' : h.Fresh)
    (sound : g.linked.RootSound required) :
    g.resolved.directives.Alike r.directives (DirectiveDef.Corresponds r)
      h.resolved.directives where
  distinct := by
    change g.linked.directives.keys.Nodup
    simpa using fresh.directives.distinct
  distinct' := by
    change h.linked.directives.keys.Nodup
    simpa using fresh'.directives.distinct
  entries := by
    intro i
    rw [resolved_directives_at?, resolved_directives_at?]
    have related := m.directives.entries i
    have started : ∀ e, g.directives.at? i = some e → e.2.Fresh := fun e found =>
      fresh.directives.each e ((Table.mem_entries_iff _ _).mpr ⟨i, found⟩)
    have started' : ∀ e, h.directives.at? (r.directives i) = some e → e.2.Fresh := fun e found =>
      fresh'.directives.each e ((Table.mem_entries_iff _ _).mpr ⟨_, found⟩)
    generalize g.directives.at? i = source at related started
    generalize h.directives.at? (r.directives i) = image at related started'
    cases related with
    | none => exact .none
    | @some e e' both =>
      obtain ⟨same, alike⟩ := both
      refine .some ⟨same, { alike with arguments := ?_, references := ?_ }⟩
      · simp only [resolvedDirective, Names.linkDirective, alike.arguments]
        exact m.linkInputValues (.directiveArgument ⟨i⟩) (.directiveArgument (r.directive ⟨i⟩))
          (fun _ => rfl) (.directive ⟨i⟩) _
      · simp only [resolvedDirective, Names.linkDirective, (started e rfl).references,
          (started' e' rfl).references, List.nil_append]
        exact m.perm_usageReferences fresh fresh' sound ⟨i⟩

theorem resolved_root (m : g.Matches r h) (sound : g.linked.RootSound required) :
    Option.Rel (SameRoot r) g.resolved.root h.resolved.root :=
  m.linked.impliedRoot? (kinds sound)

end Resolved

end Graph.Matches

end SchemaAtlas
