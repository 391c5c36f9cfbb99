import SchemaAtlas.Proofs.Acceptance

/-!
# Reverse references

Every type of an accepted schema remembers the sites that name it, and every directive its usages.
These lists are exact: nothing is missing, nothing stands in them by mistake and nothing twice.
Sites that the documents hold are remembered by linking. A root that is found by its name has one
site more, which no document holds and which is added when the root is resolved.
-/

namespace SchemaAtlas

/-- What it means that a site refers to the type `t`, which is called `name`. -/
def Schema.Refers (s : Schema) (t : TypeId) (name : String) : Reference → Prop
  | ⟨.typeUse, e⟩ => ∃ a, s.typeUse? e = some a ∧ a.innermost.name = name
  | ⟨.implements, .type u⟩ =>
    ∃ d shape, s.typeAt? u = some d ∧ d.shape? = some shape ∧ name ∈ shape.implements.keys
  | ⟨.unionMember, .type u⟩ =>
    ∃ d members, s.typeAt? u = some d ∧ d.body = .union members ∧ name ∈ members.keys
  | ⟨.operation kind, .schema⟩ => (s.root.bind fun root => root.operation? kind) = some t
  | _ => False

namespace Graph

theorem mem_rootReferences (g : Graph) (t : TypeId) (r : Reference) :
    r ∈ g.rootReferences t ↔
      g.block = none ∧ ∃ kind, g.rootType? kind = some t ∧ r = ⟨.operation kind, .schema⟩ := by
  rw [rootReferences]
  cases g.block with
  | some block => simp
  | none =>
    simp only [List.mem_map, List.mem_filter, decide_eq_true_eq, true_and]
    constructor
    · rintro ⟨kind, ⟨_, serves⟩, rfl⟩
      exact ⟨kind, serves, rfl⟩
    · rintro ⟨kind, serves, rfl⟩
      exact ⟨kind, ⟨by cases kind <;> decide, serves⟩, rfl⟩

theorem nodup_rootReferences (g : Graph) (t : TypeId) : (g.rootReferences t).Nodup := by
  rw [rootReferences]
  cases g.block with
  | some block => exact List.nodup_nil
  | none =>
    have distinct : OperationKind.all.Nodup := by decide
    refine (distinct.filter _).map ?_
    intro a b same
    cases same
    rfl

/-- The sites remembered by linking are those that name the type. -/
theorem mem_referencesOf_typeReferences {g : Graph} (fresh : g.Fresh) {t : TypeId} {name : String}
    {d : TypeDef} (found : g.types.at? t.index = some (name, d)) (r : Reference) :
    r ∈ referencesOf t g.typeReferences ↔ g.NamedAt (.type r) name := by
  rw [mem_referencesOf, mem_typeReferences]
  constructor
  · rintro ⟨other, member, id⟩
    obtain ⟨d', found'⟩ := (typeId?_eq_some_iff fresh.types.distinct other t).mp id
    cases found.symm.trans found'
    exact (mem_sites_iff fresh _ _).mp member
  · intro named
    exact ⟨name, (mem_sites_iff fresh _ _).mpr named,
      (typeId?_eq_some_iff fresh.types.distinct name t).mpr ⟨d, found⟩⟩

theorem mem_referencesOf_usageReferences {g : Graph} (fresh : g.Fresh) {id : DirectiveId}
    {name : String} {d : DirectiveDef} (found : g.directives.at? id.index = some (name, d))
    (u : UsageId) : u ∈ referencesOf id g.usageReferences ↔ g.NamedAt (.usage u) name := by
  rw [mem_referencesOf, mem_usageReferences]
  constructor
  · rintro ⟨other, member, same⟩
    obtain ⟨d', found'⟩ := (directiveId?_eq_some_iff fresh.directives.distinct other id).mp same
    cases found.symm.trans found'
    exact (mem_sites_iff fresh _ _).mp member
  · intro named
    exact ⟨name, (mem_sites_iff fresh _ _).mpr named,
      (directiveId?_eq_some_iff fresh.directives.distinct name id).mpr ⟨d, found⟩⟩

/-- With distinct kinds, an operation is bound by the one binding of its kind. -/
theorem operation?_eq_some_iff {b : SchemaBlock}
    (kinds : (b.operations.map OperationBinding.kind).Nodup) (kind : OperationKind)
    (o : OperationBinding) :
    b.operation? kind = some o ↔ o ∈ b.operations ∧ o.kind = kind := by
  rw [SchemaBlock.operation?]
  constructor
  · intro found
    exact ⟨List.mem_of_find?_eq_some found, by simpa using List.find?_some found⟩
  · rintro ⟨member, same⟩
    have some : (b.operations.find? (·.kind == kind)).isSome := by
      rw [List.find?_isSome]
      exact ⟨o, member, by simp [same]⟩
    obtain ⟨first, found⟩ := Option.isSome_iff_exists.mp some
    have first_kind : first.kind = kind := by simpa using List.find?_some found
    have equal := List.inj_on_of_nodup_map kinds (List.mem_of_find?_eq_some found) member
      (first_kind.trans same.symm)
    rw [found, equal]

theorem linked_block_kinds {g : Graph} {required : Bool} (sound : g.linked.RootSound required)
    (b : SchemaBlock) (declared : g.block = some b) :
    (b.operations.map OperationBinding.kind).Nodup := by
  have block : g.linked.block = some (g.names.linkBlock b) := by rw [linked_block, declared]; rfl
  simp only [RootSound, block] at sound
  have kinds := sound.kinds
  simp only [Names.linkBlock, List.map_map] at kinds
  exact kinds

/-- With a block, an operation is served by the type that its binding names. -/
theorem linked_rootType?_of_block {g : Graph} {b : SchemaBlock} (declared : g.block = some b)
    (kind : OperationKind) :
    g.linked.rootType? kind = (b.operation? kind).bind fun o => g.typeId? o.type.name := by
  simp only [rootType?, linked_block, declared, Option.map_some, SchemaBlock.operation?,
    Names.linkBlock, List.find?_map, Option.bind_map]
  rfl

/-- A binding of the block names the type that its operation is served by. -/
theorem linked_rootType?_eq_some_iff {g : Graph} (fresh : g.Fresh) {b : SchemaBlock}
    (declared : g.block = some b) (kinds : (b.operations.map OperationBinding.kind).Nodup)
    {t : TypeId} {name : String} {d : TypeDef} (found : g.types.at? t.index = some (name, d))
    (kind : OperationKind) :
    g.linked.rootType? kind = some t ↔
      ∃ o ∈ b.operations, o.kind = kind ∧ o.type.name = name := by
  rw [linked_rootType?_of_block declared, Option.bind_eq_some_iff]
  constructor
  · rintro ⟨o, first, id⟩
    obtain ⟨member, same⟩ := (operation?_eq_some_iff kinds kind o).mp first
    obtain ⟨d', found'⟩ := (typeId?_eq_some_iff fresh.types.distinct _ t).mp id
    cases found.symm.trans found'
    exact ⟨o, member, same, rfl⟩
  · rintro ⟨o, member, same, rfl⟩
    exact ⟨o, (operation?_eq_some_iff kinds kind o).mpr ⟨member, same⟩,
      (typeId?_eq_some_iff fresh.types.distinct _ t).mpr ⟨d, found⟩⟩

end Graph

namespace Sound

variable {required : Bool} {declarations : List Sourced}

/-- A site refers to a type if a document names the type there, or if it is the root's own site and
the type serves an operation by its name. -/
theorem refers_iff (sound : Sound required declarations) {t : TypeId} {name : String}
    {d : TypeDef} (found : (Graph.described declarations).types.at? t.index = some (name, d))
    (r : Reference) :
    (Graph.described declarations).resolved.Refers t name r ↔
      (Graph.described declarations).NamedAt (.type r) name ∨
      r ∈ (Graph.described declarations).linked.rootReferences t := by
  have fresh := Graph.described_fresh declarations
  have operation := sound.operation?
  have rooted := sound.rooted
  generalize Graph.described declarations = g at *
  obtain ⟨kind, site⟩ := r
  rw [Graph.mem_rootReferences]
  cases kind with
  | typeUse =>
    simp [Schema.Refers, Graph.NamedAt, Graph.resolved_typeUse?]
  | implements =>
    cases site with
    | type u =>
      simp only [Schema.Refers, Graph.NamedAt, Graph.resolved_typeAt?, Option.map_eq_some_iff]
      constructor
      · rintro ⟨_, shape, ⟨d, collected, rfl⟩, shaped, listed⟩
        rw [Graph.resolvedType_shape?, Option.map_eq_some_iff] at shaped
        obtain ⟨old, shaped, rfl⟩ := shaped
        exact .inl ⟨d, old, collected, shaped, by simpa [Names.linkShape] using listed⟩
      · rintro (⟨d, shape, collected, shaped, listed⟩ | ⟨_, _, _, other⟩)
        · refine ⟨_, g.names.linkShape u shape, ⟨d, collected, rfl⟩, ?_, ?_⟩
          · rw [Graph.resolvedType_shape?, shaped, Option.map_some]
          · simpa [Names.linkShape] using listed
        · cases other
    | _ => simp [Schema.Refers, Graph.NamedAt]
  | unionMember =>
    cases site with
    | type u =>
      simp only [Schema.Refers, Graph.NamedAt, Graph.resolved_typeAt?, Option.map_eq_some_iff]
      constructor
      · rintro ⟨_, members, ⟨d, collected, rfl⟩, union, listed⟩
        obtain ⟨old, collected_union, rfl⟩ := g.names.linkBody_eq_union.mp union
        exact .inl ⟨d, old, collected, collected_union, by simpa using listed⟩
      · rintro (⟨d, members, collected, union, listed⟩ | ⟨_, _, _, other⟩)
        · exact ⟨_, members.map g.names.linkRef, ⟨d, collected, rfl⟩,
            g.names.linkBody_eq_union.mpr ⟨members, union, rfl⟩, by simpa using listed⟩
        · cases other
    | _ => simp [Schema.Refers, Graph.NamedAt]
  | operation kind =>
    cases site with
    | schema =>
      simp only [Schema.Refers, operation]
      cases declared : g.block with
      | none => simp [Graph.NamedAt, declared]
      | some b =>
        have kinds := Graph.linked_block_kinds rooted b declared
        rw [Graph.linked_rootType?_eq_some_iff fresh declared kinds found kind]
        simp [Graph.NamedAt, declared]
    | _ => simp [Schema.Refers, Graph.NamedAt]

/-- The references of a type, and its name. -/
theorem typeAt?_references (sound : Sound required declarations) {t : TypeId} {d : TypeDef}
    (found : (Graph.described declarations).resolved.typeAt? t = some d) :
    d.references.Nodup ∧
      ∀ r, r ∈ d.references ↔ (Graph.described declarations).resolved.Refers t d.name r := by
  have fresh := Graph.described_fresh declarations
  have sites := Graph.nodup_sites fresh (Graph.linked_block_kinds sound.rooted)
  rw [Graph.resolved_typeAt?, Graph.typeAt?, Option.map_map, Option.map_eq_some_iff] at found
  obtain ⟨⟨name, d₀⟩, collected, rfl⟩ := found
  have member := (Table.mem_entries_iff _ _).mpr ⟨_, collected⟩
  have named : d₀.name = name := fresh.types.named _ member
  have linking := Graph.mem_referencesOf_typeReferences fresh collected
  have references : ((Graph.described declarations).resolvedType t d₀).references =
      referencesOf t (Graph.described declarations).typeReferences ++
        (Graph.described declarations).linked.rootReferences t := by
    rw [Graph.resolvedType, (fresh.types.each _ member).references, List.nil_append]
  simp only [Function.comp_apply, references]
  constructor
  · rw [List.nodup_append]
    refine ⟨nodup_referencesOf (Graph.nodup_typeReferences fresh.types.distinct sites),
      Graph.nodup_rootReferences _ t, ?_⟩
    -- Linking finds operations in a schema block only, and then none is found by its name.
    intro r linked r' rooted same
    obtain ⟨unblocked, kind, _, rfl⟩ := (Graph.mem_rootReferences _ t r').mp rooted
    rw [same, linking] at linked
    obtain ⟨b, declared, _⟩ := linked
    rw [Graph.linked_block, declared] at unblocked
    cases unblocked
  · intro r
    have name_kept : ((Graph.described declarations).resolvedType t d₀).name = name := named
    rw [name_kept, sound.refers_iff collected r, List.mem_append, linking]

/-- The references of a directive, and its name. -/
theorem directiveAt?_references (sound : Sound required declarations) {id : DirectiveId}
    {d : DirectiveDef}
    (found : (Graph.described declarations).resolved.directiveAt? id = some d) :
    d.references.Nodup ∧
      (∀ r, r ∈ d.references ↔
        ∃ u, ((Graph.described declarations).resolved.usages r.owner)[r.index]? = some u ∧
          u.name = d.name) ∧
      (Graph.described declarations).directiveId? d.name = some id := by
  have fresh := Graph.described_fresh declarations
  have sites := Graph.nodup_sites fresh (Graph.linked_block_kinds sound.rooted)
  rw [Graph.resolved_directiveAt?, Graph.directiveAt?, Option.map_map,
    Option.map_eq_some_iff] at found
  obtain ⟨⟨name, d₀⟩, collected, rfl⟩ := found
  have member := (Table.mem_entries_iff _ _).mpr ⟨_, collected⟩
  have named : d₀.name = name := fresh.directives.named _ member
  have references : ((Graph.described declarations).resolvedDirective id d₀).references =
      referencesOf id (Graph.described declarations).usageReferences := by
    rw [Graph.resolvedDirective, Names.linkDirective, (fresh.directives.each _ member).references,
      List.nil_append]
  have name_kept : ((Graph.described declarations).resolvedDirective id d₀).name = name := named
  simp only [Function.comp_apply, references, name_kept]
  refine ⟨nodup_referencesOf (Graph.nodup_usageReferences fresh.directives.distinct sites), ?_,
    (Graph.directiveId?_eq_some_iff fresh.directives.distinct name id).mpr ⟨d₀, collected⟩⟩
  intro r
  rw [Graph.mem_referencesOf_usageReferences fresh collected, sound.usages]
  simp [Graph.NamedAt, Names.linkUsages, Names.linkUsage]

end Sound

/-- The references of a type are its sites, each once, and those of a directive its usages, each
once and each leading back to it. -/
theorem references_exact (required : Bool) (declarations : List Sourced) (s : Schema)
    (accepted : (analyze required declarations).result = .ok s) :
    (∀ t d, s.typeAt? t = some d →
      d.references.Nodup ∧ ∀ r, r ∈ d.references ↔ s.Refers t d.name r) ∧
    (∀ id d, s.directiveAt? id = some d →
      d.references.Nodup ∧
      (∀ r, r ∈ d.references ↔ ∃ u, (s.usages r.owner)[r.index]? = some u ∧ u.name = d.name) ∧
      ∀ r ∈ d.references, ∃ u, s.usage? r = some u ∧ u.parent = some r.owner ∧
        u.definition = some id) := by
  obtain ⟨sound, rfl⟩ := (analyze_eq_ok_iff_sound required declarations s).mp accepted
  constructor
  · intro t d found
    exact sound.typeAt?_references found
  · intro id d found
    obtain ⟨distinct, exact_usages, position⟩ := sound.directiveAt?_references found
    refine ⟨distinct, exact_usages, ?_⟩
    intro r remembered
    obtain ⟨u, stands, name⟩ := (exact_usages r).mp remembered
    refine ⟨u, stands, ?_⟩
    rw [sound.usages, Names.linkUsages, List.getElem?_map, Option.map_eq_some_iff] at stands
    obtain ⟨u₀, _, rfl⟩ := stands
    refine ⟨rfl, ?_⟩
    have definition : ((Graph.described declarations).names.linkUsage r.owner u₀).definition =
        (Graph.described declarations).directiveId? u₀.name := rfl
    have same : u₀.name = d.name := name
    rw [definition, same, position]

/-- `Node` is listed twice and is the type of one field, and `tag` is used three times. -/
theorem references_exact_bookshop :
    ∃ s, (analyze true (given bookshop)).result = .ok s ∧
      (∃ d, s.typeAt? ⟨5⟩ = some d ∧ d.references.length = 3 ∧ d.references.Nodup ∧
        ∀ r, r ∈ d.references ↔ s.Refers ⟨5⟩ d.name r) ∧
      ∃ d, s.directiveAt? ⟨4⟩ = some d ∧ d.references.length = 3 ∧ d.references.Nodup ∧
        ∀ r ∈ d.references, ∃ u, s.usage? r = some u ∧ u.parent = some r.owner ∧
          u.definition = some ⟨4⟩ := by
  obtain ⟨s, accepted, counted⟩ : ∃ s, (analyze true (given bookshop)).result = .ok s ∧
      ((s.typeAt? ⟨5⟩).any (fun d => d.references.length == 3) &&
        (s.directiveAt? ⟨4⟩).any fun d => d.references.length == 3) = true :=
    exists_of_any (by decide +kernel)
  simp only [Bool.and_eq_true, Option.any_eq_true, beq_iff_eq] at counted
  obtain ⟨⟨node, found, three⟩, tag, found', three'⟩ := counted
  obtain ⟨types, directives⟩ := references_exact true (given bookshop) s accepted
  obtain ⟨distinct, sites⟩ := types ⟨5⟩ node found
  obtain ⟨distinct', _, usages⟩ := directives ⟨4⟩ tag found'
  exact ⟨s, accepted, ⟨node, found, three, distinct, sites⟩, tag, found', three', distinct',
    usages⟩

end SchemaAtlas
