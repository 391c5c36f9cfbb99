import SchemaAtlas.Proofs.Acceptance

/-!
# Lookups

A graph refers to its types and directives at many places. Linking looks each of these references
up: it sets the ones whose name is defined, and the others it leaves open and reports, each once,
with the place in the source and the path that belong to the reference.
-/

namespace SchemaAtlas

/-- Where a reference stands. -/
inductive Slot where
  /-- The type that a field, argument or input field is declared with. -/
  | typeUse (element : ElementId)
  | implements (type : TypeId) (name : String)
  | unionMember (type : TypeId) (name : String)
  /-- A binding of the schema block, by its position. -/
  | operation (index : Nat)
  | usage (usage : UsageId)

def TypeDef.members? (d : TypeDef) : Option (Table TypeRef) :=
  match d.body with
  | .union members => some members
  | _ => none

theorem TypeDef.members?_eq_some_iff {d : TypeDef} {members : Table TypeRef} :
    d.members? = some members ↔ d.body = .union members := by
  unfold members?
  cases d.body <;> simp

theorem Names.linkType_members? (names : Names) (t : TypeId) (found : List Reference)
    (d : TypeDef) : (names.linkType t found d).members? = d.members?.map (·.map names.linkRef) := by
  obtain ⟨_, _, _, _, _, body, _, _⟩ := d
  cases body <;> rfl

namespace Graph

/-- The binding at a position of the schema block. -/
def bindingAt? (g : Graph) (index : Nat) : Option OperationBinding :=
  g.block.bind fun b => b.operations[index]?

/-- The reference to a type that stands in a slot. -/
def refAt? (g : Graph) : Slot → Option TypeRef
  | .typeUse e => (typeUseAt? g.types g.directives e).map TypeUse.innermost
  | .implements t name => ((g.typeAt? t).bind TypeDef.shape?).bind (·.implements.get? name)
  | .unionMember t name => ((g.typeAt? t).bind TypeDef.members?).bind (·.get? name)
  | .operation index => (g.bindingAt? index).map OperationBinding.type
  | .usage _ => none

def usageAt? (g : Graph) (u : UsageId) : Option Usage := (g.usages u.owner)[u.index]?

/-- The reference leads to the type of its name, and is open if there is none. -/
def RefFound (g : Graph) (ref : TypeRef) : Prop :=
  ∀ t, ref.target = some t ↔ ∃ d, g.types.at? t.index = some (ref.name, d)

def UsageFound (g : Graph) (u : Usage) : Prop :=
  ∀ id, u.definition = some id ↔ ∃ d, g.directives.at? id.index = some (u.name, d)

/-- The reference in a slot is open, and this is what there is to say about it. -/
inductive Open (g : Graph) : Slot → Diagnostic → Prop
  | typeUse (e : ElementId) (ref : TypeRef) (found : g.refAt? (.typeUse e) = some ref)
    (unset : ref.target = none) :
    Open g (.typeUse e) ⟨.undefinedType ref.name (g.path e), some ref.location, g.path e⟩
  | implements (t : TypeId) (name : String) (ref : TypeRef)
    (found : g.refAt? (.implements t name) = some ref) (unset : ref.target = none) :
    Open g (.implements t name) ⟨.undefinedInterface ref.name (g.path (.type t)),
      some ref.location, g.path (.type t)⟩
  | unionMember (t : TypeId) (d : TypeDef) (name : String) (ref : TypeRef)
    (owner : g.typeAt? t = some d) (found : g.refAt? (.unionMember t name) = some ref)
    (unset : ref.target = none) :
    Open g (.unionMember t name) ⟨.undefinedUnionMember ref.name d.name, some ref.location,
      g.path (.type t)⟩
  | operation (index : Nat) (o : OperationBinding) (found : g.bindingAt? index = some o)
    (unset : o.type.target = none) :
    Open g (.operation index) ⟨.undefinedOperationType o.kind o.type.name, some o.type.location,
      ElementPath.schema.child (.operation o.kind)⟩
  | usage (u : UsageId) (x : Usage) (found : g.usageAt? u = some x) (unset : x.definition = none) :
    Open g (.usage u) ⟨.undefinedDirective x.name (g.path u.owner), some x.location,
      (g.path u.owner).child (.usage x.name)⟩

/-! References before and after linking. -/

theorem typeSegment_linkType (names : Names) (t : TypeId) (found : List Reference) (name : String)
    (d : TypeDef) : typeSegment name (names.linkType t found d) = typeSegment name d := by
  rw [typeSegment, typeSegment, TypeDef.kind, Names.linkType, Names.linkBody_kind]
  rfl

/-- Paths are told by names and kinds, which linking keeps. -/
theorem linked_path (g : Graph) (e : ElementId) : g.linked.path e = g.path e := by
  unfold path elementPath
  cases e with
  | schema => rfl
  | type t =>
    simp only [linked_types_at?]
    cases g.types.at? t.index with
    | none => rfl
    | some e => simp [typeSegment_linkType]
  | field t f =>
    simp only [linked_types_at?]
    cases g.types.at? t.index with
    | none => rfl
    | some e =>
      simp only [Option.map_some, typeSegment_linkType, Names.linkType_shape?]
      cases e.2.shape? with
      | none => rfl
      | some s => cases member : s.fields.at? f <;> simp [Names.linkShape, member]
  | fieldArgument t f a =>
    simp only [linked_types_at?]
    cases g.types.at? t.index with
    | none => rfl
    | some e =>
      simp only [Option.map_some, typeSegment_linkType, Names.linkType_shape?]
      cases e.2.shape? with
      | none => rfl
      | some s =>
        cases member : s.fields.at? f with
        | none => simp [Names.linkShape, member]
        | some x =>
          cases argument : x.2.arguments.at? a <;>
            simp [Names.linkShape, Names.linkField, Names.linkInputValues, member, argument]
  | inputField t f =>
    simp only [linked_types_at?]
    cases g.types.at? t.index with
    | none => rfl
    | some e =>
      simp only [Option.map_some, typeSegment_linkType, Names.linkType_inputFields?]
      cases e.2.inputFields? with
      | none => rfl
      | some fields =>
        cases member : fields.at? f <;> simp [Names.linkInputValues, member]
  | enumValue t v =>
    simp only [linked_types_at?]
    cases g.types.at? t.index with
    | none => rfl
    | some e =>
      simp only [Option.map_some, typeSegment_linkType, Names.linkType_enumValues?]
      cases e.2.enumValues? with
      | none => rfl
      | some values => cases member : values.at? v <;> simp [member]
  | directive d =>
    simp only [linked_directives_at?]
    cases g.directives.at? d.index <;> rfl
  | directiveArgument d a =>
    simp only [linked_directives_at?]
    cases g.directives.at? d.index with
    | none => rfl
    | some e =>
      cases argument : e.2.arguments.at? a <;>
        simp [Names.linkDirective, Names.linkInputValues, argument]

theorem linked_bindingAt? (g : Graph) (index : Nat) :
    g.linked.bindingAt? index =
      (g.bindingAt? index).map fun o => { o with type := g.names.linkRef o.type } := by
  rw [bindingAt?, bindingAt?, linked_block]
  cases g.block with
  | none => rfl
  | some b => simp [Names.linkBlock]

theorem linked_refAt? (g : Graph) (slot : Slot) :
    g.linked.refAt? slot = (g.refAt? slot).map g.names.linkRef := by
  cases slot with
  | typeUse e =>
    simp only [refAt?, linked_typeUseAt?, Option.map_map]
    congr 1
    funext a
    exact a.innermost_mapRef g.names.linkRef
  | implements t name =>
    simp only [refAt?, linked_typeAt?]
    cases g.typeAt? t with
    | none => rfl
    | some d =>
      simp only [Option.map_some, Option.bind_some, Names.linkType_shape?]
      cases d.shape? with
      | none => rfl
      | some shape => exact Table.get?_map g.names.linkRef shape.implements name
  | unionMember t name =>
    simp only [refAt?, linked_typeAt?]
    cases g.typeAt? t with
    | none => rfl
    | some d =>
      simp only [Option.map_some, Option.bind_some, Names.linkType_members?]
      cases d.members? with
      | none => rfl
      | some members => exact Table.get?_map g.names.linkRef members name
  | operation index =>
    simp only [refAt?, linked_bindingAt?, Option.map_map]
    rfl
  | usage u => rfl

theorem linked_usageAt? (g : Graph) (u : UsageId) :
    g.linked.usageAt? u = (g.usageAt? u).map (g.names.linkUsage u.owner) := by
  rw [usageAt?, usageAt?, linked_usages, Names.linkUsages, List.getElem?_map]

end Graph

/-! Mentions, and the slots that they stand for. -/

/-- The slot of a site. The bindings of an operation share their site, so they have none here. -/
def Site.slot? : Site × String → Option Slot
  | (.type ⟨.typeUse, e⟩, _) => some (.typeUse e)
  | (.type ⟨.implements, .type t⟩, name) => some (.implements t name)
  | (.type ⟨.unionMember, .type t⟩, name) => some (.unionMember t name)
  | (.usage u, _) => some (.usage u)
  | _ => none

def OperationBinding.mention (o : OperationBinding) : Mention :=
  .type ⟨.operation o.kind, o.type.name, o.type.location, .schema,
    ElementPath.schema.child (.operation o.kind), .undefinedOperationType o.kind o.type.name⟩

namespace Graph

/-- What a slot mentions. -/
def mentionAt? (g : Graph) : Slot → Option Mention
  | .typeUse e => (g.refAt? (.typeUse e)).map fun ref => .type ⟨.typeUse, ref.name, ref.location,
      e, g.path e, .undefinedType ref.name (g.path e)⟩
  | .implements t name => (g.refAt? (.implements t name)).map fun ref =>
      .type ⟨.implements, ref.name, ref.location, .type t, g.path (.type t),
        .undefinedInterface ref.name (g.path (.type t))⟩
  | .unionMember t name => (g.typeAt? t).bind fun d => (g.refAt? (.unionMember t name)).map
      fun ref => .type ⟨.unionMember, ref.name, ref.location, .type t, g.path (.type t),
        .undefinedUnionMember ref.name d.name⟩
  | .operation index => (g.bindingAt? index).map OperationBinding.mention
  | .usage u => (g.usageAt? u).map fun x => .directive ⟨x.name, x.location, u, g.path u.owner⟩

/-- A mention is the one that its slot gives. -/
def Places (g : Graph) (m : Mention) : Prop :=
  ∃ slot, Site.slot? m.site = some slot ∧ g.mentionAt? slot = some m

section Walk

variable {g : Graph}

theorem places_ofUsages {owner : ElementId} {us : List Usage} (own : g.usages owner = us) :
    ∀ m ∈ Mention.ofUsages owner (g.path owner) us, g.Places m := by
  intro m member
  obtain ⟨i, u, found, rfl⟩ := mem_mapIdx_iff.mp member
  refine ⟨.usage ⟨owner, i⟩, rfl, ?_⟩
  rw [mentionAt?, usageAt?, own, found]
  rfl

theorem places_ofTypeUse {e : ElementId} {a : TypeUse}
    (declared : typeUseAt? g.types g.directives e = some a) :
    g.Places (Mention.ofTypeUse e (g.path e) a) := by
  refine ⟨.typeUse e, rfl, ?_⟩
  rw [mentionAt?, refAt?, declared]
  rfl

theorem places_ofInputValues {self : Nat → ElementId} {container : ElementPath}
    {segment : String → PathSegment} {t : Table InputValue}
    (usages : ∀ i e, t.at? i = some e → g.usages (self i) = e.2.usages)
    (types : ∀ i e, t.at? i = some e → typeUseAt? g.types g.directives (self i) = some e.2.type)
    (paths : ∀ i e, t.at? i = some e → g.path (self i) = container.child (segment e.2.name)) :
    ∀ m ∈ Mention.ofInputValues self container segment t, g.Places m := by
  intro m member
  obtain ⟨i, e, found, inside⟩ := mem_values_flatten.mp member
  rw [← paths i e found] at inside
  rcases List.mem_append.mp inside with used | declared
  · exact places_ofUsages (usages i e found) m used
  · rw [List.mem_singleton.mp declared]
    exact places_ofTypeUse (types i e found)

variable {t : TypeId} {name : String} {d : TypeDef}
  (found : g.types.at? t.index = some (name, d))

include found

theorem path_type : g.path (.type t) = ElementPath.type d.kind name := by
  simp [path, elementPath, found, typeSegment, ElementPath.type]

theorem places_ofField {shape : Shape} (shaped : d.shape? = some shape) (fresh : shape.Fresh)
    {i : Nat} {e : String × Field} (member : shape.fields.at? i = some e) :
    ∀ m ∈ Mention.ofField t i (g.path (.type t)) e.2, g.Places m := by
  have named : e.2.name = e.1 := fresh.fields.toKeyed.at?_name member
  have own : e.2.Fresh := fresh.fields.each e ((Table.mem_entries_iff _ _).mpr ⟨i, member⟩)
  have path : g.path (.field t i) = (g.path (.type t)).child (.field e.2.name) := by
    simp [path, elementPath, found, shaped, member, named, ElementPath.child]
  intro m inside
  simp only [Mention.ofField, ← path, List.mem_append, List.mem_singleton] at inside
  rcases inside with (used | rfl) | argument
  · refine places_ofUsages ?_ m used
    simp [usages, elementUsages, found, shaped, member]
  · refine places_ofTypeUse ?_
    simp [typeUseAt?, fieldAt?, found, shaped, member]
  · refine places_ofInputValues ?_ ?_ ?_ m argument
    · intro a x taken
      simp [usages, elementUsages, found, shaped, member, taken]
    · intro a x taken
      simp [typeUseAt?, fieldAt?, inputValueAt?, found, shaped, member, taken]
    · intro a x taken
      have named' : x.2.name = x.1 := own.arguments.toKeyed.at?_name taken
      simp [Graph.path, elementPath, found, shaped, member, taken, named', ElementPath.child]

theorem places_ofShape {shape : Shape} (shaped : d.shape? = some shape) (fresh : shape.Fresh) :
    ∀ m ∈ Mention.ofShape t (g.path (.type t)) shape, g.Places m := by
  intro m member
  rcases List.mem_append.mp member with listed | field
  · obtain ⟨ref, present, rfl⟩ := List.mem_map.mp listed
    refine ⟨.implements t ref.name, rfl, ?_⟩
    have entry := fresh.implements.toKeyed.get?_name present
    simp [mentionAt?, refAt?, typeAt?, found, shaped, entry]
  · obtain ⟨i, e, entry, inside⟩ := mem_values_flatten.mp field
    exact places_ofField found shaped fresh entry m inside

theorem places_ofBody (own : d.name = name) (fresh : d.Fresh) :
    ∀ m ∈ Mention.ofBody t name (g.path (.type t)) d.body, g.Places m := by
  have content := fresh.body
  cases body : d.body with
  | enum values =>
    rw [body] at content
    intro m member
    obtain ⟨i, e, entry, inside⟩ := mem_values_flatten.mp member
    have shown : d.enumValues? = some values := by rw [TypeDef.enumValues?, body]
    have named : e.2.name = e.1 := Table.Keyed.at?_name content.toKeyed entry
    have path : g.path (.enumValue t i) = (g.path (.type t)).child (.enumValue e.2.name) := by
      simp [path, elementPath, found, shown, entry, named, ElementPath.child]
    rw [Mention.ofEnumValue, ← path] at inside
    refine places_ofUsages ?_ m inside
    simp [usages, elementUsages, found, shown, entry]
  | inputObject fields =>
    rw [body] at content
    have shown : d.inputFields? = some fields := by rw [TypeDef.inputFields?, body]
    refine places_ofInputValues ?_ ?_ ?_
    · intro i e entry
      simp [usages, elementUsages, found, shown, entry]
    · intro i e entry
      simp [typeUseAt?, fieldAt?, inputValueAt?, found, shown, entry]
    · intro i e entry
      have named : e.2.name = e.1 := Table.Keyed.at?_name content.toKeyed entry
      simp [Graph.path, elementPath, found, shown, entry, named, ElementPath.child]
  | interface shape | object shape =>
    rw [body] at content
    exact places_ofShape found (by rw [TypeDef.shape?, body]) content
  | scalar => exact fun m member => (List.not_mem_nil member).elim
  | union members =>
    rw [body] at content
    intro m member
    obtain ⟨ref, present, rfl⟩ := List.mem_map.mp member
    refine ⟨.unionMember t ref.name, rfl, ?_⟩
    have entry := Table.Keyed.get?_name content.toKeyed present
    have shown : d.members? = some members := by rw [TypeDef.members?, body]
    simp [mentionAt?, refAt?, typeAt?, found, shown, entry, own]

omit found in
theorem places_ofDirective {id : DirectiveId} {e : String × DirectiveDef}
    (found : g.directives.at? id.index = some e) (own : e.2.name = e.1) (fresh : e.2.Fresh) :
    ∀ m ∈ Mention.ofDirective id e.2, g.Places m := by
  refine places_ofInputValues ?_ ?_ ?_
  · intro a x taken
    simp [usages, elementUsages, found, taken]
  · intro a x taken
    simp [typeUseAt?, fieldAt?, inputValueAt?, found, taken]
  · intro a x taken
    have named : x.2.name = x.1 := fresh.arguments.toKeyed.at?_name taken
    simp [Graph.path, elementPath, found, taken, named, own, ElementPath.child,
      ElementPath.directive]

end Walk

/-- The graph without the bindings of its schema block. -/
def unbound (g : Graph) : Graph :=
  { g with block := g.block.map fun b => { b with operations := [] } }

theorem unbound_usages (g : Graph) (e : ElementId) : g.unbound.usages e = g.usages e := by
  cases e with
  | schema =>
    simp only [usages, elementUsages, unbound]
    cases g.block <;> rfl
  | _ => rfl

theorem Fresh.unbound {g : Graph} (fresh : g.Fresh) : g.unbound.Fresh where
  types := fresh.types
  directives := fresh.directives
  block := by
    intro b declared
    obtain ⟨old, found, rfl⟩ := Option.map_eq_some_iff.mp declared
    exact ⟨(fresh.block old found).usages, by simp⟩
  root := fresh.root

/-- The mentions that bind operations come last. -/
theorem mentions_eq (g : Graph) :
    g.mentions = g.unbound.mentions ++
      ((g.block.map SchemaBlock.operations).getD []).map OperationBinding.mention := by
  rw [mentions, mentions, unbound]
  cases g.block with
  | none => simp
  | some b => simp [Mention.ofBlock, OperationBinding.mention]

theorem places_mentions {g : Graph} (fresh : g.Fresh) : ∀ m ∈ g.unbound.mentions, g.Places m := by
  intro m member
  simp only [mentions, List.mem_append] at member
  rcases member with (type | directive) | block
  · obtain ⟨i, ⟨name, d⟩, found, inside⟩ := mem_flatten_mapIdx.mp type
    have entry : g.types.at? (TypeId.mk i).index = some (name, d) := found
    have present := (Table.mem_entries_iff _ _).mpr ⟨i, found⟩
    rw [Mention.ofType, ← path_type entry] at inside
    rcases List.mem_append.mp inside with used | body
    · refine places_ofUsages ?_ m used
      simp [usages, elementUsages, entry]
    · exact places_ofBody entry (fresh.types.named _ present) (fresh.types.each _ present) m body
  · obtain ⟨i, e, found, inside⟩ := mem_values_flatten.mp directive
    have entry : g.directives.at? (DirectiveId.mk i).index = some e := found
    have present := (Table.mem_entries_iff _ _).mpr ⟨i, found⟩
    exact places_ofDirective entry (fresh.directives.named _ present)
      (fresh.directives.each _ present) m inside
  · cases declared : g.block with
    | none => simp [unbound, declared] at block
    | some b =>
      have used : m ∈ Mention.ofUsages .schema (g.path .schema) b.usages := by
        simpa [unbound, declared, Mention.ofBlock, path, elementPath] using block
      refine places_ofUsages ?_ m used
      simp [usages, elementUsages, declared]

/-- Interfaces are listed under their own names. -/
theorem Fresh.refAt?_implements {g : Graph} (fresh : g.Fresh) {t : TypeId} {name : String}
    {ref : TypeRef} (found : g.refAt? (.implements t name) = some ref) : ref.name = name := by
  obtain ⟨shape, shapes, entry⟩ := Option.bind_eq_some_iff.mp found
  obtain ⟨d, owner, shaped⟩ := Option.bind_eq_some_iff.mp shapes
  exact ((fresh.of_typeAt? owner).shape shaped).implements.toKeyed.name_of_get? entry

/-- What stands in a slot is named at the site of its mention. -/
theorem namedAt_of_mentionAt? {g : Graph} (fresh : g.Fresh) {slot : Slot} {m : Mention}
    (mentioned : g.mentionAt? slot = some m) (elsewhere : ∀ i, slot ≠ .operation i) :
    Site.slot? m.site = some slot ∧ g.unbound.NamedAt m.site.1 m.site.2 := by
  cases slot with
  | typeUse e =>
    obtain ⟨ref, found, rfl⟩ := Option.map_eq_some_iff.mp mentioned
    obtain ⟨a, declared, rfl⟩ := Option.map_eq_some_iff.mp found
    exact ⟨rfl, a, declared, rfl⟩
  | implements t name =>
    obtain ⟨ref, found, rfl⟩ := Option.map_eq_some_iff.mp mentioned
    obtain ⟨shape, shapes, entry⟩ := Option.bind_eq_some_iff.mp found
    obtain ⟨d, owner, shaped⟩ := Option.bind_eq_some_iff.mp shapes
    have named : ref.name = name := fresh.refAt?_implements found
    have listed : ref.name ∈ shape.implements.keys := by
      rw [named]
      exact Table.mem_keys_of_get? entry
    exact ⟨by rw [← named]; rfl, d, shape, owner, shaped, listed⟩
  | unionMember t name =>
    obtain ⟨d, owner, rest⟩ := Option.bind_eq_some_iff.mp mentioned
    obtain ⟨ref, found, rfl⟩ := Option.map_eq_some_iff.mp rest
    obtain ⟨members, union, entry⟩ := Option.bind_eq_some_iff.mp found
    rw [owner, Option.bind_some, TypeDef.members?_eq_some_iff] at union
    have named : ref.name = name :=
      ((fresh.of_typeAt? owner).members union).toKeyed.name_of_get? entry
    have listed : ref.name ∈ members.keys := by
      rw [named]
      exact Table.mem_keys_of_get? entry
    exact ⟨by rw [← named]; rfl, d, members, owner, union, listed⟩
  | operation i => exact absurd rfl (elsewhere i)
  | usage u =>
    obtain ⟨x, found, rfl⟩ := Option.map_eq_some_iff.mp mentioned
    refine ⟨rfl, x, ?_, rfl⟩
    rw [unbound_usages]
    exact found

/-- What each slot mentions, in the order of the mentions. -/
def placed (g : Graph) : List (Slot × Mention) :=
  (g.unbound.mentions.filterMap fun m => (Site.slot? m.site).map fun slot => (slot, m)) ++
    ((g.block.map SchemaBlock.operations).getD []).mapIdx fun i o => (.operation i, o.mention)

/-- No other slot is a binding. -/
theorem slot?_ne_operation (x : Site × String) (i : Nat) : Site.slot? x ≠ some (.operation i) := by
  unfold Site.slot?
  split <;> simp

theorem mem_placed {g : Graph} (fresh : g.Fresh) (slot : Slot) (m : Mention) :
    (slot, m) ∈ g.placed ↔ g.mentionAt? slot = some m := by
  rw [placed, List.mem_append]
  constructor
  · rintro (standing | bound)
    · obtain ⟨m', member, given⟩ := List.mem_filterMap.mp standing
      obtain ⟨slot', place, same⟩ := Option.map_eq_some_iff.mp given
      obtain ⟨slot'', place', mentioned⟩ := places_mentions fresh m' member
      cases same
      cases place.symm.trans place'
      exact mentioned
    · obtain ⟨i, o, entry, same⟩ := mem_mapIdx_iff.mp bound
      cases same
      cases declared : g.block with
      | none => simp [declared] at entry
      | some b =>
        have found : b.operations[i]? = some o := by simpa [declared] using entry
        simp [mentionAt?, bindingAt?, declared, found]
  · intro mentioned
    by_cases operation : ∃ i, slot = .operation i
    · obtain ⟨i, rfl⟩ := operation
      obtain ⟨o, found, rfl⟩ := Option.map_eq_some_iff.mp mentioned
      obtain ⟨b, declared, entry⟩ := Option.bind_eq_some_iff.mp found
      exact Or.inr (mem_mapIdx_iff.mpr ⟨i, o, by simpa [declared] using entry, rfl⟩)
    · left
      obtain ⟨place, named⟩ := namedAt_of_mentionAt? fresh mentioned fun i same =>
        operation ⟨i, same⟩
      -- The site is listed with some mention, and the slot gives this mention as well.
      rw [← mem_sites_iff fresh.unbound, ← map_site_mentions] at named
      obtain ⟨m', member, site⟩ := List.mem_map.mp named
      obtain ⟨slot', place', mentioned'⟩ := places_mentions fresh m' member
      have site' : m'.site = m.site := site
      rw [site', place] at place'
      cases place'
      cases mentioned.symm.trans mentioned'
      exact List.mem_filterMap.mpr ⟨m, member, by rw [place]; rfl⟩

theorem map_snd_placed {g : Graph} (fresh : g.Fresh) : g.placed.map Prod.snd = g.mentions := by
  have standing : g.unbound.mentions.filterMap
      (fun m => ((Site.slot? m.site).map fun slot => (slot, m)).map Prod.snd) =
        g.unbound.mentions.filterMap some := by
    refine List.filterMap_congr fun m member => ?_
    obtain ⟨slot, place, _⟩ := places_mentions fresh m member
    rw [place]
    rfl
  have bound : (((g.block.map SchemaBlock.operations).getD []).mapIdx
      fun i o => (Slot.operation i, o.mention)).map Prod.snd =
        ((g.block.map SchemaBlock.operations).getD []).map OperationBinding.mention := by
    apply List.ext_getElem?
    intro i
    simp [Function.comp_def]
  rw [placed, List.map_append, List.map_filterMap, standing, List.filterMap_some, bound,
    g.mentions_eq]

theorem nodup_placed {g : Graph} (fresh : g.Fresh) : (g.placed.map Prod.fst).Nodup := by
  have sites : g.unbound.sites.Nodup := by
    refine nodup_sites fresh.unbound fun b declared => ?_
    obtain ⟨old, _, rfl⟩ := Option.map_eq_some_iff.mp declared
    exact List.nodup_nil
  have mentions : g.unbound.mentions.Nodup := by
    rw [← map_site_mentions] at sites
    exact sites.of_map _
  have distinct : g.placed.Nodup := by
    rw [placed, List.nodup_append]
    refine ⟨mentions.filterMap ?_, nodup_mapIdx (fun x => match x.1 with
      | .operation i => some i
      | _ => none) fun _ _ _ => rfl, ?_⟩
    · intro m m' x given given'
      obtain ⟨_, _, rfl⟩ := Option.map_eq_some_iff.mp given
      obtain ⟨_, _, same⟩ := Option.map_eq_some_iff.mp given'
      exact (congrArg Prod.snd same).symm
    · intro x standing y bound same
      obtain ⟨i, o, _, rfl⟩ := mem_mapIdx_iff.mp bound
      obtain ⟨m, _, given⟩ := List.mem_filterMap.mp standing
      obtain ⟨slot, place, rfl⟩ := Option.map_eq_some_iff.mp given
      cases same
      exact slot?_ne_operation _ i place
  refine distinct.map_on ?_
  rintro ⟨slot, m⟩ member ⟨slot', m'⟩ member' same
  have mentioned := (mem_placed fresh slot m).mp member
  have mentioned' := (mem_placed fresh slot' m').mp member'
  cases same
  cases mentioned.symm.trans mentioned'
  rfl

/-! What linking leaves open, and what it reports. -/

theorem dangling?_type (names : Names) (m : TypeMention) (d : Diagnostic) :
    names.dangling? (.type m) = some d ↔
      names.type? m.name = none ∧ ⟨m.undefined, some m.location, m.path⟩ = d := by
  simp only [Names.dangling?]
  cases names.type? m.name <;> simp

theorem dangling?_directive (names : Names) (m : UsageMention) (d : Diagnostic) :
    names.dangling? (.directive m) = some d ↔
      names.directive? m.name = none ∧ ⟨.undefinedDirective m.name m.owner, some m.location,
        m.owner.child (.usage m.name)⟩ = d := by
  simp only [Names.dangling?]
  cases names.directive? m.name <;> simp

/-- A slot is left open if what it mentions is not defined. -/
theorem linked_open_iff (g : Graph) (slot : Slot) (d : Diagnostic) :
    g.linked.Open slot d ↔ ∃ m, g.mentionAt? slot = some m ∧ g.names.dangling? m = some d := by
  constructor
  · intro opened
    cases opened with
    | typeUse e ref found unset =>
      rw [linked_refAt?, Option.map_eq_some_iff] at found
      obtain ⟨old, found, rfl⟩ := found
      refine ⟨_, by rw [mentionAt?, found]; rfl, ?_⟩
      rw [dangling?_type, linked_path]
      exact ⟨unset, rfl⟩
    | implements t name ref found unset =>
      rw [linked_refAt?, Option.map_eq_some_iff] at found
      obtain ⟨old, found, rfl⟩ := found
      refine ⟨_, by rw [mentionAt?, found]; rfl, ?_⟩
      rw [dangling?_type, linked_path]
      exact ⟨unset, rfl⟩
    | unionMember t d name ref owner found unset =>
      rw [linked_refAt?, Option.map_eq_some_iff] at found
      rw [linked_typeAt?, Option.map_eq_some_iff] at owner
      obtain ⟨old, found, rfl⟩ := found
      obtain ⟨d, owner, rfl⟩ := owner
      refine ⟨_, by rw [mentionAt?, owner, Option.bind_some, found]; rfl, ?_⟩
      rw [dangling?_type, linked_path]
      exact ⟨unset, rfl⟩
    | operation index o found unset =>
      rw [linked_bindingAt?, Option.map_eq_some_iff] at found
      obtain ⟨old, found, rfl⟩ := found
      refine ⟨_, by rw [mentionAt?, found]; rfl, ?_⟩
      rw [OperationBinding.mention, dangling?_type]
      exact ⟨unset, rfl⟩
    | usage u x found unset =>
      rw [linked_usageAt?, Option.map_eq_some_iff] at found
      obtain ⟨old, found, rfl⟩ := found
      refine ⟨_, by rw [mentionAt?, found]; rfl, ?_⟩
      rw [dangling?_directive, linked_path]
      exact ⟨unset, rfl⟩
  · rintro ⟨m, mentioned, dangling⟩
    cases slot with
    | typeUse e =>
      obtain ⟨ref, found, rfl⟩ := Option.map_eq_some_iff.mp mentioned
      obtain ⟨unset, rfl⟩ := (dangling?_type _ _ d).mp dangling
      rw [← linked_path]
      exact .typeUse e (g.names.linkRef ref) (by rw [linked_refAt?, found]; rfl) unset
    | implements t name =>
      obtain ⟨ref, found, rfl⟩ := Option.map_eq_some_iff.mp mentioned
      obtain ⟨unset, rfl⟩ := (dangling?_type _ _ d).mp dangling
      rw [← linked_path]
      exact .implements t name (g.names.linkRef ref) (by rw [linked_refAt?, found]; rfl) unset
    | unionMember t name =>
      obtain ⟨owner, known, rest⟩ := Option.bind_eq_some_iff.mp mentioned
      obtain ⟨ref, found, rfl⟩ := Option.map_eq_some_iff.mp rest
      obtain ⟨unset, rfl⟩ := (dangling?_type _ _ d).mp dangling
      rw [← linked_path]
      exact .unionMember t (g.names.linkType t (referencesOf t g.typeReferences) owner) name
        (g.names.linkRef ref) (by rw [linked_typeAt?, known]; rfl)
        (by rw [linked_refAt?, found]; rfl) unset
    | operation index =>
      obtain ⟨o, found, rfl⟩ := Option.map_eq_some_iff.mp mentioned
      obtain ⟨unset, rfl⟩ := (dangling?_type _ _ d).mp dangling
      exact .operation index { o with type := g.names.linkRef o.type }
        (by rw [linked_bindingAt?, found]; rfl) unset
    | usage u =>
      obtain ⟨x, found, rfl⟩ := Option.map_eq_some_iff.mp mentioned
      obtain ⟨unset, rfl⟩ := (dangling?_directive _ _ d).mp dangling
      rw [← linked_path]
      exact .usage u (g.names.linkUsage u.owner x) (by rw [linked_usageAt?, found]; rfl) unset

/-- The open slots, each with its diagnostic, in the order of the reports. -/
def opened (g : Graph) : List (Slot × Diagnostic) :=
  g.placed.filterMap fun x => (g.names.dangling? x.2).map fun d => (x.1, d)

theorem mem_opened {g : Graph} (fresh : g.Fresh) (slot : Slot) (d : Diagnostic) :
    (slot, d) ∈ g.opened ↔ g.linked.Open slot d := by
  rw [linked_open_iff, opened, List.mem_filterMap]
  constructor
  · rintro ⟨⟨slot', m⟩, member, given⟩
    obtain ⟨d', dangling, same⟩ := Option.map_eq_some_iff.mp given
    cases same
    exact ⟨m, (mem_placed fresh _ m).mp member, dangling⟩
  · rintro ⟨m, mentioned, dangling⟩
    exact ⟨(slot, m), (mem_placed fresh slot m).mpr mentioned, by rw [dangling]; rfl⟩

theorem map_snd_opened {g : Graph} (fresh : g.Fresh) :
    g.opened.map Prod.snd = g.danglingNames := by
  rw [danglingNames, ← map_snd_placed fresh, List.filterMap_map, opened, List.map_filterMap]
  refine List.filterMap_congr fun x _ => ?_
  rw [Function.comp_apply]
  cases g.names.dangling? x.2 <;> rfl

theorem nodup_opened {g : Graph} (fresh : g.Fresh) : (g.opened.map Prod.fst).Nodup := by
  have distinct := nodup_placed fresh
  rw [List.Nodup, List.pairwise_map] at distinct
  rw [List.Nodup, List.pairwise_map, opened, List.pairwise_filterMap]
  refine distinct.imp fun {x y} apart a given b given' => ?_
  obtain ⟨_, _, rfl⟩ := Option.map_eq_some_iff.mp given
  obtain ⟨_, _, rfl⟩ := Option.map_eq_some_iff.mp given'
  exact apart

theorem Fresh.refFound_linkRef {g : Graph} (fresh : g.Fresh) (ref : TypeRef) :
    g.linked.RefFound (g.names.linkRef ref) := by
  intro t
  have target : (g.names.linkRef ref).target = g.linked.typeId? ref.name :=
    (g.linked_typeId? ref.name).symm
  rw [target, Graph.typeId?_eq_some_iff fresh.linked_types_distinct]
  rfl

theorem Fresh.usageFound_linkUsage {g : Graph} (fresh : g.Fresh) (owner : ElementId) (u : Usage) :
    g.linked.UsageFound (g.names.linkUsage owner u) := by
  intro id
  have definition : (g.names.linkUsage owner u).definition = g.linked.directiveId? u.name := by
    rw [directiveId?, Table.indexOf?, linked_directives_keys]
    rfl
  rw [definition, Graph.directiveId?_eq_some_iff fresh.linked_directives_distinct]
  rfl

/-- Every name that a slot holds is the name of a definition. -/
def AllDefined (g : Graph) : Prop :=
  (∀ slot ref, g.refAt? slot = some ref → ref.name ∈ g.types.keys) ∧
    ∀ u x, g.usageAt? u = some x → x.name ∈ g.directives.keys

theorem linkRef_target_eq_none_iff (g : Graph) (ref : TypeRef) :
    (g.names.linkRef ref).target = none ↔ ref.name ∉ g.types.keys := by
  have target : (g.names.linkRef ref).target = (g.types.indexOf? ref.name).map TypeId.mk := rfl
  rw [target, Option.map_eq_none_iff, Table.indexOf?_eq_none_iff]

theorem linkUsage_definition_eq_none_iff (g : Graph) (owner : ElementId) (u : Usage) :
    (g.names.linkUsage owner u).definition = none ↔ u.name ∉ g.directives.keys := by
  have definition : (g.names.linkUsage owner u).definition =
      (g.directives.indexOf? u.name).map DirectiveId.mk := rfl
  rw [definition, Option.map_eq_none_iff, Table.indexOf?_eq_none_iff]

/-- A reference that is open can be told about. -/
theorem exists_open {g : Graph} {slot : Slot} {ref : TypeRef} (found : g.refAt? slot = some ref)
    (unset : ref.target = none) : ∃ d, g.Open slot d := by
  cases slot with
  | typeUse e => exact ⟨_, .typeUse e ref found unset⟩
  | implements t name => exact ⟨_, .implements t name ref found unset⟩
  | unionMember t name =>
    obtain ⟨members, owned, _⟩ := Option.bind_eq_some_iff.mp found
    obtain ⟨d, owner, _⟩ := Option.bind_eq_some_iff.mp owned
    exact ⟨_, .unionMember t d name ref owner found unset⟩
  | operation index =>
    obtain ⟨o, bound, rfl⟩ := Option.map_eq_some_iff.mp found
    exact ⟨_, .operation index o bound unset⟩
  | usage u => cases found

/-- What is told about is an open reference. -/
theorem Open.unset {g : Graph} {slot : Slot} {d : Diagnostic} (opened : g.Open slot d) :
    (∃ ref, g.refAt? slot = some ref ∧ ref.target = none) ∨
      ∃ u x, g.usageAt? u = some x ∧ x.definition = none := by
  cases opened with
  | typeUse e ref found unset => exact .inl ⟨ref, found, unset⟩
  | implements t name ref found unset => exact .inl ⟨ref, found, unset⟩
  | unionMember t d name ref owner found unset => exact .inl ⟨ref, found, unset⟩
  | operation index o found unset => exact .inl ⟨o.type, by rw [refAt?, found]; rfl, unset⟩
  | usage u x found unset => exact .inr ⟨u, x, found, unset⟩

theorem linked_open_none_iff (g : Graph) :
    (∀ slot d, ¬ g.linked.Open slot d) ↔ g.AllDefined := by
  constructor
  · intro none
    constructor
    · intro slot ref found
      refine Decidable.not_not.mp fun undefined => ?_
      obtain ⟨d, opened⟩ := exists_open (by rw [linked_refAt?, found]; rfl)
        ((g.linkRef_target_eq_none_iff ref).mpr undefined)
      exact none slot d opened
    · intro u x found
      refine Decidable.not_not.mp fun undefined => ?_
      exact none _ _ (.usage u _ (by rw [linked_usageAt?, found]; rfl)
        ((g.linkUsage_definition_eq_none_iff u.owner x).mpr undefined))
  · rintro ⟨types, directives⟩ slot d opened
    rcases opened.unset with ⟨ref, found, unset⟩ | ⟨u, x, found, unset⟩
    · rw [linked_refAt?, Option.map_eq_some_iff] at found
      obtain ⟨old, found, rfl⟩ := found
      exact (g.linkRef_target_eq_none_iff old).mp unset (types slot old found)
    · rw [linked_usageAt?, Option.map_eq_some_iff] at found
      obtain ⟨old, found, rfl⟩ := found
      exact (g.linkUsage_definition_eq_none_iff u.owner old).mp unset (directives u old found)

end Graph

/-- Linking a collected graph keeps every reference in its slot and sets it to the definition of its
name if there is one. What it reports are the references left open, each once and with its own
location and path, so it reports nothing exactly if every name is defined. -/
theorem link_complete (declarations : List Sourced) :
    let g := (Graph.collect declarations).value
    let linked := g.link.value
    (∀ slot, Option.Rel (fun old new => new.name = old.name ∧ new.location = old.location ∧
        linked.RefFound new) (g.refAt? slot) (linked.refAt? slot)) ∧
      (∀ u, Option.Rel (fun old new => new.name = old.name ∧ new.location = old.location ∧
        new.arguments = old.arguments ∧ linked.UsageFound new) (g.usageAt? u) (linked.usageAt? u)) ∧
      (∃ opened : List (Slot × Diagnostic), opened.map Prod.snd = g.link.problems ∧
        (opened.map Prod.fst).Nodup ∧ ∀ slot d, (slot, d) ∈ opened ↔ linked.Open slot d) ∧
      (g.link.problems = [] ↔ g.AllDefined) := by
  intro g linked
  have fresh : g.Fresh := Graph.collect_fresh declarations
  have listed : ∃ opened : List (Slot × Diagnostic), opened.map Prod.snd = g.link.problems ∧
      (opened.map Prod.fst).Nodup ∧ ∀ slot d, (slot, d) ∈ opened ↔ linked.Open slot d :=
    ⟨g.opened, by rw [Graph.map_snd_opened fresh, Graph.link_problems], Graph.nodup_opened fresh,
      Graph.mem_opened fresh⟩
  refine ⟨fun slot => ?_, fun u => ?_, listed, ?_⟩
  · have image : linked.refAt? slot = (g.refAt? slot).map g.names.linkRef := g.linked_refAt? slot
    rw [image]
    cases g.refAt? slot with
    | none => exact .none
    | some ref => exact .some ⟨rfl, rfl, fresh.refFound_linkRef ref⟩
  · have image : linked.usageAt? u = (g.usageAt? u).map (g.names.linkUsage u.owner) :=
      g.linked_usageAt? u
    rw [image]
    cases g.usageAt? u with
    | none => exact .none
    | some x => exact .some ⟨rfl, rfl, rfl, fresh.usageFound_linkUsage u.owner x⟩
  · obtain ⟨opened, problems, _, exact⟩ := listed
    rw [← g.linked_open_none_iff, ← problems, List.map_eq_nil_iff, List.eq_nil_iff_forall_not_mem]
    exact ⟨fun none slot d isOpen => none (slot, d) ((exact slot d).mpr isOpen),
      fun none x member => none x.1 x.2 ((exact x.1 x.2).mp member)⟩

end SchemaAtlas
