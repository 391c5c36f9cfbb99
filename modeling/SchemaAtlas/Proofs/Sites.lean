import Mathlib.Data.List.Nodup
import SchemaAtlas.Proofs.Linking

/-!
# Sites

The list of mentions holds each place that names a type or a directive exactly once. The places
are given by lookups: the type that an element is declared with, the interfaces a type lists, the
members of a union, the bindings of the schema block, and the usages on an element.
-/

namespace SchemaAtlas

section Positions

variable {α β : Type}

theorem mem_flatten_mapIdx {l : List α} {f : Nat → α → List β} {b : β} :
    b ∈ (l.mapIdx f).flatten ↔ ∃ i a, l[i]? = some a ∧ b ∈ f i a := by
  rw [List.mem_flatten]
  constructor
  · rintro ⟨part, member, inside⟩
    obtain ⟨i, found⟩ := List.mem_iff_getElem?.mp member
    rw [List.getElem?_mapIdx, Option.map_eq_some_iff] at found
    obtain ⟨a, present, rfl⟩ := found
    exact ⟨i, a, present, inside⟩
  · rintro ⟨i, a, present, inside⟩
    refine ⟨f i a, List.mem_iff_getElem?.mpr ⟨i, ?_⟩, inside⟩
    rw [List.getElem?_mapIdx, present, Option.map_some]

theorem mem_mapIdx_iff {l : List α} {f : Nat → α → β} {b : β} :
    b ∈ l.mapIdx f ↔ ∃ i a, l[i]? = some a ∧ b = f i a := by
  rw [List.mem_iff_getElem?]
  constructor
  · rintro ⟨i, found⟩
    rw [List.getElem?_mapIdx, Option.map_eq_some_iff] at found
    obtain ⟨a, present, rfl⟩ := found
    exact ⟨i, a, present, rfl⟩
  · rintro ⟨i, a, present, rfl⟩
    exact ⟨i, by rw [List.getElem?_mapIdx, present, Option.map_some]⟩

/-- Parts without repetitions that can be told apart by a position make up a list without any. -/
theorem nodup_flatten_mapIdx (position : β → Option Nat) {l : List α} {f : Nat → α → List β}
    (parts : ∀ i a, l[i]? = some a → (f i a).Nodup)
    (placed : ∀ i a, l[i]? = some a → ∀ b ∈ f i a, position b = some i) :
    (l.mapIdx f).flatten.Nodup := by
  rw [List.nodup_flatten]
  constructor
  · intro part member
    obtain ⟨i, a, present, rfl⟩ := mem_mapIdx_iff.mp member
    exact parts i a present
  · rw [List.pairwise_iff_getElem]
    intro i j hi hj before
    have first : l[i]? = some (l.get ⟨i, by simpa using hi⟩) := by simp
    have second : l[j]? = some (l.get ⟨j, by simpa using hj⟩) := by simp
    rw [List.getElem_mapIdx, List.getElem_mapIdx]
    intro b inFirst inSecond
    have same := (placed i _ first b inFirst).symm.trans (placed j _ second b inSecond)
    have equal : i = j := Option.some.inj same
    omega

theorem nodup_mapIdx (position : β → Option Nat) {l : List α} {f : Nat → α → β}
    (placed : ∀ i a, l[i]? = some a → position (f i a) = some i) : (l.mapIdx f).Nodup := by
  rw [List.nodup_iff_getElem?_ne_getElem?]
  intro i j before bound same
  have hj : j < l.length := by simpa using bound
  have hi : i < l.length := by omega
  have first := placed i _ (List.getElem?_eq_getElem hi)
  have second := placed j _ (List.getElem?_eq_getElem hj)
  rw [List.getElem?_mapIdx, List.getElem?_mapIdx, List.getElem?_eq_getElem hi,
    List.getElem?_eq_getElem hj, Option.map_some, Option.map_some, Option.some.injEq] at same
  rw [same, second] at first
  have equal : j = i := Option.some.inj first
  omega

theorem map_mapIdx {γ : Type} (g : β → γ) (f : Nat → α → β) (l : List α) :
    (l.mapIdx f).map g = l.mapIdx fun i a => g (f i a) := by
  apply List.ext_getElem?
  intro i
  simp [Function.comp_def]

theorem mapIdx_map {γ : Type} (f : Nat → β → γ) (g : α → β) (l : List α) :
    (l.map g).mapIdx f = l.mapIdx fun i a => f i (g a) := by
  apply List.ext_getElem?
  intro i
  simp [Function.comp_def]

theorem mem_values_flatten {t : Table α} {f : Nat → α → List β} {b : β} :
    b ∈ (t.values.mapIdx f).flatten ↔ ∃ i e, t.at? i = some e ∧ b ∈ f i e.2 := by
  rw [mem_flatten_mapIdx]
  constructor
  · rintro ⟨i, a, found, inside⟩
    rw [Table.values_getElem?, Option.map_eq_some_iff] at found
    obtain ⟨e, entry, rfl⟩ := found
    exact ⟨i, e, entry, inside⟩
  · rintro ⟨i, e, entry, inside⟩
    exact ⟨i, e.2, by rw [Table.values_getElem?, entry, Option.map_some], inside⟩

end Positions

namespace ElementId

/-- The position of the type or directive that this element is, or belongs to. -/
def definitionIndex? : ElementId → Option Nat
  | schema => none
  | type t | field t _ | fieldArgument t _ _ | inputField t _ | enumValue t _ => some t.index
  | directive d | directiveArgument d _ => some d.index

/-- The position of the member that this element is, or belongs to. -/
def memberIndex? : ElementId → Option Nat
  | schema | type _ | directive _ => none
  | field _ f | fieldArgument _ f _ | inputField _ f => some f
  | enumValue _ v => some v
  | directiveArgument _ a => some a

/-- The position of an argument of a field. -/
def argumentIndex? : ElementId → Option Nat
  | fieldArgument _ _ a => some a
  | _ => none

end ElementId

/-- A place that names a type or a directive. -/
inductive Site where
  | type (reference : Reference)
  | usage (usage : UsageId)

def Site.element : Site → ElementId
  | type r => r.site
  | usage u => u.owner

/-- The place of a mention and the name that stands there. -/
def Mention.site : Mention → Site × String
  | type m => (.type ⟨m.kind, m.site⟩, m.name)
  | directive m => (.usage m.usage, m.name)

/-! The places within each part of a graph. -/

def usageSites (owner : ElementId) (us : List Usage) : List (Site × String) :=
  us.mapIdx fun i u => (.usage ⟨owner, i⟩, u.name)

def typeUseSite (self : ElementId) (a : TypeUse) : Site × String :=
  (.type ⟨.typeUse, self⟩, a.innermost.name)

/-- The usages on an element that is declared with a type, then this type. -/
def typedSites (self : ElementId) (us : List Usage) (a : TypeUse) : List (Site × String) :=
  usageSites self us ++ [typeUseSite self a]

def InputValue.sites (self : ElementId) (v : InputValue) : List (Site × String) :=
  typedSites self v.usages v.type

def inputSites (self : Nat → ElementId) (t : Table InputValue) : List (Site × String) :=
  (t.values.mapIdx fun i v => v.sites (self i)).flatten

def Field.sites (t : TypeId) (index : Nat) (f : Field) : List (Site × String) :=
  typedSites (.field t index) f.usages f.type ++ inputSites (.fieldArgument t index) f.arguments

def refSites (kind : ReferenceKind) (t : TypeId) (refs : Table TypeRef) : List (Site × String) :=
  refs.values.map fun ref => (.type ⟨kind, .type t⟩, ref.name)

def Shape.sites (t : TypeId) (s : Shape) : List (Site × String) :=
  refSites .implements t s.implements ++ (s.fields.values.mapIdx fun i f => f.sites t i).flatten

def TypeBody.sites (t : TypeId) : TypeBody → List (Site × String)
  | enum values => (values.values.mapIdx fun i v => usageSites (.enumValue t i) v.usages).flatten
  | inputObject fields => inputSites (.inputField t) fields
  | interface shape | object shape => shape.sites t
  | scalar => []
  | union members => refSites .unionMember t members

def TypeDef.sites (t : TypeId) (d : TypeDef) : List (Site × String) :=
  usageSites (.type t) d.usages ++ d.body.sites t

def SchemaBlock.sites (b : SchemaBlock) : List (Site × String) :=
  usageSites .schema b.usages ++
    b.operations.map fun o => (.type ⟨.operation o.kind, .schema⟩, o.type.name)

def Graph.sites (g : Graph) : List (Site × String) :=
  (g.types.values.mapIdx fun i d => d.sites ⟨i⟩).flatten ++
  (g.directives.values.mapIdx fun i d => inputSites (.directiveArgument ⟨i⟩) d.arguments).flatten ++
  (g.block.map SchemaBlock.sites).getD []

namespace Mention

theorem map_site_flatten {α : Type} {l : List α} {f : Nat → α → List Mention}
    {sites : Nat → α → List (Site × String)} (part : ∀ i a, (f i a).map site = sites i a) :
    (l.mapIdx f).flatten.map site = (l.mapIdx sites).flatten := by
  have parts : (fun i a => (f i a).map site) = sites := by
    funext i a
    exact part i a
  rw [List.map_flatten, map_mapIdx, parts]

@[simp] theorem map_site_ofUsages (owner : ElementId) (path : ElementPath) (us : List Usage) :
    (ofUsages owner path us).map site = usageSites owner us := by
  rw [ofUsages, map_mapIdx]
  rfl

@[simp] theorem map_site_ofInputValues (self : Nat → ElementId) (container : ElementPath)
    (segment : String → PathSegment) (t : Table InputValue) :
    (ofInputValues self container segment t).map site = inputSites self t := by
  refine map_site_flatten fun i v => ?_
  simp [ofInputValue, InputValue.sites, typedSites, ofTypeUse, site, typeUseSite]

@[simp] theorem map_site_ofField (t : TypeId) (index : Nat) (path : ElementPath) (f : Field) :
    (ofField t index path f).map site = f.sites t index := by
  simp [ofField, Field.sites, typedSites, ofTypeUse, site, typeUseSite]

@[simp] theorem map_site_ofShape (t : TypeId) (path : ElementPath) (s : Shape) :
    (ofShape t path s).map site = s.sites t := by
  rw [ofShape, List.map_append, List.map_map, Shape.sites, map_site_flatten]
  · rfl
  · exact fun i f => map_site_ofField t i path f

@[simp] theorem map_site_ofBody (t : TypeId) (name : String) (path : ElementPath) (b : TypeBody) :
    (ofBody t name path b).map site = b.sites t := by
  cases b with
  | enum values => exact map_site_flatten fun i v => map_site_ofUsages _ _ v.usages
  | inputObject fields => exact map_site_ofInputValues _ _ _ fields
  | interface shape => exact map_site_ofShape t path shape
  | object shape => exact map_site_ofShape t path shape
  | scalar => rfl
  | union members =>
    simp only [ofBody, List.map_map]
    rfl

end Mention

/-- The mentions of a graph stand at its sites, in the same order. -/
theorem Graph.map_site_mentions (g : Graph) : g.mentions.map Mention.site = g.sites := by
  have types : ((g.types.entries.mapIdx fun i e => Mention.ofType ⟨i⟩ e.1 e.2).flatten).map
      Mention.site = (g.types.values.mapIdx fun i d => d.sites ⟨i⟩).flatten := by
    rw [Table.values, mapIdx_map]
    refine Mention.map_site_flatten fun i e => ?_
    simp [Mention.ofType, TypeDef.sites]
  have directives : ((g.directives.values.mapIdx fun i d => Mention.ofDirective ⟨i⟩ d).flatten).map
      Mention.site = (g.directives.values.mapIdx fun i d =>
        inputSites (.directiveArgument ⟨i⟩) d.arguments).flatten :=
    Mention.map_site_flatten fun i d => Mention.map_site_ofInputValues _ _ _ _
  rw [mentions, List.map_append, List.map_append, types, directives, sites]
  cases g.block with
  | none => rfl
  | some b => simp [Mention.ofBlock, SchemaBlock.sites, Mention.site]

@[simp] theorem mem_usageSites {owner : ElementId} {us : List Usage} {x : Site × String} :
    x ∈ usageSites owner us ↔ ∃ i u, us[i]? = some u ∧ x = (.usage ⟨owner, i⟩, u.name) :=
  mem_mapIdx_iff

@[simp] theorem mem_typedSites {self : ElementId} {us : List Usage} {a : TypeUse}
    {x : Site × String} :
    x ∈ typedSites self us a ↔ x ∈ usageSites self us ∨ x = typeUseSite self a := by
  simp [typedSites]

@[simp] theorem mem_inputSites {self : Nat → ElementId} {t : Table InputValue}
    {x : Site × String} :
    x ∈ inputSites self t ↔
      ∃ i e, t.at? i = some e ∧ x ∈ typedSites (self i) e.2.usages e.2.type :=
  mem_values_flatten

@[simp] theorem Field.mem_sites {t : TypeId} {index : Nat} {f : Field} {x : Site × String} :
    x ∈ f.sites t index ↔ x ∈ typedSites (.field t index) f.usages f.type ∨
      x ∈ inputSites (.fieldArgument t index) f.arguments :=
  List.mem_append

@[simp] theorem Shape.mem_sites {t : TypeId} {s : Shape} {x : Site × String} :
    x ∈ s.sites t ↔ x ∈ refSites .implements t s.implements ∨
      ∃ i e, s.fields.at? i = some e ∧ x ∈ e.2.sites t i := by
  rw [sites, List.mem_append, mem_values_flatten]

@[simp] theorem TypeBody.mem_sites_enum {t : TypeId} {values : Table EnumValue}
    {x : Site × String} :
    x ∈ (enum values).sites t ↔
      ∃ i e, values.at? i = some e ∧ x ∈ usageSites (.enumValue t i) e.2.usages :=
  mem_values_flatten

@[simp] theorem TypeDef.mem_sites {t : TypeId} {d : TypeDef} {x : Site × String} :
    x ∈ d.sites t ↔ x ∈ usageSites (.type t) d.usages ∨
      (∃ shape, d.shape? = some shape ∧ x ∈ shape.sites t) ∨
      (∃ fields, d.inputFields? = some fields ∧ x ∈ inputSites (.inputField t) fields) ∨
      (∃ values, d.enumValues? = some values ∧ x ∈ (TypeBody.enum values).sites t) ∨
      ∃ members, d.body = .union members ∧ x ∈ refSites .unionMember t members := by
  obtain ⟨_, _, _, _, usages, body, _, _⟩ := d
  cases body <;> simp only [sites, shape?, inputFields?, enumValues?, TypeBody.sites,
    List.mem_append, List.not_mem_nil, Option.some.injEq, TypeBody.union.injEq, reduceCtorEq,
    exists_eq_left', false_and, exists_false, or_false, false_or]

/-- Names stand in a keyed table of references as its keys. -/
theorem refSites_of_keyed {refs : Table TypeRef} (keyed : refs.Keyed TypeRef.name)
    (kind : ReferenceKind) (t : TypeId) :
    refSites kind t refs = refs.keys.map fun name => (.type ⟨kind, .type t⟩, name) := by
  rw [← keyed.map_values, refSites, List.map_map]
  rfl

namespace Graph

theorem mem_sites (g : Graph) (x : Site × String) :
    x ∈ g.sites ↔
      (∃ i e, g.types.at? i = some e ∧ x ∈ e.2.sites ⟨i⟩) ∨
      (∃ i e, g.directives.at? i = some e ∧
        x ∈ inputSites (.directiveArgument ⟨i⟩) e.2.arguments) ∨
      ∃ b, g.block = some b ∧ x ∈ b.sites := by
  have block : x ∈ (g.block.map SchemaBlock.sites).getD [] ↔
      ∃ b, g.block = some b ∧ x ∈ b.sites := by
    cases g.block <;> simp
  rw [sites, List.mem_append, List.mem_append, mem_values_flatten, mem_values_flatten, block,
    or_assoc]

/-- What it means that a place names something. -/
def NamedAt (g : Graph) : Site → String → Prop
  | .usage u, name => ∃ x, (g.usages u.owner)[u.index]? = some x ∧ x.name = name
  | .type ⟨.typeUse, e⟩, name =>
    ∃ a, typeUseAt? g.types g.directives e = some a ∧ a.innermost.name = name
  | .type ⟨.implements, .type u⟩, name =>
    ∃ d shape, g.typeAt? u = some d ∧ d.shape? = some shape ∧ name ∈ shape.implements.keys
  | .type ⟨.unionMember, .type u⟩, name =>
    ∃ d members, g.typeAt? u = some d ∧ d.body = .union members ∧ name ∈ members.keys
  | .type ⟨.operation kind, .schema⟩, name =>
    ∃ b, g.block = some b ∧ ∃ o ∈ b.operations, o.kind = kind ∧ o.type.name = name
  | _, _ => False

theorem getElem?_getD_nil {α : Type} {o : Option (List α)} {i : Nat} {a : α} :
    (o.getD [])[i]? = some a ↔ ∃ l, o = some l ∧ l[i]? = some a := by
  cases o <;> simp

theorem mem_sites_usage (g : Graph) (u : UsageId) (name : String) :
    (.usage u, name) ∈ g.sites ↔ g.NamedAt (.usage u) name := by
  obtain ⟨owner, index⟩ := u
  rw [mem_sites]
  simp only [NamedAt, usages]
  -- Only the part of the graph that holds the owner is left of the list, and the lookup goes there.
  rcases owner with _ | ⟨⟨t⟩⟩ | ⟨⟨t⟩, f⟩ | ⟨⟨t⟩, f, a⟩ | ⟨⟨t⟩, f⟩ | ⟨⟨t⟩, v⟩ | d | ⟨⟨d⟩, a⟩
  all_goals
    simp [elementUsages, getElem?_getD_nil, Option.map_eq_some_iff, Option.bind_eq_some_iff,
      refSites, SchemaBlock.sites, typeUseSite]
  all_goals grind

theorem mem_sites_typeUse (g : Graph) (e : ElementId) (name : String) :
    (.type ⟨.typeUse, e⟩, name) ∈ g.sites ↔ g.NamedAt (.type ⟨.typeUse, e⟩) name := by
  rw [mem_sites]
  simp only [NamedAt, typeUseAt?, Option.or_eq_some_iff]
  rcases e with _ | ⟨⟨t⟩⟩ | ⟨⟨t⟩, f⟩ | ⟨⟨t⟩, f, a⟩ | ⟨⟨t⟩, f⟩ | ⟨⟨t⟩, v⟩ | d | ⟨⟨d⟩, a⟩
  all_goals
    simp [fieldAt?, inputValueAt?, Option.map_eq_some_iff, Option.bind_eq_some_iff, refSites,
      SchemaBlock.sites, typeUseSite]
  all_goals grind

/-- The sites of a graph are the places that name something. -/
theorem mem_sites_iff {g : Graph} (fresh : g.Fresh) (place : Site) (name : String) :
    (place, name) ∈ g.sites ↔ g.NamedAt place name := by
  have entry : ∀ {i e}, g.types.at? i = some e → e.2.Fresh := fun found =>
    fresh.types.each _ ((Table.mem_entries_iff _ _).mpr ⟨_, found⟩)
  rcases place with ⟨kind, site⟩ | u
  · cases kind with
    | typeUse => exact g.mem_sites_typeUse site name
    | implements =>
      rw [mem_sites]
      cases site with
      | type u =>
        simp [NamedAt, refSites, SchemaBlock.sites, typeUseSite, typeAt?]
        constructor
        · rintro ⟨i, key, d, found, shape, shaped, ref, listed, rfl, rfl⟩
          have keyed := (entry found).shape shaped |>.implements.toKeyed
          exact ⟨d, ⟨key, found⟩, shape, shaped, keyed.mem_keys.mpr ⟨ref, listed, rfl⟩⟩
        · rintro ⟨d, ⟨key, found⟩, shape, shaped, listed⟩
          have keyed := (entry found).shape shaped |>.implements.toKeyed
          obtain ⟨ref, present, named⟩ := keyed.mem_keys.mp listed
          exact ⟨u.index, key, d, found, shape, shaped, ref, present, rfl, named⟩
      | _ => simp [NamedAt, refSites, SchemaBlock.sites, typeUseSite]
    | operation kind =>
      rw [mem_sites]
      cases site with
      | schema =>
        simp [NamedAt, refSites, SchemaBlock.sites, typeUseSite]
      | _ => simp [NamedAt, refSites, SchemaBlock.sites, typeUseSite]
    | unionMember =>
      rw [mem_sites]
      cases site with
      | type u =>
        simp [NamedAt, refSites, SchemaBlock.sites, typeUseSite, typeAt?]
        constructor
        · rintro ⟨i, key, d, found, members, union, ref, listed, rfl, rfl⟩
          have keyed := (entry found).members union |>.toKeyed
          exact ⟨d, ⟨key, found⟩, members, union, keyed.mem_keys.mpr ⟨ref, listed, rfl⟩⟩
        · rintro ⟨d, ⟨key, found⟩, members, union, listed⟩
          have keyed := (entry found).members union |>.toKeyed
          obtain ⟨ref, present, named⟩ := keyed.mem_keys.mp listed
          exact ⟨u.index, key, d, found, members, union, ref, present, rfl, named⟩
      | _ => simp [NamedAt, refSites, SchemaBlock.sites, typeUseSite]
  · exact g.mem_sites_usage u name

end Graph

/-! No place is listed twice. -/

/-- The position of a usage among those on its element. -/
def usageIndex? : Site × String → Option Nat
  | (.usage u, _) => some u.index
  | (.type _, _) => none

theorem nodup_usageSites (owner : ElementId) (us : List Usage) : (usageSites owner us).Nodup :=
  nodup_mapIdx usageIndex? fun _ _ _ => rfl

theorem element_of_mem_usageSites {owner : ElementId} {us : List Usage} {x : Site × String}
    (member : x ∈ usageSites owner us) : x.1.element = owner := by
  obtain ⟨i, u, _, rfl⟩ := mem_usageSites.mp member
  rfl

theorem nodup_typedSites (self : ElementId) (us : List Usage) (a : TypeUse) :
    (typedSites self us a).Nodup := by
  rw [typedSites, List.nodup_append]
  refine ⟨nodup_usageSites _ _, List.nodup_singleton _, ?_⟩
  intro x hx y hy same
  obtain ⟨i, u, _, rfl⟩ := mem_usageSites.mp hx
  rw [List.mem_singleton.mp hy] at same
  cases congrArg Prod.fst same

theorem element_of_mem_typedSites {self : ElementId} {us : List Usage} {a : TypeUse}
    {x : Site × String} (member : x ∈ typedSites self us a) : x.1.element = self := by
  rcases mem_typedSites.mp member with used | rfl
  · exact element_of_mem_usageSites used
  · rfl

theorem nodup_inputSites {self : Nat → ElementId} (position : ElementId → Option Nat)
    (placed : ∀ i, position (self i) = some i) (t : Table InputValue) :
    (inputSites self t).Nodup := by
  refine nodup_flatten_mapIdx (fun x => position x.1.element) ?_ ?_
  · exact fun i v _ => nodup_typedSites (self i) v.usages v.type
  · intro i v _ x member
    rw [element_of_mem_typedSites member, placed]

theorem element_of_mem_inputSites {self : Nat → ElementId} {t : Table InputValue}
    {x : Site × String} (member : x ∈ inputSites self t) : ∃ i, x.1.element = self i := by
  obtain ⟨i, e, _, inside⟩ := mem_inputSites.mp member
  exact ⟨i, element_of_mem_typedSites inside⟩

theorem Field.nodup_sites (t : TypeId) (index : Nat) (f : Field) : (f.sites t index).Nodup := by
  rw [sites, List.nodup_append]
  refine ⟨nodup_typedSites _ _ _,
    nodup_inputSites ElementId.argumentIndex? (fun _ => rfl) f.arguments, ?_⟩
  intro x hx y hy same
  have own := element_of_mem_typedSites hx
  obtain ⟨a, argument⟩ := element_of_mem_inputSites hy
  rw [same, argument] at own
  cases own

theorem Field.element_of_mem {t : TypeId} {index : Nat} {f : Field} {x : Site × String}
    (member : x ∈ f.sites t index) :
    x.1.element = .field t index ∨ ∃ a, x.1.element = .fieldArgument t index a := by
  rcases mem_sites.mp member with own | argument
  · exact .inl (element_of_mem_typedSites own)
  · exact .inr (element_of_mem_inputSites argument)

theorem nodup_refSites {refs : Table TypeRef} (keyed : refs.Keyed TypeRef.name)
    (kind : ReferenceKind) (t : TypeId) : (refSites kind t refs).Nodup := by
  rw [refSites_of_keyed keyed]
  exact keyed.distinct.map fun _ _ same => congrArg Prod.snd same

theorem site_of_mem_refSites {kind : ReferenceKind} {t : TypeId} {refs : Table TypeRef}
    {x : Site × String} (member : x ∈ refSites kind t refs) : x.1 = .type ⟨kind, .type t⟩ := by
  obtain ⟨ref, _, rfl⟩ := List.mem_map.mp member
  rfl

theorem Shape.nodup_sites {s : Shape} (fresh : s.Fresh) (t : TypeId) : (s.sites t).Nodup := by
  rw [sites, List.nodup_append]
  refine ⟨nodup_refSites fresh.implements.toKeyed _ t, ?_, ?_⟩
  · refine nodup_flatten_mapIdx (fun x => x.1.element.memberIndex?) ?_ ?_
    · exact fun i f _ => f.nodup_sites t i
    · intro i f _ x member
      rcases Field.element_of_mem member with place | ⟨a, place⟩ <;> rw [place] <;> rfl
  · intro x hx y hy same
    obtain ⟨i, e, _, inside⟩ := mem_values_flatten.mp hy
    have place := site_of_mem_refSites hx
    rcases Field.element_of_mem inside with own | ⟨a, own⟩
    all_goals
      rw [← same, place] at own
      cases own

/-- The members of a type stand apart from the usages on the type itself. -/
theorem TypeBody.site_of_mem {t : TypeId} {b : TypeBody} {x : Site × String}
    (member : x ∈ b.sites t) :
    x.1.element.owningType? = some t ∧ ∀ i, x.1 ≠ .usage ⟨.type t, i⟩ := by
  cases b with
  | enum values =>
    obtain ⟨i, e, _, inside⟩ := mem_sites_enum.mp member
    have own := element_of_mem_usageSites inside
    refine ⟨by rw [own]; rfl, fun j same => ?_⟩
    rw [same] at own
    cases own
  | inputObject fields =>
    obtain ⟨i, own⟩ := element_of_mem_inputSites member
    refine ⟨by rw [own]; rfl, fun j same => ?_⟩
    rw [same] at own
    cases own
  | interface shape | object shape =>
    rcases Shape.mem_sites.mp member with listed | ⟨i, e, _, inside⟩
    · rw [site_of_mem_refSites listed]
      exact ⟨rfl, fun j same => by cases same⟩
    · rcases Field.element_of_mem inside with own | ⟨a, own⟩
      all_goals
        refine ⟨by rw [own]; rfl, fun j same => ?_⟩
        rw [same] at own
        cases own
  | scalar => cases member
  | union members =>
    rw [site_of_mem_refSites member]
    exact ⟨rfl, fun j same => by cases same⟩

theorem TypeBody.nodup_sites {b : TypeBody} (fresh : b.Fresh) (t : TypeId) :
    (b.sites t).Nodup := by
  cases b with
  | enum values =>
    refine nodup_flatten_mapIdx (fun x => x.1.element.memberIndex?) ?_ ?_
    · exact fun i v _ => nodup_usageSites _ _
    · intro i v _ x member
      rw [element_of_mem_usageSites member]
      rfl
  | inputObject fields => exact nodup_inputSites ElementId.memberIndex? (fun _ => rfl) fields
  | interface shape => exact Shape.nodup_sites fresh t
  | object shape => exact Shape.nodup_sites fresh t
  | scalar => exact List.nodup_nil
  | union members => exact nodup_refSites fresh.toKeyed _ t

theorem TypeDef.nodup_sites {d : TypeDef} (fresh : d.Fresh) (t : TypeId) :
    (d.sites t).Nodup := by
  rw [sites, List.nodup_append]
  refine ⟨nodup_usageSites _ _, TypeBody.nodup_sites fresh.body t, ?_⟩
  intro x hx y hy same
  obtain ⟨i, u, _, rfl⟩ := mem_usageSites.mp hx
  exact (TypeBody.site_of_mem hy).2 i (congrArg Prod.fst same.symm)

theorem TypeDef.owningType_of_mem {d : TypeDef} {t : TypeId} {x : Site × String}
    (member : x ∈ d.sites t) : x.1.element.owningType? = some t := by
  rcases List.mem_append.mp member with used | inside
  · rw [element_of_mem_usageSites used]
    rfl
  · exact (TypeBody.site_of_mem inside).1

theorem SchemaBlock.nodup_sites {b : SchemaBlock}
    (kinds : (b.operations.map OperationBinding.kind).Nodup) : b.sites.Nodup := by
  rw [sites, List.nodup_append]
  refine ⟨nodup_usageSites _ _, ?_, ?_⟩
  · refine List.Nodup.of_map (fun x => match x.1 with
      | .type ⟨.operation kind, _⟩ => some kind
      | _ => none) ?_
    have distinct : ((b.operations.map OperationBinding.kind).map some).Nodup :=
      kinds.map fun _ _ same => Option.some.inj same
    rw [List.map_map] at distinct ⊢
    exact distinct
  · intro x hx y hy same
    obtain ⟨i, u, _, rfl⟩ := mem_usageSites.mp hx
    obtain ⟨o, _, rfl⟩ := List.mem_map.mp hy
    cases congrArg Prod.fst same

theorem SchemaBlock.element_of_mem {b : SchemaBlock} {x : Site × String} (member : x ∈ b.sites) :
    x.1.element = .schema := by
  rcases List.mem_append.mp member with used | bound
  · exact element_of_mem_usageSites used
  · obtain ⟨o, _, rfl⟩ := List.mem_map.mp bound
    rfl

namespace Graph

/-- No two mentions stand at one site with one name, unless the schema block binds an operation
twice. -/
theorem nodup_sites {g : Graph} (fresh : g.Fresh)
    (kinds : ∀ b, g.block = some b → (b.operations.map OperationBinding.kind).Nodup) :
    g.sites.Nodup := by
  have types : (g.types.values.mapIdx fun i d => d.sites ⟨i⟩).flatten.Nodup := by
    refine nodup_flatten_mapIdx (fun x => x.1.element.definitionIndex?) ?_ ?_
    · intro i d found
      obtain ⟨e, entry, rfl⟩ := Option.map_eq_some_iff.mp (g.types.values_getElem? i ▸ found)
      exact TypeDef.nodup_sites (fresh.types.each e ((Table.mem_entries_iff _ _).mpr ⟨i, entry⟩)) _
    · intro i d _ x member
      have own := TypeDef.owningType_of_mem member
      cases place : x.1.element <;> rw [place] at own <;> cases own <;> rfl
  have directives : (g.directives.values.mapIdx fun i d =>
      inputSites (.directiveArgument ⟨i⟩) d.arguments).flatten.Nodup := by
    refine nodup_flatten_mapIdx (fun x => x.1.element.definitionIndex?) ?_ ?_
    · exact fun i d _ => nodup_inputSites ElementId.memberIndex? (fun _ => rfl) d.arguments
    · intro i d _ x member
      obtain ⟨a, place⟩ := element_of_mem_inputSites member
      rw [place]
      rfl
  have block : ((g.block.map SchemaBlock.sites).getD []).Nodup := by
    cases found : g.block with
    | none => exact List.nodup_nil
    | some b => exact SchemaBlock.nodup_sites (kinds b found)
  -- The three parts differ in the element: within a type, within a directive, the schema itself.
  rw [sites, List.nodup_append, List.nodup_append]
  refine ⟨⟨types, directives, ?_⟩, block, ?_⟩
  · intro x hx y hy same
    obtain ⟨i, e, _, inside⟩ := mem_values_flatten.mp hx
    obtain ⟨j, e', _, inside'⟩ := mem_values_flatten.mp hy
    have own := TypeDef.owningType_of_mem inside
    obtain ⟨a, place⟩ := element_of_mem_inputSites inside'
    rw [same, place] at own
    cases own
  · intro x hx y hy same
    have schema : y.1.element = .schema := by
      cases found : g.block with
      | none => simp [found] at hy
      | some b => exact SchemaBlock.element_of_mem (by simpa [found] using hy)
    rw [← same] at schema
    rcases List.mem_append.mp hx with inType | inDirective
    · obtain ⟨i, e, _, inside⟩ := mem_values_flatten.mp inType
      have own := TypeDef.owningType_of_mem inside
      rw [schema] at own
      cases own
    · obtain ⟨i, e, _, inside⟩ := mem_values_flatten.mp inDirective
      obtain ⟨a, place⟩ := element_of_mem_inputSites inside
      rw [schema] at place
      cases place

end Graph

end SchemaAtlas
