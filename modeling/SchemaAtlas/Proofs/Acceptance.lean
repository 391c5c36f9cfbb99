import SchemaAtlas.Proofs.Sites

/-!
# Accepted buffers

An analysis that finds nothing to report has looked up every name. So its outcome can be described
without the steps that lead there: every site names something that exists, the linked graph breaks
no rule, its root is sound, and the schema is the linked graph with its root.
-/

namespace SchemaAtlas

namespace Names

/-- Whether the name at a place can be looked up. -/
def Knows (names : Names) : Site → String → Prop
  | .type _, name => (names.type? name).isSome
  | .usage _, name => (names.directive? name).isSome

/-- The type named at a place, with the reference to remember there. -/
def typeReferenceAt? (names : Names) (x : Site × String) : Option (TypeId × Reference) :=
  match x.1 with
  | .type r => (names.type? x.2).map fun t => (t, r)
  | .usage _ => none

/-- The directive named at a place, with the usage to remember there. -/
def usageReferenceAt? (names : Names) (x : Site × String) : Option (DirectiveId × UsageId) :=
  match x.1 with
  | .type _ => none
  | .usage u => (names.directive? x.2).map fun d => (d, u)

theorem typeReference?_eq (names : Names) (m : Mention) :
    names.typeReference? m = names.typeReferenceAt? m.site := by
  cases m <;> rfl

theorem usageReference?_eq (names : Names) (m : Mention) :
    names.usageReference? m = names.usageReferenceAt? m.site := by
  cases m <;> rfl

theorem dangling?_eq_none_iff (names : Names) (m : Mention) :
    names.dangling? m = none ↔ names.Knows m.site.1 m.site.2 := by
  cases m with
  | type m =>
    simp only [dangling?, Mention.site, Knows]
    cases names.type? m.name <;> simp
  | directive m =>
    simp only [dangling?, Mention.site, Knows]
    cases names.directive? m.name <;> simp

end Names

theorem mem_referencesOf {κ ρ : Type} [DecidableEq κ] {key : κ} {found : List (κ × ρ)} {r : ρ} :
    r ∈ referencesOf key found ↔ (key, r) ∈ found := by
  rw [referencesOf, List.mem_filterMap]
  constructor
  · rintro ⟨⟨k, s⟩, member, same⟩
    by_cases own : k = key
    · subst own
      rw [if_pos rfl, Option.some.injEq] at same
      exact same ▸ member
    · rw [if_neg own] at same
      cases same
  · intro member
    exact ⟨(key, r), member, if_pos rfl⟩

theorem nodup_referencesOf {κ ρ : Type} [DecidableEq κ] {key : κ} {found : List (κ × ρ)}
    (distinct : found.Nodup) : (referencesOf key found).Nodup := by
  refine distinct.filterMap ?_
  rintro ⟨k, s⟩ ⟨k', s'⟩ r first second
  by_cases own : k = key
  · by_cases own' : k' = key
    · simp only [own, own', ↓reduceIte, Option.mem_some_iff] at first second
      rw [own, own', first, second]
    · simp [own'] at second
  · simp [own] at first

namespace Graph

theorem typeReferences_eq (g : Graph) :
    g.typeReferences = g.sites.filterMap g.names.typeReferenceAt? := by
  rw [typeReferences, ← map_site_mentions, List.filterMap_map]
  exact List.filterMap_congr fun m _ => g.names.typeReference?_eq m

theorem usageReferences_eq (g : Graph) :
    g.usageReferences = g.sites.filterMap g.names.usageReferenceAt? := by
  rw [usageReferences, ← map_site_mentions, List.filterMap_map]
  exact List.filterMap_congr fun m _ => g.names.usageReference?_eq m

theorem mem_typeReferences (g : Graph) (t : TypeId) (r : Reference) :
    (t, r) ∈ g.typeReferences ↔ ∃ name, (.type r, name) ∈ g.sites ∧ g.typeId? name = some t := by
  rw [typeReferences_eq, List.mem_filterMap]
  constructor
  · rintro ⟨⟨place, name⟩, member, found⟩
    cases place with
    | usage u => cases found
    | type r' =>
      obtain ⟨t', id, same⟩ := Option.map_eq_some_iff.mp found
      cases same
      exact ⟨name, member, id⟩
  · rintro ⟨name, member, id⟩
    exact ⟨_, member, Option.map_eq_some_iff.mpr ⟨t, id, rfl⟩⟩

theorem mem_usageReferences (g : Graph) (d : DirectiveId) (u : UsageId) :
    (d, u) ∈ g.usageReferences ↔
      ∃ name, (.usage u, name) ∈ g.sites ∧ g.directiveId? name = some d := by
  rw [usageReferences_eq, List.mem_filterMap]
  constructor
  · rintro ⟨⟨place, name⟩, member, found⟩
    cases place with
    | type r => cases found
    | usage u' =>
      obtain ⟨d', id, same⟩ := Option.map_eq_some_iff.mp found
      cases same
      exact ⟨name, member, id⟩
  · rintro ⟨name, member, id⟩
    exact ⟨_, member, Option.map_eq_some_iff.mpr ⟨d, id, rfl⟩⟩

/-- Distinct sites are remembered as distinct references, since a position has one name. -/
theorem nodup_typeReferences {g : Graph} (distinct : g.types.keys.Nodup) (sites : g.sites.Nodup) :
    g.typeReferences.Nodup := by
  rw [typeReferences_eq]
  refine sites.filterMap ?_
  rintro ⟨place, name⟩ ⟨place', name'⟩ ⟨t, r⟩ first second
  cases place with
  | usage u => cases first
  | type r₁ =>
    cases place' with
    | usage u => cases second
    | type r₂ =>
      obtain ⟨t₁, id₁, same₁⟩ := Option.map_eq_some_iff.mp first
      obtain ⟨t₂, id₂, same₂⟩ := Option.map_eq_some_iff.mp second
      cases same₁
      cases same₂
      obtain ⟨d₁, at₁⟩ := (typeId?_eq_some_iff distinct name _).mp id₁
      obtain ⟨d₂, at₂⟩ := (typeId?_eq_some_iff distinct name' _).mp id₂
      cases at₁.symm.trans at₂
      rfl

theorem nodup_usageReferences {g : Graph} (distinct : g.directives.keys.Nodup)
    (sites : g.sites.Nodup) : g.usageReferences.Nodup := by
  rw [usageReferences_eq]
  refine sites.filterMap ?_
  rintro ⟨place, name⟩ ⟨place', name'⟩ ⟨d, u⟩ first second
  cases place with
  | type r => cases first
  | usage u₁ =>
    cases place' with
    | type r => cases second
    | usage u₂ =>
      obtain ⟨d₁, id₁, same₁⟩ := Option.map_eq_some_iff.mp first
      obtain ⟨d₂, id₂, same₂⟩ := Option.map_eq_some_iff.mp second
      cases same₁
      cases same₂
      obtain ⟨x₁, at₁⟩ := (directiveId?_eq_some_iff distinct name _).mp id₁
      obtain ⟨x₂, at₂⟩ := (directiveId?_eq_some_iff distinct name' _).mp id₂
      cases at₁.symm.trans at₂
      rfl

/-- Every place names something that exists. -/
def NamesKnown (g : Graph) : Prop := ∀ place name, g.NamedAt place name → g.names.Knows place name

theorem danglingNames_eq_nil_iff {g : Graph} (fresh : g.Fresh) :
    g.danglingNames = [] ↔ g.NamesKnown := by
  rw [danglingNames, List.filterMap_eq_nil_iff]
  constructor
  · intro known place name named
    have member := (mem_sites_iff fresh place name).mpr named
    rw [← map_site_mentions, List.mem_map] at member
    obtain ⟨m, present, same⟩ := member
    have found := (g.names.dangling?_eq_none_iff m).mp (known m present)
    rw [same] at found
    exact found
  · intro known m present
    rw [Names.dangling?_eq_none_iff]
    apply known
    rw [← mem_sites_iff fresh, ← map_site_mentions]
    exact List.mem_map_of_mem present

theorem linked_typeAt? (g : Graph) (t : TypeId) :
    g.linked.typeAt? t =
      (g.typeAt? t).map (g.names.linkType t (referencesOf t g.typeReferences)) := by
  simp [typeAt?, Function.comp_def]

theorem linked_resolve {g : Graph} (distinct : g.types.keys.Nodup) {ref : TypeRef}
    (known : (g.typeId? ref.name).isSome) :
    ∃ t d, g.linked.resolve (g.names.linkRef ref) = some (t, d) := by
  obtain ⟨t, id⟩ := Option.isSome_iff_exists.mp known
  obtain ⟨d, found⟩ := (typeId?_eq_some_iff distinct ref.name t).mp id
  refine ⟨t, g.names.linkType t (referencesOf t g.typeReferences) d, ?_⟩
  rw [resolve]
  have target : (g.names.linkRef ref).target = some t := id
  rw [target, Option.bind_some, linked_typeAt?, typeAt?, found]
  rfl

theorem linked_bindingsLinked {g : Graph} (fresh : g.Fresh) (known : g.NamesKnown) :
    g.linked.BindingsLinked := by
  intro block declared o member
  rw [linked_block, Option.map_eq_some_iff] at declared
  obtain ⟨b, found, rfl⟩ := declared
  obtain ⟨binding, present, rfl⟩ := List.mem_map.mp member
  refine linked_resolve fresh.types.distinct ?_
  exact known (.type ⟨.operation binding.kind, .schema⟩) binding.type.name
    ⟨b, found, binding, present, rfl, rfl⟩

/-! The schema of a collected graph, and what its lookups give. -/

/-- The linked graph with its root. -/
def resolved (g : Graph) : Schema := g.linked.withRoot.toSchema

/-- A collected type once its names are looked up and the root is known. -/
def resolvedType (g : Graph) (t : TypeId) (d : TypeDef) : TypeDef :=
  { d with
    usages := g.names.linkUsages (.type t) d.usages
    body := g.names.linkBody t d.body
    references := d.references ++ referencesOf t g.typeReferences ++ g.linked.rootReferences t
    rooted := d.rooted || g.linked.rootedIds.contains t }

def resolvedDirective (g : Graph) (id : DirectiveId) (d : DirectiveDef) : DirectiveDef :=
  g.names.linkDirective id (referencesOf id g.usageReferences) d

@[simp] theorem resolved_types_at? (g : Graph) (i : Nat) :
    g.resolved.types.at? i = (g.types.at? i).map fun e => (e.1, g.resolvedType ⟨i⟩ e.2) := by
  have types : g.resolved.types = g.linked.withRoot.types := rfl
  rw [types, withRoot_types_at?, linked_types_at?, Option.map_map]
  rfl

@[simp] theorem resolved_directives_at? (g : Graph) (i : Nat) :
    g.resolved.directives.at? i =
      (g.directives.at? i).map fun e => (e.1, g.resolvedDirective ⟨i⟩ e.2) :=
  linked_directives_at? g i

@[simp] theorem resolved_types_keys (g : Graph) : g.resolved.types.keys = g.types.keys := by
  have types : g.resolved.types = g.linked.withRoot.types := rfl
  rw [types, withRoot_types_keys, linked_types_keys]

theorem resolved_typeId? (g : Graph) (name : String) :
    g.resolved.typeId? name = g.typeId? name := by
  simp [Schema.typeId?, typeId?, Table.indexOf?]

theorem resolved_typeAt? (g : Graph) (t : TypeId) :
    g.resolved.typeAt? t = (g.typeAt? t).map (g.resolvedType t) := by
  simp [Schema.typeAt?, typeAt?, Function.comp_def]

theorem resolved_directiveAt? (g : Graph) (id : DirectiveId) :
    g.resolved.directiveAt? id = (g.directiveAt? id).map (g.resolvedDirective id) := by
  simp [Schema.directiveAt?, directiveAt?, Function.comp_def]

@[simp] theorem resolved_root (g : Graph) : g.resolved.root = g.linked.impliedRoot? := rfl

theorem resolved_typeUse? (g : Graph) (e : ElementId) :
    g.resolved.typeUse? e =
      (typeUseAt? g.types g.directives e).map (TypeUse.mapRef g.names.linkRef) :=
  (withRoot_typeUseAt? g.linked e).trans (linked_typeUseAt? g e)

theorem resolvedType_shape? (g : Graph) (t : TypeId) (d : TypeDef) :
    (g.resolvedType t d).shape? = d.shape?.map (g.names.linkShape t) :=
  g.names.linkType_shape? t [] d

end Graph

/-- What a buffer must satisfy to be accepted, told of the graph that it describes. -/
structure Sound (required : Bool) (declarations : List Sourced) : Prop where
  noExecutable : firstExecutable? declarations = none
  collected : (Graph.collect (BuiltIn.declarations ++ declarations)).problems = []
  known : (Graph.described declarations).NamesKnown
  lawful : (Graph.described declarations).linked.violations = []
  rooted : (Graph.described declarations).linked.RootSound required

/-- An analysis succeeds exactly on sound buffers, and gives the linked graph with its root. -/
theorem analyze_eq_ok_iff_sound (required : Bool) (declarations : List Sourced) (s : Schema) :
    (analyze required declarations).result = .ok s ↔
      Sound required declarations ∧ s = (Graph.described declarations).resolved := by
  have fresh := Graph.described_fresh declarations
  have distinct := fresh.linked_types_distinct
  rw [analyze_eq_ok_iff]
  constructor
  · rintro ⟨accepted, rfl⟩
    have known := (Graph.danglingNames_eq_nil_iff fresh).mp accepted.linked
    have bindings := Graph.linked_bindingsLinked fresh known
    have rooted := (Graph.resolveRoot_problems_iff _ required distinct bindings).mp accepted.rooted
    refine ⟨⟨accepted.noExecutable, accepted.collected, known, accepted.lawful, rooted⟩, ?_⟩
    rw [Graph.resolveRoot_value _ required distinct bindings fresh.root rooted]
    rfl
  · rintro ⟨sound, rfl⟩
    have bindings := Graph.linked_bindingsLinked fresh sound.known
    refine ⟨⟨sound.noExecutable, sound.collected,
      (Graph.danglingNames_eq_nil_iff fresh).mpr sound.known, sound.lawful,
      (Graph.resolveRoot_problems_iff _ required distinct bindings).mpr sound.rooted⟩, ?_⟩
    rw [Graph.resolveRoot_value _ required distinct bindings fresh.root sound.rooted]
    rfl

namespace Sound

variable {required : Bool} {declarations : List Sourced}

theorem bindings (sound : Sound required declarations) :
    (Graph.described declarations).linked.BindingsLinked :=
  Graph.linked_bindingsLinked (Graph.described_fresh declarations) sound.known

theorem operation? (sound : Sound required declarations) (kind : OperationKind) :
    ((Graph.described declarations).resolved.root.bind fun root => root.operation? kind) =
      (Graph.described declarations).linked.rootType? kind :=
  Graph.impliedRoot?_bind_operation? sound.bindings sound.rooted kind

theorem block? (sound : Sound required declarations) :
    (Graph.described declarations).resolved.block? =
      (Graph.described declarations).block.map (Graph.described declarations).names.linkBlock :=
  Graph.withRoot_block? sound.bindings sound.rooted

/-- Usages are linked where they stand. -/
theorem usages (sound : Sound required declarations) (e : ElementId) :
    (Graph.described declarations).resolved.usages e =
      (Graph.described declarations).names.linkUsages e
        ((Graph.described declarations).usages e) := by
  rw [← Graph.linked_usages, ← Graph.withRoot_usages, Schema.usages, sound.block?]
  rfl

end Sound

/-- Declarations from files, or from nowhere in particular. -/
def given (buffer : List (Option String × Declaration)) : List Sourced :=
  buffer.map fun e => ⟨.given e.1, e.2⟩

/-! A small schema, split over two files, for examples of accepted buffers. -/

def bookshopTypes : List Declaration := [
  .type {
    name := "Node"
    body := .interface [] [{ name := "id", type := .nonNull (.named "ID") }] },
  .type {
    name := "Titled"
    body := .interface ["Node"] [
      { name := "id", type := .nonNull (.named "ID") },
      { name := "title", type := .named "String",
        arguments := [{ name := "short", type := .named "Boolean" }] }] },
  .type {
    name := "Book", description := some "Printed on paper."
    usages := [{ name := "tag", arguments := [("rank", .int 1)] }, { name := "tag" }]
    body := .object ["Titled", "Node"] [
      { name := "id", type := .nonNull (.named "ID") },
      { name := "title", type := .nonNull (.named "String"),
        arguments := [
          { name := "short", type := .named "Boolean" },
          { name := "language", type := .named "Language", default := some (.enum "ENGLISH") }] },
      { name := "isbn", type := .named "String", usages := [{ name := "deprecated" }] }] },
  .type { name := "Language", body := .enum [{ name := "ENGLISH" }, { name := "LATIN" }] },
  .type { name := "Item", body := .union ["Book"] }]

def bookshopRoot : List Declaration := [
  .typeExtension {
    name := "Shop"
    body := .object [] [{ name := "newest", type := .named "Node" }] },
  .directive {
    name := "tag", repeatable := true, locations := [.object, .schema]
    arguments := [{ name := "rank", type := .named "Int", default := some (.int 3) }] },
  .type {
    name := "Filter"
    body := .inputObject [
      { name := "limit", type := .nonNull (.named "Int"), default := some (.int 10) },
      { name := "languages", type := .list (.nonNull (.named "Language")),
        default := some (.list [.enum "LATIN"]) }] },
  .type {
    name := "Shop"
    body := .object [] [
      { name := "find", type := .nonNull (.list (.named "Item")),
        arguments := [{ name := "filter", type := .named "Filter" }] }] },
  .schema { query := some "Shop", usages := [{ name := "tag" }] }]

def bookshop : List (Option String × Declaration) :=
  bookshopTypes.map (some "types", ·) ++ bookshopRoot.map (some "root", ·)

/-- A property that can be evaluated, of the schema of a buffer. -/
theorem exists_of_any {ε α : Type} {r : Except ε α} {p : α → Bool}
    (holds : r.toOption.any p = true) : ∃ a, r = .ok a ∧ p a = true := by
  cases r with
  | error e => cases holds
  | ok a => exact ⟨a, rfl, holds⟩

end SchemaAtlas
