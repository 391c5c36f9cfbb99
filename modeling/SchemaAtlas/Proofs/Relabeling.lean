import Mathlib.Data.Option.Basic
import Mathlib.Logic.Equiv.Defs
import SchemaAtlas.Proofs.Tables
import SchemaAtlas.Graph.Link

/-!
# Relabelings

Positions in the tables of a graph and places in a source text are labels: nothing that matters
depends on them. A relabeling exchanges positions and moves places. It acts on everything that a
graph holds, and two graphs match if one is the other relabelled, as far as documents determine it.
-/

namespace SchemaAtlas

/-- Two lists with at most one element are equal if they are permutations of each other. -/
theorem eq_of_perm_of_length_le_one {α : Type} {as bs : List α} (perm : as.Perm bs)
    (short : as.length ≤ 1) : as = bs := by
  match as, short with
  | [], _ => exact (List.nil_perm.mp perm).symm
  | [a], _ => exact List.singleton_perm.mp perm

namespace Table

variable {α : Type}

/-- A table and another one whose entries stand at exchanged positions under the same names, with
values that are related. -/
structure Alike (position : Nat ≃ Nat) (R : α → α → Prop) (t t' : Table α) : Prop where
  distinct : t.keys.Nodup
  distinct' : t'.keys.Nodup
  entries : ∀ i, Option.Rel (fun e e' => e'.1 = e.1 ∧ R e.2 e'.2) (t.at? i) (t'.at? (position i))

namespace Alike

variable {position : Nat ≃ Nat} {R : α → α → Prop} {t t' : Table α}

theorem of_left (alike : t.Alike position R t') {i : Nat} {name : String} {a : α}
    (found : t.at? i = some (name, a)) :
    ∃ a', t'.at? (position i) = some (name, a') ∧ R a a' := by
  have related := alike.entries i
  rw [found] at related
  cases image : t'.at? (position i) with
  | none => rw [image] at related; cases related
  | some e =>
    obtain ⟨name', a'⟩ := e
    rw [image] at related
    cases related with
    | some both =>
      obtain ⟨rfl, values⟩ := both
      exact ⟨a', rfl, values⟩

theorem of_right (alike : t.Alike position R t') {i : Nat} {name : String} {a' : α}
    (found : t'.at? i = some (name, a')) :
    ∃ a, t.at? (position.symm i) = some (name, a) ∧ R a a' := by
  have related := alike.entries (position.symm i)
  rw [Equiv.apply_symm_apply, found] at related
  cases source : t.at? (position.symm i) with
  | none => rw [source] at related; cases related
  | some e =>
    obtain ⟨name', a⟩ := e
    rw [source] at related
    cases related with
    | some both =>
      obtain ⟨rfl, values⟩ := both
      exact ⟨a, rfl, values⟩

theorem indexOf? (alike : t.Alike position R t') (name : String) :
    t'.indexOf? name = (t.indexOf? name).map position := by
  cases found : t.indexOf? name with
  | some i =>
    obtain ⟨a, entry⟩ := (indexOf?_eq_some_iff alike.distinct name i).mp found
    obtain ⟨a', entry', _⟩ := alike.of_left entry
    exact (indexOf?_eq_some_iff alike.distinct' name _).mpr ⟨a', entry'⟩
  | none =>
    rw [Option.map_none, indexOf?_eq_none_iff]
    intro member
    obtain ⟨i, a', entry'⟩ := (t'.mem_keys_iff name).mp member
    obtain ⟨a, entry, _⟩ := alike.of_right entry'
    exact (t.indexOf?_eq_none_iff name).mp found ((t.mem_keys_iff name).mpr ⟨_, a, entry⟩)

theorem get? (alike : t.Alike position R t') (name : String) :
    Option.Rel R (t.get? name) (t'.get? name) := by
  cases found : t.get? name with
  | some a =>
    obtain ⟨i, entry⟩ := (get?_eq_some_iff_at? alike.distinct name a).mp found
    obtain ⟨a', entry', related⟩ := alike.of_left entry
    rw [(get?_eq_some_iff_at? alike.distinct' name a').mpr ⟨_, entry'⟩]
    exact .some related
  | none =>
    have absent : t'.get? name = none := by
      rw [get?_eq_none_iff]
      intro member
      obtain ⟨i, a', entry'⟩ := (t'.mem_keys_iff name).mp member
      obtain ⟨a, entry, _⟩ := alike.of_right entry'
      exact (t.get?_eq_none_iff name).mp found ((t.mem_keys_iff name).mpr ⟨_, a, entry⟩)
    rw [absent]
    exact .none

theorem value (alike : t.Alike position R t') (i : Nat) :
    Option.Rel R ((t.at? i).map Prod.snd) ((t'.at? (position i)).map Prod.snd) := by
  have related := alike.entries i
  generalize t.at? i = source at related
  generalize t'.at? (position i) = image at related
  cases related with
  | some both => exact .some both.2
  | none => exact .none

/-- What is asked of every value of one table is asked of every value of the other. -/
theorem forall_values (alike : t.Alike position R t') (P P' : Nat → α → Prop)
    (same : ∀ i a a', R a a' → (P' (position i) a' ↔ P i a)) :
    (∀ i a, (t'.at? i).map Prod.snd = some a → P' i a) ↔
      ∀ i a, (t.at? i).map Prod.snd = some a → P i a := by
  constructor
  · intro all i a found
    obtain ⟨⟨name, _⟩, entry, rfl⟩ := Option.map_eq_some_iff.mp found
    obtain ⟨a', entry', related⟩ := alike.of_left entry
    exact (same i _ a' related).mp (all (position i) a' (by rw [entry', Option.map_some]))
  · intro all i a' found
    obtain ⟨⟨name, _⟩, entry', rfl⟩ := Option.map_eq_some_iff.mp found
    obtain ⟨a, entry, related⟩ := alike.of_right entry'
    have there := (same _ a _ related).mpr (all _ a (by rw [entry, Option.map_some]))
    rwa [Equiv.apply_symm_apply] at there

/-- Values that are related at the same positions, and look the same there. -/
theorem mapIdx_values {β : Type} (alike : t.Alike (Equiv.refl Nat) R t') {view : Nat → α → β}
    (same : ∀ i a a', R a a' → view i a' = view i a) :
    t'.values.mapIdx view = t.values.mapIdx view := by
  apply List.ext_getElem?
  intro i
  have related : Option.Rel _ (t.at? i) (t'.at? i) := alike.entries i
  rw [List.getElem?_mapIdx, List.getElem?_mapIdx, values_getElem?, values_getElem?]
  generalize t.at? i = source at related
  generalize t'.at? i = image at related
  cases related with
  | none => rfl
  | some both => simp [same _ _ _ both.2]

/-- Values that determine those related to them at the same positions. -/
theorem eq_map {f : α → α} (alike : t.Alike (Equiv.refl Nat) R t')
    (image : ∀ i name a a', t.at? i = some (name, a) → t'.at? i = some (name, a') → R a a' →
      a' = f a) : t' = t.map f := by
  apply ext_at?
  intro i
  rw [at?_map]
  cases found : t.at? i with
  | some e =>
    obtain ⟨name, a⟩ := e
    obtain ⟨a', found', related⟩ := alike.of_left found
    have entry' : t'.at? i = some (name, a') := found'
    rw [entry', Option.map_some, image i name a a' found entry' related]
  | none =>
    have related : Option.Rel _ (t.at? i) (t'.at? i) := alike.entries i
    rw [found] at related
    generalize t'.at? i = other at related
    cases related
    rfl

theorem of_map {f : α → α} (distinct : t.keys.Nodup) (related : ∀ a, R a (f a)) :
    t.Alike (Equiv.refl Nat) R (t.map f) where
  distinct := distinct
  distinct' := by rwa [keys_map]
  entries := by
    intro i
    rw [Equiv.refl_apply, at?_map]
    cases t.at? i with
    | none => exact .none
    | some e => exact .some ⟨rfl, related e.2⟩

theorem lt_size (alike : t.Alike position R t') (i : Nat) : position i < t'.size ↔ i < t.size := by
  rw [← at?_isSome_iff, ← at?_isSome_iff]
  have related := alike.entries i
  generalize t.at? i = source at related
  generalize t'.at? (position i) = image at related
  cases related <;> simp

end Alike

end Table

/-- New positions for types and directives, and new places. -/
structure Relabeling where
  types : Nat ≃ Nat
  directives : Nat ≃ Nat
  place : SourceLocation → SourceLocation

namespace Relabeling

variable (r : Relabeling)

def type : TypeId ≃ TypeId where
  toFun t := ⟨r.types t.index⟩
  invFun t := ⟨r.types.symm t.index⟩
  left_inv t := by simp
  right_inv t := by simp

def directive : DirectiveId ≃ DirectiveId where
  toFun d := ⟨r.directives d.index⟩
  invFun d := ⟨r.directives.symm d.index⟩
  left_inv d := by simp
  right_inv d := by simp

/-- Positions stay, and every place becomes the same one. -/
def erasing : Relabeling := ⟨Equiv.refl _, Equiv.refl _, fun _ => .builtIn⟩

/-- The positions exchanged back. -/
def back : Relabeling := ⟨r.types.symm, r.directives.symm, id⟩

@[simp] theorem type_index (t : TypeId) : (r.type t).index = r.types t.index := rfl

@[simp] theorem directive_index (d : DirectiveId) : (r.directive d).index = r.directives d.index :=
  rfl

@[simp] theorem back_type (t : TypeId) : r.back.type t = r.type.symm t := rfl

@[simp] theorem back_directive (d : DirectiveId) : r.back.directive d = r.directive.symm d := rfl

def element : ElementId → ElementId
  | .schema => .schema
  | .type t => .type (r.type t)
  | .field t f => .field (r.type t) f
  | .fieldArgument t f a => .fieldArgument (r.type t) f a
  | .inputField t f => .inputField (r.type t) f
  | .enumValue t v => .enumValue (r.type t) v
  | .directive d => .directive (r.directive d)
  | .directiveArgument d a => .directiveArgument (r.directive d) a

def reference (x : Reference) : Reference := { x with site := r.element x.site }

def usageId (x : UsageId) : UsageId := { x with owner := r.element x.owner }

def ref (x : TypeRef) : TypeRef :=
  { x with location := r.place x.location, target := x.target.map r.type }

def typeUse (a : TypeUse) : TypeUse := a.mapRef r.ref

def usage (u : Usage) : Usage :=
  { u with
    location := r.place u.location
    definition := u.definition.map r.directive
    parent := u.parent.map r.element }

def usages (us : List Usage) : List Usage := us.map r.usage

def enumValue (v : EnumValue) : EnumValue :=
  { v with
    location := r.place v.location
    usages := r.usages v.usages
    parent := v.parent.map r.element }

def inputValue (v : InputValue) : InputValue :=
  { v with
    location := r.place v.location
    type := r.typeUse v.type
    usages := r.usages v.usages
    parent := v.parent.map r.element }

def field (f : Field) : Field :=
  { f with
    location := r.place f.location
    arguments := f.arguments.map r.inputValue
    type := r.typeUse f.type
    usages := r.usages f.usages
    parent := f.parent.map r.element }

def shape (s : Shape) : Shape := ⟨s.fields.map r.field, s.implements.map r.ref⟩

def body : TypeBody → TypeBody
  | .enum values => .enum (values.map r.enumValue)
  | .inputObject fields => .inputObject (fields.map r.inputValue)
  | .interface s => .interface (r.shape s)
  | .object s => .object (r.shape s)
  | .scalar => .scalar
  | .union members => .union (members.map r.ref)

def binding (o : OperationBinding) : OperationBinding := { o with type := r.ref o.type }

def block (b : SchemaBlock) : SchemaBlock where
  location := r.place b.location
  usages := r.usages b.usages
  operations := b.operations.map r.binding

def root (x : Root) : Root where
  block := x.block.map r.block
  query := r.type x.query
  mutation := x.mutation.map r.type
  subscription := x.subscription.map r.type

def typeDef (d : TypeDef) : TypeDef :=
  { d with
    location := r.place d.location
    usages := r.usages d.usages
    body := r.body d.body
    references := d.references.map r.reference }

def directiveDef (d : DirectiveDef) : DirectiveDef :=
  { d with
    location := r.place d.location
    arguments := d.arguments.map r.inputValue
    references := d.references.map r.usageId }

@[simp] theorem element_back (e : ElementId) : r.element (r.back.element e) = e := by
  cases e <;> simp [element]

@[simp] theorem back_element (e : ElementId) : r.back.element (r.element e) = e := by
  cases e <;> simp [element]

theorem element_injective {e e' : ElementId} (same : r.element e = r.element e') : e = e' := by
  rw [← r.back_element e, same, r.back_element]

theorem reference_injective {x y : Reference} (same : r.reference x = r.reference y) : x = y := by
  obtain ⟨kind, site⟩ := x
  obtain ⟨kind', site'⟩ := y
  have sameKind : kind = kind' := congrArg Reference.kind same
  have sameSite : site = site' := r.element_injective (congrArg Reference.site same)
  rw [sameKind, sameSite]

theorem usageId_injective {x y : UsageId} (same : r.usageId x = r.usageId y) : x = y := by
  obtain ⟨owner, index⟩ := x
  obtain ⟨owner', index'⟩ := y
  have sameOwner : owner = owner' := r.element_injective (congrArg UsageId.owner same)
  have sameIndex : index = index' := congrArg UsageId.index same
  rw [sameOwner, sameIndex]

@[simp] theorem element_owningType? (e : ElementId) :
    (r.element e).owningType? = e.owningType?.map r.type := by
  cases e <;> rfl

@[simp] theorem ref_name (x : TypeRef) : (r.ref x).name = x.name := rfl

@[simp] theorem ref_target (x : TypeRef) : (r.ref x).target = x.target.map r.type := rfl

@[simp] theorem typeUse_innermost (a : TypeUse) :
    (r.typeUse a).innermost = r.ref a.innermost := by
  induction a with
  | named x => rfl
  | list item ih => exact ih
  | nonNull inner ih => exact ih

@[simp] theorem typeUse_isNonNull (a : TypeUse) : (r.typeUse a).isNonNull = a.isNonNull := by
  cases a <;> rfl

theorem typeUse_equivalent (a b : TypeUse) :
    (r.typeUse a).equivalent (r.typeUse b) = a.equivalent b := by
  induction a generalizing b with
  | named x => cases b <;> rfl
  | list item ih =>
    cases b with
    | list other => exact ih other
    | _ => rfl
  | nonNull inner ih =>
    cases b with
    | nonNull other => exact ih other
    | _ => rfl

@[simp] theorem usage_name (u : Usage) : (r.usage u).name = u.name := rfl

@[simp] theorem usage_arguments (u : Usage) : (r.usage u).arguments = u.arguments := rfl

@[simp] theorem inputValue_name (v : InputValue) : (r.inputValue v).name = v.name := rfl

@[simp] theorem inputValue_type (v : InputValue) : (r.inputValue v).type = r.typeUse v.type := rfl

@[simp] theorem inputValue_default (v : InputValue) : (r.inputValue v).default = v.default := rfl

@[simp] theorem inputValue_usages (v : InputValue) :
    (r.inputValue v).usages = r.usages v.usages := rfl

@[simp] theorem field_type (f : Field) : (r.field f).type = r.typeUse f.type := rfl

@[simp] theorem field_usages (f : Field) : (r.field f).usages = r.usages f.usages := rfl

@[simp] theorem field_arguments (f : Field) :
    (r.field f).arguments = f.arguments.map r.inputValue := rfl

@[simp] theorem enumValue_usages (v : EnumValue) :
    (r.enumValue v).usages = r.usages v.usages := rfl

@[simp] theorem shape_fields (s : Shape) : (r.shape s).fields = s.fields.map r.field := rfl

@[simp] theorem shape_implements (s : Shape) :
    (r.shape s).implements = s.implements.map r.ref := rfl

@[simp] theorem inputValue_isRequired (v : InputValue) :
    (r.inputValue v).isRequired = v.isRequired := by
  simp [InputValue.isRequired, inputValue]

@[simp] theorem body_kind (b : TypeBody) : (r.body b).kind = b.kind := by
  cases b <;> rfl

end Relabeling

/-- A type and the same type relabelled, apart from what the analysis adds to it. -/
structure TypeDef.Alike (r : Relabeling) (d d' : TypeDef) : Prop where
  name : d'.name = d.name
  description : d'.description = d.description
  location : d'.location = r.place d.location
  builtIn : d'.builtIn = d.builtIn
  usages : d'.usages = r.usages d.usages
  body : d'.body = r.body d.body

namespace TypeDef.Alike

variable {r : Relabeling} {d d' : TypeDef}

theorem kind (alike : d.Alike r d') : d'.kind = d.kind := by
  rw [TypeDef.kind, alike.body, r.body_kind, TypeDef.kind]

theorem isObject (alike : d.Alike r d') : d'.isObject = d.isObject := by
  rw [TypeDef.isObject, alike.kind, TypeDef.isObject]

theorem shape? (alike : d.Alike r d') : d'.shape? = d.shape?.map r.shape := by
  rw [TypeDef.shape?, TypeDef.shape?, alike.body]
  cases d.body <;> rfl

theorem interface? (alike : d.Alike r d') : d'.interface? = d.interface?.map r.shape := by
  rw [TypeDef.interface?, TypeDef.interface?, alike.body]
  cases d.body <;> rfl

theorem inputFields? (alike : d.Alike r d') :
    d'.inputFields? = d.inputFields?.map fun fields => fields.map r.inputValue := by
  rw [TypeDef.inputFields?, TypeDef.inputFields?, alike.body]
  cases d.body <;> rfl

theorem enumValues? (alike : d.Alike r d') :
    d'.enumValues? = d.enumValues?.map fun values => values.map r.enumValue := by
  rw [TypeDef.enumValues?, TypeDef.enumValues?, alike.body]
  cases d.body <;> rfl

end TypeDef.Alike

structure DirectiveDef.Alike (r : Relabeling) (d d' : DirectiveDef) : Prop where
  name : d'.name = d.name
  description : d'.description = d.description
  location : d'.location = r.place d.location
  builtIn : d'.builtIn = d.builtIn
  arguments : d'.arguments = d.arguments.map r.inputValue
  locations : d'.locations = d.locations
  repeatable : d'.repeatable = d.repeatable

/-- A block and the same block relabelled; the bindings may come in another order. -/
structure SchemaBlock.Alike (r : Relabeling) (b b' : SchemaBlock) : Prop where
  location : b'.location = r.place b.location
  usages : b'.usages = r.usages b.usages
  operations : b'.operations.Perm (b.operations.map r.binding)

namespace Graph

theorem mem_typeIds (g : Graph) (t : TypeId) : t ∈ g.typeIds ↔ t.index < g.types.size := by
  rw [typeIds, List.mem_map]
  constructor
  · rintro ⟨i, bound, rfl⟩
    exact List.mem_range.mp bound
  · intro bound
    exact ⟨t.index, List.mem_range.mpr bound, rfl⟩

theorem mem_directiveIds (g : Graph) (d : DirectiveId) :
    d ∈ g.directiveIds ↔ d.index < g.directives.size := by
  rw [directiveIds, List.mem_map]
  constructor
  · rintro ⟨i, bound, rfl⟩
    exact List.mem_range.mp bound
  · intro bound
    exact ⟨d.index, List.mem_range.mpr bound, rfl⟩

/-- The graph `h` is the graph `g` relabelled, apart from what the analysis adds. -/
structure Matches (r : Relabeling) (g h : Graph) : Prop where
  types : g.types.Alike r.types (TypeDef.Alike r) h.types
  directives : g.directives.Alike r.directives (DirectiveDef.Alike r) h.directives
  block : Option.Rel (SchemaBlock.Alike r) g.block h.block

namespace Matches

variable {r : Relabeling} {g h : Graph}

theorem typeAt? (m : g.Matches r h) (t : TypeId) :
    Option.Rel (TypeDef.Alike r) (g.typeAt? t) (h.typeAt? (r.type t)) :=
  m.types.value t.index

theorem typeAt?_left (m : g.Matches r h) {t : TypeId} {d : TypeDef} (found : g.typeAt? t = some d) :
    ∃ d', h.typeAt? (r.type t) = some d' ∧ d.Alike r d' := by
  obtain ⟨⟨name, _⟩, entry, rfl⟩ := Option.map_eq_some_iff.mp found
  obtain ⟨d', entry', alike⟩ := m.types.of_left entry
  exact ⟨d', Option.map_eq_some_iff.mpr ⟨_, entry', rfl⟩, alike⟩

theorem typeAt?_right (m : g.Matches r h) {t : TypeId} {d' : TypeDef}
    (found : h.typeAt? (r.type t) = some d') : ∃ d, g.typeAt? t = some d ∧ d.Alike r d' := by
  obtain ⟨⟨name, _⟩, entry', rfl⟩ := Option.map_eq_some_iff.mp found
  obtain ⟨d, entry, alike⟩ := m.types.of_right entry'
  rw [r.type_index, Equiv.symm_apply_apply] at entry
  exact ⟨d, Option.map_eq_some_iff.mpr ⟨_, entry, rfl⟩, alike⟩

theorem directiveAt? (m : g.Matches r h) (d : DirectiveId) :
    Option.Rel (DirectiveDef.Alike r) (g.directiveAt? d) (h.directiveAt? (r.directive d)) :=
  m.directives.value d.index

theorem typeId? (m : g.Matches r h) (name : String) :
    h.typeId? name = (g.typeId? name).map r.type := by
  rw [Graph.typeId?, m.types.indexOf?, Graph.typeId?, Option.map_map, Option.map_map]
  rfl

theorem directiveId? (m : g.Matches r h) (name : String) :
    h.directiveId? name = (g.directiveId? name).map r.directive := by
  rw [Graph.directiveId?, m.directives.indexOf?, Graph.directiveId?, Option.map_map,
    Option.map_map]
  rfl

theorem mem_typeIds (m : g.Matches r h) (t : TypeId) : r.type t ∈ h.typeIds ↔ t ∈ g.typeIds := by
  rw [Graph.mem_typeIds, Graph.mem_typeIds]
  exact m.types.lt_size t.index

theorem mem_directiveIds (m : g.Matches r h) (d : DirectiveId) :
    r.directive d ∈ h.directiveIds ↔ d ∈ g.directiveIds := by
  rw [Graph.mem_directiveIds, Graph.mem_directiveIds]
  exact m.directives.lt_size d.index

/-- A linked reference leads to the same type in both graphs. -/
theorem resolve (m : g.Matches r h) (x : TypeRef) :
    Option.Rel (fun e e' => e'.1 = r.type e.1 ∧ e.2.Alike r e'.2)
      (g.resolve x) (h.resolve (r.ref x)) := by
  rw [Graph.resolve, Graph.resolve, r.ref_target]
  cases x.target with
  | none => exact .none
  | some t =>
    simp only [Option.map_some, Option.bind_some]
    have related := m.typeAt? t
    generalize g.typeAt? t = source at related
    generalize h.typeAt? (r.type t) = image at related
    cases related with
    | some alike => exact .some ⟨rfl, alike⟩
    | none => exact .none

end Matches

end Graph

end SchemaAtlas
