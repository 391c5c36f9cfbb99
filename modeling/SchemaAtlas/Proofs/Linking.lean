import SchemaAtlas.Proofs.Collecting
import SchemaAtlas.Proofs.Roots

/-!
# Linked graphs

Linking and root resolution change what is known of an element but not which elements there are. So
a lookup in the final graph is the same lookup in the collected one, with the answer linked; this
module says so for each kind of lookup, and from it what an accepted schema looks like.
-/

namespace SchemaAtlas

/-- The argument or input field at an element, if it is one. -/
def inputValueAt? (types : Table TypeDef) (directives : Table DirectiveDef) :
    ElementId → Option InputValue
  | .fieldArgument t f a =>
    ((((types.at? t.index).bind fun e => e.2.shape?).bind (·.fields.at? f)).bind
      (·.2.arguments.at? a)).map Prod.snd
  | .inputField t f =>
    (((types.at? t.index).bind fun e => e.2.inputFields?).bind (·.at? f)).map Prod.snd
  | .directiveArgument d a =>
    ((directives.at? d.index).bind fun e => e.2.arguments.at? a).map Prod.snd
  | .schema | .type _ | .field _ _ | .enumValue _ _ | .directive _ => none

/-- The field at an element, if it is one. -/
def fieldAt? (types : Table TypeDef) : ElementId → Option Field
  | .field t f =>
    (((types.at? t.index).bind fun e => e.2.shape?).bind (·.fields.at? f)).map Prod.snd
  | _ => none

/-- The type that an element is declared with. -/
def typeUseAt? (types : Table TypeDef) (directives : Table DirectiveDef) (e : ElementId) :
    Option TypeUse :=
  ((fieldAt? types e).map Field.type).or ((inputValueAt? types directives e).map InputValue.type)

namespace Schema

def typeUse? (s : Schema) (e : ElementId) : Option TypeUse := typeUseAt? s.types s.directives e

end Schema

@[simp] theorem TypeUse.innermost_mapRef (f : TypeRef → TypeRef) (a : TypeUse) :
    (a.mapRef f).innermost = f a.innermost := by
  induction a with
  | named ref => rfl
  | list item ih => exact ih
  | nonNull inner ih => exact ih

namespace Names

variable (names : Names)

@[simp] theorem linkRef_name (ref : TypeRef) : (names.linkRef ref).name = ref.name := rfl

@[simp] theorem linkBody_kind (t : TypeId) (b : TypeBody) : (names.linkBody t b).kind = b.kind := by
  cases b <;> rfl

theorem linkBody_eq_union {t : TypeId} {b : TypeBody} {members : Table TypeRef} :
    names.linkBody t b = .union members ↔
      ∃ old, b = .union old ∧ old.map names.linkRef = members := by
  cases b <;> simp [linkBody]

@[simp] theorem linkType_usages (t : TypeId) (found : List Reference) (d : TypeDef) :
    (names.linkType t found d).usages = names.linkUsages (.type t) d.usages := rfl

@[simp] theorem linkType_name (t : TypeId) (found : List Reference) (d : TypeDef) :
    (names.linkType t found d).name = d.name := rfl

theorem linkUsages_getD (owner : ElementId) (us : Option (List Usage)) :
    names.linkUsages owner (us.getD []) = (us.map (names.linkUsages owner)).getD [] := by
  cases us <;> rfl

@[simp] theorem linkType_shape? (t : TypeId) (found : List Reference) (d : TypeDef) :
    (names.linkType t found d).shape? = d.shape?.map (names.linkShape t) := by
  obtain ⟨_, _, _, _, _, body, _, _⟩ := d
  cases body <;> rfl

@[simp] theorem linkType_inputFields? (t : TypeId) (found : List Reference) (d : TypeDef) :
    (names.linkType t found d).inputFields? =
      d.inputFields?.map (names.linkInputValues (.inputField t) (.type t)) := by
  obtain ⟨_, _, _, _, _, body, _, _⟩ := d
  cases body <;> rfl

@[simp] theorem linkType_enumValues? (t : TypeId) (found : List Reference) (d : TypeDef) :
    (names.linkType t found d).enumValues? =
      d.enumValues?.map fun values => values.mapIdx fun i v => names.linkEnumValue t i v := by
  obtain ⟨_, _, _, _, _, body, _, _⟩ := d
  cases body <;> rfl

end Names

namespace Graph

@[simp] theorem linked_types_at? (g : Graph) (i : Nat) :
    g.linked.types.at? i = (g.types.at? i).map fun e =>
      (e.1, g.names.linkType ⟨i⟩ (referencesOf ⟨i⟩ g.typeReferences) e.2) := by
  simp [linked]

@[simp] theorem linked_directives_at? (g : Graph) (i : Nat) :
    g.linked.directives.at? i = (g.directives.at? i).map fun e =>
      (e.1, g.names.linkDirective ⟨i⟩ (referencesOf ⟨i⟩ g.usageReferences) e.2) := by
  simp [linked]

@[simp] theorem linked_types_keys (g : Graph) : g.linked.types.keys = g.types.keys := by
  simp [linked]

@[simp] theorem linked_directives_keys (g : Graph) :
    g.linked.directives.keys = g.directives.keys := by
  simp [linked]

theorem Fresh.of_typeAt? {g : Graph} (fresh : g.Fresh) {t : TypeId} {d : TypeDef}
    (found : g.typeAt? t = some d) : d.Fresh := by
  obtain ⟨e, entry, rfl⟩ := Option.map_eq_some_iff.mp found
  exact fresh.types.each e ((Table.mem_entries_iff _ e).mpr ⟨_, entry⟩)

theorem Fresh.linked_types_distinct {g : Graph} (fresh : g.Fresh) :
    g.linked.types.keys.Nodup := by
  rw [linked_types_keys]
  exact fresh.types.distinct

theorem Fresh.linked_directives_distinct {g : Graph} (fresh : g.Fresh) :
    g.linked.directives.keys.Nodup := by
  rw [linked_directives_keys]
  exact fresh.directives.distinct

@[simp] theorem linked_block (g : Graph) : g.linked.block = g.block.map g.names.linkBlock := rfl

@[simp] theorem linked_typeId? (g : Graph) (name : String) :
    g.linked.typeId? name = g.typeId? name := by
  simp [typeId?, Table.indexOf?]

@[simp] theorem withRoot_types_at? (g : Graph) (i : Nat) :
    g.withRoot.types.at? i = (g.types.at? i).map fun e =>
      (e.1, { e.2 with
        references := e.2.references ++ g.rootReferences ⟨i⟩
        rooted := e.2.rooted || g.rootedIds.contains ⟨i⟩ }) := by
  simp [withRoot]

@[simp] theorem withRoot_types_keys (g : Graph) : g.withRoot.types.keys = g.types.keys := by
  simp [withRoot]

@[simp] theorem withRoot_directives (g : Graph) : g.withRoot.directives = g.directives := rfl

theorem typeId?_eq_some_iff {g : Graph} (distinct : g.types.keys.Nodup) (name : String)
    (t : TypeId) : g.typeId? name = some t ↔ ∃ d, g.types.at? t.index = some (name, d) := by
  rw [← Table.indexOf?_eq_some_iff distinct, typeId?, Option.map_eq_some_iff]
  constructor
  · rintro ⟨i, found, rfl⟩
    exact found
  · exact fun found => ⟨t.index, found, rfl⟩

theorem typeId?_injective {g : Graph} (distinct : g.types.keys.Nodup) {name name' : String}
    {t : TypeId} (named : g.typeId? name = some t) (named' : g.typeId? name' = some t) :
    name = name' := by
  obtain ⟨d, entry⟩ := (typeId?_eq_some_iff distinct name t).mp named
  obtain ⟨d', entry'⟩ := (typeId?_eq_some_iff distinct name' t).mp named'
  exact congrArg Prod.fst (Option.some.inj (entry.symm.trans entry'))

theorem directiveId?_eq_some_iff {g : Graph} (distinct : g.directives.keys.Nodup) (name : String)
    (d : DirectiveId) :
    g.directiveId? name = some d ↔ ∃ x, g.directives.at? d.index = some (name, x) := by
  rw [← Table.indexOf?_eq_some_iff distinct, directiveId?, Option.map_eq_some_iff]
  constructor
  · rintro ⟨i, found, rfl⟩
    exact found
  · exact fun found => ⟨d.index, found, rfl⟩

/-- The usages on an element are those collected, each linked to its owner. -/
theorem linked_usages (g : Graph) (e : ElementId) :
    g.linked.usages e = g.names.linkUsages e (g.usages e) := by
  cases e <;>
    simp [usages, elementUsages, Names.linkUsages_getD, Option.bind_map, Option.map_bind,
      Option.bind_assoc, Function.comp_def, Names.linkShape, Names.linkField,
      Names.linkInputValues, Names.linkInputValue, Names.linkEnumValue, Names.linkBlock,
      Names.linkDirective]
  rfl

theorem linked_fieldAt? (g : Graph) (t : TypeId) (f : Nat) :
    fieldAt? g.linked.types (.field t f) =
      (fieldAt? g.types (.field t f)).map (g.names.linkField t f) := by
  simp [fieldAt?, Option.bind_map, Option.map_bind, Option.bind_assoc, Function.comp_def,
    Names.linkShape]

theorem linked_inputValueAt? (g : Graph) (e : ElementId) :
    inputValueAt? g.linked.types g.linked.directives e =
      (inputValueAt? g.types g.directives e).map
        (g.names.linkInputValue e (e.container?.getD .schema)) := by
  cases e <;>
    simp [inputValueAt?, Option.bind_map, Option.map_bind, Option.bind_assoc, Function.comp_def,
      Names.linkShape, Names.linkField, Names.linkInputValues, Names.linkDirective,
      ElementId.container?]

theorem linked_typeUseAt? (g : Graph) (e : ElementId) :
    typeUseAt? g.linked.types g.linked.directives e =
      (typeUseAt? g.types g.directives e).map (TypeUse.mapRef g.names.linkRef) := by
  cases e with
  | field t f =>
    simp only [typeUseAt?, linked_fieldAt?, linked_inputValueAt?, Option.map_map, Option.map_or]
    rfl
  | _ =>
    simp only [typeUseAt?, linked_inputValueAt?, Option.map_map, Option.map_or]
    rfl

theorem withRoot_usages (g : Graph) (e : ElementId) : g.withRoot.usages e = g.usages e := by
  cases e <;>
    simp [usages, elementUsages, Option.bind_map, Function.comp_def, TypeDef.shape?,
      TypeDef.inputFields?, TypeDef.enumValues?]
  rfl

theorem withRoot_typeUseAt? (g : Graph) (e : ElementId) :
    typeUseAt? g.withRoot.types g.withRoot.directives e =
      typeUseAt? g.types g.directives e := by
  cases e <;>
    simp [typeUseAt?, fieldAt?, inputValueAt?, Option.bind_map, Function.comp_def,
      TypeDef.shape?, TypeDef.inputFields?]

end Graph

end SchemaAtlas
