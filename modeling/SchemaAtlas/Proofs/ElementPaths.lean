import SchemaAtlas.Proofs.KeyedGraphs
import SchemaAtlas.Proofs.Legality
import SchemaAtlas.Proofs.Lookups

/-!
# Elements and their paths

An element is known by its positions in the tables of a graph, and its path tells the names on the
way to it. In a graph whose tables are keyed the two agree: the path of an element inside another
one is that of the other one and its own name, and elements can be found again by their paths.
-/

namespace SchemaAtlas

namespace Table.Keyed

variable {α : Type} {name : α → String} {t : Table α} (keyed : t.Keyed name) {i : Nat}
  {key : String} {a : α} (found : t.at? i = some (key, a))
include keyed found

theorem indexOf?_of_at? : t.indexOf? key = some i :=
  (indexOf?_eq_some_iff keyed.distinct key i).mpr ⟨a, found⟩

theorem get?_of_at? : t.get? key = some a :=
  (get?_eq_some_iff_at? keyed.distinct key a).mpr ⟨i, found⟩

end Table.Keyed

/-- The enum value at an element, if it is one. -/
def enumValueAt? (types : Table TypeDef) : ElementId → Option EnumValue
  | .enumValue t v =>
    (((types.at? t.index).bind fun e => e.2.enumValues?).bind (·.at? v)).map Prod.snd
  | _ => none

namespace Graph

/-- What an element inside another one says of itself: its own segment and its parent. -/
def nested? (g : Graph) (e : ElementId) : Option (PathSegment × Option ElementId) :=
  match e with
  | .schema | .type _ | .directive _ => none
  | .field _ _ => (fieldAt? g.types e).map fun f => (.field f.name, f.parent)
  | .enumValue _ _ => (enumValueAt? g.types e).map fun v => (.enumValue v.name, v.parent)
  | .inputField _ _ =>
    (inputValueAt? g.types g.directives e).map fun v => (.inputField v.name, v.parent)
  | .fieldArgument _ _ _ | .directiveArgument _ _ =>
    (inputValueAt? g.types g.directives e).map fun v => (.argument v.name, v.parent)

/-- The elements that a graph has. The schema is always one, whether or not there is a block. -/
inductive Present (g : Graph) : ElementId → Prop
  | schema : Present g .schema
  | type {t : TypeId} {name : String} {d : TypeDef}
    (found : g.types.at? t.index = some (name, d)) : Present g (.type t)
  | field {t : TypeId} {name key : String} {d : TypeDef} {shape : Shape} {i : Nat} {f : Field}
    (found : g.types.at? t.index = some (name, d)) (shaped : d.shape? = some shape)
    (member : shape.fields.at? i = some (key, f)) : Present g (.field t i)
  | fieldArgument {t : TypeId} {name key key' : String} {d : TypeDef} {shape : Shape} {i j : Nat}
    {f : Field} {v : InputValue}
    (found : g.types.at? t.index = some (name, d)) (shaped : d.shape? = some shape)
    (member : shape.fields.at? i = some (key, f))
    (argument : f.arguments.at? j = some (key', v)) : Present g (.fieldArgument t i j)
  | inputField {t : TypeId} {name key : String} {d : TypeDef} {fields : Table InputValue} {i : Nat}
    {v : InputValue}
    (found : g.types.at? t.index = some (name, d)) (listed : d.inputFields? = some fields)
    (member : fields.at? i = some (key, v)) : Present g (.inputField t i)
  | enumValue {t : TypeId} {name key : String} {d : TypeDef} {values : Table EnumValue} {i : Nat}
    {v : EnumValue}
    (found : g.types.at? t.index = some (name, d)) (listed : d.enumValues? = some values)
    (member : values.at? i = some (key, v)) : Present g (.enumValue t i)
  | directive {id : DirectiveId} {name : String} {d : DirectiveDef}
    (found : g.directives.at? id.index = some (name, d)) : Present g (.directive id)
  | directiveArgument {id : DirectiveId} {name key : String} {d : DirectiveDef} {i : Nat}
    {v : InputValue}
    (found : g.directives.at? id.index = some (name, d))
    (argument : d.arguments.at? i = some (key, v)) : Present g (.directiveArgument id i)

end Graph

/-- The members of a type stand under their own names, and so do the arguments of its fields. -/
structure TypeDef.MembersKeyed (d : TypeDef) : Prop where
  fields : ∀ {shape}, d.shape? = some shape → shape.fields.Keyed Field.name
  arguments : ∀ {shape i e}, d.shape? = some shape → shape.fields.at? i = some e →
    e.2.arguments.Keyed InputValue.name
  inputFields : ∀ {fields}, d.inputFields? = some fields → fields.Keyed InputValue.name
  enumValues : ∀ {values}, d.enumValues? = some values → values.Keyed EnumValue.name

/-- All entries of all tables stand under their own names. -/
structure Graph.Keyed (g : Graph) : Prop where
  types : g.types.Keyed TypeDef.name
  members : ∀ {t d}, g.typeAt? t = some d → d.MembersKeyed
  directives : g.directives.Keyed DirectiveDef.name
  arguments : ∀ {id d}, g.directiveAt? id = some d → d.arguments.Keyed InputValue.name

theorem TypeDef.Keyed.membersKeyed {d : TypeDef} (keyed : d.Keyed) : d.MembersKeyed where
  fields shaped := (keyed.shape shaped).fields.toKeyed
  arguments shaped member :=
    (keyed.shape shaped).fields.each _ ((Table.mem_entries_iff _ _).mpr ⟨_, member⟩)
  inputFields listed := keyed.body_eq (TypeDef.inputFields?_eq_some_iff.mp listed)
  enumValues listed := keyed.body_eq (TypeDef.enumValues?_eq_some_iff.mp listed)

namespace Graph

theorem AllKeyed.keyed {g : Graph} (keyed : g.AllKeyed) : g.Keyed where
  types := keyed.types.toKeyed
  members := by
    intro t d found
    obtain ⟨e, entry, rfl⟩ := Option.map_eq_some_iff.mp found
    have own := keyed.types.each e ((Table.mem_entries_iff _ e).mpr ⟨_, entry⟩)
    exact own.membersKeyed
  directives := keyed.directives.toKeyed
  arguments := by
    intro id d found
    obtain ⟨e, entry, rfl⟩ := Option.map_eq_some_iff.mp found
    exact keyed.directives.each e ((Table.mem_entries_iff _ e).mpr ⟨_, entry⟩)

theorem Fresh.linked_keyed {g : Graph} (fresh : g.Fresh) : g.linked.Keyed :=
  fresh.allKeyed.linked.keyed

/-! What linking writes into the elements. -/

theorem linked_enumValueAt? (g : Graph) (t : TypeId) (v : Nat) :
    enumValueAt? g.linked.types (.enumValue t v) =
      (enumValueAt? g.types (.enumValue t v)).map (g.names.linkEnumValue t v) := by
  simp [enumValueAt?, Option.bind_map, Option.map_bind, Option.bind_assoc, Function.comp_def]

/-- An element inside another one has it as its parent. -/
theorem linked_nested?_parent {g : Graph} {e : ElementId} {s : PathSegment}
    {parent : Option ElementId} (nested : g.linked.nested? e = some (s, parent)) :
    parent = e.container? := by
  cases e with
  | schema | type | directive => cases nested
  | field t f =>
    rw [nested?, linked_fieldAt?, Option.map_map, Option.map_eq_some_iff] at nested
    obtain ⟨old, _, same⟩ := nested
    cases same
    rfl
  | enumValue t v =>
    rw [nested?, linked_enumValueAt?, Option.map_map, Option.map_eq_some_iff] at nested
    obtain ⟨old, _, same⟩ := nested
    cases same
    rfl
  | inputField | fieldArgument | directiveArgument =>
    rw [nested?, linked_inputValueAt?, Option.map_map, Option.map_eq_some_iff] at nested
    obtain ⟨old, _, same⟩ := nested
    cases same
    rfl

theorem linked_usages_parent {g : Graph} {e : ElementId} {u : Usage}
    (used : u ∈ g.linked.usages e) : u.parent = some e := by
  rw [linked_usages, Names.linkUsages, List.mem_map] at used
  obtain ⟨old, _, rfl⟩ := used
  rfl

/-! Paths, from names in the tables. -/

section Steps

variable {g : Graph} {t : TypeId} {id : DirectiveId} {i j : Nat} {name key key' : String}
  {d : TypeDef}

theorem path_field {shape : Shape} {f : Field} (found : g.types.at? t.index = some (name, d))
    (shaped : d.shape? = some shape) (member : shape.fields.at? i = some (key, f)) :
    g.path (.field t i) = (g.path (.type t)).child (.field key) := by
  simp [path, elementPath, found, shaped, member, ElementPath.child]

theorem path_fieldArgument {shape : Shape} {f : Field} {v : InputValue}
    (found : g.types.at? t.index = some (name, d)) (shaped : d.shape? = some shape)
    (member : shape.fields.at? i = some (key, f))
    (argument : f.arguments.at? j = some (key', v)) :
    g.path (.fieldArgument t i j) = (g.path (.field t i)).child (.argument key') := by
  simp [path, elementPath, found, shaped, member, argument, ElementPath.child]

theorem path_inputField {fields : Table InputValue} {v : InputValue}
    (found : g.types.at? t.index = some (name, d)) (listed : d.inputFields? = some fields)
    (member : fields.at? i = some (key, v)) :
    g.path (.inputField t i) = (g.path (.type t)).child (.inputField key) := by
  simp [path, elementPath, found, listed, member, ElementPath.child]

theorem path_enumValue {values : Table EnumValue} {v : EnumValue}
    (found : g.types.at? t.index = some (name, d)) (listed : d.enumValues? = some values)
    (member : values.at? i = some (key, v)) :
    g.path (.enumValue t i) = (g.path (.type t)).child (.enumValue key) := by
  simp [path, elementPath, found, listed, member, ElementPath.child]

theorem path_directiveArgument {d : DirectiveDef} {v : InputValue}
    (found : g.directives.at? id.index = some (name, d))
    (argument : d.arguments.at? i = some (key, v)) :
    g.path (.directiveArgument id i) = (g.path (.directive id)).child (.argument key) := by
  simp [path, elementPath, found, argument, ElementPath.child]

end Steps

/-- The element with a path, looked up name by name. -/
def elementAt? (g : Graph) (path : ElementPath) : Option ElementId :=
  match path.segments with
  | [.schema] => some .schema
  | [.type _ name] => (g.typeId? name).map .type
  | [.type _ name, .field key] => do
    let t ← g.typeId? name
    let shape ← (g.typeAt? t).bind TypeDef.shape?
    let i ← shape.fields.indexOf? key
    some (.field t i)
  | [.type _ name, .field key, .argument key'] => do
    let t ← g.typeId? name
    let shape ← (g.typeAt? t).bind TypeDef.shape?
    let i ← shape.fields.indexOf? key
    let f ← shape.fields.get? key
    let j ← f.arguments.indexOf? key'
    some (.fieldArgument t i j)
  | [.type _ name, .inputField key] => do
    let t ← g.typeId? name
    let fields ← (g.typeAt? t).bind TypeDef.inputFields?
    let i ← fields.indexOf? key
    some (.inputField t i)
  | [.type _ name, .enumValue key] => do
    let t ← g.typeId? name
    let values ← (g.typeAt? t).bind TypeDef.enumValues?
    let i ← values.indexOf? key
    some (.enumValue t i)
  | [.directive name] => (g.directiveId? name).map .directive
  | [.directive name, .argument key] => do
    let id ← g.directiveId? name
    let d ← g.directiveAt? id
    let i ← d.arguments.indexOf? key
    some (.directiveArgument id i)
  | _ => none

namespace Keyed

variable {g : Graph} (keyed : g.Keyed)
include keyed

theorem typeId?_of_at? {t : TypeId} {name : String} {d : TypeDef}
    (found : g.types.at? t.index = some (name, d)) : g.typeId? name = some t :=
  (typeId?_eq_some_iff keyed.types.distinct name t).mpr ⟨d, found⟩

theorem directiveId?_of_at? {id : DirectiveId} {name : String} {d : DirectiveDef}
    (found : g.directives.at? id.index = some (name, d)) : g.directiveId? name = some id :=
  (directiveId?_eq_some_iff keyed.directives.distinct name id).mpr ⟨d, found⟩

omit keyed in
theorem directiveAt?_of_at? {id : DirectiveId} {e : String × DirectiveDef}
    (entry : g.directives.at? id.index = some e) : g.directiveAt? id = some e.2 := by
  rw [directiveAt?, entry, Option.map_some]

/-- Elements are found again by their paths. -/
theorem elementAt?_path {e : ElementId} (present : g.Present e) :
    g.elementAt? (g.path e) = some e := by
  cases present with
  | schema => rfl
  | type found =>
    simp [path, elementPath, found, typeSegment, elementAt?, keyed.typeId?_of_at? found]
  | field found shaped member =>
    have type := typeAt?_of_at? found
    have index := ((keyed.members type).fields shaped).indexOf?_of_at? member
    simp [path, elementPath, found, shaped, member, typeSegment, elementAt?,
      keyed.typeId?_of_at? found, type, index]
  | fieldArgument found shaped member argument =>
    have type := typeAt?_of_at? found
    have fields := (keyed.members type).fields shaped
    have index := fields.indexOf?_of_at? member
    have field := fields.get?_of_at? member
    have index' := ((keyed.members type).arguments shaped member).indexOf?_of_at? argument
    simp [path, elementPath, found, shaped, member, argument, typeSegment, elementAt?,
      keyed.typeId?_of_at? found, type, index, field, index']
  | inputField found listed member =>
    have type := typeAt?_of_at? found
    have index := ((keyed.members type).inputFields listed).indexOf?_of_at? member
    simp [path, elementPath, found, listed, member, typeSegment, elementAt?,
      keyed.typeId?_of_at? found, type, index]
  | enumValue found listed member =>
    have type := typeAt?_of_at? found
    have index := ((keyed.members type).enumValues listed).indexOf?_of_at? member
    simp [path, elementPath, found, listed, member, typeSegment, elementAt?,
      keyed.typeId?_of_at? found, type, index]
  | directive found =>
    simp [path, elementPath, found, elementAt?, keyed.directiveId?_of_at? found]
  | directiveArgument found argument =>
    have directive := directiveAt?_of_at? found
    have index := (keyed.arguments directive).indexOf?_of_at? argument
    simp [path, elementPath, found, argument, elementAt?, keyed.directiveId?_of_at? found,
      directive, index]

theorem path_injective {e e' : ElementId} (present : g.Present e) (present' : g.Present e')
    (same : g.path e = g.path e') : e = e' := by
  have found := keyed.elementAt?_path present
  rw [same, keyed.elementAt?_path present'] at found
  exact (Option.some.inj found).symm

/-- The path of an element inside another one goes one step further, by its own name. -/
theorem nested_of_present {e c : ElementId} (present : g.Present e)
    (inside : e.container? = some c) :
    g.Present c ∧ ∃ s parent, g.nested? e = some (s, parent) ∧
      g.path e = (g.path c).child s := by
  cases present with
  | schema | type | directive => cases inside
  | @field _ _ key _ _ _ f found shaped member =>
    cases inside
    have named : f.name = key :=
      ((keyed.members (typeAt?_of_at? found)).fields shaped).at?_name member
    refine ⟨.type found, .field f.name, f.parent, ?_, ?_⟩
    · simp [nested?, fieldAt?, found, shaped, member]
    · rw [path_field found shaped member, named]
  | @fieldArgument _ _ _ key' _ _ _ _ _ v found shaped member argument =>
    cases inside
    have named : v.name = key' :=
      ((keyed.members (typeAt?_of_at? found)).arguments shaped member).at?_name argument
    refine ⟨.field found shaped member, .argument v.name, v.parent, ?_, ?_⟩
    · simp [nested?, inputValueAt?, found, shaped, member, argument]
    · rw [path_fieldArgument found shaped member argument, named]
  | @inputField _ _ key _ _ _ v found listed member =>
    cases inside
    have named : v.name = key :=
      ((keyed.members (typeAt?_of_at? found)).inputFields listed).at?_name member
    refine ⟨.type found, .inputField v.name, v.parent, ?_, ?_⟩
    · simp [nested?, inputValueAt?, found, listed, member]
    · rw [path_inputField found listed member, named]
  | @enumValue _ _ key _ _ _ v found listed member =>
    cases inside
    have named : v.name = key :=
      ((keyed.members (typeAt?_of_at? found)).enumValues listed).at?_name member
    refine ⟨.type found, .enumValue v.name, v.parent, ?_, ?_⟩
    · simp [nested?, enumValueAt?, found, listed, member]
    · rw [path_enumValue found listed member, named]
  | @directiveArgument _ _ key _ _ v found argument =>
    cases inside
    have named : v.name = key := (keyed.arguments (directiveAt?_of_at? found)).at?_name argument
    refine ⟨.directive found, .argument v.name, v.parent, ?_, ?_⟩
    · simp [nested?, inputValueAt?, found, argument]
    · rw [path_directiveArgument found argument, named]

end Keyed

end Graph

end SchemaAtlas
