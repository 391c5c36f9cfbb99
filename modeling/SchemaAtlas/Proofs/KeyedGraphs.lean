import SchemaAtlas.Proofs.Collecting

/-!
# Keyed graphs

The tables of a graph stand inside each other: types hold fields, and fields hold arguments. Rules
and reports look an entry up under its key or under its own name, as it suits them. Here the two are
shown to be the same in every table, whatever has been collected, linked or marked.
-/

namespace SchemaAtlas

/-- A keyed table stays one under a change that keeps the names. -/
theorem Table.All.mapIdx {α β : Type} {name : α → String} {name' : β → String} {P : α → Prop}
    {Q : β → Prop} {t : Table α} (all : t.All name P) {f : Nat → α → β}
    (kept : ∀ i a, name' (f i a) = name a) (good : ∀ i a, P a → Q (f i a)) :
    (t.mapIdx f).All name' Q where
  toKeyed := all.toKeyed.mapIdx kept
  each := by
    intro e member
    obtain ⟨i, entry⟩ := (mem_entries_iff _ e).mp member
    rw [at?_mapIdx, Option.map_eq_some_iff] at entry
    obtain ⟨old, entry, rfl⟩ := entry
    exact good i old.2 (all.each old ((mem_entries_iff t old).mpr ⟨i, entry⟩))

theorem Table.All.imp {α : Type} {name : α → String} {P Q : α → Prop} {t : Table α}
    (all : t.All name P) (weaker : ∀ a, P a → Q a) : t.All name Q where
  toKeyed := all.toKeyed
  each e member := weaker e.2 (all.each e member)

def Field.Keyed (f : Field) : Prop := f.arguments.Keyed InputValue.name

structure Shape.Keyed (s : Shape) : Prop where
  fields : s.fields.All Field.name Field.Keyed
  implements : s.implements.Keyed TypeRef.name

def TypeBody.Keyed : TypeBody → Prop
  | enum values => values.Keyed EnumValue.name
  | inputObject fields => fields.Keyed InputValue.name
  | interface shape | object shape => shape.Keyed
  | scalar => True
  | union members => members.Keyed TypeRef.name

def TypeDef.Keyed (d : TypeDef) : Prop := d.body.Keyed

def DirectiveDef.Keyed (d : DirectiveDef) : Prop := d.arguments.Keyed InputValue.name

/-- In every table of the graph the keys are distinct, and each is the name of its value. -/
structure Graph.AllKeyed (g : Graph) : Prop where
  types : g.types.All TypeDef.name TypeDef.Keyed
  directives : g.directives.All DirectiveDef.name DirectiveDef.Keyed

theorem TypeDef.Keyed.body_eq {d : TypeDef} (keyed : d.Keyed) {b : TypeBody} (body : d.body = b) :
    b.Keyed :=
  body ▸ keyed

theorem TypeDef.Keyed.shape {d : TypeDef} (keyed : d.Keyed) {shape : Shape}
    (found : d.shape? = some shape) : shape.Keyed := by
  obtain ⟨_, _, _, _, _, body, _, _⟩ := d
  cases body with
  | interface s | object s =>
    obtain rfl : s = shape := Option.some.inj found
    exact keyed
  | _ => cases found

/-! Collecting. -/

theorem Shape.Fresh.keyed {s : Shape} (fresh : s.Fresh) : s.Keyed where
  fields := fresh.fields.imp fun _ f => f.arguments.toKeyed
  implements := fresh.implements.toKeyed

theorem TypeBody.Fresh.keyed {b : TypeBody} (fresh : b.Fresh) : b.Keyed := by
  cases b with
  | enum values => exact Table.All.toKeyed fresh
  | inputObject fields => exact Table.All.toKeyed fresh
  | interface shape | object shape => exact Shape.Fresh.keyed fresh
  | scalar => trivial
  | union members => exact Table.All.toKeyed fresh

theorem Graph.Fresh.allKeyed {g : Graph} (fresh : g.Fresh) : g.AllKeyed where
  types := fresh.types.imp fun _ d => d.body.keyed
  directives := fresh.directives.imp fun _ d => d.arguments.toKeyed

/-! Linking. -/

namespace Names

variable (names : Names)

theorem linkInputValues_keyed {vs : Table InputValue} (keyed : vs.Keyed InputValue.name)
    (self : Nat → ElementId) (parent : ElementId) :
    (names.linkInputValues self parent vs).Keyed InputValue.name :=
  keyed.mapIdx fun _ _ => rfl

theorem linkRefs_keyed {refs : Table TypeRef} (keyed : refs.Keyed TypeRef.name) :
    (refs.map names.linkRef).Keyed TypeRef.name :=
  keyed.map fun _ => rfl

theorem linkShape_keyed {s : Shape} (keyed : s.Keyed) (t : TypeId) :
    (names.linkShape t s).Keyed where
  fields := keyed.fields.mapIdx (fun _ _ => rfl) fun _ _ arguments =>
    names.linkInputValues_keyed arguments _ _
  implements := names.linkRefs_keyed keyed.implements

theorem linkBody_keyed {b : TypeBody} (keyed : b.Keyed) (t : TypeId) :
    (names.linkBody t b).Keyed := by
  cases b with
  | enum values => exact Table.Keyed.mapIdx keyed fun _ _ => rfl
  | inputObject fields => exact names.linkInputValues_keyed keyed _ _
  | interface shape | object shape => exact names.linkShape_keyed keyed t
  | scalar => trivial
  | union members => exact names.linkRefs_keyed keyed

end Names

namespace Graph

theorem AllKeyed.linked {g : Graph} (keyed : g.AllKeyed) : g.linked.AllKeyed where
  types := keyed.types.mapIdx (fun _ _ => rfl) fun _ _ body => g.names.linkBody_keyed body _
  directives := keyed.directives.mapIdx (fun _ _ => rfl) fun _ _ arguments =>
    g.names.linkInputValues_keyed arguments _ _

/-! The root. It only ever changes what a type remembers of its uses. -/

theorem AllKeyed.mapTypes {g : Graph} (keyed : g.AllKeyed) {f : Nat → TypeDef → TypeDef}
    (name : ∀ i d, (f i d).name = d.name) (body : ∀ i d, (f i d).body = d.body) :
    ({ g with types := g.types.mapIdx f } : Graph).AllKeyed where
  types := keyed.types.mapIdx name fun i d own => by
    rw [TypeDef.Keyed, body]
    exact own
  directives := keyed.directives

theorem AllKeyed.recordRoot {g : Graph} (keyed : g.AllKeyed) (e : OperationKind × TypeId) :
    (recordRoot g e).value.AllKeyed := by
  simp only [Graph.recordRoot]
  split
  · exact keyed
  · refine keyed.mapTypes (fun i d => ?_) fun i d => ?_
    all_goals split <;> rfl

theorem AllKeyed.detectedRoot {g : Graph} (keyed : g.AllKeyed) (required : Bool) :
    (g.detectedRoot required).value.1.AllKeyed := by
  simp only [Graph.detectedRoot, Reported.bind_value]
  split
  · split <;> exact keyed
  · exact keyed
  · exact Reported.through_preserves (fun _ e _ before => before.recordRoot e) keyed

theorem AllKeyed.markRooted {g : Graph} (keyed : g.AllKeyed) (rooted : List TypeId) :
    (g.markRooted rooted).AllKeyed := by
  refine keyed.mapTypes (fun i d => ?_) fun i d => ?_
  all_goals split <;> rfl

theorem AllKeyed.resolveRoot {g : Graph} (keyed : g.AllKeyed) (required : Bool) :
    (g.resolveRoot required).value.AllKeyed := by
  have finish : ∀ h : Graph, h.AllKeyed → ∀ root,
      ({ h.markRooted (h.rootedTypes root) with root := some root } : Graph).AllKeyed :=
    fun h before root => ⟨(before.markRooted _).types, before.directives⟩
  have detected := keyed.detectedRoot required
  cases declared : g.block with
  | some block =>
    simp only [Graph.resolveRoot, declared, Reported.bind_value, Reported.pure_value]
    cases (g.declaredRoot block).value with
    | none => exact keyed
    | some root => exact finish g keyed root
  | none =>
    simp only [Graph.resolveRoot, declared]
    generalize (g.detectedRoot required).value = found at detected ⊢
    obtain ⟨h, root⟩ := found
    cases root with
    | none => exact detected
    | some root => exact finish h detected root

end Graph

/-- In every table of a graph the keys are distinct and are the names of their values: of types and
directives, and inside them of fields, arguments, input fields, enum values, implemented interfaces
and members of unions. This holds of whatever is collected, with or without problems, and linking
and finding the root keep it. -/
theorem tables_keyed (declarations : List Sourced) (required : Bool) :
    let collected := (Graph.collect declarations).value
    let linked := collected.link.value
    collected.AllKeyed ∧ linked.AllKeyed ∧ (linked.resolveRoot required).value.AllKeyed := by
  intro collected linked
  have keyed : collected.AllKeyed := (Graph.collect_fresh declarations).allKeyed
  have keyed' : linked.AllKeyed := keyed.linked
  exact ⟨keyed, keyed', keyed'.resolveRoot required⟩

end SchemaAtlas
