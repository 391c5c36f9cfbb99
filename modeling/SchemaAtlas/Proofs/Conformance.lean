import SchemaAtlas.Proofs.BuiltIns
import SchemaAtlas.Proofs.Lawfulness
import SchemaAtlas.Proofs.Reachability
import SchemaAtlas.Proofs.Relabeling

/-!
# Interface conformance

The rules for interfaces look one step ahead: at the interfaces that a type lists, and at the names
that those list in turn. In a lawful graph this is enough for chains of any length. No chain comes
back to its start, whatever a chain reaches is listed directly, and a type has every field of every
interface that it reaches.
-/

namespace SchemaAtlas

open Relation (TransGen)

/-- A schema as a graph. -/
def Schema.graph (s : Schema) : Graph := ⟨s.types, s.directives, s.block?, s.root⟩

namespace Graph

/-- A type lists another one by its name. -/
def Implements (g : Graph) (t i : TypeId) : Prop :=
  ∃ d shape target, g.typeAt? t = some d ∧ d.shape? = some shape ∧ g.typeAt? i = some target ∧
    target.name ∈ shape.implements.keys

/-- What a field owes to the interface's field of its name. -/
@[mk_iff]
structure FieldConforms (g : Graph) (f declared : Field) : Prop where
  arguments : ∀ e ∈ declared.arguments.entries, ∃ a, f.arguments.get? e.1 = some a ∧
    a.type.equivalent e.2.type = true
  extras : ∀ e ∈ f.arguments.entries, e.1 ∉ declared.arguments.keys → e.2.type.isNonNull = false
  type : g.mayStandFor f.type declared.type = true

/-- Every field of the interface is there and does what it owes. -/
def FieldsConform (g : Graph) (shape interface : Shape) : Prop :=
  ∀ e ∈ interface.fields.entries, ∃ f, shape.fields.get? e.1 = some f ∧ g.FieldConforms f e.2

/-- A type has all that an interface declares. -/
def Conforms (g : Graph) (t i : TypeId) : Prop :=
  ∃ d shape target interface, g.typeAt? t = some d ∧ d.shape? = some shape ∧
    g.typeAt? i = some target ∧ target.interface? = some interface ∧
    g.FieldsConform shape interface

/-! What the rules report nothing about. -/

theorem declaredArgument_eq_nil_iff (interface : String) (path : ElementPath) (f : Field)
    (e : String × InputValue) :
    declaredArgument interface path f e = [] ↔
      ∃ a, f.arguments.get? e.1 = some a ∧ a.type.equivalent e.2.type = true := by
  unfold declaredArgument
  cases f.arguments.get? e.1 with
  | none => simp
  | some a => by_cases same : a.type.equivalent e.2.type = true <;> simp [same]

theorem extraArguments_eq_nil_iff (interface : String) (path : ElementPath) (f declared : Field) :
    extraArguments interface path f declared = [] ↔
      ∀ e ∈ f.arguments.entries, e.1 ∉ declared.arguments.keys → e.2.type.isNonNull = false := by
  simp [extraArguments, Table.contains]

theorem fieldConformance_eq_nil_iff (g : Graph) (interface : String) (path : ElementPath)
    (f declared : Field) :
    g.fieldConformance interface path f declared = [] ↔ g.FieldConforms f declared := by
  rw [fieldConforms_iff, fieldConformance, List.append_eq_nil_iff, List.append_eq_nil_iff,
    List.flatMap_eq_nil_iff, extraArguments_eq_nil_iff]
  simp only [declaredArgument_eq_nil_iff, and_assoc]
  by_cases fits : g.mayStandFor f.type declared.type = true <;> simp [fits]

theorem declaredField_eq_nil_iff (g : Graph) (t : TypeId) (d : TypeDef) (shape : Shape)
    (interface : String) (e : String × Field) :
    g.declaredField t d shape interface e = [] ↔
      ∃ f, shape.fields.get? e.1 = some f ∧ g.FieldConforms f e.2 := by
  have index := shape.fields.indexOf?_eq_none_iff e.1
  rw [← shape.fields.get?_eq_none_iff e.1] at index
  unfold declaredField
  cases found : shape.fields.get? e.1 with
  | none => simp
  | some f =>
    cases position : shape.fields.indexOf? e.1 with
    | none =>
      rw [index.mp position] at found
      cases found
    | some i => simp [fieldConformance_eq_nil_iff]

/-- What a type owes to an interface that it lists: the interfaces listed there, itself apart, and
the fields. -/
def ListedConforms (g : Graph) (t : TypeId) (d : TypeDef) (shape : Shape) (ref : TypeRef) : Prop :=
  ∀ i target, g.resolve ref = some (i, target) →
    ∃ interface, target.interface? = some interface ∧ (i ≠ t →
      (∀ name ∈ interface.implements.keys, name = d.name ∨ name ∈ shape.implements.keys) ∧
      g.FieldsConform shape interface)

theorem missingInterfaces_eq_nil_iff (d : TypeDef) (shape interface : Shape) :
    missingInterfaces d shape interface [] = [] ↔
      ∀ name ∈ interface.implements.keys, name = d.name ∨ name ∈ shape.implements.keys := by
  simp only [missingInterfaces, List.filter_eq_nil_iff, Table.contains]
  refine forall₂_congr fun name _ => ?_
  by_cases own : name = d.name <;> simp [own]

/-- As long as nothing is missing, nothing has been demanded. -/
theorem interfaceProblems_eq_nil_iff (g : Graph) (t : TypeId) (d : TypeDef) (shape : Shape)
    (refs : List (String × TypeRef)) :
    g.interfaceProblems t d shape (g.declaredField t d shape) [] refs = [] ↔
      ∀ e ∈ refs, g.ListedConforms t d shape e.2 := by
  induction refs with
  | nil => simp [interfaceProblems]
  | cons e rest ih =>
    obtain ⟨name, ref⟩ := e
    rw [List.forall_mem_cons, ← ih]
    simp only [ListedConforms, interfaceProblems]
    cases g.resolve ref with
    | none => simp
    | some found =>
      obtain ⟨i, target⟩ := found
      cases body : target.interface? with
      | none => simp [body]
      | some interface =>
        by_cases self : i = t
        · simp [self, body]
        · simp only [body, if_neg self, List.append_eq_nil_iff, List.map_eq_nil_iff,
            List.flatMap_eq_nil_iff, declaredField_eq_nil_iff, List.nil_append]
          constructor
          · rintro ⟨⟨complete, fields⟩, later⟩
            rw [complete] at later
            refine ⟨?_, later⟩
            rintro _ _ ⟨⟩
            exact ⟨interface, body, fun _ =>
              ⟨(missingInterfaces_eq_nil_iff d shape interface).mp complete, fields⟩⟩
          · rintro ⟨owed, later⟩
            obtain ⟨interface', same, paid⟩ := owed i target rfl
            cases body.symm.trans same
            obtain ⟨listed, fields⟩ := paid self
            have complete := (missingInterfaces_eq_nil_iff d shape interface).mpr listed
            rw [complete]
            exact ⟨⟨rfl, fields⟩, later⟩

theorem checkInterfaces_eq_nil_iff (g : Graph) (t : TypeId) (d : TypeDef) (shape : Shape) :
    g.checkInterfaces t d shape = [] ↔
      (d.kind = .interface → g.implementsInterface t t = false) ∧
        ∀ e ∈ shape.implements.entries, g.ListedConforms t d shape e.2 := by
  rw [checkInterfaces, List.append_eq_nil_iff, interfaceProblems_eq_nil_iff]
  refine and_congr_left fun _ => ?_
  by_cases kind : d.kind = .interface <;> simp [kind]

/-- A type without fields is refused, so interfaces are checked wherever they are listed. -/
theorem Lawful.checkInterfaces {g : Graph} (lawful : g.Lawful) {t : TypeId} {d : TypeDef}
    {shape : Shape} (found : g.typeAt? t = some d) (own : d.builtIn = false)
    (shaped : d.shape? = some shape) : g.checkInterfaces t d shape = [] := by
  have silent := lawful.types t d found own
  simp only [checkType, List.append_eq_nil_iff] at silent
  obtain ⟨_, members⟩ := silent
  have checked : checkEmpty d shape.fields.isEmpty = [] ∧
      (if shape.fields.isEmpty then [] else g.checkInterfaces t d shape) = [] := by
    unfold checkBody at members
    unfold TypeDef.shape? at shaped
    split at shaped
    · next body =>
      cases shaped
      simp only [body, List.append_eq_nil_iff] at members
      exact ⟨members.1.1, members.2⟩
    · next body =>
      cases shaped
      simp only [body, List.append_eq_nil_iff] at members
      exact ⟨members.1.1, members.2⟩
    · cases shaped
  cases empty : shape.fields.isEmpty with
  | true => simp [checkEmpty, empty] at checked
  | false => simpa [empty] using checked.2

/-! Listed names, and the positions that they are linked to. -/

/-- Types have distinct names, and what a type lists is linked to the type of that name. -/
structure InterfacesLinked (g : Graph) : Prop where
  unique : ∀ i j d d', g.typeAt? i = some d → g.typeAt? j = some d' → d.name = d'.name → i = j
  linked : ∀ t d shape, g.typeAt? t = some d → d.shape? = some shape →
    ∀ e ∈ shape.implements.entries, ∃ i target, g.resolve e.2 = some (i, target) ∧ target.name = e.1

/-- What a type lists is linked to the type of that name, if there is one. -/
def InterfacesNamed (g : Graph) : Prop :=
  ∀ t d shape, g.typeAt? t = some d → d.shape? = some shape → ∀ e ∈ shape.implements.entries,
    ∀ i, e.2.target = some i ↔ ∃ target, g.typeAt? i = some target ∧ target.name = e.1

section Chains

variable {g : Graph}

theorem typeAt?_isSome_iff (g : Graph) (t : TypeId) : (g.typeAt? t).isSome ↔ t ∈ g.typeIds := by
  rw [typeAt?, Option.isSome_map, Table.at?_isSome_iff, mem_typeIds]

theorem resolve_eq_some_iff (g : Graph) (ref : TypeRef) (t : TypeId) (d : TypeDef) :
    g.resolve ref = some (t, d) ↔ ref.target = some t ∧ g.typeAt? t = some d := by
  constructor
  · exact resolve_target
  · rintro ⟨target, found⟩
    simp [resolve, target, found]

/-- The entry by which a type lists another one. -/
theorem Implements.entry (linked : g.InterfacesLinked) {t i : TypeId} (step : g.Implements t i) :
    ∃ d shape target, g.typeAt? t = some d ∧ d.shape? = some shape ∧
      ∃ e ∈ shape.implements.entries, g.resolve e.2 = some (i, target) ∧ target.name = e.1 := by
  obtain ⟨d, shape, target, found, shaped, goal, listed⟩ := step
  obtain ⟨e, member, named⟩ := List.mem_map.mp listed
  obtain ⟨j, target', resolved, named'⟩ := linked.linked t d shape found shaped e member
  have goal' := (resolve_target resolved).2
  obtain rfl := linked.unique j i target' target goal' goal (named'.trans named)
  exact ⟨d, shape, target', found, shaped, e, member, resolved, named'⟩

theorem InterfacesLinked.named (linked : g.InterfacesLinked) : g.InterfacesNamed := by
  intro t d shape found shaped e member i
  obtain ⟨j, target, resolved, named⟩ := linked.linked t d shape found shaped e member
  obtain ⟨link, goal⟩ := resolve_target resolved
  constructor
  · intro link'
    cases link.symm.trans link'
    exact ⟨target, goal, named⟩
  · rintro ⟨target', goal', named'⟩
    rw [link, linked.unique j i target target' goal goal' (named.trans named'.symm)]

theorem mem_interfacesOf (named : g.InterfacesNamed) (t i : TypeId) :
    i ∈ g.interfacesOf t ↔ g.Implements t i := by
  unfold interfacesOf
  cases known : (g.typeAt? t).bind TypeDef.shape? with
  | none =>
    simp only [List.not_mem_nil, false_iff]
    rintro ⟨d, shape, _, found, shaped, _⟩
    simp [found, shaped] at known
  | some shape =>
    obtain ⟨d, found, shaped⟩ := Option.bind_eq_some_iff.mp known
    simp only [List.mem_filterMap]
    constructor
    · rintro ⟨ref, listed, link⟩
      obtain ⟨e, entry, rfl⟩ := List.mem_map.mp listed
      obtain ⟨target, goal, name⟩ := (named t d shape found shaped e entry i).mp link
      exact ⟨d, shape, target, found, shaped, goal, name ▸ List.mem_map_of_mem entry⟩
    · rintro ⟨d', shape', target, found', shaped', goal, listed⟩
      cases found.symm.trans found'
      cases shaped.symm.trans shaped'
      obtain ⟨e, entry, name⟩ := List.mem_map.mp listed
      exact ⟨e.2, List.mem_map_of_mem entry,
        (named t d shape found shaped e entry i).mpr ⟨target, goal, name.symm⟩⟩

theorem implementsInterface_iff (named : g.InterfacesNamed) (t i : TypeId) :
    g.implementsInterface t i = true ↔ TransGen g.Implements t i := by
  have steps : StepWithin g.interfacesOf g.typeIds = g.Implements := by
    funext a b
    rw [StepWithin, mem_interfacesOf named, eq_iff_iff, and_iff_left_iff_imp]
    rintro ⟨_, _, target, _, _, goal, _⟩
    rw [← typeAt?_isSome_iff, goal]
    rfl
  rw [implementsInterface, leadsTo_iff, steps]

/-- The interfaces of a lawful graph: chains lead nowhere that is not listed directly. -/
structure Conformant (g : Graph) : Prop where
  acyclic : ∀ t, ¬ TransGen g.Implements t t
  interfaces : ∀ t i, g.Implements t i → ∃ target, g.typeAt? i = some target ∧
    target.kind = .interface
  listed : ∀ t d shape, g.typeAt? t = some d → d.shape? = some shape →
    ∀ name ∈ shape.implements.keys, ∃ i target, g.typeAt? i = some target ∧ target.name = name ∧
      g.Implements t i
  transitive : ∀ t i j, g.Implements t i → g.Implements i j → g.Implements t j
  conforms : ∀ t i, g.Implements t i → g.Conforms t i

theorem kind_of_interface? {d : TypeDef} {interface : Shape} (is : d.interface? = some interface) :
    d.kind = .interface ∧ d.shape? = some interface := by
  unfold TypeDef.interface? at is
  split at is
  · next body =>
    cases is
    simp [TypeDef.kind, TypeDef.shape?, TypeBody.kind, body]
  · cases is

section Lawful

variable (lawful : g.Lawful) (linked : g.InterfacesLinked)
  (plain : ∀ t d, g.typeAt? t = some d → d.builtIn = true → d.shape? = none)
include lawful plain

/-- What the rules say of a type that lists interfaces, which no type that is built in does. -/
theorem Lawful.listedConforms {t : TypeId} {d : TypeDef} {shape : Shape}
    (found : g.typeAt? t = some d) (shaped : d.shape? = some shape) :
    (d.kind = .interface → g.implementsInterface t t = false) ∧
      ∀ e ∈ shape.implements.entries, g.ListedConforms t d shape e.2 := by
  have own : d.builtIn = false := by
    cases origin : d.builtIn with
    | false => rfl
    | true =>
      rw [plain t d found origin] at shaped
      cases shaped
  exact (checkInterfaces_eq_nil_iff g t d shape).mp (lawful.checkInterfaces found own shaped)

include linked

theorem Lawful.interface_of_implements {t i : TypeId} (step : g.Implements t i) :
    ∃ target interface, g.typeAt? i = some target ∧ target.interface? = some interface := by
  obtain ⟨d, shape, target, found, shaped, e, entry, resolved, _⟩ := step.entry linked
  obtain ⟨_, owed⟩ := lawful.listedConforms plain found shaped
  obtain ⟨interface, is, _⟩ := owed e entry i target resolved
  exact ⟨target, interface, (resolve_target resolved).2, is⟩

/-- The last step of a cycle makes its start an interface, and interfaces are searched for
cycles. -/
theorem Lawful.implements_acyclic (t : TypeId) : ¬ TransGen g.Implements t t := by
  intro cycle
  obtain ⟨u, _, last⟩ := TransGen.tail'_iff.mp cycle
  obtain ⟨target, interface, found, is⟩ := lawful.interface_of_implements linked plain last
  obtain ⟨kind, shaped⟩ := kind_of_interface? is
  have refused := (lawful.listedConforms plain found shaped).1 kind
  rw [(implementsInterface_iff linked.named t t).mpr cycle] at refused
  cases refused

/-- What a type owes for one step. -/
theorem Lawful.owed_of_implements {t i : TypeId} (step : g.Implements t i) :
    ∃ d shape target interface, g.typeAt? t = some d ∧ d.shape? = some shape ∧
      g.typeAt? i = some target ∧ target.interface? = some interface ∧
      (∀ name ∈ interface.implements.keys, name = d.name ∨ name ∈ shape.implements.keys) ∧
      g.FieldsConform shape interface := by
  obtain ⟨d, shape, target, found, shaped, e, entry, resolved, _⟩ := step.entry linked
  obtain ⟨interface, is, paid⟩ :=
    (lawful.listedConforms plain found shaped).2 e entry i target resolved
  have other : i ≠ t := by
    rintro rfl
    exact lawful.implements_acyclic linked plain i (.single step)
  obtain ⟨listed, fields⟩ := paid other
  exact ⟨d, shape, target, interface, found, shaped, (resolve_target resolved).2, is, listed,
    fields⟩

theorem Lawful.implements_trans {t i j : TypeId} (first : g.Implements t i)
    (second : g.Implements i j) : g.Implements t j := by
  obtain ⟨d, shape, target, interface, found, shaped, goal, is, listed, _⟩ :=
    lawful.owed_of_implements linked plain first
  have chain : TransGen g.Implements t j := .tail (.single first) second
  obtain ⟨d', shape', target', found', shaped', goal', named⟩ := second
  cases goal.symm.trans found'
  cases (kind_of_interface? is).2.symm.trans shaped'
  rcases listed target'.name named with own | known
  · -- The chain would come back to the type itself.
    obtain rfl := linked.unique j t target' d goal' found own
    exact absurd chain (lawful.implements_acyclic linked plain j)
  · exact ⟨d, shape, target', found, shaped, goal', known⟩

theorem Lawful.conformant : g.Conformant where
  acyclic := lawful.implements_acyclic linked plain
  interfaces t i step := by
    obtain ⟨target, interface, found, is⟩ := lawful.interface_of_implements linked plain step
    exact ⟨target, found, (kind_of_interface? is).1⟩
  listed t d shape found shaped name listed := by
    obtain ⟨e, entry, rfl⟩ := List.mem_map.mp listed
    obtain ⟨i, target, resolved, named⟩ := linked.linked t d shape found shaped e entry
    have goal := (resolve_target resolved).2
    refine ⟨i, target, goal, named, d, shape, target, found, shaped, goal, ?_⟩
    rw [named]
    exact listed
  transitive t i j := lawful.implements_trans linked plain
  conforms t i step := by
    obtain ⟨d, shape, target, interface, found, shaped, goal, is, _, fields⟩ :=
      lawful.owed_of_implements linked plain step
    exact ⟨d, shape, target, interface, found, shaped, goal, is, fields⟩

end Lawful

end Chains

/-! The root adds references and marks, which no interface depends on. -/

/-- What the root adds to a type. -/
def marked (g : Graph) (t : TypeId) (d : TypeDef) : TypeDef :=
  { d with
    references := d.references ++ g.rootReferences t
    rooted := d.rooted || g.rootedIds.contains t }

theorem withRoot_typeAt? (g : Graph) (t : TypeId) :
    g.withRoot.typeAt? t = (g.typeAt? t).map (g.marked t) := by
  simp [typeAt?, Function.comp_def, marked]

theorem withRoot_implements (g : Graph) (t i : TypeId) :
    g.withRoot.Implements t i ↔ g.Implements t i := by
  simp only [Implements, withRoot_typeAt?, Option.map_eq_some_iff]
  constructor
  · rintro ⟨_, shape, _, ⟨d, found, rfl⟩, shaped, ⟨target, goal, rfl⟩, listed⟩
    exact ⟨d, shape, target, found, shaped, goal, listed⟩
  · rintro ⟨d, shape, target, found, shaped, goal, listed⟩
    exact ⟨g.marked t d, shape, g.marked i target, ⟨d, found, rfl⟩, shaped, ⟨target, goal, rfl⟩,
      listed⟩

theorem withRoot_implementsInterface (g : Graph) (t i : TypeId) :
    g.withRoot.implementsInterface t i = g.implementsInterface t i := by
  have steps : g.withRoot.interfacesOf = g.interfacesOf := by
    funext u
    rw [interfacesOf, interfacesOf, withRoot_typeAt?]
    cases g.typeAt? u <;> rfl
  have ids : g.withRoot.typeIds = g.typeIds := by
    simp [typeIds, withRoot]
  rw [implementsInterface, implementsInterface, steps, ids]

theorem withRoot_namedMayStandFor (g : Graph) (found expected : TypeRef) :
    g.withRoot.namedMayStandFor found expected = g.namedMayStandFor found expected := by
  have resolved (ref : TypeRef) : g.withRoot.resolve ref =
      (g.resolve ref).map fun e => (e.1, g.marked e.1 e.2) := by
    cases target : ref.target with
    | none => simp [resolve, target]
    | some t => simp [resolve, target, withRoot_typeAt?, Function.comp_def]
  unfold namedMayStandFor
  rw [resolved found, resolved expected]
  cases g.resolve found with
  | none => rfl
  | some a =>
    cases g.resolve expected with
    | none => rfl
    | some b =>
      simp only [Option.map_some, withRoot_implementsInterface]
      rfl

theorem withRoot_mayStandFor (g : Graph) (found expected : TypeUse) :
    g.withRoot.mayStandFor found expected = g.mayStandFor found expected := by
  fun_induction mayStandFor g found expected <;>
    simp_all [mayStandFor, withRoot_namedMayStandFor]

theorem withRoot_conforms {g : Graph} {t i : TypeId} (conforms : g.Conforms t i) :
    g.withRoot.Conforms t i := by
  obtain ⟨d, shape, target, interface, found, shaped, goal, is, fields⟩ := conforms
  refine ⟨g.marked t d, shape, g.marked i target, interface, ?_, shaped, ?_, is, ?_⟩
  · rw [withRoot_typeAt?, found, Option.map_some]
  · rw [withRoot_typeAt?, goal, Option.map_some]
  · intro e member
    obtain ⟨f, own, conforms⟩ := fields e member
    refine ⟨f, own, conforms.arguments, conforms.extras, ?_⟩
    rw [withRoot_mayStandFor]
    exact conforms.type

theorem Conformant.withRoot {g : Graph} (conformant : g.Conformant) : g.withRoot.Conformant := by
  have same : g.withRoot.Implements = g.Implements := by
    funext t i
    exact propext (g.withRoot_implements t i)
  refine ⟨?_, ?_, ?_, ?_, ?_⟩
  · rw [same]
    exact conformant.acyclic
  · intro t i step
    rw [same] at step
    obtain ⟨target, found, kind⟩ := conformant.interfaces t i step
    exact ⟨g.marked i target, by rw [withRoot_typeAt?, found, Option.map_some], kind⟩
  · intro t d shape found shaped name listed
    rw [withRoot_typeAt?, Option.map_eq_some_iff] at found
    obtain ⟨old, found, rfl⟩ := found
    obtain ⟨i, target, goal, named, step⟩ := conformant.listed t old shape found shaped name listed
    rw [same]
    exact ⟨i, g.marked i target, by rw [withRoot_typeAt?, goal, Option.map_some], named, step⟩
  · rw [same]
    exact conformant.transitive
  · intro t i step
    rw [same] at step
    exact withRoot_conforms (conformant.conforms t i step)

/-- A type of the linked graph, and the entry that it comes from. -/
theorem Fresh.linked_entry {g : Graph} (fresh : g.Fresh) {i : TypeId} {d : TypeDef}
    (found : g.linked.typeAt? i = some d) : ∃ old, g.types.at? i.index = some (d.name, old) ∧
      d.shape? = old.shape?.map (g.names.linkShape i) := by
  rw [linked_typeAt?, Option.map_eq_some_iff] at found
  obtain ⟨old, found, rfl⟩ := found
  obtain ⟨⟨key, old⟩, entry, rfl⟩ := Option.map_eq_some_iff.mp found
  have own : old.name = key := fresh.types.at?_name entry
  rw [← own] at entry
  exact ⟨old, entry, g.names.linkType_shape? i _ old⟩

theorem Fresh.linked_unique {g : Graph} (fresh : g.Fresh) {i j : TypeId} {d d' : TypeDef}
    (first : g.linked.typeAt? i = some d) (second : g.linked.typeAt? j = some d')
    (same : d.name = d'.name) : i = j := by
  obtain ⟨old, entry, _⟩ := fresh.linked_entry first
  obtain ⟨old', entry', _⟩ := fresh.linked_entry second
  rw [← same] at entry'
  have index := Table.at?_index_unique fresh.types.distinct entry entry'
  cases i
  cases j
  exact congrArg TypeId.mk index

/-- A name is looked up where the type of that name stands. -/
theorem Fresh.typeId?_eq_some_iff {g : Graph} (fresh : g.Fresh) (name : String) (i : TypeId) :
    g.typeId? name = some i ↔ ∃ d, g.linked.typeAt? i = some d ∧ d.name = name := by
  rw [Graph.typeId?_eq_some_iff fresh.types.distinct]
  constructor
  · rintro ⟨old, entry⟩
    refine ⟨_, by rw [linked_typeAt?, typeAt?, entry]; rfl, ?_⟩
    exact fresh.types.at?_name entry
  · rintro ⟨d, found, rfl⟩
    obtain ⟨old, entry, _⟩ := fresh.linked_entry found
    exact ⟨old, entry⟩

/-- An entry of a linked list of interfaces is an entry of the list before, looked up by name. -/
theorem Fresh.linked_implements {g : Graph} (fresh : g.Fresh) {t : TypeId} {d : TypeDef}
    {shape : Shape} (found : g.linked.typeAt? t = some d) (shaped : d.shape? = some shape)
    {e : String × TypeRef} (member : e ∈ shape.implements.entries) :
    e.2.target = g.typeId? e.1 ∧ g.NamedAt (.type ⟨.implements, .type t⟩) e.1 := by
  obtain ⟨old, entry, linked⟩ := fresh.linked_entry found
  obtain ⟨source, shaped', rfl⟩ := Option.map_eq_some_iff.mp (linked.symm.trans shaped)
  obtain ⟨⟨name, ref⟩, listed, rfl⟩ := List.mem_map.mp member
  have definition : g.typeAt? t = some old := by
    rw [typeAt?, entry]
    rfl
  have own : ref.name = name :=
    ((fresh.types.each _ ((Table.mem_entries_iff _ _).mpr ⟨_, entry⟩)).shape
      shaped').implements.named _ listed
  refine ⟨?_, old, source, definition, shaped', List.mem_map.mpr ⟨_, listed, rfl⟩⟩
  rw [← own]
  rfl

theorem linked_interfacesNamed {g : Graph} (fresh : g.Fresh) : g.linked.InterfacesNamed := by
  intro t d shape found shaped e member i
  rw [(fresh.linked_implements found shaped member).1, fresh.typeId?_eq_some_iff]

theorem linked_interfacesLinked {g : Graph} (fresh : g.Fresh) (known : g.NamesKnown) :
    g.linked.InterfacesLinked := by
  refine ⟨fun i j d d' => fresh.linked_unique, ?_⟩
  intro t d shape found shaped e member
  obtain ⟨link, named⟩ := fresh.linked_implements found shaped member
  obtain ⟨i, id⟩ := Option.isSome_iff_exists.mp (known _ _ named)
  obtain ⟨target, goal, name⟩ := (fresh.typeId?_eq_some_iff e.1 i).mp id
  exact ⟨i, target, (g.linked.resolve_eq_some_iff e.2 i target).mpr ⟨link.trans id, goal⟩, name⟩

end Graph

/-- What is built in lists no interface. -/
theorem builtIn_shape?_eq_none {buffer : List (Option String × Declaration)}
    (collected : (Graph.collect (BuiltIn.declarations ++ given buffer)).problems = [])
    (t : TypeId) (d : TypeDef) (found : (Graph.described (given buffer)).linked.typeAt? t = some d)
    (builtIn : d.builtIn = true) : d.shape? = none := by
  rw [TypeDef.shape?, (linked_builtIn collected found builtIn).1]

theorem Sound.graph_resolved {required : Bool} {declarations : List Sourced}
    (sound : Sound required declarations) :
    (Graph.described declarations).resolved.graph =
      (Graph.described declarations).linked.withRoot := by
  rw [Schema.graph, sound.block?]
  rfl

instance (g : Graph) (t i : TypeId) : Decidable (g.Implements t i) :=
  decidable_of_iff
    (((g.typeAt? t).bind TypeDef.shape?).any fun shape =>
      (g.typeAt? i).any fun target => shape.implements.keys.contains target.name)
    (by
      simp only [Option.any_eq_true, List.contains_iff_mem, Option.bind_eq_some_iff]
      constructor
      · rintro ⟨shape, ⟨d, found, shaped⟩, target, goal, listed⟩
        exact ⟨d, shape, target, found, shaped, goal, listed⟩
      · rintro ⟨d, shape, target, found, shaped, goal, listed⟩
        exact ⟨shape, ⟨d, found, shaped⟩, target, goal, listed⟩)

/-- In an accepted schema, `Implements` is transitive and has no cycle, what is listed exists and is
an interface, and along a chain of any length a type lists the interface at the end and has all
that it declares. -/
theorem implements_closed (required : Bool) (buffer : List (Option String × Declaration))
    (s : Schema) (accepted : (analyze required (given buffer)).result = .ok s) :
    (∀ t i j, s.graph.Implements t i → s.graph.Implements i j → s.graph.Implements t j) ∧
      (∀ t, ¬ s.graph.Implements t t) ∧ (∀ t, ¬ TransGen s.graph.Implements t t) ∧
      (∀ t i, s.graph.Implements t i → ∃ target, s.typeAt? i = some target ∧
        target.kind = .interface) ∧
      (∀ t d shape, s.typeAt? t = some d → d.shape? = some shape →
        ∀ name ∈ shape.implements.keys, ∃ i target, s.typeAt? i = some target ∧
          target.name = name ∧ s.graph.Implements t i) ∧
      ∀ t i, TransGen s.graph.Implements t i →
        s.graph.Implements t i ∧ s.graph.Conforms t i := by
  obtain ⟨sound, rfl⟩ := (analyze_eq_ok_iff_sound required (given buffer) s).mp accepted
  have fresh := Graph.described_fresh (given buffer)
  have lawful := (Graph.violations_eq_nil_iff _).mp sound.lawful
  have conformant : (Graph.described (given buffer)).resolved.graph.Conformant := by
    rw [sound.graph_resolved]
    exact (lawful.conformant (Graph.linked_interfacesLinked fresh sound.known)
      (builtIn_shape?_eq_none sound.collected)).withRoot
  refine ⟨conformant.transitive, fun t step => conformant.acyclic t (.single step),
    conformant.acyclic, conformant.interfaces, conformant.listed, ?_⟩
  intro t i chain
  have direct : (Graph.described (given buffer)).resolved.graph.Implements t i := by
    induction chain with
    | single step => exact step
    | tail _ step ih => exact conformant.transitive _ _ _ ih step
  exact ⟨direct, conformant.conforms t i direct⟩

/-- From `Book` by way of `Titled` to `Node`. -/
theorem implements_closed_bookshop :
    ∃ s, (analyze true (given bookshop)).result = .ok s ∧
      (s.graph.Implements ⟨7⟩ ⟨6⟩ ∧ s.graph.Implements ⟨6⟩ ⟨5⟩) ∧ s.graph.Conforms ⟨7⟩ ⟨5⟩ := by
  obtain ⟨s, accepted, steps⟩ : ∃ s, (analyze true (given bookshop)).result = .ok s ∧
      decide (s.graph.Implements ⟨7⟩ ⟨6⟩ ∧ s.graph.Implements ⟨6⟩ ⟨5⟩) = true :=
    exists_of_any (by decide +kernel)
  rw [decide_eq_true_iff] at steps
  obtain ⟨first, second⟩ := steps
  obtain ⟨_, _, _, _, _, closed⟩ := implements_closed true bookshop s accepted
  exact ⟨s, accepted, ⟨first, second⟩, (closed ⟨7⟩ ⟨5⟩ (.tail (.single first) second)).2⟩

end SchemaAtlas
