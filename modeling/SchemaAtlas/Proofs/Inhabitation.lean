import SchemaAtlas.Proofs.Cycles
import SchemaAtlas.Proofs.Marking

/-!
# Values of input types

Every type that an accepted schema lets one give as input can be given: it has a value without
variables that is not null. Scalars and enums have literals. An input object has an object literal
with the fields that it requires, and these lead to further input objects only finitely often, since
no input object requires itself.
-/

namespace SchemaAtlas

open Relation (TransGen)

namespace Value

mutual

/-- The variables inside a value, at any depth. -/
def vars : Value → List String
  | var name => [name]
  | list items => itemVars items
  | object entries => entryVars entries
  | _ => []

def itemVars : List Value → List String
  | [] => []
  | v :: rest => v.vars ++ itemVars rest

def entryVars : List (String × Value) → List String
  | [] => []
  | (_, v) :: rest => v.vars ++ entryVars rest

end

theorem entryVars_eq (entries : List (String × Value)) :
    entryVars entries = entries.flatMap fun e => e.2.vars := by
  induction entries with
  | nil => rfl
  | cons e rest ih => rw [List.flatMap_cons, ← ih, entryVars]

theorem entryTests_eq (types : Table TypeDef) (entries : List (String × Value)) :
    entryTests types entries = entries.map fun e => (e.1, e.2.fits types) := by
  induction entries with
  | nil => rfl
  | cons e rest ih => rw [List.map_cons, ← ih, entryTests]

/-- Neither null nor a list: lists and non-null wrappers ask nothing of such a value. -/
def isItem : Value → Bool
  | null | list _ => false
  | _ => true

theorem isNull_of_isItem {v : Value} (item : v.isItem = true) : v.isNull = false := by
  cases v <;> first | rfl | cases item

end Value

namespace TypeUse

/-- No non-null wrapper stands directly inside another one. -/
def isWritable : TypeUse → Bool
  | named _ => true
  | list item => item.isWritable
  | nonNull inner => !inner.isNonNull && inner.isWritable

theorem admits_item (leaf : TypeRef → Bool) (a : TypeUse) :
    a.admits false none leaf = leaf a.innermost := by
  induction a with
  | named ref => rfl
  | list item ih => exact ih
  | nonNull inner ih => exact ih

end TypeUse

theorem Value.fits_innermost (types : Table TypeDef) {v : Value} (item : v.isItem = true)
    (a : TypeUse) : v.fits types a = v.fits types (.named a.innermost) := by
  cases v with
  | null | list => cases item
  | _ => simp [fits, TypeUse.admits_item, TypeUse.admits]

/-- A literal for each built-in scalar. -/
def builtInLiteral (name : String) : Value :=
  if name = "Boolean" then .boolean true else if name = "String" then .string "" else .int 0

theorem builtInLiteral_fits : ∀ name ∈ BuiltIn.scalarNames,
    (builtInLiteral name).isItem = true ∧ (builtInLiteral name).vars = [] ∧
      builtInFits name (builtInLiteral name) = true := by
  decide

/-- A type has a value that is not a list, not null, and free of variables. -/
def HasItem (types : Table TypeDef) (ref : TypeRef) : Prop :=
  ∃ v : Value, v.isItem = true ∧ v.vars = [] ∧ v.fits types (.named ref) = true

/-- Some of the elements of a list, looked up by their distinct names. -/
theorem lookup_filter_map {α β : Type} {name : α → String} (kept : α → Bool) (f : α → β)
    {as : List α} (distinct : (as.map name).Nodup) {a : α} (member : a ∈ as) :
    ((as.filter kept).map fun b => (name b, f b)).lookup (name a) =
      if kept a then some (f a) else none := by
  induction as with
  | nil => cases member
  | cons b rest ih =>
    obtain ⟨new, distinct⟩ := List.nodup_cons.mp distinct
    rcases List.mem_cons.mp member with rfl | later
    · by_cases first : kept a = true
      · simp [first]
      · rw [List.filter_cons_of_neg first, if_neg first, List.lookup_eq_none_iff]
        intro e listed
        obtain ⟨c, inside, rfl⟩ := List.mem_map.mp listed
        have absent : name a ≠ name c := fun same =>
          new (same ▸ List.mem_map_of_mem (List.mem_of_mem_filter inside))
        simpa using absent
    · have other : (name a == name b) = false := by
        rw [beq_eq_false_iff_ne]
        exact fun same => new (same ▸ List.mem_map_of_mem later)
      by_cases first : kept b = true
      · rw [List.filter_cons_of_pos first, List.map_cons, List.lookup_cons, other]
        exact ih distinct later
      · rw [List.filter_cons_of_neg first]
        exact ih distinct later

section Kinds

variable {types : Table TypeDef} {ref : TypeRef} {d : TypeDef}
variable (found : lookupRef types ref = some d)
include found

theorem fits_of_scalar (scalar : d.body = .scalar) {v : Value} (item : v.isItem = true)
    (constant : v.vars = []) : v.fits types (.named ref) = d.scalarFits v := by
  cases v with
  | null | list => cases item
  | var => cases constant
  | _ => simp [Value.fits, TypeUse.admits, leafFits, found, scalar]

theorem hasItem_of_scalar (scalar : d.body = .scalar)
    (standard : d.builtIn = true → d.name ∈ BuiltIn.scalarNames) : HasItem types ref := by
  have accepted : ∃ v : Value, v.isItem = true ∧ v.vars = [] ∧ d.scalarFits v = true := by
    cases origin : d.builtIn with
    | false => exact ⟨.boolean true, rfl, rfl, by simp [TypeDef.scalarFits, origin]⟩
    | true =>
      obtain ⟨item, constant, fit⟩ := builtInLiteral_fits d.name (standard origin)
      exact ⟨builtInLiteral d.name, item, constant, by simp [TypeDef.scalarFits, fit]⟩
  obtain ⟨v, item, constant, fit⟩ := accepted
  exact ⟨v, item, constant, by rw [fits_of_scalar found scalar item constant, fit]⟩

theorem hasItem_of_enum {values : Table EnumValue} (body : d.body = .enum values)
    (inhabited : values.isEmpty = false) : HasItem types ref := by
  cases entries : values.entries with
  | nil => simp [Table.isEmpty, entries] at inhabited
  | cons e rest =>
    have listed : values.contains e.1 = true := by simp [Table.contains, Table.keys, entries]
    exact ⟨.enum e.1, rfl, rfl, by
      simp [Value.fits, TypeUse.admits, leafFits, found, body, listed]⟩

/-- An object literal with the required fields only. -/
theorem hasItem_of_inputObject {fields : Table InputValue} (body : d.body = .inputObject fields)
    (keyed : fields.Keyed InputValue.name)
    (each : ∀ f ∈ fields.values, f.isRequired = true →
      ∃ v : Value, v.vars = [] ∧ v.fits types f.type = true) : HasItem types ref := by
  choose! pick constant fit using each
  let entries := (fields.values.filter InputValue.isRequired).map fun f => (f.name, pick f)
  have distinct : (fields.values.map InputValue.name).Nodup := by
    rw [keyed.map_values]
    exact keyed.distinct
  have tests : Value.entryTests types entries =
      (fields.values.filter InputValue.isRequired).map fun f => (f.name, (pick f).fits types) := by
    rw [Value.entryTests_eq, List.map_map]
    rfl
  refine ⟨.object entries, rfl, ?_, ?_⟩
  · rw [Value.vars, Value.entryVars_eq, List.flatMap_eq_nil_iff]
    intro e listed
    obtain ⟨f, member, rfl⟩ := List.mem_map.mp listed
    obtain ⟨member, required⟩ := List.mem_filter.mp member
    exact constant f member required
  · simp only [Value.fits, TypeUse.admits, leafFits, found, body, Bool.false_or, tests,
      Bool.and_eq_true, List.all_eq_true]
    constructor
    · intro e listed
      obtain ⟨f, member, rfl⟩ := List.mem_map.mp listed
      rw [Table.contains_iff_mem, keyed.mem_keys]
      exact ⟨f, List.mem_of_mem_filter member, rfl⟩
    · intro f member
      rw [lookup_filter_map InputValue.isRequired (fun f => (pick f).fits types) distinct member]
      cases required : f.isRequired with
      | true => exact fit f member required
      | false => rfl

end Kinds

theorem lookupRef_eq_get? {types : Table TypeDef} (distinct : types.keys.Nodup) (ref : TypeRef) :
    lookupRef types ref = types.get? ref.name := by
  unfold lookupRef
  split
  · next name d linked =>
    split
    · next same =>
      obtain ⟨t, _, entry⟩ := Option.bind_eq_some_iff.mp linked
      exact ((Table.get?_eq_some_iff_at? distinct ref.name d).mpr ⟨t.index, same ▸ entry⟩).symm
    · rfl
  · rfl

namespace Graph

/-- What the rules ask of the types that can be given as input. -/
structure InputSound (g : Graph) : Prop where
  scalars : ∀ t d, g.typeAt? t = some d → d.builtIn = true → d.name ∈ BuiltIn.scalarNames
  enums : ∀ t d values, g.typeAt? t = some d → d.body = .enum values → values.isEmpty = false
  keyed : ∀ t d fields, g.typeAt? t = some d → d.body = .inputObject fields →
    fields.Keyed InputValue.name
  writable : ∀ t d fields, g.typeAt? t = some d → d.body = .inputObject fields →
    ∀ f ∈ fields.values, f.type.isWritable = true
  resolved : ∀ t d fields, g.typeAt? t = some d → d.body = .inputObject fields →
    ∀ f ∈ fields.values, ∃ i target, g.resolve f.type.innermost = some (i, target) ∧
      lookupRef g.types f.type.innermost = some target ∧ target.kind.isInput = true
  finite : ∀ t, g.requiresItself t = false

namespace InputSound

variable {g : Graph}

/-- Scalars and enums have values of their own. -/
theorem hasItem_of_leaf (sound : g.InputSound) {t : TypeId} {d : TypeDef} {ref : TypeRef}
    (found : g.typeAt? t = some d) (named : lookupRef g.types ref = some d)
    (input : d.kind.isInput = true) (leaf : d.inputFields? = none) : HasItem g.types ref := by
  cases body : d.body with
  | scalar => exact hasItem_of_scalar named body (sound.scalars t d found)
  | enum values => exact hasItem_of_enum named body (sound.enums t d values found body)
  | inputObject fields => simp [TypeDef.inputFields?, body] at leaf
  | _ => simp [TypeDef.kind, body, TypeBody.kind, TypeKind.isInput] at input

/-- By induction along the required fields, which never lead back. -/
theorem hasItem (sound : g.InputSound) (t : TypeId) : ∀ (d : TypeDef) (ref : TypeRef),
    g.typeAt? t = some d → lookupRef g.types ref = some d → d.kind.isInput = true →
    HasItem g.types ref := by
  have acyclic : ∀ t, ¬ TransGen g.Requires t t := by
    intro t cycle
    have refused := sound.finite t
    rw [(g.requiresItself_iff t).mpr cycle] at refused
    cases refused
  rw [← stepWithin_requiredObjects] at acyclic
  have finite := wellFounded_stepWithin acyclic
  rw [stepWithin_requiredObjects] at finite
  induction t using finite.induction with
  | _ t ih =>
    intro d ref found named input
    cases body : d.body with
    | inputObject fields =>
      refine hasItem_of_inputObject named body (sound.keyed t d fields found body) ?_
      intro f member required
      obtain ⟨i, target, resolved, looked, kind⟩ :=
        sound.resolved t d fields found body f member
      have writable := sound.writable t d fields found body f member
      obtain ⟨nonNull, _⟩ := Bool.and_eq_true_iff.mp required
      cases type : f.type with
      | named ref => simp [type, TypeUse.isNonNull] at nonNull
      | list item => simp [type, TypeUse.isNonNull] at nonNull
      | nonNull inner =>
        cases inner with
        | nonNull deeper => simp [type, TypeUse.isWritable, TypeUse.isNonNull] at writable
        | list item => exact ⟨.list [], rfl, rfl⟩
        | named ref' =>
          rw [type] at resolved looked
          have goal := (resolve_target resolved).2
          have item : HasItem g.types ref' := by
            -- A required field asks for another input object, or for what has a value anyway.
            cases object : target.inputFields? with
            | none => exact sound.hasItem_of_leaf goal looked kind object
            | some _ =>
              have is := target.inputFields?_isSome_iff.mp (by rw [object]; rfl)
              exact ih i ⟨d, fields, f, ref', target, found, body, member, type, resolved, is⟩
                target ref' goal looked kind
          obtain ⟨v, item, constant, fit⟩ := item
          exact ⟨v, constant, by rw [Value.fits_innermost _ item]; exact fit⟩
    | scalar | enum =>
      exact sound.hasItem_of_leaf found named input (by simp [TypeDef.inputFields?, body])
    | _ => simp [TypeDef.kind, body, TypeBody.kind, TypeKind.isInput] at input

/-- Wrappers make no difference to a value of the type inside. -/
theorem exists_fit (sound : g.InputSound) (distinct : g.types.keys.Nodup) {a : TypeUse}
    {d : TypeDef} (known : g.types.get? a.innermost.name = some d)
    (input : d.kind.isInput = true) :
    ∃ v : Value, v.isNull = false ∧ v.vars = [] ∧ v.fits g.types a = true := by
  obtain ⟨i, entry⟩ := (Table.get?_eq_some_iff_at? distinct _ d).mp known
  have found : g.typeAt? ⟨i⟩ = some d := by
    rw [typeAt?, entry]
    rfl
  have named : lookupRef g.types a.innermost = some d := by rw [lookupRef_eq_get? distinct, known]
  obtain ⟨v, item, constant, fit⟩ := sound.hasItem ⟨i⟩ d a.innermost found named input
  refine ⟨v, Value.isNull_of_isItem item, constant, ?_⟩
  rw [Value.fits_innermost _ item]
  exact fit

end InputSound

/-- The root changes marks only. -/
theorem withRoot_get? {g : Graph} (distinct : g.types.keys.Nodup) {name : String} {d : TypeDef}
    (found : g.withRoot.types.get? name = some d) :
    ∃ old, g.types.get? name = some old ∧ old.kind = d.kind := by
  have distinct' : g.withRoot.types.keys.Nodup := by
    rw [withRoot_types_keys]
    exact distinct
  obtain ⟨i, entry⟩ := (Table.get?_eq_some_iff_at? distinct' name d).mp found
  rw [withRoot_types_at?, Option.map_eq_some_iff] at entry
  obtain ⟨e, entry, same⟩ := entry
  obtain ⟨rfl, rfl⟩ := Prod.mk.inj same
  exact ⟨e.2, (Table.get?_eq_some_iff_at? distinct _ _).mpr ⟨i, entry⟩, rfl⟩

theorem Lawful.inputField_isInput {g : Graph} (lawful : g.Lawful) {t : TypeId} {d : TypeDef}
    (found : g.typeAt? t = some d) (own : d.builtIn = false) {fields : Table InputValue}
    (body : d.body = .inputObject fields) {f : InputValue} (member : f ∈ fields.values)
    {i : TypeId} {target : TypeDef} (resolved : g.resolve f.type.innermost = some (i, target)) :
    target.kind.isInput = true := by
  obtain ⟨e, entry, rfl⟩ := List.mem_map.mp member
  have checked := lawful.inputField found own body e entry
  simp only [checkInputField, checkInputValue, List.append_eq_nil_iff, checkInputType, resolved]
    at checked
  cases kind : target.kind.isInput with
  | true => rfl
  | false => simp [kind] at checked

/-- A type that requires itself is an input object. -/
theorem inputFields?_of_requiresItself {g : Graph} {t : TypeId}
    (cycle : g.requiresItself t = true) :
    ∃ d, g.typeAt? t = some d ∧ d.inputFields?.isSome := by
  rw [requiresItself_iff] at cycle
  obtain ⟨_, ⟨d, fields, _, _, _, found, body, _⟩, _⟩ := TransGen.head'_iff.mp cycle
  exact ⟨d, found, by rw [TypeDef.inputFields?_eq_some_iff.mpr body]; rfl⟩

/-- A name that is known is linked to the type that it is looked up as. -/
theorem linked_lookupRef {g : Graph} (distinct : g.types.keys.Nodup) {ref : TypeRef}
    (known : (g.typeId? ref.name).isSome) :
    ∃ t d, g.linked.resolve (g.names.linkRef ref) = some (t, d) ∧
      lookupRef g.linked.types (g.names.linkRef ref) = some d := by
  obtain ⟨t, d, resolved⟩ := linked_resolve distinct known
  refine ⟨t, d, resolved, ?_⟩
  obtain ⟨link, found⟩ := resolve_target resolved
  obtain ⟨old, entry⟩ := (typeId?_eq_some_iff distinct ref.name t).mp link
  rw [lookupRef, link, Option.bind_some, linked_types_at?, entry]
  rw [linked_typeAt?, typeAt?, entry] at found
  simpa using found

section Linked

variable {g : Graph} (fresh : g.Fresh) {t : TypeId} {d : TypeDef} {fields : Table InputValue}
  (found : g.linked.typeAt? t = some d) (body : d.body = .inputObject fields)
include fresh found body

theorem linked_inputFields_keyed : fields.Keyed InputValue.name := by
  have fieldsOf : d.inputFields? = some fields := by rw [TypeDef.inputFields?, body]
  rw [linked_typeAt?, Option.map_eq_some_iff] at found
  obtain ⟨old, found, rfl⟩ := found
  obtain ⟨e, entry, rfl⟩ := Option.map_eq_some_iff.mp found
  rw [Names.linkType_inputFields?, Option.map_eq_some_iff] at fieldsOf
  obtain ⟨source, declared, rfl⟩ := fieldsOf
  have collected := fresh.types.each e ((Table.mem_entries_iff _ e).mpr ⟨_, entry⟩)
  exact (collected.inputFields declared).toKeyed.mapIdx fun _ _ => rfl

theorem linked_inputField_resolves (known : g.NamesKnown) {f : InputValue}
    (member : f ∈ fields.values) :
    ∃ i target, g.linked.resolve f.type.innermost = some (i, target) ∧
      lookupRef g.linked.types f.type.innermost = some target := by
  obtain ⟨e, entry, rfl⟩ := List.mem_map.mp member
  obtain ⟨i, position⟩ := (Table.mem_entries_iff _ e).mp entry
  obtain ⟨x, stored, rfl⟩ := Option.map_eq_some_iff.mp found
  have here : inputValueAt? g.linked.types g.linked.directives (.inputField t i) = some e.2 := by
    simp only [inputValueAt?, stored, Option.bind_some, TypeDef.inputFields?, body, position,
      Option.map_some]
  rw [linked_inputValueAt?, Option.map_eq_some_iff] at here
  obtain ⟨old, written, same⟩ := here
  have exists_type : (g.typeId? old.type.innermost.name).isSome :=
    known (.type ⟨.typeUse, .inputField t i⟩) _ ⟨old.type, by simp [typeUseAt?, fieldAt?, written],
      rfl⟩
  have innermost : e.2.type.innermost = g.names.linkRef old.type.innermost := by
    rw [← same]
    exact old.type.innermost_mapRef g.names.linkRef
  rw [innermost]
  exact linked_lookupRef fresh.types.distinct exists_type

end Linked

theorem linked_inputSound {g : Graph} (fresh : g.Fresh) (known : g.NamesKnown)
    (lawful : g.linked.Lawful)
    (builtIn : ∀ t d, g.linked.typeAt? t = some d → d.builtIn = true →
      d.body = .scalar ∧ d.name ∈ BuiltIn.scalarNames)
    (writable : ∀ t d fields, g.linked.typeAt? t = some d → d.body = .inputObject fields →
      ∀ f ∈ fields.values, f.type.isWritable = true) : g.linked.InputSound := by
  have own : ∀ {t d}, g.linked.typeAt? t = some d → d.body ≠ .scalar → d.builtIn = false := by
    intro t d found other
    cases origin : d.builtIn with
    | false => rfl
    | true => exact absurd (builtIn t d found origin).1 other
  refine ⟨fun t d found origin => (builtIn t d found origin).2, ?_,
    fun t d fields found body => linked_inputFields_keyed fresh found body, writable, ?_, ?_⟩
  · intro t d values found body
    exact (lawful.enumValue found (own found (by simp [body])) body).1
  · intro t d fields found body f member
    obtain ⟨i, target, resolved, looked⟩ := linked_inputField_resolves fresh found body known member
    exact ⟨i, target, resolved, looked,
      lawful.inputField_isInput found (own found (by simp [body])) body member resolved⟩
  · intro t
    cases cycle : g.linked.requiresItself t with
    | false => rfl
    | true =>
      obtain ⟨d, found, object⟩ := inputFields?_of_requiresItself cycle
      have other : d.body ≠ .scalar := by
        intro scalar
        simp [TypeDef.inputFields?, scalar] at object
      exact cycle.symm.trans (lawful.finite t d found (own found other) object)

end Graph

/-- The types of the fields and arguments that a body declares. -/
def TypeBody.typeUses : TypeBody → List TypeUse
  | inputObject fields => fields.values.map InputValue.type
  | interface shape | object shape => shape.fields.values.flatMap fun f =>
    f.type :: f.arguments.values.map InputValue.type
  | enum _ | scalar | union _ => []

/-- The types of everything that a schema declares with a type. -/
def Schema.typeUses (s : Schema) : List TypeUse :=
  s.types.values.flatMap (fun d => d.body.typeUses) ++
    s.directives.values.flatMap fun d => d.arguments.values.map InputValue.type

theorem Schema.mem_typeUses_of_inputField {s : Schema} {t : TypeId} {d : TypeDef}
    {fields : Table InputValue} {f : InputValue} (found : s.typeAt? t = some d)
    (body : d.body = .inputObject fields) (member : f ∈ fields.values) : f.type ∈ s.typeUses := by
  obtain ⟨e, entry, rfl⟩ := Option.map_eq_some_iff.mp found
  have stored : e.2 ∈ s.types.values :=
    List.mem_map_of_mem ((Table.mem_entries_iff _ e).mpr ⟨_, entry⟩)
  refine List.mem_append_left _ (List.mem_flatMap.mpr ⟨e.2, stored, ?_⟩)
  rw [body]
  exact List.mem_map_of_mem member

theorem Sound.inputSound {required : Bool} {buffer : List (Option String × Declaration)}
    (sound : Sound required (given buffer))
    (writable : ∀ a ∈ (Graph.described (given buffer)).resolved.typeUses, a.isWritable = true) :
    (Graph.described (given buffer)).linked.InputSound := by
  refine Graph.linked_inputSound (Graph.described_fresh _) sound.known
    ((Graph.violations_eq_nil_iff _).mp sound.lawful) (fun t d => linked_builtIn sound.collected) ?_
  intro t d fields found body f member
  have final : (Graph.described (given buffer)).linked.withRoot.typeAt? t = _ :=
    Graph.withRoot_typeAt? _ t
  rw [found, Option.map_some] at final
  exact writable _ (Schema.mem_typeUses_of_inputField final body member)

/-- In an accepted schema without a non-null wrapper directly inside another one, every input type,
in any wrappers, has a value that is not null and holds no variable. -/
theorem input_type_has_value (required : Bool) (buffer : List (Option String × Declaration))
    (s : Schema) (accepted : (analyze required (given buffer)).result = .ok s)
    (writable : ∀ a ∈ s.typeUses, a.isWritable = true) (a : TypeUse) (d : TypeDef)
    (known : s.type? a.innermost.name = some d) (input : d.kind.isInput = true) :
    ∃ v : Value, v.isNull = false ∧ v.vars = [] ∧ s.fits a v = true := by
  obtain ⟨sound, rfl⟩ := (analyze_eq_ok_iff_sound required (given buffer) s).mp accepted
  have fresh := Graph.described_fresh (given buffer)
  have distinct := fresh.linked_types_distinct
  obtain ⟨old, before, kind⟩ := Graph.withRoot_get? distinct known
  obtain ⟨v, notNull, constant, fit⟩ :=
    (sound.inputSound writable).exists_fit distinct before (by rw [kind, input])
  have same := Graph.withRoot_fits distinct fresh.linked_directives_distinct v a
  exact ⟨v, notNull, constant, same.trans fit⟩

/-- A search form: what it requires is nested three deep, and a filter may contain filters. -/
def searchForm : List (Option String × Declaration) := [
  (none, .type { name := "Unit", body := .enum [{ name := "GRAM" }] }),
  (none, .type {
    name := "Amount"
    body := .inputObject [
      { name := "value", type := .nonNull (.named "Float") },
      { name := "unit", type := .nonNull (.named "Unit") }] }),
  (none, .type {
    name := "Range"
    body := .inputObject [
      { name := "least", type := .nonNull (.named "Amount") },
      { name := "most", type := .named "Amount" }] }),
  (none, .type {
    name := "Filter"
    body := .inputObject [
      { name := "range", type := .nonNull (.named "Range") },
      { name := "any", type := .nonNull (.list (.nonNull (.named "Filter"))) },
      { name := "except", type := .named "Filter" }] }),
  (none, .type {
    name := "Query"
    body := .object [] [
      { name := "count", type := .named "Int",
        arguments := [{ name := "filter", type := .nonNull (.named "Filter") }] }] })]

/-- A value for a list of filters. -/
theorem searchForm_filters_have_value :
    ∃ s, (analyze true (given searchForm)).result = .ok s ∧
      ∃ v : Value, v.isNull = false ∧ v.vars = [] ∧
        s.fits (.nonNull (.list (.nonNull (.named ⟨"Filter", .builtIn, none⟩)))) v = true := by
  obtain ⟨s, accepted, checked⟩ : ∃ s, (analyze true (given searchForm)).result = .ok s ∧
      (s.typeUses.all TypeUse.isWritable &&
        (s.type? "Filter").any fun d => d.kind.isInput) = true :=
    exists_of_any (by decide +kernel)
  obtain ⟨writable, filter⟩ := Bool.and_eq_true_iff.mp checked
  obtain ⟨d, known, input⟩ := (Option.any_eq_true _ _).mp filter
  exact ⟨s, accepted, input_type_has_value true searchForm s accepted
    (List.all_eq_true.mp writable) _ d known input⟩

end SchemaAtlas
