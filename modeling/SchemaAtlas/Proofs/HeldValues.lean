import SchemaAtlas.Proofs.Fitting
import SchemaAtlas.Proofs.Legality
import SchemaAtlas.Proofs.RoundTrip

/-!
# Values in a schema

A schema holds values as default values of its arguments and input fields, and as arguments of the
usages on its elements. Each value of an accepted schema fits the type that it is declared with,
unless it stands on a built-in scalar, where usages are not checked.

A variable by itself fits no type that exists. But a custom scalar takes a list or an object without
a look inside, and this is where an accepted schema can hold variables, and the only place for them.
-/

namespace SchemaAtlas

open Relation (ReflTransGen)

/-- Where a schema holds a value. -/
inductive ValuePlace where
  /-- The default value of an argument or input field. -/
  | default (element : ElementId)
  /-- The argument at a position in the list of a usage. -/
  | argument (usage : UsageId) (index : Nat)

/-- The element on which a value is written. -/
def ValuePlace.owner : ValuePlace → ElementId
  | default e => e
  | argument u _ => u.owner

namespace Schema

def valueAt? (s : Schema) : ValuePlace → Option Value
  | .default e => (inputValueAt? s.types s.directives e).bind InputValue.default
  | .argument u i => ((s.usage? u).bind fun x => x.arguments.at? i).map Prod.snd

/-- What a value is given for: the argument or input field itself, or the argument of the same name
that the directive declares. -/
def declarationAt? (s : Schema) : ValuePlace → Option InputValue
  | .default e => inputValueAt? s.types s.directives e
  | .argument u i =>
    (s.usage? u).bind fun x => (x.arguments.at? i).bind fun a =>
      (x.definition.bind s.directiveAt?).bind fun d => d.arguments.get? a.1

end Schema

/-- The ways that lead to an argument or input field. -/
inductive InputAt (types : Table TypeDef) (directives : Table DirectiveDef) (i : InputValue) :
    ElementId → Prop
  | fieldArgument {t : TypeId} {f a : Nat} {d : String × TypeDef} {shape : Shape}
    {field : String × Field} {name : String} (type : types.at? t.index = some d)
    (shaped : d.2.shape? = some shape) (declared : field ∈ shape.fields.entries)
    (argument : (name, i) ∈ field.2.arguments.entries) :
    InputAt types directives i (.fieldArgument t f a)
  | inputField {t : TypeId} {f : Nat} {d : String × TypeDef} {fields : Table InputValue}
    {name : String} (type : types.at? t.index = some d) (fieldsOf : d.2.inputFields? = some fields)
    (declared : (name, i) ∈ fields.entries) : InputAt types directives i (.inputField t f)
  | directiveArgument {id : DirectiveId} {a : Nat} {d : String × DirectiveDef} {name : String}
    (directive : directives.at? id.index = some d) (argument : (name, i) ∈ d.2.arguments.entries) :
    InputAt types directives i (.directiveArgument id a)

theorem inputAt_of_found {types : Table TypeDef} {directives : Table DirectiveDef} {e : ElementId}
    {i : InputValue} (found : inputValueAt? types directives e = some i) :
    InputAt types directives i e := by
  cases e with
  | fieldArgument t f a =>
    obtain ⟨x, known, rfl⟩ := Option.map_eq_some_iff.mp found
    obtain ⟨field, known, argument⟩ := Option.bind_eq_some_iff.mp known
    obtain ⟨shape, known, declared⟩ := Option.bind_eq_some_iff.mp known
    obtain ⟨d, type, shaped⟩ := Option.bind_eq_some_iff.mp known
    exact .fieldArgument type shaped ((Table.mem_entries_iff _ _).mpr ⟨f, declared⟩)
      ((Table.mem_entries_iff _ _).mpr ⟨a, argument⟩)
  | inputField t f =>
    obtain ⟨x, known, rfl⟩ := Option.map_eq_some_iff.mp found
    obtain ⟨fields, known, declared⟩ := Option.bind_eq_some_iff.mp known
    obtain ⟨d, type, fieldsOf⟩ := Option.bind_eq_some_iff.mp known
    exact .inputField type fieldsOf ((Table.mem_entries_iff _ _).mpr ⟨f, declared⟩)
  | directiveArgument id a =>
    obtain ⟨x, known, rfl⟩ := Option.map_eq_some_iff.mp found
    obtain ⟨d, directive, argument⟩ := Option.bind_eq_some_iff.mp known
    exact .directiveArgument directive ((Table.mem_entries_iff _ _).mpr ⟨a, argument⟩)
  | _ => cases found

/-! What is collected. -/

namespace Graph

theorem Fresh.inputValue {g : Graph} (fresh : g.Fresh) {e : ElementId} {i : InputValue}
    (found : inputValueAt? g.types g.directives e = some i) : i.Fresh := by
  cases inputAt_of_found found with
  | fieldArgument type shaped declared argument =>
    have type := fresh.types.each _ ((Table.mem_entries_iff _ _).mpr ⟨_, type⟩)
    exact ((type.shape shaped).fields.each _ declared).arguments.each _ argument
  | inputField type fieldsOf declared =>
    have type := fresh.types.each _ ((Table.mem_entries_iff _ _).mpr ⟨_, type⟩)
    exact (type.inputFields fieldsOf).each _ declared
  | directiveArgument directive argument =>
    have directive := fresh.directives.each _ ((Table.mem_entries_iff _ _).mpr ⟨_, directive⟩)
    exact directive.arguments.each _ argument

theorem exists_of_mem_getD {α : Type} {o : Option α} {view : α → List Usage} {u : Usage}
    (member : u ∈ (o.map view).getD []) : ∃ a, o = some a ∧ u ∈ view a := by
  cases o with
  | none => cases member
  | some a => exact ⟨a, rfl, member⟩

theorem Fresh.usage {g : Graph} (fresh : g.Fresh) {e : ElementId} {u : Usage}
    (member : u ∈ g.usages e) : u.Fresh := by
  cases e with
  | schema =>
    obtain ⟨b, declared, member⟩ := exists_of_mem_getD member
    exact (fresh.block b declared).usages u member
  | type t =>
    obtain ⟨d, entry, member⟩ := exists_of_mem_getD member
    exact (fresh.types.each d ((Table.mem_entries_iff _ d).mpr ⟨_, entry⟩)).usages u member
  | field t f =>
    obtain ⟨x, found, member⟩ := exists_of_mem_getD member
    obtain ⟨shape, known, position⟩ := Option.bind_eq_some_iff.mp found
    obtain ⟨d, entry, shaped⟩ := Option.bind_eq_some_iff.mp known
    have type := fresh.types.each d ((Table.mem_entries_iff _ d).mpr ⟨_, entry⟩)
    have field := (type.shape shaped).fields.each x ((Table.mem_entries_iff _ x).mpr ⟨_, position⟩)
    exact field.usages u member
  | enumValue t v =>
    obtain ⟨x, found, member⟩ := exists_of_mem_getD member
    obtain ⟨values, known, position⟩ := Option.bind_eq_some_iff.mp found
    obtain ⟨d, entry, valuesOf⟩ := Option.bind_eq_some_iff.mp known
    have body := (fresh.types.each d ((Table.mem_entries_iff _ d).mpr ⟨_, entry⟩)).body
    rw [TypeDef.enumValues?_eq_some_iff.mp valuesOf] at body
    exact (body.each x ((Table.mem_entries_iff _ x).mpr ⟨_, position⟩)).usages u member
  | fieldArgument t f a =>
    obtain ⟨x, found, member⟩ := exists_of_mem_getD member
    have value : inputValueAt? g.types g.directives (.fieldArgument t f a) = some x.2 :=
      Option.map_eq_some_iff.mpr ⟨x, found, rfl⟩
    exact (fresh.inputValue value).usages u member
  | inputField t f =>
    obtain ⟨x, found, member⟩ := exists_of_mem_getD member
    have value : inputValueAt? g.types g.directives (.inputField t f) = some x.2 :=
      Option.map_eq_some_iff.mpr ⟨x, found, rfl⟩
    exact (fresh.inputValue value).usages u member
  | directiveArgument id a =>
    obtain ⟨x, found, member⟩ := exists_of_mem_getD member
    have value : inputValueAt? g.types g.directives (.directiveArgument id a) = some x.2 :=
      Option.map_eq_some_iff.mpr ⟨x, found, rfl⟩
    exact (fresh.inputValue value).usages u member
  | directive id => cases member

theorem resolved_inputValueAt? (g : Graph) (e : ElementId) :
    inputValueAt? g.resolved.types g.resolved.directives e =
      inputValueAt? g.linked.types g.linked.directives e := by
  have types : g.resolved.types = g.linked.withRoot.types := rfl
  have directives : g.resolved.directives = g.linked.directives := rfl
  rw [types, directives]
  cases e <;>
    simp [inputValueAt?, Option.bind_map, Function.comp_def, TypeDef.shape?, TypeDef.inputFields?]

/-- An argument or input field of a linked graph has been checked, unless it is built in. -/
theorem Lawful.inputChecked {g : Graph} (lawful : g.Lawful)
    (plain : ∀ t d, g.typeAt? t = some d → d.builtIn = true → d.body = .scalar) {e : ElementId}
    {i : InputValue} (found : inputValueAt? g.types g.directives e = some i)
    (own : ∀ id a d, e = .directiveArgument id a → g.directiveAt? id = some d →
      d.builtIn = false) :
    ∃ location path, g.checkInputValue location path i = [] := by
  cases inputAt_of_found found with
  | fieldArgument type shaped declared argument =>
    have found := typeAt?_of_at? type
    have silent := lawful.field found (own_of_shape plain found shaped) shaped _ declared
    simp only [checkField, List.append_eq_nil_iff, List.flatMap_eq_nil_iff] at silent
    have checked := silent.2 _ argument
    exact ⟨.argumentDefinition, _, checked⟩
  | inputField type fieldsOf declared =>
    have body := TypeDef.inputFields?_eq_some_iff.mp fieldsOf
    have found := typeAt?_of_at? type
    have other := own_of_members plain found (by simp [body])
    have checked := lawful.inputField found other body _ declared
    exact ⟨.inputFieldDefinition, _, checked⟩
  | @directiveArgument id a d name directive argument =>
    have definition : g.directiveAt? id = some d.2 := by
      rw [directiveAt?, directive, Option.map_some]
    have checked := lawful.argument definition (own id a d.2 rfl definition) _ argument
    exact ⟨.argumentDefinition, _, checked⟩

/-- A default value that has been checked fits. -/
theorem fits_of_checkInputValue {g : Graph} {location : DirectiveLocation} {path : ElementPath}
    {i : InputValue} (silent : g.checkInputValue location path i = [])
    {t : TypeId} {d : TypeDef} (resolved : g.resolve i.type.innermost = some (t, d)) {v : Value}
    (given : i.default = some v) : v.fits g.types i.type = true := by
  simp only [checkInputValue, List.append_eq_nil_iff, checkInputType, checkDefault, resolved,
    given] at silent
  obtain ⟨⟨⟨_, type⟩, default⟩, _⟩ := silent
  have input : d.kind.isInput = true := by
    by_contra output
    simp [output] at type
  by_contra unfit
  simp [input, unfit] at default

end Graph

/-- A built-in directive has texts as default values. -/
theorem builtInDirectives_defaults : ∀ e ∈ builtInDirectives, ∀ a ∈ e.2.arguments.entries, ∀ v,
    a.2.default = some v → a.2.type.toExpr = .named "String" ∧ ∃ s, v = .string s := by
  have every : (builtInDirectives.all fun e => e.2.arguments.entries.all fun a =>
      a.2.default.all fun v =>
        decide (a.2.type.toExpr = .named "String") && v.string?.isSome) = true := by decide
  intro e member a argument v given
  have texts := List.all_eq_true.mp (List.all_eq_true.mp every e member) a argument
  rw [given, Option.all_some, Bool.and_eq_true, decide_eq_true_eq] at texts
  refine ⟨texts.1, ?_⟩
  cases v with
  | string s => exact ⟨s, rfl⟩
  | _ => cases texts.2

theorem Fits.text {types : Table TypeDef} {a : TypeUse} (named : a.toExpr = .named "String")
    (s : String) : Fits types a (.string s) := by
  cases a with
  | named ref =>
    obtain same : ref.name = "String" := by simpa [TypeUse.toExpr] using named
    cases known : types.get? ref.name with
    | none => exact .undefined rfl known
    | some d => exact .builtIn known (same ▸ .string s)
  | _ => cases named

namespace Graph

/-- Arguments and input fields have types that exist. -/
theorem resolved_inputValue_known {g : Graph} (fresh : g.Fresh) (known : g.NamesKnown)
    {e : ElementId} {i : InputValue}
    (found : inputValueAt? g.resolved.types g.resolved.directives e = some i) :
    (g.resolved.types.get? i.type.innermost.name).isSome ∧
      ∃ t d, g.linked.resolve i.type.innermost = some (t, d) := by
  rw [resolved_inputValueAt?, linked_inputValueAt?, Option.map_eq_some_iff] at found
  obtain ⟨old, written, rfl⟩ := found
  have use : typeUseAt? g.types g.directives e = some old.type := by
    rw [typeUseAt?, written]
    cases e with
    | field t f => cases written
    | _ => rfl
  have exists_type : (g.typeId? old.type.innermost.name).isSome :=
    known (.type ⟨.typeUse, e⟩) _ ⟨old.type, use, rfl⟩
  have innermost : (g.names.linkInputValue e (e.container?.getD .schema) old).type.innermost =
      g.names.linkRef old.type.innermost := old.type.innermost_mapRef g.names.linkRef
  rw [innermost]
  refine ⟨?_, linked_resolve fresh.types.distinct exists_type⟩
  rw [← Table.contains_eq_isSome, Table.contains_iff_mem, resolved_types_keys, Names.linkRef_name]
  by_contra absent
  rw [typeId?, (Table.indexOf?_eq_none_iff _ _).mpr absent] at exists_type
  cases exists_type

end Graph

/-- The fields of an input object stand under their own names and have types that exist. -/
structure Table.InputFields (types : Table TypeDef) (fields : Table InputValue) : Prop extends
    fields.Keyed InputValue.name where
  known : ∀ f ∈ fields.values, (types.get? f.type.innermost.name).isSome

/-- This holds of all input objects. -/
def Table.InputsKnown (types : Table TypeDef) : Prop :=
  ∀ name d fields, types.get? name = some d → d.body = .inputObject fields →
    types.InputFields fields

namespace Sound

variable {required : Bool} {buffer : List (Option String × Declaration)}
  (sound : Sound required (given buffer))
include sound

theorem inputsKnown : (Graph.described (given buffer)).resolved.types.InputsKnown := by
  intro name d fields known body
  have fresh := Graph.described_fresh (given buffer)
  obtain ⟨t, entry⟩ := (Table.get?_eq_some_iff_at? sound.standard.distinct name d).mp known
  refine ⟨?_, fun f member => ?_⟩
  · have stored : (Graph.described (given buffer)).linked.withRoot.typeAt? ⟨t⟩ = some d :=
      congrArg (Option.map Prod.snd) entry
    rw [Graph.withRoot_typeAt?, Option.map_eq_some_iff] at stored
    obtain ⟨old, stored, rfl⟩ := stored
    exact Graph.linked_inputFields_keyed fresh stored body
  · obtain ⟨x, listed, rfl⟩ := List.mem_map.mp member
    obtain ⟨index, position⟩ := (Table.mem_entries_iff _ x).mp listed
    have found : inputValueAt? (Graph.described (given buffer)).resolved.types
        (Graph.described (given buffer)).resolved.directives (.inputField ⟨t⟩ index) =
          some x.2 := by
      simp only [inputValueAt?, entry, Option.bind_some, TypeDef.inputFields?, body, position,
        Option.map_some]
    exact (Graph.resolved_inputValue_known fresh sound.known found).1

theorem resolved_fits_iff (a : TypeUse) (v : Value) :
    v.fits (Graph.described (given buffer)).linked.types a = true ↔
      Fits (Graph.described (given buffer)).resolved.types a v := by
  have fresh := Graph.described_fresh (given buffer)
  rw [← sound.standard.fits_iff a v, ← Graph.withRoot_fits fresh.linked_types_distinct
    fresh.linked_directives_distinct v a]
  rfl

/-- The arguments of built-in directives are not checked, and their default values fit anyway. -/
theorem builtIn_default_fits {id : DirectiveId} {a : Nat} {i : InputValue} {d : DirectiveDef}
    (found : inputValueAt? (Graph.described (given buffer)).linked.types
      (Graph.described (given buffer)).linked.directives (.directiveArgument id a) = some i)
    (definition : (Graph.described (given buffer)).linked.directiveAt? id = some d)
    (builtIn : d.builtIn = true) {v : Value} (set : i.default = some v) :
    Fits (Graph.described (given buffer)).resolved.types i.type v := by
  rw [Graph.linked_inputValueAt?, Option.map_eq_some_iff] at found
  obtain ⟨old, found, rfl⟩ := found
  obtain ⟨x, known, rfl⟩ := Option.map_eq_some_iff.mp found
  obtain ⟨e, entry, argument⟩ := Option.bind_eq_some_iff.mp known
  obtain ⟨own, entries, others⟩ := described_directives sound.collected
  have stored := (Table.mem_entries_iff _ e).mpr ⟨_, entry⟩
  rw [entries] at stored
  rcases List.mem_append.mp stored with standard | declared
  · obtain ⟨text, s, rfl⟩ := builtInDirectives_defaults e standard x
      ((Table.mem_entries_iff _ x).mpr ⟨a, argument⟩) v set
    refine Fits.text ?_ s
    rw [← text]
    exact Names.toExpr_linkRef _ x.2.type
  · have plain : e.2.builtIn = true := by
      rw [Graph.directiveAt?, Graph.linked_directives_at?, entry] at definition
      cases definition
      exact builtIn
    rw [others e declared] at plain
    cases plain

theorem default_fits {e : ElementId} {i : InputValue}
    (found : inputValueAt? (Graph.described (given buffer)).linked.types
      (Graph.described (given buffer)).linked.directives e = some i)
    {v : Value} (set : i.default = some v) :
    Fits (Graph.described (given buffer)).resolved.types i.type v := by
  by_cases own : ∀ id a d, e = .directiveArgument id a →
      (Graph.described (given buffer)).linked.directiveAt? id = some d → d.builtIn = false
  · have lawful := (Graph.violations_eq_nil_iff _).mp sound.lawful
    obtain ⟨location, path, silent⟩ := lawful.inputChecked
      (fun t d declared builtIn => (linked_builtIn sound.collected declared builtIn).1) found own
    obtain ⟨_, t, d, resolved⟩ := Graph.resolved_inputValue_known (Graph.described_fresh _)
      sound.known ((Graph.resolved_inputValueAt? _ e).trans found)
    exact (sound.resolved_fits_iff _ v).mp (Graph.fits_of_checkInputValue silent resolved set)
  · push Not at own
    obtain ⟨id, a, d, rfl, definition, builtIn⟩ := own
    exact sound.builtIn_default_fits found definition (by simpa using builtIn) set

/-- A usage of the schema is a collected one with its name looked up. -/
theorem usage_source {u : UsageId} {x : Usage}
    (stands : (Graph.described (given buffer)).resolved.usage? u = some x) :
    ∃ source ∈ (Graph.described (given buffer)).usages u.owner,
      x.arguments = source.arguments := by
  rw [Schema.usage?, sound.usages, Names.linkUsages, List.getElem?_map,
    Option.map_eq_some_iff] at stands
  obtain ⟨source, written, rfl⟩ := stands
  exact ⟨source, List.mem_of_getElem? written, rfl⟩

theorem held_canonical {place : ValuePlace} {v : Value}
    (held : (Graph.described (given buffer)).resolved.valueAt? place = some v) :
    v.IsCanonical := by
  have fresh := Graph.described_fresh (given buffer)
  cases place with
  | default e =>
    obtain ⟨i, found, set⟩ := Option.bind_eq_some_iff.mp held
    rw [Graph.resolved_inputValueAt?, Graph.linked_inputValueAt?, Option.map_eq_some_iff] at found
    obtain ⟨source, written, rfl⟩ := found
    exact (fresh.inputValue written).default v set
  | argument u index =>
    obtain ⟨x, found, rfl⟩ := Option.map_eq_some_iff.mp held
    obtain ⟨usage, stands, position⟩ := Option.bind_eq_some_iff.mp found
    obtain ⟨source, written, same⟩ := sound.usage_source stands
    rw [same] at position
    exact (fresh.usage written).canonical x ((Table.mem_entries_iff _ x).mpr ⟨index, position⟩)

theorem declaration_known {place : ValuePlace} {i : InputValue}
    (declared : (Graph.described (given buffer)).resolved.declarationAt? place = some i) :
    ((Graph.described (given buffer)).resolved.types.get? i.type.innermost.name).isSome := by
  have known (e : ElementId) (found : inputValueAt? (Graph.described (given buffer)).resolved.types
      (Graph.described (given buffer)).resolved.directives e = some i) :=
    (Graph.resolved_inputValue_known (Graph.described_fresh _) sound.known found).1
  cases place with
  | default e => exact known e declared
  | argument u index =>
    obtain ⟨usage, stands, found⟩ := Option.bind_eq_some_iff.mp declared
    obtain ⟨x, position, found⟩ := Option.bind_eq_some_iff.mp found
    obtain ⟨d, defined, argument⟩ := Option.bind_eq_some_iff.mp found
    obtain ⟨id, linked, definition⟩ := Option.bind_eq_some_iff.mp defined
    obtain ⟨e, entry, rfl⟩ := Option.map_eq_some_iff.mp definition
    obtain ⟨k, stored⟩ := (Table.mem_entries_iff _ _).mp (mem_of_lookup argument)
    refine known (.directiveArgument id k) ?_
    simp only [inputValueAt?, entry, Option.bind_some, stored, Option.map_some]

theorem argument_fits {e : ElementId} {index : Nat} {u : Usage} {id : DirectiveId}
    {d : DirectiveDef}
    (stands : ((Graph.described (given buffer)).resolved.usages e)[index]? = some u)
    (linked : (Graph.described (given buffer)).resolved.Linked u id d)
    (other : isBuiltInType (Graph.described (given buffer)).resolved.types e = false) :
    ∀ x ∈ u.arguments.entries, ∃ i, d.arguments.get? x.1 = some i ∧
      Fits (Graph.described (given buffer)).resolved.types i.type x.2 := by
  intro x supplied
  have checked := sound.usagesChecked e (by rw [← Graph.withRoot_isBuiltInType]; exact other)
  rw [sound.usages, ← Graph.linked_usages] at stands
  obtain ⟨⟨location, _, obeys⟩, _⟩ := checked.obeys stands
    (Graph.definition?_eq_some_iff.mpr ⟨linked.linked, linked.defined⟩)
  obtain ⟨i, argument, fit⟩ := obeys.declared x supplied
  exact ⟨i, argument, (sound.resolved_fits_iff i.type x.2).mp fit⟩

/-- Every value was checked, but for the arguments of usages on built-in scalars. -/
theorem held_fits {place : ValuePlace} {v : Value}
    (held : (Graph.described (given buffer)).resolved.valueAt? place = some v)
    (other : isBuiltInType (Graph.described (given buffer)).resolved.types place.owner = false) :
    ∃ i, (Graph.described (given buffer)).resolved.declarationAt? place = some i ∧
      Fits (Graph.described (given buffer)).resolved.types i.type v := by
  cases place with
  | default e =>
    obtain ⟨i, found, set⟩ := Option.bind_eq_some_iff.mp held
    exact ⟨i, found, sound.default_fits ((Graph.resolved_inputValueAt? _ e).symm.trans found) set⟩
  | argument u index =>
    obtain ⟨x, found, rfl⟩ := Option.map_eq_some_iff.mp held
    obtain ⟨usage, stands, position⟩ := Option.bind_eq_some_iff.mp found
    obtain ⟨id, d, linked⟩ := sound.usage_linked stands
    obtain ⟨i, argument, fit⟩ := sound.argument_fits stands linked other x
      ((Table.mem_entries_iff _ x).mpr ⟨index, position⟩)
    refine ⟨i, ?_, fit⟩
    simp only [Schema.declarationAt?, stands, Option.bind_some, position, linked.linked,
      linked.defined, argument]

end Sound

/-! Where the variables are. -/

namespace Value

theorem itemVars_eq (items : List Value) : itemVars items = items.flatMap vars := by
  induction items with
  | nil => rfl
  | cons v rest ih => rw [List.flatMap_cons, ← ih, itemVars]

theorem itemsCanonical_iff (items : List Value) :
    ItemsCanonical items ↔ ∀ v ∈ items, v.IsCanonical := by
  induction items with
  | nil => simp [ItemsCanonical]
  | cons first rest ih => simp [ItemsCanonical, ih]

theorem lookup_of_ascending {entries : List (String × Value)} (ascending : Ascending entries)
    {e : String × Value} (member : e ∈ entries) : entries.lookup e.1 = some e.2 := by
  have distinct : (Table.mk entries).keys.Nodup :=
    List.pairwise_map.mpr (ascending.imp fun less => String.ne_of_lt less)
  exact (Table.get?_eq_some_iff distinct e.1 e.2).mpr member

end Value

/-- A part of the value of a question, at any depth, that is given for a custom scalar. -/
def GivenForCustom (types : Table TypeDef) (q : TypeUse × Value) (w : Value) : Prop :=
  ∃ ref d, ReflTransGen (Asks types) (.named ref, w) q ∧ types.get? ref.name = some d ∧
    d.body = .scalar ∧ d.builtIn = false

theorem GivenForCustom.asked {types : Table TypeDef} {q q' : TypeUse × Value} {w : Value}
    (inside : GivenForCustom types q' w) (question : Asks types q' q) :
    GivenForCustom types q w := by
  obtain ⟨ref, d, path, known, scalar, own⟩ := inside
  exact ⟨ref, d, path.tail question, known, scalar, own⟩

/-- A variable of a value that fits lies inside what is given for a custom scalar. -/
theorem Fits.vars_inside_custom {types : Table TypeDef} (standard : types.Standard)
    (inputs : types.InputsKnown) {a : TypeUse} {v : Value} (fit : Fits types a v)
    (known : (types.get? a.innermost.name).isSome) (canonical : v.IsCanonical) :
    ∀ x ∈ v.vars, ∃ w, GivenForCustom types (a, v) w ∧ w.isVar = false ∧ x ∈ w.vars := by
  intro x occurs
  induction fit with
  | null | enumName | enumText => cases occurs
  | @nonNull a v given inner ih =>
    obtain ⟨w, inside, rest⟩ := ih known canonical occurs
    exact ⟨w, inside.asked (.nonNull a v), rest⟩
  | items each ih =>
    rw [Value.vars, Value.itemVars_eq] at occurs
    obtain ⟨v, member, occurs⟩ := List.mem_flatMap.mp occurs
    have canonical := (Value.itemsCanonical_iff _).mp canonical v member
    obtain ⟨w, inside, rest⟩ := ih v member known canonical occurs
    exact ⟨w, inside.asked (.item member), rest⟩
  | single item only ih =>
    obtain ⟨w, inside, rest⟩ := ih known canonical occurs
    exact ⟨w, inside.asked (.single item), rest⟩
  | undefined given unknown =>
    rw [TypeUse.innermost, unknown] at known
    cases known
  | builtIn _ literal =>
    rw [literal.constant.2] at occurs
    cases occurs
  | @custom ref d v defined scalar own given constant =>
    have other : d.builtIn = false := by simpa [← standard.builtIn_iff defined] using own
    exact ⟨v, ⟨ref, d, .refl, defined, scalar, other⟩, constant, occurs⟩
  | object defined body declared present absent ih =>
    have fields := inputs _ _ _ defined body
    rw [Value.vars, Value.entryVars_eq] at occurs
    obtain ⟨e, member, occurs⟩ := List.mem_flatMap.mp occurs
    obtain ⟨f, field, named⟩ := fields.mem_keys.mp (declared e member)
    have found := named ▸ Value.lookup_of_ascending canonical.1 member
    have canonical := (Value.entriesCanonical_iff _).mp canonical.2 e member
    obtain ⟨w, inside, rest⟩ := ih f field e.2 found (fields.known f field) canonical occurs
    exact ⟨w, inside.asked (.entry defined body field found), rest⟩

/-- An accepted schema holds variables only inside values of custom scalars: each value but those
on built-in scalars has a declaration, and a variable in it belongs to a list or object that is
given for a custom scalar. -/
theorem variables_inside_custom_scalars (required : Bool)
    (buffer : List (Option String × Declaration)) (s : Schema)
    (accepted : (analyze required (given buffer)).result = .ok s) (place : ValuePlace) (v : Value)
    (held : s.valueAt? place = some v) (other : isBuiltInType s.types place.owner = false) :
    ∃ i, s.declarationAt? place = some i ∧ ∀ x ∈ v.vars, ∃ w,
      GivenForCustom s.types (i.type, v) w ∧ w.isVar = false ∧ x ∈ w.vars := by
  obtain ⟨sound, rfl⟩ := (analyze_eq_ok_iff_sound required (given buffer) s).mp accepted
  obtain ⟨i, declared, fit⟩ := sound.held_fits held other
  exact ⟨i, declared, fit.vars_inside_custom sound.standard sound.inputsKnown
    (sound.declaration_known declared) (sound.held_canonical held)⟩

/-- Events with data of any form, and a variable deep inside a default value. -/
def eventLog : List (Option String × Declaration) := [
  (none, .type { name := "JSON", body := .scalar }),
  (none, .type {
    name := "Event"
    body := .inputObject [
      { name := "tags", type := .list (.nonNull (.named "JSON")) },
      { name := "next", type := .named "Event" }] }),
  (none, .type {
    name := "Query"
    body := .object [] [
      { name := "count", type := .named "Int"
        arguments := [
          { name := "from", type := .named "Event"
            default := some (.object [
              ("next", .object [
                ("tags", .list [.int 1, .object [("at", .list [.var "now"])]])])]) }] }] })]

theorem variables_inside_custom_scalars_eventLog :
    ∃ s v i w, (analyze true (given eventLog)).result = .ok s ∧
      s.valueAt? (.default (.fieldArgument ⟨7⟩ 0 0)) = some v ∧
      isBuiltInType s.types (.fieldArgument ⟨7⟩ 0 0) = false ∧ v.vars = ["now"] ∧
      s.declarationAt? (.default (.fieldArgument ⟨7⟩ 0 0)) = some i ∧
      GivenForCustom s.types (i.type, v) w ∧ w.isVar = false ∧ "now" ∈ w.vars := by
  obtain ⟨s, accepted, evaluated⟩ : ∃ s, (analyze true (given eventLog)).result = .ok s ∧
      ((s.valueAt? (.default (.fieldArgument ⟨7⟩ 0 0))).any fun v => v.vars == ["now"]) = true :=
    exists_of_any (by decide +kernel)
  simp only [Option.any_eq_true, beq_iff_eq] at evaluated
  obtain ⟨v, held, vars⟩ := evaluated
  obtain ⟨i, declared, located⟩ := variables_inside_custom_scalars true eventLog s accepted
    (.default (.fieldArgument ⟨7⟩ 0 0)) v held rfl
  obtain ⟨w, inside, constant, occurs⟩ := located "now" (by simp [vars])
  exact ⟨s, v, i, w, accepted, held, rfl, vars, declared, inside, constant, occurs⟩

/-- A note takes data of any form, here a list with a variable. -/
def notedField : List (Option String × Declaration) := [
  (none, .type { name := "JSON", body := .scalar }),
  (none, .directive {
    name := "note", arguments := [{ name := "data", type := .named "JSON" }]
    locations := [.fieldDefinition] }),
  (none, .type {
    name := "Query"
    body := .object [] [
      { name := "count", type := .named "Int"
        usages := [{ name := "note", arguments := [("data", .list [.var "author"])] }] }] })]

/-- The note is accepted, and what it says is no constant. -/
theorem notedField_holds_variable :
    ∃ s v, (analyze true (given notedField)).result = .ok s ∧
      s.valueAt? (.argument ⟨.field ⟨6⟩ 0, 0⟩ 0) = some v ∧ v.vars = ["author"] := by
  obtain ⟨s, accepted, evaluated⟩ : ∃ s, (analyze true (given notedField)).result = .ok s ∧
      ((s.valueAt? (.argument ⟨.field ⟨6⟩ 0, 0⟩ 0)).any fun v => v.vars == ["author"]) = true :=
    exists_of_any (by decide +kernel)
  simp only [Option.any_eq_true, beq_iff_eq] at evaluated
  obtain ⟨v, held, vars⟩ := evaluated
  exact ⟨s, v, accepted, held, vars⟩

end SchemaAtlas
