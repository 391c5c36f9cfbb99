import SchemaAtlas.Proofs.Acceptance
import SchemaAtlas.Proofs.Reachability
import SchemaAtlas.Proofs.Relabeling

/-!
# Invariance under relabeling

Each step of the analysis treats matching graphs alike. Linking keeps them matching, a value fits a
type in one as in the other, and every rule and every search in the graph gives the same answer.
-/

namespace SchemaAtlas.Graph.Matches

variable {r : Relabeling} {g h : Graph}

section Linking

theorem linkRef (m : g.Matches r h) (x : TypeRef) :
    h.names.linkRef (r.ref x) = r.ref (g.names.linkRef x) := by
  simp [Names.linkRef, names, Relabeling.ref, m.typeId?]

theorem linkTypeUse (m : g.Matches r h) (a : TypeUse) :
    (r.typeUse a).mapRef h.names.linkRef = r.typeUse (a.mapRef g.names.linkRef) := by
  induction a with
  | named x => exact congrArg TypeUse.named (m.linkRef x)
  | list item ih => exact congrArg TypeUse.list ih
  | nonNull inner ih => exact congrArg TypeUse.nonNull ih

theorem linkUsages (m : g.Matches r h) (owner : ElementId) (us : List Usage) :
    h.names.linkUsages (r.element owner) (r.usages us) =
      r.usages (g.names.linkUsages owner us) := by
  simp [Names.linkUsages, Relabeling.usages, Names.linkUsage, Relabeling.usage, names,
    m.directiveId?, Function.comp_def]

theorem linkInputValue (m : g.Matches r h) (self parent : ElementId) (v : InputValue) :
    h.names.linkInputValue (r.element self) (r.element parent) (r.inputValue v) =
      r.inputValue (g.names.linkInputValue self parent v) := by
  simp [Names.linkInputValue, Relabeling.inputValue, m.linkTypeUse, m.linkUsages]

theorem linkInputValues (m : g.Matches r h) (self self' : Nat → ElementId)
    (moved : ∀ i, self' i = r.element (self i)) (parent : ElementId) (t : Table InputValue) :
    h.names.linkInputValues self' (r.element parent) (t.map r.inputValue) =
      (g.names.linkInputValues self parent t).map r.inputValue := by
  apply Table.ext_at?
  intro i
  simp [Names.linkInputValues, moved, m.linkInputValue, Function.comp_def]

theorem linkField (m : g.Matches r h) (t : TypeId) (i : Nat) (f : Field) :
    h.names.linkField (r.type t) i (r.field f) = r.field (g.names.linkField t i f) := by
  have usages := m.linkUsages (.field t i) f.usages
  have arguments := m.linkInputValues (.fieldArgument t i) (.fieldArgument (r.type t) i)
    (fun _ => rfl) (.field t i) f.arguments
  simp only [Relabeling.element] at usages arguments
  simp [Names.linkField, Relabeling.field, m.linkTypeUse, usages, arguments, Relabeling.element]

theorem linkShape (m : g.Matches r h) (t : TypeId) (s : Shape) :
    h.names.linkShape (r.type t) (r.shape s) = r.shape (g.names.linkShape t s) := by
  have fields : ((s.fields.map r.field).mapIdx fun i f => h.names.linkField (r.type t) i f) =
      (s.fields.mapIdx fun i f => g.names.linkField t i f).map r.field := by
    apply Table.ext_at?
    intro i
    simp [m.linkField, Function.comp_def]
  simp [Names.linkShape, Relabeling.shape, fields, Table.map_map, m.linkRef]

theorem linkBody (m : g.Matches r h) (t : TypeId) (b : TypeBody) :
    h.names.linkBody (r.type t) (r.body b) = r.body (g.names.linkBody t b) := by
  cases b with
  | enum values =>
    refine congrArg TypeBody.enum (Table.ext_at? fun i => ?_)
    have usages := fun us => m.linkUsages (.enumValue t i) us
    simp only [Relabeling.element] at usages
    simp [Names.linkEnumValue, Relabeling.enumValue, usages, Function.comp_def,
      Relabeling.element]
  | inputObject fields =>
    exact congrArg TypeBody.inputObject (m.linkInputValues (.inputField t)
      (.inputField (r.type t)) (fun _ => rfl) (.type t) fields)
  | interface s => exact congrArg TypeBody.interface (m.linkShape t s)
  | object s => exact congrArg TypeBody.object (m.linkShape t s)
  | scalar => rfl
  | union members =>
    simp [Names.linkBody, Relabeling.body, Table.map_map, m.linkRef]

/-- Linking keeps graphs matching. -/
theorem linked (m : g.Matches r h) : g.linked.Matches r h.linked where
  types :=
    { distinct := by simpa using m.types.distinct
      distinct' := by simpa using m.types.distinct'
      entries := by
        intro i
        rw [linked_types_at?, linked_types_at?]
        have related := m.types.entries i
        generalize g.types.at? i = source at related
        generalize h.types.at? (r.types i) = image at related
        cases related with
        | none => exact .none
        | some both =>
          obtain ⟨same, alike⟩ := both
          refine .some ⟨same, { alike with usages := ?_, body := ?_ }⟩
          · simp only [Names.linkType, alike.usages]
            exact m.linkUsages (.type ⟨i⟩) _
          · simp only [Names.linkType, alike.body]
            exact m.linkBody ⟨i⟩ _ }
  directives :=
    { distinct := by simpa using m.directives.distinct
      distinct' := by simpa using m.directives.distinct'
      entries := by
        intro i
        rw [linked_directives_at?, linked_directives_at?]
        have related := m.directives.entries i
        generalize g.directives.at? i = source at related
        generalize h.directives.at? (r.directives i) = image at related
        cases related with
        | none => exact .none
        | some both =>
          obtain ⟨same, alike⟩ := both
          refine .some ⟨same, { alike with arguments := ?_ }⟩
          simp only [Names.linkDirective, alike.arguments]
          exact m.linkInputValues (.directiveArgument ⟨i⟩) (.directiveArgument (r.directive ⟨i⟩))
            (fun _ => rfl) (.directive ⟨i⟩) _ }
  block := by
    rw [linked_block, linked_block]
    have related := m.block
    generalize g.block = source at related
    generalize h.block = image at related
    cases related with
    | none => exact .none
    | some alike =>
      refine .some { alike with usages := ?_, operations := ?_ }
      · simp only [Names.linkBlock, alike.usages]
        exact m.linkUsages .schema _
      · have moved := alike.operations.map
          fun o : OperationBinding => { o with type := h.names.linkRef o.type }
        simpa [Names.linkBlock, Relabeling.binding, Function.comp_def, m.linkRef] using moved

end Linking

section Values

theorem lookupRef (m : g.Matches r h) (x : TypeRef) :
    Option.Rel (TypeDef.Alike r) (lookupRef g.types x) (lookupRef h.types (r.ref x)) := by
  have byName := m.types.get? x.name
  rw [SchemaAtlas.lookupRef, SchemaAtlas.lookupRef, r.ref_target, r.ref_name]
  cases x.target with
  | none => exact byName
  | some t =>
    have related := m.types.entries t.index
    simp only [Option.map_some, Option.bind_some, r.type_index]
    generalize g.types.at? t.index = source at related
    generalize h.types.at? (r.types t.index) = image at related
    cases related with
    | none => exact byName
    | @some e e' both =>
      obtain ⟨name, d⟩ := e
      obtain ⟨name', d'⟩ := e'
      obtain ⟨rfl, alike⟩ := both
      by_cases same : name' = x.name
      · simpa [same] using alike
      · simpa [same] using byName

/-- Tests of a type in two graphs that agree up to relabeling. -/
def SameTest (r : Relabeling) (fit fit' : TypeUse → Bool) : Prop :=
  ∀ a, fit' (r.typeUse a) = fit a

theorem admits {items items' : Option (TypeUse → Bool)} {leaf leaf' : TypeRef → Bool}
    (sameItems : Option.Rel (SameTest r) items items') (sameLeaf : ∀ x, leaf' (r.ref x) = leaf x)
    (null : Bool) (a : TypeUse) :
    (r.typeUse a).admits null items' leaf' = a.admits null items leaf := by
  induction a with
  | named x => exact congrArg (null || ·) (sameLeaf x)
  | nonNull inner ih => exact congrArg (!null && ·) ih
  | list item ih =>
    cases sameItems with
    | none => exact congrArg (null || ·) ih
    | some same => exact congrArg (null || ·) (same item)

/-- Tests of entries that agree one by one. -/
def SameTests (r : Relabeling) : (es es' : List (String × (TypeUse → Bool))) → Prop :=
  List.Forall₂ fun e e' => e'.1 = e.1 ∧ SameTest r e.2 e'.2

theorem lookup_sameTests {es es' : List (String × (TypeUse → Bool))} (same : SameTests r es es')
    (name : String) : Option.Rel (SameTest r) (es.lookup name) (es'.lookup name) := by
  induction same with
  | nil => exact .none
  | @cons e e' _ _ head _ ih =>
    obtain ⟨key, fit⟩ := e
    obtain ⟨key', fit'⟩ := e'
    obtain ⟨rfl, sameFit⟩ := head
    rw [List.lookup_cons, List.lookup_cons]
    cases name == key'
    · exact ih
    · exact .some sameFit

theorem keys_sameTests {es es' : List (String × (TypeUse → Bool))} (same : SameTests r es es')
    (p : String → Bool) : (es'.all fun e => p e.1) = es.all fun e => p e.1 := by
  induction same with
  | nil => rfl
  | cons head _ ih => simp [head.1, ih]

theorem leafFits (m : g.Matches r h) (v : Value) {es es' : List (String × (TypeUse → Bool))}
    (same : SameTests r es es') (x : TypeRef) :
    leafFits h.types v es' (r.ref x) = leafFits g.types v es x := by
  have related := m.lookupRef x
  simp only [SchemaAtlas.leafFits]
  generalize SchemaAtlas.lookupRef g.types x = source at related
  generalize SchemaAtlas.lookupRef h.types (r.ref x) = image at related
  cases related with
  | none => rfl
  | @some d d' alike =>
    simp only [alike.body, TypeDef.scalarFits, alike.builtIn, alike.name]
    cases d.body with
    | inputObject fields =>
      cases v with
      | object entries =>
        simp only [Relabeling.body, Table.contains_map, Table.values_map, List.all_map,
          keys_sameTests same fields.contains]
        congr 2
        funext f
        have entry := lookup_sameTests same f.name
        simp only [Function.comp_apply, Relabeling.inputValue]
        generalize es.lookup f.name = source at entry
        generalize es'.lookup f.name = image at entry
        cases entry with
        | none => simp [InputValue.isRequired]
        | some sameFit => exact sameFit f.type
      | _ => rfl
    | enum values => cases v <;> simp [Relabeling.body]
    | _ => cases v <;> rfl

mutual

/-- A value fits a type in one graph if it fits the relabelled type in the other. -/
theorem fits (m : g.Matches r h) :
    (v : Value) → (a : TypeUse) → v.fits h.types (r.typeUse a) = v.fits g.types a
  | .null, a => admits .none (fun _ => rfl) true a
  | .boolean b, a => admits .none (m.leafFits (.boolean b) .nil) false a
  | .int n, a => admits .none (m.leafFits (.int n) .nil) false a
  | .float x, a => admits .none (m.leafFits (.float x) .nil) false a
  | .string s, a => admits .none (m.leafFits (.string s) .nil) false a
  | .enum name, a => admits .none (m.leafFits (.enum name) .nil) false a
  | .var name, a => admits .none (m.leafFits (.var name) .nil) false a
  | .list items, a =>
    admits (.some (m.allFit items)) (m.leafFits (.list items) .nil) false a
  | .object entries, a =>
    admits .none (m.leafFits (.object entries) (m.entryTests entries)) false a

theorem allFit (m : g.Matches r h) : (items : List Value) →
    SameTest r (Value.allFit g.types items) (Value.allFit h.types items)
  | [] => fun _ => rfl
  | v :: rest => fun a => congrArg₂ (· && ·) (m.fits v a) (m.allFit rest a)

theorem entryTests (m : g.Matches r h) : (entries : List (String × Value)) →
    SameTests r (Value.entryTests g.types entries) (Value.entryTests h.types entries)
  | [] => .nil
  | (_, v) :: rest => .cons ⟨rfl, m.fits v⟩ (m.entryTests rest)

end

end Values

section Usages

theorem suppliedArgument (m : g.Matches r h) (owner owner' : ElementPath) (u : Usage)
    {d d' : DirectiveDef} (alike : d.Alike r d') (a : String × Value) :
    h.suppliedArgument owner' (r.usage u) d' a = [] ↔ g.suppliedArgument owner u d a = [] := by
  simp only [Graph.suppliedArgument, alike.arguments, Table.get?_map]
  cases d.arguments.get? a.1 with
  | none => simp
  | some declared =>
    simp only [Option.map_some, r.inputValue_type, r.typeUse_isNonNull, m.fits]
    by_cases null : (a.2.isNull && declared.type.isNonNull) = true
    · simp [null]
    · by_cases fit : a.2.fits g.types declared.type = true <;> simp [null, fit]

theorem usageProblems (m : g.Matches r h) (location : DirectiveLocation)
    (owner owner' : ElementPath) (repeated : Bool) (u : Usage) {d d' : DirectiveDef}
    (alike : d.Alike r d') :
    h.usageProblems location owner' repeated (r.usage u) d' = [] ↔
      g.usageProblems location owner repeated u d = [] := by
  have missing : missingArguments owner' (r.usage u) d' = [] ↔ missingArguments owner u d = [] := by
    simp only [missingArguments, alike.arguments, List.map_eq_nil_iff, List.filter_eq_nil_iff,
      Table.map_entries, List.forall_mem_map, r.inputValue_isRequired, r.usage_arguments]
  simp only [Graph.usageProblems, alike.locations, alike.repeatable, List.append_eq_nil_iff,
    List.flatMap_eq_nil_iff, r.usage_arguments, m.suppliedArgument owner owner' u alike, missing]
  by_cases allowed : d.locations.contains location = true <;>
    by_cases again : (repeated && !d.repeatable) = true <;> simp [allowed, again]

theorem checkUsagesFrom (m : g.Matches r h) (location : DirectiveLocation)
    (owner owner' : ElementPath) (seen : List DirectiveId) (us : List Usage) :
    h.checkUsagesFrom location owner' (seen.map r.directive) (r.usages us) = [] ↔
      g.checkUsagesFrom location owner seen us = [] := by
  induction us generalizing seen with
  | nil => exact Iff.rfl
  | cons u rest ih =>
    simp only [Relabeling.usages, List.map_cons, Graph.checkUsagesFrom]
    cases definition : u.definition with
    | none =>
      have target : (r.usage u).definition = none := by simp [Relabeling.usage, definition]
      simp only [target, Option.bind_none]
      exact ih seen
    | some id =>
      have related := m.directiveAt? id
      have target : (r.usage u).definition = some (r.directive id) := by
        simp [Relabeling.usage, definition]
      simp only [target, Option.bind_some]
      generalize g.directiveAt? id = source at related
      generalize h.directiveAt? (r.directive id) = image at related
      cases related with
      | none => exact ih seen
      | some alike =>
        have before : (seen.map r.directive).contains (r.directive id) = seen.contains id := by
          simp
        have later := ih (id :: seen)
        simp only [Option.map_some, List.append_eq_nil_iff, before]
        rw [m.usageProblems location owner owner' _ u alike]
        exact and_congr_right fun _ => later

theorem checkUsages (m : g.Matches r h) (location : DirectiveLocation)
    (owner owner' : ElementPath) (us : List Usage) :
    h.checkUsages location owner' (r.usages us) = [] ↔ g.checkUsages location owner us = [] :=
  m.checkUsagesFrom location owner owner' [] us

end Usages

end SchemaAtlas.Graph.Matches
