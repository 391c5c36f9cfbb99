import SchemaAtlas.Proofs.ElementPaths

/-!
# Reports under the paths of elements

The rules are checked from outside in, and the path of an element is put together on the way, from
the names under which members are listed. Here the same report is put together element by element:
each is looked up at its position and reported under the path of that position.
-/

namespace SchemaAtlas

/-- The elements that the entries of a table are, each before what is inside it. -/
def Table.ids {α : Type} (self : Nat → ElementId) (inside : Nat → α → List ElementId)
    (t : Table α) : List ElementId :=
  (t.values.mapIdx fun i a => self i :: inside i a).flatten

theorem Table.flatMap_ids {α β : Type} {self : Nat → ElementId} {inside : Nat → α → List ElementId}
    {t : Table α} {f : ElementId → List β} {h : String × α → List β}
    (same : ∀ i e, t.at? i = some e → f (self i) ++ (inside i e.2).flatMap f = h e) :
    (t.ids self inside).flatMap f = t.entries.flatMap h := by
  have parts : (t.values.mapIdx fun i a => f (self i) ++ (inside i a).flatMap f) =
      t.entries.map h := by
    apply List.ext_getElem?
    intro i
    rw [List.getElem?_mapIdx, values_getElem?, List.getElem?_map, ← at?]
    cases entry : t.at? i with
    | none => rfl
    | some e => simp [same i e entry]
  rw [ids, List.flatMap_def, List.map_flatten, List.flatten_flatten, List.map_map, map_mapIdx,
    List.flatMap_def, ← parts]
  rfl

theorem filter_map_eq_flatten_mapIdx {α β : Type} {p : α → Bool} {f : α → β} {h : Nat → α → β}
    {as : List α} (same : ∀ i a, as[i]? = some a → h i a = f a) :
    (as.filter p).map f = (as.mapIdx fun i a => if p a then [h i a] else []).flatten := by
  induction as generalizing h with
  | nil => rfl
  | cons a rest ih =>
    rw [List.mapIdx_cons, List.flatten_cons, ← ih fun i b found => same (i + 1) b found]
    cases kept : p a with
    | true => simp [kept, same 0 a rfl]
    | false => simp [kept]

namespace TypeDef

/-- Whether a type that needs members has none. -/
def isMemberless (d : TypeDef) : Bool :=
  match d.body with
  | .enum values => values.isEmpty
  | .inputObject fields => fields.isEmpty
  | .interface shape | .object shape => shape.fields.isEmpty
  | .scalar => false
  | .union members => members.isEmpty

/-- The elements inside a type. -/
def memberIds (t : TypeId) (d : TypeDef) : List ElementId :=
  match d.body with
  | .enum values => values.ids (.enumValue t) fun _ _ => []
  | .inputObject fields => fields.ids (.inputField t) fun _ _ => []
  | .interface shape | .object shape =>
    shape.fields.ids (.field t) fun i f => f.arguments.ids (.fieldArgument t i) fun _ _ => []
  | .scalar | .union _ => []

end TypeDef

namespace Graph

variable (g : Graph)

/-- What there is to say about one element and the directives on it. -/
def findings (e : ElementId) : List Diagnostic :=
  match e with
  | .schema => g.checkUsages .schema (g.path e) (g.usages e)
  | .type t => (g.typeAt? t).elim [] fun d =>
    checkName d.name d.location (g.path e) ++
      g.checkUsages (typeLocation d.kind) (g.path e) (g.usages e) ++
      (if d.isMemberless then [⟨.emptyDefinition d.kind d.name, some d.location, g.path e⟩]
        else []) ++
      ((d.members?.map Table.values).getD []).flatMap (g.checkMember d (g.path e))
  | .field _ _ => (fieldAt? g.types e).elim [] fun f =>
    checkName f.name f.location (g.path e) ++
      g.checkUsages .fieldDefinition (g.path e) (g.usages e) ++ g.checkOutputType f (g.path e)
  | .enumValue t _ => (g.typeAt? t).elim [] fun d => (enumValueAt? g.types e).elim [] fun v =>
    checkName v.name v.location (g.path e) ++ checkReserved d (g.path e) (v.name, v) ++
      g.checkUsages .enumValue (g.path e) (g.usages e)
  | .inputField _ _ => (inputValueAt? g.types g.directives e).elim []
    (g.checkInputValue .inputFieldDefinition (g.path e))
  | .fieldArgument _ _ _ | .directiveArgument _ _ => (inputValueAt? g.types g.directives e).elim []
    (g.checkInputValue .argumentDefinition (g.path e))
  | .directive id => (g.directiveAt? id).elim [] fun d => checkName d.name d.location (g.path e)

/-! Implementing an interface, with the paths of the arguments looked up. -/

def argumentFindings (interface : String) (t : TypeId) (i : Nat) (f : Field)
    (e : String × InputValue) : List Diagnostic :=
  match f.arguments.indexOf? e.1, f.arguments.get? e.1 with
  | some j, some argument =>
    if argument.type.equivalent e.2.type then []
    else [⟨.interfaceArgumentMismatch (g.path (.fieldArgument t i j)) e.2.type argument.type
      interface, some argument.location, g.path (.fieldArgument t i j)⟩]
  | _, _ => [⟨.missingInterfaceArgument e.1 (g.path (.field t i)) interface, some f.location,
      g.path (.field t i)⟩]

def extraFindings (interface : String) (t : TypeId) (i : Nat) (f declared : Field) :
    List Diagnostic :=
  (f.arguments.entries.mapIdx fun j e =>
    if !declared.arguments.contains e.1 && e.2.type.isNonNull then
      [⟨.requiredExtraArgument (g.path (.fieldArgument t i j)) interface, some e.2.location,
        g.path (.fieldArgument t i j)⟩]
    else []).flatten

def fieldFindings (t : TypeId) (d : TypeDef) (shape : Shape) (interface : String)
    (e : String × Field) : List Diagnostic :=
  match shape.fields.indexOf? e.1, shape.fields.get? e.1 with
  | some i, some f =>
    e.2.arguments.entries.flatMap (g.argumentFindings interface t i f) ++
    g.extraFindings interface t i f e.2 ++
    if g.mayStandFor f.type e.2.type then []
    else [⟨.invalidInterfaceFieldType (g.path (.field t i)) e.2.type f.type interface,
      some f.location, g.path (.field t i)⟩]
  | _, _ => [⟨.missingInterfaceField d.kind d.name e.1 interface, some d.location,
      g.path (.type t)⟩]

/-- Everything that keeps a type from implementing what it lists. -/
def interfaceFindings (t : TypeId) (d : TypeDef) (shape : Shape) : List Diagnostic :=
  (if d.kind == .interface && g.implementsInterface t t then
      [⟨.selfImplementingInterface d.name, some d.location, g.path (.type t)⟩]
    else []) ++
  g.interfaceProblems t d shape (g.fieldFindings t d shape) [] shape.implements.entries

/-- The findings on a type, on the elements inside it and on its interfaces. -/
def typeFindings (t : TypeId) (d : TypeDef) : List Diagnostic :=
  g.findings (.type t) ++ (d.memberIds t).flatMap g.findings ++
    (d.shape?.elim [] fun shape =>
      if shape.fields.isEmpty then [] else g.interfaceFindings t d shape)

def directiveFindings (id : DirectiveId) (d : DirectiveDef) : List Diagnostic :=
  g.findings (.directive id) ++
    (d.arguments.ids (.directiveArgument id) fun _ _ => []).flatMap g.findings

/-- The report of all rules, element by element. -/
def elementReport : List Diagnostic :=
  (g.ownTypes.flatMap fun e => g.typeFindings e.1 e.2) ++
    (g.ownDirectives.flatMap fun e => g.directiveFindings e.1 e.2) ++ g.findings .schema ++
    g.inputCycles ++ g.directiveCycles

section Elements

variable {g} {t : TypeId} {name : String} {d : TypeDef}

theorem arguments_flatMap_findings {shape : Shape} {i : Nat} {key : String} {f : Field}
    (found : g.types.at? t.index = some (name, d)) (shaped : d.shape? = some shape)
    (member : shape.fields.at? i = some (key, f)) :
    (f.arguments.ids (.fieldArgument t i) fun _ _ => []).flatMap g.findings =
      f.arguments.entries.flatMap (g.checkArgument (g.path (.field t i))) := by
  refine Table.flatMap_ids fun j e argument => ?_
  have value : inputValueAt? g.types g.directives (.fieldArgument t i j) = some e.2 := by
    simp [inputValueAt?, found, shaped, member, argument]
  rw [findings, value, path_fieldArgument found shaped member argument, List.flatMap_nil,
    List.append_nil]
  rfl

theorem fields_flatMap_findings {shape : Shape} (keyed : shape.fields.Keyed Field.name)
    (found : g.types.at? t.index = some (name, d)) (shaped : d.shape? = some shape) :
    (shape.fields.ids (.field t) fun i f =>
        f.arguments.ids (.fieldArgument t i) fun _ _ => []).flatMap g.findings =
      shape.fields.entries.flatMap (g.checkField (g.path (.type t))) := by
  refine Table.flatMap_ids fun i e member => ?_
  obtain ⟨key, f⟩ := e
  have value : fieldAt? g.types (.field t i) = some f := by simp [fieldAt?, found, shaped, member]
  have used : g.usages (.field t i) = f.usages := by
    simp [usages, elementUsages, found, shaped, member]
  have named : f.name = key := keyed.at?_name member
  rw [arguments_flatMap_findings found shaped member, findings, value, Option.elim_some, used,
    named, path_field found shaped member]
  rfl

theorem inputFields_flatMap_findings {fields : Table InputValue}
    (found : g.types.at? t.index = some (name, d)) (listed : d.inputFields? = some fields) :
    (fields.ids (.inputField t) fun _ _ => []).flatMap g.findings =
      fields.entries.flatMap (g.checkInputField (g.path (.type t))) := by
  refine Table.flatMap_ids fun i e member => ?_
  have value : inputValueAt? g.types g.directives (.inputField t i) = some e.2 := by
    simp [inputValueAt?, found, listed, member]
  rw [findings, value, path_inputField found listed member, List.flatMap_nil, List.append_nil]
  rfl

theorem enumValues_flatMap_findings {values : Table EnumValue}
    (keyed : values.Keyed EnumValue.name) (found : g.types.at? t.index = some (name, d))
    (listed : d.enumValues? = some values) :
    (values.ids (.enumValue t) fun _ _ => []).flatMap g.findings =
      values.entries.flatMap (g.checkEnumValue d (g.path (.type t))) := by
  refine Table.flatMap_ids fun i e member => ?_
  obtain ⟨key, v⟩ := e
  have value : enumValueAt? g.types (.enumValue t i) = some v := by
    simp [enumValueAt?, found, listed, member]
  have used : g.usages (.enumValue t i) = v.usages := by
    simp [usages, elementUsages, found, listed, member]
  have named : v.name = key := keyed.at?_name member
  rw [findings, typeAt?_of_at? found, value, Option.elim_some, Option.elim_some, used, named,
    path_enumValue found listed member, List.flatMap_nil, List.append_nil]
  rfl

theorem directiveArguments_flatMap_findings {id : DirectiveId} {d : DirectiveDef}
    (found : g.directives.at? id.index = some (name, d)) :
    (d.arguments.ids (.directiveArgument id) fun _ _ => []).flatMap g.findings =
      d.arguments.entries.flatMap (g.checkArgument (g.path (.directive id))) := by
  refine Table.flatMap_ids fun i e argument => ?_
  have value : inputValueAt? g.types g.directives (.directiveArgument id i) = some e.2 := by
    simp [inputValueAt?, found, argument]
  rw [findings, value, path_directiveArgument found argument, List.flatMap_nil, List.append_nil]
  rfl

/-! Arguments, where a field is held against that of an interface. -/

section Arguments

variable {shape : Shape} {i : Nat} {key : String} {f : Field}
  (found : g.types.at? t.index = some (name, d)) (shaped : d.shape? = some shape)
  (member : shape.fields.at? i = some (key, f))
include found shaped member

theorem declaredArgument_eq_findings (keyed : f.arguments.Keyed InputValue.name)
    (interface : String) (e : String × InputValue) :
    declaredArgument interface (g.path (.field t i)) f e =
      g.argumentFindings interface t i f e := by
  rw [declaredArgument, argumentFindings]
  cases taken : f.arguments.get? e.1 with
  | none => cases f.arguments.indexOf? e.1 <;> rfl
  | some v =>
    obtain ⟨j, argument⟩ := (Table.get?_eq_some_iff_at? keyed.distinct e.1 v).mp taken
    rw [keyed.indexOf?_of_at? argument]
    simp only [path_fieldArgument found shaped member argument]

theorem extraArguments_eq_findings (interface : String) (declared : Field) :
    extraArguments interface (g.path (.field t i)) f declared =
      g.extraFindings interface t i f declared := by
  refine filter_map_eq_flatten_mapIdx fun j e argument => ?_
  rw [path_fieldArgument found shaped member argument]

end Arguments

theorem declaredField_eq_findings (keyed : d.MembersKeyed) {shape : Shape}
    (found : g.types.at? t.index = some (name, d)) (shaped : d.shape? = some shape) :
    g.declaredField t d shape = g.fieldFindings t d shape := by
  funext interface e
  rw [declaredField, fieldFindings]
  cases index : shape.fields.indexOf? e.1 with
  | none => rfl
  | some i =>
    obtain ⟨f, member⟩ :=
      (Table.indexOf?_eq_some_iff (keyed.fields shaped).distinct e.1 i).mp index
    have arguments := keyed.arguments shaped member
    rw [(keyed.fields shaped).get?_of_at? member]
    simp only [fieldConformance, extraArguments_eq_findings found shaped member]
    rw [funext (declaredArgument_eq_findings found shaped member arguments interface)]

theorem checkInterfaces_eq_findings (keyed : d.MembersKeyed) {shape : Shape}
    (found : g.types.at? t.index = some (name, d)) (shaped : d.shape? = some shape) :
    g.checkInterfaces t d shape = g.interfaceFindings t d shape := by
  rw [checkInterfaces, interfaceFindings, declaredField_eq_findings keyed found shaped]

theorem checkDirective_eq_findings {id : DirectiveId} {d : DirectiveDef}
    (directive : g.directiveAt? id = some d) :
    g.checkDirective (id, d) = g.directiveFindings id d := by
  obtain ⟨⟨name, _⟩, found, rfl⟩ := Option.map_eq_some_iff.mp directive
  rw [checkDirective, directiveFindings, directiveArguments_flatMap_findings found, findings,
    directive]
  rfl

theorem checkBlock_eq_findings : g.checkBlock = g.findings .schema := by
  rw [checkBlock, findings, usages, elementUsages]
  cases g.block <;> rfl

end Elements

namespace Keyed

variable {g : Graph} (keyed : g.Keyed)
include keyed

/-- The members of a type and its interfaces, after what there is to say about the type itself. -/
theorem checkBody_eq_findings {t : TypeId} {name : String} {d : TypeDef}
    (found : g.types.at? t.index = some (name, d)) :
    g.checkBody t d (g.path (.type t)) =
      (if d.isMemberless then
        [⟨.emptyDefinition d.kind d.name, some d.location, g.path (.type t)⟩] else []) ++
      ((d.members?.map Table.values).getD []).flatMap (g.checkMember d (g.path (.type t))) ++
      (d.memberIds t).flatMap g.findings ++
      (d.shape?.elim [] fun shape =>
        if shape.fields.isEmpty then [] else g.interfaceFindings t d shape) := by
  have members : d.MembersKeyed := keyed.members (typeAt?_of_at? found)
  have path : g.path (.type t) = .type d.kind d.name := by
    have named : d.name = name := keyed.types.at?_name found
    rw [path_type found, named]
  have empty (none : Bool) : checkEmpty d none =
      if none then [⟨.emptyDefinition d.kind d.name, some d.location, g.path (.type t)⟩]
      else [] := by
    rw [checkEmpty, path]
  rw [checkBody, TypeDef.isMemberless, TypeDef.memberIds]
  cases body : d.body with
  | enum values =>
    have listed : d.enumValues? = some values := by rw [TypeDef.enumValues?, body]
    simp only [empty, ← enumValues_flatMap_findings (members.enumValues listed) found listed]
    simp [TypeDef.members?, TypeDef.shape?, body]
  | inputObject fields =>
    have listed : d.inputFields? = some fields := by rw [TypeDef.inputFields?, body]
    simp only [empty, ← inputFields_flatMap_findings found listed]
    simp [TypeDef.members?, TypeDef.shape?, body]
  | interface shape | object shape =>
    have shaped : d.shape? = some shape := by rw [TypeDef.shape?, body]
    simp only [empty, ← fields_flatMap_findings (members.fields shaped) found shaped,
      checkInterfaces_eq_findings members found shaped, shaped]
    simp [TypeDef.members?, body]
  | scalar => simp [TypeDef.members?, TypeDef.shape?, body]
  | union refs => simp [empty, TypeDef.members?, TypeDef.shape?, body]

theorem checkType_eq_findings {t : TypeId} {d : TypeDef} (type : g.typeAt? t = some d) :
    g.checkType (t, d) = g.typeFindings t d := by
  obtain ⟨⟨name, definition⟩, found, rfl⟩ := Option.map_eq_some_iff.mp type
  have used : g.usages (.type t) = definition.usages := by
    rw [usages, elementUsages, found]
    rfl
  rw [checkType, typeFindings, findings, type, Option.elim_some, used,
    keyed.checkBody_eq_findings found]
  simp only [List.append_assoc]

/-- The report of all rules is put together from the findings on each element. -/
theorem violations_eq : g.violations = g.elementReport := by
  have types : g.ownTypes.flatMap g.checkType =
      g.ownTypes.flatMap fun e => g.typeFindings e.1 e.2 :=
    List.flatMap_congr fun e own => keyed.checkType_eq_findings ((g.mem_ownTypes _ _).mp own).1
  have directives : g.ownDirectives.flatMap g.checkDirective =
      g.ownDirectives.flatMap fun e => g.directiveFindings e.1 e.2 :=
    List.flatMap_congr fun e own => checkDirective_eq_findings ((g.mem_ownDirectives _ _).mp own).1
  rw [violations, elementReport, types, directives, checkBlock_eq_findings]

end Keyed

end Graph

/-- In a graph that has been collected and linked, an element inside another one has it as its
parent, and its path goes on from there by one segment with its own name; a directive has the
element that it is applied to as its parent; and different elements have different paths. Linking
and checking report under these paths: what linking reports are the references left open, each told
by the path of its element, and what checking reports is put together from the findings on each
element, each looked up at its position and told by the path of that position. -/
theorem paths_agree (declarations : List Sourced) :
    let g := (Graph.collect declarations).value
    let linked := g.link.value
    (∀ e c, linked.Present e → e.container? = some c →
      linked.Present c ∧ ∃ s, linked.nested? e = some (s, some c) ∧
        linked.path e = (linked.path c).child s) ∧
      (∀ e, ∀ u ∈ linked.usages e, u.parent = some e) ∧
      (∀ e e', linked.Present e → linked.Present e' → linked.path e = linked.path e' → e = e') ∧
      (∀ x, x ∈ g.link.problems ↔ ∃ slot, linked.Open slot x) ∧
      linked.check.problems = linked.elementReport := by
  intro g linked
  have fresh : g.Fresh := Graph.collect_fresh declarations
  have keyed : linked.Keyed := fresh.linked_keyed
  refine ⟨fun e c present inside => ?_, fun e u => Graph.linked_usages_parent,
    fun e e' => keyed.path_injective, fun x => ?_, ?_⟩
  · obtain ⟨container, s, parent, nested, path⟩ := keyed.nested_of_present present inside
    have same : parent = some c := (Graph.linked_nested?_parent nested).trans inside
    exact ⟨container, s, by rw [nested, same], path⟩
  · rw [Graph.link_problems, ← Graph.map_snd_opened fresh, List.mem_map]
    constructor
    · rintro ⟨⟨slot, _⟩, member, rfl⟩
      exact ⟨slot, (Graph.mem_opened fresh slot _).mp member⟩
    · rintro ⟨slot, opened⟩
      exact ⟨(slot, x), (Graph.mem_opened fresh slot x).mpr opened, rfl⟩
  · rw [Graph.check_problems, keyed.violations_eq]

/-- An extension adds an argument to a field and a field to a type. Both have reserved names, and
the argument has a type that is not defined. -/
def shelves : List (Option String × Declaration) := [
  (none, .type {
    name := "Book"
    body := .object [] [{ name := "title", type := .named "Book", arguments := [
      { name := "room", type := .named "Room" }] }] }),
  (none, .type { name := "Room", body := .scalar }),
  (none, .typeExtension {
    name := "Book"
    body := .object [] [
      { name := "title", type := .named "Book", arguments := [
        { name := "__row", type := .named "Row" }] },
      { name := "__shelf", type := .named "Book" }] })]

/-- The added argument is found behind the old one, and all reports on it have its path. -/
theorem paths_agree_shelves :
    let g := (Graph.collect (given shelves)).value
    let linked := g.link.value
    linked.Present (.fieldArgument ⟨0⟩ 0 1) ∧
      linked.nested? (.fieldArgument ⟨0⟩ 0 1) = some (.argument "__row", some (.field ⟨0⟩ 0)) ∧
      linked.path (.fieldArgument ⟨0⟩ 0 1) =
        (linked.path (.field ⟨0⟩ 0)).child (.argument "__row") ∧
      g.link.problems.map Diagnostic.path = [linked.path (.fieldArgument ⟨0⟩ 0 1)] ∧
      linked.elementReport.map Diagnostic.path =
        [linked.path (.fieldArgument ⟨0⟩ 0 1), linked.path (.field ⟨0⟩ 1)] := by
  intro g linked
  have present : linked.Present (.fieldArgument ⟨0⟩ 0 1) := .fieldArgument rfl rfl rfl rfl
  have nested : linked.nested? (.fieldArgument ⟨0⟩ 0 1) =
      some (.argument "__row", some (.field ⟨0⟩ 0)) := by decide +kernel
  obtain ⟨inside, _, _, _, checked⟩ := paths_agree (given shelves)
  obtain ⟨_, s, own, path⟩ := inside _ _ present rfl
  cases nested.symm.trans own
  refine ⟨present, nested, path, ?_, ?_⟩
  · decide +kernel
  · rw [← checked]
    decide +kernel

end SchemaAtlas
