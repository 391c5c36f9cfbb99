import SchemaAtlas.Proofs.Merging

/-!
# Default values

An argument or input field is declared by the definition that brings it in, or by an extension that
does, and extensions may declare it again. The first of these declarations settles its default
value. Later ones add their usages to it, but a default value in one of them is ignored without a
report.
-/

namespace SchemaAtlas

/-- An argument or input field among the members of a type. -/
inductive InputMember where
  | inputField (name : String)
  | argument (field name : String)

/-- An argument or input field, by the names that lead to it. -/
inductive InputName where
  | member (type : String) (m : InputMember)
  | directiveArgument (directive name : String)

/-! The declarations of an argument or input field, in order. -/

def argumentDecls (fields : List FieldDecl) (field name : String) : List InputDecl :=
  (fields.filter fun d => d.name = field).flatMap fun d =>
    d.arguments.filter fun a => a.name = name

def BodyDecl.inputDecls (b : BodyDecl) : InputMember → List InputDecl
  | .inputField name => b.inputFields.filter fun d => d.name = name
  | .argument field name => argumentDecls b.fields field name

def Sourced.inputDecls (s : Sourced) : InputName → List InputDecl
  | .member type m => (s.typePart? type).elim [] fun w => w.2.body.inputDecls m
  | .directiveArgument directive name =>
    match s.declaration with
    | .directive d => if d.name = directive then d.arguments.filter fun a => a.name = name else []
    | _ => []

/-- The default value that the first of several declarations gives, as it is read. -/
def firstDefault (ds : List InputDecl) : Option (Option Value) :=
  ds.head?.map fun d => d.default.map Value.canonical

/-! The default value of an argument or input field, if there is such an element. -/

def Table.defaultOf? (t : Table InputValue) (name : String) : Option (Option Value) :=
  (t.get? name).map InputValue.default

def Table.argumentDefaultOf? (t : Table Field) (field name : String) : Option (Option Value) :=
  (t.get? field).bind fun f => f.arguments.defaultOf? name

def TypeBody.defaultOf? : TypeBody → InputMember → Option (Option Value)
  | inputObject fields, .inputField name => fields.defaultOf? name
  | interface shape, .argument field name | object shape, .argument field name =>
    shape.fields.argumentDefaultOf? field name
  | _, _ => none

def Graph.defaultOf? (g : Graph) : InputName → Option (Option Value)
  | .member type m => (g.types.get? type).bind fun d => d.body.defaultOf? m
  | .directiveArgument directive name =>
    (g.directives.get? directive).bind fun d => d.arguments.defaultOf? name

theorem firstDefault_append (ds ds' : List InputDecl) :
    firstDefault (ds ++ ds') = (firstDefault ds).or (firstDefault ds') := by
  rw [firstDefault, List.head?_append, Option.map_or]
  rfl

section Tables

variable {α β γ : Type} {key : α → String} {repeated : α → Reported Unit} {read : α → Reported β}

/-- A name of distinct ones occurs once. -/
theorem filter_eq_find? {as : List α} (distinct : (as.map key).Nodup) (name : String) :
    as.filter (fun a => key a = name) = (as.find? fun a => key a = name).toList := by
  induction as with
  | nil => rfl
  | cons a rest ih =>
    obtain ⟨new, later⟩ := List.nodup_cons.mp distinct
    by_cases here : key a = name
    · have absent : rest.filter (fun b => key b = name) = [] := by
        rw [List.filter_eq_nil_iff]
        intro b member same
        exact new (here ▸ of_decide_eq_true same ▸ List.mem_map_of_mem member)
      simp [here, absent]
    · simp [here, ih later]

theorem lookup_map_key (value : α → β) (as : List α) (name : String) :
    (as.map fun a => (key a, value a)).lookup name =
      (as.find? fun a => key a = name).map value := by
  induction as with
  | nil => rfl
  | cons a rest ih =>
    by_cases here : name = key a
    · simp [here]
    · have differs : (name == key a) = false := beq_eq_false_iff_ne.mpr here
      have other : ¬ key a = name := fun same => here same.symm
      simp [List.lookup_cons, differs, other, ih]

/-- What a list says of a name. -/
theorem gather_get? (loud : ∀ a, (repeated a).problems ≠ []) {as : List α}
    (silent : (gather key repeated read .empty as).problems = []) (name : String) :
    (gather key repeated read .empty as).value.get? name =
      (as.find? fun a => key a = name).map fun a => (read a).value := by
  obtain ⟨distinct, _⟩ := gather_silent loud as .empty List.nodup_nil silent
  rw [gather_value as .empty distinct, Table.get?, ← lookup_map_key]
  rfl

/-- A name that a table gains has what its entry brings. -/
theorem bind_get?_push {t : Table α} {key : String} (absent : key ∉ t.keys) (value : α)
    (view : α → Option γ) (name : String) :
    ((t.push key value).get? name).bind view =
      ((t.get? name).bind view).or (if name = key then view value else none) := by
  rw [Table.get?_push]
  by_cases here : name = key
  · subst here
    simp [(t.get?_eq_none_iff name).mpr absent]
  · simp [here]

/-- Something of an entry that the first declaration settles stays as it is when more entries are
added: by induction on these, where a known name goes through `clash`. -/
theorem absorb_bind {clash : β → β → Reported β} (view : β → Option γ) (name : String)
    (entries : List (String × β)) (distinct : (entries.map Prod.fst).Nodup)
    (settled : ∀ e ∈ entries, ∀ old, (clash old e.2).problems = [] →
      view (clash old e.2).value = (view old).or (view e.2))
    (t : Table β) (silent : (absorb clash t entries).problems = []) :
    ((absorb clash t entries).value.get? name).bind view =
      ((t.get? name).bind view).or ((entries.lookup name).bind view) := by
  induction entries generalizing t with
  | nil => simp [absorb]
  | cons e rest ih =>
    obtain ⟨key, new⟩ := e
    obtain ⟨absent, later⟩ := List.nodup_cons.mp distinct
    have missing : rest.lookup key = none := (Table.get?_eq_none_iff ⟨rest⟩ key).mpr absent
    have rest_settled := fun e member => settled e (List.mem_cons_of_mem _ member)
    cases found : t.get? key with
    | some old =>
      simp only [absorb, found, Reported.bind_problems, Reported.bind_value,
        List.append_eq_nil_iff] at silent ⊢
      rw [ih later rest_settled _ silent.2, Table.get?_modify]
      by_cases here : name = key
      · subst here
        have kept := settled _ List.mem_cons_self old silent.1
        simp [found, missing, kept]
      · have differs : (name == key) = false := beq_eq_false_iff_ne.mpr here
        simp [List.lookup_cons, differs, here]
    | none =>
      simp only [absorb, found] at silent ⊢
      rw [ih later rest_settled _ silent, bind_get?_push ((t.get?_eq_none_iff key).mp found),
        Option.or_assoc]
      by_cases here : name = key
      · subst here
        simp [missing]
      · have differs : (name == key) = false := beq_eq_false_iff_ne.mpr here
        simp [List.lookup_cons, differs, here]

end Tables

namespace Collect

theorem inputValues_default {origin : Origin} {container : ElementPath} {listed : Listed}
    {segment : String → PathSegment} {ds : List InputDecl}
    (silent : (inputValues origin container listed segment ds).problems = []) (name : String) :
    (inputValues origin container listed segment ds).value.defaultOf? name =
      firstDefault (ds.filter fun d => d.name = name) := by
  rw [Table.defaultOf?, inputValues, gather_get? (fun _ => reportDuplicate_problems _ _ _ _) silent,
    firstDefault, List.head?_filter, Option.map_map]
  rfl

theorem fields_default {origin : Origin} {type : ElementPath} {ds : List FieldDecl}
    (silent : (fields origin type ds).problems = []) (field name : String) :
    (fields origin type ds).value.argumentDefaultOf? field name =
      firstDefault (argumentDecls ds field name) := by
  have loud (d : FieldDecl) :
      (reportDuplicate .field d.name type (origin.locate d.pos)).problems ≠ [] :=
    reportDuplicate_problems _ _ _ _
  obtain ⟨distinct, each⟩ := gather_silent loud ds .empty List.nodup_nil silent
  rw [Table.argumentDefaultOf?, fields, gather_get? loud silent, argumentDecls,
    filter_eq_find? distinct]
  cases found : ds.find? fun d => d.name = field with
  | none => rfl
  | some d =>
    have readable := each d (List.mem_of_find?_eq_some found)
    simp only [Collect.field, Reported.bind_problems, List.append_eq_nil_iff] at readable
    simpa [Collect.field, arguments] using inputValues_default readable.1 name

theorem body_default {origin : Origin} {location : SourceLocation} {type : ElementPath}
    {d : BodyDecl} (silent : (body origin location type d).problems = []) (m : InputMember) :
    (body origin location type d).value.defaultOf? m = firstDefault (d.inputDecls m) := by
  cases d with
  | inputObject fs =>
    simp only [body, Reported.bind_problems, Reported.pure_problems, List.append_nil] at silent
    cases m with
    | inputField name => exact inputValues_default silent name
    | argument field name => rfl
  | interface implements fs | object implements fs =>
    simp only [body, Reported.bind_problems, Reported.pure_problems, List.append_nil,
      List.append_eq_nil_iff] at silent
    cases m with
    | inputField name => rfl
    | argument field name => exact fields_default silent.1 field name
  | enum values | scalar | union members => cases m <;> rfl

end Collect

/-! What is declared again keeps the default value that it has. -/

namespace Extend

theorem argument_default (field : ElementPath) (old new : InputValue) :
    (argument field old new).value.default = old.default := by
  rw [argument]
  split <;> rfl

theorem inputField_default (type : ElementPath) (old new : InputValue) :
    (inputField type old new).value.default = old.default := by
  rw [inputField]
  split
  · rfl
  · split <;> rfl

theorem absorb_default {clash : InputValue → InputValue → Reported InputValue}
    (kept : ∀ old new, (clash old new).value.default = old.default) {t new : Table InputValue}
    (distinct : new.keys.Nodup) (silent : (absorb clash t new.entries).problems = [])
    (name : String) :
    (absorb clash t new.entries).value.defaultOf? name =
      (t.defaultOf? name).or (new.defaultOf? name) := by
  have settled := absorb_bind (fun v => some v.default) name new.entries distinct
    (fun e _ old _ => by rw [kept, Option.some_or]) t silent
  simpa [Table.defaultOf?, Table.get?, Option.map_eq_bind, Function.comp_def] using settled

theorem field_default {type : ElementPath} {old new : Field}
    (distinct : new.arguments.keys.Nodup) (silent : (field type old new).problems = [])
    (name : String) :
    (field type old new).value.arguments.defaultOf? name =
      (old.arguments.defaultOf? name).or (new.arguments.defaultOf? name) := by
  obtain ⟨absorbed, value⟩ := field_silent silent
  rw [value]
  exact absorb_default (argument_default _) distinct absorbed name

theorem fields_default {origin : Origin} {type : ElementPath} {old : Table Field}
    {ds : List FieldDecl} (readable : (Collect.fields origin type ds).problems = [])
    (silent : (absorb (field type) old (Collect.fields origin type ds).value.entries).problems = [])
    (f name : String) :
    (absorb (field type) old
        (Collect.fields origin type ds).value.entries).value.argumentDefaultOf? f name =
      (old.argumentDefaultOf? f name).or (firstDefault (argumentDecls ds f name)) := by
  have fresh := Collect.fields_fresh origin type ds
  rw [← Collect.fields_default readable f name]
  exact absorb_bind (fun f => f.arguments.defaultOf? name) f _ fresh.distinct
    (fun e member old silent => field_default (fresh.each e member).arguments.distinct silent name)
    old silent

theorem shape_default {origin : Origin} {location : SourceLocation} {type : ElementPath}
    {implements : List String} {fields : List FieldDecl} {old : Shape}
    (silent : (shape origin location type implements fields old).problems = [])
    (field name : String) :
    (shape origin location type implements fields old).value.fields.argumentDefaultOf? field name =
      (old.fields.argumentDefaultOf? field name).or
        (firstDefault (argumentDecls fields field name)) := by
  simp only [shape, Reported.bind_problems, Reported.pure_problems, List.append_nil,
    List.append_eq_nil_iff] at silent
  obtain ⟨_, fieldsRead, _, fieldsMerged⟩ := silent
  exact fields_default fieldsRead fieldsMerged field name

theorem body_default {origin : Origin} {location : SourceLocation} {type : ElementPath}
    {d : BodyDecl} {old : TypeBody} (kind : old.kind = d.kind)
    (silent : (body origin location type d old).problems = []) (m : InputMember) :
    (body origin location type d old).value.defaultOf? m =
      (old.defaultOf? m).or (firstDefault (d.inputDecls m)) := by
  cases d with
  | inputObject fs =>
    cases old with
    | inputObject old =>
      simp only [body, Reported.bind_problems, Reported.pure_problems, List.append_nil,
        List.append_eq_nil_iff] at silent
      cases m with
      | inputField name =>
        have fresh := Collect.inputValues_fresh origin type .inputField .inputField fs
        have merged := absorb_default (inputField_default type) fresh.distinct silent.2 name
        rw [Collect.inputValues_default silent.1] at merged
        exact merged
      | argument field name => rfl
    | _ => cases kind
  | interface implements fs =>
    cases old with
    | interface old =>
      simp only [body, Reported.bind_problems, Reported.pure_problems, List.append_nil] at silent
      cases m with
      | inputField name => rfl
      | argument field name => exact shape_default silent field name
    | _ => cases kind
  | object implements fs =>
    cases old with
    | object old =>
      simp only [body, Reported.bind_problems, Reported.pure_problems, List.append_nil] at silent
      cases m with
      | inputField name => rfl
      | argument field name => exact shape_default silent field name
    | _ => cases kind
  | enum values =>
    cases old with
    | enum old => cases m <;> rfl
    | _ => cases kind
  | scalar =>
    cases old with
    | scalar => cases m <;> rfl
    | _ => cases kind
  | union members =>
    cases old with
    | union old => cases m <;> rfl
    | _ => cases kind

end Extend

namespace Graph

variable {g : Graph} {s : Sourced}

/-- A definition brings in its arguments and input fields. -/
theorem define_default (definition : s.declaration.isExtension = false)
    (silent : (g.define s).problems = []) (x : InputName) :
    (g.define s).value.defaultOf? x = (g.defaultOf? x).or (firstDefault (s.inputDecls x)) := by
  obtain ⟨origin, declaration⟩ := s
  cases declaration with
  | type d =>
    obtain ⟨absent, readable⟩ := (g.defineType_problems_iff origin d).mp silent
    simp only [Collect.typeDef, Reported.bind_problems, Reported.pure_problems, List.append_nil,
      List.append_eq_nil_iff] at readable
    rw [define, g.defineType_value origin d absent]
    cases x with
    | member type m =>
      rw [defaultOf?, bind_get?_push absent]
      congr 1
      by_cases here : type = d.name
      · subst here
        simpa [Sourced.inputDecls, Sourced.typePart?, Collect.typeDef] using
          Collect.body_default readable.2 m
      · have other : d.name ≠ type := fun same => here same.symm
        simp [Sourced.inputDecls, Sourced.typePart?, here, other, firstDefault]
    | directiveArgument directive name => exact (Option.or_none).symm
  | directive d =>
    obtain ⟨absent, readable⟩ := (g.defineDirective_problems_iff origin d).mp silent
    simp only [Collect.directiveDef, Reported.bind_problems, Reported.pure_problems,
      List.append_nil, List.append_eq_nil_iff] at readable
    rw [define, g.defineDirective_value origin d absent]
    cases x with
    | member type m => exact (Option.or_none).symm
    | directiveArgument directive name =>
      rw [defaultOf?, bind_get?_push absent]
      congr 1
      by_cases here : directive = d.name
      · subst here
        simpa [Sourced.inputDecls, Collect.directiveDef, Collect.arguments] using
          Collect.inputValues_default readable.2 name
      · have other : d.name ≠ directive := fun same => here same.symm
        simp [Sourced.inputDecls, here, other, firstDefault]
  | schema d =>
    obtain ⟨absent, _⟩ := (g.defineSchema_problems_iff origin d).mp silent
    rw [define, g.defineSchema_value origin d absent]
    cases x <;> exact (Option.or_none).symm
  | executable kind pos => cases x <;> exact (Option.or_none).symm
  | typeExtension e | schemaExtension d => cases definition

/-- An extension brings in what is new, and changes no default value. -/
theorem extend_default (extension : s.declaration.isExtension = true)
    (silent : (g.extend s).problems = []) (x : InputName) :
    (g.extend s).value.defaultOf? x = (g.defaultOf? x).or (firstDefault (s.inputDecls x)) := by
  obtain ⟨origin, declaration⟩ := s
  cases declaration with
  | typeExtension e =>
    obtain ⟨old, found, kind, _, body, value⟩ := extendType_silent silent
    rw [extend, value]
    cases x with
    | member type m =>
      rw [defaultOf?, Table.get?_modify]
      by_cases here : type = e.name
      · subst here
        have merged := Extend.body_default kind body m
        simpa [Sourced.inputDecls, Sourced.typePart?, defaultOf?, found] using merged
      · have other : e.name ≠ type := fun same => here same.symm
        simp [Sourced.inputDecls, Sourced.typePart?, defaultOf?, here, other, firstDefault]
    | directiveArgument directive name => exact (Option.or_none).symm
  | schemaExtension d =>
    obtain ⟨old, _, _, value⟩ := extendSchema_silent silent
    rw [extend, value]
    cases x <;> exact (Option.or_none).symm
  | _ => cases extension

end Graph

/-- All default values of a graph are those of the first declarations. -/
def Graph.TakesFirst (g : Graph) (ds : List Sourced) : Prop :=
  ∀ x, g.defaultOf? x = firstDefault (ds.flatMap fun s => s.inputDecls x)

theorem Graph.TakesFirst.step {g g' : Graph} {ds : List Sourced} {s : Sourced}
    (taken : g.TakesFirst ds)
    (last : ∀ x, g'.defaultOf? x = (g.defaultOf? x).or (firstDefault (s.inputDecls x))) :
    g'.TakesFirst (ds ++ [s]) := by
  intro x
  rw [last, taken, List.flatMap_append, List.flatMap_singleton, firstDefault_append]

theorem Graph.collect_takesFirst {ds : List Sourced} (silent : (collect ds).problems = []) :
    (collect ds).value.TakesFirst (definitionsOf ds ++ extensionsOf ds) := by
  simp only [collect, Reported.summarize_problems, Reported.bind_problems,
    List.append_eq_nil_iff] at silent
  have start : ({} : Graph).TakesFirst [] := by
    intro x
    cases x <;> rfl
  have defined : (Reported.through define {} (definitionsOf ds)).value.TakesFirst
      ([] ++ definitionsOf ds) :=
    Reported.through_accumulates (fun _ _ s member taken own =>
      taken.step (define_default (isExtension_of_definition member) own)) start silent.1
  exact Reported.through_accumulates (fun _ _ s member taken own =>
    taken.step (extend_default (List.mem_filter.mp member).2 own)) defined silent.2

/-- In a buffer that is collected without a report, an argument or input field has the default value
of its first declaration, definitions before extensions, and none if that gives none. -/
theorem default_of_first_declaration (ds : List Sourced)
    (silent : (Graph.collect ds).problems = []) (x : InputName) :
    (Graph.collect ds).value.defaultOf? x =
      ((definitionsOf ds ++ extensionsOf ds).flatMap fun s => s.inputDecls x).head?.map
        fun d => d.default.map Value.canonical :=
  Graph.collect_takesFirst silent x

/-- Lists in pages. An extension stands before what it extends and brings in an order; another one
declares an argument again. -/
def paging : List (Option String × Declaration) := [
  (none, .typeExtension {
    name := "Paging"
    body := .inputObject [
      { name := "order", type := .list (.named "String"), default := some (.string "name") }] }),
  (none, .directive { name := "note", locations := [.argumentDefinition] }),
  (none, .type {
    name := "Paging"
    body := .inputObject [
      { name := "page", type := .named "Int", default := some (.int 1) },
      { name := "size", type := .named "Int" }] }),
  (none, .type {
    name := "Query"
    body := .object [] [
      { name := "books", type := .named "Int"
        arguments := [
          { name := "paging", type := .named "Paging"
            default := some (.object [("size", .int 5), ("page", .int 2)]) }] }] }),
  (none, .typeExtension {
    name := "Query"
    body := .object [] [
      { name := "books", type := .named "Int"
        arguments := [
          { name := "paging", type := .named "Paging", default := some .null
            usages := [{ name := "note" }] }] }] })]

theorem default_of_first_declaration_paging :
    (Graph.collect (given paging)).problems = [] ∧
      (Graph.collect (given paging)).value.defaultOf? (.member "Paging" (.inputField "order")) =
        some (some (.string "name")) ∧
      (Graph.collect (given paging)).value.defaultOf?
          (.member "Query" (.argument "books" "paging")) =
        some (some (.object [("page", .int 2), ("size", .int 5)])) := by
  have silent : (Graph.collect (given paging)).problems = [] :=
    List.isEmpty_iff.mp (by decide +kernel)
  exact ⟨silent, default_of_first_declaration _ silent (.member "Paging" (.inputField "order")),
    default_of_first_declaration _ silent (.member "Query" (.argument "books" "paging"))⟩

/-- The size of a page, declared again with a default value. -/
def pageSize : List (Option String × Declaration) := [
  (none, .directive { name := "note", locations := [.inputFieldDefinition] }),
  (none, .type {
    name := "Paging", body := .inputObject [{ name := "size", type := .named "Int" }] }),
  (none, .type {
    name := "Query"
    body := .object [] [
      { name := "count", type := .named "Int"
        arguments := [{ name := "paging", type := .named "Paging" }] }] }),
  (none, .typeExtension {
    name := "Paging"
    body := .inputObject [
      { name := "size", type := .named "Int", default := some (.int 50)
        usages := [{ name := "note" }] }] })]

/-- Nothing is reported, and the size has no default value. -/
theorem pageSize_default_ignored :
    (Graph.collect (given pageSize)).problems = [] ∧
      ((given pageSize).flatMap fun s =>
          s.inputDecls (.member "Paging" (.inputField "size"))).map InputDecl.default =
        [none, some (.int 50)] ∧
      (Graph.collect (given pageSize)).value.defaultOf? (.member "Paging" (.inputField "size")) =
        some none :=
  ⟨List.isEmpty_iff.mp (by decide +kernel), rfl, rfl⟩

end SchemaAtlas
