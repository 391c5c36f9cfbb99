import SchemaAtlas.Proofs.Acceptance
import SchemaAtlas.Proofs.Concerns
import SchemaAtlas.Proofs.Lawfulness

/-!
# Well-formed graphs

The names of elements, the number of members of each type, and what their types and default values
may be. These rules are spread over the walk through a graph, together with those for usages,
interfaces and cycles. Here they are put together into one condition on the linked graph, and a
report is shown to lack problems of this concern exactly if the condition holds, whatever else is
wrong with the buffer.
-/

namespace SchemaAtlas

/-- Names that start with two underscores are kept free. -/
def Reserved (name : String) : Prop := ['_', '_'] <+: name.toList

namespace Graph

/-- An argument or input field. Nothing is asked of a type that is not known. -/
structure GoodInput (g : Graph) (v : InputValue) : Prop where
  name : ¬ Reserved v.name
  type : ∀ t d, g.resolve v.type.innermost = some (t, d) →
    d.kind = .enum ∨ d.kind = .inputObject ∨ d.kind = .scalar
  default : ∀ t d x, g.resolve v.type.innermost = some (t, d) → v.default = some x →
    x.fits g.types v.type = true
  /-- What must always be given is not deprecated. -/
  deprecation : v.type.isNonNull = true → v.default = none → ∀ u ∈ v.usages, ∀ id d,
    u.definition = some id → g.directiveAt? id = some d → d.builtIn = true → d.name ≠ "deprecated"

structure GoodField (g : Graph) (f : Field) : Prop where
  name : ¬ Reserved f.name
  type : ∀ t d, g.resolve f.type.innermost = some (t, d) → d.kind ≠ .inputObject
  arguments : ∀ v ∈ f.arguments.values, g.GoodInput v

structure GoodEnumValue (v : EnumValue) : Prop where
  name : ¬ Reserved v.name
  literal : v.name ∉ ["true", "false", "null"]

/-- A type has members, unless it is a scalar, and each of them is good. -/
def GoodBody (g : Graph) : TypeBody → Prop
  | .enum values => values.values ≠ [] ∧ ∀ v ∈ values.values, GoodEnumValue v
  | .inputObject fields => fields.values ≠ [] ∧ ∀ v ∈ fields.values, g.GoodInput v
  | .interface shape | .object shape =>
    shape.fields.values ≠ [] ∧ ∀ f ∈ shape.fields.values, g.GoodField f
  | .scalar => True
  | .union members => members.values ≠ [] ∧ ∀ ref ∈ members.values, ∀ t d,
    g.resolve ref = some (t, d) → d.kind = .object

/-- Every definition that is not built in is good. -/
structure WellFormed (g : Graph) : Prop where
  types : ∀ t d, g.typeAt? t = some d → d.builtIn = false → ¬ Reserved d.name ∧ g.GoodBody d.body
  directives : ∀ id d, g.directiveAt? id = some d → d.builtIn = false →
    ¬ Reserved d.name ∧ ∀ v ∈ d.arguments.values, g.GoodInput v

/-! One rule at a time. -/

theorem lacks_checkName_iff {name : String} {location : SourceLocation} {path : ElementPath} :
    Lacks .form (checkName name location path) ↔ ¬ Reserved name := by
  have taken : Reserved name ↔ name.toList.take 2 = ['_', '_'] := by
    rw [Reserved, List.prefix_iff_eq_take, eq_comm]
    rfl
  rw [checkName, taken]
  split
  · next reserved => simp [reserved, Problem.concern]
  · next free => simpa using free

theorem lacks_checkUsages (g : Graph) (location : DirectiveLocation) (owner : ElementPath)
    (us : List Usage) : Lacks .form (g.checkUsages location owner us) :=
  (g.only_checkUsages location owner us).lacks (by decide)

theorem isInput_iff (kind : TypeKind) :
    kind.isInput = true ↔ kind = .enum ∨ kind = .inputObject ∨ kind = .scalar := by
  cases kind <;> decide

theorem lacks_checkInputType_iff (g : Graph) (v : InputValue) (path : ElementPath) :
    Lacks .form (g.checkInputType v path) ↔
      ∀ t d, g.resolve v.type.innermost = some (t, d) →
        d.kind = .enum ∨ d.kind = .inputObject ∨ d.kind = .scalar := by
  simp only [← isInput_iff]
  rw [checkInputType]
  cases found : g.resolve v.type.innermost with
  | none => simp
  | some e =>
    obtain ⟨t, d⟩ := e
    by_cases input : d.kind.isInput = true
    · simp [input]
    · simp [input, Problem.concern]

/-- Where the type can be given as input, the default value must fit it. -/
theorem lacks_checkDefault_iff (g : Graph) (v : InputValue) (path : ElementPath)
    (input : ∀ t d, g.resolve v.type.innermost = some (t, d) → d.kind.isInput = true) :
    Lacks .form (g.checkDefault v path) ↔
      ∀ t d x, g.resolve v.type.innermost = some (t, d) → v.default = some x →
        x.fits g.types v.type = true := by
  rw [checkDefault]
  cases found : g.resolve v.type.innermost with
  | none => simp
  | some e =>
    obtain ⟨t, d⟩ := e
    cases given : v.default with
    | none => simp
    | some x =>
      have target := input t d found
      by_cases fits : x.fits g.types v.type = true
      · simp [target, fits]
      · simp [target, fits, Problem.concern]

theorem isDeprecation_eq_false_iff (g : Graph) (u : Usage) :
    g.isDeprecation u = false ↔
      ∀ id d, u.definition = some id → g.directiveAt? id = some d → d.builtIn = true →
        d.name ≠ "deprecated" := by
  rw [isDeprecation]
  cases defined : u.definition with
  | none => simp
  | some id =>
    cases found : g.directiveAt? id with
    | none =>
      simp only [Option.bind_some, found, true_iff]
      intro id' d same found'
      cases same
      cases found.symm.trans found'
    | some d =>
      simp only [Option.bind_some, found, Bool.and_eq_false_imp, beq_eq_false_iff_ne]
      constructor
      · intro other id' d' same found' builtIn
        cases same
        cases found.symm.trans found'
        exact other builtIn
      · exact fun other => other id d rfl found

theorem isRequired_iff (v : InputValue) :
    v.isRequired = true ↔ v.type.isNonNull = true ∧ v.default = none := by
  simp [InputValue.isRequired]

theorem lacks_checkDeprecation_iff (g : Graph) (v : InputValue) (path : ElementPath) :
    Lacks .form (g.checkDeprecation v path) ↔
      (v.type.isNonNull = true → v.default = none → ∀ u ∈ v.usages, ∀ id d,
        u.definition = some id → g.directiveAt? id = some d → d.builtIn = true →
          d.name ≠ "deprecated") := by
  rw [← and_imp, ← isRequired_iff, checkDeprecation]
  simp only [← isDeprecation_eq_false_iff]
  by_cases required : v.isRequired = true
  · simp [required, Problem.concern]
  · simp [required]

theorem lacks_checkInputValue_iff (g : Graph) (location : DirectiveLocation) (path : ElementPath)
    (v : InputValue) : Lacks .form (g.checkInputValue location path v) ↔ g.GoodInput v := by
  simp only [checkInputValue, lacks_append, lacks_checkName_iff, lacks_checkUsages, and_true,
    lacks_checkInputType_iff, lacks_checkDeprecation_iff]
  constructor
  · rintro ⟨⟨⟨name, type⟩, default⟩, deprecation⟩
    have input := fun t d found => (isInput_iff d.kind).mpr (type t d found)
    exact ⟨name, type, (g.lacks_checkDefault_iff v path input).mp default, deprecation⟩
  · intro good
    have input := fun t d found => (isInput_iff d.kind).mpr (good.type t d found)
    exact ⟨⟨⟨good.name, good.type⟩, (g.lacks_checkDefault_iff v path input).mpr good.default⟩,
      good.deprecation⟩

theorem lacks_checkOutputType_iff (g : Graph) (f : Field) (path : ElementPath) :
    Lacks .form (g.checkOutputType f path) ↔
      ∀ t d, g.resolve f.type.innermost = some (t, d) → d.kind ≠ .inputObject := by
  rw [checkOutputType]
  cases found : g.resolve f.type.innermost with
  | none => simp
  | some e =>
    obtain ⟨t, d⟩ := e
    cases kind : d.kind <;> simp [kind, TypeKind.isOutput, Problem.concern]

theorem forall_values {α : Type} {P : α → Prop} (t : Table α) :
    (∀ v ∈ t.values, P v) ↔ ∀ e ∈ t.entries, P e.2 := by
  simp only [Table.values, List.forall_mem_map]

theorem lacks_arguments_iff (g : Graph) (container : ElementPath) (arguments : Table InputValue) :
    Lacks .form (arguments.entries.flatMap (g.checkArgument container)) ↔
      ∀ v ∈ arguments.values, g.GoodInput v := by
  simp only [lacks_flatMap, checkArgument, lacks_checkInputValue_iff, forall_values]

theorem lacks_checkField_iff (g : Graph) (type : ElementPath) {e : String × Field}
    (named : e.2.name = e.1) : Lacks .form (g.checkField type e) ↔ g.GoodField e.2 := by
  simp only [checkField, lacks_append, lacks_checkName_iff, lacks_checkUsages, and_true,
    lacks_checkOutputType_iff, lacks_arguments_iff, ← named]
  constructor
  · rintro ⟨⟨name, type⟩, arguments⟩
    exact ⟨name, type, arguments⟩
  · intro good
    exact ⟨⟨good.name, good.type⟩, good.arguments⟩

theorem lacks_checkEnumValue_iff (g : Graph) (d : TypeDef) (type : ElementPath)
    {e : String × EnumValue} (named : e.2.name = e.1) :
    Lacks .form (g.checkEnumValue d type e) ↔ GoodEnumValue e.2 := by
  have reserved (path : ElementPath) :
      Lacks .form (checkReserved d path e) ↔ e.2.name ∉ ["true", "false", "null"] := by
    rw [checkReserved, ← named]
    split <;> simp_all [Problem.concern]
  simp only [checkEnumValue, lacks_append, lacks_checkName_iff, lacks_checkUsages, and_true,
    reserved, ← named]
  constructor
  · rintro ⟨name, literal⟩
    exact ⟨name, literal⟩
  · intro good
    exact ⟨good.name, good.literal⟩

theorem lacks_checkMember_iff (g : Graph) (d : TypeDef) (type : ElementPath) (ref : TypeRef) :
    Lacks .form (g.checkMember d type ref) ↔
      ∀ t target, g.resolve ref = some (t, target) → target.kind = .object := by
  rw [checkMember]
  cases found : g.resolve ref with
  | none => simp
  | some e =>
    obtain ⟨t, target⟩ := e
    by_cases object : target.kind = .object <;> simp [TypeDef.isObject, object, Problem.concern]

theorem lacks_checkEmpty_iff {α : Type} (d : TypeDef) (t : Table α) :
    Lacks .form (checkEmpty d t.isEmpty) ↔ t.values ≠ [] := by
  rw [checkEmpty, Table.isEmpty, Table.values]
  cases t.entries <;> simp [Problem.concern]

theorem lacks_checkInterfaces (g : Graph) (t : TypeId) (d : TypeDef) (shape : Shape) :
    Lacks .form (g.checkInterfaces t d shape) :=
  (g.only_checkInterfaces t d shape).lacks (by decide)

end Graph

/-- Fields and enum values are listed under their own names. -/
def TypeBody.MembersNamed : TypeBody → Prop
  | enum values => values.Keyed EnumValue.name
  | interface shape | object shape => shape.fields.Keyed Field.name
  | inputObject _ | scalar | union _ => True

namespace Graph

theorem lacks_fields_iff (g : Graph) (t : TypeId) (d : TypeDef) (path : ElementPath)
    {shape : Shape} (keyed : shape.fields.Keyed Field.name) :
    Lacks .form (checkEmpty d shape.fields.isEmpty ++
        shape.fields.entries.flatMap (g.checkField path) ++
        if shape.fields.isEmpty then [] else g.checkInterfaces t d shape) ↔
      shape.fields.values ≠ [] ∧ ∀ f ∈ shape.fields.values, g.GoodField f := by
  have interfaces :
      Lacks .form (if shape.fields.isEmpty then [] else g.checkInterfaces t d shape) := by
    split
    · exact lacks_nil
    · exact g.lacks_checkInterfaces t d shape
  simp only [lacks_append, interfaces, and_true, lacks_checkEmpty_iff, lacks_flatMap, forall_values]
  exact and_congr_right fun _ => forall₂_congr fun e member =>
    g.lacks_checkField_iff path (keyed.named e member)

theorem lacks_checkBody_iff (g : Graph) (t : TypeId) (d : TypeDef) (path : ElementPath)
    (named : d.body.MembersNamed) :
    Lacks .form (g.checkBody t d path) ↔ g.GoodBody d.body := by
  rw [checkBody]
  cases body : d.body with
  | enum values =>
    rw [body] at named
    simp only [lacks_append, lacks_checkEmpty_iff, lacks_flatMap, GoodBody, forall_values]
    exact and_congr_right fun _ => forall₂_congr fun e member =>
      g.lacks_checkEnumValue_iff d path (named.named e member)
  | inputObject fields =>
    simp only [lacks_append, lacks_checkEmpty_iff, lacks_flatMap, GoodBody, forall_values,
      checkInputField, lacks_checkInputValue_iff]
  | interface shape =>
    rw [body] at named
    exact g.lacks_fields_iff t d path named
  | object shape =>
    rw [body] at named
    exact g.lacks_fields_iff t d path named
  | scalar => simp [GoodBody]
  | union members =>
    simp only [lacks_append, lacks_checkEmpty_iff, lacks_flatMap, GoodBody, lacks_checkMember_iff]

/-- All rules of this concern, for all definitions. -/
theorem lacks_violations_iff {g : Graph}
    (named : ∀ t d, g.typeAt? t = some d → d.body.MembersNamed) :
    Lacks .form g.violations ↔ g.WellFormed := by
  have block : Lacks .form g.checkBlock := by
    rw [checkBlock]
    split
    · exact g.lacks_checkUsages ..
    · exact lacks_nil
  have type (t : TypeId) (d : TypeDef) (found : g.typeAt? t = some d) :
      Lacks .form (g.checkType (t, d)) ↔ ¬ Reserved d.name ∧ g.GoodBody d.body := by
    simp only [checkType, lacks_append, lacks_checkName_iff, lacks_checkUsages, and_true,
      g.lacks_checkBody_iff t d _ (named t d found)]
  have directive (id : DirectiveId) (d : DirectiveDef) :
      Lacks .form (g.checkDirective (id, d)) ↔
        ¬ Reserved d.name ∧ ∀ v ∈ d.arguments.values, g.GoodInput v := by
    rw [checkDirective, lacks_append, lacks_checkName_iff, lacks_arguments_iff]
  have inputCycles := g.only_inputCycles.lacks (by decide : _ ≠ Concern.form)
  have directiveCycles := g.only_directiveCycles.lacks (by decide : _ ≠ Concern.form)
  simp only [violations, lacks_append, block, inputCycles, directiveCycles, and_true,
    lacks_flatMap]
  constructor
  · rintro ⟨types, directives⟩
    refine ⟨fun t d found own => ?_, fun id d found own => ?_⟩
    · exact (type t d found).mp (types (t, d) ((g.mem_ownTypes t d).mpr ⟨found, own⟩))
    · exact (directive id d).mp
        (directives (id, d) ((g.mem_ownDirectives id d).mpr ⟨found, own⟩))
  · intro good
    refine ⟨?_, ?_⟩
    · rintro ⟨t, d⟩ member
      obtain ⟨found, own⟩ := (g.mem_ownTypes t d).mp member
      exact (type t d found).mpr (good.types t d found own)
    · rintro ⟨id, d⟩ member
      obtain ⟨found, own⟩ := (g.mem_ownDirectives id d).mp member
      exact (directive id d).mpr (good.directives id d found own)

theorem linked_membersNamed {g : Graph} (fresh : g.Fresh) (t : TypeId) (d : TypeDef)
    (found : g.linked.typeAt? t = some d) : d.body.MembersNamed := by
  rw [linked_typeAt?, typeAt?, Option.map_map, Option.map_eq_some_iff] at found
  obtain ⟨⟨name, old⟩, collected, rfl⟩ := found
  have body := (fresh.types.each _ ((Table.mem_entries_iff _ _).mpr ⟨_, collected⟩)).body
  show (g.names.linkBody t old.body).MembersNamed
  cases collected_body : old.body with
  | enum values =>
    rw [collected_body] at body
    exact body.toKeyed.mapIdx fun _ _ => rfl
  | interface shape =>
    rw [collected_body] at body
    exact body.fields.toKeyed.mapIdx fun _ _ => rfl
  | object shape =>
    rw [collected_body] at body
    exact body.fields.toKeyed.mapIdx fun _ _ => rfl
  | inputObject fields => trivial
  | scalar => trivial
  | union members => trivial

end Graph

/-- A report lacks problems with names, numbers of members, positions of types, default values and
deprecation exactly if the linked graph is well formed, with or without other problems. -/
theorem lacks_form_iff_wellFormed (required : Bool) (declarations : List Sourced)
    (noExecutable : firstExecutable? declarations = none) :
    (∀ d ∈ (analyze required declarations).problems, d.problem.concern ≠ .form) ↔
      (Graph.described declarations).linked.WellFormed := by
  have fresh := Graph.described_fresh declarations
  have collected := (Graph.only_collect (BuiltIn.declarations ++ declarations)).lacks
    (by decide : _ ≠ Concern.form)
  have dangling := (Graph.described declarations).only_danglingNames.lacks
    (by decide : _ ≠ Concern.form)
  have rooted := ((Graph.described declarations).linked.only_resolveRoot required).lacks
    (by decide : _ ≠ Concern.form)
  rw [analyze_problems required noExecutable, analyzeGraph_problems, ← lacks_iff]
  simp only [lacks_append, collected, dangling, rooted, true_and, and_true]
  exact Graph.lacks_violations_iff (Graph.linked_membersNamed fresh)

/-- An input field that must be given is added by an extension, and deprecated at once. -/
def retired : List (Option String × Declaration) := [
  (none, .type {
    name := "Search"
    body := .inputObject [{ name := "word", type := .named "String" }] }),
  (none, .typeExtension {
    name := "Search"
    body := .inputObject [
      { name := "limit"
        type := .nonNull (.named "Int")
        usages := [{ name := "deprecated" }] }] })]

/-- The types of the bookshop alone leave a name open and are well formed all the same; the
retired field is not. -/
theorem lacks_form_iff_wellFormed_retired :
    (analyze true (given (bookshopTypes.map (none, ·)))).problems ≠ [] ∧
    (Graph.described (given (bookshopTypes.map (none, ·)))).linked.WellFormed ∧
    ¬ (Graph.described (given retired)).linked.WellFormed := by
  have types := lacks_form_iff_wellFormed true (given (bookshopTypes.map (none, ·))) rfl
  have field := lacks_form_iff_wellFormed true (given retired) rfl
  rw [← types, ← field]
  refine ⟨?_, ?_, ?_⟩
  · rw [← List.isEmpty_eq_false_iff]
    decide +kernel
  · decide +kernel
  · decide +kernel

end SchemaAtlas
