import SchemaAtlas.Proofs.BuiltIns
import SchemaAtlas.Proofs.Gathering

/-!
# Extensions

A graph collected without a report holds what its declarations say and nothing else. Each element
sums up all of its declarations, definition first and then extensions in order: the names of its
members, and the directive usages written on it. The types and directives are those that have a
definition.
-/

namespace SchemaAtlas

/-! What declarations say of one element. Each comes with the document it stands in. -/

/-- A directive usage as written, with its place and its literals in canonical form. -/
def UsageDecl.written (origin : Origin) (d : UsageDecl) : Usage :=
  { name := d.name, location := origin.locate d.pos
    arguments := ⟨d.arguments.map fun a => (a.1, a.2.canonical)⟩ }

/-- The usages of several declarations, one after the other. -/
def writtenUsages {δ : Type} (usages : δ → List UsageDecl) (ws : List (Origin × δ)) :
    List Usage :=
  ws.flatMap fun w => (usages w.2).map (UsageDecl.written w.1)

namespace BodyDecl

def enumValues : BodyDecl → List EnumValueDecl
  | enum values => values
  | _ => []

def inputFields : BodyDecl → List InputDecl
  | inputObject fields => fields
  | _ => []

def fields : BodyDecl → List FieldDecl
  | interface _ fields | object _ fields => fields
  | _ => []

def implements : BodyDecl → List String
  | interface implements _ | object implements _ => implements
  | _ => []

def members : BodyDecl → List String
  | union members => members
  | _ => []

end BodyDecl

/-- What a definition or extension says of a type. -/
structure TypePart where
  usages : List UsageDecl
  body : BodyDecl

namespace Sourced

def typeName? (s : Sourced) : Option String :=
  match s.declaration with
  | .type d => some d.name
  | _ => none

def directiveName? (s : Sourced) : Option String :=
  match s.declaration with
  | .directive d => some d.name
  | _ => none

def extendedName? (s : Sourced) : Option String :=
  match s.declaration with
  | .typeExtension e => some e.name
  | _ => none

def typePart? (name : String) (s : Sourced) : Option (Origin × TypePart) :=
  match s.declaration with
  | .type d => if d.name = name then some (s.origin, ⟨d.usages, d.body⟩) else none
  | .typeExtension e => if e.name = name then some (s.origin, ⟨e.usages, e.body⟩) else none
  | _ => none

def schemaDefinition? (s : Sourced) : Option (Origin × SchemaDecl) :=
  match s.declaration with
  | .schema d => some (s.origin, d)
  | _ => none

def schemaPart? (s : Sourced) : Option (Origin × SchemaDecl) :=
  match s.declaration with
  | .schema d | .schemaExtension d => some (s.origin, d)
  | _ => none

end Sourced

/-! When an element sums up its declarations. -/

def InputValue.Sums (v : InputValue) (ws : List (Origin × InputDecl)) : Prop :=
  v.usages = writtenUsages InputDecl.usages ws

def EnumValue.Sums (v : EnumValue) (ws : List (Origin × EnumValueDecl)) : Prop :=
  v.usages = writtenUsages EnumValueDecl.usages ws

/-- An interface or a member is listed once. -/
def TypeRef.Sums (r : TypeRef) (names : List String) : Prop := names = [r.name]

structure Field.Sums (f : Field) (ws : List (Origin × FieldDecl)) : Prop where
  usages : f.usages = writtenUsages FieldDecl.usages ws
  arguments : f.arguments.Merges (fun w => w.2.name) InputValue.Sums
    (ws.map fun w => w.2.arguments.map (w.1, ·))

structure Shape.Sums (s : Shape) (ws : List (Origin × BodyDecl)) : Prop where
  fields : s.fields.Merges (fun w => w.2.name) Field.Sums (ws.map fun w => w.2.fields.map (w.1, ·))
  implements : s.implements.Merges id TypeRef.Sums (ws.map fun w => w.2.implements)

def TypeBody.Sums (b : TypeBody) (ws : List (Origin × BodyDecl)) : Prop :=
  match b with
  | .enum values => values.Merges (fun w => w.2.name) EnumValue.Sums
      (ws.map fun w => w.2.enumValues.map (w.1, ·))
  | .inputObject fields => fields.Merges (fun w => w.2.name) InputValue.Sums
      (ws.map fun w => w.2.inputFields.map (w.1, ·))
  | .interface shape | .object shape => shape.Sums ws
  | .scalar => True
  | .union members => members.Merges id TypeRef.Sums (ws.map fun w => w.2.members)

structure TypeDef.Sums (d : TypeDef) (ws : List (Origin × TypePart)) : Prop where
  kind : ∀ w ∈ ws, w.2.body.kind = d.kind
  usages : d.usages = writtenUsages TypePart.usages ws
  body : d.body.Sums (ws.map fun w => (w.1, w.2.body))

structure SchemaBlock.Sums (b : SchemaBlock) (ws : List (Origin × SchemaDecl)) : Prop where
  usages : b.usages = writtenUsages SchemaDecl.usages ws
  operations : b.operations = ws.flatMap fun w =>
    w.2.bindings.map fun o => ⟨o.1, { name := o.2, location := w.1.locate w.2.pos }⟩

/-- The types are those that have a definition, and every extension is of one of them. -/
structure Table.SumsTypes (t : Table TypeDef) (ds : List Sourced) : Prop where
  distinct : t.keys.Nodup
  keys : t.keys = ds.filterMap Sourced.typeName?
  parts : ∀ e ∈ t.entries, e.2.Sums (ds.filterMap (Sourced.typePart? e.1))
  extended : ∀ name ∈ ds.filterMap Sourced.extendedName?, name ∈ t.keys

structure Table.SumsDirectives (t : Table DirectiveDef) (ds : List Sourced) : Prop where
  distinct : t.keys.Nodup
  keys : t.keys = ds.filterMap Sourced.directiveName?

/-- There is a schema block if there is one definition of it, and none if there is nothing on it. -/
structure SumsBlock (block : Option SchemaBlock) (ds : List Sourced) : Prop where
  defined : (ds.filterMap Sourced.schemaDefinition?).length = block.toList.length
  parts : ∀ b ∈ block, b.Sums (ds.filterMap Sourced.schemaPart?)
  absent : block = none → ds.filterMap Sourced.schemaPart? = []

/-- A graph holds what declarations say and nothing else. The parts of an element are taken in the
order of the declarations, so its definition is the first of them if definitions come first. -/
structure Graph.Sums (g : Graph) (ds : List Sourced) : Prop where
  types : g.types.SumsTypes ds
  directives : g.directives.SumsDirectives ds
  block : SumsBlock g.block ds

/-! What is read by itself sums up one declaration. -/

theorem writtenUsages_append {δ : Type} (usages : δ → List UsageDecl)
    (vs ws : List (Origin × δ)) :
    writtenUsages usages (vs ++ ws) = writtenUsages usages vs ++ writtenUsages usages ws :=
  List.flatMap_append

theorem writtenUsages_singleton {δ : Type} (usages : δ → List UsageDecl) (w : Origin × δ) :
    writtenUsages usages [w] = (usages w.2).map (UsageDecl.written w.1) :=
  List.flatMap_singleton _ _

@[simp] theorem reportDuplicate_problems (listed : Listed) (name : String)
    (container : ElementPath) (location : SourceLocation) :
    (reportDuplicate listed name container location).problems ≠ [] :=
  report_problems _ _ _

namespace Collect

theorem usage_written {origin : Origin} {owner : ElementPath} {d : UsageDecl}
    (silent : (usage origin owner d).problems = []) :
    (usage origin owner d).value = d.written origin := by
  simp only [usage, Reported.bind_problems, Reported.pure_problems, List.append_nil] at silent
  have distinct := (gather_silent (fun _ => report_problems _ _ _) _ .empty List.nodup_nil silent).1
  simp only [usage, Reported.bind_value, Reported.pure_value, gather_value _ _ distinct]
  rfl

theorem usages_written {origin : Origin} {owner : ElementPath} {ds : List UsageDecl}
    (silent : (usages origin owner ds).problems = []) :
    (usages origin owner ds).value = ds.map (UsageDecl.written origin) := by
  rw [usages, Reported.each_problems, List.flatMap_eq_nil_iff] at silent
  rw [usages, Reported.each_value]
  exact List.map_congr_left fun d member => usage_written (silent d member)

theorem inputValue_sums {origin : Origin} {container : ElementPath}
    {segment : String → PathSegment} (d : InputDecl)
    (silent : (inputValue origin container segment d).problems = []) :
    (inputValue origin container segment d).value.Sums [(origin, d)] := by
  simp only [inputValue, Reported.bind_problems, Reported.pure_problems, List.append_nil] at silent
  rw [InputValue.Sums, writtenUsages_singleton]
  exact usages_written silent

theorem enumValue_sums {origin : Origin} {type : ElementPath} (d : EnumValueDecl)
    (silent : (enumValue origin type d).problems = []) :
    (enumValue origin type d).value.Sums [(origin, d)] := by
  simp only [enumValue, Reported.bind_problems, Reported.pure_problems, List.append_nil] at silent
  rw [EnumValue.Sums, writtenUsages_singleton]
  exact usages_written silent

theorem inputValues_merges {origin : Origin} {container : ElementPath} {listed : Listed}
    {segment : String → PathSegment} {ds : List InputDecl}
    (silent : (inputValues origin container listed segment ds).problems = []) :
    (inputValues origin container listed segment ds).value.Merges (fun w => w.2.name)
      InputValue.Sums [ds.map (origin, ·)] :=
  gather_merges (origin, ·) (fun _ => rfl) (fun _ => reportDuplicate_problems _ _ _ _)
    inputValue_sums .empty silent

theorem field_sums {origin : Origin} {type : ElementPath} (d : FieldDecl)
    (silent : (field origin type d).problems = []) :
    (field origin type d).value.Sums [(origin, d)] := by
  simp only [field, Reported.bind_problems, Reported.pure_problems, List.append_nil,
    List.append_eq_nil_iff] at silent
  constructor
  · rw [writtenUsages_singleton]
    exact usages_written silent.2
  · exact inputValues_merges silent.1

theorem fields_merges {origin : Origin} {type : ElementPath} {ds : List FieldDecl}
    (silent : (fields origin type ds).problems = []) :
    (fields origin type ds).value.Merges (fun w => w.2.name) Field.Sums [ds.map (origin, ·)] :=
  gather_merges (origin, ·) (fun _ => rfl) (fun _ => reportDuplicate_problems _ _ _ _)
    field_sums .empty silent

theorem enumValues_merges {origin : Origin} {type : ElementPath} {ds : List EnumValueDecl}
    (silent : (enumValues origin type ds).problems = []) :
    (enumValues origin type ds).value.Merges (fun w => w.2.name) EnumValue.Sums
      [ds.map (origin, ·)] :=
  gather_merges (origin, ·) (fun _ => rfl) (fun _ => reportDuplicate_problems _ _ _ _)
    enumValue_sums .empty silent

theorem typeRef_sums (location : SourceLocation) (name : String) :
    TypeRef.Sums { name, location } [id name] := rfl

/-- Names are listed in a table that may hold others already. -/
theorem typeRefs_merges {location : SourceLocation} {type : ElementPath} {listed : Listed}
    {old : Table TypeRef} {written : List (List String)} {names : List String}
    (merged : old.Merges id TypeRef.Sums written)
    (silent : (gather id (fun name => reportDuplicate listed name type location)
      (fun name => pure { name, location }) old names).problems = []) :
    (gather id (fun name => reportDuplicate listed name type location)
      (fun name => pure { name, location }) old names).value.Merges id TypeRef.Sums
      (written ++ [names]) := by
  have grown := gather_merges id (fun _ => rfl) (fun _ => reportDuplicate_problems _ _ _ _)
    (fun name _ => typeRef_sums location name) merged silent
  rw [List.map_id] at grown
  exact grown

theorem body_sums {origin : Origin} {location : SourceLocation} {type : ElementPath}
    {d : BodyDecl} (silent : (body origin location type d).problems = []) :
    (body origin location type d).value.kind = d.kind ∧
      (body origin location type d).value.Sums [(origin, d)] := by
  cases d with
  | enum values =>
    simp only [body, Reported.bind_problems, Reported.pure_problems, List.append_nil] at silent
    exact ⟨rfl, enumValues_merges silent⟩
  | inputObject fs =>
    simp only [body, Reported.bind_problems, Reported.pure_problems, List.append_nil] at silent
    exact ⟨rfl, inputValues_merges silent⟩
  | interface implements fs | object implements fs =>
    simp only [body, Reported.bind_problems, Reported.pure_problems, List.append_nil,
      List.append_eq_nil_iff] at silent
    exact ⟨rfl, fields_merges silent.1, typeRefs_merges .empty silent.2⟩
  | scalar => exact ⟨rfl, trivial⟩
  | union members =>
    simp only [body, Reported.bind_problems, Reported.pure_problems, List.append_nil] at silent
    exact ⟨rfl, typeRefs_merges .empty silent⟩

theorem typeDef_sums {origin : Origin} {d : TypeDecl}
    (silent : (typeDef origin d).problems = []) :
    (typeDef origin d).value.Sums [(origin, ⟨d.usages, d.body⟩)] := by
  simp only [typeDef, Reported.bind_problems, Reported.pure_problems, List.append_nil,
    List.append_eq_nil_iff] at silent
  obtain ⟨kind, members⟩ := body_sums silent.2
  refine ⟨?_, ?_, members⟩
  · intro w member
    obtain rfl := List.mem_singleton.mp member
    exact kind.symm
  · rw [writtenUsages_singleton]
    exact usages_written silent.1

theorem block_sums {origin : Origin} {d : SchemaDecl}
    (silent : (block origin d).problems = []) :
    (block origin d).value.Sums [(origin, d)] := by
  simp only [block, Reported.bind_problems, Reported.pure_problems, List.append_nil] at silent
  constructor
  · rw [writtenUsages_singleton]
    exact usages_written silent
  · exact (List.flatMap_singleton _ _).symm

end Collect

/-! What is declared again sums up one declaration more. -/

namespace Extend

theorem keepOld_problems {α : Type} (listed : Listed) (type : ElementPath) (name : α → String)
    (location : α → SourceLocation) (old new : α) :
    (keepOld listed type name location old new).problems ≠ [] := by
  simp [keepOld]

theorem argument_sums {field : ElementPath} {old new : InputValue}
    {before : List (Origin × InputDecl)} {w : Origin × InputDecl} (sum : old.Sums before)
    (read : new.Sums [w]) (silent : (argument field old new).problems = []) :
    (argument field old new).value.Sums (before ++ [w]) := by
  rw [argument] at silent ⊢
  by_cases same : old.type.equivalent new.type = true
  · simp only [same, Bool.not_true, Bool.false_eq_true, if_false, Reported.pure_value]
    rw [InputValue.Sums, writtenUsages_append, ← sum, ← read]
  · simp [same] at silent

theorem inputField_sums {type : ElementPath} {old new : InputValue}
    {before : List (Origin × InputDecl)} {w : Origin × InputDecl} (sum : old.Sums before)
    (read : new.Sums [w]) (silent : (inputField type old new).problems = []) :
    (inputField type old new).value.Sums (before ++ [w]) := by
  rw [inputField] at silent ⊢
  by_cases same : old.type.equivalent new.type = true
  · by_cases nothing : new.usages.isEmpty = true
    · simp [same, nothing] at silent
    · simp only [same, nothing, Bool.not_true, Bool.false_eq_true, if_false, Reported.pure_value]
      rw [InputValue.Sums, writtenUsages_append, ← sum, ← read]
  · simp [same] at silent

/-- A field is declared again without a report. -/
theorem field_silent {type : ElementPath} {old new : Field}
    (silent : (field type old new).problems = []) :
    (absorb (argument (type.child (.field new.name))) old.arguments
      new.arguments.entries).problems = [] ∧
    (field type old new).value = { old with
      usages := old.usages ++ new.usages
      arguments := (absorb (argument (type.child (.field new.name))) old.arguments
        new.arguments.entries).value } := by
  rw [field] at silent ⊢
  by_cases same : old.type.equivalent new.type = true
  · by_cases nothing :
        (new.usages.isEmpty && !new.arguments.entries.any (argumentAdds old)) = true
    · simp [same, nothing] at silent
    · simp only [same, nothing, Bool.not_true, Bool.false_eq_true, if_false,
        Reported.bind_problems, Reported.bind_value, Reported.pure_problems, Reported.pure_value,
        List.append_nil] at silent ⊢
      exact ⟨silent, trivial⟩
  · simp [same] at silent

theorem field_sums {origin : Origin} {type : ElementPath} {old : Field}
    {before : List (Origin × FieldDecl)} {d : FieldDecl} (sum : old.Sums before)
    (readable : (Collect.field origin type d).problems = [])
    (silent : (field type old (Collect.field origin type d).value).problems = []) :
    (field type old (Collect.field origin type d).value).value.Sums (before ++ [(origin, d)]) := by
  have read := Collect.field_sums d readable
  -- one level down, the arguments are taken in as the fields of a type are
  obtain ⟨absorbed, value⟩ := field_silent silent
  simp only [Collect.field, Reported.bind_problems, List.append_eq_nil_iff] at readable
  rw [value]
  constructor
  · rw [writtenUsages_append, ← sum.usages, ← read.usages]
  · rw [List.map_append]
    exact absorb_merges (origin, ·) (fun _ => rfl) (fun _ => reportDuplicate_problems _ _ _ _)
      Collect.inputValue_sums
      (fun a _ _ own known => argument_sums known (Collect.inputValue_sums a own))
      sum.arguments readable.1 absorbed

theorem fields_merges {origin : Origin} {type : ElementPath} {old : Table Field}
    {written : List (List (Origin × FieldDecl))} {ds : List FieldDecl}
    (merged : old.Merges (fun w => w.2.name) Field.Sums written)
    (readable : (Collect.fields origin type ds).problems = [])
    (silent : (absorb (field type) old (Collect.fields origin type ds).value.entries).problems
      = []) :
    (absorb (field type) old (Collect.fields origin type ds).value.entries).value.Merges
      (fun w => w.2.name) Field.Sums (written ++ [ds.map (origin, ·)]) :=
  absorb_merges (origin, ·) (fun _ => rfl) (fun _ => reportDuplicate_problems _ _ _ _)
    Collect.field_sums (fun _ _ _ own known => field_sums known own) merged readable silent

theorem implements_merges {location : SourceLocation} {type : ElementPath} {listed : Listed}
    {old : Table TypeRef} {written : List (List String)} {names : List String}
    (merged : old.Merges id TypeRef.Sums written)
    (readable : (Collect.typeRefs location type listed names).problems = [])
    (silent : (absorb (keepOld listed type TypeRef.name TypeRef.location) old
      (Collect.typeRefs location type listed names).value.entries).problems = []) :
    (absorb (keepOld listed type TypeRef.name TypeRef.location) old
      (Collect.typeRefs location type listed names).value.entries).value.Merges id TypeRef.Sums
      (written ++ [names]) := by
  have grown := absorb_merges id (fun _ => rfl) (fun _ => reportDuplicate_problems _ _ _ _)
    (fun name _ => Collect.typeRef_sums location name)
    (fun _ _ _ _ _ loud => absurd loud (keepOld_problems _ _ _ _ _ _)) merged readable silent
  rw [List.map_id] at grown
  exact grown

theorem shape_sums {origin : Origin} {location : SourceLocation} {type : ElementPath}
    {implements : List String} {fields : List FieldDecl} {old : Shape}
    {ws : List (Origin × BodyDecl)} {d : BodyDecl} (named : d.implements = implements)
    (declared : d.fields = fields) (sum : old.Sums ws)
    (silent : (shape origin location type implements fields old).problems = []) :
    (shape origin location type implements fields old).value.Sums (ws ++ [(origin, d)]) := by
  simp only [shape, Reported.bind_problems, Reported.pure_problems, List.append_nil,
    List.append_eq_nil_iff] at silent
  obtain ⟨implementsRead, fieldsRead, implementsMerged, fieldsMerged⟩ := silent
  subst named declared
  constructor
  · rw [List.map_append]
    exact fields_merges sum.fields fieldsRead fieldsMerged
  · rw [List.map_append]
    exact implements_merges sum.implements implementsRead implementsMerged

theorem body_sums {origin : Origin} {location : SourceLocation} {type : ElementPath}
    {d : BodyDecl} {old : TypeBody} {ws : List (Origin × BodyDecl)} (kind : old.kind = d.kind)
    (sum : old.Sums ws) (silent : (body origin location type d old).problems = []) :
    (body origin location type d old).value.Sums (ws ++ [(origin, d)]) := by
  cases d with
  | enum values =>
    cases old with
    | enum old =>
      simp only [body, Reported.bind_problems, Reported.pure_problems, List.append_nil,
        List.append_eq_nil_iff] at silent
      have merged := absorb_merges (origin, ·) (fun _ => rfl)
        (fun _ => reportDuplicate_problems _ _ _ _) Collect.enumValue_sums
        (fun _ _ _ _ _ loud => absurd loud (keepOld_problems _ _ _ _ _ _)) sum silent.1 silent.2
      refine (?_ : Table.Merges _ _ _ ((ws ++ [_]).map _))
      rw [List.map_append]
      exact merged
    | _ => cases kind
  | inputObject fields =>
    cases old with
    | inputObject old =>
      simp only [body, Reported.bind_problems, Reported.pure_problems, List.append_nil,
        List.append_eq_nil_iff] at silent
      have merged := absorb_merges (origin, ·) (fun _ => rfl)
        (fun _ => reportDuplicate_problems _ _ _ _) Collect.inputValue_sums
        (fun a _ _ own known => inputField_sums known (Collect.inputValue_sums a own))
        sum silent.1 silent.2
      refine (?_ : Table.Merges _ _ _ ((ws ++ [_]).map _))
      rw [List.map_append]
      exact merged
    | _ => cases kind
  | interface implements fields =>
    cases old with
    | interface old =>
      simp only [body, Reported.bind_problems, Reported.pure_problems, List.append_nil] at silent
      exact shape_sums rfl rfl sum silent
    | _ => cases kind
  | object implements fields =>
    cases old with
    | object old =>
      simp only [body, Reported.bind_problems, Reported.pure_problems, List.append_nil] at silent
      exact shape_sums rfl rfl sum silent
    | _ => cases kind
  | scalar =>
    cases old with
    | scalar => trivial
    | _ => cases kind
  | union members =>
    cases old with
    | union old =>
      simp only [body, Reported.bind_problems, Reported.pure_problems, List.append_nil] at silent
      refine (?_ : Table.Merges _ _ _ ((ws ++ [_]).map _))
      rw [List.map_append]
      exact Collect.typeRefs_merges sum silent
    | _ => cases kind

end Extend

/-! One declaration at a time. -/

section Steps

variable {t : Table TypeDef} {ds : List Sourced} {s : Sourced}

theorem filterMap_concat_of_none {α : Type} {f : Sourced → Option α} (none : f s = none) :
    (ds ++ [s]).filterMap f = ds.filterMap f := by
  simp [none]

/-- A declaration that neither defines nor extends a type is a part of none. -/
theorem typePart?_eq_none (undefined : s.typeName? = none) (unextended : s.extendedName? = none)
    (name : String) : s.typePart? name = none := by
  obtain ⟨origin, declaration⟩ := s
  cases declaration with
  | type d => cases undefined
  | typeExtension e => cases unextended
  | _ => rfl

theorem Table.SumsTypes.skip (sum : t.SumsTypes ds) (undefined : s.typeName? = none)
    (unextended : s.extendedName? = none) : t.SumsTypes (ds ++ [s]) where
  distinct := sum.distinct
  keys := by rw [filterMap_concat_of_none undefined, sum.keys]
  parts := by
    intro e member
    rw [filterMap_concat_of_none (typePart?_eq_none undefined unextended e.1)]
    exact sum.parts e member
  extended := by
    rw [filterMap_concat_of_none unextended]
    exact sum.extended

theorem Table.SumsDirectives.skip {t : Table DirectiveDef} (sum : t.SumsDirectives ds)
    (undefined : s.directiveName? = none) : t.SumsDirectives (ds ++ [s]) where
  distinct := sum.distinct
  keys := by rw [filterMap_concat_of_none undefined, sum.keys]

theorem SumsBlock.skip {block : Option SchemaBlock} (sum : SumsBlock block ds)
    (undefined : s.schemaDefinition? = none) (unextended : s.schemaPart? = none) :
    SumsBlock block (ds ++ [s]) where
  defined := by rw [filterMap_concat_of_none undefined, sum.defined]
  parts := by
    rw [filterMap_concat_of_none unextended]
    exact sum.parts
  absent := by
    rw [filterMap_concat_of_none unextended]
    exact sum.absent

/-- Nothing has been said of a type that is not there. -/
theorem Table.SumsTypes.unheard (sum : t.SumsTypes ds) {name : String} (absent : name ∉ t.keys) :
    ds.filterMap (Sourced.typePart? name) = [] := by
  rw [List.filterMap_eq_nil_iff]
  intro s member
  cases found : s.declaration with
  | type d =>
    have other : d.name ≠ name := by
      rintro rfl
      rw [sum.keys] at absent
      exact absent (List.mem_filterMap.mpr ⟨s, member, by simp [Sourced.typeName?, found]⟩)
    simp [Sourced.typePart?, found, other]
  | typeExtension e =>
    have other : e.name ≠ name := by
      rintro rfl
      exact absent (sum.extended _
        (List.mem_filterMap.mpr ⟨s, member, by simp [Sourced.extendedName?, found]⟩))
    simp [Sourced.typePart?, found, other]
  | _ => simp [Sourced.typePart?, found]

theorem Table.SumsTypes.define (sum : t.SumsTypes ds) {origin : Origin} {d : TypeDecl}
    (absent : d.name ∉ t.keys) (readable : (Collect.typeDef origin d).problems = []) :
    (t.push d.name (Collect.typeDef origin d).value).SumsTypes
      (ds ++ [⟨origin, .type d⟩]) where
  distinct := Table.nodup_keys_push sum.distinct absent
  keys := by simp [sum.keys, Sourced.typeName?]
  parts := by
    intro e member
    rcases List.mem_append.mp member with old | new
    · have other : d.name ≠ e.1 := fun same => absent (same ▸ List.mem_map.mpr ⟨e, old, rfl⟩)
      rw [filterMap_concat_of_none (by simp [Sourced.typePart?, other])]
      exact sum.parts e old
    · obtain rfl := List.mem_singleton.mp new
      rw [List.filterMap_append, sum.unheard absent]
      simpa [Sourced.typePart?] using Collect.typeDef_sums readable
  extended := by
    intro name listed
    rw [filterMap_concat_of_none rfl] at listed
    rw [Table.keys_push]
    exact List.mem_append_left _ (sum.extended name listed)

theorem Table.SumsTypes.extend (sum : t.SumsTypes ds) {origin : Origin} {e : TypeExtension}
    {old merged : TypeDef} (found : t.get? e.name = some old)
    (one : ∀ before, old.Sums before →
      merged.Sums (before ++ [(origin, ⟨e.usages, e.body⟩)])) :
    (t.modify e.name fun _ => merged).SumsTypes (ds ++ [⟨origin, .typeExtension e⟩]) := by
  have stored := (Table.get?_eq_some_iff sum.distinct _ _).mp found
  refine ⟨by simpa using sum.distinct, by simp [sum.keys, Sourced.typeName?], ?_, ?_⟩
  · intro x member
    obtain ⟨⟨name, d⟩, present, rfl⟩ := List.mem_map.mp member
    by_cases same : name = e.name
    · subst same
      rw [List.filterMap_append]
      simpa [Sourced.typePart?] using one _ (sum.parts _ stored)
    · have other : e.name ≠ name := fun h => same h.symm
      rw [if_neg same, filterMap_concat_of_none (by simp [Sourced.typePart?, other])]
      exact sum.parts _ present
  · intro name listed
    rw [Table.keys_modify]
    rw [List.filterMap_append] at listed
    rcases List.mem_append.mp listed with earlier | last
    · exact sum.extended name earlier
    · obtain rfl : name = e.name := by simpa [Sourced.extendedName?] using last
      exact List.mem_map.mpr ⟨_, stored, rfl⟩

theorem SumsBlock.define (sum : SumsBlock none ds) {origin : Origin} {d : SchemaDecl}
    (readable : (Collect.block origin d).problems = []) :
    SumsBlock (some (Collect.block origin d).value) (ds ++ [⟨origin, .schema d⟩]) where
  defined := by simp [sum.defined, Sourced.schemaDefinition?]
  parts := by
    intro b own
    obtain rfl := Option.some.inj own
    rw [List.filterMap_append, sum.absent rfl]
    exact Collect.block_sums readable
  absent := nofun

theorem SumsBlock.extend {old merged : SchemaBlock} (sum : SumsBlock (some old) ds)
    {origin : Origin} {d : SchemaDecl}
    (one : ∀ before, old.Sums before → merged.Sums (before ++ [(origin, d)])) :
    SumsBlock (some merged) (ds ++ [⟨origin, .schemaExtension d⟩]) where
  defined := by
    rw [filterMap_concat_of_none rfl, sum.defined]
    rfl
  parts := by
    intro b own
    obtain rfl := Option.some.inj own
    rw [List.filterMap_append]
    exact one _ (sum.parts old rfl)
  absent := nofun

end Steps

namespace Graph

variable {g : Graph} {ds : List Sourced} {s : Sourced}

theorem empty_sums : ({} : Graph).Sums [] where
  types := ⟨List.nodup_nil, rfl, by simp [Table.empty], by simp⟩
  directives := ⟨List.nodup_nil, rfl⟩
  block := ⟨rfl, nofun, fun _ => rfl⟩

/-- A definition is the first part of its element. -/
theorem define_sums (sum : g.Sums ds) (definition : s.declaration.isExtension = false)
    (silent : (g.define s).problems = []) : (g.define s).value.Sums (ds ++ [s]) := by
  obtain ⟨origin, declaration⟩ := s
  cases declaration with
  | type d =>
    obtain ⟨absent, readable⟩ := (g.defineType_problems_iff origin d).mp silent
    rw [define, g.defineType_value origin d absent]
    exact ⟨sum.types.define absent readable, sum.directives.skip rfl, sum.block.skip rfl rfl⟩
  | directive d =>
    obtain ⟨absent, _⟩ := (g.defineDirective_problems_iff origin d).mp silent
    rw [define, g.defineDirective_value origin d absent]
    refine ⟨sum.types.skip rfl rfl, ⟨?_, ?_⟩, sum.block.skip rfl rfl⟩
    · exact Table.nodup_keys_push sum.directives.distinct absent
    · simp [sum.directives.keys, Sourced.directiveName?]
  | schema d =>
    obtain ⟨absent, readable⟩ := (g.defineSchema_problems_iff origin d).mp silent
    have block := sum.block
    rw [absent] at block
    rw [define, g.defineSchema_value origin d absent]
    exact ⟨sum.types.skip rfl rfl, sum.directives.skip rfl, block.define readable⟩
  | executable kind pos =>
    exact ⟨sum.types.skip rfl rfl, sum.directives.skip rfl, sum.block.skip rfl rfl⟩
  | typeExtension e | schemaExtension d => cases definition

/-- A type is extended without a report. -/
theorem extendType_silent {origin : Origin} {e : TypeExtension}
    (silent : (g.extendType origin e).problems = []) :
    ∃ old, g.types.get? e.name = some old ∧ old.kind = e.body.kind ∧
      (Collect.usages origin (.type e.body.kind e.name) e.usages).problems = [] ∧
      (Extend.body origin (origin.locate e.pos) (.type e.body.kind e.name) e.body
        old.body).problems = [] ∧
      (g.extendType origin e).value = { g with types := g.types.modify e.name fun _ => { old with
        usages := old.usages ++
          (Collect.usages origin (.type e.body.kind e.name) e.usages).value
        body := (Extend.body origin (origin.locate e.pos) (.type e.body.kind e.name) e.body
          old.body).value } } := by
  simp only [extendType] at silent ⊢
  cases found : g.types.get? e.name with
  | none => simp [found] at silent
  | some old =>
    by_cases kind : old.kind = e.body.kind
    · by_cases nothing : e.isEmpty = true
      · simp [found, kind, nothing] at silent
      · simp only [found, kind, nothing, ne_eq, not_true_eq_false, Bool.false_eq_true, if_false,
          Reported.bind_problems, Reported.pure_problems, trace_problems, List.nil_append,
          List.append_nil, List.append_eq_nil_iff] at silent
        refine ⟨old, rfl, kind, silent.1, silent.2, ?_⟩
        simp [kind, nothing]
    · simp [found, kind] at silent

/-- A schema block is extended without a report. -/
theorem extendSchema_silent {origin : Origin} {d : SchemaDecl}
    (silent : (g.extendSchema origin d).problems = []) :
    ∃ old, g.block = some old ∧ (Collect.usages origin .schema d.usages).problems = [] ∧
      (g.extendSchema origin d).value = { g with block := some { old with
        usages := old.usages ++ (Collect.usages origin .schema d.usages).value
        operations := old.operations ++ Collect.bindings (origin.locate d.pos) d } } := by
  simp only [extendSchema] at silent ⊢
  cases found : g.block with
  | none => simp [found] at silent
  | some old =>
    simp only [found, Reported.bind_problems, List.append_eq_nil_iff] at silent
    by_cases nothing : ((Collect.usages origin .schema d.usages).value.isEmpty &&
        (Collect.bindings (origin.locate d.pos) d).isEmpty) = true
    · simp [nothing] at silent
    · refine ⟨old, rfl, silent.1, ?_⟩
      simp only [Reported.bind_value, nothing, Bool.false_eq_true, if_false, Reported.pure_value]

/-- An extension is one more part of what it extends. -/
theorem extend_sums (sum : g.Sums ds) (extension : s.declaration.isExtension = true)
    (silent : (g.extend s).problems = []) : (g.extend s).value.Sums (ds ++ [s]) := by
  obtain ⟨origin, declaration⟩ := s
  cases declaration with
  | typeExtension e =>
    obtain ⟨old, found, kind, usages, body, value⟩ := extendType_silent silent
    rw [extend, value]
    refine ⟨sum.types.extend found fun before known => ?_, sum.directives.skip rfl,
      sum.block.skip rfl rfl⟩
    refine ⟨?_, ?_, ?_⟩
    · rw [TypeDef.kind, extendBody_kind]
      refine List.forall_mem_append.mpr ⟨known.kind, ?_⟩
      intro w last
      obtain rfl := List.mem_singleton.mp last
      exact kind.symm
    · rw [writtenUsages_append, writtenUsages_singleton, ← known.usages,
        ← Collect.usages_written usages]
    · rw [List.map_append]
      exact Extend.body_sums kind known.body body
  | schemaExtension d =>
    obtain ⟨old, found, usages, value⟩ := extendSchema_silent silent
    have block := sum.block
    rw [found] at block
    rw [extend, value]
    refine ⟨sum.types.skip rfl rfl, sum.directives.skip rfl,
      block.extend fun before known => ⟨?_, ?_⟩⟩
    · rw [writtenUsages_append, writtenUsages_singleton, ← known.usages,
        ← Collect.usages_written usages]
    · rw [List.flatMap_append, List.flatMap_singleton, ← known.operations]
      rfl
  | _ => cases extension

end Graph

theorem isExtension_of_definition {ds : List Sourced} {s : Sourced}
    (member : s ∈ definitionsOf ds) : s.declaration.isExtension = false := by
  simpa using (List.mem_filter.mp member).2

theorem length_typeParts {defs : List Sourced}
    (definitions : ∀ s ∈ defs, s.declaration.isExtension = false) (name : String) :
    (defs.filterMap (Sourced.typePart? name)).length =
      (defs.filterMap Sourced.typeName?).count name := by
  induction defs with
  | nil => rfl
  | cons s rest ih =>
    obtain ⟨here, later⟩ := List.forall_mem_cons.mp definitions
    have same := ih later
    obtain ⟨origin, declaration⟩ := s
    cases declaration with
    | type d =>
      by_cases own : d.name = name <;> simp [Sourced.typePart?, Sourced.typeName?, own, same]
    | typeExtension e => cases here
    | _ => exact same

/-- A type that is defined once has one part among definitions. -/
theorem exists_base {defs : List Sourced}
    (definitions : ∀ s ∈ defs, s.declaration.isExtension = false)
    (distinct : (defs.filterMap Sourced.typeName?).Nodup) {name : String}
    (defined : name ∈ defs.filterMap Sourced.typeName?) :
    ∃ base, defs.filterMap (Sourced.typePart? name) = [base] := by
  rw [← List.length_eq_one_iff, length_typeParts definitions]
  exact List.count_eq_one_of_mem distinct defined

theorem typeName?_extensionsOf (ds : List Sourced) :
    (extensionsOf ds).filterMap Sourced.typeName? = [] := by
  rw [List.filterMap_eq_nil_iff]
  intro s member
  have extension := (List.mem_filter.mp member).2
  cases found : s.declaration with
  | type d =>
    rw [found] at extension
    cases extension
  | _ => simp [Sourced.typeName?, found]

theorem Graph.collect_value_sums {ds : List Sourced} (silent : (collect ds).problems = []) :
    (collect ds).value.Sums (definitionsOf ds ++ extensionsOf ds) := by
  simp only [collect, Reported.summarize_problems, Reported.bind_problems,
    List.append_eq_nil_iff] at silent
  have defined : (Reported.through define {} (definitionsOf ds)).value.Sums
      ([] ++ definitionsOf ds) :=
    Reported.through_accumulates (fun _ _ s member sum =>
      define_sums sum (isExtension_of_definition member)) empty_sums silent.1
  exact Reported.through_accumulates (fun _ _ s member sum =>
    extend_sums sum (List.mem_filter.mp member).2) defined silent.2

/-- A buffer collected without a report loses nothing, duplicates nothing and invents nothing. Each
type has one definition, with which the sum of its parts starts. -/
theorem collect_sums (ds : List Sourced) (silent : (Graph.collect ds).problems = []) :
    (Graph.collect ds).value.Sums (definitionsOf ds ++ extensionsOf ds) ∧
      ∀ name ∈ (Graph.collect ds).value.types.keys, ∃ base,
        (definitionsOf ds ++ extensionsOf ds).filterMap (Sourced.typePart? name) =
          base :: (extensionsOf ds).filterMap (Sourced.typePart? name) := by
  have sum := Graph.collect_value_sums silent
  refine ⟨sum, fun name known => ?_⟩
  -- the names of the types all come from definitions
  have keys := sum.types.keys
  rw [List.filterMap_append, typeName?_extensionsOf, List.append_nil] at keys
  obtain ⟨base, only⟩ := exists_base (fun _ => isExtension_of_definition)
    (keys ▸ sum.types.distinct) (keys ▸ known)
  exact ⟨base, by rw [List.filterMap_append, only, List.singleton_append]⟩

/-- A catalogue in several places: its extensions stand before and after what they extend, and
declare a field and an argument of it again. -/
def catalogue : List (Option String × Declaration) := [
  (none, .typeExtension {
    name := "Book"
    usages := [{ name := "tag", arguments := [("name", .string "lent")] }]
    body := .object ["Item"] [
      { name := "title", type := .named "String"
        arguments := [
          { name := "language", type := .named "String", usages := [{ name := "tag" }] },
          { name := "short", type := .named "Boolean" }] },
      { name := "due", type := .named "Int" }] }),
  (none, .directive {
    name := "tag", repeatable := true
    arguments := [{ name := "name", type := .named "String" }]
    locations := [.object, .argumentDefinition, .fieldDefinition, .schema] }),
  (none, .type {
    name := "Item"
    body := .interface [] [{ name := "id", type := .named "ID" }] }),
  (none, .type {
    name := "Book"
    usages := [{ name := "tag", arguments := [("name", .string "printed")] }]
    body := .object [] [
      { name := "id", type := .named "ID" },
      { name := "title", type := .named "String"
        arguments := [{ name := "language", type := .named "String" }] }] }),
  (none, .typeExtension {
    name := "Book"
    body := .object [] [
      { name := "title", type := .named "String", usages := [{ name := "tag" }] }] }),
  (none, .schema { query := some "Query" }),
  (none, .type {
    name := "Query", body := .object [] [{ name := "book", type := .named "Book" }] }),
  (none, .schemaExtension { usages := [{ name := "tag" }], mutation := some "Book" })]

theorem collect_sums_catalogue :
    (Graph.collect (BuiltIn.declarations ++ given catalogue)).problems = [] ∧
      (Graph.described (given catalogue)).Sums
        (definitionsOf (BuiltIn.declarations ++ given catalogue) ++
          extensionsOf (BuiltIn.declarations ++ given catalogue)) ∧
      ((extensionsOf (BuiltIn.declarations ++ given catalogue)).filterMap
        (Sourced.typePart? "Book")).length = 2 := by
  have silent : (Graph.collect (BuiltIn.declarations ++ given catalogue)).problems = [] :=
    List.isEmpty_iff.mp (by decide +kernel)
  exact ⟨silent, (collect_sums _ silent).1, by decide +kernel⟩

end SchemaAtlas
