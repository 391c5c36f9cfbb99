import SchemaAtlas.Graph.Extend
import SchemaAtlas.Proofs.Literals
import SchemaAtlas.Proofs.Reports
import SchemaAtlas.Proofs.Tables

/-!
# Collected graphs

Whatever a buffer holds, the graph collected from it is fresh: its tables are keyed at every level,
its literals are canonical, and no name in it has been looked up. Definitions and extensions keep
this one by one, so a whole run does.
-/

namespace SchemaAtlas

/-- A keyed table all of whose values satisfy `P`. -/
structure Table.All {α : Type} (name : α → String) (P : α → Prop) (t : Table α) : Prop
    extends Table.Keyed name t where
  each : ∀ e ∈ t.entries, P e.2

namespace Table.All

variable {α : Type} {name : α → String} {P : α → Prop} {t : Table α}

theorem empty : All name P (.empty : Table α) := ⟨.empty, by simp [Table.empty]⟩

theorem push (all : All name P t) {key : String} {value : α} (own : name value = key)
    (absent : t.contains key = false) (good : P value) : All name P (t.push key value) where
  toKeyed := all.toKeyed.push own absent
  each := by
    intro e member
    rcases List.mem_append.mp member with old | new
    · exact all.each e old
    · obtain rfl := List.mem_singleton.mp new
      exact good

theorem modify (all : All name P t) {key : String} {value : α} (named : name value = key)
    (good : P value) : All name P (t.modify key fun _ => value) where
  toKeyed := all.toKeyed.modify fun _ _ => named
  each := by
    intro e member
    obtain ⟨⟨k, old⟩, present, rfl⟩ := List.mem_map.mp member
    by_cases same : k = key
    · simpa [same] using good
    · simpa [same] using all.each _ present

theorem of_get? (all : All name P t) {key : String} {value : α}
    (found : t.get? key = some value) : name value = key ∧ P value := by
  have member := (get?_eq_some_iff all.distinct key value).mp found
  exact ⟨all.named _ member, all.each _ member⟩

end Table.All

theorem gather_all {α β : Type} {name : β → String} {P : β → Prop} {key : α → String}
    {repeated : α → Reported Unit} {read : α → Reported β}
    (good : ∀ a, name (read a).value = key a ∧ P (read a).value) (as : List α) (t : Table β)
    (all : t.All name P) : (gather key repeated read t as).value.All name P := by
  induction as generalizing t with
  | nil => exact all
  | cons a rest ih =>
    rw [gather]
    split
    · exact ih t all
    · next absent =>
      obtain ⟨named, value⟩ := good a
      rw [Bool.not_eq_true] at absent
      exact ih _ (all.push named absent value)

theorem absorb_all {α : Type} {name : α → String} {P : α → Prop} {clash : α → α → Reported α}
    (good : ∀ old new, P old → P new →
      name (clash old new).value = name old ∧ P (clash old new).value)
    (new : List (String × α)) (fresh : ∀ e ∈ new, name e.2 = e.1 ∧ P e.2) (t : Table α)
    (all : t.All name P) : (absorb clash t new).value.All name P := by
  induction new generalizing t with
  | nil => exact all
  | cons first rest ih =>
    obtain ⟨key, value⟩ := first
    obtain ⟨named, value_good⟩ := fresh (key, value) List.mem_cons_self
    have later : ∀ e ∈ rest, name e.2 = e.1 ∧ P e.2 :=
      fun e member => fresh e (List.mem_cons_of_mem _ member)
    rw [absorb]
    split
    · next old found =>
      obtain ⟨old_named, old_good⟩ := all.of_get? found
      obtain ⟨kept_named, kept_good⟩ := good old value old_good value_good
      exact ih later _ (all.modify (kept_named.trans old_named) kept_good)
    · next missing =>
      have absent : t.contains key = false := by
        rw [Table.contains_eq_isSome, missing]
        rfl
      exact ih later _ (all.push named absent value_good)

structure Usage.Fresh (u : Usage) : Prop where
  definition : u.definition = none
  parent : u.parent = none
  distinct : u.arguments.keys.Nodup
  canonical : ∀ e ∈ u.arguments.entries, e.2.IsCanonical

def TypeRef.Fresh (ref : TypeRef) : Prop := ref.target = none

structure EnumValue.Fresh (v : EnumValue) : Prop where
  usages : ∀ u ∈ v.usages, u.Fresh
  parent : v.parent = none

structure InputValue.Fresh (v : InputValue) : Prop where
  type : v.type.innermost.Fresh
  default : ∀ x, v.default = some x → x.IsCanonical
  usages : ∀ u ∈ v.usages, u.Fresh
  parent : v.parent = none

structure Field.Fresh (f : Field) : Prop where
  arguments : f.arguments.All InputValue.name InputValue.Fresh
  type : f.type.innermost.Fresh
  usages : ∀ u ∈ f.usages, u.Fresh
  parent : f.parent = none

structure Shape.Fresh (s : Shape) : Prop where
  fields : s.fields.All Field.name Field.Fresh
  implements : s.implements.All TypeRef.name TypeRef.Fresh

def TypeBody.Fresh : TypeBody → Prop
  | enum values => values.All EnumValue.name EnumValue.Fresh
  | inputObject fields => fields.All InputValue.name InputValue.Fresh
  | interface shape | object shape => shape.Fresh
  | scalar => True
  | union members => members.All TypeRef.name TypeRef.Fresh

structure TypeDef.Fresh (d : TypeDef) : Prop where
  usages : ∀ u ∈ d.usages, u.Fresh
  body : d.body.Fresh
  references : d.references = []
  rooted : d.rooted = false

theorem TypeDef.Fresh.shape {d : TypeDef} (fresh : d.Fresh) {shape : Shape}
    (found : d.shape? = some shape) : shape.Fresh := by
  obtain ⟨_, _, _, _, _, body, _, _⟩ := d
  cases body with
  | interface s | object s =>
    obtain rfl : s = shape := Option.some.inj found
    exact fresh.body
  | _ => cases found

theorem TypeDef.Fresh.members {d : TypeDef} (fresh : d.Fresh) {members : Table TypeRef}
    (found : d.body = .union members) : members.All TypeRef.name TypeRef.Fresh := by
  have body := fresh.body
  rw [found] at body
  exact body

theorem TypeDef.Fresh.inputFields {d : TypeDef} (fresh : d.Fresh) {fields : Table InputValue}
    (found : d.inputFields? = some fields) : fields.All InputValue.name InputValue.Fresh := by
  obtain ⟨_, _, _, _, _, body, _, _⟩ := d
  cases body with
  | inputObject own =>
    obtain rfl : own = fields := Option.some.inj found
    exact fresh.body
  | _ => cases found

structure DirectiveDef.Fresh (d : DirectiveDef) : Prop where
  arguments : d.arguments.All InputValue.name InputValue.Fresh
  references : d.references = []

structure SchemaBlock.Fresh (b : SchemaBlock) : Prop where
  usages : ∀ u ∈ b.usages, u.Fresh
  operations : ∀ o ∈ b.operations, o.type.Fresh

/-- A graph as documents describe it, with nothing looked up. -/
structure Graph.Fresh (g : Graph) : Prop where
  types : g.types.All TypeDef.name TypeDef.Fresh
  directives : g.directives.All DirectiveDef.name DirectiveDef.Fresh
  block : ∀ b, g.block = some b → b.Fresh
  root : g.root = none

namespace Collect

theorem innermost_ofExpr (location : SourceLocation) (type : TypeExpr) :
    (TypeUse.ofExpr location type).innermost.Fresh := by
  induction type with
  | named name => rfl
  | list item ih => exact ih
  | nonNull inner ih => exact ih

theorem usage_fresh (origin : Origin) (owner : ElementPath) (d : UsageDecl) :
    (usage origin owner d).value.Fresh := by
  -- The arguments have no names of their own, so only their keys and values count here.
  suffices h : ∀ (as : List (String × Value)) (repeated : String × Value → Reported Unit)
      (t : Table Value), t.keys.Nodup → (∀ e ∈ t.entries, e.2.IsCanonical) →
      (gather Prod.fst repeated (fun a => pure a.2.canonical) t as).value.keys.Nodup ∧
      ∀ e ∈ (gather Prod.fst repeated (fun a => pure a.2.canonical) t as).value.entries,
        e.2.IsCanonical by
    obtain ⟨distinct, canonical⟩ := h d.arguments _ .empty List.nodup_nil (by simp [Table.empty])
    exact ⟨rfl, rfl, distinct, canonical⟩
  intro as repeated
  induction as with
  | nil => exact fun t distinct canonical => ⟨distinct, canonical⟩
  | cons a rest ih =>
    intro t distinct canonical
    rw [gather]
    split
    · exact ih t distinct canonical
    · next absent =>
      refine ih _ ?_ ?_
      · exact Table.nodup_keys_push distinct (by simpa [Table.contains] using absent)
      · intro e member
        rcases List.mem_append.mp member with old | new
        · exact canonical e old
        · obtain rfl := List.mem_singleton.mp new
          exact Value.isCanonical_canonical a.2

theorem usages_fresh (origin : Origin) (owner : ElementPath) (ds : List UsageDecl) :
    ∀ u ∈ (usages origin owner ds).value, u.Fresh := by
  intro u member
  rw [usages, Reported.each_value, List.mem_map] at member
  obtain ⟨d, _, rfl⟩ := member
  exact usage_fresh origin owner d

theorem inputValue_fresh (origin : Origin) (container : ElementPath)
    (segment : String → PathSegment) (d : InputDecl) :
    (inputValue origin container segment d).value.name = d.name ∧
      (inputValue origin container segment d).value.Fresh := by
  refine ⟨rfl, innermost_ofExpr _ d.type, ?_, usages_fresh _ _ _, rfl⟩
  intro x default
  obtain ⟨y, _, rfl⟩ := Option.map_eq_some_iff.mp default
  exact Value.isCanonical_canonical y

theorem inputValues_fresh (origin : Origin) (container : ElementPath) (listed : Listed)
    (segment : String → PathSegment) (ds : List InputDecl) :
    (inputValues origin container listed segment ds).value.All InputValue.name InputValue.Fresh :=
  gather_all (inputValue_fresh origin container segment) ds _ .empty

theorem enumValues_fresh (origin : Origin) (type : ElementPath) (ds : List EnumValueDecl) :
    (enumValues origin type ds).value.All EnumValue.name EnumValue.Fresh := by
  refine gather_all ?_ ds _ .empty
  intro d
  exact ⟨rfl, usages_fresh _ _ _, rfl⟩

theorem fields_fresh (origin : Origin) (type : ElementPath) (ds : List FieldDecl) :
    (fields origin type ds).value.All Field.name Field.Fresh := by
  refine gather_all ?_ ds _ .empty
  intro d
  exact ⟨rfl, inputValues_fresh _ _ _ _ _, innermost_ofExpr _ d.type, usages_fresh _ _ _, rfl⟩

theorem typeRefs_fresh (location : SourceLocation) (type : ElementPath) (listed : Listed)
    (names : List String) :
    (typeRefs location type listed names).value.All TypeRef.name TypeRef.Fresh := by
  refine gather_all ?_ names _ .empty
  intro name
  exact ⟨rfl, rfl⟩

theorem body_fresh (origin : Origin) (location : SourceLocation) (type : ElementPath)
    (d : BodyDecl) : (body origin location type d).value.Fresh := by
  cases d with
  | enum values => exact enumValues_fresh origin type values
  | inputObject fs => exact inputValues_fresh origin type _ _ fs
  | interface implements fs =>
    exact ⟨fields_fresh origin type fs, typeRefs_fresh location type _ implements⟩
  | object implements fs =>
    exact ⟨fields_fresh origin type fs, typeRefs_fresh location type _ implements⟩
  | scalar => trivial
  | union members => exact typeRefs_fresh location type _ members

theorem bindings_fresh (location : SourceLocation) (d : SchemaDecl) :
    ∀ o ∈ bindings location d, o.type.Fresh := by
  intro o member
  obtain ⟨b, _, rfl⟩ := List.mem_map.mp member
  rfl

end Collect

namespace Extend

theorem keepOld_fresh {α : Type} {P : α → Prop} (listed : Listed) (type : ElementPath)
    (name : α → String) (location : α → SourceLocation) (old new : α) (fresh : P old) :
    name (keepOld listed type name location old new).value = name old ∧
      P (keepOld listed type name location old new).value :=
  ⟨rfl, fresh⟩

theorem appended_fresh {us vs : List Usage} (old : ∀ u ∈ us, u.Fresh) (new : ∀ u ∈ vs, u.Fresh) :
    ∀ u ∈ us ++ vs, u.Fresh := by
  intro u member
  exact (List.mem_append.mp member).elim (old u) (new u)

/-- Usages added to an argument or input field. -/
theorem withUsages_fresh {old new : InputValue} (fo : old.Fresh) (fn : new.Fresh) :
    ({ old with usages := old.usages ++ new.usages } : InputValue).Fresh :=
  ⟨fo.type, fo.default, appended_fresh fo.usages fn.usages, fo.parent⟩

theorem argument_fresh (field : ElementPath) (old new : InputValue) (fo : old.Fresh)
    (fn : new.Fresh) :
    (argument field old new).value.name = old.name ∧ (argument field old new).value.Fresh := by
  rw [argument]
  split
  · exact ⟨rfl, fo⟩
  · exact ⟨rfl, withUsages_fresh fo fn⟩

theorem inputField_fresh (type : ElementPath) (old new : InputValue) (fo : old.Fresh)
    (fn : new.Fresh) :
    (inputField type old new).value.name = old.name ∧ (inputField type old new).value.Fresh := by
  simp only [inputField]
  split
  · exact ⟨rfl, fo⟩
  · split
    · exact ⟨rfl, fo⟩
    · exact ⟨rfl, withUsages_fresh fo fn⟩

theorem all_entries {α : Type} {name : α → String} {P : α → Prop} {t : Table α}
    (all : t.All name P) : ∀ e ∈ t.entries, name e.2 = e.1 ∧ P e.2 :=
  fun e member => ⟨all.named e member, all.each e member⟩

theorem field_fresh (type : ElementPath) (old new : Field) (fo : old.Fresh) (fn : new.Fresh) :
    (field type old new).value.name = old.name ∧ (field type old new).value.Fresh := by
  simp only [field]
  split
  · exact ⟨rfl, fo⟩
  · have merged := absorb_all (argument_fresh (type.child (.field new.name)))
      new.arguments.entries (all_entries fn.arguments) old.arguments fo.arguments
    simp only [Reported.bind_value]
    split
    all_goals exact ⟨rfl, merged, fo.type, appended_fresh fo.usages fn.usages, fo.parent⟩

theorem shape_fresh (origin : Origin) (location : SourceLocation) (type : ElementPath)
    (implements : List String) (fields : List FieldDecl) (old : Shape) (fresh : old.Fresh) :
    (shape origin location type implements fields old).value.Fresh where
  fields := absorb_all (field_fresh type) _
    (all_entries (Collect.fields_fresh origin type fields)) _ fresh.fields
  implements := absorb_all (fun old new fo _ => keepOld_fresh _ _ _ _ old new fo) _
    (all_entries (Collect.typeRefs_fresh location type _ implements)) _ fresh.implements

theorem body_fresh (origin : Origin) (location : SourceLocation) (type : ElementPath)
    (d : BodyDecl) (old : TypeBody) (fresh : old.Fresh) :
    (body origin location type d old).value.Fresh := by
  unfold body
  split
  · exact absorb_all (fun old new fo _ => keepOld_fresh _ _ _ _ old new fo) _
      (all_entries (Collect.enumValues_fresh origin type _)) _ fresh
  · exact absorb_all (inputField_fresh type) _
      (all_entries (Collect.inputValues_fresh origin type _ _ _)) _ fresh
  · exact shape_fresh origin location type _ _ _ fresh
  · exact shape_fresh origin location type _ _ _ fresh
  · refine gather_all ?_ _ _ fresh
    intro name
    exact ⟨rfl, rfl⟩
  · exact fresh

end Extend

namespace Graph

theorem define_fresh (g : Graph) (s : Sourced) (fresh : g.Fresh) : (g.define s).value.Fresh := by
  rw [define]
  split
  · next d _ =>
    rw [defineType]
    split
    · exact fresh
    · next absent =>
      rw [Bool.not_eq_true] at absent
      exact { fresh with
        types := fresh.types.push rfl absent
          ⟨Collect.usages_fresh _ _ _, Collect.body_fresh _ _ _ _, rfl, rfl⟩ }
  · next d _ =>
    rw [defineDirective]
    split
    · exact fresh
    · next absent =>
      rw [Bool.not_eq_true] at absent
      exact { fresh with
        directives := fresh.directives.push rfl absent ⟨Collect.inputValues_fresh _ _ _ _ _, rfl⟩ }
  · next d _ =>
    rw [defineSchema]
    split
    · exact fresh
    · refine { fresh with block := ?_ }
      rintro b ⟨⟩
      exact ⟨Collect.usages_fresh _ _ _, Collect.bindings_fresh _ _⟩
  all_goals exact fresh

theorem extendType_fresh (g : Graph) (origin : Origin) (e : TypeExtension) (fresh : g.Fresh) :
    (g.extendType origin e).value.Fresh := by
  simp only [extendType]
  split
  · exact fresh
  · next old found =>
    obtain ⟨named, old_fresh⟩ := fresh.types.of_get? found
    split
    · exact fresh
    · split
      · exact fresh
      · exact { fresh with
          types := fresh.types.modify named
            ⟨Extend.appended_fresh old_fresh.usages (Collect.usages_fresh _ _ _),
              Extend.body_fresh _ _ _ _ _ old_fresh.body, old_fresh.references,
              old_fresh.rooted⟩ }

theorem extendSchema_fresh (g : Graph) (origin : Origin) (d : SchemaDecl) (fresh : g.Fresh) :
    (g.extendSchema origin d).value.Fresh := by
  simp only [extendSchema]
  split
  · exact fresh
  · next old found =>
    have old_fresh := fresh.block old found
    simp only [Reported.bind_value]
    split
    · exact fresh
    · refine { fresh with block := ?_ }
      rintro b ⟨⟩
      refine ⟨Extend.appended_fresh old_fresh.usages (Collect.usages_fresh _ _ _), ?_⟩
      intro o member
      exact (List.mem_append.mp member).elim (old_fresh.operations o)
        (Collect.bindings_fresh _ _ o)

theorem extend_fresh (g : Graph) (s : Sourced) (fresh : g.Fresh) : (g.extend s).value.Fresh := by
  rw [extend]
  split
  · exact g.extendType_fresh _ _ fresh
  · exact g.extendSchema_fresh _ _ fresh
  all_goals exact fresh

theorem empty_fresh : ({} : Graph).Fresh := ⟨.empty, .empty, by simp, rfl⟩

/-- Every buffer gives a fresh graph, with or without problems. -/
theorem collect_fresh (declarations : List Sourced) : (collect declarations).value.Fresh :=
  Reported.through_preserves (fun g s _ => g.extend_fresh s)
    (Reported.through_preserves (fun g s _ => g.define_fresh s) empty_fresh)

theorem described_fresh (declarations : List Sourced) : (described declarations).Fresh :=
  collect_fresh _

end Graph

end SchemaAtlas
