import SchemaAtlas.Rule.Definition
import SchemaAtlas.Proofs.Tables

/-!
# Lawful graphs

A linked graph that breaks no rule, told definition by definition. Only what is not built in is
checked.
-/

namespace SchemaAtlas.Graph

theorem mem_ownTypes (g : Graph) (t : TypeId) (d : TypeDef) :
    (t, d) ∈ g.ownTypes ↔ g.typeAt? t = some d ∧ d.builtIn = false := by
  rw [ownTypes, List.mem_filter, List.mem_iff_getElem?]
  simp only [List.getElem?_mapIdx, Table.values_getElem?, Option.map_map, Option.map_eq_some_iff,
    Function.comp_apply, Prod.mk.injEq, typeAt?, Bool.not_eq_eq_eq_not, Bool.not_true]
  constructor
  · rintro ⟨⟨i, e, found, rfl, rfl⟩, own⟩
    exact ⟨⟨e, found, rfl⟩, own⟩
  · rintro ⟨⟨e, found, rfl⟩, own⟩
    exact ⟨⟨t.index, e, found, rfl, rfl⟩, own⟩

theorem mem_ownDirectives (g : Graph) (id : DirectiveId) (d : DirectiveDef) :
    (id, d) ∈ g.ownDirectives ↔ g.directiveAt? id = some d ∧ d.builtIn = false := by
  rw [ownDirectives, List.mem_filter, List.mem_iff_getElem?]
  simp only [List.getElem?_mapIdx, Table.values_getElem?, Option.map_map, Option.map_eq_some_iff,
    Function.comp_apply, Prod.mk.injEq, directiveAt?, Bool.not_eq_eq_eq_not, Bool.not_true]
  constructor
  · rintro ⟨⟨i, e, found, rfl, rfl⟩, own⟩
    exact ⟨⟨e, found, rfl⟩, own⟩
  · rintro ⟨⟨e, found, rfl⟩, own⟩
    exact ⟨⟨id.index, e, found, rfl, rfl⟩, own⟩

/-- Every rule holds. -/
structure Lawful (g : Graph) : Prop where
  types : ∀ t d, g.typeAt? t = some d → d.builtIn = false → g.checkType (t, d) = []
  directives : ∀ id d, g.directiveAt? id = some d → d.builtIn = false →
    g.checkDirective (id, d) = []
  block : g.checkBlock = []
  finite : ∀ t d, g.typeAt? t = some d → d.builtIn = false → d.inputFields?.isSome →
    g.requiresItself t = false
  acyclic : ∀ id d, g.directiveAt? id = some d → d.builtIn = false → g.dependsOnItself id = false

theorem violations_eq_nil_iff (g : Graph) : g.violations = [] ↔ g.Lawful := by
  simp only [violations, inputCycles, directiveCycles, List.append_eq_nil_iff,
    List.flatMap_eq_nil_iff, List.map_eq_nil_iff, List.filter_eq_nil_iff, Bool.and_eq_true,
    not_and, Bool.not_eq_true]
  constructor
  · rintro ⟨⟨⟨⟨types, directives⟩, block⟩, finite⟩, acyclic⟩
    exact
      { types := fun t d found own => types (t, d) ((g.mem_ownTypes t d).mpr ⟨found, own⟩)
        directives := fun id d found own =>
          directives (id, d) ((g.mem_ownDirectives id d).mpr ⟨found, own⟩)
        block
        finite := fun t d found own => finite (t, d) ((g.mem_ownTypes t d).mpr ⟨found, own⟩)
        acyclic := fun id d found own =>
          acyclic (id, d) ((g.mem_ownDirectives id d).mpr ⟨found, own⟩) }
  · intro lawful
    refine ⟨⟨⟨⟨?_, ?_⟩, lawful.block⟩, ?_⟩, ?_⟩
    · rintro ⟨t, d⟩ member
      obtain ⟨found, own⟩ := (g.mem_ownTypes t d).mp member
      exact lawful.types t d found own
    · rintro ⟨id, d⟩ member
      obtain ⟨found, own⟩ := (g.mem_ownDirectives id d).mp member
      exact lawful.directives id d found own
    · rintro ⟨t, d⟩ member
      obtain ⟨found, own⟩ := (g.mem_ownTypes t d).mp member
      exact lawful.finite t d found own
    · rintro ⟨id, d⟩ member
      obtain ⟨found, own⟩ := (g.mem_ownDirectives id d).mp member
      exact lawful.acyclic id d found own

theorem Lawful.body {g : Graph} (lawful : g.Lawful) {t : TypeId} {d : TypeDef}
    (found : g.typeAt? t = some d) (own : d.builtIn = false) :
    g.checkBody t d (g.path (.type t)) = [] :=
  (List.append_eq_nil_iff.mp (lawful.types t d found own)).2

/-- The fields of an object or interface are checked one by one. -/
theorem Lawful.field {g : Graph} (lawful : g.Lawful) {t : TypeId} {d : TypeDef}
    {shape : Shape} (found : g.typeAt? t = some d) (own : d.builtIn = false)
    (shaped : d.shape? = some shape) :
    ∀ e ∈ shape.fields.entries, g.checkField (g.path (.type t)) e = [] := by
  have silent := lawful.body found own
  unfold checkBody at silent
  unfold TypeDef.shape? at shaped
  split at shaped
  · next body =>
    cases shaped
    simp only [body, List.append_eq_nil_iff, List.flatMap_eq_nil_iff] at silent
    exact silent.1.2
  · next body =>
    cases shaped
    simp only [body, List.append_eq_nil_iff, List.flatMap_eq_nil_iff] at silent
    exact silent.1.2
  · cases shaped

theorem Lawful.inputField {g : Graph} (lawful : g.Lawful) {t : TypeId} {d : TypeDef}
    {fields : Table InputValue} (found : g.typeAt? t = some d) (own : d.builtIn = false)
    (body : d.body = .inputObject fields) :
    ∀ e ∈ fields.entries, g.checkInputField (g.path (.type t)) e = [] := by
  have silent := lawful.body found own
  simp only [checkBody, body, List.append_eq_nil_iff, List.flatMap_eq_nil_iff] at silent
  exact silent.2

theorem Lawful.enumValue {g : Graph} (lawful : g.Lawful) {t : TypeId} {d : TypeDef}
    {values : Table EnumValue} (found : g.typeAt? t = some d) (own : d.builtIn = false)
    (body : d.body = .enum values) :
    values.isEmpty = false ∧
      ∀ e ∈ values.entries, g.checkEnumValue d (g.path (.type t)) e = [] := by
  have silent := lawful.body found own
  simp only [checkBody, body, List.append_eq_nil_iff, List.flatMap_eq_nil_iff] at silent
  refine ⟨?_, silent.2⟩
  cases empty : values.isEmpty with
  | false => rfl
  | true => simp [checkEmpty, empty] at silent

theorem Lawful.argument {g : Graph} (lawful : g.Lawful) {id : DirectiveId} {d : DirectiveDef}
    (found : g.directiveAt? id = some d) (own : d.builtIn = false) :
    ∀ e ∈ d.arguments.entries, g.checkArgument (g.path (.directive id)) e = [] := by
  have silent := lawful.directives id d found own
  simp only [checkDirective, List.append_eq_nil_iff, List.flatMap_eq_nil_iff] at silent
  exact silent.2

end SchemaAtlas.Graph
