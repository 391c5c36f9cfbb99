import SchemaAtlas.Proofs.Conformance

/-!
# Cycles

The two rules against cycles are exact. An input object is reported if its required fields lead back
to it, and a directive if its arguments do, by way of the types and the usages that stand there.
Each is reported once, in the order of the table, and nothing that only leads into a cycle is
reported.
-/

namespace SchemaAtlas

open Relation (TransGen)

theorem pairwise_mapIdx {α β : Type} {R : β → β → Prop} {f : Nat → α → β}
    (ordered : ∀ i j a b, i < j → R (f i a) (f j b)) (as : List α) : (as.mapIdx f).Pairwise R := by
  rw [List.pairwise_iff_getElem]
  intro i j boundI boundJ less
  rw [List.getElem_mapIdx, List.getElem_mapIdx]
  exact ordered i j _ _ less

theorem TypeDef.inputFields?_isSome_iff (d : TypeDef) :
    d.inputFields?.isSome ↔ d.kind = .inputObject := by
  unfold inputFields? kind
  cases d.body <;> simp [TypeBody.kind]

theorem TypeDef.inputFields?_eq_some_iff {d : TypeDef} {fields : Table InputValue} :
    d.inputFields? = some fields ↔ d.body = .inputObject fields := by
  unfold inputFields?
  cases d.body <;> simp

namespace Graph

theorem ownTypes_ascending (g : Graph) :
    g.ownTypes.Pairwise fun a b => a.1.index < b.1.index := by
  refine List.Pairwise.filter _ (pairwise_mapIdx ?_ g.types.values)
  exact fun _ _ _ _ less => less

theorem ownDirectives_ascending (g : Graph) :
    g.ownDirectives.Pairwise fun a b => a.1.index < b.1.index := by
  refine List.Pairwise.filter _ (pairwise_mapIdx ?_ g.directives.values)
  exact fun _ _ _ _ less => less

theorem directiveAt?_isSome_iff (g : Graph) (id : DirectiveId) :
    (g.directiveAt? id).isSome ↔ id ∈ g.directiveIds := by
  rw [directiveAt?, Option.isSome_map, Table.at?_isSome_iff, mem_directiveIds]

/-! Input objects. -/

/-- Every value of the input object `a` contains one of the input object `b`: a field of `a` has the
type `b` inside a non-null wrapper and nothing else. -/
def Requires (g : Graph) (a b : TypeId) : Prop :=
  ∃ d fields f ref target, g.typeAt? a = some d ∧ d.body = .inputObject fields ∧
    f ∈ fields.values ∧ f.type = .nonNull (.named ref) ∧ g.resolve ref = some (b, target) ∧
    target.kind = .inputObject

theorem requiredObject?_eq_some_iff (g : Graph) (f : InputValue) (b : TypeId) :
    g.requiredObject? f = some b ↔ ∃ ref target, f.type = .nonNull (.named ref) ∧
      g.resolve ref = some (b, target) ∧ target.kind = .inputObject := by
  simp only [← TypeDef.inputFields?_isSome_iff]
  unfold requiredObject?
  split
  · next ref type =>
    cases resolved : g.resolve ref with
    | none => simp [type, resolved]
    | some found =>
      obtain ⟨t, d⟩ := found
      by_cases object : d.inputFields?.isSome <;> simp [type, resolved, object]
  · next other =>
    simp only [reduceCtorEq, false_iff, not_exists, not_and]
    exact fun ref _ type => (other ref type).elim

theorem mem_requiredObjects (g : Graph) (a b : TypeId) :
    b ∈ g.requiredObjects a ↔ g.Requires a b := by
  unfold requiredObjects Requires
  cases found : g.typeAt? a with
  | none => simp
  | some d =>
    cases fields : d.inputFields? with
    | none =>
      have none : ∀ fs, d.body ≠ .inputObject fs := by
        intro fs body
        rw [TypeDef.inputFields?_eq_some_iff.mpr body] at fields
        cases fields
      simp [fields, none]
    | some fs =>
      have body := TypeDef.inputFields?_eq_some_iff.mp fields
      simp only [Option.bind_some, fields, List.mem_filterMap, requiredObject?_eq_some_iff]
      constructor
      · rintro ⟨f, member, ref, target, type, resolved, kind⟩
        exact ⟨d, fs, f, ref, target, rfl, body, member, type, resolved, kind⟩
      · rintro ⟨_, _, f, ref, target, ⟨⟩, body', member, type, resolved, kind⟩
        cases body.symm.trans body'
        exact ⟨f, member, ref, target, type, resolved, kind⟩

/-- A walk along required fields never leaves the table. -/
theorem stepWithin_requiredObjects (g : Graph) :
    StepWithin g.requiredObjects g.typeIds = g.Requires := by
  funext a b
  rw [StepWithin, mem_requiredObjects, eq_iff_iff, and_iff_left_iff_imp]
  rintro ⟨_, _, _, _, target, _, _, _, _, resolved, _⟩
  rw [← typeAt?_isSome_iff, (resolve_target resolved).2]
  rfl

theorem requiresItself_iff (g : Graph) (t : TypeId) :
    g.requiresItself t = true ↔ TransGen g.Requires t t := by
  rw [requiresItself, leadsTo_iff, stepWithin_requiredObjects]

/-- The input objects that are reported are those on a cycle of required fields, each once and in
the order of the table. -/
theorem inputCycles_exact (g : Graph) :
    ∃ circular : List (TypeId × TypeDef),
      g.inputCycles = circular.map (fun e =>
        ⟨.circularInputObject e.2.name, some e.2.location, g.path (.type e.1)⟩) ∧
      circular.Pairwise (fun a b => a.1.index < b.1.index) ∧
      ∀ t d, (t, d) ∈ circular ↔
        (g.typeAt? t = some d ∧ d.builtIn = false ∧ d.kind = .inputObject) ∧
          TransGen g.Requires t t := by
  refine ⟨_, rfl, g.ownTypes_ascending.filter _, ?_⟩
  intro t d
  rw [List.mem_filter, mem_ownTypes, Bool.and_eq_true, TypeDef.inputFields?_isSome_iff,
    requiresItself_iff]
  simp only [and_assoc]

/-- `Book` and `Author` need each other; `Order` only leads to them. -/
example :
    (described (given [
      (none, .type { name := "Order", body := .inputObject [
        { name := "book", type := .nonNull (.named "Book") }] }),
      (none, .type { name := "Book", body := .inputObject [
        { name := "author", type := .nonNull (.named "Author") }] }),
      (none, .type { name := "Author", body := .inputObject [
        { name := "first", type := .nonNull (.named "Book") },
        { name := "pupils", type := .nonNull (.list (.nonNull (.named "Author"))) }] })
      ])).linked.inputCycles.map (·.path.text) =
      ["input object 'Book'", "input object 'Author'"] := by
  decide +kernel

/-! Directives. -/

/-- One of these usages is of the directive. -/
def Applies (g : Graph) (us : List Usage) (id : DirectiveId) : Prop :=
  (∃ u ∈ us, u.definition = some id) ∧ (g.directiveAt? id).isSome

/-- What an argument or an input field brings with it: the directives applied to it, and the type
that its annotation resolves to. -/
inductive Brings (g : Graph) (v : InputValue) : Dependency → Prop
  | usage {id : DirectiveId} (applied : g.Applies v.usages id) : Brings g v (.directive id)
  | type {t : TypeId} {d : TypeDef} (resolved : g.resolve v.type.innermost = some (t, d)) :
    Brings g v (.type t)

/-- A directive depends on what its arguments bring, and a type on the directives applied to it; an
enum also on those applied to its values, and an input object on what its fields bring. -/
inductive DependsOn (g : Graph) : Dependency → Dependency → Prop
  | argument {id : DirectiveId} {d : DirectiveDef} {a : InputValue} {x : Dependency}
    (found : g.directiveAt? id = some d) (member : a ∈ d.arguments.values)
    (brought : g.Brings a x) : DependsOn g (.directive id) x
  | usage {t : TypeId} {d : TypeDef} {id : DirectiveId} (found : g.typeAt? t = some d)
    (applied : g.Applies d.usages id) : DependsOn g (.type t) (.directive id)
  | enumValue {t : TypeId} {d : TypeDef} {values : Table EnumValue} {v : EnumValue}
    {id : DirectiveId} (found : g.typeAt? t = some d) (body : d.body = .enum values)
    (member : v ∈ values.values) (applied : g.Applies v.usages id) :
    DependsOn g (.type t) (.directive id)
  | inputField {t : TypeId} {d : TypeDef} {fields : Table InputValue} {f : InputValue}
    {x : Dependency} (found : g.typeAt? t = some d) (body : d.body = .inputObject fields)
    (member : f ∈ fields.values) (brought : g.Brings f x) : DependsOn g (.type t) x

theorem mem_dependencyNodes_directive (g : Graph) (id : DirectiveId) :
    .directive id ∈ g.dependencyNodes ↔ (g.directiveAt? id).isSome := by
  simp [dependencyNodes, directiveAt?_isSome_iff]

theorem mem_dependencyNodes_type (g : Graph) (t : TypeId) :
    .type t ∈ g.dependencyNodes ↔ (g.typeAt? t).isSome := by
  simp [dependencyNodes, typeAt?_isSome_iff]

theorem mem_ofUsages (us : List Usage) (x : Dependency) :
    x ∈ Dependency.ofUsages us ↔ ∃ u ∈ us, ∃ id, u.definition = some id ∧ .directive id = x := by
  simp [Dependency.ofUsages]

theorem mem_ofUsages_node (g : Graph) (us : List Usage) (x : Dependency) :
    x ∈ Dependency.ofUsages us ∧ x ∈ g.dependencyNodes ↔
      ∃ id, x = .directive id ∧ g.Applies us id := by
  rw [mem_ofUsages]
  constructor
  · rintro ⟨⟨u, member, id, linked, rfl⟩, node⟩
    exact ⟨id, rfl, ⟨u, member, linked⟩, (g.mem_dependencyNodes_directive id).mp node⟩
  · rintro ⟨id, rfl, ⟨u, member, linked⟩, exists_directive⟩
    exact ⟨⟨u, member, id, linked, rfl⟩, (g.mem_dependencyNodes_directive id).mpr exists_directive⟩

theorem mem_ofInputValue_node (g : Graph) (v : InputValue) (x : Dependency) :
    x ∈ Dependency.ofInputValue v ∧ x ∈ g.dependencyNodes ↔ g.Brings v x := by
  rw [Dependency.ofInputValue, List.mem_append, or_and_right, mem_ofUsages_node]
  constructor
  · rintro (⟨id, rfl, applied⟩ | ⟨named, node⟩)
    · exact .usage applied
    · obtain ⟨t, target, rfl⟩ := Option.map_eq_some_iff.mp (Option.mem_toList.mp named)
      obtain ⟨d, found⟩ := Option.isSome_iff_exists.mp ((g.mem_dependencyNodes_type t).mp node)
      exact .type ((g.resolve_eq_some_iff _ t d).mpr ⟨target, found⟩)
  · rintro (applied | resolved)
    · exact .inl ⟨_, rfl, applied⟩
    · obtain ⟨target, found⟩ := resolve_target resolved
      refine .inr ⟨by simp [target], (g.mem_dependencyNodes_type _).mpr ?_⟩
      rw [found]
      rfl

/-- A step of the walk that stays among the directives and types of the graph. -/
theorem stepWithin_dependencies (g : Graph) :
    StepWithin g.dependencies g.dependencyNodes = g.DependsOn := by
  funext a x
  rw [StepWithin, eq_iff_iff]
  cases a with
  | directive id =>
    cases found : g.directiveAt? id with
    | none =>
      simp only [dependencies, found, List.not_mem_nil, false_and, false_iff]
      intro step
      cases step with
      | argument found' => cases found.symm.trans found'
    | some d =>
      simp only [dependencies, found, List.mem_flatMap]
      constructor
      · rintro ⟨⟨a, member, named⟩, node⟩
        exact .argument found member ((g.mem_ofInputValue_node a x).mp ⟨named, node⟩)
      · intro step
        cases step with
        | argument found' member brought =>
          cases found.symm.trans found'
          obtain ⟨named, node⟩ := (g.mem_ofInputValue_node _ x).mpr brought
          exact ⟨⟨_, member, named⟩, node⟩
  | type t =>
    cases found : g.typeAt? t with
    | none =>
      simp only [dependencies, found, List.not_mem_nil, false_and, false_iff]
      intro step
      cases step with
      | usage found' | enumValue found' | inputField found' => cases found.symm.trans found'
    | some d =>
      simp only [dependencies, found, Dependency.ofType, List.mem_append]
      constructor
      · rintro ⟨own | inside, node⟩
        · obtain ⟨id, rfl, applied⟩ := (g.mem_ofUsages_node _ x).mp ⟨own, node⟩
          exact .usage found applied
        · split at inside
          · next values body =>
            obtain ⟨v, member, named⟩ := List.mem_flatMap.mp inside
            obtain ⟨id, rfl, applied⟩ := (g.mem_ofUsages_node _ x).mp ⟨named, node⟩
            exact .enumValue found body member applied
          · next fields body =>
            obtain ⟨f, member, named⟩ := List.mem_flatMap.mp inside
            exact .inputField found body member ((g.mem_ofInputValue_node f x).mp ⟨named, node⟩)
          · cases inside
      · intro step
        cases step with
        | usage found' applied =>
          cases found.symm.trans found'
          obtain ⟨named, node⟩ := (g.mem_ofUsages_node _ _).mpr ⟨_, rfl, applied⟩
          exact ⟨.inl named, node⟩
        | enumValue found' body member applied =>
          cases found.symm.trans found'
          obtain ⟨named, node⟩ := (g.mem_ofUsages_node _ _).mpr ⟨_, rfl, applied⟩
          rw [body]
          exact ⟨.inr (List.mem_flatMap.mpr ⟨_, member, named⟩), node⟩
        | inputField found' body member brought =>
          cases found.symm.trans found'
          obtain ⟨named, node⟩ := (g.mem_ofInputValue_node _ x).mpr brought
          rw [body]
          exact ⟨.inr (List.mem_flatMap.mpr ⟨_, member, named⟩), node⟩

theorem dependsOnItself_iff (g : Graph) (id : DirectiveId) :
    g.dependsOnItself id = true ↔ TransGen g.DependsOn (.directive id) (.directive id) := by
  rw [dependsOnItself, leadsTo_iff, stepWithin_dependencies]

/-- The directives that are reported are those that depend on themselves, each once and in the order
of the table. -/
theorem directiveCycles_exact (g : Graph) :
    ∃ circular : List (DirectiveId × DirectiveDef),
      g.directiveCycles = circular.map (fun e =>
        ⟨.circularDirective e.2.name, some e.2.location, g.path (.directive e.1)⟩) ∧
      circular.Pairwise (fun a b => a.1.index < b.1.index) ∧
      ∀ id d, (id, d) ∈ circular ↔
        (g.directiveAt? id = some d ∧ d.builtIn = false) ∧
          TransGen g.DependsOn (.directive id) (.directive id) := by
  refine ⟨_, rfl, g.ownDirectives_ascending.filter _, ?_⟩
  intro id d
  rw [List.mem_filter, mem_ownDirectives, dependsOnItself_iff]

/-- `@unit` comes back by way of an input object, an enum and one of its values; `@audited` only
leads to it. -/
example :
    (described (given [
      (none, .directive {
        name := "audited", locations := [.object]
        arguments := [{ name := "since", type := .named "Int", usages := [{ name := "unit" }] }] }),
      (none, .directive {
        name := "unit", locations := [.enumValue, .argumentDefinition]
        arguments := [{ name := "scale", type := .list (.named "Scale") }] }),
      (none, .type { name := "Scale", body := .inputObject [
        { name := "base", type := .named "Base" }] }),
      (none, .type { name := "Base", body := .enum [
        { name := "TEN", usages := [{ name := "unit" }] }] })
      ])).linked.directiveCycles.map (·.path.text) = ["directive '@unit'"] := by
  decide +kernel

end Graph

end SchemaAtlas
