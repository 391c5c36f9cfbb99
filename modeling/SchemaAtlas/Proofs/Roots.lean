import Mathlib.Data.List.Basic
import SchemaAtlas.Proofs.Reports
import SchemaAtlas.Proofs.Tables

/-!
# Resolved roots

When a root is resolved without a problem, the outcome can be read off the linked graph: which type
serves each operation, what its references become, and which types are marked. The conditions for
that are stated here once, for a schema block and for the default type names.
-/

namespace SchemaAtlas

theorem OperationKind.defaultTypeName_injective :
    Function.Injective OperationKind.defaultTypeName := by
  intro kind kind' same
  cases kind <;> cases kind' <;> first | rfl | simp [defaultTypeName] at same

/-- The state once a binding is taken as it stands. -/
def Binding.take (s : Binding) (kind : OperationKind) (t : TypeId) : Binding :=
  { s with seen := s.seen ++ [kind], bound := s.bound ++ [(kind, t)] }

namespace Graph

/-- The type that serves an operation, by the schema block if there is one and by name if not. -/
def rootType? (g : Graph) (kind : OperationKind) : Option TypeId :=
  match g.block with
  | some block => (block.operation? kind).bind (·.type.target)
  | none => g.typeId? kind.defaultTypeName

/-- The root that these types make up. -/
def impliedRoot? (g : Graph) : Option Root :=
  (g.rootType? .query).map fun query =>
    ⟨g.block, query, g.rootType? .mutation, g.rootType? .subscription⟩

/-- What is remembered on a type that became a root by its name. -/
def rootReferences (g : Graph) (t : TypeId) : List Reference :=
  match g.block with
  | some _ => []
  | none => (OperationKind.all.filter fun kind => g.rootType? kind = some t).map
      fun kind => ⟨.operation kind, .schema⟩

def rootedIds (g : Graph) : List TypeId :=
  match g.impliedRoot? with
  | some root => g.rootedTypes root
  | none => []

/-- The graph with its root resolved. -/
def withRoot (g : Graph) : Graph :=
  { g with
    types := g.types.mapIdx fun i d =>
      { d with
        references := d.references ++ g.rootReferences ⟨i⟩
        rooted := d.rooted || g.rootedIds.contains ⟨i⟩ }
    root := g.impliedRoot? }

theorem impliedRoot?_operation? (g : Graph) {root : Root} (h : g.impliedRoot? = some root)
    (kind : OperationKind) : root.operation? kind = g.rootType? kind := by
  obtain ⟨query, found, rfl⟩ := Option.map_eq_some_iff.mp h
  cases kind with
  | query => exact found.symm
  | mutation => rfl
  | subscription => rfl

/-- Marking follows bodies only. -/
theorem typesWithin_congr {g h : Graph}
    (bodies : ∀ t, (h.typeAt? t).map TypeDef.body = (g.typeAt? t).map TypeDef.body) :
    h.typesWithin = g.typesWithin := by
  funext t
  have same := bodies t
  unfold typesWithin
  cases hg : g.typeAt? t <;> cases hh : h.typeAt? t <;> simp [hg, hh] at same ⊢
  rw [same]

theorem rootedTypes_congr {g h : Graph} (size : h.types.size = g.types.size)
    (bodies : ∀ t, (h.typeAt? t).map TypeDef.body = (g.typeAt? t).map TypeDef.body) (root : Root) :
    h.rootedTypes root = g.rootedTypes root := by
  simp only [rootedTypes, typeIds, typesWithin_congr bodies, size]

/-- The bindings of a block are distinct, name objects, and bind the query. -/
structure BlockSound (g : Graph) (block : SchemaBlock) : Prop where
  kinds : (block.operations.map OperationBinding.kind).Nodup
  types : (block.operations.map fun o => o.type.target).Nodup
  objects : ∀ o ∈ block.operations, ∀ t d, g.resolve o.type = some (t, d) → d.isObject = true
  query : .query ∈ block.operations.map OperationBinding.kind

/-- Types with default names are objects that nothing else refers to, and there is one for the
query unless there is none at all. -/
structure NamesSound (g : Graph) (required : Bool) : Prop where
  objects : ∀ (kind : OperationKind) t d, g.typeId? kind.defaultTypeName = some t →
    g.typeAt? t = some d → d.isObject = true
  unreferenced : ∀ (kind : OperationKind) t d, g.typeId? kind.defaultTypeName = some t →
    g.typeAt? t = some d → ∀ r ∈ d.references, r.site.owningType? = some t
  query : (g.typeId? OperationKind.query.defaultTypeName).isSome ∨
    (required = false ∧ ∀ kind : OperationKind, g.typeId? kind.defaultTypeName = none)

def RootSound (g : Graph) (required : Bool) : Prop :=
  match g.block with
  | some block => g.BlockSound block
  | none => g.NamesSound required

theorem bindOperation_problems_iff (g : Graph) (s : Binding) (o : OperationBinding) {t : TypeId}
    {d : TypeDef} (resolved : g.resolve o.type = some (t, d)) :
    (g.bindOperation s o).problems = [] ↔
      o.kind ∉ s.seen ∧ d.isObject = true ∧ t ∉ s.bound.map Prod.snd := by
  simp only [bindOperation]
  by_cases seen : o.kind ∈ s.seen
  · simp [seen]
  · simp only [List.contains_eq_mem, seen, decide_false, Bool.false_eq_true, ↓reduceIte, resolved]
    by_cases object : d.isObject = true
    · simp only [object, Bool.not_true, Bool.false_eq_true, ↓reduceIte]
      cases taken : s.bound.find? (·.2 == t) with
      | some first =>
        have member := List.mem_of_find?_eq_some taken
        have same : first.2 = t := by simpa using List.find?_some taken
        simp only [Reported.bind_problems, List.append_eq_nil_iff, report_problems, false_and,
          not_false_eq_true, true_and, false_iff, Decidable.not_not]
        exact List.mem_map.mpr ⟨first, member, same⟩
      | none =>
        have absent := List.find?_eq_none.mp taken
        have free : t ∉ s.bound.map Prod.snd := by
          intro member
          obtain ⟨e, present, same⟩ := List.mem_map.mp member
          exact absent e present (by simp [same])
        simp [free]
    · simp [object]

theorem bindOperation_value (g : Graph) (s : Binding) (o : OperationBinding) {t : TypeId}
    {d : TypeDef} (resolved : g.resolve o.type = some (t, d)) (kind : o.kind ∉ s.seen)
    (object : d.isObject = true) (free : t ∉ s.bound.map Prod.snd) :
    (g.bindOperation s o).value = s.take o.kind t := by
  have absent : s.bound.find? (·.2 == t) = none := by
    rw [List.find?_eq_none]
    intro e member same
    exact free (List.mem_map.mpr ⟨e, member, by simpa using same⟩)
  simp [bindOperation, kind, resolved, object, absent, Binding.take]

theorem resolve_target {g : Graph} {ref : TypeRef} {t : TypeId} {d : TypeDef}
    (h : g.resolve ref = some (t, d)) : ref.target = some t ∧ g.typeAt? t = some d := by
  rw [resolve, Option.bind_eq_some_iff] at h
  obtain ⟨u, target, found⟩ := h
  obtain ⟨e, at_u, same⟩ := Option.map_eq_some_iff.mp found
  cases same
  exact ⟨target, at_u⟩

/-- The pairs of operation and type that a list of bindings gives. -/
def boundPairs (ops : List OperationBinding) : List (OperationKind × TypeId) :=
  ops.filterMap fun o => o.type.target.map fun t => (o.kind, t)

/-- Bindings that can all be taken after those already read: kinds and types stay distinct, and
every type is an object. -/
structure Bindable (g : Graph) (s : Binding) (ops : List OperationBinding) : Prop where
  unseen : ∀ o ∈ ops, o.kind ∉ s.seen
  kinds : (ops.map OperationBinding.kind).Nodup
  objects : ∀ o ∈ ops, ∀ t d, g.resolve o.type = some (t, d) → d.isObject = true
  unbound : ∀ o ∈ ops, ∀ t, o.type.target = some t → t ∉ s.bound.map Prod.snd
  types : (ops.map fun o => o.type.target).Nodup

theorem bindable_nil (g : Graph) (s : Binding) : g.Bindable s [] := by
  constructor <;> simp

/-- The first binding is taken and the others still can be. -/
theorem Bindable.tail {g : Graph} {s : Binding} {o : OperationBinding}
    {rest : List OperationBinding} {t : TypeId} (target : o.type.target = some t)
    (whole : g.Bindable s (o :: rest)) : g.Bindable (s.take o.kind t) rest := by
  obtain ⟨fresh, kinds⟩ := List.nodup_cons.mp whole.kinds
  obtain ⟨apart, types⟩ := List.nodup_cons.mp whole.types
  refine ⟨?_, kinds, ?_, ?_, types⟩
  · intro o' member seen
    rcases List.mem_append.mp seen with seen | seen
    · exact whole.unseen o' (List.mem_cons_of_mem _ member) seen
    · exact fresh (List.mem_map.mpr ⟨o', member, List.mem_singleton.mp seen⟩)
  · exact fun o' member => whole.objects o' (List.mem_cons_of_mem _ member)
  · intro o' member t' target' bound
    simp only [Binding.take, List.map_append, List.map_cons, List.map_nil, List.mem_append,
      List.mem_singleton] at bound
    rcases bound with bound | rfl
    · exact whole.unbound o' (List.mem_cons_of_mem _ member) t' target' bound
    · exact apart (List.mem_map.mpr ⟨o', member, target'.trans target.symm⟩)

/-- A binding comes before others that can be taken after it. -/
theorem Bindable.cons {g : Graph} {s : Binding} {o : OperationBinding}
    {rest : List OperationBinding} {t : TypeId} {d : TypeDef}
    (found : g.resolve o.type = some (t, d)) (kind : o.kind ∉ s.seen)
    (object : d.isObject = true) (free : t ∉ s.bound.map Prod.snd)
    (later : g.Bindable (s.take o.kind t) rest) : g.Bindable s (o :: rest) := by
  have target : o.type.target = some t := (resolve_target found).1
  have unseen (o' : OperationBinding) (member : o' ∈ rest) :
      o'.kind ∉ s.seen ∧ o'.kind ≠ o.kind := by
    simpa [Binding.take] using later.unseen o' member
  have unbound (o' : OperationBinding) (member : o' ∈ rest) (t' : TypeId)
      (target' : o'.type.target = some t') : t' ∉ s.bound.map Prod.snd ∧ t' ≠ t := by
    simpa [Binding.take] using later.unbound o' member t' target'
  constructor
  · rw [List.forall_mem_cons]
    exact ⟨kind, fun o' member => (unseen o' member).1⟩
  · rw [List.map_cons, List.nodup_cons]
    refine ⟨fun member => ?_, later.kinds⟩
    obtain ⟨o', present, same⟩ := List.mem_map.mp member
    exact (unseen o' present).2 same
  · rw [List.forall_mem_cons]
    refine ⟨fun t' d' found' => ?_, later.objects⟩
    cases found.symm.trans found'
    exact object
  · rw [List.forall_mem_cons]
    refine ⟨fun t' target' => ?_, fun o' member t' target' => (unbound o' member t' target').1⟩
    cases target.symm.trans target'
    exact free
  · rw [List.map_cons, List.nodup_cons]
    refine ⟨fun member => ?_, later.types⟩
    obtain ⟨o', present, same⟩ := List.mem_map.mp member
    exact (unbound o' present t (same.trans target)).2 rfl

/-- Reading bindings one by one: nothing is reported exactly if they can all be taken, and then
each is taken as it stands. -/
theorem through_bindOperation (g : Graph) (ops : List OperationBinding) (s : Binding)
    (resolved : ∀ o ∈ ops, ∃ t d, g.resolve o.type = some (t, d)) :
    ((Reported.through g.bindOperation s ops).problems = [] ↔ g.Bindable s ops) ∧
    ((Reported.through g.bindOperation s ops).problems = [] →
      (Reported.through g.bindOperation s ops).value =
        { s with
          seen := s.seen ++ ops.map OperationBinding.kind
          bound := s.bound ++ boundPairs ops }) := by
  induction ops generalizing s with
  | nil => simp [boundPairs, bindable_nil]
  | cons o rest ih =>
    obtain ⟨t, d, found⟩ := resolved o List.mem_cons_self
    have target : o.type.target = some t := (resolve_target found).1
    have later : ∀ o ∈ rest, ∃ t d, g.resolve o.type = some (t, d) :=
      fun o member => resolved o (List.mem_cons_of_mem _ member)
    rw [Reported.through_cons_problems, Reported.through_cons_value, List.append_eq_nil_iff,
      g.bindOperation_problems_iff s o found]
    refine ⟨⟨?_, ?_⟩, ?_⟩
    · rintro ⟨⟨kind, object, free⟩, quiet⟩
      rw [g.bindOperation_value s o found kind object free] at quiet
      exact .cons found kind object free ((ih _ later).1.mp quiet)
    · intro whole
      have kind := whole.unseen o List.mem_cons_self
      have object := whole.objects o List.mem_cons_self t d found
      have free := whole.unbound o List.mem_cons_self t target
      refine ⟨⟨kind, object, free⟩, ?_⟩
      rw [g.bindOperation_value s o found kind object free]
      exact (ih _ later).1.mpr (whole.tail target)
    · rintro ⟨⟨kind, object, free⟩, quiet⟩
      rw [g.bindOperation_value s o found kind object free] at quiet ⊢
      rw [(ih _ later).2 quiet]
      simp [boundPairs, target, Binding.take]

theorem boundPairs_find? (ops : List OperationBinding) (kind : OperationKind)
    (linked : ∀ o ∈ ops, o.type.target.isSome) :
    ((boundPairs ops).find? (·.1 == kind)).map Prod.snd =
      (ops.find? (·.kind == kind)).bind (·.type.target) := by
  induction ops with
  | nil => rfl
  | cons o rest ih =>
    obtain ⟨t, target⟩ := Option.isSome_iff_exists.mp (linked o List.mem_cons_self)
    have later := ih fun o member => linked o (List.mem_cons_of_mem _ member)
    by_cases same : o.kind = kind
    · simp [boundPairs, target, same]
    · simpa [boundPairs, target, same] using later

theorem declaredRoot_problems_iff (g : Graph) (block : SchemaBlock)
    (resolved : ∀ o ∈ block.operations, ∃ t d, g.resolve o.type = some (t, d)) :
    (g.declaredRoot block).problems = [] ↔ g.BlockSound block := by
  obtain ⟨quiet_iff, value⟩ := g.through_bindOperation block.operations {} resolved
  simp only [declaredRoot]
  by_cases empty : block.operations.isEmpty = true
  · have none_bound : block.operations = [] := List.isEmpty_iff.mp empty
    simp only [empty, ↓reduceIte, Reported.bind_problems, List.append_eq_nil_iff,
      report_problems, false_and, false_iff]
    intro sound
    simpa [none_bound] using sound.query
  · simp only [empty, Bool.false_eq_true, ↓reduceIte, Reported.bind_problems,
      List.append_eq_nil_iff]
    constructor
    · rintro ⟨quiet, rest⟩
      have whole := quiet_iff.mp quiet
      refine ⟨whole.kinds, whole.types, whole.objects, ?_⟩
      rw [value quiet] at rest
      by_cases query : OperationKind.query ∈ block.operations.map OperationBinding.kind
      · exact query
      · simp [List.contains_eq_mem, query] at rest
    · intro sound
      have quiet := quiet_iff.mpr ⟨by simp, sound.kinds, sound.objects, by simp, sound.types⟩
      refine ⟨quiet, ?_⟩
      rw [value quiet]
      simp [List.contains_eq_mem, sound.query]

theorem declaredRoot_value (g : Graph) (block : SchemaBlock) (declared : g.block = some block)
    (resolved : ∀ o ∈ block.operations, ∃ t d, g.resolve o.type = some (t, d))
    (sound : g.BlockSound block) : (g.declaredRoot block).value = g.impliedRoot? := by
  obtain ⟨quiet_iff, value⟩ := g.through_bindOperation block.operations {} resolved
  have quiet := quiet_iff.mpr ⟨by simp, sound.kinds, sound.objects, by simp, sound.types⟩
  have linked : ∀ o ∈ block.operations, o.type.target.isSome := by
    intro o member
    obtain ⟨t, d, found⟩ := resolved o member
    simp [(resolve_target found).1]
  have bound (kind : OperationKind) :
      ((boundPairs block.operations).find? (·.1 == kind)).map Prod.snd = g.rootType? kind := by
    simp only [rootType?, declared, SchemaBlock.operation?]
    exact boundPairs_find? block.operations kind linked
  have nonempty : block.operations.isEmpty = false := by
    rw [List.isEmpty_eq_false_iff]
    intro empty
    simpa [empty] using sound.query
  simp only [declaredRoot, nonempty, Bool.false_eq_true, ↓reduceIte, Reported.bind_value,
    value quiet]
  simp [List.contains_eq_mem, sound.query, Binding.typeOf?, bound, impliedRoot?, declared]

theorem rootCandidate_problems_iff (g : Graph) (kind : OperationKind) {t : TypeId} {d : TypeDef}
    (found : g.typeAt? t = some d) :
    (g.rootCandidate kind t).problems = [] ↔
      d.isObject = true ∧ ∀ r ∈ d.references, r.site.owningType? = some t := by
  simp only [rootCandidate, found]
  by_cases object : d.isObject = true
  · simp only [object, Bool.not_true, Bool.false_eq_true, ↓reduceIte, true_and]
    cases foreign : d.references.find? fun r => r.site.owningType? != some t with
    | some r =>
      have member := List.mem_of_find?_eq_some foreign
      have other : r.site.owningType? ≠ some t := by simpa using List.find?_some foreign
      simp only [Reported.bind_problems, List.append_eq_nil_iff, report_problems, false_and,
        false_iff]
      exact fun own => other (own r member)
    | none =>
      have own := List.find?_eq_none.mp foreign
      simpa using own
  · simp [object]

theorem rootCandidate_value (g : Graph) (kind : OperationKind) {t : TypeId} {d : TypeDef}
    (found : g.typeAt? t = some d) (quiet : (g.rootCandidate kind t).problems = []) :
    (g.rootCandidate kind t).value = some t := by
  obtain ⟨object, own⟩ := (g.rootCandidate_problems_iff kind found).mp quiet
  have none_foreign : d.references.find? (fun r => r.site.owningType? != some t) = none := by
    rw [List.find?_eq_none]
    intro r member
    simp [own r member]
  simp [rootCandidate, found, object, none_foreign]

theorem typeAt?_of_typeId? {g : Graph} (distinct : g.types.keys.Nodup) {name : String} {t : TypeId}
    (h : g.typeId? name = some t) : ∃ d, g.typeAt? t = some d := by
  obtain ⟨i, found, rfl⟩ := Option.map_eq_some_iff.mp h
  obtain ⟨d, entry⟩ := (Table.indexOf?_eq_some_iff distinct name i).mp found
  exact ⟨d, by simp [typeAt?, entry]⟩

/-- A default name asks nothing of a graph without such a type. -/
theorem detectOperation_problems_iff (g : Graph) (distinct : g.types.keys.Nodup)
    (kind : OperationKind) :
    (g.detectOperation kind).problems = [] ↔
      ∀ t d, g.typeId? kind.defaultTypeName = some t → g.typeAt? t = some d →
        d.isObject = true ∧ ∀ r ∈ d.references, r.site.owningType? = some t := by
  simp only [detectOperation]
  cases named : g.typeId? kind.defaultTypeName with
  | none => simp
  | some t =>
    obtain ⟨d, found⟩ := typeAt?_of_typeId? distinct named
    simp only [Reported.bind_problems, Reported.pure_problems, List.append_nil,
      g.rootCandidate_problems_iff kind found, Option.some.injEq]
    constructor
    · rintro sound _ d' rfl found'
      rw [found] at found'
      cases found'
      exact sound
    · exact fun sound => sound t d rfl found

theorem detectOperation_value (g : Graph) (distinct : g.types.keys.Nodup) (kind : OperationKind)
    (quiet : (g.detectOperation kind).problems = []) :
    (g.detectOperation kind).value =
      (g.typeId? kind.defaultTypeName).map fun t => (kind, some t) := by
  simp only [detectOperation] at quiet ⊢
  cases named : g.typeId? kind.defaultTypeName with
  | none => rfl
  | some t =>
    obtain ⟨d, found⟩ := typeAt?_of_typeId? distinct named
    simp only [named, Reported.bind_problems, Reported.pure_problems, List.append_nil] at quiet
    simp [g.rootCandidate_value kind found quiet]

/-- The references to a type among recorded operations. -/
def recorded (good : List (OperationKind × TypeId)) (t : TypeId) : List Reference :=
  (good.filter fun e => e.2 = t).map fun e => ⟨.operation e.1, .schema⟩

def withReferences (g : Graph) (added : TypeId → List Reference) : Graph :=
  { g with types := g.types.mapIdx fun i d => { d with references := d.references ++ added ⟨i⟩ } }

theorem withReferences_congr {g : Graph} {f h : TypeId → List Reference}
    (same : ∀ i, (g.types.at? i).isSome → f ⟨i⟩ = h ⟨i⟩) :
    g.withReferences f = g.withReferences h := by
  simp only [withReferences, mk.injEq, and_true]
  apply Table.ext_at?
  intro i
  cases found : g.types.at? i with
  | none => simp [found]
  | some e => simp [found, same i (by simp [found])]

theorem withReferences_nothing {g : Graph} {f : TypeId → List Reference}
    (nothing : ∀ i, (g.types.at? i).isSome → f ⟨i⟩ = []) : g.withReferences f = g := by
  have same : (g.types.mapIdx fun i d => { d with references := d.references ++ f ⟨i⟩ }) =
      g.types := by
    apply Table.ext_at?
    intro i
    cases found : g.types.at? i with
    | none => simp [found]
    | some e => simp [found, nothing i (by simp [found])]
  rw [withReferences, same]

/-- Each recorded operation adds one reference to its own type. -/
theorem recordRoot_value (g : Graph) (e : OperationKind × TypeId) :
    (recordRoot g e).value = g.withReferences (recorded [e]) := by
  obtain ⟨kind, t⟩ := e
  simp only [recordRoot]
  cases found : g.typeAt? t with
  | none =>
    have missing : g.types.at? t.index = none := by simpa [typeAt?] using found
    refine (withReferences_nothing fun i present => ?_).symm
    have differs : t ≠ ⟨i⟩ := by
      rintro rfl
      simp [missing] at present
    simp [recorded, differs]
  | some d =>
    simp only [Reported.bind_value, Reported.pure_value, withReferences, mk.injEq, and_true]
    apply Table.ext_at?
    intro i
    by_cases same : i = t.index
    · subst same
      simp [recorded]
    · have differs : t ≠ ⟨i⟩ := fun h => same (by rw [h])
      simp [recorded, same, differs]

theorem recordRoot_problems (g : Graph) (e : OperationKind × TypeId) :
    (recordRoot g e).problems = [] := by
  simp only [recordRoot]
  split <;> simp

theorem withReferences_withReferences (g : Graph) (f h : TypeId → List Reference) :
    (g.withReferences f).withReferences h = g.withReferences fun t => f t ++ h t := by
  simp only [withReferences, mk.injEq, and_true]
  apply Table.ext_at?
  intro i
  simp [Function.comp_def]

theorem through_recordRoot (g : Graph) (good : List (OperationKind × TypeId)) :
    (Reported.through recordRoot g good).problems = [] ∧
      (Reported.through recordRoot g good).value = g.withReferences (recorded good) := by
  induction good generalizing g with
  | nil => exact ⟨rfl, (withReferences_nothing fun _ _ => rfl).symm⟩
  | cons first rest ih =>
    rw [Reported.through_cons_problems, Reported.through_cons_value, (ih _).1, (ih _).2,
      recordRoot_problems, recordRoot_value, withReferences_withReferences]
    refine ⟨rfl, withReferences_congr fun i _ => ?_⟩
    simp only [recorded, List.filter_cons]
    split <;> simp

/-- The operations whose default type exists, with these types. -/
def namedPairs (g : Graph) : List (OperationKind × TypeId) :=
  OperationKind.all.filterMap fun kind =>
    (g.typeId? kind.defaultTypeName).map fun t => (kind, t)

theorem namedPairs_find? (g : Graph) (kind : OperationKind) :
    g.namedPairs.find? (·.1 == kind) =
      (g.typeId? kind.defaultTypeName).map fun t => (kind, t) := by
  simp only [namedPairs, OperationKind.all]
  cases query : g.typeId? OperationKind.query.defaultTypeName <;>
    cases mutation : g.typeId? OperationKind.mutation.defaultTypeName <;>
    cases subscription : g.typeId? OperationKind.subscription.defaultTypeName <;>
    cases kind <;> simp [query, mutation, subscription]

theorem recorded_namedPairs (g : Graph) (undeclared : g.block = none) (t : TypeId) :
    recorded g.namedPairs t = g.rootReferences t := by
  have pairs : g.namedPairs =
      OperationKind.all.filterMap fun kind => (g.rootType? kind).map fun t => (kind, t) := by
    simp only [namedPairs, rootType?, undeclared]
  simp only [recorded, rootReferences, undeclared, pairs]
  induction OperationKind.all with
  | nil => rfl
  | cons kind rest ih =>
    cases named : g.rootType? kind with
    | none => simpa [named] using ih
    | some u => by_cases same : u = t <;> simp [named, same, ih]

/-- When every default type may serve, the detected operations are the named ones. -/
theorem detected_eq (g : Graph) (distinct : g.types.keys.Nodup)
    (quiet : (Reported.each g.detectOperation OperationKind.all).problems = []) :
    (Reported.each g.detectOperation OperationKind.all).value.filterMap id =
      g.namedPairs.map fun e => (e.1, some e.2) := by
  rw [Reported.each_problems, List.flatMap_eq_nil_iff] at quiet
  rw [Reported.each_value, List.filterMap_map, namedPairs, List.map_filterMap]
  apply List.filterMap_congr
  intro kind member
  simp [g.detectOperation_value distinct kind (quiet kind member), Function.comp_def]

theorem each_detectOperation_problems_iff (g : Graph) (distinct : g.types.keys.Nodup) :
    (Reported.each g.detectOperation OperationKind.all).problems = [] ↔
      ∀ (kind : OperationKind) t d, g.typeId? kind.defaultTypeName = some t →
        g.typeAt? t = some d →
        d.isObject = true ∧ ∀ r ∈ d.references, r.site.owningType? = some t := by
  rw [Reported.each_problems, List.flatMap_eq_nil_iff]
  constructor
  · intro quiet kind
    exact (g.detectOperation_problems_iff distinct kind).mp (quiet kind (by cases kind <;> decide))
  · intro sound kind _
    exact (g.detectOperation_problems_iff distinct kind).mpr (sound kind)

theorem namedPairs_isEmpty_iff (g : Graph) :
    g.namedPairs = [] ↔ ∀ kind : OperationKind, g.typeId? kind.defaultTypeName = none := by
  simp only [namedPairs, List.filterMap_eq_nil_iff, Option.map_eq_none_iff]
  constructor
  · exact fun h kind => h kind (by cases kind <;> decide)
  · exact fun h kind _ => h kind

theorem detected_find? (g : Graph) (kind : OperationKind) :
    (g.namedPairs.map fun e => (e.1, some e.2)).find? (·.1 == kind) =
      (g.typeId? kind.defaultTypeName).map fun t => (kind, some t) := by
  have unmapped : g.namedPairs.find? ((·.1 == kind) ∘ fun e => (e.1, some e.2)) =
      g.namedPairs.find? (·.1 == kind) := rfl
  rw [List.find?_map, unmapped, namedPairs_find?, Option.map_map]
  rfl

theorem detectedRoot_named (g : Graph) (required : Bool) (distinct : g.types.keys.Nodup)
    (quiet : (Reported.each g.detectOperation OperationKind.all).problems = []) {query : TypeId}
    (named : g.typeId? OperationKind.query.defaultTypeName = some query) :
    (g.detectedRoot required).problems = [] ∧
      (g.detectedRoot required).value =
        (g.withReferences (recorded g.namedPairs),
          some ⟨none, query, g.typeId? OperationKind.mutation.defaultTypeName,
            g.typeId? OperationKind.subscription.defaultTypeName⟩) := by
  have good : (g.namedPairs.map fun e => (e.1, some e.2)).filterMap
      (fun e => e.2.map fun t => (e.1, t)) = g.namedPairs := by
    simp [List.filterMap_map]
  have found := g.detected_find? .query
  rw [named, Option.map_some] at found
  obtain ⟨record_quiet, record_value⟩ := through_recordRoot g g.namedPairs
  simp only [detectedRoot, Reported.bind_problems, Reported.bind_value, quiet, List.nil_append,
    g.detected_eq distinct quiet, found, good, record_quiet, record_value, namedPairs_find?,
    Option.map_map, Function.comp_def, Option.map_id', Reported.pure_problems, Reported.pure_value,
    and_self]

theorem detectedRoot_unnamed (g : Graph) (required : Bool) (distinct : g.types.keys.Nodup)
    (quiet : (Reported.each g.detectOperation OperationKind.all).problems = [])
    (unnamed : g.typeId? OperationKind.query.defaultTypeName = none) :
    ((g.detectedRoot required).problems = [] ↔ required = false ∧ g.namedPairs = []) ∧
      (g.detectedRoot required).value = (g, none) := by
  have found := g.detected_find? .query
  rw [unnamed, Option.map_none] at found
  simp only [detectedRoot, Reported.bind_problems, Reported.bind_value, quiet, List.nil_append,
    g.detected_eq distinct quiet, found]
  by_cases wanted : required = true ∨ g.namedPairs ≠ []
  · have reported : (required || !(g.namedPairs.map fun e => (e.1, some e.2)).isEmpty) = true := by
      simpa using wanted
    simp only [reported, ↓reduceIte, Reported.bind_problems, Reported.bind_value,
      Reported.pure_value, and_true]
    constructor
    · intro silent
      cases (List.append_eq_nil_iff.mp silent).1
    · rintro ⟨optional, empty⟩
      simp [optional, empty] at wanted
  · have silent : (required || !(g.namedPairs.map fun e => (e.1, some e.2)).isEmpty) = false := by
      simpa using wanted
    simp only [silent, Bool.false_eq_true, ↓reduceIte, Reported.pure_problems, Reported.pure_value,
      and_true, true_iff]
    simpa using wanted

theorem detectedRoot_problems_iff (g : Graph) (required : Bool) (distinct : g.types.keys.Nodup) :
    (g.detectedRoot required).problems = [] ↔ g.NamesSound required := by
  have each_iff := g.each_detectOperation_problems_iff distinct
  constructor
  · intro silent
    have quiet : (Reported.each g.detectOperation OperationKind.all).problems = [] := by
      simp only [detectedRoot, Reported.bind_problems, List.append_eq_nil_iff] at silent
      exact silent.1
    have sound := each_iff.mp quiet
    refine ⟨fun k t d n f => (sound k t d n f).1, fun k t d n f => (sound k t d n f).2, ?_⟩
    cases named : g.typeId? OperationKind.query.defaultTypeName with
    | some query => exact Or.inl rfl
    | none =>
      obtain ⟨optional, empty⟩ := (g.detectedRoot_unnamed required distinct quiet named).1.mp silent
      exact Or.inr ⟨optional, g.namedPairs_isEmpty_iff.mp empty⟩
  · intro sound
    have quiet := each_iff.mpr fun k t d n f =>
      ⟨sound.objects k t d n f, sound.unreferenced k t d n f⟩
    rcases sound.query with named | ⟨optional, none_named⟩
    · obtain ⟨query, named⟩ := Option.isSome_iff_exists.mp named
      exact (g.detectedRoot_named required distinct quiet named).1
    · exact (g.detectedRoot_unnamed required distinct quiet (none_named .query)).1.mpr
        ⟨optional, g.namedPairs_isEmpty_iff.mpr none_named⟩

theorem detectedRoot_value (g : Graph) (required : Bool) (distinct : g.types.keys.Nodup)
    (undeclared : g.block = none) (sound : g.NamesSound required) :
    (g.detectedRoot required).value = (g.withReferences g.rootReferences, g.impliedRoot?) := by
  have quiet := (g.each_detectOperation_problems_iff distinct).mpr fun k t d n f =>
    ⟨sound.objects k t d n f, sound.unreferenced k t d n f⟩
  have references : g.withReferences g.rootReferences = g.withReferences (recorded g.namedPairs) :=
    withReferences_congr fun i _ => (g.recorded_namedPairs undeclared ⟨i⟩).symm
  rw [references]
  rcases sound.query with named | ⟨_, none_named⟩
  · obtain ⟨query, named⟩ := Option.isSome_iff_exists.mp named
    rw [(g.detectedRoot_named required distinct quiet named).2]
    simp [impliedRoot?, rootType?, undeclared, named]
  · rw [(g.detectedRoot_unnamed required distinct quiet (none_named .query)).2,
      g.namedPairs_isEmpty_iff.mpr none_named, withReferences_nothing fun _ _ => rfl]
    simp [impliedRoot?, rootType?, undeclared, none_named .query]

/-- The bindings of the schema block, if there is one, have all been linked. -/
def BindingsLinked (g : Graph) : Prop :=
  ∀ block, g.block = some block →
    ∀ o ∈ block.operations, ∃ t d, g.resolve o.type = some (t, d)

/-- Marking reports nothing, so the problems are those of finding the root. -/
theorem resolveRoot_problems (g : Graph) (required : Bool) :
    (g.resolveRoot required).problems =
      match g.block with
      | some block => (g.declaredRoot block).problems
      | none => (g.detectedRoot required).problems := by
  simp only [resolveRoot]
  cases declared : g.block with
  | some block =>
    simp only
    split <;> simp [Reported.problems, Reported.summarize, Event.problem?]
  | none =>
    simp only
    split <;> simp [Reported.problems, Reported.summarize, Event.problem?]

theorem resolveRoot_problems_iff (g : Graph) (required : Bool) (distinct : g.types.keys.Nodup)
    (linked : g.BindingsLinked) :
    (g.resolveRoot required).problems = [] ↔ g.RootSound required := by
  rw [resolveRoot_problems, RootSound]
  cases declared : g.block with
  | some block => exact g.declaredRoot_problems_iff block (linked block declared)
  | none => exact g.detectedRoot_problems_iff required distinct

/-- Marking on top of added references gives the graph with its root. -/
theorem markRooted_withReferences (g : Graph) (root : Option Root) (rooted : List TypeId)
    (added : TypeId → List Reference) :
    { (g.withReferences added).markRooted rooted with root := root } =
      { g with
        types := g.types.mapIdx fun i d =>
          { d with
            references := d.references ++ added ⟨i⟩
            rooted := d.rooted || rooted.contains ⟨i⟩ }
        root := root } := by
  simp only [markRooted, withReferences, mk.injEq, and_true]
  apply Table.ext_at?
  intro i
  simp only [Table.at?_mapIdx, Option.map_map]
  congr 1
  funext e
  by_cases marked : TypeId.mk i ∈ rooted <;> simp [marked]

theorem rootedTypes_withReferences (g : Graph) (added : TypeId → List Reference) (root : Root) :
    (g.withReferences added).rootedTypes root = g.rootedTypes root := by
  apply rootedTypes_congr
  · simp [withReferences]
  · intro t
    simp [typeAt?, withReferences, Function.comp_def]

theorem withRoot_of_none {g : Graph} (implied : g.impliedRoot? = none) (unrooted : g.root = none) :
    g.withReferences g.rootReferences = g.withRoot := by
  simp [withReferences, withRoot, rootedIds, implied, unrooted]

theorem withRoot_of_some {g : Graph} {root : Root} (implied : g.impliedRoot? = some root) :
    { (g.withReferences g.rootReferences).markRooted (g.rootedTypes root) with root := some root } =
      g.withRoot := by
  rw [markRooted_withReferences, withRoot, rootedIds, implied]

/-- A root resolved without a problem is the one implied by the graph. -/
theorem resolveRoot_value (g : Graph) (required : Bool) (distinct : g.types.keys.Nodup)
    (linked : g.BindingsLinked) (unrooted : g.root = none) (sound : g.RootSound required) :
    (g.resolveRoot required).value = g.withRoot := by
  rw [RootSound] at sound
  cases declared : g.block with
  | some block =>
    simp only [declared] at sound
    have root := g.declaredRoot_value block declared (linked block declared) sound
    have nothing : g.withReferences g.rootReferences = g :=
      withReferences_nothing fun i _ => by simp [rootReferences, declared]
    simp only [resolveRoot, declared, Reported.bind_value, Reported.pure_value, root]
    cases implied : g.impliedRoot? with
    | none =>
      have done := withRoot_of_none implied unrooted
      rw [nothing] at done
      exact done
    | some root =>
      have done := withRoot_of_some implied
      rw [nothing] at done
      exact done
  | none =>
    simp only [declared] at sound
    simp only [resolveRoot, declared, g.detectedRoot_value required distinct declared sound]
    cases implied : g.impliedRoot? with
    | none => exact withRoot_of_none implied unrooted
    | some root =>
      simp only [Reported.summarize_value, rootedTypes_withReferences]
      exact withRoot_of_some implied

/-- A sound block binds the query to a type. -/
theorem rootType?_query_isSome {g : Graph} {block : SchemaBlock} (declared : g.block = some block)
    (linked : g.BindingsLinked) (sound : g.BlockSound block) : (g.rootType? .query).isSome := by
  obtain ⟨o, member, kind⟩ := List.mem_map.mp sound.query
  have bound : (block.operation? .query).isSome := by
    rw [SchemaBlock.operation?, List.find?_isSome]
    exact ⟨o, member, by simp [kind]⟩
  obtain ⟨first, found⟩ := Option.isSome_iff_exists.mp bound
  obtain ⟨t, d, resolved⟩ := linked block declared first (List.mem_of_find?_eq_some found)
  simp only [rootType?, declared, found, Option.bind_some, (resolve_target resolved).1,
    Option.isSome_some]

/-- The root serves each operation by the type that the block or the names say. -/
theorem impliedRoot?_bind_operation? {g : Graph} {required : Bool} (linked : g.BindingsLinked)
    (sound : g.RootSound required) (kind : OperationKind) :
    (g.impliedRoot?.bind fun root => root.operation? kind) = g.rootType? kind := by
  cases implied : g.impliedRoot? with
  | some root => exact g.impliedRoot?_operation? implied kind
  | none =>
    have query : g.rootType? .query = none := by
      simpa [impliedRoot?] using implied
    rw [RootSound] at sound
    cases declared : g.block with
    | some block =>
      simp only [declared] at sound
      have bound := rootType?_query_isSome declared linked sound
      rw [query] at bound
      cases bound
    | none =>
      simp only [declared] at sound
      rcases sound.query with named | ⟨_, unnamed⟩
      · simp only [rootType?, declared] at query
        rw [query] at named
        cases named
      · simp only [rootType?, declared, unnamed, Option.bind_none]

theorem withRoot_block? {g : Graph} {required : Bool} (linked : g.BindingsLinked)
    (sound : g.RootSound required) : g.withRoot.toSchema.block? = g.block := by
  have root : g.withRoot.toSchema.block? = g.impliedRoot?.bind Root.block := rfl
  rw [root, impliedRoot?]
  cases query : g.rootType? .query with
  | some t => rfl
  | none =>
    cases declared : g.block with
    | none => rfl
    | some block =>
      simp only [RootSound, declared] at sound
      have bound := rootType?_query_isSome declared linked sound
      rw [query] at bound
      cases bound

end Graph

end SchemaAtlas
