import SchemaAtlas.Proofs.Conformance
import SchemaAtlas.Proofs.RootOutcome

/-!
# Rooted types

A request comes across the types that serve its operation, and from there across the types of
fields, arguments and input fields and the members of unions. It does not come across an interface
for being listed. The walk from the root marks the types that a chain of such steps of any length
leads to, and no others, and it leaves everything but the marks as it was.
-/

namespace SchemaAtlas

open Relation (ReflTransGen)

/-- A request that comes across a type may come across the type at `u` next. -/
@[mk_iff]
inductive TypeDef.Exposes (d : TypeDef) (u : TypeId) : Prop
  | field (shape : Shape) (f : Field) (shaped : d.shape? = some shape)
    (member : f ∈ shape.fields.values) (target : f.type.innermost.target = some u)
  | argument (shape : Shape) (f : Field) (a : InputValue) (shaped : d.shape? = some shape)
    (member : f ∈ shape.fields.values) (taken : a ∈ f.arguments.values)
    (target : a.type.innermost.target = some u)
  | inputField (fields : Table InputValue) (f : InputValue) (input : d.inputFields? = some fields)
    (member : f ∈ fields.values) (target : f.type.innermost.target = some u)
  | unionMember (members : Table TypeRef) (ref : TypeRef) (union : d.body = .union members)
    (member : ref ∈ members.values) (target : ref.target = some u)

namespace Graph

def Exposes (g : Graph) (t u : TypeId) : Prop := ∃ d, g.typeAt? t = some d ∧ d.Exposes u

/-- A chain of any length leads to `t` from a type that serves an operation. -/
def Reached (g : Graph) (root : Root) (t : TypeId) : Prop :=
  ∃ kind start, root.operation? kind = some start ∧ ReflTransGen g.Exposes start t

/-- References are open or lead to types of the graph, as they do once it is linked. -/
def Closed (g : Graph) : Prop := ∀ t u, g.Exposes t u → (g.typeAt? u).isSome

/-- The types that a root names are types of the graph. -/
def RootWithin (g : Graph) (root : Root) : Prop :=
  ∀ kind t, root.operation? kind = some t → (g.typeAt? t).isSome

/-- `after` is `g` with marks on the types that `root` leads to, `count` of them. -/
structure MarksReached (g : Graph) (root : Root) (after : Graph) (count : Nat) : Prop where
  marks : ∀ t, g.Reached root t ↔ ∃ d, after.typeAt? t = some d ∧ d.rooted = true
  counted : after.types.values.countP TypeDef.rooted = count
  types : after.types.map (fun d => { d with rooted := false }) = g.types
  rest : { after with types := g.types } = g

/-- The types next to a type, one list for each kind of body. -/
theorem mem_typesWithin (g : Graph) (t u : TypeId) : u ∈ g.typesWithin t ↔ g.Exposes t u := by
  unfold typesWithin Exposes
  cases found : g.typeAt? t with
  | none => simp
  | some d =>
    obtain ⟨name, description, location, builtIn, usages, body, references, rooted⟩ := d
    simp only [Option.some.injEq, exists_eq_left', TypeDef.exposes_iff, TypeDef.shape?,
      TypeDef.inputFields?]
    cases body with
    | enum values => simp
    | inputObject fields => simp
    | interface shape | object shape => simp [and_or_left, exists_or]
    | scalar => simp
    | union members => simp

/-- What a type exposes is in its body. -/
theorem exposes_congr {g h : Graph}
    (bodies : ∀ t, (h.typeAt? t).map TypeDef.body = (g.typeAt? t).map TypeDef.body) :
    h.Exposes = g.Exposes := by
  funext t u
  rw [← mem_typesWithin, ← mem_typesWithin, typesWithin_congr bodies]

section Walk

variable {g : Graph} {root : Root}

theorem Reached.present (closed : g.Closed) (within : g.RootWithin root) {t : TypeId}
    (reached : g.Reached root t) : (g.typeAt? t).isSome := by
  obtain ⟨kind, start, serves, path⟩ := reached
  cases path with
  | refl => exact within kind t serves
  | tail _ step => exact closed _ t step

theorem mem_rootedTypes (closed : g.Closed) (within : g.RootWithin root) (t : TypeId) :
    t ∈ g.rootedTypes root ↔ g.Reached root t := by
  have steps : StepWithin g.typesWithin g.typeIds = g.Exposes := by
    funext a b
    rw [StepWithin, mem_typesWithin, eq_iff_iff, and_iff_left_iff_imp, ← typeAt?_isSome_iff]
    exact closed a b
  rw [rootedTypes, mem_reach_iff, steps]
  constructor
  · rintro ⟨start, first, _, path⟩
    obtain ⟨kind, _, serves⟩ := List.mem_filterMap.mp first
    exact ⟨kind, start, serves, path⟩
  · rintro ⟨kind, start, serves, path⟩
    refine ⟨start, List.mem_filterMap.mpr ⟨kind, ?_, serves⟩, ?_, path⟩
    · cases kind <;> decide
    · exact (g.typeAt?_isSome_iff start).mp (within kind start serves)

theorem nodup_typeIds (g : Graph) : g.typeIds.Nodup :=
  List.nodup_range.map fun _ _ same => congrArg TypeId.index same

theorem nodup_rootedTypes (g : Graph) (root : Root) : (g.rootedTypes root).Nodup :=
  nodup_reach _ _ g.nodup_typeIds

end Walk

/-! Marking a list of types. -/

theorem markRooted_typeAt? (g : Graph) (listed : List TypeId) (t : TypeId) :
    (g.markRooted listed).typeAt? t = (g.typeAt? t).map fun d =>
      if listed.contains t then { d with rooted := true } else d := by
  simp [markRooted, typeAt?, Function.comp_def]

/-- Only what is listed counts, not in which order or how often. -/
theorem markRooted_congr (g : Graph) {listed listed' : List TypeId}
    (same : ∀ t, t ∈ listed' ↔ t ∈ listed) : g.markRooted listed' = g.markRooted listed := by
  simp only [markRooted, List.contains_iff_mem, same]

section Unmarked

variable {g : Graph} (unmarked : ∀ t d, g.typeAt? t = some d → d.rooted = false)

include unmarked

theorem markRooted_rooted (listed : List TypeId) {t : TypeId} {d : TypeDef}
    (found : (g.markRooted listed).typeAt? t = some d) : d.rooted = listed.contains t := by
  rw [markRooted_typeAt?, Option.map_eq_some_iff] at found
  obtain ⟨old, found, rfl⟩ := found
  cases listed.contains t with
  | true => rfl
  | false => exact unmarked t old found

/-- Without the new marks, the types are as they were. -/
theorem markRooted_types_map (listed : List TypeId) :
    (g.markRooted listed).types.map (fun d => { d with rooted := false }) = g.types := by
  apply Table.ext_at?
  intro i
  simp only [markRooted, Table.at?_map, Table.at?_mapIdx, Option.map_map]
  cases entry : g.types.at? i with
  | none => rfl
  | some e =>
    obtain ⟨name, d⟩ := e
    have plain : d.rooted = false := unmarked ⟨i⟩ d (by rw [typeAt?, entry]; rfl)
    have same : { d with rooted := false } = d := by rw [← plain]
    cases listed.contains ⟨i⟩ <;> simp [same]

/-- The marks, in the order of the types. -/
theorem map_rooted_markRooted (listed : List TypeId) :
    (g.markRooted listed).types.values.map TypeDef.rooted = g.typeIds.map listed.contains := by
  apply List.ext_getElem?
  intro i
  cases entry : g.types.at? i with
  | none =>
    have outside : ¬ i < g.types.size := by
      rw [← Table.at?_isSome_iff, entry]
      decide
    simp [markRooted, entry, typeIds, outside]
  | some e =>
    have inside : i < g.types.size := (Table.at?_isSome_iff _ i).mp (by rw [entry]; rfl)
    have found : (g.markRooted listed).typeAt? ⟨i⟩ =
        some (if listed.contains ⟨i⟩ then { e.2 with rooted := true } else e.2) := by
      rw [markRooted_typeAt?, typeAt?, entry]
      rfl
    have marked := markRooted_rooted unmarked listed found
    simp [markRooted, entry, typeIds, inside] at marked ⊢
    exact marked

theorem countP_markRooted {listed : List TypeId} (distinct : listed.Nodup)
    (within : ∀ t ∈ listed, (g.typeAt? t).isSome) :
    (g.markRooted listed).types.values.countP TypeDef.rooted = listed.length := by
  have kept : (g.typeIds.filter listed.contains).Perm listed := by
    rw [List.perm_ext_iff_of_nodup (g.nodup_typeIds.filter _) distinct]
    intro t
    rw [List.mem_filter, List.contains_iff_mem, and_iff_right_iff_imp, ← typeAt?_isSome_iff]
    exact within t
  calc (g.markRooted listed).types.values.countP TypeDef.rooted
      = ((g.markRooted listed).types.values.map TypeDef.rooted).countP id := by
        rw [List.countP_map]
        rfl
    _ = g.typeIds.countP listed.contains := by
        rw [map_rooted_markRooted unmarked, List.countP_map]
        rfl
    _ = listed.length := by
        rw [List.countP_eq_length_filter, kept.length_eq]

theorem marksReached {root : Root} (closed : g.Closed) (within : g.RootWithin root) :
    g.MarksReached root (g.markRooted (g.rootedTypes root)) (g.rootedTypes root).length where
  marks := by
    intro t
    rw [← mem_rootedTypes closed within]
    constructor
    · intro listed
      obtain ⟨d, found⟩ := Option.isSome_iff_exists.mp
        (((mem_rootedTypes closed within t).mp listed).present closed within)
      have marked : (g.markRooted (g.rootedTypes root)).typeAt? t =
          some { d with rooted := true } := by
        simp [markRooted_typeAt?, found, listed]
      exact ⟨_, marked, rfl⟩
    · rintro ⟨d, found, rooted⟩
      rw [markRooted_rooted unmarked _ found] at rooted
      exact List.contains_iff_mem.mp rooted
  counted := countP_markRooted unmarked (g.nodup_rootedTypes root) fun t listed =>
    ((mem_rootedTypes closed within t).mp listed).present closed within
  types := markRooted_types_map unmarked _
  rest := rfl

end Unmarked

end Graph

/-! Graphs whose names have been looked up. -/

/-- A linked reference leads where its name stands. -/
theorem Names.exposes_linkType {names : Names} {t u : TypeId} {found : List Reference}
    {d : TypeDef} (step : (names.linkType t found d).Exposes u) :
    ∃ name, names.type? name = some u := by
  cases step with
  | field shape f shaped member target =>
    rw [linkType_shape?, Option.map_eq_some_iff] at shaped
    obtain ⟨source, _, rfl⟩ := shaped
    obtain ⟨i, old, _, rfl⟩ := Table.mem_values_mapIdx member
    rw [linkField, TypeUse.innermost_mapRef] at target
    exact ⟨_, target⟩
  | argument shape f a shaped member taken target =>
    rw [linkType_shape?, Option.map_eq_some_iff] at shaped
    obtain ⟨source, _, rfl⟩ := shaped
    obtain ⟨i, old, _, rfl⟩ := Table.mem_values_mapIdx member
    obtain ⟨j, argument, _, rfl⟩ := Table.mem_values_mapIdx taken
    rw [linkInputValue, TypeUse.innermost_mapRef] at target
    exact ⟨_, target⟩
  | inputField fields f input member target =>
    rw [linkType_inputFields?, Option.map_eq_some_iff] at input
    obtain ⟨source, _, rfl⟩ := input
    obtain ⟨i, old, _, rfl⟩ := Table.mem_values_mapIdx member
    rw [linkInputValue, TypeUse.innermost_mapRef] at target
    exact ⟨_, target⟩
  | unionMember members ref union member target =>
    obtain ⟨source, _, rfl⟩ := names.linkBody_eq_union.mp union
    rw [Table.values_map] at member
    obtain ⟨old, _, rfl⟩ := List.mem_map.mp member
    exact ⟨_, target⟩

namespace Graph

theorem linked_closed {g : Graph} (distinct : g.types.keys.Nodup) : g.linked.Closed := by
  rintro t u ⟨d, found, step⟩
  rw [linked_typeAt?, Option.map_eq_some_iff] at found
  obtain ⟨old, _, rfl⟩ := found
  obtain ⟨name, named⟩ := Names.exposes_linkType step
  obtain ⟨target, goal⟩ := typeAt?_of_typeId? distinct named
  rw [linked_typeAt?, goal]
  rfl

/-- Looking names up marks nothing. -/
theorem Fresh.linked_rooted {g : Graph} (fresh : g.Fresh) {t : TypeId} {d : TypeDef}
    (found : g.linked.typeAt? t = some d) : d.rooted = false := by
  rw [linked_typeAt?, Option.map_eq_some_iff] at found
  obtain ⟨old, found, rfl⟩ := found
  exact (fresh.of_typeAt? found).rooted

theorem RootSound.within {g : Graph} {required : Bool} {root : Root}
    (sound : g.RootSound required) (linked : g.BindingsLinked) (distinct : g.types.keys.Nodup)
    (implied : g.impliedRoot? = some root) : g.RootWithin root := by
  intro kind t serves
  rw [g.impliedRoot?_operation? implied] at serves
  obtain ⟨d, found, _⟩ := sound.object linked distinct serves
  rw [found]
  rfl

theorem mem_rootedIds {g : Graph} {required : Bool} (closed : g.Closed)
    (sound : g.RootSound required) (linked : g.BindingsLinked) (distinct : g.types.keys.Nodup)
    (t : TypeId) : t ∈ g.rootedIds ↔ ∃ root, g.impliedRoot? = some root ∧ g.Reached root t := by
  unfold rootedIds
  cases implied : g.impliedRoot? with
  | none => simp
  | some root =>
    simp only [mem_rootedTypes closed (sound.within linked distinct implied),
      Option.some.injEq, exists_eq_left']

end Graph

/-- The walk from a root marks the types that the root leads to and counts them, whatever the order
in which it lists them; and in an accepted schema the marked types are those that its root leads to,
so none if it has no root. -/
theorem rooted_exact :
    (∀ (g : Graph) (root : Root), (∀ t d, g.typeAt? t = some d → d.rooted = false) → g.Closed →
      g.RootWithin root →
        g.MarksReached root (g.markRooted (g.rootedTypes root)) (g.rootedTypes root).length ∧
          ∀ listed, (∀ t, t ∈ listed ↔ t ∈ g.rootedTypes root) →
            g.markRooted listed = g.markRooted (g.rootedTypes root)) ∧
      ∀ (required : Bool) (declarations : List Sourced) (s : Schema),
        (analyze required declarations).result = .ok s → ∀ t d, s.typeAt? t = some d →
          (d.rooted = true ↔ ∃ root, s.root = some root ∧ s.graph.Reached root t) := by
  constructor
  · intro g root unmarked closed within
    exact ⟨Graph.marksReached unmarked closed within, fun listed => g.markRooted_congr⟩
  · intro required declarations s accepted t d found
    obtain ⟨sound, rfl⟩ := (analyze_eq_ok_iff_sound required declarations s).mp accepted
    have fresh := Graph.described_fresh declarations
    have exposes : (Graph.described declarations).resolved.graph.Exposes =
        (Graph.described declarations).linked.Exposes := by
      rw [sound.graph_resolved]
      refine Graph.exposes_congr fun u => ?_
      rw [Graph.withRoot_typeAt?, Option.map_map]
      rfl
    have marked : (Graph.described declarations).linked.withRoot.typeAt? t = some d := found
    rw [Graph.withRoot_typeAt?, Option.map_eq_some_iff] at marked
    obtain ⟨old, linked, rfl⟩ := marked
    rw [Graph.marked, fresh.linked_rooted linked, Bool.false_or, List.contains_iff_mem,
      Graph.mem_rootedIds (Graph.linked_closed fresh.types.distinct) sound.rooted sound.bindings
        fresh.linked_types_distinct]
    simp only [Graph.resolved_root, Graph.Reached, exposes]

/-- `Shop` leads to `Item`, and on to `Book`; `Book` lists `Titled`, but nothing leads there. -/
theorem rooted_exact_bookshop :
    (∃ s root, (analyze true (given bookshop)).result = .ok s ∧ s.root = some root ∧
      s.graph.Reached root ⟨7⟩ ∧ ¬ s.graph.Reached root ⟨6⟩ ∧ s.graph.Implements ⟨7⟩ ⟨6⟩) ∧
    (Graph.described (given bookshop)).linked.MarksReached ⟨none, ⟨11⟩, none, none⟩
      ((Graph.described (given bookshop)).linked.markRooted
        ((Graph.described (given bookshop)).linked.rootedTypes ⟨none, ⟨11⟩, none, none⟩)) 10 := by
  constructor
  · obtain ⟨s, accepted, facts⟩ : ∃ s, (analyze true (given bookshop)).result = .ok s ∧
        (s.root.isSome && (s.typeAt? ⟨7⟩).any TypeDef.rooted &&
          (s.typeAt? ⟨6⟩).any (!·.rooted) && decide (s.graph.Implements ⟨7⟩ ⟨6⟩)) = true :=
      exists_of_any (by decide +kernel)
    simp only [Bool.and_eq_true, Option.any_eq_true, decide_eq_true_iff] at facts
    obtain ⟨⟨⟨hasRoot, book, foundBook, marked⟩, titled, foundTitled, plain⟩, listed⟩ := facts
    obtain ⟨root, known⟩ := Option.isSome_iff_exists.mp hasRoot
    obtain ⟨root', known', reached⟩ :=
      (rooted_exact.2 true (given bookshop) s accepted ⟨7⟩ book foundBook).mp marked
    cases known.symm.trans known'
    refine ⟨s, root, accepted, known, reached, fun reached' => ?_, listed⟩
    rw [(rooted_exact.2 true (given bookshop) s accepted ⟨6⟩ titled foundTitled).mpr
      ⟨root, known, reached'⟩] at plain
    cases plain
  · have fresh := Graph.described_fresh (given bookshop)
    have count : ((Graph.described (given bookshop)).linked.rootedTypes
        ⟨none, ⟨11⟩, none, none⟩).length = 10 := by decide +kernel
    rw [← count]
    refine (rooted_exact.1 _ _ ?_ (Graph.linked_closed fresh.types.distinct) ?_).1
    · exact fun t d => fresh.linked_rooted
    · intro kind t serves
      cases kind with
      | query =>
        cases serves
        decide +kernel
      | mutation => cases serves
      | subscription => cases serves

end SchemaAtlas
