import SchemaAtlas.Builder
import SchemaAtlas.Proofs.References

/-!
# Outcomes of root resolution

Whether a root is required matters to one kind of buffer only, that which implies no root at all:
there it is one problem more. An accepted schema without a root comes from such a buffer. In any
other, each operation is served by an object of its own, which is the type that the schema block
binds or else the type of the default name.
-/

namespace SchemaAtlas

namespace Graph

/-- There is nothing to take a root from: no schema block, and no type of a default name. -/
def Rootless (g : Graph) : Prop :=
  g.block = none ∧ ∀ kind : OperationKind, kind.defaultTypeName ∉ g.types.keys

theorem typeId?_eq_none_iff (g : Graph) (name : String) :
    g.typeId? name = none ↔ name ∉ g.types.keys := by
  simp [typeId?, Table.indexOf?]

theorem rootless_iff (g : Graph) :
    g.Rootless ↔
      g.block = none ∧ ∀ kind : OperationKind, g.typeId? kind.defaultTypeName = none := by
  simp only [Rootless, typeId?_eq_none_iff]

theorem rootless_linked_iff (g : Graph) : g.linked.Rootless ↔ g.Rootless := by
  simp [Rootless]

/-- What root resolution adds when it requires a root in vain. -/
def missingRoot : Diagnostic := ⟨.queryTypeNotDefined, none, .schema⟩

theorem detectOperation_value_eq_none_iff (g : Graph) (kind : OperationKind) :
    (g.detectOperation kind).value = none ↔ g.typeId? kind.defaultTypeName = none := by
  simp only [detectOperation]
  cases g.typeId? kind.defaultTypeName <;> simp

theorem detected_eq_nil_iff (g : Graph) :
    (Reported.each g.detectOperation OperationKind.all).value.filterMap id = [] ↔
      ∀ kind : OperationKind, g.typeId? kind.defaultTypeName = none := by
  simp only [Reported.each_value, List.filterMap_eq_nil_iff, List.forall_mem_map, id_eq,
    detectOperation_value_eq_none_iff]
  constructor
  · exact fun absent kind => absent kind (by cases kind <;> decide)
  · exact fun absent kind _ => absent kind

/-- Once a default type exists, detection does the same whether or not a root is required. -/
theorem detectedRoot_of_named (g : Graph)
    (named : ¬ ∀ kind : OperationKind, g.typeId? kind.defaultTypeName = none) :
    g.detectedRoot true = g.detectedRoot false := by
  have detected : ((Reported.each g.detectOperation OperationKind.all).value.filterMap id).isEmpty =
      false := by
    rwa [List.isEmpty_eq_false_iff, ne_eq, detected_eq_nil_iff]
  refine Reported.bind_congr_value ?_
  simp only [detected, Bool.not_false, Bool.or_true]

theorem detectedRoot_of_unnamed (g : Graph)
    (unnamed : ∀ kind : OperationKind, g.typeId? kind.defaultTypeName = none) :
    (g.detectedRoot true).problems = (g.detectedRoot false).problems ++ [missingRoot] := by
  have detected := g.detected_eq_nil_iff.mpr unnamed
  simp only [detectedRoot, Reported.bind_problems, detected, List.find?_nil]
  simp [missingRoot, Reported.problems, Event.problem?]

theorem resolveRoot_of_rooted {g : Graph} (rooted : ¬ g.Rootless) :
    g.resolveRoot true = g.resolveRoot false := by
  simp only [resolveRoot]
  cases declared : g.block with
  | some block => rfl
  | none =>
    have named : ¬ ∀ kind : OperationKind, g.typeId? kind.defaultTypeName = none :=
      fun absent => rooted (g.rootless_iff.mpr ⟨declared, absent⟩)
    simp only [g.detectedRoot_of_named named]

theorem resolveRoot_of_rootless {g : Graph} (rootless : g.Rootless) :
    (g.resolveRoot true).problems = (g.resolveRoot false).problems ++ [missingRoot] := by
  obtain ⟨undeclared, unnamed⟩ := g.rootless_iff.mp rootless
  simp only [resolveRoot_problems, undeclared, g.detectedRoot_of_unnamed unnamed]

/-- The root of a schema that the graph describes. -/
structure Serves (g : Graph) (s : Schema) (root : Root) : Prop where
  objects : ∀ kind t, root.operation? kind = some t →
    ∃ d, s.typeAt? t = some d ∧ d.kind = .object
  distinct : ∀ kind kind' t, root.operation? kind = some t → root.operation? kind' = some t →
    kind = kind'
  /-- With a schema block, each kind is bound once at most, and to the type that its binding
  names. -/
  declared : ∀ block, g.block = some block →
    (block.operations.map OperationBinding.kind).Nodup ∧
    ∀ kind t, root.operation? kind = some t ↔
      ∃ o ∈ block.operations, o.kind = kind ∧ s.typeId? o.type.name = some t
  /-- Without one, the types of the default names serve. -/
  detected : g.block = none → ∀ kind : OperationKind,
    root.operation? kind = s.typeId? kind.defaultTypeName
  /-- Such a type is named nowhere but in its own body, and as a root. -/
  apart : g.block = none → ∀ (kind : OperationKind) t, root.operation? kind = some t →
    ∀ r, s.Refers t kind.defaultTypeName r →
      r.site.owningType? = some t ∨ r = ⟨.operation kind, .schema⟩

/-- The types that serve the operations of a sound graph are objects. -/
theorem RootSound.object {g : Graph} {required : Bool} (sound : g.RootSound required)
    (linked : g.BindingsLinked) (distinct : g.types.keys.Nodup) {kind : OperationKind} {t : TypeId}
    (serves : g.rootType? kind = some t) : ∃ d, g.typeAt? t = some d ∧ d.isObject = true := by
  cases declared : g.block with
  | some block =>
    simp only [RootSound, declared] at sound
    simp only [rootType?, declared] at serves
    obtain ⟨o, bound, target⟩ := Option.bind_eq_some_iff.mp serves
    have member := List.mem_of_find?_eq_some bound
    obtain ⟨u, d, resolved⟩ := linked block declared o member
    obtain ⟨target', found⟩ := resolve_target resolved
    cases target.symm.trans target'
    exact ⟨d, found, sound.objects o member t d resolved⟩
  | none =>
    simp only [RootSound, declared] at sound
    simp only [rootType?, declared] at serves
    obtain ⟨d, found⟩ := typeAt?_of_typeId? distinct serves
    exact ⟨d, found, sound.objects kind t d serves found⟩

/-- No type serves two operations of a sound graph. -/
theorem RootSound.injective {g : Graph} {required : Bool} (sound : g.RootSound required)
    (distinct : g.types.keys.Nodup) {kind kind' : OperationKind} {t : TypeId}
    (serves : g.rootType? kind = some t) (serves' : g.rootType? kind' = some t) : kind = kind' := by
  cases declared : g.block with
  | some block =>
    simp only [RootSound, declared] at sound
    simp only [rootType?, declared] at serves serves'
    obtain ⟨o, bound, target⟩ := Option.bind_eq_some_iff.mp serves
    obtain ⟨o', bound', target'⟩ := Option.bind_eq_some_iff.mp serves'
    obtain ⟨member, rfl⟩ := (operation?_eq_some_iff sound.kinds kind o).mp bound
    obtain ⟨member', rfl⟩ := (operation?_eq_some_iff sound.kinds kind' o').mp bound'
    rw [List.inj_on_of_nodup_map sound.types member member' (target.trans target'.symm)]
  | none =>
    simp only [rootType?, declared] at serves serves'
    exact OperationKind.defaultTypeName_injective (typeId?_injective distinct serves serves')

end Graph

/-- An analysis depends on the requirement only through root resolution. -/
theorem analyze_of_rooted {declarations : List Sourced}
    (rooted : ¬ (Graph.described declarations).Rootless) :
    analyze true declarations = analyze false declarations := by
  have same := Graph.resolveRoot_of_rooted
    (mt (Graph.described declarations).rootless_linked_iff.mp rooted)
  have graphs : analyzeGraph true declarations = analyzeGraph false declarations :=
    Reported.bind_congr_value <| Reported.bind_congr_value <| Reported.bind_congr_value same
  simp only [analyze, graphs]

theorem analyze_of_rootless {declarations : List Sourced}
    (noExecutable : firstExecutable? declarations = none)
    (rootless : (Graph.described declarations).Rootless) :
    (analyze true declarations).problems =
      (analyze false declarations).problems ++ [Graph.missingRoot] := by
  have added := Graph.resolveRoot_of_rootless
    ((Graph.described declarations).rootless_linked_iff.mpr rootless)
  simp only [analyze_problems _ noExecutable, analyzeGraph_problems, added, List.append_assoc]

namespace Sound

variable {required : Bool} {declarations : List Sourced}

theorem root_eq_none_iff (sound : Sound required declarations) :
    (Graph.described declarations).resolved.root = none ↔
      (Graph.described declarations).Rootless := by
  have bindings := sound.bindings
  have rooted := sound.rooted
  generalize Graph.described declarations = g at *
  rw [← g.rootless_linked_iff, g.linked.rootless_iff, Graph.resolved_root, Graph.impliedRoot?,
    Option.map_eq_none_iff]
  cases declared : g.linked.block with
  | some block =>
    simp only [Graph.RootSound, declared] at rooted
    have bound := Graph.rootType?_query_isSome declared bindings rooted
    simp [Option.isSome_iff_ne_none.mp bound]
  | none =>
    simp only [Graph.RootSound, declared] at rooted
    simp only [Graph.rootType?, declared, true_and]
    constructor
    · intro unnamed
      rcases rooted.query with named | ⟨_, absent⟩
      · rw [unnamed] at named
        cases named
      · exact absent
    · exact fun absent => absent .query

theorem not_required_of_rootless (sound : Sound required declarations)
    (rootless : (Graph.described declarations).Rootless) : required = false := by
  obtain ⟨undeclared, unnamed⟩ :=
    (Graph.rootless_iff _).mp ((Graph.rootless_linked_iff _).mpr rootless)
  have rooted := sound.rooted
  simp only [Graph.RootSound, undeclared] at rooted
  rcases rooted.query with named | ⟨optional, _⟩
  · rw [unnamed .query] at named
    cases named
  · exact optional

/-- The site of a type that serves by its name is in the type itself, unless it is the root's. -/
theorem refers_apart (sound : Sound required declarations)
    (undeclared : (Graph.described declarations).block = none) {kind : OperationKind} {t : TypeId}
    (serves : (Graph.described declarations).linked.rootType? kind = some t) {r : Reference}
    (refers : (Graph.described declarations).resolved.Refers t kind.defaultTypeName r) :
    r.site.owningType? = some t ∨ r = ⟨.operation kind, .schema⟩ := by
  have fresh := Graph.described_fresh declarations
  have rooted := sound.rooted
  have block : (Graph.described declarations).linked.block = none := by
    rw [Graph.linked_block, undeclared, Option.map_none]
  have named := serves
  simp only [Graph.rootType?, block] at named
  obtain ⟨d, entry⟩ := (Graph.typeId?_eq_some_iff fresh.linked_types_distinct _ t).mp named
  rw [Graph.linked_types_at?, Option.map_eq_some_iff] at entry
  obtain ⟨⟨name, d₀⟩, collected, same⟩ := entry
  cases same
  rcases (sound.refers_iff collected r).mp refers with standing | own
  · have found := (Graph.described declarations).linked_typeAt? t
    rw [Graph.typeAt?.eq_1 (Graph.described declarations), collected] at found
    simp only [Graph.RootSound, block] at rooted
    refine .inl (rooted.unreferenced kind t _ named found r (List.mem_append_right _ ?_))
    exact (Graph.mem_referencesOf_typeReferences fresh collected r).mpr standing
  · obtain ⟨_, kind', serves', rfl⟩ := (Graph.mem_rootReferences _ t r).mp own
    rw [sound.rooted.injective fresh.linked_types_distinct serves serves']
    exact .inr rfl

theorem serves (sound : Sound required declarations) {root : Root}
    (found : (Graph.described declarations).resolved.root = some root) :
    (Graph.described declarations).Serves (Graph.described declarations).resolved root := by
  have distinct := (Graph.described_fresh declarations).linked_types_distinct
  have operation (kind : OperationKind) :
      root.operation? kind = (Graph.described declarations).linked.rootType? kind :=
    Graph.impliedRoot?_operation? _ found kind
  refine ⟨?_, ?_, ?_, ?_, ?_⟩
  · intro kind t served
    rw [operation] at served
    obtain ⟨d, linked, object⟩ := sound.rooted.object sound.bindings distinct served
    rw [Graph.linked_typeAt?, Option.map_eq_some_iff] at linked
    obtain ⟨d₀, collected, rfl⟩ := linked
    refine ⟨(Graph.described declarations).resolvedType t d₀, ?_, ?_⟩
    · rw [Graph.resolved_typeAt?, collected, Option.map_some]
    · rw [TypeDef.isObject, beq_iff_eq] at object
      exact object
  · intro kind kind' t served served'
    rw [operation] at served served'
    exact sound.rooted.injective distinct served served'
  · intro block declared
    have kinds := Graph.linked_block_kinds sound.rooted block declared
    refine ⟨kinds, fun kind t => ?_⟩
    rw [operation, Graph.linked_rootType?_of_block declared, Option.bind_eq_some_iff]
    simp only [Graph.operation?_eq_some_iff kinds, Graph.resolved_typeId?, and_assoc]
  · intro undeclared kind
    rw [operation, Graph.resolved_typeId?, Graph.rootType?, Graph.linked_block, undeclared]
    exact Graph.linked_typeId? _ _
  · intro undeclared kind t served r refers
    rw [operation] at served
    exact sound.refers_apart undeclared served refers

end Sound

/-- Requiring a root adds one problem to a buffer that implies none, and changes nothing else. A
schema has no root in just this case, and otherwise one that serves its operations as declared or
by name. -/
theorem root_outcome (b : Builder) (noExecutable : firstExecutable? b.declarations = none) :
    ((Graph.described b.declarations).Rootless →
      b.build.problems =
        b.validate.2.problems ++ [⟨.queryTypeNotDefined, none, .schema⟩]) ∧
    (¬ (Graph.described b.declarations).Rootless → b.build = b.validate.2) ∧
    (∀ s, b.build.result = .ok s → s.root.isSome) ∧
    ∀ s, b.build.result = .ok s ∨ b.validate.2.result = .ok s →
      (s.root = none ↔ (Graph.described b.declarations).Rootless) ∧
      ∀ root, s.root = some root → (Graph.described b.declarations).Serves s root := by
  refine ⟨analyze_of_rootless noExecutable, analyze_of_rooted, ?_, ?_⟩
  · intro s built
    obtain ⟨sound, rfl⟩ := (analyze_eq_ok_iff_sound true b.declarations s).mp built
    rw [Option.isSome_iff_ne_none]
    intro rootless
    cases sound.not_required_of_rootless (sound.root_eq_none_iff.mp rootless)
  · intro s accepted
    obtain ⟨required, ok⟩ : ∃ required, (analyze required b.declarations).result = .ok s :=
      accepted.elim (⟨true, ·⟩) (⟨false, ·⟩)
    obtain ⟨sound, rfl⟩ := (analyze_eq_ok_iff_sound required b.declarations s).mp ok
    exact ⟨sound.root_eq_none_iff, fun root found => sound.serves found⟩

/-- A library without a query type, which only the requirement for a root rejects. -/
def shelf : List (Option String × Declaration) :=
  [(none, .type {
    name := "Shelf"
    body := .object [] [{ name := "below", type := .named "Shelf" }] })]

/-- `Shelf` alone is one problem short of a root, and the bookshop binds its query to `Shop`. -/
theorem root_outcome_shelf_bookshop :
    ({ declarations := given shelf } : Builder).build.problems =
      [⟨.queryTypeNotDefined, none, .schema⟩] ∧
    ∃ s root, ({ declarations := given bookshop } : Builder).build.result = .ok s ∧
      s.root = some root ∧ s.typeId? "Shop" = some root.query ∧
      (Graph.described (given bookshop)).Serves s root := by
  constructor
  · have rootless : (Graph.described (given shelf)).Rootless :=
      ⟨by rfl, by intro kind; cases kind <;> decide +kernel⟩
    have added := (root_outcome { declarations := given shelf } rfl).1 rootless
    have silent : ({ declarations := given shelf } : Builder).validate.2.problems = [] := by
      decide +kernel
    rw [added, silent, List.nil_append]
  · obtain ⟨s, built, named⟩ : ∃ s,
        ({ declarations := given bookshop } : Builder).build.result = .ok s ∧
        (s.root.any fun root => s.typeId? "Shop" == some root.query) = true :=
      exists_of_any (by decide +kernel)
    obtain ⟨root, found, query⟩ := Option.any_eq_true .. |>.mp named
    have serves := ((root_outcome { declarations := given bookshop } rfl).2.2.2 s (.inl built)).2
    exact ⟨s, root, built, found, by simpa using query, serves root found⟩

end SchemaAtlas
