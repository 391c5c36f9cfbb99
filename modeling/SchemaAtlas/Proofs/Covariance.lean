import SchemaAtlas.Proofs.Conformance

/-!
# Covariance of field types

Which type may stand for which is said here by rules, without the order in which the test peels two
type uses. On type uses whose names are defined the test decides exactly these rules. They make a
preorder, and in a graph that breaks no rule a partial order: two type uses that may stand for each
other are written alike.
-/

namespace SchemaAtlas

open Relation (TransGen)

theorem TypeUse.isNonNull_eq_false_iff (a : TypeUse) :
    a.isNonNull = false ↔ ∀ inner, a ≠ .nonNull inner := by
  cases a <;> simp [isNonNull]

namespace Graph

/-- The name inside a type use is linked to the type of that name. -/
def Resolves (g : Graph) (a : TypeUse) : Prop :=
  ∃ t d, g.resolve a.innermost = some (t, d) ∧ d.name = a.innermost.name

instance (g : Graph) (a : TypeUse) : Decidable (g.Resolves a) :=
  decidable_of_iff ((g.resolve a.innermost).any fun e => e.2.name == a.innermost.name) (by
    simp only [Option.any_eq_true, beq_iff_eq, Prod.exists, Resolves])

/-- A type use is a special case of another one. -/
inductive Specializes (g : Graph) : TypeUse → TypeUse → Prop
  | same {a b : TypeRef} (names : a.name = b.name) : Specializes g (.named a) (.named b)
  | implements {a b : TypeRef} {t i : TypeId} {d interface : TypeDef}
    (found : g.resolve a = some (t, d)) (expected : g.resolve b = some (i, interface))
    (kind : interface.kind = .interface) (chain : TransGen g.Implements t i) :
    Specializes g (.named a) (.named b)
  | member {a b : TypeRef} {t u : TypeId} {d union : TypeDef} {members : Table TypeRef}
    (found : g.resolve a = some (t, d)) (kind : d.kind = .object)
    (expected : g.resolve b = some (u, union)) (body : union.body = .union members)
    (listed : d.name ∈ members.keys) : Specializes g (.named a) (.named b)
  | list {a b : TypeUse} (items : Specializes g a b) : Specializes g (.list a) (.list b)
  | nonNull {a b : TypeUse} (inner : Specializes g a b) : Specializes g (.nonNull a) (.nonNull b)
  | weaken {a b : TypeUse} (nullable : b.isNonNull = false) (inner : Specializes g a b) :
    Specializes g (.nonNull a) b

namespace Specializes

variable {g : Graph} {a b : TypeUse}

theorem nonNull_iff : g.Specializes (.nonNull a) (.nonNull b) ↔ g.Specializes a b := by
  constructor
  · intro rule
    cases rule with
    | nonNull inner => exact inner
    | weaken nullable => cases nullable
  · exact .nonNull

theorem weaken_iff (nullable : b.isNonNull = false) :
    g.Specializes (.nonNull a) b ↔ g.Specializes a b := by
  constructor
  · intro rule
    cases rule with
    | nonNull => cases nullable
    | weaken _ inner => exact inner
  · exact .weaken nullable

theorem list_iff : g.Specializes (.list a) (.list b) ↔ g.Specializes a b := by
  constructor
  · intro rule
    cases rule with
    | list items => exact items
  · exact .list

/-- What may be null never stands for what may not. -/
theorem nullable (rule : g.Specializes a b) (nullable : a.isNonNull = false) :
    b.isNonNull = false := by
  cases rule with
  | nonNull | weaken => cases nullable
  | _ => rfl

end Specializes

section Kinds

variable {g : Graph} {t : TypeId} {d : TypeDef}

/-- Chains start from objects and interfaces. -/
theorem shape?_isSome_of_chain {i : TypeId} (chain : TransGen g.Implements t i)
    (found : g.typeAt? t = some d) : d.shape?.isSome := by
  obtain ⟨_, ⟨d', shape, _, found', shaped, _⟩, _⟩ := TransGen.head'_iff.mp chain
  cases found.symm.trans found'
  rw [shaped]
  rfl

/-- No chain starts from a union. -/
theorem no_chain_of_union {i : TypeId} {members : Table TypeRef} (found : g.typeAt? t = some d)
    (body : d.body = .union members) : ¬ TransGen g.Implements t i := by
  intro chain
  have shaped := shape?_isSome_of_chain chain found
  simp [TypeDef.shape?, body] at shaped

theorem isObject_iff (d : TypeDef) : d.isObject = true ↔ d.kind = .object := by
  simp [TypeDef.isObject]

end Kinds

/-! The test decides the rules. -/

section Decision

variable {g : Graph} (named : g.InterfacesNamed)
include named

theorem namedMayStandFor_iff {a b : TypeRef} (found : (g.resolve a).isSome)
    (expected : (g.resolve b).isSome) :
    g.namedMayStandFor a b = true ↔ g.Specializes (.named a) (.named b) := by
  obtain ⟨⟨t, d⟩, found⟩ := Option.isSome_iff_exists.mp found
  obtain ⟨⟨i, e⟩, expected⟩ := Option.isSome_iff_exists.mp expected
  simp only [namedMayStandFor, found, expected, Bool.or_eq_true, beq_iff_eq]
  constructor
  · rintro (names | allowed)
    · exact .same names
    · split at allowed
      · next body =>
        rw [Bool.and_eq_true, implementsInterface_iff named] at allowed
        exact .implements found expected (by rw [TypeDef.kind, body]; rfl) allowed.2
      · next members body =>
        rw [Bool.and_eq_true, isObject_iff, Table.contains_iff_mem] at allowed
        exact .member found allowed.1 expected body allowed.2
      · cases allowed
  · intro rule
    cases rule with
    | same names => exact .inl names
    | implements found' expected' kind chain =>
      cases found.symm.trans found'
      cases expected.symm.trans expected'
      have shaped := shape?_isSome_of_chain chain (resolve_target found).2
      refine .inr ?_
      cases body : e.body with
      | interface shape =>
        rw [Bool.and_eq_true, implementsInterface_iff named]
        exact ⟨shaped, chain⟩
      | _ =>
        rw [TypeDef.kind, body] at kind
        cases kind
    | member found' kind expected' body listed =>
      cases found.symm.trans found'
      cases expected.symm.trans expected'
      refine .inr ?_
      rw [body]
      simp only [Bool.and_eq_true, isObject_iff, Table.contains_iff_mem]
      exact ⟨kind, listed⟩

/-- By recursion on the test, whose rows overlap: the first row that fits decides. -/
theorem mayStandFor_iff {a b : TypeUse} (found : (g.resolve a.innermost).isSome)
    (expected : (g.resolve b.innermost).isSome) :
    g.mayStandFor a b = true ↔ g.Specializes a b := by
  fun_induction mayStandFor g a b with
  | case1 a b ih => rw [ih found expected, Specializes.nonNull_iff]
  | case2 a b other ih =>
    rw [ih found expected, Specializes.weaken_iff (b.isNonNull_eq_false_iff.mpr other)]
  | case3 a b other =>
    simp only [Bool.false_eq_true, false_iff]
    intro rule
    cases rule.nullable (a.isNonNull_eq_false_iff.mpr other)
  | case4 a b ih => rw [ih found expected, Specializes.list_iff]
  | case5 a b _ other =>
    simp only [Bool.false_eq_true, false_iff]
    intro rule
    cases rule with
    | list => exact other _ rfl
  | case6 a b notNonNull other =>
    simp only [Bool.false_eq_true, false_iff]
    intro rule
    cases rule with
    | list => exact other _ rfl
    | weaken => exact notNonNull _ rfl
  | case7 a b => exact namedMayStandFor_iff named found expected

end Decision

/-! Reflexivity, transitivity and antisymmetry. -/

namespace Specializes

variable {g : Graph} {a b c : TypeUse}

theorem refl (a : TypeUse) : g.Specializes a a := by
  induction a with
  | named ref => exact .same rfl
  | list item ih => exact .list ih
  | nonNull inner ih => exact .nonNull ih

/-- With one type for each name, type uses of the same name resolve to the same type. -/
theorem resolve_congr
    (unique : ∀ i j d d', g.typeAt? i = some d → g.typeAt? j = some d' → d.name = d'.name → i = j)
    {x y : TypeRef} (first : g.Resolves (.named x)) (second : g.Resolves (.named y))
    (names : x.name = y.name) : g.resolve x = g.resolve y := by
  obtain ⟨t, d, resolved, own⟩ := first
  obtain ⟨t', d', resolved', own'⟩ := second
  have found := (resolve_target resolved).2
  have found' := (resolve_target resolved').2
  obtain rfl := unique t t' d d' found found' (own.trans (names.trans own'.symm))
  cases found.symm.trans found'
  exact resolved.trans resolved'.symm

/-- By induction on the first rule; the kinds of the type in the middle leave few second rules. -/
theorem trans
    (unique : ∀ i j d d', g.typeAt? i = some d → g.typeAt? j = some d' → d.name = d'.name → i = j)
    (resolvesA : g.Resolves a) (resolvesB : g.Resolves b) (resolvesC : g.Resolves c)
    (first : g.Specializes a b) (second : g.Specializes b c) : g.Specializes a c := by
  induction first generalizing c with
  | same names =>
    have alike := resolve_congr unique resolvesA resolvesB names
    cases second with
    | same names' => exact .same (names.trans names')
    | implements found expected kind chain =>
      exact .implements (alike.trans found) expected kind chain
    | member found kind expected body listed =>
      exact .member (alike.trans found) kind expected body listed
  | implements found expected kind chain =>
    cases second with
    | same names =>
      have alike := resolve_congr unique resolvesB resolvesC names
      exact .implements found (alike.symm.trans expected) kind chain
    | implements found' expected' kind' chain' =>
      cases expected.symm.trans found'
      exact .implements found expected' kind' (chain.trans chain')
    | member found' kind' =>
      cases expected.symm.trans found'
      cases kind.symm.trans kind'
  | member found kind expected body listed =>
    cases second with
    | same names =>
      have alike := resolve_congr unique resolvesB resolvesC names
      exact .member found kind (alike.symm.trans expected) body listed
    | implements found' _ _ chain =>
      cases expected.symm.trans found'
      exact absurd chain (no_chain_of_union (resolve_target expected).2 body)
    | member found' kind' =>
      cases expected.symm.trans found'
      rw [TypeDef.kind, body] at kind'
      cases kind'
  | list _ ih =>
    cases second with
    | list items => exact .list (ih resolvesA resolvesB resolvesC items)
  | nonNull _ ih =>
    cases second with
    | nonNull inner => exact .nonNull (ih resolvesA resolvesB resolvesC inner)
    | weaken nullable inner => exact .weaken nullable (ih resolvesA resolvesB resolvesC inner)
  | weaken nullable _ ih =>
    exact .weaken (second.nullable nullable) (ih resolvesA resolvesB resolvesC second)

/-- Only a cycle of interfaces could make two names stand for each other. -/
theorem antisymm (acyclic : ∀ t, ¬ TransGen g.Implements t t) (first : g.Specializes a b)
    (second : g.Specializes b a) : a.equivalent b = true := by
  induction first with
  | same names => simpa [TypeUse.equivalent] using names
  | implements found expected kind chain =>
    cases second with
    | same names => simpa [TypeUse.equivalent] using names.symm
    | implements found' expected' _ chain' =>
      cases expected.symm.trans found'
      cases found.symm.trans expected'
      exact absurd (chain.trans chain') (acyclic _)
    | member found' kind' =>
      cases expected.symm.trans found'
      cases kind.symm.trans kind'
  | member _ _ expected body _ =>
    cases second with
    | same names => simpa [TypeUse.equivalent] using names.symm
    | implements found' _ _ chain =>
      cases expected.symm.trans found'
      exact absurd chain (no_chain_of_union (resolve_target expected).2 body)
    | member found' kind' =>
      cases expected.symm.trans found'
      rw [TypeDef.kind, body] at kind'
      cases kind'
  | list _ ih =>
    cases second with
    | list items => exact ih items
  | nonNull _ ih =>
    cases second with
    | nonNull inner => exact ih inner
    | weaken nullable => cases nullable
  | weaken nullable _ _ => cases second.nullable nullable

end Specializes

/-- An annotation of the linked graph resolves if a type has its name. -/
theorem resolves_of_typeUse {g : Graph} (fresh : g.Fresh) {e : ElementId} {a : TypeUse}
    (declared : typeUseAt? g.linked.types g.linked.directives e = some a)
    (defined : (g.linked.typeId? a.innermost.name).isSome) : g.linked.Resolves a := by
  rw [linked_typeUseAt?, Option.map_eq_some_iff] at declared
  obtain ⟨old, _, rfl⟩ := declared
  rw [linked_typeId?] at defined
  obtain ⟨t, id⟩ := Option.isSome_iff_exists.mp defined
  obtain ⟨d, found, name⟩ := (fresh.typeId?_eq_some_iff _ t).mp id
  refine ⟨t, d, (g.linked.resolve_eq_some_iff _ t d).mpr ⟨?_, found⟩, name⟩
  rw [TypeUse.innermost_mapRef] at id ⊢
  exact id

end Graph

/-- In the linked graph of a buffer, an annotation resolves if a type has its name. On type uses
that resolve, `mayStandFor` decides `Specializes`, which is reflexive and transitive there. If the
buffer is accepted, it is antisymmetric too, and the schema answers as the graph does. -/
theorem mayStandFor_partialOrder (buffer : List (Option String × Declaration)) (g : Graph)
    (linked : g = (Graph.described (given buffer)).linked) :
    (∀ e a, typeUseAt? g.types g.directives e = some a →
        (g.typeId? a.innermost.name).isSome → g.Resolves a) ∧
      (∀ a b, g.Resolves a → g.Resolves b →
        (g.mayStandFor a b = true ↔ g.Specializes a b)) ∧
      (∀ a, g.Specializes a a) ∧
      (∀ a b c, g.Resolves a → g.Resolves b → g.Resolves c →
        g.Specializes a b → g.Specializes b c → g.Specializes a c) ∧
      ∀ required s, (analyze required (given buffer)).result = .ok s →
        (∀ a b, g.Specializes a b → g.Specializes b a → a.equivalent b = true) ∧
          ∀ a b, s.graph.mayStandFor a b = g.mayStandFor a b := by
  subst linked
  have fresh := Graph.described_fresh (given buffer)
  have named := Graph.linked_interfacesNamed fresh
  refine ⟨fun e a => Graph.resolves_of_typeUse fresh, ?_, Graph.Specializes.refl, ?_, ?_⟩
  · rintro a b ⟨t, d, found, _⟩ ⟨i, d', expected, _⟩
    exact Graph.mayStandFor_iff named (by rw [found]; rfl) (by rw [expected]; rfl)
  · intro a b c
    exact Graph.Specializes.trans fun i j d d' => fresh.linked_unique
  · intro required s accepted
    obtain ⟨sound, rfl⟩ := (analyze_eq_ok_iff_sound required (given buffer) s).mp accepted
    have lawful := (Graph.violations_eq_nil_iff _).mp sound.lawful
    have acyclic := lawful.implements_acyclic (Graph.linked_interfacesLinked fresh sound.known)
      (builtIn_shape?_eq_none sound.collected)
    refine ⟨fun a b => Graph.Specializes.antisymm acyclic, ?_⟩
    intro a b
    rw [sound.graph_resolved, Graph.withRoot_mayStandFor]

/-- Books without holes are titles, and titles are nodes; so books are nodes, but not the other way
round. -/
theorem mayStandFor_partialOrder_bookshop :
    ∃ g s books titles nodes, g = (Graph.described (given bookshop)).linked ∧
      (analyze true (given bookshop)).result = .ok s ∧
      books = .nonNull (.list (.nonNull (.named ⟨"Book", .builtIn, some ⟨7⟩⟩))) ∧
      titles = .list (.named ⟨"Titled", .builtIn, some ⟨6⟩⟩) ∧
      nodes = .list (.named ⟨"Node", .builtIn, some ⟨5⟩⟩) ∧
      (g.Resolves books ∧ g.Resolves titles ∧ g.Resolves nodes) ∧
      (g.Specializes books titles ∧ g.Specializes titles nodes) ∧
      s.graph.mayStandFor books nodes = true ∧ s.graph.mayStandFor nodes books = false := by
  let g := (Graph.described (given bookshop)).linked
  let books : TypeUse := .nonNull (.list (.nonNull (.named ⟨"Book", .builtIn, some ⟨7⟩⟩)))
  let titles : TypeUse := .list (.named ⟨"Titled", .builtIn, some ⟨6⟩⟩)
  let nodes : TypeUse := .list (.named ⟨"Node", .builtIn, some ⟨5⟩⟩)
  obtain ⟨s, accepted, _⟩ : ∃ s, (analyze true (given bookshop)).result = .ok s ∧ true = true :=
    exists_of_any (by decide +kernel)
  obtain ⟨resolvesA, resolvesB, resolvesC⟩ :
      g.Resolves books ∧ g.Resolves titles ∧ g.Resolves nodes := by decide +kernel
  obtain ⟨first, second⟩ :
      g.mayStandFor books titles = true ∧ g.mayStandFor titles nodes = true := by decide +kernel
  obtain ⟨_, decides, _, trans, accept⟩ := mayStandFor_partialOrder bookshop g rfl
  obtain ⟨antisymm, same⟩ := accept true s accepted
  have first := (decides books titles resolvesA resolvesB).mp first
  have second := (decides titles nodes resolvesB resolvesC).mp second
  have both := trans books titles nodes resolvesA resolvesB resolvesC first second
  refine ⟨g, s, books, titles, nodes, rfl, accepted, rfl, rfl, rfl,
    ⟨resolvesA, resolvesB, resolvesC⟩, ⟨first, second⟩, ?_, ?_⟩
  · rw [same]
    exact (decides books nodes resolvesA resolvesC).mpr both
  · rw [same, Bool.eq_false_iff]
    intro back
    cases antisymm books nodes both ((decides nodes books resolvesC resolvesA).mp back)

end SchemaAtlas
