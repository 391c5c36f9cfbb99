import SchemaAtlas.Proofs.Fitting
import SchemaAtlas.Proofs.Legality

/-!
# What is reported about usages

The usages on an element are checked in one pass that remembers which directives it has met. Here
the report is told without the pass. Each rule says when a usage is at fault, and each fault has a
rank: first the position of the usage, then the rule, then the position of the argument. The report
is the list of all faults in the order of their ranks.
-/

namespace SchemaAtlas

/-- The list of everything that `R` holds of, each with one rank, in the order of the ranks. -/
def Ranked {β : Type} (R : List Nat → β → Prop) (bs : List β) : Prop :=
  ∃ ranked : List (List Nat × β), ranked.map Prod.snd = bs ∧
    ranked.Pairwise (fun x y => x.1 < y.1) ∧ ∀ rank b, (rank, b) ∈ ranked ↔ R rank b

namespace Ranked

variable {α β : Type} {R S : List Nat → β → Prop} {bs : List β}

theorem congr (ranked : Ranked R bs) (same : ∀ rank b, R rank b ↔ S rank b) : Ranked S bs := by
  obtain ⟨pairs, values, ascending, exact⟩ := ranked
  exact ⟨pairs, values, ascending, fun rank b => (exact rank b).trans (same rank b)⟩

theorem nil (nothing : ∀ rank b, ¬ R rank b) : Ranked R [] :=
  ⟨[], rfl, .nil, fun rank b => by simp [nothing rank b]⟩

theorem single {b : β} (only : ∀ rank c, R rank c ↔ rank = [] ∧ c = b) : Ranked R [b] := by
  refine ⟨[([], b)], rfl, List.pairwise_singleton _ _, fun rank c => ?_⟩
  simp [only]

theorem ite {b : β} {p : Prop} [Decidable p] :
    Ranked (fun rank c => rank = [] ∧ p ∧ c = b) (if p then [b] else []) := by
  by_cases holds : p
  · rw [if_pos holds]
    exact single (by simp [holds])
  · rw [if_neg holds]
    exact nil (by simp [holds])

/-- By induction on the parts, of which the first has the position `n`. -/
theorem flatten_from {as : List α} {f : Nat → α → List β} {part : Nat → α → List Nat → β → Prop}
    (n : Nat) (parts : ∀ i a, as[i]? = some a → Ranked (part i a) (f i a)) :
    Ranked (fun rank b => ∃ i a rest, rank = (n + i) :: rest ∧ as[i]? = some a ∧ part i a rest b)
      (as.mapIdx f).flatten := by
  induction as generalizing f part n with
  | nil => exact nil (by simp)
  | cons a as ih =>
    obtain ⟨first, values, ascending, exact⟩ := parts 0 a rfl
    obtain ⟨later, values', ascending', exact'⟩ := ih (n + 1) fun i b found => parts (i + 1) b found
    refine ⟨first.map (fun x => (n :: x.1, x.2)) ++ later, ?_, ?_, ?_⟩
    · rw [List.map_append, List.map_map, values', List.mapIdx_cons, List.flatten_cons, ← values]
      rfl
    · rw [List.pairwise_append, List.pairwise_map]
      refine ⟨ascending.imp fun {x y} below => ?_, ascending', ?_⟩
      · exact List.cons_lt_cons_iff.mpr (.inr ⟨rfl, below⟩)
      · rintro x front ⟨rank, b⟩ back
        obtain ⟨⟨_, _⟩, _, rfl⟩ := List.mem_map.mp front
        obtain ⟨i, _, rest, rfl, _⟩ := (exact' rank b).mp back
        exact List.cons_lt_cons_iff.mpr (.inl (by omega))
    · intro rank b
      rw [List.mem_append, exact', List.mem_map]
      constructor
      · rintro (⟨⟨rest, c⟩, member, same⟩ | ⟨i, c, rest, rfl, found, inside⟩)
        · cases same
          exact ⟨0, a, rest, rfl, rfl, (exact rest c).mp member⟩
        · exact ⟨i + 1, c, rest, by rw [Nat.add_right_comm, Nat.add_assoc], found, inside⟩
      · rintro ⟨i, c, rest, rfl, found, inside⟩
        cases i with
        | zero =>
          cases found
          exact .inl ⟨(rest, b), (exact rest b).mpr inside, rfl⟩
        | succ i =>
          exact .inr ⟨i, c, rest, by rw [Nat.add_right_comm, Nat.add_assoc], found, inside⟩

/-- Parts of a list one after the other. The position of its part comes first in a rank. -/
theorem flatten (part : Nat → α → List Nat → β → Prop) {as : List α} {f : Nat → α → List β}
    (parts : ∀ i a, as[i]? = some a → Ranked (part i a) (f i a)) :
    Ranked (fun rank b => ∃ i a rest, rank = i :: rest ∧ as[i]? = some a ∧ part i a rest b)
      (as.mapIdx f).flatten :=
  (flatten_from 0 parts).congr fun rank b => by simp only [Nat.zero_add]

theorem flatMap {as : List α} {f : α → List β} {part : α → List Nat → β → Prop}
    (parts : ∀ a ∈ as, Ranked (part a) (f a)) :
    Ranked (fun rank b => ∃ i a rest, rank = i :: rest ∧ as[i]? = some a ∧ part a rest b)
      (as.flatMap f) := by
  have same : as.flatMap f = (as.mapIdx fun _ a => f a).flatten := by
    rw [List.flatMap]
    congr 1
    apply List.ext_getElem?
    intro i
    simp
  rw [same]
  exact flatten (fun _ => part) fun i a found => parts a (List.mem_of_getElem? found)

theorem filter_map (as : List α) (p : α → Bool) (f : α → β) :
    Ranked (fun rank b => ∃ i a, rank = [i] ∧ as[i]? = some a ∧ p a = true ∧ b = f a)
      ((as.filter p).map f) := by
  have same : (as.filter p).map f = as.flatMap fun a => if p a = true then [f a] else [] := by
    induction as with
    | nil => rfl
    | cons a as ih => cases holds : p a <;> simp [holds, ih]
  rw [same]
  refine (flatMap fun a _ => ite).congr fun rank b => ?_
  constructor
  · rintro ⟨i, a, rest, rfl, found, rfl, holds, value⟩
    exact ⟨i, a, rfl, found, holds, value⟩
  · rintro ⟨i, a, rfl, found, holds, value⟩
    exact ⟨i, a, [], rfl, found, rfl, holds, value⟩

end Ranked

theorem TypeUse.eq_nonNull {a : TypeUse} (nonNull : a.isNonNull = true) :
    ∃ inner, a = .nonNull inner := by
  cases a with
  | nonNull inner => exact ⟨inner, rfl⟩
  | _ => cases nonNull

/-! The rules. -/

section Rules

variable (g : Graph) (location : DirectiveLocation) (owner : ElementPath)

/-- What is wrong with an argument that a usage supplies. -/
inductive Usage.ArgumentFault (u : Usage) (d : DirectiveDef) : String × Value → Diagnostic → Prop
  | undeclared {name : String} {v : Value} (unknown : name ∉ d.arguments.keys) :
    ArgumentFault u d (name, v) ⟨.undefinedUsageArgument name u.name owner, some u.location,
      (owner.child (.usage u.name)).child (.argument name)⟩
  | null {name : String} {a : InputValue} {inner : TypeUse}
    (declared : d.arguments.get? name = some a) (required : a.type = .nonNull inner) :
    ArgumentFault u d (name, .null) ⟨.nullUsageArgument name u.name owner, some u.location,
      (owner.child (.usage u.name)).child (.argument name)⟩
  | unfit {name : String} {v : Value} {a : InputValue}
    (declared : d.arguments.get? name = some a) (given : v.isNull = false)
    (unfit : v.fits g.types a.type = false) :
    ArgumentFault u d (name, v) ⟨.incompatibleUsageArgument name u.name owner a.type v,
      some u.location, (owner.child (.usage u.name)).child (.argument name)⟩

/-- What is wrong with one usage of the directive `d`, with the rank of each fault. `again` says
that the directive has been used on this element before. -/
inductive Usage.Fault (again : Prop) (u : Usage) (d : DirectiveDef) : List Nat → Diagnostic → Prop
  | misplaced (elsewhere : d.locations.contains location = false) :
    Fault again u d [0] ⟨.invalidDirectiveLocation u.name owner location, some u.location,
      owner.child (.usage u.name)⟩
  | repeated (met : again) (once : d.repeatable = false) :
    Fault again u d [1] ⟨.unrepeatableDirective u.name owner, some u.location,
      owner.child (.usage u.name)⟩
  | argument {k : Nat} {e : String × Value} {x : Diagnostic} (supplied : u.arguments.at? k = some e)
    (fault : u.ArgumentFault g owner d e x) : Fault again u d [2, k] x
  | missing {k : Nat} {name : String} {a : InputValue} {inner : TypeUse}
    (declared : d.arguments.at? k = some (name, a)) (required : a.type = .nonNull inner)
    (noDefault : a.default = none) (absent : name ∉ u.arguments.keys) :
    Fault again u d [3, k] ⟨.missingUsageArgument name u.name owner, some u.location,
      owner.child (.usage u.name)⟩

/-- What is wrong with the usages on one element. Only a usage with a definition can be at fault. -/
inductive Graph.UsageFault (us : List Usage) : List Nat → Diagnostic → Prop
  | usage {i : Nat} {u : Usage} {id : DirectiveId} {d : DirectiveDef} {rank : List Nat}
    {x : Diagnostic} (stands : us[i]? = some u) (linked : u.definition = some id)
    (defined : g.directiveAt? id = some d)
    (fault : u.Fault g location owner
      (∃ j v, j < i ∧ us[j]? = some v ∧ v.definition = some id) d rank x) :
    UsageFault us (i :: rank) x

end Rules

namespace Graph

variable (g : Graph) (location : DirectiveLocation) (owner : ElementPath)

/-- A declared argument is at fault if it is null where that is not allowed, or else does not
fit. -/
theorem argumentFault_iff {u : Usage} {d : DirectiveDef} {name : String} {a : InputValue}
    (found : d.arguments.get? name = some a) (v : Value) (x : Diagnostic) :
    u.ArgumentFault g owner d (name, v) x ↔
      (v.isNull = true ∧ a.type.isNonNull = true) ∧
          x = usageArgumentProblem owner u name (.nullUsageArgument name u.name owner) ∨
        (v.isNull = false ∧ v.fits g.types a.type = false) ∧
          x = usageArgumentProblem owner u name
            (.incompatibleUsageArgument name u.name owner a.type v) := by
  constructor
  · intro fault
    cases fault with
    | undeclared unknown => exact absurd (Table.mem_keys_of_get? found) unknown
    | null declared required =>
      cases found.symm.trans declared
      exact .inl ⟨⟨rfl, by rw [required]; rfl⟩, rfl⟩
    | unfit declared given unfit =>
      cases found.symm.trans declared
      exact .inr ⟨⟨given, unfit⟩, rfl⟩
  · rintro (⟨⟨isNull, nonNull⟩, rfl⟩ | ⟨⟨given, unfit⟩, rfl⟩)
    · obtain rfl := Value.eq_null isNull
      obtain ⟨inner, type⟩ := TypeUse.eq_nonNull nonNull
      exact .null found type
    · exact .unfit found given unfit

theorem suppliedArgument_ranked (u : Usage) (d : DirectiveDef) (e : String × Value) :
    Ranked (fun rank x => rank = [] ∧ u.ArgumentFault g owner d e x)
      (g.suppliedArgument owner u d e) := by
  obtain ⟨name, v⟩ := e
  unfold suppliedArgument
  cases found : d.arguments.get? name with
  | none =>
    refine Ranked.single fun rank x => and_congr_right fun _ => ⟨fun fault => ?_, ?_⟩
    · cases fault with
      | undeclared => rfl
      | null declared | unfit declared => cases found.symm.trans declared
    · rintro rfl
      exact .undeclared ((d.arguments.get?_eq_none_iff name).mp found)
  | some a =>
    simp only [g.argumentFault_iff owner found]
    cases isNull : v.isNull with
    | true =>
      obtain rfl := Value.eq_null isNull
      cases nonNull : a.type.isNonNull with
      | true => exact Ranked.single (by simp)
      | false =>
        have fits : Value.null.fits g.types a.type = true := by rw [Value.null_fits, nonNull]; rfl
        simp only [fits]
        exact Ranked.nil (by simp)
    | false =>
      cases fits : v.fits g.types a.type with
      | true => exact Ranked.nil (by simp)
      | false => exact Ranked.single (by simp)

theorem misplaced_ranked (again : Prop) (u : Usage) (d : DirectiveDef) :
    Ranked (fun rank x => u.Fault g location owner again d (0 :: rank) x)
      (if d.locations.contains location then []
        else [usageProblem owner u (.invalidDirectiveLocation u.name owner location)]) := by
  cases allowed : d.locations.contains location with
  | true =>
    refine Ranked.nil fun rank x fault => ?_
    cases fault with
    | misplaced elsewhere => cases allowed.symm.trans elsewhere
  | false =>
    refine Ranked.single fun rank x => ⟨fun fault => ?_, ?_⟩
    · cases fault
      exact ⟨rfl, rfl⟩
    · rintro ⟨rfl, rfl⟩
      exact .misplaced allowed

theorem repeated_ranked (again : Bool) (u : Usage) (d : DirectiveDef) :
    Ranked (fun rank x => u.Fault g location owner (again = true) d (1 :: rank) x)
      (if again && !d.repeatable then [usageProblem owner u (.unrepeatableDirective u.name owner)]
        else []) := by
  refine Ranked.ite.congr fun rank x => ⟨?_, fun fault => ?_⟩
  · rintro ⟨rfl, faulty, rfl⟩
    rw [Bool.and_eq_true, Bool.not_eq_true'] at faulty
    exact .repeated faulty.1 faulty.2
  · cases fault with
    | repeated met once => exact ⟨rfl, by rw [met, once]; rfl, rfl⟩

theorem suppliedArguments_ranked (again : Prop) (u : Usage) (d : DirectiveDef) :
    Ranked (fun rank x => u.Fault g location owner again d (2 :: rank) x)
      (u.arguments.entries.flatMap (g.suppliedArgument owner u d)) := by
  refine (Ranked.flatMap fun e _ => g.suppliedArgument_ranked owner u d e).congr
    fun rank x => ⟨?_, fun fault => ?_⟩
  · rintro ⟨k, e, _, rfl, supplied, rfl, fault⟩
    exact .argument supplied fault
  · cases fault with
    | @argument k e _ supplied fault => exact ⟨k, e, [], rfl, supplied, rfl, fault⟩

theorem missingArguments_ranked (again : Prop) (u : Usage) (d : DirectiveDef) :
    Ranked (fun rank x => u.Fault g location owner again d (3 :: rank) x)
      (missingArguments owner u d) := by
  refine (Ranked.filter_map _ _ _).congr fun rank x => ⟨?_, fun fault => ?_⟩
  · rintro ⟨k, ⟨name, a⟩, rfl, declared, asked, rfl⟩
    simp only [InputValue.isRequired, Bool.and_eq_true, Bool.not_eq_true',
      Option.isNone_iff_eq_none, Table.contains, List.contains_eq_mem,
      decide_eq_false_iff_not] at asked
    obtain ⟨⟨nonNull, noDefault⟩, absent⟩ := asked
    obtain ⟨inner, type⟩ := TypeUse.eq_nonNull nonNull
    exact .missing declared type noDefault absent
  · cases fault with
    | @missing k name a inner declared required noDefault absent =>
      refine ⟨k, (name, a), rfl, declared, ?_, rfl⟩
      simp [InputValue.isRequired, required, noDefault, absent, TypeUse.isNonNull, Table.contains]

/-- Each rule has a part of the report to itself. -/
theorem usageProblems_ranked (again : Bool) (u : Usage) (d : DirectiveDef) :
    Ranked (u.Fault g location owner (again = true) d)
      (g.usageProblems location owner again u d) := by
  have parts : g.usageProblems location owner again u d = ([
      if d.locations.contains location then []
        else [usageProblem owner u (.invalidDirectiveLocation u.name owner location)],
      if again && !d.repeatable then [usageProblem owner u (.unrepeatableDirective u.name owner)]
        else [],
      u.arguments.entries.flatMap (g.suppliedArgument owner u d),
      missingArguments owner u d].mapIdx fun _ part => part).flatten := by
    simp [usageProblems]
  rw [parts]
  refine (Ranked.flatten (fun i _ rank => u.Fault g location owner (again = true) d (i :: rank))
    ?_).congr fun rank x => ⟨?_, fun fault => ?_⟩
  · intro i part found
    rcases i with _ | _ | _ | _ | i <;> cases found
    · exact g.misplaced_ranked location owner (again = true) u d
    · exact g.repeated_ranked location owner again u d
    · exact g.suppliedArguments_ranked location owner (again = true) u d
    · exact g.missingArguments_ranked location owner (again = true) u d
  · rintro ⟨i, part, rest, rfl, _, fault⟩
    exact fault
  · cases fault with
    | misplaced elsewhere => exact ⟨0, _, [], rfl, rfl, .misplaced elsewhere⟩
    | repeated met once => exact ⟨1, _, [], rfl, rfl, .repeated met once⟩
    | argument supplied fault => exact ⟨2, _, [_], rfl, rfl, .argument supplied fault⟩
    | missing declared required noDefault absent =>
      exact ⟨3, _, [_], rfl, rfl, .missing declared required noDefault absent⟩

/-- The pass, usage by usage: what has been met before a usage are the directives from the start and
those of the usages before it. -/
theorem checkUsagesFrom_eq (seen : List DirectiveId) (us : List Usage) :
    g.checkUsagesFrom location owner seen us =
      (us.mapIdx fun i u => (g.definition? u).elim [] fun x =>
        g.usageProblems location owner
          (seen.contains x.1 || (us.take i).any fun v => v.definition == some x.1)
          u x.2).flatten := by
  induction us generalizing seen with
  | nil => rfl
  | cons u rest ih =>
    have later : ∀ before : List DirectiveId,
        (∀ id d, g.directiveAt? id = some d → (before.contains id =
          (seen.contains id || u.definition == some id))) →
        g.checkUsagesFrom location owner before rest =
          (rest.mapIdx fun i v => (g.definition? v).elim [] fun x =>
            g.usageProblems location owner (seen.contains x.1 ||
              ((u :: rest).take (i + 1)).any fun w => w.definition == some x.1) v x.2).flatten := by
      intro before met
      rw [ih]
      congr 2
      funext i v
      cases linked : g.definition? v with
      | none => rfl
      | some x =>
        obtain ⟨id, d⟩ := x
        rw [Option.elim_some, Option.elim_some, met id d (definition?_eq_some_iff.mp linked).2,
          List.take_succ_cons, List.any_cons, Bool.or_assoc]
    rw [checkUsagesFrom_cons, List.mapIdx_cons, List.flatten_cons]
    cases linked : g.definition? u with
    | none =>
      refine later seen fun id d defined => ?_
      have other : u.definition ≠ some id := by
        intro same
        rw [definition?_eq_some_iff.mpr ⟨same, defined⟩] at linked
        cases linked
      rw [beq_false_of_ne other, Bool.or_false]
    | some x =>
      obtain ⟨id, d⟩ := x
      obtain ⟨same, _⟩ := definition?_eq_some_iff.mp linked
      rw [Option.elim_some, Option.elim_some, List.take_zero, List.any_nil, Bool.or_false]
      congr 1
      refine later (id :: seen) fun id' d' _ => ?_
      rw [List.contains_cons, same, Bool.or_comm]
      congr 1
      rw [Option.some_beq_some, BEq.comm]

/-- Usages that are not linked to a definition play no part. -/
theorem checkUsagesFrom_filter (seen : List DirectiveId) (us : List Usage) :
    g.checkUsagesFrom location owner seen (us.filter fun u => (g.definition? u).isSome) =
      g.checkUsagesFrom location owner seen us := by
  induction us generalizing seen with
  | nil => rfl
  | cons u rest ih =>
    cases linked : g.definition? u with
    | none =>
      rw [List.filter_cons_of_neg (by simp [linked]), checkUsagesFrom_cons, linked,
        Option.elim_none, ih]
    | some x =>
      rw [List.filter_cons_of_pos (by simp [linked]), checkUsagesFrom_cons, checkUsagesFrom_cons,
        linked, Option.elim_some, Option.elim_some, ih]

theorem any_take_iff {id : DirectiveId} {us : List Usage} {i : Nat} :
    ((us.take i).any fun v => v.definition == some id) = true ↔
      ∃ j v, j < i ∧ us[j]? = some v ∧ v.definition = some id := by
  rw [List.any_eq_true]
  constructor
  · rintro ⟨v, before, same⟩
    obtain ⟨j, stands⟩ := List.getElem?_of_mem before
    rw [List.getElem?_take, Option.ite_none_right_eq_some] at stands
    exact ⟨j, v, stands.1, stands.2, beq_iff_eq.mp same⟩
  · rintro ⟨j, v, before, stands, same⟩
    refine ⟨v, List.mem_of_getElem? (i := j) ?_, beq_iff_eq.mpr same⟩
    rw [List.getElem?_take_of_lt before, stands]

/-- The report on the usages of one element holds every fault once, in the order of the usages, and
it is the same without the usages that have no definition. -/
theorem checkUsages_ranked (us : List Usage) :
    Ranked (g.UsageFault location owner us) (g.checkUsages location owner us) ∧
      g.checkUsages location owner us =
        g.checkUsages location owner (us.filter fun u => (g.definition? u).isSome) := by
  refine ⟨?_, (g.checkUsagesFrom_filter location owner [] us).symm⟩
  rw [checkUsages, checkUsagesFrom_eq]
  refine (Ranked.flatten (fun i u rank x => ∃ id d, g.definition? u = some (id, d) ∧
    u.Fault g location owner (∃ j v, j < i ∧ us[j]? = some v ∧ v.definition = some id) d rank x)
    ?_).congr fun rank x => ⟨?_, ?_⟩
  · intro i u stands
    cases linked : g.definition? u with
    | none => exact Ranked.nil (by simp)
    | some found =>
      obtain ⟨id, d⟩ := found
      refine (g.usageProblems_ranked location owner _ u d).congr fun rank x => ?_
      rw [List.contains_nil, Bool.false_or, any_take_iff]
      constructor
      · intro fault
        exact ⟨id, d, rfl, fault⟩
      · rintro ⟨_, _, same, fault⟩
        cases same
        exact fault
  · rintro ⟨i, u, rest, rfl, stands, id, d, linked, fault⟩
    obtain ⟨linked, defined⟩ := definition?_eq_some_iff.mp linked
    exact .usage stands linked defined fault
  · rintro ⟨stands, linked, defined, fault⟩
    exact ⟨_, _, _, rfl, stands, _, _, definition?_eq_some_iff.mpr ⟨linked, defined⟩, fault⟩

end Graph

end SchemaAtlas
