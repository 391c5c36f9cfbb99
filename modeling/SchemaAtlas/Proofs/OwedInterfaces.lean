import SchemaAtlas.Proofs.Conformance
import SchemaAtlas.Proofs.Concerns
import SchemaAtlas.Proofs.Lookups

/-!
# Owed interfaces

A type that lists an interface owes the interfaces that this one lists. The rule goes by names, and
it asks only for the interface at hand to be defined. So a name that no definition has is reported
where it is listed, and once more for each type that lists one of the interfaces listing it; it goes
no further, since what is not defined lists nothing.
-/

namespace SchemaAtlas

/-- The interface that a type is told to implement. -/
def Problem.toImplement? : Problem → Option String
  | undefinedInterface name _ | implementsNonInterface _ _ _ name
  | missingTransitiveInterface _ _ name _ => some name
  | _ => none

/-- The interface that a type is told to implement on account of another one. -/
def Problem.owed? : Problem → Option String
  | missingTransitiveInterface _ _ name _ => some name
  | _ => none

theorem TypeDef.shape?_of_interface? {d : TypeDef} {shape : Shape}
    (isInterface : d.interface? = some shape) : d.shape? = some shape := by
  obtain ⟨_, _, _, _, _, body, _, _⟩ := d
  cases body with
  | interface own => exact isInterface
  | _ => cases isInterface

namespace Graph

/-- Whether the type at `t` owes a name for listing this reference: it leads to another type, which
is an interface and lists the name. -/
def owes (g : Graph) (t : TypeId) (name : String) (ref : TypeRef) : Bool :=
  (g.resolve ref).any fun found =>
    found.1 != t && found.2.interface?.any (·.implements.contains name)

/-- A type is asked for `name` on account of `interface`, the first in its list that lists `name`.
It has fields and does not list `name` itself. -/
inductive Demands (g : Graph) (name interface : String) : Diagnostic → Prop
  | intro (t : TypeId) (d : TypeDef) (shape : Shape) (ref : TypeRef) (found : g.typeAt? t = some d)
    (own : d.builtIn = false) (shaped : d.shape? = some shape)
    (fields : shape.fields.isEmpty = false) (other : name ≠ d.name)
    (unlisted : name ∉ shape.implements.keys)
    (first : shape.implements.entries.find? (fun e => g.owes t name e.2) = some (interface, ref)) :
    Demands g name interface ⟨.missingTransitiveInterface d.kind d.name name interface,
      some ref.location, g.path (.type t)⟩

/-! What the check of a list of interfaces says about names to implement. -/

theorem toImplement?_declaredField (g : Graph) (t : TypeId) (d : TypeDef) (shape : Shape)
    (interface : String) (e : String × Field) :
    ∀ x ∈ g.declaredField t d shape interface e, x.problem.toImplement? = none := by
  intro x member
  unfold declaredField at member
  split at member
  · simp only [fieldConformance, List.mem_append, List.mem_flatMap] at member
    rcases member with (⟨a, _, inside⟩ | extra) | type
    · unfold declaredArgument at inside
      split at inside
      · rw [List.mem_singleton.mp inside]
        rfl
      · split at inside
        · cases inside
        · rw [List.mem_singleton.mp inside]
          rfl
    · obtain ⟨a, _, rfl⟩ := List.mem_map.mp extra
      rfl
    · split at type
      · cases type
      · rw [List.mem_singleton.mp type]
        rfl
  · rw [List.mem_singleton.mp member]
    rfl

theorem toImplement?_of_owed? {p : Problem} {name : String} (owed : p.owed? = some name) :
    p.toImplement? = some name := by
  cases p with
  | missingTransitiveInterface kind type missing interface => exact owed
  | _ => cases owed

/-- The fields of an interface are no interfaces. -/
theorem not_mem_declaredFields (g : Graph) (t : TypeId) (d : TypeDef) (shape : Shape)
    (listed : String) (fields : List (String × Field)) {x : Diagnostic} {name : String}
    (told : x.problem.toImplement? = some name) :
    x ∉ fields.flatMap (g.declaredField t d shape listed) := by
  intro member
  obtain ⟨e, _, inside⟩ := List.mem_flatMap.mp member
  rw [g.toImplement?_declaredField t d shape listed e x inside] at told
  cases told

/-- Of several demands, one is for the name that is owed. -/
theorem mem_asked {d : TypeDef} {listed name : String} {location : Option SourceLocation}
    {path : ElementPath} {x : Diagnostic} (owed : x.problem.owed? = some name)
    {missing : List String} :
    x ∈ missing.map (fun absent =>
        ⟨.missingTransitiveInterface d.kind d.name absent listed, location, path⟩) ↔
      name ∈ missing ∧
        x = ⟨.missingTransitiveInterface d.kind d.name name listed, location, path⟩ := by
  rw [List.mem_map]
  constructor
  · rintro ⟨absent, member, rfl⟩
    cases owed
    exact ⟨member, rfl⟩
  · rintro ⟨member, rfl⟩
    exact ⟨name, member, rfl⟩

theorem mem_missingInterfaces (d : TypeDef) (shape interface : Shape) (demanded : List String)
    (name : String) :
    name ∈ missingInterfaces d shape interface demanded ↔ name ∈ interface.implements.keys ∧
      name ≠ d.name ∧ name ∉ shape.implements.keys ∧ name ∉ demanded := by
  simp [missingInterfaces, Table.contains, and_assoc]

/-- The first entry that makes the type owe a name is the one reported, unless the name has been
asked for before. -/
theorem mem_interfaceProblems_owed (g : Graph) (t : TypeId) (d : TypeDef) (shape : Shape)
    {x : Diagnostic} {name : String} (owed : x.problem.owed? = some name) (demanded : List String)
    (entries : List (String × TypeRef)) :
    x ∈ g.interfaceProblems t d shape (g.declaredField t d shape) demanded entries ↔
      name ∉ demanded ∧ name ≠ d.name ∧ name ∉ shape.implements.keys ∧
        ∃ interface ref, entries.find? (fun e => g.owes t name e.2) = some (interface, ref) ∧
          x = ⟨.missingTransitiveInterface d.kind d.name name interface, some ref.location,
            g.path (.type t)⟩ := by
  induction entries generalizing demanded with
  | nil => simp [interfaceProblems]
  | cons e rest ih =>
    obtain ⟨listed, ref⟩ := e
    rw [interfaceProblems, List.find?_cons]
    split
    · next unresolved =>
      have nothing : g.owes t name ref = false := by rw [owes, unresolved]; rfl
      rw [nothing]
      exact ih demanded
    · next id target resolved =>
      split
      · next plain =>
        have nothing : g.owes t name ref = false := by simp [owes, resolved, plain]
        have differs : x ≠ ⟨.implementsNonInterface d.kind d.name target.kind listed,
            some ref.location, g.path (.type t)⟩ := by
          rintro rfl
          cases owed
        rw [nothing, List.mem_cons, or_iff_right differs]
        exact ih demanded
      · next interface isInterface =>
        split
        · next itself =>
          have nothing : g.owes t name ref = false := by simp [owes, resolved, itself]
          rw [nothing]
          exact ih demanded
        · next another =>
          have owes : g.owes t name ref = interface.implements.contains name := by
            simp [owes, resolved, isInterface, another]
          have fields := g.not_mem_declaredFields t d shape listed interface.fields.entries
            (toImplement?_of_owed? owed)
          rw [List.mem_append, List.mem_append, mem_asked owed, or_iff_left fields, ih, owes,
            List.mem_append, mem_missingInterfaces]
          cases contains : interface.implements.contains name with
          | true =>
            have member := (Table.contains_iff_mem _ _).mp contains
            simp only [member, Option.some.injEq, Prod.mk.injEq]
            grind
          | false =>
            have member : name ∉ interface.implements.keys := fun member => by
              rw [(Table.contains_iff_mem _ _).mpr member] at contains
              cases contains
            simp only [member, false_and, false_or, or_false]

/-- What is listed and turns out to be no interface is defined. -/
theorem listed_of_mem_interfaceProblems {g : Graph} {t : TypeId} {d : TypeDef} {shape : Shape}
    {x : Diagnostic} {name : String} (told : x.problem.toImplement? = some name)
    (direct : x.problem.owed? = none) {demanded : List String} {entries : List (String × TypeRef)}
    (member : x ∈ g.interfaceProblems t d shape (g.declaredField t d shape) demanded entries) :
    ∃ ref, (name, ref) ∈ entries ∧ (g.resolve ref).isSome := by
  induction entries generalizing demanded with
  | nil => cases member
  | cons e rest ih =>
    have later : ∀ {demanded},
        x ∈ g.interfaceProblems t d shape (g.declaredField t d shape) demanded rest →
        ∃ ref, (name, ref) ∈ e :: rest ∧ (g.resolve ref).isSome := by
      intro demanded inside
      obtain ⟨ref, present, resolved⟩ := ih inside
      exact ⟨ref, List.mem_cons_of_mem _ present, resolved⟩
    obtain ⟨listed, ref⟩ := e
    rw [interfaceProblems] at member
    split at member
    · exact later member
    · next id target resolved =>
      split at member
      · rcases List.mem_cons.mp member with rfl | inside
        · cases told
          exact ⟨ref, List.mem_cons_self, by rw [resolved]; rfl⟩
        · exact later inside
      · next interface _ =>
        split at member
        · exact later member
        · simp only [List.mem_append] at member
          rcases member with (asked | fields) | inside
          · obtain ⟨absent, _, rfl⟩ := List.mem_map.mp asked
            cases direct
          · exact absurd fields (g.not_mem_declaredFields t d shape listed _ told)
          · exact later inside

end Graph

/-! The other rules are about the form of definitions and about usages. -/

namespace Graph

section Foreign

variable {c : Concern} (form : c ≠ .form) (usage : c ≠ .usage)

include form

theorem foreign_checkName (name : String) (location : SourceLocation) (path : ElementPath) :
    Lacks c (checkName name location path) := by
  unfold checkName
  split <;> simp [Problem.concern, form.symm]

theorem foreign_checkEmpty (d : TypeDef) (empty : Bool) : Lacks c (checkEmpty d empty) := by
  unfold checkEmpty
  split <;> simp [Problem.concern, form.symm]

theorem foreign_checkMember (g : Graph) (d : TypeDef) (type : ElementPath) (ref : TypeRef) :
    Lacks c (g.checkMember d type ref) := by
  unfold checkMember
  split
  · split <;> simp [Problem.concern, form.symm]
  · exact lacks_nil

include usage

theorem foreign_checkInputValue (g : Graph) (location : DirectiveLocation) (path : ElementPath)
    (v : InputValue) : Lacks c (g.checkInputValue location path v) := by
  simp only [checkInputValue, lacks_append]
  refine ⟨⟨⟨⟨foreign_checkName form .., (g.only_checkUsages ..).lacks usage.symm⟩, ?_⟩, ?_⟩, ?_⟩
  · unfold checkInputType
    split
    · split <;> simp [Problem.concern, form.symm]
    · exact lacks_nil
  · unfold checkDefault
    split
    · split <;> simp [Problem.concern, form.symm]
    · exact lacks_nil
  · unfold checkDeprecation
    split <;> simp [Problem.concern, form.symm]

theorem foreign_checkField (g : Graph) (type : ElementPath) (e : String × Field) :
    Lacks c (g.checkField type e) := by
  simp only [checkField, lacks_append, lacks_flatMap]
  refine ⟨⟨⟨foreign_checkName form .., (g.only_checkUsages ..).lacks usage.symm⟩, ?_⟩,
    fun a _ => foreign_checkInputValue form usage ..⟩
  unfold checkOutputType
  split
  · split <;> simp [Problem.concern, form.symm]
  · exact lacks_nil

theorem foreign_checkEnumValue (g : Graph) (d : TypeDef) (type : ElementPath)
    (e : String × EnumValue) : Lacks c (g.checkEnumValue d type e) := by
  simp only [checkEnumValue, lacks_append]
  refine ⟨⟨foreign_checkName form .., ?_⟩, (g.only_checkUsages ..).lacks usage.symm⟩
  unfold checkReserved
  split <;> simp [Problem.concern, form.symm]

end Foreign

section Violations

variable {x : Diagnostic}

theorem not_mem_of_lacks {ds : List Diagnostic} (lacks : Lacks x.problem.concern ds) : x ∉ ds :=
  fun member => lacks.each x member rfl

variable (form : x.problem.concern ≠ .form) (usage : x.problem.concern ≠ .usage)

include form usage

/-- Of the rules for the members of a type, the one for interfaces is left. -/
theorem mem_checkBody (g : Graph) (t : TypeId) (d : TypeDef) (path : ElementPath) :
    x ∈ g.checkBody t d path ↔ ∃ shape, d.shape? = some shape ∧ shape.fields.isEmpty = false ∧
      x ∈ g.checkInterfaces t d shape := by
  have members : ∀ shape : Shape, x ∈ checkEmpty d shape.fields.isEmpty ++
      shape.fields.entries.flatMap (g.checkField path) ++
        (if shape.fields.isEmpty then [] else g.checkInterfaces t d shape) ↔
      shape.fields.isEmpty = false ∧ x ∈ g.checkInterfaces t d shape := by
    intro shape
    have others : Lacks x.problem.concern (checkEmpty d shape.fields.isEmpty ++
        shape.fields.entries.flatMap (g.checkField path)) :=
      lacks_append.mpr ⟨foreign_checkEmpty form d _,
        lacks_flatMap.mpr fun e _ => foreign_checkField form usage g path e⟩
    rw [List.mem_append, or_iff_right (not_mem_of_lacks others)]
    cases shape.fields.isEmpty <;> simp
  unfold checkBody
  cases body : d.body with
  | enum values =>
    have others : Lacks x.problem.concern (checkEmpty d values.isEmpty ++
        values.entries.flatMap (g.checkEnumValue d path)) :=
      lacks_append.mpr ⟨foreign_checkEmpty form d _,
        lacks_flatMap.mpr fun e _ => foreign_checkEnumValue form usage g d path e⟩
    simp [TypeDef.shape?, body, not_mem_of_lacks others]
  | inputObject fields =>
    have others : Lacks x.problem.concern (checkEmpty d fields.isEmpty ++
        fields.entries.flatMap (g.checkInputField path)) :=
      lacks_append.mpr ⟨foreign_checkEmpty form d _,
        lacks_flatMap.mpr fun e _ => foreign_checkInputValue form usage g _ _ e.2⟩
    simp [TypeDef.shape?, body, not_mem_of_lacks others]
  | interface shape | object shape =>
    simp only [members, TypeDef.shape?, body, Option.some.injEq, exists_eq_left']
  | scalar => simp [TypeDef.shape?, body]
  | union members =>
    have others : Lacks x.problem.concern (checkEmpty d members.isEmpty ++
        members.values.flatMap (g.checkMember d path)) :=
      lacks_append.mpr ⟨foreign_checkEmpty form d _,
        lacks_flatMap.mpr fun ref _ => foreign_checkMember form g d path ref⟩
    simp [TypeDef.shape?, body, not_mem_of_lacks others]

/-- Of all rules, the one for interfaces is left, and those against cycles. -/
theorem mem_violations (cycle : x.problem.concern ≠ .cycle) (g : Graph) :
    x ∈ g.violations ↔ ∃ t d shape, g.typeAt? t = some d ∧ d.builtIn = false ∧
      d.shape? = some shape ∧ shape.fields.isEmpty = false ∧ x ∈ g.checkInterfaces t d shape := by
  have directives : Lacks x.problem.concern (g.ownDirectives.flatMap g.checkDirective) := by
    refine lacks_flatMap.mpr fun e _ => lacks_append.mpr ⟨foreign_checkName form .., ?_⟩
    exact lacks_flatMap.mpr fun a _ => foreign_checkInputValue form usage g _ _ a.2
  have block : Lacks x.problem.concern g.checkBlock := by
    unfold checkBlock
    split
    · exact (g.only_checkUsages ..).lacks usage.symm
    · exact lacks_nil
  have types : ∀ t d, x ∈ g.checkType (t, d) ↔ ∃ shape, d.shape? = some shape ∧
      shape.fields.isEmpty = false ∧ x ∈ g.checkInterfaces t d shape := by
    intro t d
    have others : Lacks x.problem.concern (checkName d.name d.location (g.path (.type t)) ++
        g.checkUsages (typeLocation d.kind) (g.path (.type t)) d.usages) :=
      lacks_append.mpr ⟨foreign_checkName form .., (g.only_checkUsages ..).lacks usage.symm⟩
    rw [checkType, List.mem_append, or_iff_right (not_mem_of_lacks others),
      mem_checkBody form usage]
  have inputs := not_mem_of_lacks (g.only_inputCycles.lacks cycle.symm)
  have applied := not_mem_of_lacks (g.only_directiveCycles.lacks cycle.symm)
  simp only [violations, List.mem_append, not_mem_of_lacks directives, not_mem_of_lacks block,
    inputs, applied, or_false, List.mem_flatMap]
  constructor
  · rintro ⟨⟨t, d⟩, member, checked⟩
    obtain ⟨found, own⟩ := (g.mem_ownTypes t d).mp member
    obtain ⟨shape, shaped, fields, inside⟩ := (types t d).mp checked
    exact ⟨t, d, shape, found, own, shaped, fields, inside⟩
  · rintro ⟨t, d, shape, found, own, shaped, fields, inside⟩
    exact ⟨(t, d), (g.mem_ownTypes t d).mpr ⟨found, own⟩,
      (types t d).mpr ⟨shape, shaped, fields, inside⟩⟩

end Violations

theorem mem_checkInterfaces {g : Graph} {t : TypeId} {d : TypeDef} {shape : Shape} {x : Diagnostic}
    {name : String} (told : x.problem.toImplement? = some name) :
    x ∈ g.checkInterfaces t d shape ↔
      x ∈ g.interfaceProblems t d shape (g.declaredField t d shape) []
        shape.implements.entries := by
  rw [checkInterfaces, List.mem_append, or_iff_right]
  intro itself
  split at itself
  · rw [List.mem_singleton.mp itself] at told
    cases told
  · cases itself

/-- The demands that the rules make. -/
theorem mem_violations_owed (g : Graph) {x : Diagnostic} {name : String}
    (owed : x.problem.owed? = some name) :
    x ∈ g.violations ↔ ∃ interface, g.Demands name interface x := by
  have concern : x.problem.concern = .conformance := by
    cases problem : x.problem with
    | missingTransitiveInterface kind type missing interface => rfl
    | _ =>
      rw [problem] at owed
      cases owed
  rw [mem_violations (by rw [concern]; decide) (by rw [concern]; decide)
    (by rw [concern]; decide)]
  simp only [mem_checkInterfaces (toImplement?_of_owed? owed),
    g.mem_interfaceProblems_owed _ _ _ owed, List.not_mem_nil, not_false_eq_true, true_and]
  constructor
  · rintro ⟨t, d, shape, found, own, shaped, fields, other, unlisted, interface, ref, first, rfl⟩
    exact ⟨interface, t, d, shape, ref, found, own, shaped, fields, other, unlisted, first⟩
  · rintro ⟨interface, t, d, shape, ref, found, own, shaped, fields, other, unlisted, first⟩
    exact ⟨t, d, shape, found, own, shaped, fields, other, unlisted, interface, ref, first, rfl⟩

end Graph

/-! The steps of a run, by what they are concerned with. -/

section Run

variable {required : Bool} {declarations : List Sourced}
  (noExecutable : firstExecutable? declarations = none) {x : Diagnostic}

include noExecutable

theorem mem_problems_iff : x ∈ (analyze required declarations).problems ↔
    x ∈ (Graph.collect (BuiltIn.declarations ++ declarations)).problems ∨
      x ∈ (Graph.described declarations).danglingNames ∨
      x ∈ (Graph.described declarations).linked.violations ∨
      x ∈ ((Graph.described declarations).linked.resolveRoot required).problems := by
  rw [analyze_problems required noExecutable, analyzeGraph_problems]
  simp only [List.mem_append]

theorem mem_problems_of_lookup (lookup : x.problem.concern = .lookup) :
    x ∈ (analyze required declarations).problems ↔
      ∃ slot, (Graph.described declarations).linked.Open slot x := by
  have fresh := Graph.described_fresh declarations
  have collected := Graph.not_mem_of_lacks (x := x)
    ((Graph.only_collect (BuiltIn.declarations ++ declarations)).lacks (by rw [lookup]; decide))
  have rooted := Graph.not_mem_of_lacks (x := x)
    (((Graph.described declarations).linked.only_resolveRoot required).lacks
      (by rw [lookup]; decide))
  have lawful : x ∉ (Graph.described declarations).linked.violations := by
    rw [Graph.mem_violations (by rw [lookup]; decide) (by rw [lookup]; decide)
      (by rw [lookup]; decide)]
    rintro ⟨t, d, shape, _, _, _, _, member⟩
    exact Graph.not_mem_of_lacks ((Graph.only_checkInterfaces _ t d shape).lacks
      (by rw [lookup]; decide)) member
  rw [mem_problems_iff noExecutable, or_iff_right collected,
    or_iff_left (not_or.mpr ⟨lawful, rooted⟩), ← Graph.map_snd_opened fresh, List.mem_map]
  constructor
  · rintro ⟨⟨slot, x⟩, member, rfl⟩
    exact ⟨slot, (Graph.mem_opened fresh slot x).mp member⟩
  · rintro ⟨slot, isOpen⟩
    exact ⟨(slot, x), (Graph.mem_opened fresh slot x).mpr isOpen, rfl⟩

theorem mem_problems_of_conformance (conformance : x.problem.concern = .conformance) :
    x ∈ (analyze required declarations).problems ↔
      x ∈ (Graph.described declarations).linked.violations := by
  have collected := Graph.not_mem_of_lacks (x := x)
    ((Graph.only_collect (BuiltIn.declarations ++ declarations)).lacks
      (by rw [conformance]; decide))
  have known := Graph.not_mem_of_lacks (x := x)
    ((Graph.described declarations).only_danglingNames.lacks (by rw [conformance]; decide))
  have rooted := Graph.not_mem_of_lacks (x := x)
    (((Graph.described declarations).linked.only_resolveRoot required).lacks
      (by rw [conformance]; decide))
  rw [mem_problems_iff noExecutable, or_iff_right collected, or_iff_right known, or_iff_left rooted]

end Run

namespace Graph

/-! Names that no definition has. -/

section Undefined

variable {g : Graph} (fresh : g.Fresh) {name : String}

include fresh

theorem Open.toImplement? {t : TypeId} {x : Diagnostic}
    (isOpen : g.linked.Open (.implements t name) x) : x.problem.toImplement? = some name := by
  cases isOpen with
  | implements _ _ ref found unset =>
    rw [linked_refAt?, Option.map_eq_some_iff] at found
    obtain ⟨old, found, rfl⟩ := found
    have named : old.name = name := fresh.refAt?_implements found
    exact congrArg some named

/-- A report that an interface is not defined stands where the interface is listed. -/
theorem Open.implements_of_lookup {slot : Slot} {x : Diagnostic} (isOpen : g.linked.Open slot x)
    (told : x.problem.toImplement? = some name) : ∃ t, slot = .implements t name := by
  cases isOpen with
  | implements t listed ref found unset =>
    have own := Open.toImplement? fresh (.implements t listed ref found unset)
    cases own.symm.trans told
    exact ⟨t, rfl⟩
  | _ => cases told

variable (undefined : name ∉ g.types.keys)

include undefined

/-- What is listed and leads somewhere is defined. -/
theorem resolve_eq_none_of_undefined {t : TypeId} {d : TypeDef} {shape : Shape} {ref : TypeRef}
    (found : g.linked.typeAt? t = some d) (shaped : d.shape? = some shape)
    (listed : (name, ref) ∈ shape.implements.entries) : ref.target = none := by
  have target : ref.target = g.typeId? name := (fresh.linked_implements found shaped listed).1
  rw [target, typeId?, (Table.indexOf?_eq_none_iff g.types name).mpr undefined]
  rfl

/-- The interface on account of which an undefined name is owed lists it, and leaves it open. -/
theorem Demands.listed {interface : String} {x : Diagnostic}
    (demands : g.linked.Demands name interface x) :
    ∃ i reported, g.typeId? interface = some i ∧ g.linked.Open (.implements i name) reported := by
  obtain ⟨t, d, shape, ref, found, own, shaped, fields, other, unlisted, first⟩ := demands
  have member : (interface, ref) ∈ shape.implements.entries := List.mem_of_find?_eq_some first
  have owes : g.linked.owes t name ref = true := by simpa using List.find?_some first
  simp only [Graph.owes, Option.any_eq_true, Bool.and_eq_true] at owes
  obtain ⟨⟨i, target⟩, resolved, _, listing, isInterface, contains⟩ := owes
  obtain ⟨link, goal⟩ := resolve_target resolved
  have named : g.typeId? interface = some i :=
    (fresh.linked_implements found shaped member).1.symm.trans link
  rw [Table.contains_eq_isSome, Option.isSome_iff_exists] at contains
  obtain ⟨ref', entry⟩ := contains
  have listed : g.linked.refAt? (.implements i name) = some ref' := by
    simp [refAt?, goal, TypeDef.shape?_of_interface? isInterface, entry]
  have unset : ref'.target = none := by
    rw [linked_refAt?, Option.map_eq_some_iff] at listed
    obtain ⟨old, collected, rfl⟩ := listed
    rw [linkRef_target_eq_none_iff, fresh.refAt?_implements collected]
    exact undefined
  exact ⟨i, _, named, .implements i name ref' listed unset⟩

end Undefined

end Graph

/-- What a run says about an interface that no definition declares: it is reported by each type that
lists it, and it is asked for from each type that lists an interface listing it. Each such interface
is defined, and is itself among those reported. -/
theorem undefined_interface_reports (required : Bool) (declarations : List Sourced)
    (noExecutable : firstExecutable? declarations = none) (name : String)
    (undefined : name ∉ (Graph.described declarations).types.keys) :
    (∀ x, x ∈ (analyze required declarations).problems ∧ x.problem.toImplement? = some name ↔
      (∃ t, (Graph.described declarations).linked.Open (.implements t name) x) ∨
        ∃ interface, (Graph.described declarations).linked.Demands name interface x) ∧
      ∀ interface x, (Graph.described declarations).linked.Demands name interface x →
        ∃ i reported, (Graph.described declarations).typeId? interface = some i ∧
          reported ∈ (analyze required declarations).problems ∧
          (Graph.described declarations).linked.Open (.implements i name) reported := by
  have fresh := Graph.described_fresh declarations
  have reports : ∀ t x, (Graph.described declarations).linked.Open (.implements t name) x →
      x ∈ (analyze required declarations).problems := by
    intro t x isOpen
    refine (mem_problems_of_lookup noExecutable ?_).mpr ⟨_, isOpen⟩
    cases isOpen
    rfl
  refine ⟨fun x => ⟨?_, ?_⟩, ?_⟩
  · rintro ⟨member, told⟩
    cases problem : x.problem with
    | undefinedInterface missing path =>
      left
      have lookup : x.problem.concern = .lookup := by rw [problem]; rfl
      obtain ⟨slot, isOpen⟩ := (mem_problems_of_lookup noExecutable lookup).mp member
      obtain ⟨t, rfl⟩ := isOpen.implements_of_lookup fresh told
      exact ⟨t, isOpen⟩
    | missingTransitiveInterface kind type missing interface =>
      right
      have conformance : x.problem.concern = .conformance := by rw [problem]; rfl
      have owed : x.problem.owed? = some name := by
        rw [problem] at told ⊢
        exact told
      rw [mem_problems_of_conformance noExecutable conformance] at member
      exact (Graph.mem_violations_owed _ owed).mp member
    | implementsNonInterface kind type targetKind target =>
      have conformance : x.problem.concern = .conformance := by rw [problem]; rfl
      rw [mem_problems_of_conformance noExecutable conformance,
        Graph.mem_violations (by rw [conformance]; decide) (by rw [conformance]; decide)
          (by rw [conformance]; decide)] at member
      obtain ⟨t, d, shape, found, _, shaped, _, checked⟩ := member
      obtain ⟨ref, listed, resolved⟩ := Graph.listed_of_mem_interfaceProblems told
        (by rw [problem]; rfl) ((Graph.mem_checkInterfaces told).mp checked)
      have unset := Graph.resolve_eq_none_of_undefined fresh undefined found shaped listed
      simp [Graph.resolve, unset] at resolved
    | _ =>
      rw [problem] at told
      cases told
  · rintro (⟨t, isOpen⟩ | ⟨interface, demands⟩)
    · exact ⟨reports t x isOpen, isOpen.toImplement? fresh⟩
    · have owed : x.problem.owed? = some name := by
        cases demands
        rfl
      have conformance : x.problem.concern = .conformance := by
        cases demands
        rfl
      rw [mem_problems_of_conformance noExecutable conformance, Graph.mem_violations_owed _ owed]
      exact ⟨⟨interface, demands⟩, Graph.toImplement?_of_owed? owed⟩
  · intro interface x demands
    obtain ⟨i, reported, named, isOpen⟩ := demands.listed fresh undefined
    exact ⟨i, reported, named, reports i reported isOpen, isOpen⟩

/-- `Titled` lists an interface that nobody defines. -/
def titledQuery : List (Option String × Declaration) := [
  (none, .type {
    name := "Titled"
    body := .interface ["Node"] [{ name := "title", type := .named "String" }] }),
  (none, .type {
    name := "Query"
    body := .object ["Titled"] [{ name := "title", type := .named "String" }] })]

theorem titledQuery_asks : ∃ x ∈ (analyze true (given titledQuery)).problems,
    x.problem.owed? = some "Node" := by
  have asks : ((analyze true (given titledQuery)).problems.any fun x =>
      x.problem.owed? == some "Node") = true := by decide +kernel
  obtain ⟨x, member, owed⟩ := List.any_eq_true.mp asks
  exact ⟨x, member, beq_iff_eq.mp owed⟩

/-- `Query` is asked for an interface that it could not list, since it does not exist. -/
theorem titledQuery_owes_undefined :
    "Node" ∉ (Graph.described (given titledQuery)).types.keys ∧
      ∃ x ∈ (analyze true (given titledQuery)).problems, x.problem.owed? = some "Node" :=
  ⟨by decide +kernel, titledQuery_asks⟩

/-- `Query` is asked for `Node` beside the report on `Titled`. -/
theorem undefined_interface_reports_titledQuery :
    firstExecutable? (given titledQuery) = none ∧
      "Node" ∉ (Graph.described (given titledQuery)).types.keys ∧
      ∃ x ∈ (analyze true (given titledQuery)).problems, ∃ interface,
        (Graph.described (given titledQuery)).linked.Demands "Node" interface x ∧
          ∃ i reported, (Graph.described (given titledQuery)).typeId? interface = some i ∧
            reported ∈ (analyze true (given titledQuery)).problems ∧
            (Graph.described (given titledQuery)).linked.Open (.implements i "Node") reported := by
  have undefined : "Node" ∉ (Graph.described (given titledQuery)).types.keys := by decide +kernel
  obtain ⟨x, member, owed⟩ := titledQuery_asks
  obtain ⟨exact, listed⟩ :=
    undefined_interface_reports true (given titledQuery) rfl "Node" undefined
  refine ⟨rfl, undefined, x, member, ?_⟩
  rcases (exact x).mp ⟨member, Graph.toImplement?_of_owed? owed⟩ with ⟨t, isOpen⟩ | demanded
  · cases isOpen
    cases owed
  · obtain ⟨interface, demands⟩ := demanded
    exact ⟨interface, demands, listed interface x demands⟩

end SchemaAtlas
