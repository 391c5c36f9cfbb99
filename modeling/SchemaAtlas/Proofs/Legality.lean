import SchemaAtlas.Proofs.Cycles
import SchemaAtlas.Proofs.Marking

/-!
# Legal usages

The checks report nothing about the usages on an element exactly if each of them stands where its
directive may, with the arguments that the directive declares, and only repeatable directives stand
there twice. Every element of an accepted schema goes through these checks, whichever document put
the usage there, with one exception: the built-in scalars, which extensions may put usages on.
-/

namespace SchemaAtlas

theorem TypeDef.enumValues?_eq_some_iff {d : TypeDef} {values : Table EnumValue} :
    d.enumValues? = some values ↔ d.body = .enum values := by
  unfold enumValues?
  cases d.body <;> simp

/-- What a definition asks of one usage of it. -/
structure Usage.Obeys (u : Usage) (d : DirectiveDef) (location : DirectiveLocation)
    (fits : TypeUse → Value → Bool) : Prop where
  located : d.locations.contains location = true
  declared : ∀ e ∈ u.arguments.entries, ∃ a, d.arguments.get? e.1 = some a ∧ fits a.type e.2 = true
  complete : ∀ e ∈ d.arguments.entries, e.2.isRequired = true → e.1 ∈ u.arguments.keys

theorem Value.fits_null_nonNull (types : Table TypeDef) {v : Value} {a : TypeUse}
    (null : v.isNull = true) (nonNull : a.isNonNull = true) : v.fits types a = false := by
  cases v with
  | null =>
    cases a with
    | nonNull inner => simp [fits, TypeUse.admits]
    | _ => cases nonNull
  | _ => cases null

namespace Graph

/-- How a value fits a type by the types of a graph. -/
def fits (g : Graph) (a : TypeUse) (v : Value) : Bool := v.fits g.types a

/-- The definition that a usage is linked to. -/
def definition? (g : Graph) (u : Usage) : Option (DirectiveId × DirectiveDef) :=
  u.definition.bind fun id => (g.directiveAt? id).map fun d => (id, d)

theorem definition?_eq_some_iff {g : Graph} {u : Usage} {id : DirectiveId} {d : DirectiveDef} :
    g.definition? u = some (id, d) ↔ u.definition = some id ∧ g.directiveAt? id = some d := by
  rw [definition?, Option.bind_eq_some_iff]
  constructor
  · rintro ⟨id', linked, found⟩
    obtain ⟨d', found, pair⟩ := Option.map_eq_some_iff.mp found
    cases pair
    exact ⟨linked, found⟩
  · rintro ⟨linked, found⟩
    exact ⟨id, linked, by rw [found, Option.map_some]⟩

theorem suppliedArgument_eq_nil_iff (g : Graph) (owner : ElementPath) (u : Usage)
    (d : DirectiveDef) (e : String × Value) :
    g.suppliedArgument owner u d e = [] ↔
      ∃ a, d.arguments.get? e.1 = some a ∧ g.fits a.type e.2 = true := by
  unfold suppliedArgument fits
  cases d.arguments.get? e.1 with
  | none => simp
  | some a =>
    by_cases null : (e.2.isNull && a.type.isNonNull) = true
    · obtain ⟨isNull, nonNull⟩ := Bool.and_eq_true_iff.mp null
      simp [null, Value.fits_null_nonNull g.types isNull nonNull]
    · by_cases fit : e.2.fits g.types a.type = true <;> simp [null, fit]

theorem missingArguments_eq_nil_iff (owner : ElementPath) (u : Usage) (d : DirectiveDef) :
    missingArguments owner u d = [] ↔
      ∀ e ∈ d.arguments.entries, e.2.isRequired = true → e.1 ∈ u.arguments.keys := by
  simp [missingArguments, Table.contains]

theorem usageProblems_eq_nil_iff (g : Graph) (location : DirectiveLocation) (owner : ElementPath)
    (repeated : Bool) (u : Usage) (d : DirectiveDef) :
    g.usageProblems location owner repeated u d = [] ↔
      (repeated = true → d.repeatable = true) ∧ u.Obeys d location g.fits := by
  simp only [usageProblems, List.append_eq_nil_iff, List.flatMap_eq_nil_iff,
    suppliedArgument_eq_nil_iff, missingArguments_eq_nil_iff]
  constructor
  · rintro ⟨⟨⟨located, once⟩, declared⟩, complete⟩
    refine ⟨?_, ?_, declared, complete⟩
    · intro again
      by_contra unrepeatable
      simp [again, unrepeatable] at once
    · by_contra elsewhere
      simp [elsewhere] at located
  · rintro ⟨once, located, declared, complete⟩
    refine ⟨⟨⟨by rw [if_pos located], ?_⟩, declared⟩, complete⟩
    by_cases again : repeated = true
    · simp [once again]
    · simp [again]

/-- Two usages of one directive that may be repeated, or usages of different ones. -/
def Compatible (g : Graph) (u v : Usage) : Prop :=
  ∀ id d, g.definition? u = some (id, d) → g.definition? v = some (id, d) → d.repeatable = true

theorem checkUsagesFrom_cons (g : Graph) (location : DirectiveLocation) (owner : ElementPath)
    (seen : List DirectiveId) (u : Usage) (rest : List Usage) :
    g.checkUsagesFrom location owner seen (u :: rest) =
      (g.definition? u).elim (g.checkUsagesFrom location owner seen rest) fun x =>
        g.usageProblems location owner (seen.contains x.1) u x.2 ++
          g.checkUsagesFrom location owner (x.1 :: seen) rest := by
  rw [checkUsagesFrom, definition?]
  cases u.definition.bind fun id => (g.directiveAt? id).map fun d => (id, d) with
  | none => rfl
  | some found => rfl

/-- By induction on the usages; those met before are known by their directives only. -/
theorem checkUsagesFrom_eq_nil_iff (g : Graph) (location : DirectiveLocation)
    (owner : ElementPath) (seen : List DirectiveId) (us : List Usage) :
    g.checkUsagesFrom location owner seen us = [] ↔
      (∀ u ∈ us, ∀ id d, g.definition? u = some (id, d) →
        u.Obeys d location g.fits ∧ (id ∈ seen → d.repeatable = true)) ∧
      us.Pairwise g.Compatible := by
  induction us generalizing seen with
  | nil => simp [checkUsagesFrom]
  | cons u rest ih =>
    rw [List.forall_mem_cons, List.pairwise_cons]
    rw [checkUsagesFrom_cons]
    cases linked : g.definition? u with
    | none =>
      simp only [Option.elim_none, ih, Compatible, linked]
      simp
    | some found =>
      obtain ⟨id, d⟩ := found
      simp only [Option.elim_some, List.append_eq_nil_iff, usageProblems_eq_nil_iff, ih,
        List.contains_iff_mem]
      constructor
      · rintro ⟨⟨once, obeys⟩, later, compatible⟩
        refine ⟨⟨?_, ?_⟩, ?_, compatible⟩
        · rintro _ _ ⟨⟩
          exact ⟨obeys, once⟩
        · intro v member id' d' target
          obtain ⟨legal, unseen⟩ := later v member id' d' target
          exact ⟨legal, fun before => unseen (List.mem_cons_of_mem _ before)⟩
        · rintro v member id' d' source target
          cases linked.symm.trans source
          exact (later v member id d target).2 List.mem_cons_self
      · rintro ⟨⟨first, later⟩, apart, compatible⟩
        obtain ⟨obeys, once⟩ := first id d rfl
        refine ⟨⟨once, obeys⟩, ?_, compatible⟩
        intro v member id' d' target
        obtain ⟨legal, unseen⟩ := later v member id' d' target
        refine ⟨legal, fun before => ?_⟩
        rcases List.mem_cons.mp before with rfl | before
        · obtain rfl : d' = d := Option.some.inj
            ((definition?_eq_some_iff.mp target).2.symm.trans (definition?_eq_some_iff.mp linked).2)
          exact apart v member id' d' linked target
        · exact unseen before

end Graph

/-- Where a directive stands when it is applied to an element. Nothing can be applied to a directive
itself. -/
def usageLocation? (types : Table TypeDef) : ElementId → Option DirectiveLocation
  | .schema => some .schema
  | .type t => (types.at? t.index).map fun e =>
    match e.2.body with
    | .enum _ => .enum
    | .inputObject _ => .inputObject
    | .interface _ => .interface
    | .object _ => .object
    | .scalar => .scalar
    | .union _ => .union
  | .field _ _ => some .fieldDefinition
  | .fieldArgument _ _ _ | .directiveArgument _ _ => some .argumentDefinition
  | .inputField _ _ => some .inputFieldDefinition
  | .enumValue _ _ => some .enumValue
  | .directive _ => none

def isBuiltInType (types : Table TypeDef) : ElementId → Bool
  | .type t => (types.at? t.index).any fun e => e.2.builtIn
  | _ => false

namespace Graph

/-- The usages on an element go through the checks for its location. -/
def UsagesChecked (g : Graph) (e : ElementId) : Prop :=
  g.usages e = [] ∨ ∃ location owner, usageLocation? g.types e = some location ∧
    g.checkUsages location owner (g.usages e) = []

theorem usagesChecked_of_option {g : Graph} {e : ElementId} {α : Type} {o : Option α}
    {view : α → List Usage} (usages : g.usages e = (o.map view).getD [])
    (checked : ∀ a, o = some a → ∃ location owner, usageLocation? g.types e = some location ∧
      g.checkUsages location owner (view a) = []) : g.UsagesChecked e := by
  cases o with
  | none => exact .inl usages
  | some a =>
    obtain ⟨location, owner, located, silent⟩ := checked a rfl
    exact .inr ⟨location, owner, located, by rw [usages]; exact silent⟩

theorem typeAt?_of_at? {g : Graph} {t : TypeId} {e : String × TypeDef}
    (entry : g.types.at? t.index = some e) : g.typeAt? t = some e.2 := by
  rw [typeAt?, entry, Option.map_some]

theorem checkUsages_of_checkInputValue {g : Graph} {location : DirectiveLocation}
    {path : ElementPath} {v : InputValue} (silent : g.checkInputValue location path v = []) :
    g.checkUsages location path v.usages = [] := by
  simp only [checkInputValue, List.append_eq_nil_iff] at silent
  exact silent.1.1.1.2

section Routes

variable {g : Graph} (plain : ∀ t d, g.typeAt? t = some d → d.builtIn = true → d.body = .scalar)
include plain

/-- What has members is not built in. -/
theorem own_of_members {t : TypeId} {d : TypeDef} (found : g.typeAt? t = some d)
    (members : d.body ≠ .scalar) : d.builtIn = false := by
  cases origin : d.builtIn with
  | false => rfl
  | true => exact absurd (plain t d found origin) members

theorem own_of_shape {t : TypeId} {d : TypeDef} {shape : Shape} (found : g.typeAt? t = some d)
    (shaped : d.shape? = some shape) : d.builtIn = false := by
  refine own_of_members plain found fun scalar => ?_
  simp [TypeDef.shape?, scalar] at shaped

theorem Lawful.usagesChecked (lawful : g.Lawful)
    (bare : ∀ id d, g.directiveAt? id = some d → d.builtIn = true →
      ∀ e ∈ d.arguments.entries, e.2.usages = [])
    (e : ElementId) (other : isBuiltInType g.types e = false) : g.UsagesChecked e := by
  cases e with
  | schema =>
    refine usagesChecked_of_option rfl fun block declared => ⟨.schema, .schema, rfl, ?_⟩
    have silent := lawful.block
    rw [checkBlock, declared] at silent
    exact silent
  | type t =>
    refine usagesChecked_of_option rfl fun e entry => ?_
    have own : e.2.builtIn = false := by simpa [isBuiltInType, entry] using other
    have silent := lawful.types t e.2 (typeAt?_of_at? entry) own
    simp only [checkType, List.append_eq_nil_iff] at silent
    refine ⟨typeLocation e.2.kind, g.path (.type t), ?_, silent.1.2⟩
    simp only [usageLocation?, entry, Option.map_some, TypeDef.kind]
    cases e.2.body <;> rfl
  | field t f =>
    refine usagesChecked_of_option rfl fun e found => ?_
    obtain ⟨shape, known, position⟩ := Option.bind_eq_some_iff.mp found
    obtain ⟨x, entry, shaped⟩ := Option.bind_eq_some_iff.mp known
    have own := own_of_shape plain (typeAt?_of_at? entry) shaped
    have silent := lawful.field (typeAt?_of_at? entry) own shaped e
      ((Table.mem_entries_iff _ e).mpr ⟨f, position⟩)
    simp only [checkField, List.append_eq_nil_iff] at silent
    exact ⟨.fieldDefinition, _, rfl, silent.1.1.2⟩
  | fieldArgument t f a =>
    refine usagesChecked_of_option rfl fun e found => ?_
    obtain ⟨declared, known, position'⟩ := Option.bind_eq_some_iff.mp found
    obtain ⟨shape, known, position⟩ := Option.bind_eq_some_iff.mp known
    obtain ⟨x, entry, shaped⟩ := Option.bind_eq_some_iff.mp known
    have own := own_of_shape plain (typeAt?_of_at? entry) shaped
    have silent := lawful.field (typeAt?_of_at? entry) own shaped declared
      ((Table.mem_entries_iff _ declared).mpr ⟨f, position⟩)
    simp only [checkField, List.append_eq_nil_iff, List.flatMap_eq_nil_iff] at silent
    exact ⟨.argumentDefinition, _, rfl, checkUsages_of_checkInputValue
      (silent.2 e ((Table.mem_entries_iff _ e).mpr ⟨a, position'⟩))⟩
  | inputField t f =>
    refine usagesChecked_of_option rfl fun e found => ?_
    obtain ⟨fields, known, position⟩ := Option.bind_eq_some_iff.mp found
    obtain ⟨x, entry, fieldsOf⟩ := Option.bind_eq_some_iff.mp known
    have body : x.2.body = .inputObject fields := TypeDef.inputFields?_eq_some_iff.mp fieldsOf
    have own := own_of_members plain (typeAt?_of_at? entry) (by simp [body])
    have silent := lawful.inputField (typeAt?_of_at? entry) own body e
      ((Table.mem_entries_iff _ e).mpr ⟨f, position⟩)
    exact ⟨.inputFieldDefinition, _, rfl, checkUsages_of_checkInputValue silent⟩
  | enumValue t v =>
    refine usagesChecked_of_option rfl fun e found => ?_
    obtain ⟨values, known, position⟩ := Option.bind_eq_some_iff.mp found
    obtain ⟨x, entry, valuesOf⟩ := Option.bind_eq_some_iff.mp known
    have body : x.2.body = .enum values := TypeDef.enumValues?_eq_some_iff.mp valuesOf
    have own := own_of_members plain (typeAt?_of_at? entry) (by simp [body])
    have silent := (lawful.enumValue (typeAt?_of_at? entry) own body).2 e
      ((Table.mem_entries_iff _ e).mpr ⟨v, position⟩)
    simp only [checkEnumValue, List.append_eq_nil_iff] at silent
    exact ⟨.enumValue, _, rfl, silent.2⟩
  | directive d => exact .inl rfl
  | directiveArgument id a =>
    refine usagesChecked_of_option rfl fun e found => ?_
    obtain ⟨x, entry, position⟩ := Option.bind_eq_some_iff.mp found
    have definition : g.directiveAt? id = some x.2 := by rw [directiveAt?, entry, Option.map_some]
    have member := (Table.mem_entries_iff _ e).mpr ⟨a, position⟩
    refine ⟨.argumentDefinition, (g.path (.directive id)).child (.argument e.1), rfl, ?_⟩
    cases origin : x.2.builtIn with
    | false => exact checkUsages_of_checkInputValue (lawful.argument definition origin e member)
    | true =>
      rw [bare id x.2 definition origin e member]
      rfl

end Routes

/-- What `UsagesChecked` says of each usage that is linked. -/
theorem UsagesChecked.obeys {g : Graph} {e : ElementId} (checked : g.UsagesChecked e) {i : Nat}
    {u : Usage} (stands : (g.usages e)[i]? = some u) {id : DirectiveId} {d : DirectiveDef}
    (linked : g.definition? u = some (id, d)) :
    (∃ location, usageLocation? g.types e = some location ∧ u.Obeys d location g.fits) ∧
      (d.repeatable = false → ∀ j v, (g.usages e)[j]? = some v → v.definition = some id →
        j = i) := by
  rcases checked with empty | ⟨location, owner, located, silent⟩
  · rw [empty, List.getElem?_nil] at stands
    cases stands
  obtain ⟨legal, compatible⟩ := (g.checkUsagesFrom_eq_nil_iff location owner [] _).mp silent
  refine ⟨⟨location, located, (legal u (List.mem_of_getElem? stands) id d linked).1⟩, ?_⟩
  intro unrepeatable j v stands' same
  have linked' : g.definition? v = some (id, d) :=
    definition?_eq_some_iff.mpr ⟨same, (definition?_eq_some_iff.mp linked).2⟩
  obtain ⟨hi, rfl⟩ := List.getElem?_eq_some_iff.mp stands
  obtain ⟨hj, rfl⟩ := List.getElem?_eq_some_iff.mp stands'
  rw [List.pairwise_iff_getElem] at compatible
  rcases Nat.lt_trichotomy i j with before | rfl | after
  · have repeatable := compatible i j hi hj before id d linked linked'
    rw [unrepeatable] at repeatable
    cases repeatable
  · rfl
  · have repeatable := compatible j i hj hi after id d linked' linked
    rw [unrepeatable] at repeatable
    cases repeatable

theorem withRoot_usageLocation? (g : Graph) (e : ElementId) :
    usageLocation? g.withRoot.types e = usageLocation? g.types e := by
  cases e <;> simp [usageLocation?, Function.comp_def]

theorem withRoot_isBuiltInType (g : Graph) (e : ElementId) :
    isBuiltInType g.withRoot.types e = isBuiltInType g.types e := by
  cases e <;> simp [isBuiltInType, Option.any_map]

end Graph

/-- Nothing is applied to the arguments of a built-in directive. -/
theorem builtInDirectives_bare :
    ∀ e ∈ builtInDirectives, ∀ a ∈ e.2.arguments.entries, a.2.usages = [] := by
  have every : (builtInDirectives.all fun e =>
      e.2.arguments.entries.all fun a => a.2.usages.isEmpty) = true := by decide
  intro e member a argument
  have bare := List.all_eq_true.mp (List.all_eq_true.mp every e member) a argument
  exact List.isEmpty_iff.mp bare

theorem linked_builtIn_bare {buffer : List (Option String × Declaration)}
    (collected : (Graph.collect (BuiltIn.declarations ++ given buffer)).problems = [])
    (id : DirectiveId) (d : DirectiveDef)
    (found : (Graph.described (given buffer)).linked.directiveAt? id = some d)
    (builtIn : d.builtIn = true) : ∀ e ∈ d.arguments.entries, e.2.usages = [] := by
  intro e member
  obtain ⟨x, entry, rfl⟩ := Option.map_eq_some_iff.mp found
  rw [Graph.linked_directives_at?, Option.map_eq_some_iff] at entry
  obtain ⟨old, entry, rfl⟩ := entry
  obtain ⟨own, entries, others⟩ := described_directives collected
  have stored := (Table.mem_entries_iff _ old).mpr ⟨_, entry⟩
  rw [entries] at stored
  obtain ⟨a, position⟩ := (Table.mem_entries_iff _ e).mp member
  simp only [Names.linkDirective, Names.linkInputValues, Table.at?_mapIdx,
    Option.map_eq_some_iff] at position
  obtain ⟨source, position, rfl⟩ := position
  rcases List.mem_append.mp stored with standard | given
  · have bare := builtInDirectives_bare old standard source
      ((Table.mem_entries_iff _ source).mpr ⟨a, position⟩)
    simp [Names.linkInputValue, Names.linkUsages, bare]
  · have plain : old.2.builtIn = true := builtIn
    rw [others old given] at plain
    cases plain

namespace Schema

/-- A usage is linked to the definition of its name. -/
structure Linked (s : Schema) (u : Usage) (id : DirectiveId) (d : DirectiveDef) : Prop where
  linked : u.definition = some id
  defined : s.directiveAt? id = some d
  named : d.name = u.name

/-- The usage at position `i` on an element is all that its definition asks for, and the only one of
that definition there unless it may be repeated. -/
structure Legal (s : Schema) (e : ElementId) (i : Nat) (u : Usage) (id : DirectiveId)
    (d : DirectiveDef) : Prop extends s.Linked u id d where
  obeys : ∃ location, usageLocation? s.types e = some location ∧ u.Obeys d location s.fits
  alone : d.repeatable = false → ∀ j v, (s.usages e)[j]? = some v → v.definition = some id → j = i

end Schema

namespace Sound

variable {required : Bool} {buffer : List (Option String × Declaration)}

theorem usage_linked {declarations : List Sourced} (sound : Sound required declarations)
    {e : ElementId} {i : Nat} {u : Usage}
    (stands : ((Graph.described declarations).resolved.usages e)[i]? = some u) :
    ∃ id d, (Graph.described declarations).resolved.Linked u id d := by
  have fresh := Graph.described_fresh declarations
  rw [sound.usages, Names.linkUsages, List.getElem?_map, Option.map_eq_some_iff] at stands
  obtain ⟨written, stands, rfl⟩ := stands
  have known := sound.known (.usage ⟨e, i⟩) written.name ⟨written, stands, rfl⟩
  obtain ⟨id, position⟩ := Option.isSome_iff_exists.mp known
  obtain ⟨d, entry⟩ :=
    (Graph.directiveId?_eq_some_iff fresh.directives.distinct written.name id).mp position
  refine ⟨id, (Graph.described declarations).resolvedDirective id d, position, ?_, ?_⟩
  · rw [Graph.resolved_directiveAt?, Graph.directiveAt?, entry]
    rfl
  · exact fresh.directives.named _ ((Table.mem_entries_iff _ _).mpr ⟨_, entry⟩)

theorem usagesChecked (sound : Sound required (given buffer)) (e : ElementId)
    (other : isBuiltInType (Graph.described (given buffer)).linked.types e = false) :
    (Graph.described (given buffer)).linked.UsagesChecked e := by
  have lawful := (Graph.violations_eq_nil_iff _).mp sound.lawful
  refine lawful.usagesChecked (fun t d found builtIn => ?_) (linked_builtIn_bare sound.collected)
    e other
  exact (linked_builtIn sound.collected found builtIn).1

end Sound

/-- Every usage of an accepted schema is linked to the definition of its name, and it is legal
unless it stands on a built-in scalar. -/
theorem usages_legal (required : Bool) (buffer : List (Option String × Declaration)) (s : Schema)
    (accepted : (analyze required (given buffer)).result = .ok s) (e : ElementId) (i : Nat)
    (u : Usage) (stands : (s.usages e)[i]? = some u) :
    ∃ id d, s.Linked u id d ∧ (isBuiltInType s.types e = false → s.Legal e i u id d) := by
  obtain ⟨sound, rfl⟩ := (analyze_eq_ok_iff_sound required (given buffer) s).mp accepted
  have fresh := Graph.described_fresh (given buffer)
  have fits : (Graph.described (given buffer)).linked.fits =
      (Graph.described (given buffer)).resolved.fits := by
    funext a v
    exact (Graph.withRoot_fits fresh.linked_types_distinct fresh.linked_directives_distinct v
      a).symm
  obtain ⟨id, d, linked⟩ := sound.usage_linked stands
  refine ⟨id, d, linked, fun other => ?_⟩
  have usages : (Graph.described (given buffer)).resolved.usages e =
      (Graph.described (given buffer)).linked.usages e := by
    rw [sound.usages, Graph.linked_usages]
  rw [usages] at stands
  have checked := sound.usagesChecked e (by rw [← Graph.withRoot_isBuiltInType]; exact other)
  have legal := checked.obeys stands
    (Graph.definition?_eq_some_iff.mpr ⟨linked.linked, linked.defined⟩)
  rw [← Graph.withRoot_usageLocation?, fits] at legal
  rw [← usages] at legal
  exact ⟨linked, legal.1, legal.2⟩

/-- The first of two usages of `tag` on `Book`. -/
theorem usages_legal_bookshop :
    ∃ s u, (analyze true (given bookshop)).result = .ok s ∧
      (s.usages (.type ⟨7⟩)).length = 2 ∧ (s.usages (.type ⟨7⟩))[0]? = some u ∧
      ∃ id d, s.Legal (.type ⟨7⟩) 0 u id d := by
  obtain ⟨s, accepted, counted⟩ : ∃ s, (analyze true (given bookshop)).result = .ok s ∧
      ((s.usages (.type ⟨7⟩)).length == 2 && !isBuiltInType s.types (.type ⟨7⟩)) = true :=
    exists_of_any (by decide +kernel)
  simp only [Bool.and_eq_true, beq_iff_eq, Bool.not_eq_true'] at counted
  obtain ⟨two, own⟩ := counted
  have first : 0 < (s.usages (.type ⟨7⟩)).length := by omega
  obtain ⟨id, d, _, legal⟩ := usages_legal true bookshop s accepted (.type ⟨7⟩) 0
    (s.usages (.type ⟨7⟩))[0] (List.getElem?_eq_getElem first)
  exact ⟨s, _, accepted, two, List.getElem?_eq_getElem first, id, d, legal own⟩

/-- Fields may be deprecated, and scalars may not. -/
def deprecatedScalar : List (Option String × Declaration) := [
  (none, .typeExtension {
    name := "String", usages := [{ name := "deprecated" }], body := .scalar }),
  (none, .type {
    name := "Query", body := .object [] [{ name := "a", type := .named "String" }] })]

/-- On a built-in scalar, a usage that stands in the wrong place is accepted. -/
theorem deprecatedScalar_illegal :
    ∃ s u, (analyze true (given deprecatedScalar)).result = .ok s ∧
      (s.usages (.type ⟨4⟩))[0]? = some u ∧ ∀ id d, ¬ s.Legal (.type ⟨4⟩) 0 u id d := by
  obtain ⟨s, accepted, evaluated⟩ :
      ∃ s, (analyze true (given deprecatedScalar)).result = .ok s ∧
        ((s.usages (.type ⟨4⟩))[0]?.any (fun u => u.definition == some ⟨0⟩) &&
          (s.directiveAt? ⟨0⟩).any (fun d => !d.locations.contains .scalar) &&
          usageLocation? s.types (.type ⟨4⟩) == some .scalar) = true :=
    exists_of_any (by decide +kernel)
  simp only [Bool.and_eq_true, Option.any_eq_true, beq_iff_eq, Bool.not_eq_true'] at evaluated
  obtain ⟨⟨⟨u, stands, target⟩, deprecated, defined, elsewhere⟩, scalar⟩ := evaluated
  refine ⟨s, u, accepted, stands, fun id d legal => ?_⟩
  cases target.symm.trans legal.linked
  cases defined.symm.trans legal.defined
  obtain ⟨location, located, obeys⟩ := legal.obeys
  cases scalar.symm.trans located
  rw [obeys.located] at elsewhere
  cases elsewhere

end SchemaAtlas
