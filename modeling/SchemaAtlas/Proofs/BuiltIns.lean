import SchemaAtlas.Proofs.Acceptance
import SchemaAtlas.Proofs.Defining

/-!
# What is built in

Every accepted graph starts with the built-in scalars and directives, and nothing that was given
counts as built in. Extensions may put usages on a built-in scalar, but they leave the outline of
every type as it was defined.
-/

namespace SchemaAtlas

def builtInTypes : List (String × TypeDef) :=
  BuiltIn.declarations.filterMap Sourced.typeEntry?

def builtInDirectives : List (String × DirectiveDef) :=
  BuiltIn.declarations.filterMap Sourced.directiveEntry?

theorem builtInTypes_eq :
    builtInTypes = BuiltIn.scalarNames.map fun name =>
      (name, {
        name, description := none, location := .builtIn, builtIn := true, usages := []
        body := .scalar }) := rfl

/-- What an extension leaves as it is. -/
structure TypeDef.Outline where
  name : String
  description : Option String
  location : SourceLocation
  builtIn : Bool
  kind : TypeKind

def TypeDef.outline (d : TypeDef) : TypeDef.Outline :=
  ⟨d.name, d.description, d.location, d.builtIn, d.kind⟩

namespace Graph

/-- The names and outlines of all types. -/
def outlines (g : Graph) : List (String × TypeDef.Outline) :=
  g.types.entries.map fun e => (e.1, e.2.outline)

theorem extendBody_kind (origin : Origin) (location : SourceLocation) (type : ElementPath)
    (d : BodyDecl) (old : TypeBody) :
    (Extend.body origin location type d old).value.kind = old.kind := by
  cases d <;> cases old <;> rfl

theorem extend_outlines (g : Graph) (s : Sourced) (distinct : g.types.keys.Nodup) :
    (g.extend s).value.outlines = g.outlines := by
  rw [extend]
  split
  · next e _ =>
    simp only [extendType]
    split
    · rfl
    · next old found =>
      have entry := (Table.get?_eq_some_iff distinct e.name old).mp found
      split
      · rfl
      · split
        · rfl
        · simp only [Reported.bind_value, Reported.pure_value, outlines, Table.modify,
            List.map_map]
          refine List.map_congr_left fun x member => ?_
          by_cases same : x.1 = e.name
          · have own : x = (e.name, old) := by
              obtain ⟨key, d⟩ := x
              obtain rfl : key = e.name := same
              have one := (Table.get?_eq_some_iff distinct e.name d).mpr member
              rw [found] at one
              rw [Option.some.inj one]
            simp [own, TypeDef.outline, TypeDef.kind, extendBody_kind]
          · simp [same]
  · next d _ =>
    simp only [extendSchema]
    split
    · rfl
    · simp only [Reported.bind_value]
      split <;> rfl
  all_goals rfl

theorem extend_directives (g : Graph) (s : Sourced) :
    (g.extend s).value.directives = g.directives := by
  rw [extend]
  split
  · simp only [extendType]
    split
    · rfl
    · split
      · rfl
      · split <;> rfl
  · simp only [extendSchema]
    split
    · rfl
    · simp only [Reported.bind_value]
      split <;> rfl
  all_goals rfl

theorem through_extend (exts : List Sourced) (g : Graph) (fresh : g.Fresh) :
    (Reported.through extend g exts).value.outlines = g.outlines ∧
      (Reported.through extend g exts).value.directives = g.directives := by
  induction exts generalizing g with
  | nil => exact ⟨rfl, rfl⟩
  | cons s rest ih =>
    obtain ⟨outlines, directives⟩ := ih (g.extend s).value (g.extend_fresh s fresh)
    rw [Reported.through_cons_value, outlines, directives,
      g.extend_outlines s fresh.types.distinct, g.extend_directives s]
    exact ⟨rfl, rfl⟩

end Graph

theorem builtIn_of_given {buffer : List (Option String × Declaration)} {s : Sourced}
    (member : s ∈ given buffer) :
    (∀ e, s.typeEntry? = some e → e.2.builtIn = false) ∧
      ∀ e, s.directiveEntry? = some e → e.2.builtIn = false := by
  obtain ⟨⟨file, d⟩, _, rfl⟩ := List.mem_map.mp member
  constructor
  · intro e found
    cases d with
    | type d =>
      cases found
      rfl
    | _ => cases found
  · intro e found
    cases d with
    | directive d =>
      cases found
      rfl
    | _ => cases found

section Described

variable {buffer : List (Option String × Declaration)}

/-- The definitions of a buffer come after those built in. -/
theorem definitionsOf_given (buffer : List (Option String × Declaration)) :
    definitionsOf (BuiltIn.declarations ++ given buffer) =
      BuiltIn.declarations ++ definitionsOf (given buffer) := by
  rw [definitionsOf, List.filter_append]
  rfl

/-- The graph that definitions describe is fresh, before any extension. -/
theorem extendedBy_fresh {defs : List Sourced} (admits : ({} : Graph).Admits defs) :
    (({} : Graph).extendedBy defs).Fresh := by
  rw [← Graph.through_define_value _ _ admits]
  exact Reported.through_preserves (fun g s _ => g.define_fresh s) Graph.empty_fresh

theorem described_outlines
    (collected : (Graph.collect (BuiltIn.declarations ++ given buffer)).problems = []) :
    (Graph.described (given buffer)).outlines =
      (builtInTypes.map fun e => (e.1, e.2.outline)) ++
        ((definitionsOf (given buffer)).filterMap Sourced.typeEntry?).map
          fun e => (e.1, e.2.outline) := by
  obtain ⟨admits, _⟩ := (Graph.collect_problems_iff _).mp collected
  rw [Graph.described, Graph.collect_value _ admits,
    (Graph.through_extend _ _ (extendedBy_fresh admits)).1, definitionsOf_given, Graph.outlines,
    Graph.extendedBy]
  simp [builtInTypes]
  rfl

/-- The types of a graph: those built in, perhaps with usages, then those that were given. -/
theorem described_types
    (collected : (Graph.collect (BuiltIn.declarations ++ given buffer)).problems = []) :
    ∃ base own, (Graph.described (given buffer)).types.entries = base ++ own ∧
      (base.map fun e => (e.1, e.2.outline)) = (builtInTypes.map fun e => (e.1, e.2.outline)) ∧
      (∀ e ∈ base, e.2.builtIn = true ∧ e.2.body = .scalar) ∧ ∀ e ∈ own, e.2.builtIn = false := by
  have outlines := described_outlines collected
  rw [Graph.outlines, List.map_eq_append_iff] at outlines
  obtain ⟨base, own, split, standard, others⟩ := outlines
  refine ⟨base, own, split, standard, ?_, ?_⟩
  · intro e member
    have outline : (e.1, e.2.outline) ∈ builtInTypes.map fun e => (e.1, e.2.outline) := by
      rw [← standard]
      exact List.mem_map_of_mem member
    rw [builtInTypes_eq, List.map_map] at outline
    obtain ⟨name, _, same⟩ := List.mem_map.mp outline
    have builtIn : true = e.2.builtIn := congrArg (fun y => y.2.builtIn) same
    have kind : TypeKind.scalar = e.2.body.kind := congrArg (fun y => y.2.kind) same
    refine ⟨builtIn.symm, ?_⟩
    cases body : e.2.body with
    | scalar => rfl
    | _ =>
      rw [body] at kind
      cases kind
  · intro e member
    have outline : (e.1, e.2.outline) ∈
        ((definitionsOf (given buffer)).filterMap Sourced.typeEntry?).map
          fun e => (e.1, e.2.outline) := by
      rw [← others]
      exact List.mem_map_of_mem member
    obtain ⟨x, read, same⟩ := List.mem_map.mp outline
    obtain ⟨s, declared, entry⟩ := List.mem_filterMap.mp read
    have plain := (builtIn_of_given (List.mem_filter.mp declared).1).1 x entry
    have kept : x.2.builtIn = e.2.builtIn := congrArg (fun y => y.2.builtIn) same
    rw [← kept, plain]

theorem described_directives
    (collected : (Graph.collect (BuiltIn.declarations ++ given buffer)).problems = []) :
    ∃ own, (Graph.described (given buffer)).directives.entries = builtInDirectives ++ own ∧
      ∀ e ∈ own, e.2.builtIn = false := by
  obtain ⟨admits, _⟩ := (Graph.collect_problems_iff _).mp collected
  refine ⟨(definitionsOf (given buffer)).filterMap Sourced.directiveEntry?, ?_, ?_⟩
  · rw [Graph.described, Graph.collect_value _ admits,
      (Graph.through_extend _ _ (extendedBy_fresh admits)).2, definitionsOf_given,
      Graph.extendedBy]
    simp [builtInDirectives]
    rfl
  · intro e read
    obtain ⟨s, declared, entry⟩ := List.mem_filterMap.mp read
    exact (builtIn_of_given (List.mem_filter.mp declared).1).2 e entry

/-- Only scalars are built in. -/
theorem scalar_of_builtIn
    (collected : (Graph.collect (BuiltIn.declarations ++ given buffer)).problems = [])
    {e : String × TypeDef} (member : e ∈ (Graph.described (given buffer)).types.entries)
    (builtIn : e.2.builtIn = true) : e.2.body = .scalar := by
  obtain ⟨base, own, split, _, scalars, others⟩ := described_types collected
  rw [split] at member
  rcases List.mem_append.mp member with first | last
  · exact (scalars e first).2
  · rw [others e last] at builtIn
    cases builtIn

theorem name_of_builtIn
    (collected : (Graph.collect (BuiltIn.declarations ++ given buffer)).problems = [])
    {e : String × TypeDef} (member : e ∈ (Graph.described (given buffer)).types.entries)
    (builtIn : e.2.builtIn = true) : e.1 ∈ BuiltIn.scalarNames := by
  obtain ⟨base, own, split, standard, _, others⟩ := described_types collected
  rw [split] at member
  rcases List.mem_append.mp member with first | last
  · have outline : (e.1, e.2.outline) ∈ builtInTypes.map fun e => (e.1, e.2.outline) := by
      rw [← standard]
      exact List.mem_map_of_mem first
    rw [builtInTypes_eq, List.map_map] at outline
    obtain ⟨name, listed, same⟩ := List.mem_map.mp outline
    obtain rfl : name = e.1 := congrArg Prod.fst same
    exact listed
  · rw [others e last] at builtIn
    cases builtIn

/-- What is built in stays a scalar of its name when it is linked. -/
theorem linked_builtIn
    (collected : (Graph.collect (BuiltIn.declarations ++ given buffer)).problems = [])
    {t : TypeId} {d : TypeDef} (found : (Graph.described (given buffer)).linked.typeAt? t = some d)
    (builtIn : d.builtIn = true) : d.body = .scalar ∧ d.name ∈ BuiltIn.scalarNames := by
  rw [Graph.linked_typeAt?, Option.map_eq_some_iff] at found
  obtain ⟨old, found, rfl⟩ := found
  obtain ⟨e, entry, rfl⟩ := Option.map_eq_some_iff.mp found
  have member := (Table.mem_entries_iff _ e).mpr ⟨_, entry⟩
  have scalar := scalar_of_builtIn collected member builtIn
  have named := (Graph.described_fresh (given buffer)).types.named e member
  refine ⟨?_, ?_⟩
  · rw [Names.linkType, scalar]
    rfl
  · rw [Names.linkType_name, named]
    exact name_of_builtIn collected member builtIn

end Described

end SchemaAtlas
