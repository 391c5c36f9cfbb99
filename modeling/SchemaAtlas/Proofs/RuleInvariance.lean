import SchemaAtlas.Proofs.Invariance
import SchemaAtlas.Proofs.Lawfulness

/-!
# Rules under relabeling

A linked graph breaks no rule exactly if a matching one breaks none, and its root is sound exactly
if the other's is. Paths and places differ between the two, so reports are compared only as to
whether they are empty.
-/

namespace SchemaAtlas

def Relabeling.site (r : Relabeling) : Site → Site
  | .type x => .type (r.reference x)
  | .usage u => .usage (r.usageId u)

namespace Relabeling

variable (r : Relabeling)

@[simp] theorem reference_back (x : Reference) : r.reference (r.back.reference x) = x := by
  simp [reference]

@[simp] theorem usageId_back (x : UsageId) : r.usageId (r.back.usageId x) = x := by
  simp [usageId]

theorem site_back (place : Site) : r.site (r.back.site place) = place := by
  cases place <;> simp [site]

end Relabeling

namespace Graph.Matches

variable {r : Relabeling} {g h : Graph}

section Members

theorem checkName (name : String) (a b : SourceLocation) (p q : ElementPath) :
    checkName name a p = [] ↔ checkName name b q = [] := by
  simp [Graph.checkName]

theorem checkInputType (m : g.Matches r h) (v : InputValue) (p p' : ElementPath) :
    h.checkInputType (r.inputValue v) p' = [] ↔ g.checkInputType v p = [] := by
  have related := m.resolve v.type.innermost
  simp only [Graph.checkInputType, r.inputValue_type, r.typeUse_innermost]
  generalize g.resolve v.type.innermost = source at related
  generalize h.resolve (r.ref v.type.innermost) = image at related
  cases related with
  | none => simp
  | some both => simp [both.2.kind]

theorem checkDefault (m : g.Matches r h) (v : InputValue) (p p' : ElementPath) :
    h.checkDefault (r.inputValue v) p' = [] ↔ g.checkDefault v p = [] := by
  have related := m.resolve v.type.innermost
  simp only [Graph.checkDefault, r.inputValue_type, r.typeUse_innermost, r.inputValue_default]
  generalize g.resolve v.type.innermost = source at related
  generalize h.resolve (r.ref v.type.innermost) = image at related
  cases related with
  | none => simp
  | some both =>
    cases v.default with
    | none => simp
    | some value => simp [both.2.kind, m.fits]

theorem isDeprecation (m : g.Matches r h) (u : Usage) :
    h.isDeprecation (r.usage u) = g.isDeprecation u := by
  simp only [Graph.isDeprecation, Relabeling.usage]
  cases u.definition with
  | none => rfl
  | some id =>
    have related := m.directiveAt? id
    simp only [Option.map_some, Option.bind_some]
    generalize g.directiveAt? id = source at related
    generalize h.directiveAt? (r.directive id) = image at related
    cases related with
    | none => rfl
    | some alike => simp [alike.builtIn, alike.name]

theorem checkDeprecation (m : g.Matches r h) (v : InputValue) (p p' : ElementPath) :
    h.checkDeprecation (r.inputValue v) p' = [] ↔ g.checkDeprecation v p = [] := by
  simp only [Graph.checkDeprecation, r.inputValue_isRequired, r.inputValue_usages]
  by_cases required : v.isRequired = true
  · simp [required, Relabeling.usages, List.filter_eq_nil_iff, m.isDeprecation]
  · simp [required]

theorem checkInputValue (m : g.Matches r h) (location : DirectiveLocation) (p p' : ElementPath)
    (v : InputValue) :
    h.checkInputValue location p' (r.inputValue v) = [] ↔ g.checkInputValue location p v = [] := by
  simp only [Graph.checkInputValue, List.append_eq_nil_iff, r.inputValue_usages, r.inputValue_name]
  rw [checkName v.name _ v.location p' p, m.checkUsages location p p', m.checkInputType v p p',
    m.checkDefault v p p', m.checkDeprecation v p p']

theorem checkArguments (m : g.Matches r h) (p p' : ElementPath) (t : Table InputValue) :
    (t.map r.inputValue).entries.flatMap (h.checkArgument p') = [] ↔
      t.entries.flatMap (g.checkArgument p) = [] := by
  simp only [List.flatMap_eq_nil_iff, Table.map_entries, List.forall_mem_map, checkArgument]
  exact forall₂_congr fun e _ => m.checkInputValue _ _ _ e.2

theorem checkOutputType (m : g.Matches r h) (f : Field) (p p' : ElementPath) :
    h.checkOutputType (r.field f) p' = [] ↔ g.checkOutputType f p = [] := by
  have related := m.resolve f.type.innermost
  simp only [Graph.checkOutputType, r.field_type, r.typeUse_innermost]
  generalize g.resolve f.type.innermost = source at related
  generalize h.resolve (r.ref f.type.innermost) = image at related
  cases related with
  | none => simp
  | some both => simp [both.2.kind]

theorem checkField (m : g.Matches r h) (p p' : ElementPath) (e : String × Field) :
    h.checkField p' (e.1, r.field e.2) = [] ↔ g.checkField p e = [] := by
  simp only [Graph.checkField, List.append_eq_nil_iff, r.field_usages, r.field_arguments]
  rw [checkName e.1 _ e.2.location _ (p.child (.field e.1)),
    m.checkUsages _ (p.child (.field e.1)), m.checkOutputType e.2 (p.child (.field e.1)),
    m.checkArguments (p.child (.field e.1))]

theorem checkMember (m : g.Matches r h) {d d' : TypeDef} (p p' : ElementPath) (x : TypeRef) :
    h.checkMember d' p' (r.ref x) = [] ↔ g.checkMember d p x = [] := by
  have related := m.resolve x
  simp only [Graph.checkMember]
  generalize g.resolve x = source at related
  generalize h.resolve (r.ref x) = image at related
  cases related with
  | none => simp
  | some both => simp [both.2.isObject]

theorem checkEnumValue (m : g.Matches r h) (d d' : TypeDef) (p p' : ElementPath)
    (e : String × EnumValue) :
    h.checkEnumValue d' p' (e.1, r.enumValue e.2) = [] ↔ g.checkEnumValue d p e = [] := by
  have reserved : checkReserved d' (p'.child (.enumValue e.1)) (e.1, r.enumValue e.2) = [] ↔
      checkReserved d (p.child (.enumValue e.1)) e = [] := by
    simp [checkReserved]
  simp only [Graph.checkEnumValue, List.append_eq_nil_iff, r.enumValue_usages]
  rw [checkName e.1 _ e.2.location _ (p.child (.enumValue e.1)), reserved,
    m.checkUsages _ (p.child (.enumValue e.1))]

theorem checkEmpty (d d' : TypeDef) (empty : Bool) :
    checkEmpty d' empty = [] ↔ checkEmpty d empty = [] := by
  simp [Graph.checkEmpty]

end Members

section Interfaces

theorem interfacesOf (m : g.Matches r h) (t : TypeId) :
    h.interfacesOf (r.type t) = (g.interfacesOf t).map r.type := by
  have related := m.typeAt? t
  simp only [Graph.interfacesOf]
  generalize g.typeAt? t = source at related
  generalize h.typeAt? (r.type t) = image at related
  cases related with
  | none => rfl
  | @some d d' alike =>
    simp only [Option.bind_some, alike.shape?]
    cases d.shape? with
    | none => rfl
    | some shape =>
      simp only [Option.map_some, r.shape_implements, Table.values_map, List.filterMap_map,
        List.map_filterMap]
      rfl

theorem implementsInterface (m : g.Matches r h) (t i : TypeId) :
    h.implementsInterface (r.type t) (r.type i) = g.implementsInterface t i := by
  refine leadsTo_equiv r.type ?_ m.mem_typeIds t i
  intro a b
  rw [m.interfacesOf, List.mem_map_of_injective r.type.injective]

theorem namedMayStandFor (m : g.Matches r h) (found expected : TypeRef) :
    h.namedMayStandFor (r.ref found) (r.ref expected) = g.namedMayStandFor found expected := by
  have first := m.resolve found
  have second := m.resolve expected
  simp only [Graph.namedMayStandFor, r.ref_name]
  generalize g.resolve found = source at first
  generalize h.resolve (r.ref found) = image at first
  generalize g.resolve expected = source' at second
  generalize h.resolve (r.ref expected) = image' at second
  cases first with
  | none => rfl
  | @some e e' one =>
    obtain ⟨t, d⟩ := e
    obtain ⟨t', d'⟩ := e'
    obtain ⟨rfl, alike⟩ := one
    cases second with
    | none => rfl
    | @some f f' two =>
      obtain ⟨i, k⟩ := f
      obtain ⟨i', k'⟩ := f'
      obtain ⟨rfl, alike'⟩ := two
      replace alike : d.Alike r d' := alike
      replace alike' : k.Alike r k' := alike'
      simp only [alike'.body, alike.shape?, alike.isObject, alike.name, Option.isSome_map]
      cases k.body with
      | interface s => simp only [Relabeling.body, m.implementsInterface]
      | union members => simp only [Relabeling.body, Table.contains_map]
      | _ => rfl

theorem mayStandFor (m : g.Matches r h) (found expected : TypeUse) :
    h.mayStandFor (r.typeUse found) (r.typeUse expected) = g.mayStandFor found expected := by
  induction found generalizing expected with
  | named x =>
    cases expected with
    | named y => exact m.namedMayStandFor x y
    | _ => simp [Relabeling.typeUse, TypeUse.mapRef, Graph.mayStandFor]
  | list item ih =>
    cases expected with
    | list other => simpa [Relabeling.typeUse, TypeUse.mapRef, Graph.mayStandFor] using ih other
    | _ => simp [Relabeling.typeUse, TypeUse.mapRef, Graph.mayStandFor]
  | nonNull inner ih =>
    cases expected with
    | nonNull other => simpa [Relabeling.typeUse, TypeUse.mapRef, Graph.mayStandFor] using ih other
    | list other =>
      simpa [Relabeling.typeUse, TypeUse.mapRef, Graph.mayStandFor] using ih (.list other)
    | named y => simpa [Relabeling.typeUse, TypeUse.mapRef, Graph.mayStandFor] using ih (.named y)

theorem declaredArgument (interface : String) (p p' : ElementPath) (f : Field)
    (e : String × InputValue) :
    declaredArgument interface p' (r.field f) (e.1, r.inputValue e.2) = [] ↔
      declaredArgument interface p f e = [] := by
  simp only [Graph.declaredArgument, r.field_arguments, Table.get?_map]
  cases f.arguments.get? e.1 with
  | none => simp
  | some argument => simp [r.typeUse_equivalent]

theorem fieldConformance (m : g.Matches r h) (interface : String) (p p' : ElementPath)
    (f declared : Field) :
    h.fieldConformance interface p' (r.field f) (r.field declared) = [] ↔
      g.fieldConformance interface p f declared = [] := by
  have extra : extraArguments interface p' (r.field f) (r.field declared) = [] ↔
      extraArguments interface p f declared = [] := by
    simp only [extraArguments, List.map_eq_nil_iff, List.filter_eq_nil_iff, r.field_arguments,
      Table.map_entries, List.forall_mem_map, Table.contains_map, r.inputValue_type,
      r.typeUse_isNonNull]
  have arguments : (declared.arguments.map r.inputValue).entries.flatMap
        (Graph.declaredArgument interface p' (r.field f)) = [] ↔
      declared.arguments.entries.flatMap (Graph.declaredArgument interface p f) = [] := by
    simp only [List.flatMap_eq_nil_iff, Table.map_entries, List.forall_mem_map]
    exact forall₂_congr fun e _ => declaredArgument interface p p' f e
  simp only [Graph.fieldConformance, List.append_eq_nil_iff, extra, r.field_type, m.mayStandFor,
    r.field_arguments, arguments]
  by_cases stands : g.mayStandFor f.type declared.type = true <;> simp [stands]

theorem declaredField (m : g.Matches r h) (t t' : TypeId) (d d' : TypeDef) (shape : Shape)
    (interface : String) (e : String × Field) :
    h.declaredField t' d' (r.shape shape) interface (e.1, r.field e.2) = [] ↔
      g.declaredField t d shape interface e = [] := by
  simp only [Graph.declaredField, r.shape_fields, Table.indexOf?_map, Table.get?_map]
  cases shape.fields.indexOf? e.1 with
  | none => simp
  | some index =>
    cases shape.fields.get? e.1 with
    | none => simp
    | some f => exact m.fieldConformance interface _ _ f e.2

theorem interfaceProblems (m : g.Matches r h) (t : TypeId) {d d' : TypeDef} (alike : d.Alike r d')
    (shape : Shape) (demanded : List String) (refs : List (String × TypeRef)) :
    h.interfaceProblems (r.type t) d' (r.shape shape)
        (h.declaredField (r.type t) d' (r.shape shape)) demanded
        (refs.map fun e => (e.1, r.ref e.2)) = [] ↔
      g.interfaceProblems t d shape (g.declaredField t d shape) demanded refs = [] := by
  induction refs generalizing demanded with
  | nil => exact Iff.rfl
  | cons e rest ih =>
    obtain ⟨name, x⟩ := e
    have related := m.resolve x
    simp only [List.map_cons, Graph.interfaceProblems]
    generalize g.resolve x = source at related
    generalize h.resolve (r.ref x) = image at related
    cases related with
    | none => exact ih demanded
    | @some f f' both =>
      obtain ⟨i, k⟩ := f
      obtain ⟨i', k'⟩ := f'
      obtain ⟨rfl, alike'⟩ := both
      replace alike' : k.Alike r k' := alike'
      simp only [alike'.interface?]
      cases k.interface? with
      | none => simp
      | some interface =>
        simp only [Option.map_some, EmbeddingLike.apply_eq_iff_eq]
        by_cases own : i = t
        · simpa [own] using ih demanded
        · have missing : missingInterfaces d' (r.shape shape) (r.shape interface) demanded =
              missingInterfaces d shape interface demanded := by
            simp [missingInterfaces, alike.name]
          have fields : (interface.fields.map r.field).entries.flatMap
                (h.declaredField (r.type t) d' (r.shape shape) name) = [] ↔
              interface.fields.entries.flatMap (g.declaredField t d shape name) = [] := by
            simp only [List.flatMap_eq_nil_iff, Table.map_entries, List.forall_mem_map]
            exact forall₂_congr fun e _ => m.declaredField t (r.type t) d d' shape name e
          simp only [own, ↓reduceIte, List.append_eq_nil_iff, List.map_eq_nil_iff, missing,
            r.shape_fields, fields, ih]

theorem checkInterfaces (m : g.Matches r h) (t : TypeId) {d d' : TypeDef} (alike : d.Alike r d')
    (shape : Shape) :
    h.checkInterfaces (r.type t) d' (r.shape shape) = [] ↔ g.checkInterfaces t d shape = [] := by
  have listed := m.interfaceProblems t alike shape [] shape.implements.entries
  simp only [Graph.checkInterfaces, List.append_eq_nil_iff, alike.kind, m.implementsInterface,
    r.shape_implements, Table.map_entries, listed]
  by_cases cyclic : (d.kind == .interface && g.implementsInterface t t) = true <;> simp [cyclic]

end Interfaces

section Cycles

theorem requiredObject? (m : g.Matches r h) (v : InputValue) :
    h.requiredObject? (r.inputValue v) = (g.requiredObject? v).map r.type := by
  simp only [Graph.requiredObject?, r.inputValue_type]
  cases v.type with
  | nonNull inner =>
    cases inner with
    | named x =>
      have related := m.resolve x
      simp only [Relabeling.typeUse, TypeUse.mapRef]
      generalize g.resolve x = source at related
      generalize h.resolve (r.ref x) = image at related
      cases related with
      | none => rfl
      | @some e e' both =>
        obtain ⟨t, d⟩ := e
        obtain ⟨t', d'⟩ := e'
        obtain ⟨rfl, alike⟩ := both
        replace alike : d.Alike r d' := alike
        simp only [alike.inputFields?, Option.isSome_map]
        cases d.inputFields?.isSome <;> rfl
    | _ => rfl
  | _ => rfl

theorem requiresItself (m : g.Matches r h) (t : TypeId) :
    h.requiresItself (r.type t) = g.requiresItself t := by
  have objects : ∀ a, h.requiredObjects (r.type a) = (g.requiredObjects a).map r.type := by
    intro a
    have related := m.typeAt? a
    simp only [requiredObjects]
    generalize g.typeAt? a = source at related
    generalize h.typeAt? (r.type a) = image at related
    cases related with
    | none => rfl
    | @some d d' alike =>
      simp only [Option.bind_some, alike.inputFields?]
      cases d.inputFields? with
      | none => rfl
      | some fields =>
        simp only [Option.map_some, Table.values_map, List.filterMap_map, List.map_filterMap]
        exact List.filterMap_congr fun v _ => m.requiredObject? v
  refine leadsTo_equiv r.type ?_ m.mem_typeIds t t
  intro a b
  rw [objects, List.mem_map_of_injective r.type.injective]

/-- Exchanged positions of what a directive can depend on. -/
def dependency (r : Relabeling) : Dependency ≃ Dependency where
  toFun
    | .directive d => .directive (r.directive d)
    | .type t => .type (r.type t)
  invFun
    | .directive d => .directive (r.directive.symm d)
    | .type t => .type (r.type.symm t)
  left_inv x := by cases x <;> simp
  right_inv x := by cases x <;> simp

theorem ofUsages (us : List Usage) :
    Dependency.ofUsages (r.usages us) = (Dependency.ofUsages us).map (dependency r) := by
  simp only [Dependency.ofUsages, Relabeling.usages, List.filterMap_map, List.map_filterMap]
  refine List.filterMap_congr fun u _ => ?_
  simp only [Function.comp_apply, Relabeling.usage, Option.map_map]
  rfl

theorem ofInputValue (v : InputValue) :
    Dependency.ofInputValue (r.inputValue v) = (Dependency.ofInputValue v).map (dependency r) := by
  simp only [Dependency.ofInputValue, r.inputValue_usages, ofUsages, r.inputValue_type,
    r.typeUse_innermost, r.ref_target, List.map_append]
  cases v.type.innermost.target <;> rfl

theorem ofInputValues (t : Table InputValue) :
    (t.map r.inputValue).values.flatMap Dependency.ofInputValue =
      (t.values.flatMap Dependency.ofInputValue).map (dependency r) := by
  simp only [Table.values_map, List.flatMap_map, List.map_flatMap, ofInputValue]

theorem dependencies (m : g.Matches r h) (x : Dependency) :
    h.dependencies (dependency r x) = (g.dependencies x).map (dependency r) := by
  cases x with
  | directive d =>
    have related := m.directiveAt? d
    have image : dependency r (.directive d) = .directive (r.directive d) := rfl
    simp only [image, Graph.dependencies]
    generalize g.directiveAt? d = source at related
    generalize h.directiveAt? (r.directive d) = image at related
    cases related with
    | none => rfl
    | some alike => simp only [alike.arguments, ofInputValues]
  | type t =>
    have related := m.typeAt? t
    have image : dependency r (.type t) = .type (r.type t) := rfl
    simp only [image, Graph.dependencies]
    generalize g.typeAt? t = source at related
    generalize h.typeAt? (r.type t) = image at related
    cases related with
    | none => rfl
    | @some d d' alike =>
      simp only [Dependency.ofType, alike.usages, alike.body, ofUsages, List.map_append]
      cases d.body with
      | enum values =>
        simp only [Relabeling.body, Table.values_map, List.flatMap_map, List.map_flatMap,
          r.enumValue_usages, ofUsages]
      | inputObject fields => simp only [Relabeling.body, ofInputValues]
      | _ => rfl

theorem dependsOnItself (m : g.Matches r h) (d : DirectiveId) :
    h.dependsOnItself (r.directive d) = g.dependsOnItself d := by
  refine leadsTo_equiv (dependency r) ?_ ?_ (.directive d) (.directive d)
  · intro a b
    rw [m.dependencies, List.mem_map_of_injective (dependency r).injective]
  · intro a
    have nodes : ∀ (k : Graph) (x : Dependency), x ∈ k.dependencyNodes ↔
        match x with
        | .directive d => d ∈ k.directiveIds
        | .type t => t ∈ k.typeIds := by
      intro k x
      cases x <;> simp [dependencyNodes]
    rw [nodes, nodes]
    cases a with
    | directive d => exact m.mem_directiveIds d
    | type t => exact m.mem_typeIds t

end Cycles

section Definitions

theorem checkBody (m : g.Matches r h) (t : TypeId) {d d' : TypeDef} (alike : d.Alike r d')
    (p p' : ElementPath) : h.checkBody (r.type t) d' p' = [] ↔ g.checkBody t d p = [] := by
  have shaped : ∀ s : Shape,
      Graph.checkEmpty d' (r.shape s).fields.isEmpty ++
          (r.shape s).fields.entries.flatMap (h.checkField p') ++
          (if (r.shape s).fields.isEmpty then []
            else h.checkInterfaces (r.type t) d' (r.shape s)) = [] ↔
        Graph.checkEmpty d s.fields.isEmpty ++ s.fields.entries.flatMap (g.checkField p) ++
          (if s.fields.isEmpty then [] else g.checkInterfaces t d s) = [] := by
    intro s
    have fields : (s.fields.map r.field).entries.flatMap (h.checkField p') = [] ↔
        s.fields.entries.flatMap (g.checkField p) = [] := by
      simp only [List.flatMap_eq_nil_iff, Table.map_entries, List.forall_mem_map]
      exact forall₂_congr fun e _ => m.checkField p p' e
    simp only [List.append_eq_nil_iff, r.shape_fields, Table.isEmpty_map, fields,
      checkEmpty d d']
    by_cases empty : s.fields.isEmpty = true
    · simp [empty]
    · simp [empty, m.checkInterfaces t alike s]
  simp only [Graph.checkBody, alike.body]
  cases d.body with
  | enum values =>
    simp only [Relabeling.body, List.append_eq_nil_iff, Table.isEmpty_map, List.flatMap_eq_nil_iff,
      Table.map_entries, List.forall_mem_map, checkEmpty d d']
    exact and_congr_right fun _ => forall₂_congr fun e _ => m.checkEnumValue d d' p p' e
  | inputObject fields =>
    simp only [Relabeling.body, List.append_eq_nil_iff, Table.isEmpty_map, List.flatMap_eq_nil_iff,
      Table.map_entries, List.forall_mem_map, checkEmpty d d', checkInputField]
    exact and_congr_right fun _ => forall₂_congr fun e _ => m.checkInputValue _ _ _ e.2
  | interface s => exact shaped s
  | object s => exact shaped s
  | scalar => simp [Relabeling.body]
  | union members =>
    simp only [Relabeling.body, List.append_eq_nil_iff, Table.isEmpty_map, List.flatMap_eq_nil_iff,
      Table.values_map, List.forall_mem_map, checkEmpty d d']
    exact and_congr_right fun _ => forall₂_congr fun x _ => m.checkMember p p' x

theorem checkType (m : g.Matches r h) (t : TypeId) {d d' : TypeDef} (alike : d.Alike r d') :
    h.checkType (r.type t, d') = [] ↔ g.checkType (t, d) = [] := by
  simp only [Graph.checkType, List.append_eq_nil_iff, alike.name, alike.kind, alike.usages]
  rw [checkName d.name _ d.location _ (g.path (.type t)),
    m.checkUsages _ (g.path (.type t)), m.checkBody t alike (g.path (.type t))]

theorem checkDirective (m : g.Matches r h) (id : DirectiveId) {d d' : DirectiveDef}
    (alike : d.Alike r d') :
    h.checkDirective (r.directive id, d') = [] ↔ g.checkDirective (id, d) = [] := by
  simp only [Graph.checkDirective, List.append_eq_nil_iff, alike.name, alike.arguments]
  rw [checkName d.name _ d.location _ (g.path (.directive id)),
    m.checkArguments (g.path (.directive id))]

theorem checkBlock (m : g.Matches r h) : h.checkBlock = [] ↔ g.checkBlock = [] := by
  have related := m.block
  simp only [Graph.checkBlock]
  generalize g.block = source at related
  generalize h.block = image at related
  cases related with
  | none => exact Iff.rfl
  | some alike =>
    simp only [alike.usages]
    exact m.checkUsages _ _ _ _

/-- What is asked of every type of one graph is asked of every type of the other. -/
theorem forall_types (m : g.Matches r h) (P P' : TypeId → TypeDef → Prop)
    (same : ∀ t d d', d.Alike r d' → (P' (r.type t) d' ↔ P t d)) :
    (∀ t d, h.typeAt? t = some d → P' t d) ↔ ∀ t d, g.typeAt? t = some d → P t d := by
  have all := m.types.forall_values (fun i => P ⟨i⟩) (fun i => P' ⟨i⟩) fun i => same ⟨i⟩
  constructor
  · intro asked t
    exact all.mp (fun i => asked ⟨i⟩) t.index
  · intro asked t
    exact all.mpr (fun i => asked ⟨i⟩) t.index

theorem forall_directives (m : g.Matches r h) (P P' : DirectiveId → DirectiveDef → Prop)
    (same : ∀ id d d', d.Alike r d' → (P' (r.directive id) d' ↔ P id d)) :
    (∀ id d, h.directiveAt? id = some d → P' id d) ↔
      ∀ id d, g.directiveAt? id = some d → P id d := by
  have all := m.directives.forall_values (fun i => P ⟨i⟩) (fun i => P' ⟨i⟩) fun i => same ⟨i⟩
  constructor
  · intro asked id
    exact all.mp (fun i => asked ⟨i⟩) id.index
  · intro asked id
    exact all.mpr (fun i => asked ⟨i⟩) id.index

/-- Matching graphs are lawful together. -/
theorem lawful (m : g.Matches r h) : h.Lawful ↔ g.Lawful := by
  have types := m.forall_types
    (fun t d => d.builtIn = false → g.checkType (t, d) = [])
    (fun t d => d.builtIn = false → h.checkType (t, d) = []) (fun t d d' alike => by
      rw [alike.builtIn, m.checkType t alike])
  have directives := m.forall_directives
    (fun id d => d.builtIn = false → g.checkDirective (id, d) = [])
    (fun id d => d.builtIn = false → h.checkDirective (id, d) = []) (fun id d d' alike => by
      rw [alike.builtIn, m.checkDirective id alike])
  have finite := m.forall_types
    (fun t d => d.builtIn = false → d.inputFields?.isSome → g.requiresItself t = false)
    (fun t d => d.builtIn = false → d.inputFields?.isSome → h.requiresItself t = false)
    (fun t d d' alike => by
      rw [alike.builtIn, alike.inputFields?, Option.isSome_map, m.requiresItself])
  have acyclic := m.forall_directives
    (fun id d => d.builtIn = false → g.dependsOnItself id = false)
    (fun id d => d.builtIn = false → h.dependsOnItself id = false) (fun id d d' alike => by
      rw [alike.builtIn, m.dependsOnItself])
  constructor
  · intro law
    exact ⟨types.mp law.types, directives.mp law.directives, m.checkBlock.mp law.block,
      finite.mp law.finite, acyclic.mp law.acyclic⟩
  · intro law
    exact ⟨types.mpr law.types, directives.mpr law.directives, m.checkBlock.mpr law.block,
      finite.mpr law.finite, acyclic.mpr law.acyclic⟩

end Definitions

section Names

/-- Lookups into related options give related results. -/
theorem bind_of_rel {α α' β β' : Type} {R : α → α' → Prop} {o : Option α} {o' : Option α'}
    {f : α → Option β} {f' : α' → Option β'} {k : β → β'} (related : Option.Rel R o o')
    (same : ∀ a a', R a a' → f' a' = (f a).map k) : o'.bind f' = (o.bind f).map k := by
  cases related with
  | none => rfl
  | some both => exact same _ _ both

theorem shape (m : g.Matches r h) (t : TypeId) :
    ((h.types.at? (r.type t).index).bind fun e => e.2.shape?) =
      ((g.types.at? t.index).bind fun e => e.2.shape?).map r.shape :=
  bind_of_rel (m.types.entries t.index) fun _ _ both => both.2.shape?

theorem inputFields (m : g.Matches r h) (t : TypeId) :
    ((h.types.at? (r.type t).index).bind fun e => e.2.inputFields?) =
      ((g.types.at? t.index).bind fun e => e.2.inputFields?).map
        fun fields => fields.map r.inputValue :=
  bind_of_rel (m.types.entries t.index) fun _ _ both => both.2.inputFields?

theorem enumValues (m : g.Matches r h) (t : TypeId) :
    ((h.types.at? (r.type t).index).bind fun e => e.2.enumValues?) =
      ((g.types.at? t.index).bind fun e => e.2.enumValues?).map
        fun values => values.map r.enumValue :=
  bind_of_rel (m.types.entries t.index) fun _ _ both => both.2.enumValues?

theorem argument (m : g.Matches r h) (d : DirectiveId) (a : Nat) :
    ((h.directives.at? (r.directive d).index).bind fun e => e.2.arguments.at? a) =
      ((g.directives.at? d.index).bind fun e => e.2.arguments.at? a).map
        fun e => (e.1, r.inputValue e.2) :=
  bind_of_rel (m.directives.entries d.index) fun _ _ both => by
    rw [both.2.arguments, Table.at?_map]

theorem usages_getD (r : Relabeling) (us : Option (List Usage)) :
    r.usages (us.getD []) = (us.map r.usages).getD [] := by
  cases us <;> rfl

theorem usages (m : g.Matches r h) (e : ElementId) :
    h.usages (r.element e) = r.usages (g.usages e) := by
  cases e with
  | schema =>
    have related := m.block
    simp only [Relabeling.element, Graph.usages, elementUsages]
    generalize g.block = source at related
    generalize h.block = image at related
    cases related with
    | none => rfl
    | some alike => exact alike.usages
  | type t =>
    have related := m.types.entries t.index
    simp only [Relabeling.element, Graph.usages, elementUsages, r.type_index]
    generalize g.types.at? t.index = source at related
    generalize h.types.at? (r.types t.index) = image at related
    cases related with
    | none => rfl
    | some both => exact both.2.usages
  | directive d => rfl
  | _ =>
    simp only [Relabeling.element, Graph.usages, elementUsages, m.shape, m.inputFields,
      m.enumValues, m.argument, usages_getD]
    simp [Option.bind_map, Option.map_bind, Option.bind_assoc, Function.comp_def]

theorem typeUseAt? (m : g.Matches r h) (e : ElementId) :
    typeUseAt? h.types h.directives (r.element e) =
      (typeUseAt? g.types g.directives e).map r.typeUse := by
  cases e <;>
    simp [Relabeling.element, SchemaAtlas.typeUseAt?, fieldAt?, inputValueAt?, m.shape,
      m.inputFields, m.argument, Option.bind_map, Option.map_bind, Option.bind_assoc,
      Function.comp_def, -Relabeling.type_index, -Relabeling.directive_index]

/-- Matching graphs name the same things at corresponding places. -/
theorem namedAt (m : g.Matches r h) (place : Site) (name : String) :
    h.NamedAt (r.site place) name ↔ g.NamedAt place name := by
  rcases place with ⟨kind, site⟩ | ⟨owner, index⟩
  · cases kind with
    | typeUse => simp [Relabeling.site, Relabeling.reference, NamedAt, m.typeUseAt?]
    | implements =>
      cases site with
      | type u =>
        have related := m.typeAt? u
        simp only [Relabeling.site, Relabeling.reference, Relabeling.element, NamedAt]
        generalize g.typeAt? u = source at related
        generalize h.typeAt? (r.type u) = image at related
        cases related with
        | none => simp
        | some alike => simp [alike.shape?]
      | _ => exact Iff.rfl
    | unionMember =>
      cases site with
      | type u =>
        have related := m.typeAt? u
        simp only [Relabeling.site, Relabeling.reference, Relabeling.element, NamedAt]
        generalize g.typeAt? u = source at related
        generalize h.typeAt? (r.type u) = image at related
        cases related with
        | none => simp
        | @some d d' alike =>
          simp only [Option.some.injEq, exists_and_left, exists_eq_left', alike.body]
          cases d.body <;> simp [Relabeling.body]
      | _ => exact Iff.rfl
    | operation kind =>
      cases site with
      | schema =>
        have related := m.block
        simp only [Relabeling.site, Relabeling.reference, Relabeling.element, NamedAt]
        generalize g.block = source at related
        generalize h.block = image at related
        cases related with
        | none => simp
        | some alike => simp [alike.operations.mem_iff, Relabeling.binding]
      | _ => exact Iff.rfl
  · simp [Relabeling.site, Relabeling.usageId, NamedAt, m.usages, Relabeling.usages]

theorem namesKnown (m : g.Matches r h) : h.NamesKnown ↔ g.NamesKnown := by
  have knows : ∀ place name, h.names.Knows (r.site place) name ↔ g.names.Knows place name := by
    intro place name
    cases place with
    | type x => simp [Relabeling.site, Names.Knows, names, m.typeId?]
    | usage u => simp [Relabeling.site, Names.Knows, names, m.directiveId?]
  constructor
  · intro known place name named
    exact (knows place name).mp (known _ name ((m.namedAt place name).mpr named))
  · intro known place name named
    rw [← r.site_back place] at named ⊢
    exact (knows _ name).mpr (known _ name ((m.namedAt _ name).mp named))

end Names

end Graph.Matches

end SchemaAtlas
