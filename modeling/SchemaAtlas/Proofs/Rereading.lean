import SchemaAtlas.Proofs.Collecting
import SchemaAtlas.Proofs.Defining
import SchemaAtlas.Proofs.Relabeling
import SchemaAtlas.Schema.Definitions

/-!
# Definitions read back

A collected definition can be written out as a declaration. Reading this declaration reports nothing
and gives the definition back, at another place, as long as every integer in it fits in 32 bits:
wider ones are written as floating-point numbers.
-/

namespace SchemaAtlas

open Relabeling (erasing)

/-! The values that stand in the parts of a schema. -/

def Usage.literals (u : Usage) : List Value := u.arguments.values

def usageLiterals (us : List Usage) : List Value := us.flatMap Usage.literals

def InputValue.literals (v : InputValue) : List Value := v.default.toList ++ usageLiterals v.usages

def inputLiterals (t : Table InputValue) : List Value := t.values.flatMap InputValue.literals

def Field.literals (f : Field) : List Value := inputLiterals f.arguments ++ usageLiterals f.usages

def TypeBody.literals : TypeBody → List Value
  | enum values => values.values.flatMap fun v => usageLiterals v.usages
  | inputObject fields => inputLiterals fields
  | interface shape | object shape => shape.fields.values.flatMap Field.literals
  | scalar | union _ => []

def TypeDef.literals (d : TypeDef) : List Value := usageLiterals d.usages ++ d.body.literals

def DirectiveDef.literals (d : DirectiveDef) : List Value := inputLiterals d.arguments

def SchemaBlock.literals (b : SchemaBlock) : List Value := usageLiterals b.usages

/-- Every integer in these values fits in 32 bits. -/
def AllNarrow (vs : List Value) : Prop := ∀ v ∈ vs, v.Narrow

theorem allNarrow_append {vs ws : List Value} :
    AllNarrow (vs ++ ws) ↔ AllNarrow vs ∧ AllNarrow ws :=
  List.forall_mem_append

theorem AllNarrow.of_flatMap {α : Type} {as : List α} {literals : α → List Value}
    (narrow : AllNarrow (as.flatMap literals)) : ∀ a ∈ as, AllNarrow (literals a) :=
  fun a member v inside => narrow v (List.mem_flatMap.mpr ⟨a, member, inside⟩)

section Gathering

variable {α β : Type} {key : α → String} {repeated : α → Reported Unit} {read : α → Reported β}

/-- Without repeated names, all that is read ends up in the table. -/
theorem gather_value (as : List α) (t : Table β) (distinct : (t.keys ++ as.map key).Nodup) :
    (gather key repeated read t as).value =
      ⟨t.entries ++ as.map fun a => (key a, (read a).value)⟩ := by
  induction as generalizing t with
  | nil => simp [gather]
  | cons a rest ih =>
    have free := t.contains_eq_false_of_nodup distinct
    have later := ih (t.push (key a) (read a).value) (by simpa using distinct)
    simp only [gather, free, Bool.false_eq_true, if_false, Reported.bind_value, later]
    simp [Table.push]

theorem gather_problems (as : List α) (t : Table β) (distinct : (t.keys ++ as.map key).Nodup) :
    (gather key repeated read t as).problems = as.flatMap fun a => (read a).problems := by
  induction as generalizing t with
  | nil => simp [gather]
  | cons a rest ih =>
    have free := t.contains_eq_false_of_nodup distinct
    have later := ih (t.push (key a) (read a).value) (by simpa using distinct)
    simp only [gather, free, Bool.false_eq_true, if_false, Reported.bind_problems, later,
      List.flatMap_cons]

end Gathering

/-- A step that reports nothing and gives a known value, as far as `view` can tell. -/
structure Reported.Gives {β γ : Type} (view : β → γ) (r : Reported β) (b : β) : Prop where
  silent : r.problems = []
  same : view r.value = view b

open Reported (Gives)

/-- The values of a keyed table are written out under distinct names. -/
theorem Table.Keyed.nodup_written {α β : Type} {key : α → String} {write : β → α}
    {name : β → String} {t : Table β} (keyed : t.Keyed name)
    (named : ∀ b, key (write b) = name b) :
    ((Table.empty : Table β).keys ++ (t.values.map write).map key).Nodup := by
  have own : (t.values.map write).map key = t.keys := by
    rw [List.map_map, ← keyed.map_values]
    exact List.map_congr_left fun b _ => named b
  rw [own]
  exact keyed.distinct

/-- A keyed table whose values are written out one by one is read back if each of them is. -/
theorem gather_gives {α β : Type} (key : α → String) (write : β → α)
    {repeated : α → Reported Unit} {read : α → Reported β} {name : β → String} {t : Table β}
    (keyed : t.Keyed name) (named : ∀ b, key (write b) = name b) {view : β → β}
    (back : ∀ b ∈ t.values, (read (write b)).Gives view b) :
    (gather key repeated read .empty (t.values.map write)).Gives (Table.map view) t := by
  have keys := keyed.nodup_written named
  constructor
  · rw [gather_problems _ _ keys, List.flatMap_map, List.flatMap_eq_nil_iff]
    exact fun b member => (back b member).silent
  · rw [gather_value _ _ keys]
    apply Table.entries_ext
    simp only [Table.empty, List.nil_append, Table.map_entries, List.map_map, Table.values]
    refine List.map_congr_left fun e member => ?_
    have value := (back e.2 (List.mem_map_of_mem member)).same
    simp only [Function.comp_apply, named, keyed.named e member, value]

/-! Sets of directive locations are determined by their members. -/

namespace DirectiveLocation

theorem index_injective {l l' : DirectiveLocation} (same : l.index = l'.index) : l = l' := by
  have found := all_getElem?_index l
  rw [same, all_getElem?_index l'] at found
  exact (Option.some.inj found).symm

theorem index_lt (l : DirectiveLocation) : l.index < 19 := by
  cases l <;> decide

theorem exists_index (i : Nat) (bound : i < 19) : ∃ l : DirectiveLocation, l.index = i := by
  have every : ∀ j : Fin 19, ∃ l ∈ all, l.index = j.val := by decide
  obtain ⟨l, _, position⟩ := every ⟨i, bound⟩
  exact ⟨l, position⟩

end DirectiveLocation

namespace LocationSet

theorem ext_contains {s s' : LocationSet} (same : ∀ l, s.contains l = s'.contains l) : s = s' := by
  obtain ⟨bits⟩ := s
  obtain ⟨bits'⟩ := s'
  refine congrArg LocationSet.mk (BitVec.eq_of_getLsbD_eq fun i bound => ?_)
  obtain ⟨l, rfl⟩ := DirectiveLocation.exists_index i bound
  exact same l

theorem contains_insert (s : LocationSet) (l l' : DirectiveLocation) :
    (s.insert l).contains l' = (s.contains l' || decide (l' = l)) := by
  have bound := l'.index_lt
  by_cases same : l' = l
  · simp [same, contains, insert, l.index_lt]
  · have apart : l'.index ≠ l.index := fun equal => same (DirectiveLocation.index_injective equal)
    simp [contains, insert, same, bound]
    omega

theorem mem_toList (s : LocationSet) (l : DirectiveLocation) : l ∈ s.toList ↔ s.contains l := by
  have listed : l ∈ DirectiveLocation.all :=
    List.mem_of_getElem? (DirectiveLocation.all_getElem?_index l)
  simp [toList, listed]

theorem nodup_toList (s : LocationSet) : s.toList.Nodup := by
  have distinct : DirectiveLocation.all.Nodup := by decide
  exact distinct.filter _

end LocationSet

namespace Collect

theorem locations_contains (location : SourceLocation) (directive : ElementPath)
    (s : LocationSet) (ls : List DirectiveLocation) (l : DirectiveLocation) :
    (Collect.locations location directive s ls).value.contains l =
      (s.contains l || decide (l ∈ ls)) := by
  induction ls generalizing s with
  | nil => simp [Collect.locations]
  | cons first rest ih =>
    rw [Collect.locations]
    split
    · next taken =>
      rw [Reported.bind_value, ih]
      by_cases same : l = first <;> simp [same, taken]
    · rw [ih, LocationSet.contains_insert]
      by_cases same : l = first <;> simp [same]

theorem locations_silent (location : SourceLocation) (directive : ElementPath)
    (ls : List DirectiveLocation) (s : LocationSet) (distinct : ls.Nodup)
    (absent : ∀ l ∈ ls, s.contains l = false) :
    (Collect.locations location directive s ls).problems = [] := by
  induction ls generalizing s with
  | nil => rfl
  | cons first rest ih =>
    obtain ⟨new, distinct⟩ := List.nodup_cons.mp distinct
    have free := absent first List.mem_cons_self
    simp only [Collect.locations, free, Bool.false_eq_true, if_false]
    refine ih (s.insert first) distinct fun l member => ?_
    have other : l ≠ first := fun same => new (same ▸ member)
    simp [LocationSet.contains_insert, absent l (List.mem_cons_of_mem _ member), other]

theorem locations_gives (location : SourceLocation) (directive : ElementPath) (s : LocationSet) :
    (Collect.locations location directive .empty s.toList).Gives id s := by
  have nothing : ∀ l, LocationSet.empty.contains l = false := by
    intro l
    simp [LocationSet.empty, LocationSet.contains]
  refine ⟨locations_silent location directive s.toList .empty s.nodup_toList
    fun l _ => nothing l, LocationSet.ext_contains fun l => ?_⟩
  rw [id, locations_contains, nothing]
  simp [LocationSet.mem_toList]

theorem nodup_writtenArguments {u : Usage} (fresh : u.Fresh) :
    ((Table.empty : Table Value).keys ++ u.toDecl.arguments.map Prod.fst).Nodup := by
  have own : u.toDecl.arguments.map Prod.fst = u.arguments.keys := by
    simp [Usage.toDecl, Table.keys, Function.comp_def]
  rw [own]
  exact fresh.distinct

theorem usage_gives (origin : Origin) (owner : ElementPath) {u : Usage} (fresh : u.Fresh)
    (narrow : AllNarrow u.literals) :
    (Collect.usage origin owner u.toDecl).Gives erasing.usage u := by
  have keys := nodup_writtenArguments fresh
  have arguments : u.toDecl.arguments.map (fun a => (a.1, a.2.canonical)) =
      u.arguments.entries := by
    rw [Usage.toDecl, List.map_map]
    refine (List.map_congr_left ?_).trans (List.map_id _)
    intro e member
    have back := Value.canonical_literal (fresh.canonical e member)
      (narrow e.2 (List.mem_map_of_mem member))
    simp only [Function.comp_apply, back, id_eq]
  constructor
  · simp only [Collect.usage, Reported.bind_problems, gather_problems _ _ keys]
    simp
  · simp only [Collect.usage, Reported.bind_value, gather_value _ _ keys]
    simp only [Reported.pure_value, Table.empty, List.nil_append, arguments]
    simp [Relabeling.usage, fresh.definition, fresh.parent, Usage.toDecl, erasing]

theorem usages_gives (origin : Origin) (owner : ElementPath) {us : List Usage}
    (fresh : ∀ u ∈ us, u.Fresh) (narrow : AllNarrow (usageLiterals us)) :
    (Collect.usages origin owner (us.map Usage.toDecl)).Gives erasing.usages us := by
  have back := fun u member => usage_gives origin owner (fresh u member)
    (narrow.of_flatMap u member)
  constructor
  · simp only [Collect.usages, Reported.each_problems, List.flatMap_map, List.flatMap_eq_nil_iff]
    exact fun u member => (back u member).silent
  · simp only [Collect.usages, Reported.each_value, Relabeling.usages, List.map_map]
    exact List.map_congr_left fun u member => (back u member).same

theorem typeUse_same (location : SourceLocation) {a : TypeUse} (fresh : a.innermost.Fresh) :
    erasing.typeUse (.ofExpr location a.toExpr) = erasing.typeUse a := by
  induction a with
  | named x =>
    have target : x.target = none := fresh
    simp [TypeUse.toExpr, TypeUse.ofExpr, Relabeling.typeUse, TypeUse.mapRef, Relabeling.ref,
      target, erasing]
  | list item ih => exact congrArg TypeUse.list (ih fresh)
  | nonNull inner ih => exact congrArg TypeUse.nonNull (ih fresh)

theorem inputValue_gives (origin : Origin) (container : ElementPath)
    (segment : String → PathSegment) {v : InputValue} (fresh : v.Fresh)
    (narrow : AllNarrow v.literals) :
    (Collect.inputValue origin container segment v.toDecl).Gives erasing.inputValue v := by
  obtain ⟨inDefault, inUsages⟩ := allNarrow_append.mp narrow
  obtain ⟨silent, usages⟩ :=
    usages_gives origin (container.child (segment v.name)) fresh.usages inUsages
  have default : (v.default.map Value.literal).map Value.canonical = v.default := by
    cases given : v.default with
    | none => rfl
    | some x =>
      have back := Value.canonical_literal (fresh.default x given)
        (inDefault x (by simp [given]))
      simp [back]
  constructor
  · simpa [Collect.inputValue, InputValue.toDecl] using silent
  · simp only [Collect.inputValue, InputValue.toDecl, Reported.bind_value, Reported.pure_value,
      Relabeling.inputValue, usages, typeUse_same _ fresh.type, default, fresh.parent]
    rfl

theorem inputValues_gives (origin : Origin) (container : ElementPath) (listed : Listed)
    (segment : String → PathSegment) {t : Table InputValue}
    (fresh : t.All InputValue.name InputValue.Fresh) (narrow : AllNarrow (inputLiterals t)) :
    (Collect.inputValues origin container listed segment (t.values.map InputValue.toDecl)).Gives
      (Table.map erasing.inputValue) t := by
  refine gather_gives InputDecl.name InputValue.toDecl fresh.toKeyed (fun _ => rfl) ?_
  intro v member
  obtain ⟨e, entry, rfl⟩ := List.mem_map.mp member
  exact inputValue_gives origin container segment (fresh.each e entry) (narrow.of_flatMap _ member)

theorem field_gives (origin : Origin) (type : ElementPath) {f : Field} (fresh : f.Fresh)
    (narrow : AllNarrow f.literals) :
    (Collect.field origin type f.toDecl).Gives erasing.field f := by
  obtain ⟨inArguments, inUsages⟩ := allNarrow_append.mp narrow
  obtain ⟨silent, arguments⟩ := inputValues_gives origin (type.child (.field f.name)) .argument
    .argument fresh.arguments inArguments
  obtain ⟨silent', usages⟩ :=
    usages_gives origin (type.child (.field f.name)) fresh.usages inUsages
  constructor
  · simp only [Collect.field, Collect.arguments, Field.toDecl, Reported.bind_problems, silent,
      silent', Reported.pure_problems, List.append_nil]
  · simp only [Collect.field, Collect.arguments, Field.toDecl, Reported.bind_value,
      Reported.pure_value, Relabeling.field, arguments, usages, typeUse_same _ fresh.type,
      fresh.parent]
    rfl

theorem enumValue_gives (origin : Origin) (type : ElementPath) {v : EnumValue} (fresh : v.Fresh)
    (narrow : AllNarrow (usageLiterals v.usages)) :
    (Collect.enumValue origin type v.toDecl).Gives erasing.enumValue v := by
  obtain ⟨silent, usages⟩ :=
    usages_gives origin (type.child (.enumValue v.name)) fresh.usages narrow
  constructor
  · simp only [Collect.enumValue, EnumValue.toDecl, Reported.bind_problems, silent,
      Reported.pure_problems, List.append_nil]
  · simp only [Collect.enumValue, EnumValue.toDecl, Reported.bind_value, Reported.pure_value,
      Relabeling.enumValue, usages, fresh.parent]
    rfl

theorem typeRefs_gives (location : SourceLocation) (type : ElementPath) (listed : Listed)
    {t : Table TypeRef} (fresh : t.All TypeRef.name TypeRef.Fresh) :
    (Collect.typeRefs location type listed t.keys).Gives (Table.map erasing.ref) t := by
  rw [← fresh.map_values]
  refine gather_gives id TypeRef.name fresh.toKeyed (fun _ => rfl) ?_
  intro x member
  obtain ⟨e, entry, rfl⟩ := List.mem_map.mp member
  have target : e.2.target = none := fresh.each e entry
  refine ⟨rfl, ?_⟩
  simp [Relabeling.ref, target, erasing]

theorem fields_gives (origin : Origin) (type : ElementPath) {t : Table Field}
    (fresh : t.All Field.name Field.Fresh) (narrow : AllNarrow (t.values.flatMap Field.literals)) :
    (Collect.fields origin type (t.values.map Field.toDecl)).Gives (Table.map erasing.field) t := by
  refine gather_gives FieldDecl.name Field.toDecl fresh.toKeyed (fun _ => rfl) ?_
  intro f member
  obtain ⟨e, entry, rfl⟩ := List.mem_map.mp member
  exact field_gives origin type (fresh.each e entry) (narrow.of_flatMap _ member)

theorem body_gives (origin : Origin) (location : SourceLocation) (type : ElementPath)
    {b : TypeBody} (fresh : b.Fresh) (narrow : AllNarrow b.literals) :
    (Collect.body origin location type b.toDecl).Gives erasing.body b := by
  cases b with
  | scalar => exact ⟨rfl, rfl⟩
  | enum values =>
    have read : (Collect.enumValues origin type (values.values.map EnumValue.toDecl)).Gives
        (Table.map erasing.enumValue) values := by
      refine gather_gives EnumValueDecl.name EnumValue.toDecl fresh.toKeyed (fun _ => rfl) ?_
      intro v member
      obtain ⟨e, entry, rfl⟩ := List.mem_map.mp member
      exact enumValue_gives origin type (fresh.each e entry) (narrow.of_flatMap _ member)
    refine ⟨?_, congrArg TypeBody.enum read.same⟩
    simp only [Collect.body, TypeBody.toDecl, Reported.bind_problems, read.silent,
      Reported.pure_problems, List.append_nil]
  | inputObject fields =>
    have read := inputValues_gives origin type .inputField .inputField fresh narrow
    refine ⟨?_, congrArg TypeBody.inputObject read.same⟩
    simp only [Collect.body, TypeBody.toDecl, Collect.inputFields, Reported.bind_problems,
      read.silent, Reported.pure_problems, List.append_nil]
  | union members =>
    have read := typeRefs_gives location type .memberType fresh
    refine ⟨?_, congrArg TypeBody.union read.same⟩
    simp only [Collect.body, TypeBody.toDecl, Reported.bind_problems, read.silent,
      Reported.pure_problems, List.append_nil]
  | interface shape =>
    obtain ⟨silent, fields⟩ := fields_gives origin type fresh.fields narrow
    obtain ⟨silent', refs⟩ := typeRefs_gives location type .interface fresh.implements
    constructor
    · simp only [Collect.body, TypeBody.toDecl, Reported.bind_problems, silent, silent',
        Reported.pure_problems, List.append_nil]
    · simp only [Collect.body, TypeBody.toDecl, Reported.bind_value, Reported.pure_value,
        Relabeling.body, Relabeling.shape, fields, refs]
  | object shape =>
    obtain ⟨silent, fields⟩ := fields_gives origin type fresh.fields narrow
    obtain ⟨silent', refs⟩ := typeRefs_gives location type .interface fresh.implements
    constructor
    · simp only [Collect.body, TypeBody.toDecl, Reported.bind_problems, silent, silent',
        Reported.pure_problems, List.append_nil]
    · simp only [Collect.body, TypeBody.toDecl, Reported.bind_value, Reported.pure_value,
        Relabeling.body, Relabeling.shape, fields, refs]

/-- A type that was given, written out and given again. -/
theorem typeDef_gives (file : Option String) {d : TypeDef} (fresh : d.Fresh)
    (own : d.builtIn = false) (narrow : AllNarrow d.literals) :
    (Collect.typeDef (.given file) d.toDecl).Gives erasing.typeDef d := by
  obtain ⟨inUsages, inBody⟩ := allNarrow_append.mp narrow
  obtain ⟨silent, usages⟩ := usages_gives (.given file)
    (ElementPath.type d.toDecl.body.kind d.name) fresh.usages inUsages
  obtain ⟨silent', body⟩ := body_gives (.given file) ((Origin.given file).locate {})
    (ElementPath.type d.toDecl.body.kind d.name) fresh.body inBody
  simp only [TypeDef.toDecl] at silent usages silent' body
  constructor
  · simp only [Collect.typeDef, TypeDef.toDecl, Reported.bind_problems, silent, silent',
      Reported.pure_problems, List.append_nil]
  · simp only [Collect.typeDef, TypeDef.toDecl, Reported.bind_value, Reported.pure_value,
      Relabeling.typeDef, usages, body, fresh.references, fresh.rooted, own]
    rfl

theorem directiveDef_gives (file : Option String) {d : DirectiveDef} (fresh : d.Fresh)
    (own : d.builtIn = false) (narrow : AllNarrow d.literals) :
    (Collect.directiveDef (.given file) d.toDecl).Gives erasing.directiveDef d := by
  obtain ⟨silent, locations⟩ := locations_gives ((Origin.given file).locate {})
    (ElementPath.directive d.name) d.locations
  obtain ⟨silent', arguments⟩ := inputValues_gives (.given file) (ElementPath.directive d.name)
    .argument .argument fresh.arguments narrow
  constructor
  · simp only [Collect.directiveDef, DirectiveDef.toDecl, Collect.arguments,
      Reported.bind_problems, silent, silent', Reported.pure_problems, List.append_nil]
  · simp only [id] at locations
    simp only [Collect.directiveDef, DirectiveDef.toDecl, Collect.arguments, Reported.bind_value,
      Reported.pure_value, Relabeling.directiveDef, locations, arguments, fresh.references, own]
    rfl

end Collect

end SchemaAtlas
