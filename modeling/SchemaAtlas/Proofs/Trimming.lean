import SchemaAtlas.Proofs.Rereading

/-!
# Repeated entries

Where a list holds one name twice, the later entry is reported and not read. So a list without that
entry gives the same value and one problem less. The lists of a declaration stand inside one
another, and this module follows one repeated entry from the list that holds it up to the
declaration: what is left of each part is told by a relation, and reading the part is shown to drop
that problem alone.
-/

namespace SchemaAtlas

/-- `shorter` is `longer` without one item. -/
def Removes {α : Type} (a : α) (longer shorter : List α) : Prop :=
  ∃ before after, longer = before ++ a :: after ∧ shorter = before ++ after

namespace Removes

variable {α : Type} {a : α} {longer shorter : List α}

theorem append_left (removes : Removes a longer shorter) (front : List α) :
    Removes a (front ++ longer) (front ++ shorter) := by
  obtain ⟨before, after, rfl, rfl⟩ := removes
  exact ⟨front ++ before, after, by simp, by simp⟩

theorem append_right (removes : Removes a longer shorter) (back : List α) :
    Removes a (longer ++ back) (shorter ++ back) := by
  obtain ⟨before, after, rfl, rfl⟩ := removes
  exact ⟨before, after ++ back, by simp, by simp⟩

theorem eq_singleton (removes : Removes a longer []) : longer = [a] := by
  obtain ⟨before, after, rfl, nothing⟩ := removes
  obtain ⟨rfl, rfl⟩ := List.append_eq_nil_iff.mp nothing.symm
  rfl

end Removes

namespace Reported

variable {α β : Type} {d : Diagnostic}

/-- The same value, with one problem less. -/
structure Drops (d : Diagnostic) (r r' : Reported α) : Prop where
  value : r'.value = r.value
  problems : Removes d r.problems r'.problems

theorem Drops.bind {r r' : Reported α} (drops : Drops d r r') (f : α → Reported β) :
    Drops d (r >>= f) (r' >>= f) where
  value := by simp [drops.value]
  problems := by
    rw [bind_problems, bind_problems, drops.value]
    exact drops.problems.append_right _

theorem Drops.after (r : Reported α) {f f' : α → Reported β}
    (drops : Drops d (f r.value) (f' r.value)) : Drops d (r >>= f) (r >>= f') where
  value := drops.value
  problems := by
    rw [bind_problems, bind_problems]
    exact drops.problems.append_left _

/-- A step that does nothing but report a problem. -/
theorem drops_step {r : Reported α} (told : r.problems = [d]) {f : α → Reported β}
    {next : Reported β} (same : f r.value = next) : Drops d (r >>= f) next where
  value := by rw [bind_value, same]
  problems := ⟨[], next.problems, by simp [told, same], rfl⟩

/-- One step of a run drops a problem. -/
theorem drops_through {f : β → α → Reported β} {state : β} {before : List α} {a a' : α}
    (step : Drops d (f (through f state before).value a) (f (through f state before).value a'))
    (after : List α) :
    Drops d (through f state (before ++ a :: after)) (through f state (before ++ a' :: after)) := by
  rw [through_append, through_append]
  exact .after _ (step.bind _)

/-- One step of a run does nothing but report a problem, and is left out. -/
theorem drops_through_step {f : β → α → Reported β} {state : β} {before : List α} {a : α}
    (told : (f (through f state before).value a).problems = [d])
    (idle : (f (through f state before).value a).value = (through f state before).value)
    (after : List α) :
    Drops d (through f state (before ++ a :: after)) (through f state (before ++ after)) := by
  rw [through_append, through_append]
  exact .after _ (drops_step told (by rw [idle]))

end Reported

open Reported (Drops)

/-! Lists. -/

section Lists

variable {α β κ : Type} {d : Diagnostic}

/-- One entry is left out whose name stands before it. -/
inductive Repeats (key : α → κ) (told : α → Diagnostic) : List α → List α → Diagnostic → Prop
  | intro (before : List α) (a : α) (after : List α) (again : key a ∈ before.map key) :
    Repeats key told (before ++ a :: after) (before ++ after) (told a)

/-- One entry is trimmed. -/
inductive TrimsOne (inner : α → α → Diagnostic → Prop) : List α → List α → Diagnostic → Prop
  | intro (before : List α) {a a' : α} (after : List α) {d : Diagnostic} (trims : inner a a' d) :
    TrimsOne inner (before ++ a :: after) (before ++ a' :: after) d

/-- In a list of named entries, one that repeats a name is left out, or one that is the first of its
name is trimmed. -/
inductive Trims (key : α → κ) (told : α → Diagnostic) (inner : α → α → Diagnostic → Prop) :
    List α → List α → Diagnostic → Prop
  | again {as as' : List α} {d : Diagnostic} (repeats : Repeats key told as as' d) :
    Trims key told inner as as' d
  | within (before : List α) {a a' : α} (after : List α) {d : Diagnostic}
    (first : key a ∉ before.map key) (trims : inner a a' d) :
    Trims key told inner (before ++ a :: after) (before ++ a' :: after) d

theorem Repeats.isEmpty {key : α → κ} {told : α → Diagnostic} {as as' : List α}
    (repeats : Repeats key told as as' d) : as'.isEmpty = as.isEmpty := by
  obtain ⟨before, a, after, again⟩ := repeats
  cases before with
  | nil => simp at again
  | cons b rest => rfl

theorem TrimsOne.isEmpty {inner : α → α → Diagnostic → Prop} {as as' : List α}
    (trims : TrimsOne inner as as' d) : as'.isEmpty = as.isEmpty := by
  obtain ⟨before, after, trims⟩ := trims
  cases before <;> rfl

theorem Trims.isEmpty {key : α → κ} {told : α → Diagnostic} {inner : α → α → Diagnostic → Prop}
    {as as' : List α} (trims : Trims key told inner as as' d) : as'.isEmpty = as.isEmpty := by
  cases trims with
  | again repeats => exact repeats.isEmpty
  | within before after first trims => cases before <;> rfl

theorem drops_each {f : α → Reported β} {inner : α → α → Diagnostic → Prop}
    (reads : ∀ a a' d, inner a a' d → Drops d (f a) (f a')) {as as' : List α}
    (trims : TrimsOne inner as as' d) : Drops d (Reported.each f as) (Reported.each f as') := by
  obtain ⟨before, after, trims⟩ := trims
  have read := reads _ _ _ trims
  constructor
  · simp [read.value]
  · simp only [Reported.each_problems, List.flatMap_append, List.flatMap_cons]
    exact (read.problems.append_right _).append_left _

variable {key : α → String} {told : α → Diagnostic} {inner : α → α → Diagnostic → Prop}
  {repeated : α → Reported Unit} {read : α → Reported β}

theorem gather_append (t : Table β) (as bs : List α) :
    gather key repeated read t (as ++ bs) =
      (gather key repeated read t as >>= fun next => gather key repeated read next bs) := by
  induction as generalizing t with
  | nil => rfl
  | cons a rest ih =>
    rw [List.cons_append, gather, gather]
    split
    · simp [Bind.bind, ih, List.append_assoc]
    · simp [Bind.bind, ih, List.append_assoc]

/-- Every name that has been read is in the table. -/
theorem gather_contains (t : Table β) (as : List α) (name : String) :
    (gather key repeated read t as).value.contains name = true ↔
      t.contains name = true ∨ name ∈ as.map key := by
  induction as generalizing t with
  | nil => simp [gather]
  | cons a rest ih =>
    rw [gather]
    split
    · next taken =>
      rw [Reported.bind_value, ih, List.map_cons, List.mem_cons]
      constructor
      · rintro (held | listed)
        · exact .inl held
        · exact .inr (.inr listed)
      · rintro (held | rfl | listed)
        · exact .inl held
        · exact .inl taken
        · exact .inr listed
    · rw [Reported.bind_value, ih, List.map_cons, List.mem_cons, ← or_assoc]
      simp [Table.contains]

/-- Leaving out a repeated entry, whatever has been read before. -/
theorem drops_gather_repeats (tells : ∀ a, (repeated a).problems = [told a]) {as as' : List α}
    (repeats : Repeats key told as as' d) (t : Table β) :
    Drops d (gather key repeated read t as) (gather key repeated read t as') := by
  obtain ⟨before, a, after, again⟩ := repeats
  have taken : (gather key repeated read t before).value.contains (key a) = true :=
    (gather_contains t before (key a)).mpr (.inr again)
  rw [gather_append, gather_append]
  refine .after _ ?_
  rw [gather, if_pos taken]
  exact Reported.drops_step (tells a) rfl

theorem drops_gather (tells : ∀ a, (repeated a).problems = [told a])
    (reads : ∀ a a' d, inner a a' d → key a' = key a ∧ Drops d (read a) (read a'))
    {as as' : List α} (trims : Trims key told inner as as' d) :
    Drops d (gather key repeated read .empty as) (gather key repeated read .empty as') := by
  cases trims with
  | again repeats => exact drops_gather_repeats tells repeats .empty
  | @within before a a' after d first trims =>
    obtain ⟨same, dropped⟩ := reads a a' d trims
    have free : ¬ (gather key repeated read .empty before).value.contains (key a) = true := by
      rw [gather_contains]
      rintro (held | listed)
      · cases held
      · exact first listed
    rw [gather_append, gather_append]
    refine .after _ ?_
    rw [gather, gather, same, if_neg free, if_neg free]
    exact dropped.bind _

end Lists

/-! What can be trimmed in each part of a declaration, and how it is reported. -/

/-- A name that its list already holds. -/
def duplicateName (listed : Listed) (container : ElementPath) (location : SourceLocation)
    (name : String) : Diagnostic :=
  ⟨.duplicateName listed name container, some location, container⟩

/-- An argument that a usage already has. -/
def duplicateArgument (origin : Origin) (owner : ElementPath) (u : UsageDecl)
    (a : String × Value) : Diagnostic :=
  ⟨.duplicateUsageArgument a.1 u.name owner, some (origin.locate u.pos),
    (owner.child (.usage u.name)).child (.argument a.1)⟩

inductive UsageDecl.Trims (origin : Origin) (owner : ElementPath) :
    UsageDecl → UsageDecl → Diagnostic → Prop
  | arguments {u : UsageDecl} {as : List (String × Value)} {d : Diagnostic}
    (repeats : Repeats Prod.fst (duplicateArgument origin owner u) u.arguments as d) :
    Trims origin owner u { u with arguments := as } d

/-- The usages on the element at `owner`. -/
abbrev TrimsUsages (origin : Origin) (owner : ElementPath) :
    List UsageDecl → List UsageDecl → Diagnostic → Prop :=
  TrimsOne (UsageDecl.Trims origin owner)

inductive InputDecl.Trims (origin : Origin) (container : ElementPath)
    (segment : String → PathSegment) : InputDecl → InputDecl → Diagnostic → Prop
  | usages {v : InputDecl} {us : List UsageDecl} {d : Diagnostic}
    (trims : TrimsUsages origin (container.child (segment v.name)) v.usages us d) :
    Trims origin container segment v { v with usages := us } d

/-- Arguments or input fields, as `listed` and `segment` say. -/
abbrev TrimsInputs (origin : Origin) (container : ElementPath) (listed : Listed)
    (segment : String → PathSegment) : List InputDecl → List InputDecl → Diagnostic → Prop :=
  Trims InputDecl.name (fun v => duplicateName listed container (origin.locate v.pos) v.name)
    (InputDecl.Trims origin container segment)

inductive EnumValueDecl.Trims (origin : Origin) (type : ElementPath) :
    EnumValueDecl → EnumValueDecl → Diagnostic → Prop
  | usages {v : EnumValueDecl} {us : List UsageDecl} {d : Diagnostic}
    (trims : TrimsUsages origin (type.child (.enumValue v.name)) v.usages us d) :
    Trims origin type v { v with usages := us } d

abbrev TrimsEnumValues (origin : Origin) (type : ElementPath) :
    List EnumValueDecl → List EnumValueDecl → Diagnostic → Prop :=
  Trims EnumValueDecl.name (fun v => duplicateName .enumValue type (origin.locate v.pos) v.name)
    (EnumValueDecl.Trims origin type)

inductive FieldDecl.Trims (origin : Origin) (type : ElementPath) :
    FieldDecl → FieldDecl → Diagnostic → Prop
  | arguments {f : FieldDecl} {vs : List InputDecl} {d : Diagnostic}
    (trims : TrimsInputs origin (type.child (.field f.name)) .argument .argument f.arguments vs d) :
    Trims origin type f { f with arguments := vs } d
  | usages {f : FieldDecl} {us : List UsageDecl} {d : Diagnostic}
    (trims : TrimsUsages origin (type.child (.field f.name)) f.usages us d) :
    Trims origin type f { f with usages := us } d

abbrev TrimsFields (origin : Origin) (type : ElementPath) :
    List FieldDecl → List FieldDecl → Diagnostic → Prop :=
  Trims FieldDecl.name (fun f => duplicateName .field type (origin.locate f.pos) f.name)
    (FieldDecl.Trims origin type)

/-- A list of type names. -/
abbrev TrimsNames (location : SourceLocation) (type : ElementPath) (listed : Listed) :
    List String → List String → Diagnostic → Prop :=
  Repeats id (duplicateName listed type location)

inductive BodyDecl.Trims (origin : Origin) (location : SourceLocation) (type : ElementPath) :
    BodyDecl → BodyDecl → Diagnostic → Prop
  | enum {vs vs' : List EnumValueDecl} {d : Diagnostic}
    (trims : TrimsEnumValues origin type vs vs' d) :
    Trims origin location type (.enum vs) (.enum vs') d
  | inputObject {vs vs' : List InputDecl} {d : Diagnostic}
    (trims : TrimsInputs origin type .inputField .inputField vs vs' d) :
    Trims origin location type (.inputObject vs) (.inputObject vs') d
  | interface {names : List String} {fs fs' : List FieldDecl} {d : Diagnostic}
    (trims : TrimsFields origin type fs fs' d) :
    Trims origin location type (.interface names fs) (.interface names fs') d
  | interfaceImplements {names names' : List String} {fs : List FieldDecl} {d : Diagnostic}
    (repeats : TrimsNames location type .interface names names' d) :
    Trims origin location type (.interface names fs) (.interface names' fs) d
  | object {names : List String} {fs fs' : List FieldDecl} {d : Diagnostic}
    (trims : TrimsFields origin type fs fs' d) :
    Trims origin location type (.object names fs) (.object names fs') d
  | objectImplements {names names' : List String} {fs : List FieldDecl} {d : Diagnostic}
    (repeats : TrimsNames location type .interface names names' d) :
    Trims origin location type (.object names fs) (.object names' fs) d
  | union {names names' : List String} {d : Diagnostic}
    (repeats : TrimsNames location type .memberType names names' d) :
    Trims origin location type (.union names) (.union names') d

/-- Wherever a list of a declaration holds a name twice, the later entry may be left out. -/
inductive Declaration.Trims (origin : Origin) : Declaration → Declaration → Diagnostic → Prop
  | typeUsages {x : TypeDecl} {us : List UsageDecl} {d : Diagnostic}
    (trims : TrimsUsages origin (.type x.body.kind x.name) x.usages us d) :
    Trims origin (.type x) (.type { x with usages := us }) d
  | typeBody {x : TypeDecl} {body : BodyDecl} {d : Diagnostic}
    (trims : x.body.Trims origin (origin.locate x.pos) (.type x.body.kind x.name) body d) :
    Trims origin (.type x) (.type { x with body }) d
  | extensionUsages {x : TypeExtension} {us : List UsageDecl} {d : Diagnostic}
    (trims : TrimsUsages origin (.type x.body.kind x.name) x.usages us d) :
    Trims origin (.typeExtension x) (.typeExtension { x with usages := us }) d
  | extensionBody {x : TypeExtension} {body : BodyDecl} {d : Diagnostic}
    (trims : x.body.Trims origin (origin.locate x.pos) (.type x.body.kind x.name) body d) :
    Trims origin (.typeExtension x) (.typeExtension { x with body }) d
  | directiveLocations {x : DirectiveDecl} {ls : List DirectiveLocation} {d : Diagnostic}
    (repeats : Repeats id (fun l => duplicateName .directiveLocation (.directive x.name)
      (origin.locate x.pos) l.name) x.locations ls d) :
    Trims origin (.directive x) (.directive { x with locations := ls }) d
  | directiveArguments {x : DirectiveDecl} {vs : List InputDecl} {d : Diagnostic}
    (trims : TrimsInputs origin (.directive x.name) .argument .argument x.arguments vs d) :
    Trims origin (.directive x) (.directive { x with arguments := vs }) d
  | schemaUsages {x : SchemaDecl} {us : List UsageDecl} {d : Diagnostic}
    (trims : TrimsUsages origin .schema x.usages us d) :
    Trims origin (.schema x) (.schema { x with usages := us }) d
  | schemaExtensionUsages {x : SchemaDecl} {us : List UsageDecl} {d : Diagnostic}
    (trims : TrimsUsages origin .schema x.usages us d) :
    Trims origin (.schemaExtension x) (.schemaExtension { x with usages := us }) d

/-! Reading a trimmed part. -/

namespace Collect

variable {origin : Origin} {d : Diagnostic}

theorem drops_usages {owner : ElementPath} {us us' : List UsageDecl}
    (trims : TrimsUsages origin owner us us' d) :
    Drops d (usages origin owner us) (usages origin owner us') := by
  refine drops_each ?_ trims
  rintro u _ d ⟨repeats⟩
  exact (drops_gather_repeats (fun _ => rfl) repeats .empty).bind _

theorem drops_inputValues {container : ElementPath} {listed : Listed}
    {segment : String → PathSegment} {vs vs' : List InputDecl}
    (trims : TrimsInputs origin container listed segment vs vs' d) :
    Drops d (inputValues origin container listed segment vs)
      (inputValues origin container listed segment vs') := by
  refine drops_gather (fun _ => rfl) ?_ trims
  rintro v _ d ⟨trims⟩
  exact ⟨rfl, (drops_usages trims).bind _⟩

theorem drops_enumValues {type : ElementPath} {vs vs' : List EnumValueDecl}
    (trims : TrimsEnumValues origin type vs vs' d) :
    Drops d (enumValues origin type vs) (enumValues origin type vs') := by
  refine drops_gather (fun _ => rfl) ?_ trims
  rintro v _ d ⟨trims⟩
  exact ⟨rfl, (drops_usages trims).bind _⟩

theorem drops_fields {type : ElementPath} {fs fs' : List FieldDecl}
    (trims : TrimsFields origin type fs fs' d) :
    Drops d (fields origin type fs) (fields origin type fs') := by
  refine drops_gather (fun _ => rfl) ?_ trims
  rintro f _ d (trims | trims)
  · exact ⟨rfl, (drops_inputValues trims).bind _⟩
  · exact ⟨rfl, .after _ ((drops_usages trims).bind _)⟩

theorem drops_typeRefs {location : SourceLocation} {type : ElementPath} {listed : Listed}
    {names names' : List String} (repeats : TrimsNames location type listed names names' d) :
    Drops d (typeRefs location type listed names) (typeRefs location type listed names') :=
  drops_gather_repeats (fun _ => rfl) repeats .empty

theorem drops_body {location : SourceLocation} {type : ElementPath} {b b' : BodyDecl}
    (trims : b.Trims origin location type b' d) :
    Drops d (body origin location type b) (body origin location type b') := by
  cases trims with
  | enum trims => exact (drops_enumValues trims).bind _
  | inputObject trims => exact (drops_inputValues trims).bind _
  | interface trims => exact (drops_fields trims).bind _
  | interfaceImplements repeats => exact .after _ ((drops_typeRefs repeats).bind _)
  | object trims => exact (drops_fields trims).bind _
  | objectImplements repeats => exact .after _ ((drops_typeRefs repeats).bind _)
  | union repeats => exact (drops_typeRefs repeats).bind _

theorem locations_append (location : SourceLocation) (directive : ElementPath) (s : LocationSet)
    (as bs : List DirectiveLocation) :
    locations location directive s (as ++ bs) =
      (locations location directive s as >>= fun next => locations location directive next bs) := by
  induction as generalizing s with
  | nil => rfl
  | cons l rest ih =>
    rw [List.cons_append, locations, locations]
    split
    · simp [Bind.bind, ih, List.append_assoc]
    · exact ih _

theorem drops_locations {location : SourceLocation} {directive : ElementPath}
    {ls ls' : List DirectiveLocation}
    (repeats : Repeats id (fun l => duplicateName .directiveLocation directive location l.name)
      ls ls' d) :
    Drops d (locations location directive .empty ls) (locations location directive .empty ls') := by
  obtain ⟨before, l, after, again⟩ := repeats
  have taken : (locations location directive .empty before).value.contains l = true := by
    rw [List.map_id, id] at again
    simp [locations_contains, again]
  rw [locations_append, locations_append]
  refine .after _ ?_
  rw [locations, if_pos taken]
  exact Reported.drops_step rfl rfl

end Collect

namespace Extend

variable {origin : Origin} {d : Diagnostic} {location : SourceLocation} {type : ElementPath}

theorem drops_shape_fields {fs fs' : List FieldDecl} (trims : TrimsFields origin type fs fs' d)
    (names : List String) (old : Shape) :
    Drops d (shape origin location type names fs old) (shape origin location type names fs' old) :=
  .after _ ((Collect.drops_fields trims).bind _)

theorem drops_shape_implements {names names' : List String}
    (repeats : TrimsNames location type .interface names names' d) (fs : List FieldDecl)
    (old : Shape) :
    Drops d (shape origin location type names fs old) (shape origin location type names' fs old) :=
  (Collect.drops_typeRefs repeats).bind _

/-- An extension of the same kind reads its lists like a definition. -/
theorem drops_body {b b' : BodyDecl} (trims : b.Trims origin location type b' d) {old : TypeBody}
    (kind : old.kind = b.kind) :
    Drops d (body origin location type b old) (body origin location type b' old) := by
  cases trims with
  | enum trims =>
    cases old with
    | enum values => exact (Collect.drops_enumValues trims).bind _
    | _ => cases kind
  | inputObject trims =>
    cases old with
    | inputObject fields => exact (Collect.drops_inputValues trims).bind _
    | _ => cases kind
  | interface trims =>
    cases old with
    | interface shape => exact (drops_shape_fields trims _ shape).bind _
    | _ => cases kind
  | interfaceImplements repeats =>
    cases old with
    | interface shape => exact (drops_shape_implements repeats _ shape).bind _
    | _ => cases kind
  | object trims =>
    cases old with
    | object shape => exact (drops_shape_fields trims _ shape).bind _
    | _ => cases kind
  | objectImplements repeats =>
    cases old with
    | object shape => exact (drops_shape_implements repeats _ shape).bind _
    | _ => cases kind
  | union repeats =>
    cases old with
    | union members => exact (drops_gather_repeats (fun _ => rfl) repeats members).bind _
    | _ => cases kind

end Extend

namespace BodyDecl.Trims

variable {origin : Origin} {d : Diagnostic} {location : SourceLocation} {type : ElementPath}
  {b b' : BodyDecl}

theorem kind (trims : b.Trims origin location type b' d) : b'.kind = b.kind := by
  cases trims <;> rfl

theorem isEmpty (trims : b.Trims origin location type b' d) : b'.isEmpty = b.isEmpty := by
  cases trims with
  | enum trims => exact trims.isEmpty
  | inputObject trims => exact trims.isEmpty
  | interface trims => simp [BodyDecl.isEmpty, trims.isEmpty]
  | interfaceImplements repeats => simp [BodyDecl.isEmpty, repeats.isEmpty]
  | object trims => simp [BodyDecl.isEmpty, trims.isEmpty]
  | objectImplements repeats => simp [BodyDecl.isEmpty, repeats.isEmpty]
  | union repeats => exact repeats.isEmpty

end BodyDecl.Trims

end SchemaAtlas
