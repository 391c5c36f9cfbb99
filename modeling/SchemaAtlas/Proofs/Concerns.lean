import SchemaAtlas.Proofs.Roots

/-!
# What each step reports

Every problem is the concern of one step of the analysis, or of one group of rules. A step reports
only what concerns it, so a kind of problem that is missing from a report says something about the
one step that looks for it, whatever the others found.
-/

namespace SchemaAtlas

/-- What a problem is about. -/
inductive Concern where
  /-- Collecting definitions and merging extensions. -/
  | collection
  /-- Names that nothing has. -/
  | lookup
  /-- The names and numbers of members, and their types and values. -/
  | form
  | usage
  | conformance
  | cycle
  | root
deriving DecidableEq

def Problem.concern : Problem → Concern
  | duplicateDirective _ | duplicateUsageArgument _ _ _ | duplicateName _ _ _ | duplicateSchema
  | duplicateType _ | emptyExtension _ | extensionChangesType _ _ _ | extensionKindMismatch _ _ _
  | extensionOfUndefinedType _ _ | schemaExtensionWithoutSchema => .collection
  | undefinedDirective _ _ | undefinedInterface _ _ | undefinedType _ _ | undefinedUnionMember _ _
  | undefinedOperationType _ _ => .lookup
  | doubleUnderscoreName _ | emptyDefinition _ _ | reservedEnumValue _ _ | notOutputType _ _ _
  | notInputType _ _ _ | incompatibleDefault _ _ _ | unionMemberNotObject _ _ _
  | invalidDeprecation _ _ => .form
  | incompatibleUsageArgument _ _ _ _ _ | invalidDirectiveLocation _ _ _
  | missingUsageArgument _ _ _ | nullUsageArgument _ _ _ | undefinedUsageArgument _ _ _
  | unrepeatableDirective _ _ => .usage
  | implementsNonInterface _ _ _ _ | invalidInterfaceFieldType _ _ _ _
  | interfaceArgumentMismatch _ _ _ _ | missingInterfaceArgument _ _ _
  | missingInterfaceField _ _ _ _ | missingTransitiveInterface _ _ _ _ | requiredExtraArgument _ _
  | selfImplementingInterface _ => .conformance
  | circularDirective _ | circularInputObject _ => .cycle
  | duplicateOperation _ | operationTypesNotDistinct _ _ _ | operationTypeNotObject _ _ _
  | queryTypeNotDefined | rootTypeReferenced _ _ _ | schemaWithoutOperations
  | schemaWithoutQuery => .root

/-- All problems are such as `P` says. -/
structure Each (P : Problem → Prop) (ds : List Diagnostic) : Prop where
  holds : ∀ d ∈ ds, P d.problem

section Each

variable {P : Problem → Prop} {α : Type}

theorem each_iff {ds : List Diagnostic} : Each P ds ↔ ∀ d ∈ ds, P d.problem :=
  ⟨Each.holds, Each.mk⟩

@[simp] theorem each_nil : Each P [] := ⟨by simp⟩

@[simp] theorem each_cons {d : Diagnostic} {ds : List Diagnostic} :
    Each P (d :: ds) ↔ P d.problem ∧ Each P ds := by
  simp [each_iff]

@[simp] theorem each_append {ds es : List Diagnostic} :
    Each P (ds ++ es) ↔ Each P ds ∧ Each P es := by
  simp [each_iff, or_imp, forall_and]

theorem each_flatMap {f : α → List Diagnostic} {as : List α} (all : ∀ a ∈ as, Each P (f a)) :
    Each P (as.flatMap f) := by
  constructor
  intro d member
  obtain ⟨a, present, inside⟩ := List.mem_flatMap.mp member
  exact (all a present).holds d inside

theorem each_map {f : α → Diagnostic} {as : List α} (all : ∀ a, P (f a).problem) :
    Each P (as.map f) := by
  constructor
  intro d member
  obtain ⟨a, _, rfl⟩ := List.mem_map.mp member
  exact all a

@[simp] theorem each_report {problem : Problem} {location : SourceLocation} {path : ElementPath} :
    Each P (report problem location path).problems ↔ P problem := by
  simp [report, Reported.problems, Event.problem?]

theorem each_through {β : Type} {f : β → α → Reported β} (step : ∀ s a, Each P (f s a).problems)
    (s : β) (as : List α) : Each P (Reported.through f s as).problems := by
  induction as generalizing s with
  | nil => simp
  | cons a rest ih =>
    rw [Reported.through_cons_problems, each_append]
    exact ⟨step s a, ih _⟩

theorem each_gather {β : Type} {key : α → String} {repeated : α → Reported Unit}
    {read : α → Reported β} (again : ∀ a, Each P (repeated a).problems)
    (first : ∀ a, Each P (read a).problems) (t : Table β) (as : List α) :
    Each P (gather key repeated read t as).problems := by
  induction as generalizing t with
  | nil => simp [gather]
  | cons a rest ih =>
    rw [gather]
    split
    · rw [Reported.bind_problems, each_append]
      exact ⟨again a, ih t⟩
    · rw [Reported.bind_problems, each_append]
      exact ⟨first a, ih _⟩

theorem each_absorb {clash : α → α → Reported α} (all : ∀ old new, Each P (clash old new).problems)
    (t : Table α) (new : List (String × α)) : Each P (absorb clash t new).problems := by
  induction new generalizing t with
  | nil => simp [absorb]
  | cons first rest ih =>
    obtain ⟨name, value⟩ := first
    rw [absorb]
    split
    · rw [Reported.bind_problems, each_append]
      exact ⟨all _ _, ih _⟩
    · exact ih _

end Each

/-- All problems are of one concern. -/
structure Only (c : Concern) (ds : List Diagnostic) : Prop where
  each : ∀ d ∈ ds, d.problem.concern = c

section Only

variable {c : Concern} {α : Type}

theorem only_iff_each {ds : List Diagnostic} : Only c ds ↔ Each (·.concern = c) ds :=
  ⟨fun only => ⟨only.each⟩, fun all => ⟨all.holds⟩⟩

theorem Each.only {P : Problem → Prop} {ds : List Diagnostic} (all : Each P ds)
    (concern : ∀ p, P p → p.concern = c) : Only c ds :=
  ⟨fun d member => concern d.problem (all.holds d member)⟩

@[simp] theorem only_nil : Only c [] := ⟨by simp⟩

@[simp] theorem only_append {ds es : List Diagnostic} :
    Only c (ds ++ es) ↔ Only c ds ∧ Only c es := by
  simp only [only_iff_each, each_append]

@[simp] theorem only_cons {d : Diagnostic} {ds : List Diagnostic} :
    Only c (d :: ds) ↔ d.problem.concern = c ∧ Only c ds := by
  simp only [only_iff_each, each_cons]

theorem only_flatMap {f : α → List Diagnostic} {as : List α} (all : ∀ a ∈ as, Only c (f a)) :
    Only c (as.flatMap f) :=
  only_iff_each.mpr (each_flatMap fun a member => only_iff_each.mp (all a member))

theorem only_map {f : α → Diagnostic} {as : List α} (all : ∀ a, (f a).problem.concern = c) :
    Only c (as.map f) :=
  only_iff_each.mpr (each_map all)

@[simp] theorem only_report {problem : Problem} {location : SourceLocation} {path : ElementPath} :
    Only c (report problem location path).problems ↔ problem.concern = c := by
  rw [only_iff_each, each_report]

theorem only_through {β : Type} {f : β → α → Reported β} (step : ∀ s a, Only c (f s a).problems)
    (s : β) (as : List α) : Only c (Reported.through f s as).problems :=
  only_iff_each.mpr (each_through (fun s a => only_iff_each.mp (step s a)) s as)

end Only

/-- No problem is of this concern. -/
structure Lacks (c : Concern) (ds : List Diagnostic) : Prop where
  each : ∀ d ∈ ds, d.problem.concern ≠ c

section Lacks

variable {c : Concern} {α : Type}

theorem lacks_iff {ds : List Diagnostic} : Lacks c ds ↔ ∀ d ∈ ds, d.problem.concern ≠ c :=
  ⟨Lacks.each, Lacks.mk⟩

@[simp] theorem lacks_nil : Lacks c [] := ⟨by simp⟩

@[simp] theorem lacks_cons {d : Diagnostic} {ds : List Diagnostic} :
    Lacks c (d :: ds) ↔ d.problem.concern ≠ c ∧ Lacks c ds := by
  simp [lacks_iff]

@[simp] theorem lacks_append {ds es : List Diagnostic} :
    Lacks c (ds ++ es) ↔ Lacks c ds ∧ Lacks c es := by
  simp [lacks_iff, or_imp, forall_and]

@[simp] theorem lacks_flatMap {f : α → List Diagnostic} {as : List α} :
    Lacks c (as.flatMap f) ↔ ∀ a ∈ as, Lacks c (f a) := by
  simp only [lacks_iff, List.mem_flatMap]
  exact ⟨fun h a m d inside => h d ⟨a, m, inside⟩, fun h d ⟨a, m, inside⟩ => h a m d inside⟩

@[simp] theorem lacks_map {f : α → Diagnostic} {as : List α} :
    Lacks c (as.map f) ↔ ∀ a ∈ as, (f a).problem.concern ≠ c := by
  simp only [lacks_iff, List.forall_mem_map]

/-- A list of another concern never counts. -/
theorem Only.lacks {c' : Concern} {ds : List Diagnostic} (only : Only c' ds) (other : c' ≠ c) :
    Lacks c ds :=
  ⟨fun d member => only.each d member ▸ other⟩

end Lacks

/-! Collecting. -/

/-- What collecting can report. A type is said to change only if it does. -/
inductive Problem.OfCollection : Problem → Prop
  | duplicateDirective (directive : String) : OfCollection (.duplicateDirective directive)
  | duplicateUsageArgument (argument directive : String) (element : ElementPath) :
    OfCollection (.duplicateUsageArgument argument directive element)
  | duplicateName (listed : Listed) (name : String) (element : ElementPath) :
    OfCollection (.duplicateName listed name element)
  | duplicateSchema : OfCollection .duplicateSchema
  | duplicateType (type : String) : OfCollection (.duplicateType type)
  | emptyExtension (element : ElementPath) : OfCollection (.emptyExtension element)
  | extensionChangesType (element : ElementPath) {existing new : TypeUse}
    (changed : existing.equivalent new = false) :
    OfCollection (.extensionChangesType element existing new)
  | extensionKindMismatch (actual extension : TypeKind) (type : String) :
    OfCollection (.extensionKindMismatch actual extension type)
  | extensionOfUndefinedType (extension : TypeKind) (type : String) :
    OfCollection (.extensionOfUndefinedType extension type)
  | schemaExtensionWithoutSchema : OfCollection .schemaExtensionWithoutSchema

theorem Problem.OfCollection.concern {p : Problem} (collected : p.OfCollection) :
    p.concern = .collection := by
  cases collected <;> rfl

open Problem (OfCollection)

namespace Collect

theorem each_duplicate (listed : Listed) (name : String) (container : ElementPath)
    (location : SourceLocation) :
    Each OfCollection (reportDuplicate listed name container location).problems :=
  each_report.mpr (.duplicateName ..)

theorem each_usages (origin : Origin) (owner : ElementPath) (ds : List UsageDecl) :
    Each OfCollection (usages origin owner ds).problems := by
  rw [usages, Reported.each_problems]
  refine each_flatMap fun d _ => ?_
  rw [usage, Reported.bind_problems, Reported.pure_problems, List.append_nil]
  exact each_gather (fun a => each_report.mpr (.duplicateUsageArgument ..)) (fun a => each_nil) _ _

theorem each_inputValues (origin : Origin) (container : ElementPath) (listed : Listed)
    (segment : String → PathSegment) (ds : List InputDecl) :
    Each OfCollection (inputValues origin container listed segment ds).problems := by
  refine each_gather (fun d => each_duplicate ..) (fun d => ?_) _ _
  rw [inputValue, Reported.bind_problems, Reported.pure_problems, List.append_nil]
  exact each_usages ..

theorem each_enumValues (origin : Origin) (type : ElementPath) (ds : List EnumValueDecl) :
    Each OfCollection (enumValues origin type ds).problems := by
  refine each_gather (fun d => each_duplicate ..) (fun d => ?_) _ _
  rw [enumValue, Reported.bind_problems, Reported.pure_problems, List.append_nil]
  exact each_usages ..

theorem each_fields (origin : Origin) (type : ElementPath) (ds : List FieldDecl) :
    Each OfCollection (fields origin type ds).problems := by
  refine each_gather (fun d => each_duplicate ..) (fun d => ?_) _ _
  simp only [field, Reported.bind_problems, Reported.pure_problems, List.append_nil, each_append]
  exact ⟨each_inputValues .., each_usages ..⟩

theorem each_typeRefs (location : SourceLocation) (type : ElementPath) (listed : Listed)
    (names : List String) : Each OfCollection (typeRefs location type listed names).problems :=
  each_gather (fun _ => each_duplicate ..) (fun _ => each_nil) _ _

theorem each_body (origin : Origin) (location : SourceLocation) (type : ElementPath)
    (d : BodyDecl) : Each OfCollection (body origin location type d).problems := by
  cases d with
  | enum values => simp [body, each_enumValues]
  | inputObject fs => simp [body, inputFields, each_inputValues]
  | interface implements fs => simp [body, each_fields, each_typeRefs]
  | object implements fs => simp [body, each_fields, each_typeRefs]
  | scalar => simp [body]
  | union members => simp [body, each_typeRefs]

theorem each_locations (location : SourceLocation) (directive : ElementPath) (s : LocationSet)
    (ls : List DirectiveLocation) :
    Each OfCollection (locations location directive s ls).problems := by
  induction ls generalizing s with
  | nil => simp [locations]
  | cons l rest ih =>
    rw [locations]
    split
    · rw [Reported.bind_problems, each_append]
      exact ⟨each_duplicate .., ih s⟩
    · exact ih _

end Collect

namespace Extend

theorem each_argument (field : ElementPath) (old new : InputValue) :
    Each OfCollection (argument field old new).problems := by
  simp only [argument]
  split
  · next changed => simpa using .extensionChangesType _ (by simpa using changed)
  · simp

theorem each_field (type : ElementPath) (old new : Field) :
    Each OfCollection (field type old new).problems := by
  simp only [field]
  split
  · next changed => simpa using .extensionChangesType _ (by simpa using changed)
  · rw [Reported.bind_problems, each_append]
    refine ⟨each_absorb (each_argument _) _ _, ?_⟩
    split <;> simp [OfCollection.emptyExtension]

theorem each_inputField (type : ElementPath) (old new : InputValue) :
    Each OfCollection (inputField type old new).problems := by
  simp only [inputField]
  split
  · next changed => simpa using .extensionChangesType _ (by simpa using changed)
  · split <;> simp [OfCollection.emptyExtension]

theorem each_keepOld {α : Type} (listed : Listed) (type : ElementPath) (name : α → String)
    (location : α → SourceLocation) (old new : α) :
    Each OfCollection (keepOld listed type name location old new).problems := by
  simp [keepOld, Collect.each_duplicate]

theorem each_shape (origin : Origin) (location : SourceLocation) (type : ElementPath)
    (implements : List String) (fields : List FieldDecl) (old : Shape) :
    Each OfCollection (shape origin location type implements fields old).problems := by
  simp only [shape, Reported.bind_problems, Reported.pure_problems, List.append_nil, each_append]
  exact ⟨Collect.each_typeRefs .., Collect.each_fields .., each_absorb (each_keepOld _ _ _ _) _ _,
    each_absorb (each_field type) _ _⟩

theorem each_body (origin : Origin) (location : SourceLocation) (type : ElementPath)
    (d : BodyDecl) (old : TypeBody) :
    Each OfCollection (body origin location type d old).problems := by
  unfold body
  split
  · simp only [Reported.bind_problems, Reported.pure_problems, List.append_nil, each_append]
    exact ⟨Collect.each_enumValues .., each_absorb (each_keepOld _ _ _ _) _ _⟩
  · simp [Collect.inputFields, Collect.each_inputValues, each_absorb (each_inputField type)]
  · simp [each_shape]
  · simp [each_shape]
  · simp only [Reported.bind_problems, Reported.pure_problems, List.append_nil]
    exact each_gather (fun _ => Collect.each_duplicate ..) (fun _ => each_nil) _ _
  · simp

end Extend

namespace Graph

theorem each_define (g : Graph) (s : Sourced) : Each OfCollection (g.define s).problems := by
  obtain ⟨origin, declaration⟩ := s
  cases declaration with
  | type d =>
    simp only [define, defineType]
    split
    · simpa using .duplicateType _
    · simp [Collect.each_usages, Collect.each_body]
  | directive d =>
    simp only [define, defineDirective]
    split
    · simpa using .duplicateDirective _
    · simp [Collect.each_locations, Collect.arguments, Collect.each_inputValues]
  | schema d =>
    simp only [define, defineSchema]
    split
    · simpa using .duplicateSchema
    · simp [Collect.each_usages]
  | _ => simp [define]

theorem each_extend (g : Graph) (s : Sourced) : Each OfCollection (g.extend s).problems := by
  obtain ⟨origin, declaration⟩ := s
  cases declaration with
  | typeExtension e =>
    simp only [extend, extendType]
    split
    · simpa using .extensionOfUndefinedType _ _
    · split
      · simpa using .extensionKindMismatch _ _ _
      · split
        · simpa using .emptyExtension _
        · simp [Collect.each_usages, Extend.each_body]
  | schemaExtension d =>
    simp only [extend, extendSchema]
    split
    · simpa using .schemaExtensionWithoutSchema
    · rw [Reported.bind_problems, each_append]
      refine ⟨Collect.each_usages .., ?_⟩
      split <;> simp [OfCollection.emptyExtension]
  | _ => simp [extend]

/-- Everything that collecting reports, whatever the buffer holds. -/
theorem each_collect (declarations : List Sourced) :
    Each OfCollection (collect declarations).problems := by
  simp only [collect, Reported.summarize_problems, Reported.bind_problems, each_append]
  exact ⟨each_through each_define _ _, each_through each_extend _ _⟩

theorem only_collect (declarations : List Sourced) :
    Only .collection (collect declarations).problems :=
  (each_collect declarations).only fun _ collected => collected.concern

end Graph

/-! Linking. -/

/-- If a name is missing, that is what the mention says. -/
def Mention.TellsLookup : Mention → Prop
  | .type m => m.undefined.concern = .lookup
  | .directive _ => True

theorem forall_mem_flatten_mapIdx {α β : Type} {P : β → Prop} {f : Nat → α → List β}
    (all : ∀ i a, ∀ b ∈ f i a, P b) (as : List α) : ∀ b ∈ (as.mapIdx f).flatten, P b := by
  intro b member
  obtain ⟨bs, present, inside⟩ := List.mem_flatten.mp member
  obtain ⟨i, _, rfl⟩ := List.mem_mapIdx.mp present
  exact all i _ b inside

namespace Mention

theorem ofUsages_tellsLookup (owner : ElementId) (path : ElementPath) (us : List Usage) :
    ∀ m ∈ ofUsages owner path us, m.TellsLookup := by
  intro m member
  obtain ⟨i, _, rfl⟩ := List.mem_mapIdx.mp member
  trivial

theorem ofInputValues_tellsLookup (site : Nat → ElementId) (container : ElementPath)
    (segment : String → PathSegment) (t : Table InputValue) :
    ∀ m ∈ ofInputValues site container segment t, m.TellsLookup := by
  refine forall_mem_flatten_mapIdx (fun i v m member => ?_) _
  rcases List.mem_append.mp member with usage | type
  · exact ofUsages_tellsLookup _ _ _ m usage
  · rw [List.mem_singleton.mp type]
    rfl

theorem ofField_tellsLookup (t : TypeId) (i : Nat) (type : ElementPath) (f : Field) :
    ∀ m ∈ ofField t i type f, m.TellsLookup := by
  intro m member
  simp only [ofField, List.mem_append, List.mem_singleton] at member
  rcases member with (usage | rfl) | argument
  · exact ofUsages_tellsLookup _ _ _ m usage
  · rfl
  · exact ofInputValues_tellsLookup _ _ _ _ m argument

theorem ofShape_tellsLookup (t : TypeId) (path : ElementPath) (s : Shape) :
    ∀ m ∈ ofShape t path s, m.TellsLookup := by
  intro m member
  rcases List.mem_append.mp member with listed | field
  · obtain ⟨ref, _, rfl⟩ := List.mem_map.mp listed
    rfl
  · exact forall_mem_flatten_mapIdx (fun i f => ofField_tellsLookup t i path f) _ m field

theorem ofBody_tellsLookup (t : TypeId) (name : String) (path : ElementPath) (b : TypeBody) :
    ∀ m ∈ ofBody t name path b, m.TellsLookup := by
  cases b with
  | enum values => exact forall_mem_flatten_mapIdx (fun _ _ => ofUsages_tellsLookup _ _ _) _
  | inputObject fields => exact ofInputValues_tellsLookup _ _ _ _
  | interface shape => exact ofShape_tellsLookup t path shape
  | object shape => exact ofShape_tellsLookup t path shape
  | scalar => exact fun m member => (List.not_mem_nil member).elim
  | union members =>
    intro m member
    obtain ⟨ref, _, rfl⟩ := List.mem_map.mp member
    rfl

theorem ofBlock_tellsLookup (b : SchemaBlock) : ∀ m ∈ ofBlock b, m.TellsLookup := by
  intro m member
  rcases List.mem_append.mp member with usage | operation
  · exact ofUsages_tellsLookup _ _ _ m usage
  · obtain ⟨o, _, rfl⟩ := List.mem_map.mp operation
    rfl

end Mention

namespace Graph

theorem mentions_tellLookup (g : Graph) : ∀ m ∈ g.mentions, m.TellsLookup := by
  intro m member
  simp only [mentions, List.mem_append] at member
  rcases member with (type | directive) | block
  · refine forall_mem_flatten_mapIdx (fun i e m inside => ?_) _ m type
    rcases List.mem_append.mp inside with usage | body
    · exact Mention.ofUsages_tellsLookup _ _ _ m usage
    · exact Mention.ofBody_tellsLookup _ _ _ _ m body
  · exact forall_mem_flatten_mapIdx (fun _ _ => Mention.ofInputValues_tellsLookup _ _ _ _) _ m
      directive
  · cases declared : g.block with
    | none => simp [declared] at block
    | some b =>
      rw [declared] at block
      exact Mention.ofBlock_tellsLookup b m block

theorem only_danglingNames (g : Graph) : Only .lookup g.danglingNames := by
  constructor
  intro d member
  obtain ⟨m, present, dangling⟩ := List.mem_filterMap.mp member
  have tells := g.mentions_tellLookup m present
  cases m with
  | type m =>
    simp only [Names.dangling?] at dangling
    split at dangling
    · cases dangling
    · cases dangling
      exact tells
  | directive m =>
    simp only [Names.dangling?] at dangling
    split at dangling
    · cases dangling
    · cases dangling
      rfl

/-! Rules. -/

end Graph

/-- What the rules for interfaces can report. Types of arguments are held against each other only if
they differ. -/
inductive Problem.OfConformance : Problem → Prop
  | implementsNonInterface (kind : TypeKind) (type : String) (targetKind : TypeKind)
    (target : String) : OfConformance (.implementsNonInterface kind type targetKind target)
  | invalidInterfaceFieldType (element : ElementPath) (expected found : TypeUse)
    (interface : String) :
    OfConformance (.invalidInterfaceFieldType element expected found interface)
  | interfaceArgumentMismatch (element : ElementPath) {expected found : TypeUse}
    (differs : found.equivalent expected = false) (interface : String) :
    OfConformance (.interfaceArgumentMismatch element expected found interface)
  | missingInterfaceArgument (argument : String) (element : ElementPath) (interface : String) :
    OfConformance (.missingInterfaceArgument argument element interface)
  | missingInterfaceField (kind : TypeKind) (type field interface : String) :
    OfConformance (.missingInterfaceField kind type field interface)
  | missingTransitiveInterface (kind : TypeKind) (type missing interface : String) :
    OfConformance (.missingTransitiveInterface kind type missing interface)
  | requiredExtraArgument (element : ElementPath) (interface : String) :
    OfConformance (.requiredExtraArgument element interface)
  | selfImplementingInterface (interface : String) :
    OfConformance (.selfImplementingInterface interface)

theorem Problem.OfConformance.concern {p : Problem} (conformance : p.OfConformance) :
    p.concern = .conformance := by
  cases conformance <;> rfl

open Problem (OfConformance)

namespace Graph

theorem only_suppliedArgument (g : Graph) (owner : ElementPath) (u : Usage) (d : DirectiveDef)
    (a : String × Value) : Only .usage (g.suppliedArgument owner u d a) := by
  unfold suppliedArgument
  split
  · simp [usageArgumentProblem, Problem.concern]
  · split
    · simp [usageArgumentProblem, Problem.concern]
    · split <;> simp [usageArgumentProblem, Problem.concern]

theorem only_usageProblems (g : Graph) (location : DirectiveLocation) (owner : ElementPath)
    (repeated : Bool) (u : Usage) (d : DirectiveDef) :
    Only .usage (g.usageProblems location owner repeated u d) := by
  simp only [usageProblems, only_append]
  refine ⟨⟨⟨?_, ?_⟩, ?_⟩, ?_⟩
  · split <;> simp [usageProblem, Problem.concern]
  · split <;> simp [usageProblem, Problem.concern]
  · exact only_flatMap fun a _ => g.only_suppliedArgument owner u d a
  · exact only_map fun e => rfl

theorem only_checkUsages (g : Graph) (location : DirectiveLocation) (owner : ElementPath)
    (us : List Usage) : Only .usage (g.checkUsages location owner us) := by
  have from_seen (seen : List DirectiveId) :
      Only .usage (g.checkUsagesFrom location owner seen us) := by
    induction us generalizing seen with
    | nil => simp [checkUsagesFrom]
    | cons u rest ih =>
      rw [checkUsagesFrom]
      split
      · exact ih seen
      · exact only_append.mpr ⟨g.only_usageProblems .., ih _⟩
  exact from_seen []

theorem each_fieldConformance (g : Graph) (interface : String) (path : ElementPath)
    (f declared : Field) : Each OfConformance (g.fieldConformance interface path f declared) := by
  simp only [fieldConformance, each_append]
  refine ⟨⟨each_flatMap fun e _ => ?_, each_map fun e => .requiredExtraArgument ..⟩, ?_⟩
  · unfold declaredArgument
    split
    · simpa using .missingInterfaceArgument _ _ _
    · split
      · exact each_nil
      · next differs => simpa using .interfaceArgumentMismatch _ (by simpa using differs) _
  · split
    · exact each_nil
    · simpa using .invalidInterfaceFieldType _ _ _ _

/-- Everything that the rules for interfaces report on a type. -/
theorem each_checkInterfaces (g : Graph) (t : TypeId) (d : TypeDef) (shape : Shape) :
    Each OfConformance (g.checkInterfaces t d shape) := by
  have field (interface : String) (e : String × Field) :
      Each OfConformance (g.declaredField t d shape interface e) := by
    unfold declaredField
    split
    · exact g.each_fieldConformance ..
    · simpa using .missingInterfaceField _ _ _ _
  have from_demanded (refs : List (String × TypeRef)) (demanded : List String) :
      Each OfConformance
        (g.interfaceProblems t d shape (g.declaredField t d shape) demanded refs) := by
    induction refs generalizing demanded with
    | nil => simp [interfaceProblems]
    | cons e rest ih =>
      rw [interfaceProblems]
      split
      · exact ih demanded
      · split
        · exact each_cons.mpr ⟨.implementsNonInterface .., ih demanded⟩
        · split
          · exact ih demanded
          · simp only [each_append]
            exact ⟨⟨each_map fun _ => .missingTransitiveInterface ..,
              each_flatMap fun e _ => field _ e⟩, ih _⟩
  rw [checkInterfaces, each_append]
  refine ⟨?_, from_demanded _ _⟩
  split
  · simpa using .selfImplementingInterface _
  · exact each_nil

theorem only_checkInterfaces (g : Graph) (t : TypeId) (d : TypeDef) (shape : Shape) :
    Only .conformance (g.checkInterfaces t d shape) :=
  (g.each_checkInterfaces t d shape).only fun _ conformance => conformance.concern

theorem only_inputCycles (g : Graph) : Only .cycle g.inputCycles := only_map fun _ => rfl

theorem only_directiveCycles (g : Graph) : Only .cycle g.directiveCycles := only_map fun _ => rfl

/-! The root. -/

theorem only_bindOperation (g : Graph) (s : Binding) (o : OperationBinding) :
    Only .root (g.bindOperation s o).problems := by
  simp only [bindOperation]
  split
  · simp [Problem.concern]
  · split
    · simp
    · split
      · simp [Problem.concern]
      · split <;> simp [Problem.concern]

theorem only_declaredRoot (g : Graph) (block : SchemaBlock) :
    Only .root (g.declaredRoot block).problems := by
  simp only [declaredRoot]
  split
  · simp [Problem.concern]
  · rw [Reported.bind_problems, only_append]
    refine ⟨only_through g.only_bindOperation _ _, ?_⟩
    split
    · simp [Problem.concern]
    · split <;> simp

theorem only_detectOperation (g : Graph) (kind : OperationKind) :
    Only .root (g.detectOperation kind).problems := by
  have candidate (t : TypeId) : Only .root (g.rootCandidate kind t).problems := by
    simp only [rootCandidate]
    split
    · simp
    · split
      · simp [Problem.concern]
      · split <;> simp [Problem.concern]
  simp only [detectOperation]
  split
  · simp
  · simp [candidate]

theorem only_detectedRoot (g : Graph) (required : Bool) :
    Only .root (g.detectedRoot required).problems := by
  have recording (g : Graph) (e : OperationKind × TypeId) :
      Only .root (recordRoot g e).problems := by
    simp only [recordRoot]
    split <;> simp
  simp only [detectedRoot]
  rw [Reported.bind_problems, only_append, Reported.each_problems]
  refine ⟨only_flatMap fun kind _ => g.only_detectOperation kind, ?_⟩
  split
  · split <;> simp [Reported.problems, Event.problem?, Problem.concern]
  · simp
  · simp only [Reported.bind_problems, Reported.pure_problems, List.append_nil]
    exact only_through recording _ _

theorem only_resolveRoot (g : Graph) (required : Bool) :
    Only .root (g.resolveRoot required).problems := by
  rw [resolveRoot_problems]
  split
  · exact g.only_declaredRoot _
  · exact g.only_detectedRoot required

end Graph

end SchemaAtlas
