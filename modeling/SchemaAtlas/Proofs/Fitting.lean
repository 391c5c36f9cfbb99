import SchemaAtlas.Proofs.Inhabitation

/-!
# Values that fit, by rules

The rules that say which values may stand for a type, one for each kind of value and type, with the
literals of the built-in scalars in a table of their own. A value is found to fit exactly if this
can be derived from the rules.

Types may refer to themselves, and so may the questions that the rules lead to. Each of them is
about a smaller value, or about the same value and a smaller type. So no chain of questions goes on
forever.
-/

namespace SchemaAtlas

/-- The literals of each built-in scalar. -/
inductive ScalarLiteral : String → Value → Prop
  | boolean (b : Bool) : ScalarLiteral "Boolean" (.boolean b)
  | float (x : Float) : ScalarLiteral "Float" (.float x)
  | wholeFloat (n : Int) : ScalarLiteral "Float" (.int n)
  | numberId (n : Int) : ScalarLiteral "ID" (.int n)
  | textId (s : String) : ScalarLiteral "ID" (.string s)
  | int (n : Int) (least : -2147483648 ≤ n) (greatest : n ≤ 2147483647) :
    ScalarLiteral "Int" (.int n)
  | string (s : String) : ScalarLiteral "String" (.string s)

theorem ScalarLiteral.mem_scalarNames {name : String} {v : Value}
    (literal : ScalarLiteral name v) : name ∈ BuiltIn.scalarNames := by
  cases literal <;> decide

def Value.isVar : Value → Bool
  | var _ => true
  | _ => false

theorem ScalarLiteral.constant {name : String} {v : Value} (literal : ScalarLiteral name v) :
    v.isNull = false ∧ v.vars = [] := by
  cases literal <;> exact ⟨rfl, rfl⟩

theorem Value.isVar_of_vars {v : Value} (constant : v.vars = []) : v.isVar = false := by
  cases v with
  | var => cases constant
  | _ => rfl

theorem Value.eq_null {v : Value} (null : v.isNull = true) : v = .null := by
  cases v with
  | null => rfl
  | _ => cases null

theorem Value.eq_list {v : Value} (given : v.isNull = false) (many : v.isItem = false) :
    ∃ vs, v = .list vs := by
  cases v with
  | list vs => exact ⟨vs, rfl⟩
  | null => cases given
  | _ => cases many

/-- When a value fits a type. -/
inductive Fits (types : Table TypeDef) : TypeUse → Value → Prop
  | null {a : TypeUse} (nullable : a.isNonNull = false) : Fits types a .null
  | nonNull {a : TypeUse} {v : Value} (given : v.isNull = false) (inner : Fits types a v) :
    Fits types (.nonNull a) v
  | items {a : TypeUse} {vs : List Value} (each : ∀ v ∈ vs, Fits types a v) :
    Fits types (.list a) (.list vs)
  /-- One item stands for a list of it. -/
  | single {a : TypeUse} {v : Value} (item : v.isItem = true) (only : Fits types a v) :
    Fits types (.list a) v
  /-- A name without a definition is reported elsewhere. -/
  | undefined {ref : TypeRef} {v : Value} (given : v.isNull = false)
    (unknown : types.get? ref.name = none) : Fits types (.named ref) v
  | builtIn {ref : TypeRef} {d : TypeDef} {v : Value} (known : types.get? ref.name = some d)
    (literal : ScalarLiteral ref.name v) : Fits types (.named ref) v
  /-- Other scalars take anything but null and variables, whatever is inside. -/
  | custom {ref : TypeRef} {d : TypeDef} {v : Value} (known : types.get? ref.name = some d)
    (scalar : d.body = .scalar) (own : ref.name ∉ BuiltIn.scalarNames) (given : v.isNull = false)
    (constant : v.isVar = false) : Fits types (.named ref) v
  | enumName {ref : TypeRef} {d : TypeDef} {values : Table EnumValue} {name : String}
    (known : types.get? ref.name = some d) (body : d.body = .enum values)
    (listed : name ∈ values.keys) : Fits types (.named ref) (.enum name)
  | enumText {ref : TypeRef} {d : TypeDef} {values : Table EnumValue} {name : String}
    (known : types.get? ref.name = some d) (body : d.body = .enum values)
    (listed : name ∈ values.keys) : Fits types (.named ref) (.string name)
  | object {ref : TypeRef} {d : TypeDef} {fields : Table InputValue}
    {entries : List (String × Value)} (known : types.get? ref.name = some d)
    (body : d.body = .inputObject fields) (declared : ∀ e ∈ entries, e.1 ∈ fields.keys)
    (present : ∀ f ∈ fields.values, ∀ v, entries.lookup f.name = some v → Fits types f.type v)
    (absent : ∀ f ∈ fields.values, entries.lookup f.name = none →
      ¬ (f.type.isNonNull = true ∧ f.default = none)) : Fits types (.named ref) (.object entries)

/-- The questions that come up on the way to an answer: whether the second value fits the second
type depends on whether the first fits the first. -/
inductive Asks (types : Table TypeDef) : TypeUse × Value → TypeUse × Value → Prop
  | nonNull (a : TypeUse) (v : Value) : Asks types (a, v) (.nonNull a, v)
  | item {a : TypeUse} {vs : List Value} {v : Value} (member : v ∈ vs) :
    Asks types (a, v) (.list a, .list vs)
  | single {a : TypeUse} {v : Value} (item : v.isItem = true) : Asks types (a, v) (.list a, v)
  | entry {ref : TypeRef} {d : TypeDef} {fields : Table InputValue} {f : InputValue}
    {entries : List (String × Value)} {v : Value} (known : types.get? ref.name = some d)
    (body : d.body = .inputObject fields) (declared : f ∈ fields.values)
    (found : entries.lookup f.name = some v) : Asks types (f.type, v) (.named ref, .object entries)

theorem mem_of_lookup {α : Type} {entries : List (String × α)} {name : String} {a : α}
    (found : entries.lookup name = some a) : (name, a) ∈ entries := by
  obtain ⟨before, after, rfl, _⟩ := List.lookup_eq_some_iff.mp found
  simp

/-- The value gets smaller, or it stays and the type gets smaller. -/
theorem asks_wellFounded (types : Table TypeDef) : WellFounded (Asks types) := by
  have sizes : WellFounded (InvImage (Prod.Lex (· < ·) (· < ·))
      fun q : TypeUse × Value => (sizeOf q.2, sizeOf q.1)) :=
    InvImage.wf _ (WellFounded.prod_lex Nat.lt_wfRel.wf Nat.lt_wfRel.wf)
  refine Subrelation.wf ?_ sizes
  intro q q' asked
  cases asked with
  | nonNull a v =>
    apply Prod.Lex.right
    simp
  | item member =>
    apply Prod.Lex.left
    have smaller := List.sizeOf_lt_of_mem member
    simp only [Value.list.sizeOf_spec]
    omega
  | single item =>
    apply Prod.Lex.right
    simp
  | @entry ref d fields f entries v known body declared found =>
    apply Prod.Lex.left
    have smaller := List.sizeOf_lt_of_mem (mem_of_lookup found)
    simp only [Value.object.sizeOf_spec, Prod.mk.sizeOf_spec] at smaller ⊢
    omega

/-! The test of a value, one question at a time. -/

namespace Value

variable (types : Table TypeDef)

theorem allFit_eq (vs : List Value) (a : TypeUse) :
    allFit types vs a = vs.all fun v => v.fits types a := by
  induction vs with
  | nil => rfl
  | cons v rest ih => rw [List.all_cons, ← ih, allFit]

theorem null_fits (a : TypeUse) : null.fits types a = !a.isNonNull := by
  cases a <;> simp [fits, TypeUse.admits, TypeUse.isNonNull]

theorem fits_nonNull (v : Value) (a : TypeUse) :
    v.fits types (.nonNull a) = (!v.isNull && v.fits types a) := by
  cases v <;> rfl

theorem list_fits_list (vs : List Value) (a : TypeUse) :
    (list vs).fits types (.list a) = vs.all fun v => v.fits types a := by
  simp [fits, TypeUse.admits, allFit_eq]

theorem fits_list_of_isItem {v : Value} (item : v.isItem = true) (a : TypeUse) :
    v.fits types (.list a) = v.fits types a := by
  rw [fits_innermost types item, fits_innermost types item a]
  rfl

end Value

theorem builtInFits_iff {name : String} {v : Value} :
    builtInFits name v = true ↔ ScalarLiteral name v := by
  constructor
  · intro fit
    cases v with
    | boolean b =>
      obtain rfl := eq_of_beq fit
      exact .boolean b
    | float x =>
      obtain rfl := eq_of_beq fit
      exact .float x
    | int n =>
      simp only [builtInFits, Value.fitsInt32, Bool.or_eq_true, Bool.and_eq_true, beq_iff_eq,
        decide_eq_true_eq] at fit
      rcases fit with (rfl | rfl) | ⟨rfl, least, greatest⟩
      · exact .wholeFloat n
      · exact .numberId n
      · exact .int n least greatest
    | string s =>
      simp only [builtInFits, Bool.or_eq_true, beq_iff_eq] at fit
      rcases fit with rfl | rfl
      · exact .textId s
      · exact .string s
    | _ => cases fit
  · intro literal
    cases literal with
    | int n least greatest =>
      have narrow : Value.fitsInt32 n = true := by simp [Value.fitsInt32, least, greatest]
      simp [builtInFits, narrow]
    | _ => simp [builtInFits]

/-- Types under their own names, of which the built-in scalars and no others are built in. -/
structure Table.Standard (types : Table TypeDef) : Prop extends types.Keyed TypeDef.name where
  builtIn : ∀ d ∈ types.values, d.builtIn = true ↔ d.name ∈ BuiltIn.scalarNames
  scalar : ∀ d ∈ types.values, d.builtIn = true → d.body = .scalar

namespace Table.Standard

variable {types : Table TypeDef} (standard : types.Standard) {ref : TypeRef} {d : TypeDef}
include standard

theorem mem_values {name : String} (known : types.get? name = some d) :
    d ∈ types.values ∧ d.name = name := by
  have entry := (get?_eq_some_iff standard.distinct name d).mp known
  exact ⟨List.mem_map_of_mem entry, standard.named _ entry⟩

theorem builtIn_iff {name : String} (known : types.get? name = some d) :
    d.builtIn = true ↔ name ∈ BuiltIn.scalarNames := by
  obtain ⟨member, rfl⟩ := standard.mem_values known
  exact standard.builtIn d member

/-- A literal of a built-in scalar stands for a scalar. -/
theorem scalar_of_literal (known : types.get? ref.name = some d) {v : Value}
    (literal : ScalarLiteral ref.name v) : d.body = .scalar := by
  have builtIn := (standard.builtIn_iff known).mpr literal.mem_scalarNames
  exact standard.scalar d (standard.mem_values known).1 builtIn

theorem fits_undefined (unknown : types.get? ref.name = none) {v : Value}
    (given : v.isNull = false) : v.fits types (.named ref) = true := by
  have looked : lookupRef types ref = none := by rw [lookupRef_eq_get? standard.distinct, unknown]
  cases v with
  | null => cases given
  | _ => simp [Value.fits, TypeUse.admits, leafFits, looked]

variable (known : types.get? ref.name = some d)
include known

theorem lookupRef : lookupRef types ref = some d := by
  rw [lookupRef_eq_get? standard.distinct, known]

theorem fits_scalar (body : d.body = .scalar) {v : Value} (given : v.isNull = false) :
    v.fits types (.named ref) = (!v.isVar && d.scalarFits v) := by
  have looked := standard.lookupRef known
  cases v with
  | null => cases given
  | _ => simp [Value.fits, TypeUse.admits, leafFits, looked, body, Value.isVar]

theorem fits_enum_iff {values : Table EnumValue} (body : d.body = .enum values) {v : Value}
    (given : v.isNull = false) :
    v.fits types (.named ref) = true ↔ ∃ name ∈ values.keys, v = .enum name ∨ v = .string name := by
  have looked := standard.lookupRef known
  cases v with
  | null => cases given
  | _ => simp [Value.fits, TypeUse.admits, leafFits, looked, body, Table.contains_iff_mem]

theorem fits_object_iff {fields : Table InputValue} (body : d.body = .inputObject fields)
    {v : Value} (given : v.isNull = false) :
    v.fits types (.named ref) = true ↔ ∃ entries, v = .object entries ∧
      (∀ e ∈ entries, e.1 ∈ fields.keys) ∧ ∀ f ∈ fields.values,
        (∀ w, entries.lookup f.name = some w → w.fits types f.type = true) ∧
          (entries.lookup f.name = none → f.isRequired = false) := by
  have looked := standard.lookupRef known
  cases v with
  | null => cases given
  | object entries =>
    have tests (name : String) : (Value.entryTests types entries).lookup name =
        (entries.lookup name).map fun w => w.fits types := by
      rw [Value.entryTests_eq]
      exact Table.get?_map (fun w => w.fits types) ⟨entries⟩ name
    have keys : ((Value.entryTests types entries).all fun e => fields.contains e.1) = true ↔
        ∀ e ∈ entries, e.1 ∈ fields.keys := by
      simp [Value.entryTests_eq, Table.contains_iff_mem]
    simp only [Value.fits, TypeUse.admits, leafFits, looked, body, Bool.false_or, tests, keys,
      Bool.and_eq_true, List.all_eq_true, Value.object.injEq, exists_eq_left']
    refine and_congr_right fun _ => forall₂_congr fun f _ => ?_
    cases entries.lookup f.name <;> simp
  | _ => simp [Value.fits, TypeUse.admits, leafFits, looked, body]

/-- Objects, interfaces and unions take no value. -/
theorem not_fits_output (output : d.kind.isInput = false) {v : Value} (given : v.isNull = false) :
    v.fits types (.named ref) = false := by
  have looked := standard.lookupRef known
  cases body : d.body with
  | interface shape | object shape | union members =>
    cases v with
    | null => cases given
    | _ => simp [Value.fits, TypeUse.admits, leafFits, looked, body]
  | _ => simp [TypeDef.kind, body, TypeBody.kind, TypeKind.isInput] at output

end Table.Standard

/-! What the rules say of a type, by its wrapper and by its kind. -/

namespace Fits

theorem null_iff {types : Table TypeDef} {a : TypeUse} :
    Fits types a .null ↔ a.isNonNull = false := by
  constructor
  · intro rule
    cases rule with
    | null nullable => exact nullable
    | nonNull given | undefined given | custom _ _ _ given => cases given
    | single item => cases item
    | builtIn _ literal => cases literal.constant.1
  · exact .null

theorem nonNull_iff {types : Table TypeDef} {a : TypeUse} {v : Value} :
    Fits types (.nonNull a) v ↔ v.isNull = false ∧ Fits types a v := by
  constructor
  · intro rule
    cases rule with
    | null nullable => cases nullable
    | nonNull given inner => exact ⟨given, inner⟩
  · rintro ⟨given, inner⟩
    exact .nonNull given inner

theorem items_iff {types : Table TypeDef} {a : TypeUse} {vs : List Value} :
    Fits types (.list a) (.list vs) ↔ ∀ v ∈ vs, Fits types a v := by
  constructor
  · intro rule
    cases rule with
    | items each => exact each
    | single item => cases item
  · exact .items

theorem single_iff {types : Table TypeDef} {a : TypeUse} {v : Value} (item : v.isItem = true) :
    Fits types (.list a) v ↔ Fits types a v := by
  constructor
  · intro rule
    cases rule with
    | null | items => cases item
    | single _ only => exact only
  · exact .single item

variable {types : Table TypeDef} (standard : types.Standard) {ref : TypeRef} {d : TypeDef}
  (known : types.get? ref.name = some d) {v : Value} (given : v.isNull = false)
include standard known given

theorem scalar_iff (body : d.body = .scalar) :
    Fits types (.named ref) v ↔
      v.isVar = false ∧ (d.builtIn = false ∨ ScalarLiteral ref.name v) := by
  have listed := standard.builtIn_iff known
  constructor
  · intro rule
    cases rule with
    | null => cases given
    | undefined _ unknown => cases known.symm.trans unknown
    | builtIn _ literal => exact ⟨v.isVar_of_vars literal.constant.2, .inr literal⟩
    | custom _ _ own _ constant => exact ⟨constant, .inl (by simpa [← listed] using own)⟩
    | enumName known' body' | enumText known' body' | object known' body' =>
      cases known.symm.trans known'
      cases body.symm.trans body'
  · rintro ⟨constant, own | literal⟩
    · exact .custom known body (by simp [← listed, own]) given constant
    · exact .builtIn known literal

theorem enum_iff {values : Table EnumValue} (body : d.body = .enum values) :
    Fits types (.named ref) v ↔ ∃ name ∈ values.keys, v = .enum name ∨ v = .string name := by
  constructor
  · intro rule
    cases rule with
    | null => cases given
    | undefined _ unknown => cases known.symm.trans unknown
    | builtIn _ literal => cases body.symm.trans (standard.scalar_of_literal known literal)
    | custom known' body' =>
      cases known.symm.trans known'
      cases body.symm.trans body'
    | enumName known' body' listed =>
      cases known.symm.trans known'
      cases body.symm.trans body'
      exact ⟨_, listed, .inl rfl⟩
    | enumText known' body' listed =>
      cases known.symm.trans known'
      cases body.symm.trans body'
      exact ⟨_, listed, .inr rfl⟩
    | object known' body' =>
      cases known.symm.trans known'
      cases body.symm.trans body'
  · rintro ⟨name, listed, rfl | rfl⟩
    · exact .enumName known body listed
    · exact .enumText known body listed

theorem object_iff {fields : Table InputValue} (body : d.body = .inputObject fields) :
    Fits types (.named ref) v ↔ ∃ entries, v = .object entries ∧
      (∀ e ∈ entries, e.1 ∈ fields.keys) ∧ ∀ f ∈ fields.values,
        (∀ w, entries.lookup f.name = some w → Fits types f.type w) ∧
          (entries.lookup f.name = none → f.isRequired = false) := by
  constructor
  · intro rule
    cases rule with
    | null => cases given
    | undefined _ unknown => cases known.symm.trans unknown
    | builtIn _ literal => cases body.symm.trans (standard.scalar_of_literal known literal)
    | custom known' body' | enumName known' body' | enumText known' body' =>
      cases known.symm.trans known'
      cases body.symm.trans body'
    | object known' body' declared present absent =>
      cases known.symm.trans known'
      cases body.symm.trans body'
      refine ⟨_, rfl, declared, fun f member => ⟨present f member, fun missing => ?_⟩⟩
      have optional := absent f member missing
      rw [InputValue.isRequired, Bool.and_eq_false_imp]
      intro nonNull
      cases given' : f.default with
      | none => exact absurd ⟨nonNull, given'⟩ optional
      | some x => rfl
  · rintro ⟨entries, rfl, declared, each⟩
    refine .object known body declared (fun f member => (each f member).1) ?_
    rintro f member missing ⟨nonNull, none⟩
    have optional := (each f member).2 missing
    simp [InputValue.isRequired, nonNull, none] at optional

theorem not_output (output : d.kind.isInput = false) : ¬ Fits types (.named ref) v := by
  intro rule
  rw [TypeDef.kind] at output
  cases rule with
  | null => cases given
  | undefined _ unknown => cases known.symm.trans unknown
  | builtIn _ literal =>
    rw [standard.scalar_of_literal known literal] at output
    cases output
  | custom known' body' | enumName known' body' | enumText known' body' | object known' body' =>
    cases known.symm.trans known'
    rw [body'] at output
    cases output

end Fits

namespace Table.Standard

variable {types : Table TypeDef} (standard : types.Standard)
include standard

theorem fits_named_iff {ref : TypeRef} {v : Value} (given : v.isNull = false)
    (asked : ∀ b w, Asks types (b, w) (.named ref, v) → (w.fits types b = true ↔ Fits types b w)) :
    v.fits types (.named ref) = true ↔ Fits types (.named ref) v := by
  cases known : types.get? ref.name with
  | none => simp only [standard.fits_undefined known given, Fits.undefined given known]
  | some d =>
    cases body : d.body with
    | scalar =>
      rw [standard.fits_scalar known body given, Fits.scalar_iff standard known given body,
        TypeDef.scalarFits, ← (standard.mem_values known).2, ← builtInFits_iff]
      simp
    | enum values =>
      rw [standard.fits_enum_iff known body given, Fits.enum_iff standard known given body]
    | inputObject fields =>
      rw [standard.fits_object_iff known body given, Fits.object_iff standard known given body]
      refine exists_congr fun entries => and_congr_right ?_
      rintro rfl
      refine and_congr_right fun _ => forall₂_congr fun f member => and_congr_left fun _ => ?_
      exact forall₂_congr fun w found => asked f.type w (.entry known body member found)
    | interface shape | object shape | union members =>
      have output : d.kind.isInput = false := by rw [TypeDef.kind, body]; rfl
      simp [standard.not_fits_output known output given,
        Fits.not_output standard known given output]

/-- By induction along the questions that a question leads to. -/
theorem fits_iff (a : TypeUse) (v : Value) : v.fits types a = true ↔ Fits types a v := by
  suffices every : ∀ q : TypeUse × Value, q.2.fits types q.1 = true ↔ Fits types q.1 q.2 from
    every (a, v)
  intro q
  induction q using (asks_wellFounded types).induction with
  | _ q ih =>
    obtain ⟨a, v⟩ := q
    have asked : ∀ b w, Asks types (b, w) (a, v) → (w.fits types b = true ↔ Fits types b w) :=
      fun b w question => ih (b, w) question
    cases null : v.isNull with
    | true =>
      obtain rfl := Value.eq_null null
      simp [Value.null_fits, Fits.null_iff]
    | false =>
      cases a with
      | named ref => exact standard.fits_named_iff null asked
      | nonNull inner =>
        rw [Fits.nonNull_iff, Value.fits_nonNull, ← asked inner v (.nonNull inner v)]
        simp [null]
      | list item =>
        cases single : v.isItem with
        | true =>
          rw [Fits.single_iff single, Value.fits_list_of_isItem types single]
          exact asked item v (.single single)
        | false =>
          obtain ⟨vs, rfl⟩ := Value.eq_list null single
          rw [Fits.items_iff, Value.list_fits_list, List.all_eq_true]
          exact forall₂_congr fun w member => asked item w (.item member)

end Table.Standard

section Accepted

variable {required : Bool} {buffer : List (Option String × Declaration)}

/-- What is built in is known by its name: each built-in scalar stands in the table, and no other
type has its name. -/
theorem builtIn_iff_name
    (collected : (Graph.collect (BuiltIn.declarations ++ given buffer)).problems = [])
    {e : String × TypeDef} (member : e ∈ (Graph.described (given buffer)).types.entries) :
    e.2.builtIn = true ↔ e.1 ∈ BuiltIn.scalarNames := by
  refine ⟨name_of_builtIn collected member, fun listed => ?_⟩
  obtain ⟨base, own, split, standard, scalars, _⟩ := described_types collected
  have names : base.map Prod.fst = BuiltIn.scalarNames := by
    have keys := congrArg (List.map Prod.fst) standard
    simpa [builtInTypes_eq, Function.comp_def] using keys
  rw [← names] at listed
  obtain ⟨x, first, same⟩ := List.mem_map.mp listed
  have stored : x ∈ (Graph.described (given buffer)).types.entries := by
    rw [split]
    exact List.mem_append_left _ first
  have distinct := (Graph.described_fresh (given buffer)).types.distinct
  obtain rfl : x = e := List.inj_on_of_nodup_map distinct stored member same
  exact (scalars x first).1

theorem Sound.standard (sound : Sound required (given buffer)) :
    (Graph.described (given buffer)).resolved.types.Standard := by
  have fresh := Graph.described_fresh (given buffer)
  -- a type of the schema is a collected one with its names looked up
  have source : ∀ e ∈ (Graph.described (given buffer)).resolved.types.entries, ∃ t,
      ∃ x ∈ (Graph.described (given buffer)).types.entries,
        e = (x.1, (Graph.described (given buffer)).resolvedType t x.2) := by
    intro e member
    obtain ⟨i, entry⟩ := (Table.mem_entries_iff _ e).mp member
    rw [Graph.resolved_types_at?, Option.map_eq_some_iff] at entry
    obtain ⟨x, entry, rfl⟩ := entry
    exact ⟨⟨i⟩, x, (Table.mem_entries_iff _ x).mpr ⟨i, entry⟩, rfl⟩
  refine ⟨⟨?_, ?_⟩, ?_, ?_⟩
  · rw [Graph.resolved_types_keys]
    exact fresh.types.distinct
  · intro e member
    obtain ⟨t, x, stored, rfl⟩ := source e member
    exact fresh.types.named x stored
  · intro d member
    obtain ⟨e, entry, rfl⟩ := List.mem_map.mp member
    obtain ⟨t, x, stored, rfl⟩ := source e entry
    have named : x.2.name = x.1 := fresh.types.named x stored
    exact (builtIn_iff_name sound.collected stored).trans (by rw [← named]; rfl)
  · intro d member builtIn
    obtain ⟨e, entry, rfl⟩ := List.mem_map.mp member
    obtain ⟨t, x, stored, rfl⟩ := source e entry
    have scalar := scalar_of_builtIn sound.collected stored builtIn
    simp only [Graph.resolvedType, scalar]
    rfl

end Accepted

/-- Questions about values come to an end, even where types refer to themselves, and a value fits a
type exactly if the rules say so. -/
theorem fits_iff_rules (types : Table TypeDef) (standard : types.Standard) :
    WellFounded (Asks types) ∧ ∀ a v, v.fits types a = true ↔ Fits types a v :=
  ⟨asks_wellFounded types, standard.fits_iff⟩

/-- A filter inside a filter, with one amount in place of a whole number and one unit as a text. -/
def nestedFilter : Value :=
  .object [
    ("any", .object [
      ("any", .list []),
      ("range", .object [
        ("least", .object [("unit", .string "GRAM"), ("value", .int 3000000000)])])]),
    ("range", .object [
      ("least", .object [("unit", .enum "GRAM"), ("value", .float 0.5)]), ("most", .null)])]

/-- In the search form, filters contain filters. The rules accept a filter with everything that is
required, and refuse one whose range is null. -/
theorem fits_iff_rules_searchForm :
    ∃ s, (analyze true (given searchForm)).result = .ok s ∧ s.types.Standard ∧
      WellFounded (Asks s.types) ∧
      Fits s.types (.named ⟨"Filter", .builtIn, none⟩) nestedFilter ∧
      ¬ Fits s.types (.named ⟨"Filter", .builtIn, none⟩)
        (.object [("any", .list []), ("range", .null)]) := by
  obtain ⟨s, accepted, evaluated⟩ : ∃ s, (analyze true (given searchForm)).result = .ok s ∧
      (nestedFilter.fits s.types (.named ⟨"Filter", .builtIn, none⟩) &&
        !(Value.object [("any", .list []), ("range", .null)]).fits s.types
          (.named ⟨"Filter", .builtIn, none⟩)) = true :=
    exists_of_any (by decide +kernel)
  simp only [Bool.and_eq_true, Bool.not_eq_true'] at evaluated
  have standard : s.types.Standard := by
    obtain ⟨sound, rfl⟩ := (analyze_eq_ok_iff_sound true (given searchForm) s).mp accepted
    exact sound.standard
  obtain ⟨finite, decides⟩ := fits_iff_rules s.types standard
  refine ⟨s, accepted, standard, finite, (decides _ _).mp evaluated.1, fun fit => ?_⟩
  cases evaluated.2.symm.trans ((decides _ _).mpr fit)

end SchemaAtlas
