import SchemaAtlas.Proofs.HeldValues
import SchemaAtlas.Proofs.Stability

/-!
# Values that are written and read again

A value is written as a literal, and the literal is read as a value. In between, an integer outside
of 32 bits turns into a floating-point number. Custom scalars take both, and so does `Float`; `Int`
takes neither. But `ID` takes integers of any size and no floating-point number. This is all that
can go wrong: the value that is read fits the type of the value that was written, unless a wide
integer in it is given for an `ID`.
-/

namespace SchemaAtlas

open Relation (ReflTransGen)

/-- The integers that are given for an `ID`, at any depth, fit in 32 bits. -/
def NarrowIds (types : Table TypeDef) (q : TypeUse × Value) : Prop :=
  ∀ ref n, ReflTransGen (Asks types) (.named ref, .int n) q → ref.name = "ID" →
    Value.fitsInt32 n = true

/-- The name of a type other than an input object leads to no further questions. -/
theorem not_asked_of_leaf {types : Table TypeDef} {ref : TypeRef} {d : TypeDef}
    (known : types.get? ref.name = some d) (leaf : d.inputFields? = none) (v : Value)
    (q : TypeUse × Value) : ¬ Asks types q (.named ref, v) := by
  intro question
  cases question with
  | entry known' body =>
    cases known.symm.trans known'
    rw [TypeDef.inputFields?, body] at leaf
    cases leaf

namespace NarrowIds

variable {types : Table TypeDef} {q : TypeUse × Value} {a : TypeUse} {v : Value} {ref : TypeRef}

theorem iff_asked : NarrowIds types q ↔
    (∀ ref n, q = (.named ref, .int n) → ref.name = "ID" → Value.fitsInt32 n = true) ∧
      ∀ q', Asks types q' q → NarrowIds types q' := by
  constructor
  · intro narrow
    exact ⟨fun ref n same => narrow ref n (same ▸ .refl),
      fun q' question ref n path => narrow ref n (path.tail question)⟩
  · rintro ⟨here, below⟩ ref n path named
    rcases path.cases_tail with same | ⟨q', path, question⟩
    · exact here ref n same named
    · exact below q' question ref n path named

theorem of_asked (other : ∀ ref n, q ≠ (.named ref, .int n))
    (below : ∀ q', Asks types q' q → NarrowIds types q') : NarrowIds types q :=
  iff_asked.mpr ⟨fun ref n same => absurd same (other ref n), below⟩

theorem null (nullable : a.isNonNull = false) : NarrowIds types (a, .null) := by
  refine of_asked nofun fun q' question => ?_
  cases question with
  | nonNull => cases nullable
  | single item => cases item

theorem nonNull_iff : NarrowIds types (.nonNull a, v) ↔ NarrowIds types (a, v) := by
  constructor
  · intro narrow
    exact (iff_asked.mp narrow).2 _ (.nonNull a v)
  · intro narrow
    refine of_asked nofun fun q' question => ?_
    cases question
    exact narrow

theorem items_iff {vs : List Value} :
    NarrowIds types (.list a, .list vs) ↔ ∀ v ∈ vs, NarrowIds types (a, v) := by
  constructor
  · intro narrow v member
    exact (iff_asked.mp narrow).2 _ (.item member)
  · intro narrow
    refine of_asked nofun fun q' question => ?_
    cases question with
    | item member => exact narrow _ member
    | single item => cases item

theorem single_iff (item : v.isItem = true) :
    NarrowIds types (.list a, v) ↔ NarrowIds types (a, v) := by
  constructor
  · intro narrow
    exact (iff_asked.mp narrow).2 _ (.single item)
  · intro narrow
    refine of_asked nofun fun q' question => ?_
    cases question with
    | item => cases item
    | single => exact narrow

theorem leaf_iff (last : ∀ q', ¬ Asks types q' (.named ref, v)) :
    NarrowIds types (.named ref, v) ↔
      ∀ n, v = .int n → ref.name = "ID" → Value.fitsInt32 n = true := by
  rw [iff_asked]
  constructor
  · rintro ⟨here, _⟩ n rfl
    exact here ref n rfl
  · intro narrow
    refine ⟨fun ref' n same => ?_, fun q' question => absurd question (last q')⟩
    cases same
    exact narrow n rfl

theorem object_iff {d : TypeDef} {fields : Table InputValue} {entries : List (String × Value)}
    (known : types.get? ref.name = some d) (body : d.body = .inputObject fields) :
    NarrowIds types (.named ref, .object entries) ↔
      ∀ f ∈ fields.values, ∀ w, entries.lookup f.name = some w → NarrowIds types (f.type, w) := by
  constructor
  · intro narrow f member w found
    exact (iff_asked.mp narrow).2 _ (.entry known body member found)
  · intro narrow
    refine of_asked nofun fun q' question => ?_
    cases question with
    | entry known' body' member found =>
      cases known.symm.trans known'
      cases body.symm.trans body'
      exact narrow _ member _ found

end NarrowIds

/-! What is written for a value. -/

namespace Value

theorem literal_isNull (v : Value) : v.literal.isNull = v.isNull := by
  cases v with
  | int n => rw [literal]; split <;> rfl
  | _ => simp [literal, isNull]

theorem literal_isItem (v : Value) : v.literal.isItem = v.isItem := by
  cases v with
  | int n => rw [literal]; split <;> rfl
  | _ => simp [literal, isItem]

theorem literal_isVar (v : Value) : v.literal.isVar = v.isVar := by
  cases v with
  | int n => rw [literal]; split <;> rfl
  | _ => simp [literal, isVar]

theorem literal_list (items : List Value) : (list items).literal = list (items.map literal) := by
  have each : literalItems items = items.map literal := by
    induction items with
    | nil => rfl
    | cons v rest ih => rw [List.map_cons, ← ih, literalItems]
  rw [literal, each]

theorem literal_object {entries : List (String × Value)} (ascending : Ascending entries) :
    (object entries).literal = object (entries.map fun e => (e.1, e.2.literal)) := by
  have each : literalEntries entries = entries.map fun e => (e.1, e.2.literal) := by
    clear ascending
    induction entries with
    | nil => rfl
    | cons e rest ih => rw [List.map_cons, ← ih, literalEntries]
  have sorted : Ascending (entries.map fun e => (e.1, e.2.literal)) :=
    List.pairwise_map.mpr ascending
  rw [literal, each, sortEntries_of_ascending sorted]

end Value

theorem ScalarLiteral.literal_iff {name : String} {v : Value} (literal : ScalarLiteral name v) :
    ScalarLiteral name v.literal ↔
      ∀ n, v = .int n → name = "ID" → Value.fitsInt32 n = true := by
  cases literal with
  | boolean b => exact ⟨fun _ => nofun, fun _ => .boolean b⟩
  | float x => exact ⟨fun _ => nofun, fun _ => .float x⟩
  | textId s => exact ⟨fun _ => nofun, fun _ => .textId s⟩
  | string s => exact ⟨fun _ => nofun, fun _ => .string s⟩
  | wholeFloat n =>
    refine ⟨fun _ m _ => nofun, fun _ => ?_⟩
    rw [Value.literal]
    split
    · exact .wholeFloat n
    · exact .float _
  | int n least greatest =>
    refine ⟨fun _ m _ => nofun, fun _ => ?_⟩
    have narrow : Value.fitsInt32 n = true := by simp [Value.fitsInt32, least, greatest]
    rw [Value.literal, if_pos narrow]
    exact .int n least greatest
  | numberId n =>
    constructor
    · intro fit m same _
      cases same
      by_contra wide
      rw [Value.literal, if_neg wide, ← builtInFits_iff] at fit
      cases fit
    · intro narrow
      rw [Value.literal, if_pos (narrow n rfl rfl)]
      exact .numberId n

/-- By induction on the rules: what is written for a value that fits does so as well, up to the
integers for `ID`. -/
theorem Fits.literal_iff {types : Table TypeDef} (standard : types.Standard)
    (inputs : types.InputsKnown) {a : TypeUse} {v : Value} (fit : Fits types a v)
    (known : (types.get? a.innermost.name).isSome) (canonical : v.IsCanonical) :
    Fits types a v.literal ↔ NarrowIds types (a, v) := by
  induction fit with
  | null nullable =>
    exact ⟨fun _ => .null nullable, fun _ => .null nullable⟩
  | nonNull given inner ih =>
    rw [Fits.nonNull_iff, Value.literal_isNull, NarrowIds.nonNull_iff, ih known canonical]
    exact and_iff_right given
  | items each ih =>
    rw [Value.literal_list, Fits.items_iff, NarrowIds.items_iff, List.forall_mem_map]
    exact forall₂_congr fun v member =>
      ih v member known ((Value.itemsCanonical_iff _).mp canonical v member)
  | single item only ih =>
    rw [Fits.single_iff (by rw [Value.literal_isItem, item]), NarrowIds.single_iff item,
      ih known canonical]
  | undefined given unknown =>
    rw [TypeUse.innermost, unknown] at known
    cases known
  | @builtIn ref d v defined literal =>
    have scalar := standard.scalar_of_literal defined literal
    have builtIn := (standard.builtIn_iff defined).mpr literal.mem_scalarNames
    have given : v.literal.isNull = false := by rw [v.literal_isNull, literal.constant.1]
    have constant : v.literal.isVar = false := by
      rw [v.literal_isVar, v.isVar_of_vars literal.constant.2]
    have last := not_asked_of_leaf defined (by rw [TypeDef.inputFields?, scalar]) v
    rw [Fits.scalar_iff standard defined given scalar, NarrowIds.leaf_iff last,
      ← literal.literal_iff]
    simp [constant, builtIn]
  | @custom ref d v defined scalar own given constant =>
    have last := not_asked_of_leaf defined (by rw [TypeDef.inputFields?, scalar]) v
    refine ⟨fun _ => (NarrowIds.leaf_iff last).mpr fun n _ id => ?_, fun _ => ?_⟩
    · rw [id] at own
      exact absurd (by decide) own
    · exact .custom defined scalar own (by rw [v.literal_isNull, given])
        (by rw [v.literal_isVar, constant])
  | enumName defined body listed =>
    have last := not_asked_of_leaf defined (by rw [TypeDef.inputFields?, body])
    refine ⟨fun _ => (NarrowIds.leaf_iff (last _)).mpr fun n same => ?_, fun _ => ?_⟩
    · cases same
    · simpa [Value.literal] using Fits.enumName defined body listed
  | enumText defined body listed =>
    have last := not_asked_of_leaf defined (by rw [TypeDef.inputFields?, body])
    refine ⟨fun _ => (NarrowIds.leaf_iff (last _)).mpr fun n same => ?_, fun _ => ?_⟩
    · cases same
    · simpa [Value.literal] using Fits.enumText defined body listed
  | @object ref d fields entries defined body declared present absent ih =>
    have lookup (name : String) : (entries.map fun e => (e.1, e.2.literal)).lookup name =
        (entries.lookup name).map Value.literal := Table.get?_map Value.literal ⟨entries⟩ name
    have each (f : InputValue) (member : f ∈ fields.values) (w : Value)
        (found : entries.lookup f.name = some w) :
        Fits types f.type w.literal ↔ NarrowIds types (f.type, w) :=
      ih f member w found ((inputs _ _ _ defined body).known f member)
        ((Value.entriesCanonical_iff _).mp canonical.2 _ (mem_of_lookup found))
    rw [Value.literal_object canonical.1, NarrowIds.object_iff defined body]
    constructor
    · intro fit f member w found
      obtain ⟨_, same, _, fits⟩ := (Fits.object_iff standard defined rfl body).mp fit
      cases same
      have written : (entries.map fun e => (e.1, e.2.literal)).lookup f.name = some w.literal := by
        rw [lookup, found, Option.map_some]
      exact (each f member w found).mp ((fits f member).1 _ written)
    · intro narrow
      refine .object defined body ?_ (fun f member w found => ?_) fun f member missing => ?_
      · exact List.forall_mem_map.mpr declared
      · rw [lookup, Option.map_eq_some_iff] at found
        obtain ⟨w, found, rfl⟩ := found
        exact (each f member w found).mpr (narrow f member w found)
      · rw [lookup, Option.map_eq_none_iff] at missing
        exact absent f member missing

/-- The values of an accepted schema fit what they are given for, except perhaps on built-in
scalars. A value that fits does so after it is written and read again exactly if no integer outside
of 32 bits is given for an `ID` in it. -/
theorem reread_value_fits_iff (required : Bool) (buffer : List (Option String × Declaration))
    (s : Schema) (accepted : (analyze required (given buffer)).result = .ok s) (place : ValuePlace)
    (v : Value) (held : s.valueAt? place = some v) :
    (isBuiltInType s.types place.owner = false →
      ∃ i, s.declarationAt? place = some i ∧ s.fits i.type v = true) ∧
    ∀ i, s.declarationAt? place = some i → s.fits i.type v = true →
      (s.fits i.type v.literal.canonical = true ↔ NarrowIds s.types (i.type, v)) := by
  obtain ⟨sound, rfl⟩ := (analyze_eq_ok_iff_sound required (given buffer) s).mp accepted
  refine ⟨fun other => ?_, fun i declared fit => ?_⟩
  · obtain ⟨i, declared, fit⟩ := sound.held_fits held other
    exact ⟨i, declared, (sound.standard.fits_iff i.type v).mpr fit⟩
  · have rules := (sound.standard.fits_iff i.type v).mp fit
    rw [Value.canonical_of_isCanonical _ v.isCanonical_literal, Schema.fits,
      sound.standard.fits_iff]
    exact rules.literal_iff sound.standard sound.inputsKnown (sound.declaration_known declared)
      (sound.held_canonical held)

/-- Keys with a number of their own, and numbers of other kinds beside it. -/
def warehouse (id : Int) : List (Option String × Declaration) := [
  (none, .type { name := "Code", body := .scalar }),
  (none, .type {
    name := "Key"
    body := .inputObject [
      { name := "id", type := .nonNull (.named "ID") },
      { name := "weight", type := .named "Float" },
      { name := "codes", type := .list (.named "Code") },
      { name := "parts", type := .list (.nonNull (.named "Key")) }] }),
  (none, .type {
    name := "Query"
    body := .object [] [
      { name := "count", type := .named "Int"
        arguments := [
          { name := "key", type := .named "Key"
            default := some (.object [
              ("id", .string "all"),
              ("parts", .object [
                ("id", .int id),
                ("weight", .int 3000000000),
                ("codes", .list [.int 9007199254740993, .null])])]) }] }] })]

/-- The wide numbers in the warehouse are written as other numbers, and the key still fits. -/
theorem reread_value_fits_iff_warehouse :
    ∃ s v i, (analyze true (given (warehouse 12))).result = .ok s ∧
      s.valueAt? (.default (.fieldArgument ⟨7⟩ 0 0)) = some v ∧
      isBuiltInType s.types (.fieldArgument ⟨7⟩ 0 0) = false ∧
      s.declarationAt? (.default (.fieldArgument ⟨7⟩ 0 0)) = some i ∧ s.fits i.type v = true ∧
      s.fits i.type v.literal.canonical = true ∧ NarrowIds s.types (i.type, v) := by
  obtain ⟨s, accepted, evaluated⟩ : ∃ s, (analyze true (given (warehouse 12))).result = .ok s ∧
      ((s.valueAt? (.default (.fieldArgument ⟨7⟩ 0 0))).any fun v =>
        (s.declarationAt? (.default (.fieldArgument ⟨7⟩ 0 0))).any fun i =>
          s.fits i.type v.literal.canonical) = true :=
    exists_of_any (by decide +kernel)
  simp only [Option.any_eq_true] at evaluated
  obtain ⟨v, held, i, declared, again⟩ := evaluated
  obtain ⟨fits, same⟩ := reread_value_fits_iff true (warehouse 12) s accepted
    (.default (.fieldArgument ⟨7⟩ 0 0)) v held
  obtain ⟨i', declared', fit⟩ := fits rfl
  cases declared.symm.trans declared'
  exact ⟨s, v, i, accepted, held, rfl, declared, fit, again, (same i declared fit).mp again⟩

/-- With a wide number for the `ID` of a part, the key is accepted and does not fit any more. -/
theorem warehouse_wide_id :
    ∃ s v i, (analyze true (given (warehouse 9007199254740993))).result = .ok s ∧
      s.valueAt? (.default (.fieldArgument ⟨7⟩ 0 0)) = some v ∧
      s.declarationAt? (.default (.fieldArgument ⟨7⟩ 0 0)) = some i ∧ s.fits i.type v = true ∧
      s.fits i.type v.literal.canonical = false := by
  obtain ⟨s, accepted, evaluated⟩ :
      ∃ s, (analyze true (given (warehouse 9007199254740993))).result = .ok s ∧
        ((s.valueAt? (.default (.fieldArgument ⟨7⟩ 0 0))).any fun v =>
          (s.declarationAt? (.default (.fieldArgument ⟨7⟩ 0 0))).any fun i =>
            s.fits i.type v && !s.fits i.type v.literal.canonical) = true :=
    exists_of_any (by decide +kernel)
  simp only [Option.any_eq_true, Bool.and_eq_true, Bool.not_eq_true'] at evaluated
  obtain ⟨v, held, i, declared, fit, unfit⟩ := evaluated
  exact ⟨s, v, i, accepted, held, declared, fit, unfit⟩

end SchemaAtlas
