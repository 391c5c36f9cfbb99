import SchemaAtlas.Proofs.Fitting

/-!
# Values and links

A link is a shortcut from a reference to the type that it names. Here everything that linking writes
is taken away again, and whether a value fits a type is seen to depend on what is left: no link, set
or open, stale or out of range, changes the answer.
-/

namespace SchemaAtlas

def TypeRef.unlinked (ref : TypeRef) : TypeRef := { ref with target := none }

def TypeUse.unlinked (a : TypeUse) : TypeUse := a.mapRef TypeRef.unlinked

def Usage.unlinked (u : Usage) : Usage := { u with definition := none, parent := none }

def EnumValue.unlinked (v : EnumValue) : EnumValue :=
  { v with usages := v.usages.map Usage.unlinked, parent := none }

def InputValue.unlinked (v : InputValue) : InputValue :=
  { v with type := v.type.unlinked, usages := v.usages.map Usage.unlinked, parent := none }

def Field.unlinked (f : Field) : Field :=
  { f with
    arguments := f.arguments.map InputValue.unlinked
    type := f.type.unlinked
    usages := f.usages.map Usage.unlinked
    parent := none }

def Shape.unlinked (s : Shape) : Shape where
  fields := s.fields.map Field.unlinked
  implements := s.implements.map TypeRef.unlinked

def TypeBody.unlinked : TypeBody → TypeBody
  | enum values => enum (values.map EnumValue.unlinked)
  | inputObject fields => inputObject (fields.map InputValue.unlinked)
  | interface shape => interface shape.unlinked
  | object shape => object shape.unlinked
  | scalar => scalar
  | union members => union (members.map TypeRef.unlinked)

/-- A type as documents give it. -/
def TypeDef.unlinked (d : TypeDef) : TypeDef :=
  { d with usages := d.usages.map Usage.unlinked, body := d.body.unlinked, references := [] }

theorem TypeUse.isNonNull_unlinked (a : TypeUse) : a.unlinked.isNonNull = a.isNonNull := by
  cases a <;> rfl

theorem InputValue.name_unlinked (v : InputValue) : v.unlinked.name = v.name := rfl

theorem InputValue.type_unlinked (v : InputValue) : v.unlinked.type = v.type.unlinked := rfl

theorem InputValue.isRequired_unlinked (v : InputValue) :
    v.unlinked.isRequired = v.isRequired := by
  rw [isRequired, isRequired, ← v.type.isNonNull_unlinked]
  rfl

namespace Value

/-- What an object literal holds. -/
def entries : Value → List (String × Value)
  | object entries => entries
  | _ => []

theorem fits_named (types : Table TypeDef) {v : Value} (given : v.isNull = false) (ref : TypeRef) :
    v.fits types (.named ref) =
      leafFits types v (v.entries.map fun e => (e.1, e.2.fits types)) ref := by
  cases v with
  | null => cases given
  | object es => rw [entries, ← entryTests_eq]; rfl
  | _ => rfl

end Value

section Links

variable {types : Table TypeDef} (distinct : types.keys.Nodup)
include distinct

theorem lookupRef_unlinked (ref : TypeRef) :
    lookupRef (types.map TypeDef.unlinked) ref.unlinked =
      (lookupRef types ref).map TypeDef.unlinked := by
  have distinct' : (types.map TypeDef.unlinked).keys.Nodup := by rwa [Table.keys_map]
  rw [lookupRef_eq_get? distinct', lookupRef_eq_get? distinct, Table.get?_map]
  rfl

/-- A value and the name of a type, when the entries of the value have been decided. -/
theorem fits_named_unlinked {v : Value} (given : v.isNull = false) (ref : TypeRef)
    (asked : ∀ b w, Asks types (b, w) (.named ref, v) →
      w.fits (types.map TypeDef.unlinked) b.unlinked = w.fits types b) :
    v.fits (types.map TypeDef.unlinked) (.named ref.unlinked) = v.fits types (.named ref) := by
  rw [Value.fits_named _ given, Value.fits_named _ given, leafFits, leafFits,
    lookupRef_unlinked distinct]
  cases known : lookupRef types ref with
  | none => rfl
  | some d =>
    rw [lookupRef_eq_get? distinct] at known
    cases body : d.body with
    | inputObject fields =>
      cases v with
      | object entries =>
        have tests (types : Table TypeDef) (name : String) :
            (entries.map fun e => (e.1, e.2.fits types)).lookup name =
              (entries.lookup name).map (Value.fits types) :=
          Table.get?_map (Value.fits types) ⟨entries⟩ name
        simp only [Option.map_some, TypeDef.unlinked, body, TypeBody.unlinked, Table.contains_map,
          Table.values_map, List.all_map, Value.entries, Function.comp_def, tests]
        congr 1
        rw [Bool.eq_iff_iff, List.all_eq_true, List.all_eq_true]
        refine forall₂_congr fun f declared => ?_
        cases found : entries.lookup f.name with
        | none => simp only [f.name_unlinked, found, Option.map_none, f.isRequired_unlinked]
        | some w =>
          simp only [f.name_unlinked, f.type_unlinked, found, Option.map_some,
            asked f.type w (.entry known body declared found)]
      | _ => simp [TypeDef.unlinked, body, TypeBody.unlinked]
    | enum values =>
      cases v <;> simp [TypeDef.unlinked, body, TypeBody.unlinked]
    | _ => cases v <;> simp [TypeDef.unlinked, body, TypeBody.unlinked, TypeDef.scalarFits]

/-- By induction along the questions that a question leads to. -/
theorem fits_unlinked (a : TypeUse) (v : Value) :
    v.fits (types.map TypeDef.unlinked) a.unlinked = v.fits types a := by
  suffices every : ∀ q : TypeUse × Value,
      q.2.fits (types.map TypeDef.unlinked) q.1.unlinked = q.2.fits types q.1 from every (a, v)
  intro q
  induction q using (asks_wellFounded types).induction with
  | _ q ih =>
    obtain ⟨a, v⟩ := q
    have asked : ∀ b w, Asks types (b, w) (a, v) →
        w.fits (types.map TypeDef.unlinked) b.unlinked = w.fits types b :=
      fun b w question => ih (b, w) question
    cases null : v.isNull with
    | true =>
      obtain rfl := Value.eq_null null
      rw [Value.null_fits, Value.null_fits, TypeUse.isNonNull_unlinked]
    | false =>
      cases a with
      | named ref => exact fits_named_unlinked distinct null ref asked
      | nonNull inner =>
        have same := asked inner v (.nonNull inner v)
        simp only [Value.fits_nonNull, ← same]
        exact Value.fits_nonNull _ v inner.unlinked
      | list item =>
        cases single : v.isItem with
        | true =>
          have same := asked item v (.single single)
          rw [Value.fits_list_of_isItem types single, ← same]
          exact Value.fits_list_of_isItem _ single item.unlinked
        | false =>
          obtain ⟨vs, rfl⟩ := Value.eq_list null single
          have same : (vs.all fun w => w.fits (types.map TypeDef.unlinked) item.unlinked) =
              vs.all fun w => w.fits types item := by
            rw [Bool.eq_iff_iff, List.all_eq_true, List.all_eq_true]
            exact forall₂_congr fun w member => by rw [asked item w (.item member)]
          rw [Value.list_fits_list, ← same]
          exact Value.list_fits_list _ vs item.unlinked

end Links

/-- A link never leads away from the type of that name. So a value fits a type in one table as in
another that differs from it in links only. -/
theorem fits_eq_of_unlinked_eq (types types' : Table TypeDef) (distinct : types.keys.Nodup)
    (same : types'.map TypeDef.unlinked = types.map TypeDef.unlinked) :
    (∀ ref, lookupRef types ref = types.get? ref.name) ∧
      ∀ (a a' : TypeUse) (v : Value), a'.unlinked = a.unlinked →
        v.fits types' a' = v.fits types a := by
  refine ⟨lookupRef_eq_get? distinct, fun a a' v alike => ?_⟩
  have distinct' : types'.keys.Nodup := by
    rw [← Table.keys_map TypeDef.unlinked, same, Table.keys_map]
    exact distinct
  calc v.fits types' a'
    _ = v.fits (types'.map TypeDef.unlinked) a'.unlinked := (fits_unlinked distinct' a' v).symm
    _ = v.fits (types.map TypeDef.unlinked) a.unlinked := by rw [same, alike]
    _ = v.fits types a := fits_unlinked distinct a v

/-- Amounts that consist of amounts, with links for the two references in them. -/
def amounts (parts unit : Option TypeId) : Table TypeDef where
  entries := [
    ("Unit",
      { name := "Unit", description := none, location := .builtIn, builtIn := false, usages := []
        body := .enum ⟨[("GRAM", ⟨"GRAM", none, .builtIn, [], none⟩)]⟩ }),
    ("Amount",
      { name := "Amount", description := none, location := .builtIn, builtIn := false, usages := []
        body := .inputObject ⟨[
          ("parts", ⟨"parts", none, .builtIn, .list (.named ⟨"Amount", .builtIn, parts⟩), none, [],
            none⟩),
          ("unit", ⟨"unit", none, .builtIn, .nonNull (.named ⟨"Unit", .builtIn, unit⟩), none, [],
            none⟩)]⟩ })]

/-- Links to the other type and beyond the table make no difference: an amount with its units is
still accepted, and one whose part has no unit still refused. -/
theorem fits_eq_of_unlinked_eq_amounts :
    (amounts none none).keys.Nodup ∧
      (amounts (some ⟨0⟩) (some ⟨9⟩)).map TypeDef.unlinked =
        (amounts none none).map TypeDef.unlinked ∧
      (Value.object [("unit", .enum "GRAM"),
          ("parts", .list [.object [("unit", .string "GRAM")]])]).fits
        (amounts (some ⟨0⟩) (some ⟨9⟩)) (.named ⟨"Amount", .builtIn, some ⟨0⟩⟩) = true ∧
      (Value.object [("unit", .enum "GRAM"), ("parts", .list [.object []])]).fits
        (amounts (some ⟨0⟩) (some ⟨9⟩)) (.named ⟨"Amount", .builtIn, some ⟨0⟩⟩) = false := by
  have distinct : (amounts none none).keys.Nodup := by decide
  have same : (amounts (some ⟨0⟩) (some ⟨9⟩)).map TypeDef.unlinked =
      (amounts none none).map TypeDef.unlinked := rfl
  obtain ⟨_, fits⟩ := fits_eq_of_unlinked_eq _ _ distinct same
  have unset := fits (.named ⟨"Amount", .builtIn, none⟩) (.named ⟨"Amount", .builtIn, some ⟨0⟩⟩)
  refine ⟨distinct, same, ?_, ?_⟩
  · rw [unset _ rfl]
    decide
  · rw [unset _ rfl]
    decide

end SchemaAtlas
