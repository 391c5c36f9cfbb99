import SchemaAtlas.Proofs.Acceptance
import SchemaAtlas.Proofs.RuleInvariance

/-!
# Marks

The analysis leaves marks on a type: the sites that name it, and whether a root leads to it. No rule
reads them. Two graphs that differ in their marks only are matched by the relabeling that changes
nothing, so whatever is invariant under relabelings is the same in both.
-/

namespace SchemaAtlas

namespace Relabeling

/-- Positions and places stay. -/
def still : Relabeling := ⟨Equiv.refl _, Equiv.refl _, id⟩

@[simp] theorem still_type (t : TypeId) : still.type t = t := rfl

@[simp] theorem still_directive (d : DirectiveId) : still.directive d = d := rfl

@[simp] theorem still_element (e : ElementId) : still.element e = e := by
  cases e <;> rfl

@[simp] theorem still_map_type (t : Option TypeId) : t.map still.type = t := by
  cases t <;> rfl

@[simp] theorem still_map_directive (d : Option DirectiveId) : d.map still.directive = d := by
  cases d <;> rfl

@[simp] theorem still_map_element (e : Option ElementId) : e.map still.element = e := by
  cases e <;> simp

@[simp] theorem still_ref (x : TypeRef) : still.ref x = x := by
  rw [ref, still_map_type]
  rfl

@[simp] theorem still_typeUse (a : TypeUse) : still.typeUse a = a := by
  induction a with
  | named x => exact congrArg TypeUse.named (still_ref x)
  | list item ih => exact congrArg TypeUse.list ih
  | nonNull inner ih => exact congrArg TypeUse.nonNull ih

@[simp] theorem still_usages (us : List Usage) : still.usages us = us := by
  refine (List.map_congr_left fun u _ => ?_).trans (List.map_id us)
  rw [usage, still_map_directive, still_map_element]
  rfl

theorem map_still {α : Type} {f : α → α} (fixed : ∀ a, f a = a) (t : Table α) : t.map f = t := by
  apply Table.entries_ext
  refine (List.map_congr_left fun e _ => ?_).trans (List.map_id t.entries)
  rw [fixed]
  rfl

theorem still_enumValue (v : EnumValue) : still.enumValue v = v := by
  rw [enumValue, still_usages, still_map_element]
  rfl

theorem still_inputValue (v : InputValue) : still.inputValue v = v := by
  rw [inputValue, still_typeUse, still_usages, still_map_element]
  rfl

theorem still_field (f : Field) : still.field f = f := by
  rw [field, still_typeUse, still_usages, still_map_element, map_still still_inputValue]
  rfl

theorem still_shape (s : Shape) : still.shape s = s := by
  rw [shape, map_still still_field, map_still still_ref]

theorem still_body (b : TypeBody) : still.body b = b := by
  cases b with
  | enum values => exact congrArg TypeBody.enum (map_still still_enumValue values)
  | inputObject fields => exact congrArg TypeBody.inputObject (map_still still_inputValue fields)
  | interface s => exact congrArg TypeBody.interface (still_shape s)
  | object s => exact congrArg TypeBody.object (still_shape s)
  | scalar => rfl
  | union members => exact congrArg TypeBody.union (map_still still_ref members)

end Relabeling

open Relabeling (still)

/-- A type without what the analysis adds to it. -/
def TypeDef.unmarked (d : TypeDef) : TypeDef := { d with references := [], rooted := false }

theorem TypeDef.alike_of_unmarked {d d' : TypeDef} (same : d'.unmarked = d.unmarked) :
    d.Alike still d' := by
  simp only [unmarked, TypeDef.mk.injEq] at same
  obtain ⟨name, description, location, builtIn, usages, body, _⟩ := same
  refine ⟨name, description, location, builtIn, ?_, ?_⟩
  · rw [Relabeling.still_usages, usages]
  · rw [Relabeling.still_body, body]

theorem DirectiveDef.alike_refl (d : DirectiveDef) : d.Alike still d :=
  ⟨rfl, rfl, rfl, rfl, (Relabeling.map_still Relabeling.still_inputValue _).symm, rfl, rfl⟩

theorem SchemaBlock.alike_refl (b : SchemaBlock) : b.Alike still b := by
  refine ⟨rfl, (Relabeling.still_usages _).symm, ?_⟩
  have operations : b.operations.map still.binding = b.operations := by
    refine (List.map_congr_left fun o _ => ?_).trans (List.map_id b.operations)
    rw [Relabeling.binding, Relabeling.still_ref]
    rfl
  rw [operations]

namespace Graph

theorem matches_of_unmarked {g h : Graph} (distinct : g.types.keys.Nodup)
    (distinct' : g.directives.keys.Nodup)
    (types : h.types.map TypeDef.unmarked = g.types.map TypeDef.unmarked)
    (directives : h.directives = g.directives) (block : h.block = g.block) :
    g.Matches still h where
  types :=
    { distinct
      distinct' := by
        rw [← Table.keys_map TypeDef.unmarked, types, Table.keys_map]
        exact distinct
      entries := by
        intro i
        have entry : (h.types.at? i).map (fun e => (e.1, e.2.unmarked)) =
            (g.types.at? i).map fun e => (e.1, e.2.unmarked) := by
          rw [← Table.at?_map, types, Table.at?_map]
        have same : h.types.at? (still.types i) = h.types.at? i := rfl
        rw [same]
        generalize g.types.at? i = source at entry
        generalize h.types.at? i = image at entry
        cases source with
        | none =>
          rw [Option.map_none, Option.map_eq_none_iff] at entry
          rw [entry]
          exact .none
        | some e =>
          obtain ⟨e', rfl, marks⟩ := Option.map_eq_some_iff.mp entry
          obtain ⟨key, values⟩ := Prod.mk.inj marks
          exact .some ⟨key, TypeDef.alike_of_unmarked values⟩ }
  directives := by
    have alike : g.directives.Alike still.directives (DirectiveDef.Alike still)
        (g.directives.map fun d => d) := .of_map distinct' DirectiveDef.alike_refl
    rw [Relabeling.map_still fun _ => rfl] at alike
    rw [directives]
    exact alike
  block := by
    rw [block]
    cases g.block with
    | none => exact .none
    | some b => exact .some b.alike_refl

/-- What the root adds to a graph are marks. -/
theorem withRoot_matches {g : Graph} (distinct : g.types.keys.Nodup)
    (distinct' : g.directives.keys.Nodup) : g.Matches still g.withRoot := by
  refine matches_of_unmarked distinct distinct' (Table.ext_at? fun i => ?_) rfl rfl
  rw [Table.at?_map, Table.at?_map, withRoot_types_at?, Option.map_map]
  rfl

theorem withRoot_fits {g : Graph} (distinct : g.types.keys.Nodup)
    (distinct' : g.directives.keys.Nodup) (v : Value) (a : TypeUse) :
    v.fits g.withRoot.types a = v.fits g.types a := by
  rw [← (withRoot_matches distinct distinct').fits v a, Relabeling.still_typeUse]

end Graph

end SchemaAtlas
