import Mathlib.Logic.Equiv.Basic
import SchemaAtlas.Proofs.Defining
import SchemaAtlas.Proofs.SchemaInvariance

/-!
# The order of definitions

Definitions may come in any order, with extensions anywhere among them. Their order decides at which
positions types and directives stand and nothing else, so two buffers that differ only in this are
accepted together and give the same schema at exchanged positions.
-/

namespace SchemaAtlas

section Permutations

variable {α : Type}

/-- The positions after the first, moved along. -/
def shift (position : Nat ≃ Nat) : Nat ≃ Nat where
  toFun
    | 0 => 0
    | i + 1 => position i + 1
  invFun
    | 0 => 0
    | i + 1 => position.symm i + 1
  left_inv i := by cases i <;> simp
  right_inv i := by cases i <;> simp

/-- A permutation of a list exchanges its positions. -/
theorem exists_position {as bs : List α} (perm : as.Perm bs) :
    ∃ position : Nat ≃ Nat, ∀ i, bs[position i]? = as[i]? := by
  induction perm with
  | nil => exact ⟨Equiv.refl _, fun _ => rfl⟩
  | cons a _ ih =>
    obtain ⟨position, same⟩ := ih
    refine ⟨shift position, ?_⟩
    intro i
    cases i with
    | zero => rfl
    | succ i => simpa [shift] using same i
  | swap a b rest =>
    refine ⟨Equiv.swap 0 1, ?_⟩
    intro i
    match i with
    | 0 => simp
    | 1 => simp
    | i + 2 =>
      have fixed : Equiv.swap 0 1 (i + 2) = i + 2 :=
        Equiv.swap_apply_of_ne_of_ne (by omega) (by omega)
      rw [fixed]
      rfl
  | trans _ _ first second =>
    obtain ⟨position, same⟩ := first
    obtain ⟨position', same'⟩ := second
    refine ⟨position.trans position', ?_⟩
    intro i
    rw [Equiv.trans_apply, same', same]

end Permutations

theorem Table.get?_perm {α : Type} {t t' : Table α} (perm : t.entries.Perm t'.entries)
    (distinct : t.keys.Nodup) (name : String) : t'.get? name = t.get? name := by
  have distinct' : t'.keys.Nodup := (perm.map Prod.fst).nodup_iff.mp distinct
  apply Option.ext
  intro a
  rw [get?_eq_some_iff distinct', get?_eq_some_iff distinct, perm.mem_iff]

namespace Graph

/-- Two graphs with the same entries in another order. -/
structure Shuffled (g h : Graph) : Prop where
  types : g.types.entries.Perm h.types.entries
  directives : g.directives.entries.Perm h.directives.entries
  block : h.block = g.block

/-- Graphs that admit definitions admit them in every order. -/
theorem Admits.perm {g : Graph} {defs defs' : List Sourced} (admits : g.Admits defs)
    (perm : defs.Perm defs') : g.Admits defs' where
  types := (((perm.filterMap _).map _).append_left _).nodup_iff.mp admits.types
  directives := (((perm.filterMap _).map _).append_left _).nodup_iff.mp admits.directives
  block := ((perm.filterMap Sourced.block?).append_left g.block.toList).length_eq ▸ admits.block
  own := fun s member => admits.own s (perm.mem_iff.mpr member)

theorem extendedBy_shuffled {g : Graph} {defs defs' : List Sourced} (admits : g.Admits defs)
    (perm : defs.Perm defs') : (g.extendedBy defs).Shuffled (g.extendedBy defs') where
  types := (perm.filterMap _).append_left _
  directives := (perm.filterMap _).append_left _
  block := by
    have blocks := eq_of_perm_of_length_le_one
      ((perm.filterMap Sourced.block?).append_left g.block.toList) admits.block
    rw [extendedBy, extendedBy, blocks]

theorem extendType_shuffled {g h : Graph} (shuffled : g.Shuffled h)
    (distinct : g.types.keys.Nodup) (origin : Origin) (e : TypeExtension) :
    (h.extendType origin e).problems = (g.extendType origin e).problems ∧
      (g.extendType origin e).value.Shuffled (h.extendType origin e).value := by
  have found := Table.get?_perm shuffled.types distinct e.name
  simp only [extendType, found]
  cases g.types.get? e.name with
  | none => exact ⟨rfl, shuffled⟩
  | some old =>
    simp only
    split
    · exact ⟨rfl, shuffled⟩
    · split
      · exact ⟨rfl, shuffled⟩
      · refine ⟨rfl, ?_, shuffled.directives, shuffled.block⟩
        exact shuffled.types.map _

theorem extendSchema_shuffled {g h : Graph} (shuffled : g.Shuffled h) (origin : Origin)
    (d : SchemaDecl) :
    (h.extendSchema origin d).problems = (g.extendSchema origin d).problems ∧
      (g.extendSchema origin d).value.Shuffled (h.extendSchema origin d).value := by
  simp only [extendSchema, shuffled.block]
  cases g.block with
  | none => exact ⟨rfl, shuffled⟩
  | some old =>
    simp only [Reported.bind_value, Reported.bind_problems]
    split
    · exact ⟨rfl, shuffled⟩
    · exact ⟨rfl, shuffled.types, shuffled.directives, rfl⟩

/-- An extension treats both graphs alike. -/
theorem extend_shuffled {g h : Graph} (shuffled : g.Shuffled h) (distinct : g.types.keys.Nodup)
    (s : Sourced) :
    (h.extend s).problems = (g.extend s).problems ∧
      (g.extend s).value.Shuffled (h.extend s).value := by
  simp only [extend]
  split
  · exact extendType_shuffled shuffled distinct _ _
  · exact extendSchema_shuffled shuffled _ _
  all_goals exact ⟨rfl, shuffled⟩

/-- So does a run over extensions. -/
theorem through_extend_shuffled (exts : List Sourced) {g h : Graph} (shuffled : g.Shuffled h)
    (fresh : g.Fresh) :
    (Reported.through extend h exts).problems = (Reported.through extend g exts).problems ∧
      (Reported.through extend g exts).value.Shuffled (Reported.through extend h exts).value := by
  induction exts generalizing g h with
  | nil => exact ⟨rfl, shuffled⟩
  | cons s rest ih =>
    obtain ⟨problems, values⟩ := extend_shuffled shuffled fresh.types.distinct s
    obtain ⟨later, result⟩ := ih values (g.extend_fresh s fresh)
    refine ⟨?_, result⟩
    rw [Reported.through_cons_problems, Reported.through_cons_problems, problems, later]

end Graph

/-! Nothing in a fresh graph carries a position, so exchanging positions changes none of it. -/

namespace Relabeling

variable {r : Relabeling}

theorem ref_of_fresh (still : ∀ l, r.place l = l) {x : TypeRef} (fresh : x.Fresh) :
    r.ref x = x := by
  obtain ⟨name, location, target⟩ := x
  have open_target : target = none := fresh
  simp [ref, still, open_target]

theorem typeUse_of_fresh (still : ∀ l, r.place l = l) {a : TypeUse} (fresh : a.innermost.Fresh) :
    r.typeUse a = a := by
  induction a with
  | named x => exact congrArg TypeUse.named (ref_of_fresh still fresh)
  | list item ih => exact congrArg TypeUse.list (ih fresh)
  | nonNull inner ih => exact congrArg TypeUse.nonNull (ih fresh)

theorem usages_of_fresh (still : ∀ l, r.place l = l) {us : List Usage}
    (fresh : ∀ u ∈ us, u.Fresh) : r.usages us = us := by
  refine (List.map_congr_left ?_).trans (List.map_id us)
  intro u member
  have definition : u.definition.map r.directive = u.definition := by
    rw [(fresh u member).definition]
    rfl
  have parent : u.parent.map r.element = u.parent := by
    rw [(fresh u member).parent]
    rfl
  simp only [usage, still, definition, parent, id_eq]

theorem inputValue_of_fresh (still : ∀ l, r.place l = l) {v : InputValue} (fresh : v.Fresh) :
    r.inputValue v = v := by
  have parent : v.parent.map r.element = v.parent := by
    rw [fresh.parent]
    rfl
  simp only [inputValue, still, typeUse_of_fresh still fresh.type,
    usages_of_fresh still fresh.usages, parent]

theorem table_of_fresh {α : Type} {name : α → String} {P : α → Prop} {f : α → α} {t : Table α}
    (all : t.All name P) (fixed : ∀ a, P a → f a = a) : t.map f = t := by
  apply Table.entries_ext
  refine (List.map_congr_left ?_).trans (List.map_id t.entries)
  intro e member
  rw [fixed e.2 (all.each e member)]
  rfl

theorem field_of_fresh (still : ∀ l, r.place l = l) {f : Field} (fresh : f.Fresh) :
    r.field f = f := by
  have parent : f.parent.map r.element = f.parent := by
    rw [fresh.parent]
    rfl
  simp only [field, still, typeUse_of_fresh still fresh.type, usages_of_fresh still fresh.usages,
    parent, table_of_fresh fresh.arguments fun v => inputValue_of_fresh still]

theorem shape_of_fresh (still : ∀ l, r.place l = l) {s : Shape} (fresh : s.Fresh) :
    r.shape s = s := by
  simp [shape, table_of_fresh fresh.fields fun f => field_of_fresh still,
    table_of_fresh fresh.implements fun x => ref_of_fresh still]

theorem body_of_fresh (still : ∀ l, r.place l = l) {b : TypeBody} (fresh : b.Fresh) :
    r.body b = b := by
  cases b with
  | enum values =>
    refine congrArg TypeBody.enum (table_of_fresh fresh fun v fv => ?_)
    have parent : v.parent.map r.element = v.parent := by
      rw [fv.parent]
      rfl
    simp only [enumValue, still, usages_of_fresh still fv.usages, parent]
  | inputObject fields =>
    exact congrArg TypeBody.inputObject (table_of_fresh fresh fun v => inputValue_of_fresh still)
  | interface s => exact congrArg TypeBody.interface (shape_of_fresh still fresh)
  | object s => exact congrArg TypeBody.object (shape_of_fresh still fresh)
  | scalar => rfl
  | union members =>
    exact congrArg TypeBody.union (table_of_fresh fresh fun x => ref_of_fresh still)

theorem block_of_fresh (still : ∀ l, r.place l = l) {b : SchemaBlock} (fresh : b.Fresh) :
    r.block b = b := by
  have operations : b.operations.map r.binding = b.operations := by
    refine (List.map_congr_left ?_).trans (List.map_id b.operations)
    intro o member
    rw [binding, ref_of_fresh still (fresh.operations o member)]
    rfl
  simp [block, still, usages_of_fresh still fresh.usages, operations]

end Relabeling

namespace Graph

/-- Fresh graphs with the same entries match, for some exchange of positions. -/
theorem Shuffled.exists_matches {g h : Graph} (shuffled : g.Shuffled h) (fresh : g.Fresh)
    (fresh' : h.Fresh) : ∃ r : Relabeling, (∀ l, r.place l = l) ∧ g.Matches r h := by
  obtain ⟨types, sameTypes⟩ := exists_position shuffled.types
  obtain ⟨directives, sameDirectives⟩ := exists_position shuffled.directives
  refine ⟨⟨types, directives, id⟩, fun _ => rfl, ?_⟩
  refine
    { types := ⟨fresh.types.distinct, fresh'.types.distinct, ?_⟩
      directives := ⟨fresh.directives.distinct, fresh'.directives.distinct, ?_⟩
      block := ?_ }
  · intro i
    have same : h.types.at? (types i) = g.types.at? i := sameTypes i
    rw [same]
    cases found : g.types.at? i with
    | none => exact .none
    | some e =>
      have unlinked := fresh.types.each e ((Table.mem_entries_iff _ _).mpr ⟨i, found⟩)
      exact .some ⟨rfl, rfl, rfl, rfl, rfl,
        (Relabeling.usages_of_fresh (fun _ => rfl) unlinked.usages).symm,
        (Relabeling.body_of_fresh (fun _ => rfl) unlinked.body).symm⟩
  · intro i
    have same : h.directives.at? (directives i) = g.directives.at? i := sameDirectives i
    rw [same]
    cases found : g.directives.at? i with
    | none => exact .none
    | some e =>
      have unlinked := fresh.directives.each e ((Table.mem_entries_iff _ _).mpr ⟨i, found⟩)
      have arguments := Relabeling.table_of_fresh unlinked.arguments
        fun v => Relabeling.inputValue_of_fresh (r := ⟨types, directives, id⟩) fun _ => rfl
      exact .some ⟨rfl, rfl, rfl, rfl, rfl, arguments.symm, rfl, rfl⟩
  · rw [shuffled.block]
    cases declared : g.block with
    | none => exact .none
    | some b =>
      have fixed := Relabeling.block_of_fresh (r := ⟨types, directives, id⟩) (fun _ => rfl)
        (fresh.block b declared)
      refine .some ⟨rfl, ?_, ?_⟩
      · exact (congrArg SchemaBlock.usages fixed).symm
      · have operations : b.operations.map
          (Relabeling.binding ⟨types, directives, id⟩) = b.operations :=
          congrArg SchemaBlock.operations fixed
        rw [operations]

/-- A root is determined by the types that serve its operations and by its block. -/
theorem Matches.root_eq {r : Relabeling} {x x' : Root} (same : Matches.SameRoot r x x')
    (block : x'.block = x.block.map r.block) : x' = r.root x := by
  obtain ⟨b, query, mutation, subscription⟩ := x
  obtain ⟨b', query', mutation', subscription'⟩ := x'
  have queries : some query' = some (r.type query) := same.1 .query
  have mutations : mutation' = mutation.map r.type := same.1 .mutation
  have subscriptions : subscription' = subscription.map r.type := same.1 .subscription
  have blocks : b' = b.map r.block := block
  rw [Relabeling.root, Option.some.inj queries, mutations, subscriptions, blocks]

theorem Matches.linkBlock {r : Relabeling} {g h : Graph} (m : g.Matches r h) (b : SchemaBlock) :
    h.names.linkBlock (r.block b) = r.block (g.names.linkBlock b) := by
  have usages := m.linkUsages .schema b.usages
  simp only [Relabeling.element] at usages
  simp [Names.linkBlock, Relabeling.block, usages, Relabeling.binding, m.linkRef,
    Function.comp_def]

/-- The roots of fresh graphs with the same block are the same up to positions. -/
theorem Matches.resolved_root_eq {r : Relabeling} {g h : Graph} {required : Bool}
    (m : g.Matches r h) (still : ∀ l, r.place l = l) (fresh : g.Fresh) (same : h.block = g.block)
    (sound : g.linked.RootSound required) : h.resolved.root = g.resolved.root.map r.root := by
  have blocks : h.linked.block = g.linked.block.map r.block := by
    rw [linked_block, linked_block, same]
    cases declared : g.block with
    | none => rfl
    | some b =>
      have fixed := Relabeling.block_of_fresh still (fresh.block b declared)
      have linked := m.linkBlock b
      rw [fixed] at linked
      simp only [Option.map_some, linked]
  have related := m.resolved_root sound
  have block : ∀ k : Graph, ∀ x, k.impliedRoot? = some x → x.block = k.block := by
    intro k x implied
    obtain ⟨query, _, rfl⟩ := Option.map_eq_some_iff.mp implied
    rfl
  rw [Graph.resolved_root, Graph.resolved_root] at related ⊢
  cases source : g.linked.impliedRoot? with
  | none =>
    rw [source] at related
    generalize h.linked.impliedRoot? = image at related
    cases related
    rfl
  | some x =>
    cases image : h.linked.impliedRoot? with
    | none =>
      rw [source, image] at related
      cases related
    | some x' =>
      rw [source, image] at related
      cases related with
      | some both =>
        have exact_block : x'.block = x.block.map r.block := by
          rw [block _ _ image, block _ _ source, blocks]
        rw [Matches.root_eq both exact_block, Option.map_some]

end Graph

/-- Two schemas that differ in the positions of types and directives and in the order of
references, and in nothing else. -/
structure Schema.Renumbers (r : Relabeling) (s s' : Schema) : Prop where
  still : ∀ l, r.place l = l
  types : s.types.Alike r.types (TypeDef.Corresponds r) s'.types
  directives : s.directives.Alike r.directives (DirectiveDef.Corresponds r) s'.directives
  root : s'.root = s.root.map r.root

section Buffers

variable {first second : List Sourced}

/-- The graphs of two buffers that differ in the order of definitions only. -/
theorem described_shuffled (definitions : (definitionsOf first).Perm (definitionsOf second))
    (extensions : extensionsOf first = extensionsOf second)
    (collected : (Graph.collect (BuiltIn.declarations ++ first)).problems = []) :
    (Graph.collect (BuiltIn.declarations ++ second)).problems = [] ∧
      (Graph.described first).Shuffled (Graph.described second) := by
  have perm : (definitionsOf (BuiltIn.declarations ++ first)).Perm
      (definitionsOf (BuiltIn.declarations ++ second)) := by
    simp only [definitionsOf, List.filter_append]
    exact definitions.append_left _
  have same : extensionsOf (BuiltIn.declarations ++ second) =
      extensionsOf (BuiltIn.declarations ++ first) := by
    simp only [extensionsOf, List.filter_append] at extensions ⊢
    rw [extensions]
  obtain ⟨admits, merged⟩ := (Graph.collect_problems_iff _).mp collected
  have admits' := admits.perm perm
  have started : (({} : Graph).extendedBy
      (definitionsOf (BuiltIn.declarations ++ first))).Fresh := by
    rw [← Graph.through_define_value _ _ admits]
    exact Reported.through_preserves (fun g s _ => g.define_fresh s) Graph.empty_fresh
  obtain ⟨problems, shuffled⟩ := Graph.through_extend_shuffled
    (extensionsOf (BuiltIn.declarations ++ first)) (Graph.extendedBy_shuffled admits perm) started
  constructor
  · rw [Graph.collect_problems_iff, same, problems]
    exact ⟨admits', merged⟩
  · rw [Graph.described, Graph.described, Graph.collect_value _ admits,
      Graph.collect_value _ admits', same]
    exact shuffled

theorem Sound.of_shuffled {required : Bool} (sound : Sound required first)
    (definitions : (definitionsOf first).Perm (definitionsOf second))
    (extensions : extensionsOf first = extensionsOf second) : Sound required second := by
  have fresh := Graph.described_fresh first
  have fresh' := Graph.described_fresh second
  obtain ⟨collected, shuffled⟩ := described_shuffled definitions extensions sound.collected
  obtain ⟨r, _, m⟩ := shuffled.exists_matches fresh fresh'
  refine
    { noExecutable := ?_
      collected
      known := m.namesKnown.mpr sound.known
      lawful := ?_
      rooted := (m.rootSound fresh fresh' required).mpr sound.rooted }
  · rw [firstExecutable?_eq_none_iff]
    intro s member
    exact (firstExecutable?_eq_none_iff first).mp sound.noExecutable s
      (definitions.mem_iff.mpr member)
  · rw [Graph.violations_eq_nil_iff, m.linked.lawful, ← Graph.violations_eq_nil_iff]
    exact sound.lawful

end Buffers

/-- The order of definitions does not matter: buffers with the same definitions in any order and
the same extensions are accepted together, and their schemas differ only in the positions of types
and directives. -/
theorem analyze_definition_order (required : Bool) (first second : List Sourced)
    (definitions : (definitionsOf first).Perm (definitionsOf second))
    (extensions : extensionsOf first = extensionsOf second) :
    ((∃ s, (analyze required first).result = .ok s) ↔
      ∃ s, (analyze required second).result = .ok s) ∧
    ∀ s s', (analyze required first).result = .ok s → (analyze required second).result = .ok s' →
      ∃ r, s.Renumbers r s' := by
  constructor
  · constructor
    · rintro ⟨s, accepted⟩
      obtain ⟨sound, _⟩ := (analyze_eq_ok_iff_sound required first s).mp accepted
      exact ⟨_, (analyze_eq_ok_iff_sound required second _).mpr
        ⟨sound.of_shuffled definitions extensions, rfl⟩⟩
    · rintro ⟨s, accepted⟩
      obtain ⟨sound, _⟩ := (analyze_eq_ok_iff_sound required second s).mp accepted
      exact ⟨_, (analyze_eq_ok_iff_sound required first _).mpr
        ⟨sound.of_shuffled definitions.symm extensions.symm, rfl⟩⟩
  · intro s s' accepted accepted'
    obtain ⟨sound, rfl⟩ := (analyze_eq_ok_iff_sound required first s).mp accepted
    obtain ⟨_, rfl⟩ := (analyze_eq_ok_iff_sound required second s').mp accepted'
    have fresh := Graph.described_fresh first
    have fresh' := Graph.described_fresh second
    obtain ⟨_, shuffled⟩ := described_shuffled definitions extensions sound.collected
    obtain ⟨r, still, m⟩ := shuffled.exists_matches fresh fresh'
    exact ⟨r, still, m.resolved_types fresh fresh' sound.rooted,
      m.resolved_directives fresh fresh' sound.rooted,
      m.resolved_root_eq still fresh shuffled.block sound.rooted⟩

/-- The files of the bookshop, read backwards. -/
theorem analyze_definition_order_bookshop :
    ∃ s s', (analyze true (given bookshop)).result = .ok s ∧
      (analyze true (given bookshop.reverse)).result = .ok s' ∧ ∃ r, s.Renumbers r s' := by
  obtain ⟨s, accepted, _⟩ : ∃ s, (analyze true (given bookshop)).result = .ok s ∧ true = true :=
    exists_of_any (by decide +kernel)
  have definitions : (definitionsOf (given bookshop)).Perm
      (definitionsOf (given bookshop.reverse)) := by
    rw [given, given, List.map_reverse]
    exact (List.reverse_perm _).symm.filter _
  have extensions : extensionsOf (given bookshop) = extensionsOf (given bookshop.reverse) := rfl
  obtain ⟨together, renumbered⟩ := analyze_definition_order true (given bookshop)
    (given bookshop.reverse) definitions extensions
  obtain ⟨s', accepted'⟩ := together.mp ⟨s, accepted⟩
  exact ⟨s, s', accepted, accepted', renumbered s s' accepted accepted'⟩

end SchemaAtlas
