import Mathlib.Data.Finset.Card
import Mathlib.Logic.Equiv.Defs
import Mathlib.Logic.Relation
import SchemaAtlas.Reach

/-!
# What a walk finds

The walk of `reach` lists exactly the nodes that a path inside its domain leads to, whatever cycles
the graph has. Two graphs that correspond node by node therefore give corresponding walks, also when
the walks discover their nodes in different orders.
-/

namespace SchemaAtlas

open Relation

variable {α : Type} [DecidableEq α]

/-- One step of a graph that stays inside a domain. -/
def StepWithin (next : α → List α) (domain : List α) (a b : α) : Prop :=
  b ∈ next a ∧ b ∈ domain

/-- Only nodes outside the domain are skipped. -/
theorem mem_skipOutside {domain pending : List α} {p : α} (inside : p ∈ domain) :
    p ∈ skipOutside domain pending ↔ p ∈ pending := by
  unfold skipOutside
  induction pending with
  | nil => rfl
  | cons a rest ih =>
    by_cases kept : a ∈ domain
    · simp [kept]
    · have other : p ≠ a := by
        rintro rfl
        exact kept inside
      simp [kept, other, ← ih]

theorem reach_sound (next : α → List α) (domain pending : List α) (x : α)
    (found : x ∈ reach next domain pending) :
    ∃ p ∈ pending, p ∈ domain ∧ ReflTransGen (StepWithin next domain) p x := by
  fun_induction reach next domain pending with
  | case1 => cases found
  | case2 domain pending node rest first ih =>
    have inside := head_skipOutside first
    have waiting : ∀ p ∈ node :: rest, p ∈ domain → p ∈ pending := by
      intro p member kept
      rw [← first] at member
      exact (mem_skipOutside kept).mp member
    rcases List.mem_cons.mp found with rfl | later
    · exact ⟨x, waiting x List.mem_cons_self inside, inside, .refl⟩
    obtain ⟨p, start, kept, path⟩ := ih later
    have widen : ReflTransGen (StepWithin next domain) p x :=
      ReflTransGen.mono (fun _ _ step => ⟨step.1, List.mem_of_mem_erase step.2⟩) _ _ path
    have inside' := List.mem_of_mem_erase kept
    rcases List.mem_append.mp start with later | successor
    · exact ⟨p, waiting p (List.mem_cons_of_mem _ later) inside', inside', widen⟩
    · exact ⟨node, waiting node List.mem_cons_self inside, inside,
        .head ⟨successor, inside'⟩ widen⟩

/-- A path is cut at its last visit to `node`: what follows avoids `node` and starts among the nodes
that are pending once `node` is listed. -/
theorem path_avoiding (next : α → List α) (domain pending : List α) (node p x : α)
    (start : p ∈ node :: pending) (inside : p ∈ domain)
    (path : ReflTransGen (StepWithin next domain) p x) :
    x = node ∨ ∃ q ∈ pending ++ next node, q ∈ domain.erase node ∧
      ReflTransGen (StepWithin next (domain.erase node)) q x := by
  induction path with
  | refl =>
    by_cases same : p = node
    · exact Or.inl same
    · have waiting := (List.mem_cons.mp start).resolve_left same
      exact Or.inr ⟨p, List.mem_append_left _ waiting,
        (List.mem_erase_of_ne same).mpr inside, .refl⟩
  | @tail y z _ step ih =>
    by_cases same : z = node
    · exact Or.inl same
    · have kept : z ∈ domain.erase node := (List.mem_erase_of_ne same).mpr step.2
      rcases ih with rfl | ⟨q, start', inside', path'⟩
      · exact Or.inr ⟨z, List.mem_append_right _ step.1, kept, .refl⟩
      · exact Or.inr ⟨q, start', inside', path'.tail ⟨step.1, kept⟩⟩

theorem reach_complete (next : α → List α) (domain pending : List α) (p x : α)
    (start : p ∈ pending) (inside : p ∈ domain)
    (path : ReflTransGen (StepWithin next domain) p x) : x ∈ reach next domain pending := by
  fun_induction reach next domain pending generalizing p with
  | case1 domain pending nothing =>
    have waiting := (mem_skipOutside inside).mpr start
    rw [nothing] at waiting
    cases waiting
  | case2 domain pending node rest first ih =>
    have waiting := (mem_skipOutside inside).mpr start
    rw [first] at waiting
    rcases path_avoiding next domain rest node p x waiting inside path with rfl | later
    · exact List.mem_cons_self
    · obtain ⟨q, start', inside', path'⟩ := later
      exact List.mem_cons_of_mem _ (ih q start' inside' path')

theorem mem_reach_iff (next : α → List α) (domain pending : List α) (x : α) :
    x ∈ reach next domain pending ↔
      ∃ p ∈ pending, p ∈ domain ∧ ReflTransGen (StepWithin next domain) p x := by
  constructor
  · exact reach_sound next domain pending x
  · rintro ⟨p, start, inside, path⟩
    exact reach_complete next domain pending p x start inside path

theorem mem_domain_of_mem_reach {next : α → List α} {domain pending : List α} {x : α}
    (found : x ∈ reach next domain pending) : x ∈ domain := by
  obtain ⟨p, _, inside, path⟩ := reach_sound next domain pending x found
  cases path with
  | refl => exact inside
  | tail _ step => exact step.2

/-- A node leaves the domain when it is listed, so it is listed once. -/
theorem nodup_reach (next : α → List α) {domain : List α} (pending : List α)
    (distinct : domain.Nodup) : (reach next domain pending).Nodup := by
  fun_induction reach next domain pending with
  | case1 => exact List.nodup_nil
  | case2 domain pending node rest first ih =>
    rw [List.nodup_cons]
    refine ⟨fun again => ?_, ih (distinct.erase node)⟩
    exact distinct.not_mem_erase (mem_domain_of_mem_reach again)

/-- `leadsTo` asks for a path of at least one step. -/
theorem leadsTo_iff (next : α → List α) (domain : List α) (start goal : α) :
    leadsTo next domain start goal = true ↔ TransGen (StepWithin next domain) start goal := by
  rw [leadsTo, List.contains_iff_mem, mem_reach_iff]
  constructor
  · rintro ⟨p, step, inside, path⟩
    exact .head' ⟨step, inside⟩ path
  · intro path
    obtain ⟨p, step, path⟩ := TransGen.head'_iff.mp path
    exact ⟨p, step.1, step.2, path⟩

/-- Without cycles, every step leaves fewer nodes to reach. -/
theorem wellFounded_stepWithin {next : α → List α} {domain : List α}
    (acyclic : ∀ a, ¬ TransGen (StepWithin next domain) a a) :
    WellFounded fun b a => StepWithin next domain a b := by
  let reached (a : α) : Finset α := domain.toFinset.filter fun x => leadsTo next domain a x
  refine Subrelation.wf ?_ (measure fun a => (reached a).card).wf
  intro b a step
  refine Finset.card_lt_card (Finset.ssubset_iff_of_subset ?_ |>.mpr ⟨b, ?_, ?_⟩)
  · intro x later
    simp only [reached, Finset.mem_filter, leadsTo_iff] at later ⊢
    exact ⟨later.1, .head step later.2⟩
  · simp only [reached, Finset.mem_filter, leadsTo_iff, List.mem_toFinset]
    exact ⟨step.2, .single step⟩
  · simp only [reached, Finset.mem_filter, leadsTo_iff, not_and]
    exact fun _ => acyclic b

section Correspondence

variable {β : Type} [DecidableEq β] (e : α ≃ β)
variable {next : α → List α} {next' : β → List β} {domain : List α} {domain' : List β}

omit [DecidableEq α] [DecidableEq β] in
theorem stepWithin_equiv (steps : ∀ a b, e b ∈ next' (e a) ↔ b ∈ next a)
    (inside : ∀ a, e a ∈ domain' ↔ a ∈ domain) (a b : α) :
    StepWithin next' domain' (e a) (e b) ↔ StepWithin next domain a b :=
  and_congr (steps a b) (inside b)

omit [DecidableEq α] [DecidableEq β] in
/-- Steps of the second graph come from steps of the first. -/
theorem stepWithin_symm (steps : ∀ a b, e b ∈ next' (e a) ↔ b ∈ next a)
    (inside : ∀ a, e a ∈ domain' ↔ a ∈ domain) (a b : β)
    (step : StepWithin next' domain' a b) :
    StepWithin next domain (e.symm a) (e.symm b) := by
  apply (stepWithin_equiv e steps inside _ _).mp
  simpa using step

theorem leadsTo_equiv (steps : ∀ a b, e b ∈ next' (e a) ↔ b ∈ next a)
    (inside : ∀ a, e a ∈ domain' ↔ a ∈ domain) (start goal : α) :
    leadsTo next' domain' (e start) (e goal) = leadsTo next domain start goal := by
  rw [Bool.eq_iff_iff, leadsTo_iff, leadsTo_iff]
  constructor
  · intro path
    have back : TransGen (StepWithin next domain) (e.symm (e start)) (e.symm (e goal)) :=
      TransGen.lift e.symm (stepWithin_symm e steps inside) _ _ path
    simpa using back
  · exact TransGen.lift e (fun a b step => (stepWithin_equiv e steps inside a b).mpr step) _ _

theorem mem_reach_equiv (steps : ∀ a b, e b ∈ next' (e a) ↔ b ∈ next a)
    (inside : ∀ a, e a ∈ domain' ↔ a ∈ domain) {pending : List α} {pending' : List β}
    (starts : ∀ a, e a ∈ pending' ↔ a ∈ pending) (x : α) :
    e x ∈ reach next' domain' pending' ↔ x ∈ reach next domain pending := by
  rw [mem_reach_iff, mem_reach_iff]
  constructor
  · rintro ⟨q, start, kept, path⟩
    obtain ⟨p, rfl⟩ := e.surjective q
    refine ⟨p, (starts p).mp start, (inside p).mp kept, ?_⟩
    have back : ReflTransGen (StepWithin next domain) (e.symm (e p)) (e.symm (e x)) :=
      ReflTransGen.lift e.symm (stepWithin_symm e steps inside) _ _ path
    simpa using back
  · rintro ⟨p, start, kept, path⟩
    exact ⟨e p, (starts p).mpr start, (inside p).mpr kept,
      ReflTransGen.lift e (fun a b step => (stepWithin_equiv e steps inside a b).mpr step) _ _ path⟩

end Correspondence

end SchemaAtlas
