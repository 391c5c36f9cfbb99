/-!
# Reachability in a finite graph

`reach next domain pending` lists the nodes of `domain` that can be reached from `pending` by
following `next` inside `domain`. A node leaves the domain when it is listed, which bounds the walk
whatever cycles the graph has.
-/

namespace SchemaAtlas

variable {α : Type} [DecidableEq α]

theorem length_erase_lt {a : α} {as : List α} (h : a ∈ as) : (as.erase a).length < as.length := by
  have positive := List.length_pos_of_mem h
  rw [List.length_erase_of_mem h]
  omega

/-- The pending nodes from the first one on that is still in the domain. -/
def skipOutside (domain pending : List α) : List α :=
  pending.dropWhile fun a => decide (a ∉ domain)

theorem head_skipOutside {domain pending rest : List α} {node : α}
    (h : skipOutside domain pending = node :: rest) : node ∈ domain := by
  have kept := List.head?_dropWhile_not (fun a => decide (a ∉ domain)) pending
  rw [← skipOutside, h] at kept
  simpa using kept

/-- Nodes of `domain` reached from `pending`, each once, in the order of discovery. -/
def reach (next : α → List α) (domain pending : List α) : List α :=
  match _first : skipOutside domain pending with
  | [] => []
  | node :: rest => node :: reach next (domain.erase node) (rest ++ next node)
termination_by domain.length
decreasing_by exact length_erase_lt (head_skipOutside _first)

/-- A walk of at least one step from `start` comes to `goal`. -/
def leadsTo (next : α → List α) (domain : List α) (start goal : α) : Bool :=
  (reach next domain (next start)).contains goal

end SchemaAtlas
