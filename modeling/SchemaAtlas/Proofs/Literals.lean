import SchemaAtlas.Value

/-!
# Canonical literals

A literal that has been read keeps the entries of its objects in the order of their keys. Reading
such a literal again changes nothing, and neither does writing it, unless one of its integers is too
wide for a literal.
-/

namespace SchemaAtlas.Value

/-- Entries in strictly ascending order of their keys. -/
def Ascending {α : Type} (entries : List (String × α)) : Prop :=
  entries.Pairwise fun a b => a.1 < b.1

mutual

/-- Every object inside the value lists its entries in ascending order. -/
def IsCanonical : Value → Prop
  | list items => ItemsCanonical items
  | object entries => Ascending entries ∧ EntriesCanonical entries
  | _ => True

def ItemsCanonical : List Value → Prop
  | [] => True
  | v :: rest => v.IsCanonical ∧ ItemsCanonical rest

def EntriesCanonical : List (String × Value) → Prop
  | [] => True
  | (_, v) :: rest => v.IsCanonical ∧ EntriesCanonical rest

end

mutual

/-- The integers inside a value, at any depth. -/
def ints : Value → List Int
  | int n => [n]
  | list items => itemInts items
  | object entries => entryInts entries
  | _ => []

def itemInts : List Value → List Int
  | [] => []
  | v :: rest => v.ints ++ itemInts rest

def entryInts : List (String × Value) → List Int
  | [] => []
  | (_, v) :: rest => v.ints ++ entryInts rest

end

/-- Every integer inside fits in 32 bits. -/
def Narrow (v : Value) : Prop := ∀ n ∈ v.ints, fitsInt32 n = true

section Sorting

variable {α : Type}

theorem mem_of_mem_place {key : String} {a : α} {entries : List (String × α)} {e : String × α}
    (member : e ∈ place key a entries) : e = (key, a) ∨ e ∈ entries := by
  induction entries with
  | nil => exact Or.inl (List.mem_singleton.mp member)
  | cons first rest ih =>
    obtain ⟨k, b⟩ := first
    rw [place] at member
    split at member
    · rcases List.mem_cons.mp member with new | old
      · exact Or.inl new
      · exact Or.inr (List.mem_cons_of_mem _ old)
    · split at member
      · exact List.mem_cons.mp member
      · rcases List.mem_cons.mp member with new | old
        · exact Or.inr (new ▸ List.mem_cons_self)
        · exact (ih old).imp_right (List.mem_cons_of_mem _)

theorem ascending_place (key : String) (a : α) {entries : List (String × α)}
    (ascending : Ascending entries) : Ascending (place key a entries) := by
  induction entries with
  | nil => exact List.pairwise_singleton _ _
  | cons first rest ih =>
    obtain ⟨k, b⟩ := first
    obtain ⟨below, tail⟩ := List.pairwise_cons.mp ascending
    rw [place]
    split
    · next same =>
      subst same
      exact List.pairwise_cons.mpr ⟨below, tail⟩
    · next differs =>
      split
      · next less =>
        refine List.pairwise_cons.mpr ⟨?_, ascending⟩
        intro e member
        rcases List.mem_cons.mp member with rfl | member
        · exact less
        · exact String.lt_trans less (below e member)
      · next notLess =>
        have greater : k < key :=
          Std.lt_of_le_of_ne (String.not_lt.mp notLess) fun same => differs same.symm
        refine List.pairwise_cons.mpr ⟨?_, ih tail⟩
        intro e member
        rcases mem_of_mem_place member with rfl | member
        · exact greater
        · exact below e member

theorem sortEntries_foldl_mem (sorted entries : List (String × α)) (e : String × α)
    (member : e ∈ entries.foldl (fun s e => place e.1 e.2 s) sorted) :
    e ∈ sorted ∨ e ∈ entries := by
  induction entries generalizing sorted with
  | nil => exact Or.inl member
  | cons first rest ih =>
    rcases ih _ member with placed | later
    · rcases mem_of_mem_place placed with rfl | old
      · exact Or.inr List.mem_cons_self
      · exact Or.inl old
    · exact Or.inr (List.mem_cons_of_mem _ later)

theorem mem_of_mem_sortEntries {entries : List (String × α)} {e : String × α}
    (member : e ∈ sortEntries entries) : e ∈ entries :=
  (sortEntries_foldl_mem [] entries e member).resolve_left List.not_mem_nil

theorem ascending_sortEntries (entries : List (String × α)) : Ascending (sortEntries entries) := by
  suffices h : ∀ sorted : List (String × α), Ascending sorted →
      Ascending (entries.foldl (fun s e => place e.1 e.2 s) sorted) from h [] .nil
  induction entries with
  | nil => exact fun _ ascending => ascending
  | cons first rest ih => exact fun _ ascending => ih _ (ascending_place _ _ ascending)

theorem place_last (key : String) (a : α) {entries : List (String × α)}
    (below : ∀ e ∈ entries, e.1 < key) : place key a entries = entries ++ [(key, a)] := by
  induction entries with
  | nil => rfl
  | cons first rest ih =>
    obtain ⟨k, b⟩ := first
    have less : k < key := below (k, b) List.mem_cons_self
    have differs : key ≠ k := fun same => String.lt_irrefl k (same ▸ less)
    have notLess : ¬ key < k := String.lt_asymm less
    rw [place, if_neg differs, if_neg notLess,
      ih fun e member => below e (List.mem_cons_of_mem _ member)]
    rfl

/-- Sorting keeps what is in order already: each entry goes behind those before it. -/
theorem sortEntries_of_ascending {entries : List (String × α)} (ascending : Ascending entries) :
    sortEntries entries = entries := by
  suffices h : ∀ sorted rest : List (String × α), Ascending (sorted ++ rest) →
      rest.foldl (fun s e => place e.1 e.2 s) sorted = sorted ++ rest from
    h [] entries ascending
  intro sorted rest
  induction rest generalizing sorted with
  | nil => simp
  | cons first rest ih =>
    intro ascending
    have below : ∀ e ∈ sorted, e.1 < first.1 := fun e member =>
      (List.pairwise_append.mp ascending).2.2 e member first List.mem_cons_self
    rw [List.foldl_cons, place_last _ _ below]
    have shifted : sorted ++ [(first.1, first.2)] ++ rest = sorted ++ first :: rest := by simp
    rw [ih _ (by rw [shifted]; exact ascending), shifted]

end Sorting

theorem entriesCanonical_iff (entries : List (String × Value)) :
    EntriesCanonical entries ↔ ∀ e ∈ entries, e.2.IsCanonical := by
  induction entries with
  | nil => simp [EntriesCanonical]
  | cons first rest ih => simp [EntriesCanonical, ih]

mutual

theorem isCanonical_canonical : ∀ v : Value, v.canonical.IsCanonical
  | null | boolean _ | int _ | float _ | string _ | enum _ | var _ => by
    simp [canonical, IsCanonical]
  | list items => by
    simp only [canonical, IsCanonical]
    exact itemsCanonical_canonicalItems items
  | object entries => by
    simp only [canonical, IsCanonical]
    refine ⟨ascending_sortEntries _, (entriesCanonical_iff _).mpr fun e member => ?_⟩
    have all := (entriesCanonical_iff _).mp (entriesCanonical_canonicalEntries entries)
    exact all e (mem_of_mem_sortEntries member)

theorem itemsCanonical_canonicalItems : ∀ items : List Value, ItemsCanonical (canonicalItems items)
  | [] => trivial
  | v :: rest => ⟨isCanonical_canonical v, itemsCanonical_canonicalItems rest⟩

theorem entriesCanonical_canonicalEntries :
    ∀ entries : List (String × Value), EntriesCanonical (canonicalEntries entries)
  | [] => trivial
  | (_, v) :: rest => ⟨isCanonical_canonical v, entriesCanonical_canonicalEntries rest⟩

end

mutual

theorem canonical_of_isCanonical : ∀ v : Value, v.IsCanonical → v.canonical = v
  | null, _ | boolean _, _ | int _, _ | float _, _ | string _, _ | enum _, _ | var _, _ => by
    simp [canonical]
  | list items, h => by
    simp only [canonical, canonicalItems_of_itemsCanonical items h]
  | object entries, h => by
    simp only [canonical, canonicalEntries_of_entriesCanonical entries h.2,
      sortEntries_of_ascending h.1]

theorem canonicalItems_of_itemsCanonical :
    ∀ items : List Value, ItemsCanonical items → canonicalItems items = items
  | [], _ => rfl
  | v :: rest, h => by
    simp only [canonicalItems, canonical_of_isCanonical v h.1,
      canonicalItems_of_itemsCanonical rest h.2]

theorem canonicalEntries_of_entriesCanonical :
    ∀ entries : List (String × Value), EntriesCanonical entries → canonicalEntries entries = entries
  | [], _ => rfl
  | (_, v) :: rest, h => by
    simp only [canonicalEntries, canonical_of_isCanonical v h.1,
      canonicalEntries_of_entriesCanonical rest h.2]

end

mutual

theorem literal_of_narrow : ∀ v : Value, v.IsCanonical → v.Narrow → v.literal = v
  | null, _, _ | boolean _, _, _ | float _, _, _ | string _, _, _ | enum _, _, _ | var _, _, _ => by
    simp [literal]
  | int n, _, narrow => by
    simp [literal, narrow n (by simp [ints])]
  | list items, canonical, narrow => by
    simp only [literal]
    rw [literalItems_of_narrow items canonical narrow]
  | object entries, canonical, narrow => by
    simp only [literal]
    rw [literalEntries_of_narrow entries canonical.2 narrow, sortEntries_of_ascending canonical.1]

theorem literalItems_of_narrow : ∀ items : List Value, ItemsCanonical items →
    (∀ n ∈ itemInts items, fitsInt32 n = true) → literalItems items = items
  | [], _, _ => rfl
  | v :: rest, canonical, narrow => by
    have first : v.Narrow := fun n member => narrow n (List.mem_append_left _ member)
    have later : ∀ n ∈ itemInts rest, fitsInt32 n = true :=
      fun n member => narrow n (List.mem_append_right _ member)
    simp only [literalItems, literal_of_narrow v canonical.1 first,
      literalItems_of_narrow rest canonical.2 later]

theorem literalEntries_of_narrow : ∀ entries : List (String × Value), EntriesCanonical entries →
    (∀ n ∈ entryInts entries, fitsInt32 n = true) → literalEntries entries = entries
  | [], _, _ => rfl
  | (_, v) :: rest, canonical, narrow => by
    have first : v.Narrow := fun n member => narrow n (List.mem_append_left _ member)
    have later : ∀ n ∈ entryInts rest, fitsInt32 n = true :=
      fun n member => narrow n (List.mem_append_right _ member)
    simp only [literalEntries, literal_of_narrow v canonical.1 first,
      literalEntries_of_narrow rest canonical.2 later]

end

/-- Writing a literal that has been read, and reading it again, gives the same literal. -/
theorem canonical_literal {v : Value} (canonical : v.IsCanonical) (narrow : v.Narrow) :
    v.literal.canonical = v := by
  rw [literal_of_narrow v canonical narrow, canonical_of_isCanonical v canonical]

end SchemaAtlas.Value
