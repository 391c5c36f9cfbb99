import SchemaAtlas.Proofs.Rereading

/-!
# Tables merged from several lists

A table is filled from one list and then takes in others. As long as nothing is reported, its names
are those of the first list followed by the ones that each later list brings in, and the value of a
name sums up everything that the lists say of it, in order.
-/

namespace SchemaAtlas

/-- The names of several lists: all of the first, then those that the later ones bring in. -/
def introduced : List (List String) → List String
  | [] => []
  | first :: rest => first ++ (introduced rest).filter (· ∉ first)

theorem mem_introduced {lists : List (List String)} {name : String} :
    name ∈ introduced lists ↔ ∃ names ∈ lists, name ∈ names := by
  induction lists with
  | nil => simp [introduced]
  | cons first rest ih =>
    by_cases here : name ∈ first <;> simp [introduced, here, ih]

theorem introduced_concat (lists : List (List String)) (last : List String) :
    introduced (lists ++ [last]) =
      introduced lists ++ last.filter (· ∉ introduced lists) := by
  induction lists with
  | nil => simp [introduced]
  | cons first rest ih =>
    have later : (last.filter (· ∉ introduced rest)).filter (· ∉ first) =
        last.filter (· ∉ introduced (first :: rest)) := by
      rw [List.filter_filter]
      refine List.filter_congr fun name _ => ?_
      by_cases here : name ∈ first <;> simp [introduced, here]
    rw [List.cons_append, introduced, ih, List.filter_append, later, introduced,
      List.append_assoc]

/-- One more name at the end of the last list. -/
theorem introduced_snoc (lists : List (List String)) {last : List String} {name : String}
    (fresh : name ∉ last) :
    introduced (lists ++ [last ++ [name]]) =
      introduced (lists ++ [last]) ++
        if name ∈ introduced (lists ++ [last]) then [] else [name] := by
  have known : name ∈ introduced (lists ++ [last]) ↔ name ∈ introduced lists := by
    simp [introduced_concat, fresh]
  simp only [known]
  rw [introduced_concat, introduced_concat, List.filter_append, List.append_assoc]
  by_cases old : name ∈ introduced lists <;> simp [old]

/-- What several lists say, in one table: each name once, in the order in which the lists bring them
in, with a value that sums up every item of that name. -/
structure Table.Merges {α δ : Type} (name : δ → String) (sums : α → List δ → Prop) (t : Table α)
    (written : List (List δ)) : Prop where
  distinct : t.keys.Nodup
  keys : t.keys = introduced (written.map (List.map name))
  each : ∀ e ∈ t.entries, sums e.2 (written.flatten.filter fun w => name w = e.1)

namespace Table.Merges

variable {α δ : Type} {name : δ → String} {sums : α → List δ → Prop} {t : Table α}
  {written : List (List δ)} {done : List δ} {w : δ}

theorem empty : Merges name sums (.empty : Table α) [] :=
  ⟨List.nodup_nil, rfl, by simp [Table.empty]⟩

/-- A further list of which nothing has been read yet. -/
theorem start (merged : Merges name sums t written) : Merges name sums t (written ++ [[]]) where
  distinct := merged.distinct
  keys := by simp [introduced_concat, merged.keys]
  each := by simpa using merged.each

theorem mem_keys (merged : Merges name sums t written) (member : w ∈ written.flatten) :
    name w ∈ t.keys := by
  obtain ⟨ws, listed, inside⟩ := List.mem_flatten.mp member
  rw [merged.keys, mem_introduced]
  exact ⟨ws.map name, List.mem_map.mpr ⟨ws, listed, rfl⟩, List.mem_map.mpr ⟨w, inside, rfl⟩⟩

/-- The items of a name once the last list has one more. -/
theorem filter_snoc (key : String) :
    (written ++ [done ++ [w]]).flatten.filter (fun w => name w = key) =
      (written ++ [done]).flatten.filter (fun w => name w = key) ++
        if name w = key then [w] else [] := by
  by_cases same : name w = key <;> simp [List.filter_append, same]

theorem keys_snoc (merged : Merges name sums t (written ++ [done]))
    (fresh : name w ∉ done.map name) :
    introduced ((written ++ [done ++ [w]]).map (List.map name)) =
      t.keys ++ if name w ∈ t.keys then [] else [name w] := by
  rw [merged.keys]
  simpa using introduced_snoc (written.map (List.map name)) fresh

/-- A new name goes to the end. -/
theorem push (merged : Merges name sums t (written ++ [done])) (absent : name w ∉ t.keys)
    {value : α} (first : sums value [w]) :
    Merges name sums (t.push (name w) value) (written ++ [done ++ [w]]) where
  distinct := nodup_keys_push merged.distinct absent
  keys := by
    have fresh : name w ∉ done.map name := by
      rintro listed
      obtain ⟨v, inside, same⟩ := List.mem_map.mp listed
      exact absent (same ▸ merged.mem_keys (by simp [inside]))
    rw [merged.keys_snoc fresh, keys_push, if_neg absent]
  each := by
    intro e member
    rw [filter_snoc]
    rcases List.mem_append.mp member with old | new
    · have other : name w ≠ e.1 := fun same => absent (same ▸ List.mem_map.mpr ⟨e, old, rfl⟩)
      rw [if_neg other, List.append_nil]
      exact merged.each e old
    · obtain rfl := List.mem_singleton.mp new
      -- every earlier item has its name in the table
      have unheard : (written ++ [done]).flatten.filter (fun v => name v = name w) = [] := by
        rw [List.filter_eq_nil_iff]
        intro v inside same
        exact absent (of_decide_eq_true same ▸ merged.mem_keys inside)
      rw [unheard, if_pos rfl, List.nil_append]
      exact first

/-- A known name keeps its place. -/
theorem modify (merged : Merges name sums t (written ++ [done])) (fresh : name w ∉ done.map name)
    {old kept : α} (found : t.get? (name w) = some old)
    (again : ∀ before, sums old before → sums kept (before ++ [w])) :
    Merges name sums (t.modify (name w) fun _ => kept) (written ++ [done ++ [w]]) where
  distinct := by simpa using merged.distinct
  keys := by
    have present : name w ∈ t.keys := by
      by_contra absent
      rw [(t.get?_eq_none_iff _).mpr absent] at found
      cases found
    rw [merged.keys_snoc fresh, keys_modify, if_pos present, List.append_nil]
  each := by
    intro e member
    obtain ⟨⟨key, value⟩, present, rfl⟩ := List.mem_map.mp member
    by_cases same : key = name w
    · subst same
      have stored := (get?_eq_some_iff merged.distinct _ _).mpr present
      obtain rfl : old = value := Option.some.inj (found.symm.trans stored)
      have sum := again _ (merged.each _ present)
      simpa [filter_snoc] using sum
    · have other : name w ≠ key := fun h => same h.symm
      have sum := merged.each _ present
      simpa [filter_snoc, same, other] using sum

end Table.Merges

section Runs

variable {α β δ : Type} {name : δ → String} {sums : β → List δ → Prop} {key : α → String}
  {repeated : α → Reported Unit} {read : α → Reported β}
  {clash : β → β → Reported β} {written : List (List δ)}

/-- A list that is read without a report has distinct names and only items that can be read. -/
theorem gather_silent (loud : ∀ a, (repeated a).problems ≠ []) (as : List α) (t : Table β)
    (distinct : t.keys.Nodup) (silent : (gather key repeated read t as).problems = []) :
    (t.keys ++ as.map key).Nodup ∧ ∀ a ∈ as, (read a).problems = [] := by
  induction as generalizing t with
  | nil => simpa using distinct
  | cons a rest ih =>
    by_cases taken : t.contains (key a) = true
    · simp [gather, taken, loud a] at silent
    · simp only [gather, taken, Bool.false_eq_true, if_false, Reported.bind_problems,
        List.append_eq_nil_iff] at silent
      have absent : key a ∉ t.keys := fun present =>
        taken ((t.contains_iff_mem _).mpr present)
      obtain ⟨names, readable⟩ := ih _ (Table.nodup_keys_push distinct absent) silent.2
      refine ⟨by simpa using names, ?_⟩
      exact List.forall_mem_cons.mpr ⟨silent.1, readable⟩

/-- By induction on the list, of which `done` has been read. -/
theorem gather_merges_from (wrap : α → δ) (named : ∀ a, name (wrap a) = key a)
    (loud : ∀ a, (repeated a).problems ≠ [])
    (first : ∀ a, (read a).problems = [] → sums (read a).value [wrap a]) (as : List α)
    (t : Table β) (done : List δ) (merged : t.Merges name sums (written ++ [done]))
    (silent : (gather key repeated read t as).problems = []) :
    (gather key repeated read t as).value.Merges name sums
      (written ++ [done ++ as.map wrap]) := by
  induction as generalizing t done with
  | nil => simpa [gather] using merged
  | cons a rest ih =>
    by_cases taken : t.contains (key a) = true
    · simp [gather, taken, loud a] at silent
    · simp only [gather, taken, Bool.false_eq_true, if_false, Reported.bind_problems,
        Reported.bind_value, List.append_eq_nil_iff] at silent ⊢
      have absent : name (wrap a) ∉ t.keys := fun present =>
        taken ((t.contains_iff_mem _).mpr (named a ▸ present))
      have grown := merged.push absent (first a silent.1)
      rw [named] at grown
      simpa using ih _ _ grown silent.2

/-- Reading a further list into a table. -/
theorem gather_merges (wrap : α → δ) (named : ∀ a, name (wrap a) = key a)
    (loud : ∀ a, (repeated a).problems ≠ [])
    (first : ∀ a, (read a).problems = [] → sums (read a).value [wrap a]) {as : List α}
    {t : Table β} (merged : t.Merges name sums written)
    (silent : (gather key repeated read t as).problems = []) :
    (gather key repeated read t as).value.Merges name sums (written ++ [as.map wrap]) := by
  simpa using gather_merges_from wrap named loud first as t [] merged.start silent

/-- By induction on the new list, of which `done` has been taken in. Its names are distinct, so a
name that is known comes from an earlier list. -/
theorem absorb_merges_from (wrap : α → δ) (named : ∀ a, name (wrap a) = key a) {value : α → β}
    (as : List α) (first : ∀ a ∈ as, sums (value a) [wrap a])
    (again : ∀ a ∈ as, ∀ old before, sums old before → (clash old (value a)).problems = [] →
      sums (clash old (value a)).value (before ++ [wrap a]))
    (t : Table β) (done : List δ) (distinct : (done.map name ++ as.map key).Nodup)
    (merged : t.Merges name sums (written ++ [done]))
    (silent : (absorb clash t (as.map fun a => (key a, value a))).problems = []) :
    (absorb clash t (as.map fun a => (key a, value a))).value.Merges name sums
      (written ++ [done ++ as.map wrap]) := by
  induction as generalizing t done with
  | nil => simpa [absorb] using merged
  | cons a rest ih =>
    have fresh : name (wrap a) ∉ done.map name := by
      intro listed
      exact (List.nodup_append.mp distinct).2.2 _ listed _ List.mem_cons_self (named a)
    have later : ((done ++ [wrap a]).map name ++ rest.map key).Nodup := by
      simpa [named a] using distinct
    have firsts := fun b member => first b (List.mem_cons_of_mem a member)
    have agains := fun b member => again b (List.mem_cons_of_mem a member)
    cases found : t.get? (key a) with
    | some old =>
      simp only [List.map_cons, absorb, found, Reported.bind_problems, Reported.bind_value,
        List.append_eq_nil_iff] at silent ⊢
      have kept := merged.modify fresh (named a ▸ found) fun before sum =>
        again a List.mem_cons_self old before sum silent.1
      rw [named] at kept
      simpa using ih firsts agains _ _ later kept silent.2
    | none =>
      simp only [List.map_cons, absorb, found] at silent ⊢
      have absent : name (wrap a) ∉ t.keys := named a ▸ (t.get?_eq_none_iff _).mp found
      have grown := merged.push absent (first a List.mem_cons_self)
      rw [named] at grown
      simpa using ih firsts agains _ _ later grown silent

/-- Taking in a further list that has been read by itself. A name that is known goes through
`clash`. -/
theorem absorb_merges (wrap : α → δ) (named : ∀ a, name (wrap a) = key a)
    (loud : ∀ a, (repeated a).problems ≠ [])
    (first : ∀ a, (read a).problems = [] → sums (read a).value [wrap a])
    (again : ∀ a old before, (read a).problems = [] → sums old before →
      (clash old (read a).value).problems = [] →
      sums (clash old (read a).value).value (before ++ [wrap a]))
    {as : List α} {t : Table β} (merged : t.Merges name sums written)
    (readable : (gather key repeated read .empty as).problems = [])
    (silent : (absorb clash t (gather key repeated read .empty as).value.entries).problems = []) :
    (absorb clash t (gather key repeated read .empty as).value.entries).value.Merges name sums
      (written ++ [as.map wrap]) := by
  obtain ⟨distinct, each⟩ := gather_silent loud as .empty List.nodup_nil readable
  have entries : (gather key repeated read .empty as).value.entries =
      as.map fun a => (key a, (read a).value) := by
    rw [gather_value as .empty distinct]
    rfl
  rw [entries] at silent ⊢
  simpa using absorb_merges_from wrap named as (fun a member => first a (each a member))
    (fun a member old before => again a old before (each a member)) t [] distinct merged.start
    silent

end Runs

end SchemaAtlas
