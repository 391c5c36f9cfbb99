import SchemaAtlas.Table

/-!
# Facts about tables

Once the names of a table are distinct, the three ways to look something up agree: by name, by
position, and as a member of the list of entries. The tables of a schema graph are moreover keyed:
each entry stands under its own name.
-/

namespace SchemaAtlas

namespace Table

variable {α β : Type}

theorem entries_ext {s t : Table α} (h : s.entries = t.entries) : s = t := by
  cases s
  cases t
  exact congrArg Table.mk h

theorem ext_at? {s t : Table α} (h : ∀ i, s.at? i = t.at? i) : s = t :=
  entries_ext (List.ext_getElem? h)

@[simp] theorem map_entries (f : α → β) (t : Table α) :
    (t.map f).entries = t.entries.map fun e => (e.1, f e.2) := rfl

@[simp] theorem values_map (f : α → β) (t : Table α) : (t.map f).values = t.values.map f := by
  simp [values, map]

@[simp] theorem isEmpty_map (f : α → β) (t : Table α) : (t.map f).isEmpty = t.isEmpty := by
  simp [isEmpty, map]

@[simp] theorem contains_map (f : α → β) (t : Table α) (name : String) :
    (t.map f).contains name = t.contains name := by
  simp [contains]

@[simp] theorem indexOf?_map (f : α → β) (t : Table α) (name : String) :
    (t.map f).indexOf? name = t.indexOf? name := by
  simp [indexOf?]

@[simp] theorem get?_map (f : α → β) (t : Table α) (name : String) :
    (t.map f).get? name = (t.get? name).map f := by
  obtain ⟨entries⟩ := t
  simp only [get?, map_entries]
  induction entries with
  | nil => rfl
  | cons e rest ih =>
    obtain ⟨key, value⟩ := e
    by_cases same : name = key
    · simp [same]
    · have differs : (name == key) = false := beq_eq_false_iff_ne.mpr same
      simp [List.lookup_cons, differs, ih]

@[simp] theorem at?_map (f : α → β) (t : Table α) (i : Nat) :
    (t.map f).at? i = (t.at? i).map fun e => (e.1, f e.2) := by
  simp [at?]

@[simp] theorem at?_mapIdx (f : Nat → α → β) (t : Table α) (i : Nat) :
    (t.mapIdx f).at? i = (t.at? i).map fun e => (e.1, f i e.2) := by
  simp [at?, mapIdx]

@[simp] theorem at?_modify (t : Table α) (name : String) (f : α → α) (i : Nat) :
    (t.modify name f).at? i = (t.at? i).map fun e => if e.1 = name then (e.1, f e.2) else e := by
  simp [at?, modify]

theorem size_eq_length_keys (t : Table α) : t.size = t.keys.length := by
  simp [size, keys]

@[simp] theorem size_mapIdx (f : Nat → α → β) (t : Table α) : (t.mapIdx f).size = t.size := by
  simp [size, mapIdx]

theorem map_map {γ : Type} (g : β → γ) (f : α → β) (t : Table α) :
    (t.map f).map g = t.map fun a => g (f a) := by
  simp [map, Function.comp_def]

theorem mem_entries_iff (t : Table α) (e : String × α) :
    e ∈ t.entries ↔ ∃ i, t.at? i = some e :=
  List.mem_iff_getElem?

theorem mem_keys_iff (t : Table α) (name : String) :
    name ∈ t.keys ↔ ∃ i value, t.at? i = some (name, value) := by
  simp only [keys, List.mem_map, mem_entries_iff]
  constructor
  · rintro ⟨⟨_, value⟩, ⟨i, found⟩, rfl⟩
    exact ⟨i, value, found⟩
  · rintro ⟨i, value, found⟩
    exact ⟨(name, value), ⟨i, found⟩, rfl⟩

@[simp] theorem keys_getElem? (t : Table α) (i : Nat) : t.keys[i]? = (t.at? i).map Prod.fst := by
  simp [keys, at?]

@[simp] theorem values_getElem? (t : Table α) (i : Nat) :
    t.values[i]? = (t.at? i).map Prod.snd := by
  simp [values, at?]

theorem values_mapIdx (f : Nat → α → β) (t : Table α) :
    (t.mapIdx f).values = t.values.mapIdx f := by
  apply List.ext_getElem?
  intro i
  simp [Function.comp_def]

/-- The value that a value of a mapped table comes from. -/
theorem mem_values_mapIdx {f : Nat → α → β} {t : Table α} {b : β}
    (member : b ∈ (t.mapIdx f).values) : ∃ i, ∃ a ∈ t.values, f i a = b := by
  rw [values_mapIdx, List.mem_mapIdx] at member
  obtain ⟨i, bound, rfl⟩ := member
  exact ⟨i, _, List.getElem_mem bound, rfl⟩

theorem at?_isSome_iff (t : Table α) (i : Nat) : (t.at? i).isSome ↔ i < t.size := by
  simp [at?, size]

/-- Distinct names stand at distinct positions. -/
theorem at?_index_unique {t : Table α} (distinct : t.keys.Nodup) {i j : Nat} {name : String}
    {a b : α} (hi : t.at? i = some (name, a)) (hj : t.at? j = some (name, b)) : i = j := by
  have ki : t.keys[i]? = some name := by simp [hi]
  have kj : t.keys[j]? = some name := by simp [hj]
  obtain ⟨bound, _⟩ := List.getElem?_eq_some_iff.mp ki
  exact (List.getElem?_inj bound distinct).mp (ki.trans kj.symm)

theorem indexOf?_eq_some_iff {t : Table α} (distinct : t.keys.Nodup) (name : String) (i : Nat) :
    t.indexOf? name = some i ↔ ∃ value, t.at? i = some (name, value) := by
  have at_index : ∀ j, t.indexOf? name = some j → ∃ value, t.at? j = some (name, value) := by
    intro j found
    have key : t.keys[j]? = some name := by
      rw [indexOf?, List.idxOf?, List.findIdx?_eq_some_iff_getElem] at found
      obtain ⟨bound, same, _⟩ := found
      rw [List.getElem?_eq_getElem bound, eq_of_beq same]
    rw [keys_getElem?, Option.map_eq_some_iff] at key
    obtain ⟨⟨_, value⟩, entry, rfl⟩ := key
    exact ⟨value, entry⟩
  constructor
  · exact at_index i
  · rintro ⟨value, entry⟩
    have member : name ∈ t.keys := (t.mem_keys_iff name).mpr ⟨i, value, entry⟩
    obtain ⟨j, found⟩ := Option.isSome_iff_exists.mp (List.isSome_idxOf?.mpr member)
    obtain ⟨other, entry'⟩ := at_index j found
    rw [at?_index_unique distinct entry entry']
    exact found

theorem indexOf?_eq_none_iff (t : Table α) (name : String) :
    t.indexOf? name = none ↔ name ∉ t.keys := by
  simp [indexOf?]

theorem get?_eq_some_iff {t : Table α} (distinct : t.keys.Nodup) (name : String) (value : α) :
    t.get? name = some value ↔ (name, value) ∈ t.entries := by
  obtain ⟨entries⟩ := t
  simp only [get?, keys] at distinct ⊢
  induction entries with
  | nil => simp
  | cons e rest ih =>
    obtain ⟨key, first⟩ := e
    rw [List.map_cons, List.nodup_cons] at distinct
    by_cases same : name = key
    · subst same
      have absent : (name, value) ∉ rest := fun member =>
        distinct.1 (List.mem_map.mpr ⟨_, member, rfl⟩)
      simp [absent, eq_comm]
    · have differs : (name == key) = false := beq_eq_false_iff_ne.mpr same
      simp only [List.lookup_cons, differs, ih distinct.2]
      simp [same]

theorem get?_eq_none_iff (t : Table α) (name : String) : t.get? name = none ↔ name ∉ t.keys := by
  obtain ⟨entries⟩ := t
  simp only [get?, keys]
  induction entries with
  | nil => simp
  | cons e rest ih =>
    obtain ⟨key, first⟩ := e
    by_cases same : name = key
    · simp [same]
    · have differs : (name == key) = false := beq_eq_false_iff_ne.mpr same
      simp only [List.lookup_cons, differs, ih]
      simp [same]

theorem mem_keys_of_get? {t : Table α} {name : String} {value : α}
    (found : t.get? name = some value) : name ∈ t.keys := by
  refine Decidable.not_not.mp fun absent => ?_
  rw [(t.get?_eq_none_iff name).mpr absent] at found
  cases found

theorem get?_push (t : Table α) (key : String) (value : α) (name : String) :
    (t.push key value).get? name =
      (t.get? name).or (if name = key then some value else none) := by
  rw [get?, push, List.lookup_append]
  by_cases same : name = key
  · simp [get?, same]
  · have differs : (name == key) = false := beq_eq_false_iff_ne.mpr same
    simp [get?, List.lookup_cons, differs, same]

theorem get?_modify (t : Table α) (key : String) (f : α → α) (name : String) :
    (t.modify key f).get? name = (t.get? name).map fun v => if name = key then f v else v := by
  simp only [get?, modify]
  induction t.entries with
  | nil => rfl
  | cons e rest ih =>
    obtain ⟨k, v⟩ := e
    by_cases here : name = k
    · by_cases same : k = key <;> simp [here, same]
    · have differs : (name == k) = false := beq_eq_false_iff_ne.mpr here
      by_cases same : k = key
      · simp only [List.map_cons, same, ↓reduceIte, List.lookup_cons, same ▸ differs]
        exact ih
      · simp only [List.map_cons, same, ↓reduceIte, List.lookup_cons, differs]
        exact ih

theorem contains_eq_isSome (t : Table α) (name : String) :
    t.contains name = (t.get? name).isSome := by
  have absent := t.get?_eq_none_iff name
  have present := t.contains_iff_mem name
  cases found : t.get? name with
  | none =>
    rw [found] at absent
    simpa using fun h => absent.mp rfl (present.mp h)
  | some value =>
    rw [found] at absent
    have member : name ∈ t.keys := Decidable.not_not.mp fun h => by cases absent.mpr h
    simpa using present.mpr member

/-- Under distinct names, a name leads to the same value directly and through its position. -/
theorem get?_eq_some_iff_at? {t : Table α} (distinct : t.keys.Nodup) (name : String) (value : α) :
    t.get? name = some value ↔ ∃ i, t.at? i = some (name, value) := by
  rw [get?_eq_some_iff distinct, mem_entries_iff]

/-- The first of the names that a table can still take is free. -/
theorem contains_eq_false_of_nodup (t : Table α) {name : String} {names : List String}
    (distinct : (t.keys ++ name :: names).Nodup) : t.contains name = false := by
  rw [Bool.eq_false_iff, ne_eq, contains_iff_mem]
  intro taken
  exact (List.nodup_append.mp distinct).2.2 name taken name List.mem_cons_self rfl

theorem nodup_keys_push {t : Table α} (distinct : t.keys.Nodup) {name : String} {value : α}
    (absent : name ∉ t.keys) : (t.push name value).keys.Nodup := by
  rw [keys_push, List.nodup_append]
  refine ⟨distinct, by simp, ?_⟩
  intro a old b new same
  exact absent (List.mem_singleton.mp new ▸ same ▸ old)

/-- Distinct names, each the name of its value. -/
structure Keyed (name : α → String) (t : Table α) : Prop where
  distinct : t.keys.Nodup
  named : ∀ e ∈ t.entries, name e.2 = e.1

namespace Keyed

variable {name : α → String} {t : Table α}

theorem empty : Keyed name (.empty : Table α) := ⟨List.nodup_nil, by simp [Table.empty]⟩

theorem push (keyed : Keyed name t) {key : String} {value : α} (own : name value = key)
    (absent : t.contains key = false) : Keyed name (t.push key value) where
  distinct := by
    have fresh : key ∉ t.keys := by
      simpa [Table.contains] using absent
    exact nodup_keys_push keyed.distinct fresh
  named := by
    intro e member
    rcases List.mem_append.mp member with old | new
    · exact keyed.named e old
    · obtain rfl := List.mem_singleton.mp new
      exact own

theorem modify (keyed : Keyed name t) {key : String} {f : α → α}
    (kept : ∀ value, (key, value) ∈ t.entries → name (f value) = key) :
    Keyed name (t.modify key f) where
  distinct := by simpa using keyed.distinct
  named := by
    intro e member
    obtain ⟨⟨k, old⟩, present, rfl⟩ := List.mem_map.mp member
    by_cases same : k = key
    · subst same
      simpa using kept old present
    · simpa [same] using keyed.named _ present

theorem mapIdx {β : Type} {name' : β → String} (keyed : Keyed name t) {f : Nat → α → β}
    (kept : ∀ i value, name' (f i value) = name value) : Keyed name' (t.mapIdx f) where
  distinct := by simpa using keyed.distinct
  named := by
    intro e member
    obtain ⟨i, entry⟩ := (mem_entries_iff _ e).mp member
    rw [at?_mapIdx, Option.map_eq_some_iff] at entry
    obtain ⟨old, entry, rfl⟩ := entry
    rw [kept]
    exact keyed.named old ((mem_entries_iff t old).mpr ⟨i, entry⟩)

theorem map {β : Type} {name' : β → String} (keyed : Keyed name t) {f : α → β}
    (kept : ∀ value, name' (f value) = name value) : Keyed name' (t.map f) where
  distinct := by simpa using keyed.distinct
  named := by
    intro e member
    obtain ⟨old, present, rfl⟩ := List.mem_map.mp member
    rw [kept, keyed.named old present]

theorem at?_name (keyed : Keyed name t) {i : Nat} {e : String × α} (found : t.at? i = some e) :
    name e.2 = e.1 :=
  keyed.named e ((mem_entries_iff t e).mpr ⟨i, found⟩)

theorem map_values (keyed : Keyed name t) : t.values.map name = t.keys := by
  rw [Table.values, Table.keys, List.map_map]
  exact List.map_congr_left fun e member => keyed.named e member

theorem mem_keys (keyed : Keyed name t) {key : String} :
    key ∈ t.keys ↔ ∃ value ∈ t.values, name value = key := by
  rw [← keyed.map_values, List.mem_map]

/-- A value is found under its own name. -/
theorem get?_name (keyed : Keyed name t) {value : α} (member : value ∈ t.values) :
    t.get? (name value) = some value := by
  obtain ⟨e, entry, rfl⟩ := List.mem_map.mp member
  rw [get?_eq_some_iff keyed.distinct, keyed.named e entry]
  exact entry

theorem name_of_get? (keyed : Keyed name t) {key : String} {value : α}
    (found : t.get? key = some value) : name value = key :=
  keyed.named _ ((get?_eq_some_iff keyed.distinct key value).mp found)

end Keyed

end Table

end SchemaAtlas
