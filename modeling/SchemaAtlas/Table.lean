/-!
# Tables of named entries

A table keeps its entries in the order in which their names were first added. Positions in this
order are the handles by which the rest of the library refers to types, directives, fields,
arguments and enum values, so no operation here ever moves an entry.
-/

namespace SchemaAtlas

/-- Named entries, oldest first. -/
structure Table (α : Type) where
  entries : List (String × α)

namespace Table

variable {α β : Type}

def empty : Table α := ⟨[]⟩

instance : Inhabited (Table α) := ⟨empty⟩

def keys (t : Table α) : List String := t.entries.map Prod.fst

def values (t : Table α) : List α := t.entries.map Prod.snd

def size (t : Table α) : Nat := t.entries.length

def isEmpty (t : Table α) : Bool := t.entries.isEmpty

def contains (t : Table α) (name : String) : Bool := t.keys.contains name

def get? (t : Table α) (name : String) : Option α := t.entries.lookup name

/-- The entry at a position, with its name. -/
def at? (t : Table α) (index : Nat) : Option (String × α) := t.entries[index]?

/-- The position of a name. -/
def indexOf? (t : Table α) (name : String) : Option Nat := t.keys.idxOf? name

/-- Add an entry at the end. Callers first make sure that the name is new. -/
def push (t : Table α) (name : String) (value : α) : Table α := ⟨t.entries ++ [(name, value)]⟩

/-- Change the value of a name in place. -/
def modify (t : Table α) (name : String) (f : α → α) : Table α :=
  ⟨t.entries.map fun e => if e.1 = name then (e.1, f e.2) else e⟩

/-- A repeated name keeps its position and takes the new value. -/
def insert (t : Table α) (name : String) (value : α) : Table α :=
  if t.contains name then t.modify name (fun _ => value) else t.push name value

def ofList (pairs : List (String × α)) : Table α :=
  pairs.foldl (fun t p => t.insert p.1 p.2) empty

def map (f : α → β) (t : Table α) : Table β := ⟨t.entries.map fun e => (e.1, f e.2)⟩

/-- Map every value together with its position. -/
def mapIdx (f : Nat → α → β) (t : Table α) : Table β :=
  ⟨t.entries.mapIdx fun i e => (e.1, f i e.2)⟩

@[simp] theorem keys_empty : (empty : Table α).keys = [] := rfl

@[simp] theorem keys_push (t : Table α) (name : String) (value : α) :
    (t.push name value).keys = t.keys ++ [name] := by
  simp [keys, push]

@[simp] theorem keys_modify (t : Table α) (name : String) (f : α → α) :
    (t.modify name f).keys = t.keys := by
  simp only [keys, modify, List.map_map]
  apply List.map_congr_left
  intro e _
  by_cases h : e.1 = name <;> simp [h]

@[simp] theorem keys_map (f : α → β) (t : Table α) : (t.map f).keys = t.keys := by
  simp [keys, map]

@[simp] theorem keys_mapIdx (f : Nat → α → β) (t : Table α) : (t.mapIdx f).keys = t.keys := by
  apply List.ext_getElem? ; intro i
  simp [keys, mapIdx, List.getElem?_mapIdx]
  cases t.entries[i]? <;> rfl

theorem contains_iff_mem (t : Table α) (name : String) :
    t.contains name = true ↔ name ∈ t.keys := by
  simp [contains]

end Table

end SchemaAtlas
