import SchemaAtlas.Proofs.Merging

/-!
# Growth

Extensions add to a graph and take nothing away. The members of the extended type stay where they
are and as they are, apart from the usages and arguments that are added to them; so positions that
were handed out before stay good. An extension that is not reported has added something somewhere.
-/

namespace SchemaAtlas

/-- A relation of growth, with the pairs among which something is gained. What is gained is not lost
by growing before or after. -/
structure Growth {α : Type} (grows gains : α → α → Prop) : Prop where
  refl : ∀ a, grows a a
  trans : ∀ {a b c}, grows a b → grows b c → grows a c
  gain_grow : ∀ {a b c}, gains a b → grows b c → gains a c
  grow_gain : ∀ {a b c}, grows a b → gains b c → gains a c

/-- What never changes. -/
theorem Growth.fixed {α : Type} : Growth (@Eq α) fun _ _ => False where
  refl _ := rfl
  trans := Eq.trans
  gain_grow impossible _ := impossible
  grow_gain _ impossible := impossible

theorem length_lt_of_append {α : Type} {old added : List α} (nonempty : added ≠ []) :
    old.length < (old ++ added).length := by
  have positive := List.length_pos_iff.mpr nonempty
  rw [List.length_append]
  omega

namespace Table

variable {α : Type}

/-- The entries of a table keep their names and positions, and each of them may grow. -/
structure Grows (grows : α → α → Prop) (old new : Table α) : Prop where
  keys : old.keys <+: new.keys
  entries : ∀ i name a, old.at? i = some (name, a) → ∃ b, new.at? i = some (name, b) ∧ grows a b

/-- There are more entries, or one has gained. -/
def Gains (gains : α → α → Prop) (old new : Table α) : Prop :=
  old.size < new.size ∨
    ∃ i name a b, old.at? i = some (name, a) ∧ new.at? i = some (name, b) ∧ gains a b

variable {grows gains : α → α → Prop}

theorem Grows.size_le {old new : Table α} (grown : old.Grows grows new) : old.size ≤ new.size := by
  rw [size_eq_length_keys, size_eq_length_keys]
  exact grown.keys.length_le

/-- Tables grow as their entries do. -/
theorem growth (growth : Growth grows gains) :
    Growth (Table.Grows grows) (Table.Gains gains) where
  refl t := ⟨List.prefix_refl _, fun i name a entry => ⟨a, entry, growth.refl a⟩⟩
  trans first second := by
    refine ⟨first.keys.trans second.keys, fun i name a entry => ?_⟩
    obtain ⟨b, entry', grown⟩ := first.entries i name a entry
    obtain ⟨c, entry'', grown'⟩ := second.entries i name b entry'
    exact ⟨c, entry'', growth.trans grown grown'⟩
  gain_grow gained grown := by
    rcases gained with more | ⟨i, name, a, b, entry, entry', gained⟩
    · exact .inl (Nat.lt_of_lt_of_le more grown.size_le)
    · obtain ⟨c, entry'', grown'⟩ := grown.entries i name b entry'
      exact .inr ⟨i, name, a, c, entry, entry'', growth.gain_grow gained grown'⟩
  grow_gain {old mid new} grown gained := by
    rcases gained with more | ⟨i, name, b, c, entry', entry'', gained⟩
    · exact .inl (Nat.lt_of_le_of_lt grown.size_le more)
    · cases entry : old.at? i with
      | none =>
        -- The entry that gained is itself a new one.
        have outside : ¬ i < old.size := by
          simp [← at?_isSome_iff, entry]
        have inside : i < new.size := by
          simp [← at?_isSome_iff, entry'']
        left
        omega
      | some e =>
        obtain ⟨key, a⟩ := e
        obtain ⟨b', same, grown'⟩ := grown.entries i key a entry
        cases same.symm.trans entry'
        exact .inr ⟨i, name, a, c, entry, entry'', growth.grow_gain grown' gained⟩

/-- Where entries cannot gain, there are more of them. -/
theorem Gains.size_lt {old new : Table α} (gained : old.Gains (fun _ _ => False) new) :
    old.size < new.size := by
  rcases gained with more | ⟨_, _, _, _, _, _, impossible⟩
  · exact more
  · exact impossible.elim

theorem at?_push_of_lt (t : Table α) (name : String) (value : α) {i : Nat} {e : String × α}
    (entry : t.at? i = some e) : (t.push name value).at? i = some e := by
  have inside : i < t.entries.length := (List.getElem?_eq_some_iff.mp entry).1
  rw [at?, push, List.getElem?_append_left inside]
  exact entry

theorem grows_push (growth : Growth grows gains) (t : Table α) (name : String) (value : α) :
    t.Grows grows (t.push name value) where
  keys := by
    rw [keys_push]
    exact List.prefix_append _ _
  entries _ _ a entry := ⟨a, t.at?_push_of_lt name value entry, growth.refl a⟩

theorem grows_modify (growth : Growth grows gains) {t : Table α} (distinct : t.keys.Nodup)
    {name : String} {old kept : α} (found : t.get? name = some old) (grown : grows old kept) :
    t.Grows grows (t.modify name fun _ => kept) where
  keys := by simp
  entries i key a entry := by
    by_cases here : key = name
    · subst here
      obtain ⟨j, entry'⟩ := (get?_eq_some_iff_at? distinct key old).mp found
      obtain rfl := at?_index_unique distinct entry entry'
      cases entry.symm.trans entry'
      exact ⟨kept, by simp [entry], grown⟩
    · exact ⟨a, by simp [entry, here], growth.refl a⟩

end Table

/-! Adding entries one at a time. -/

section Absorbing

variable {α : Type} {grows gains : α → α → Prop} {clash : α → α → Reported α}

/-- A table with one entry more, or with one that went through `clash`. -/
def absorbed (clash : α → α → Reported α) (t : Table α) (e : String × α) : Table α :=
  match t.get? e.1 with
  | some old => t.modify e.1 fun _ => (clash old e.2).value
  | none => t.push e.1 e.2

theorem absorb_cons_value (clash : α → α → Reported α) (t : Table α) (e : String × α)
    (rest : List (String × α)) :
    (absorb clash t (e :: rest)).value = (absorb clash (absorbed clash t e) rest).value := by
  obtain ⟨name, new⟩ := e
  rw [absorb, absorbed]
  cases t.get? name <;> rfl

theorem absorb_cons_problems (clash : α → α → Reported α) (t : Table α) (e : String × α)
    (rest : List (String × α)) :
    (absorb clash t (e :: rest)).problems =
      ((t.get? e.1).elim [] fun old => (clash old e.2).problems) ++
        (absorb clash (absorbed clash t e) rest).problems := by
  obtain ⟨name, new⟩ := e
  rw [absorb, absorbed]
  cases t.get? name with
  | some old => simp [Reported.bind_problems]
  | none => rfl

theorem absorbed_distinct {t : Table α} (distinct : t.keys.Nodup) (e : String × α) :
    (absorbed clash t e).keys.Nodup := by
  unfold absorbed
  cases found : t.get? e.1 with
  | some old => simpa using distinct
  | none => exact Table.nodup_keys_push distinct ((t.get?_eq_none_iff e.1).mp found)

theorem absorbed_get? (t : Table α) (e : String × α) {name : String} (other : name ≠ e.1) :
    (absorbed clash t e).get? name = t.get? name := by
  unfold absorbed
  cases t.get? e.1 with
  | some old => simp [Table.get?_modify, other]
  | none => simp [Table.get?_push, other]

/-- A relation between the new entries and the old ones of their names. -/
def Meets (t : Table α) (entries : List (String × α)) (related : α → α → Prop) : Prop :=
  ∀ e ∈ entries, ∀ old, t.get? e.1 = some old → related old e.2

/-- The names of the new entries are distinct, so each of them meets the table as it was. -/
theorem meets_absorbed {t : Table α} {e : String × α} {rest : List (String × α)}
    {related : α → α → Prop} (absent : e.1 ∉ rest.map Prod.fst) :
    Meets (absorbed clash t e) rest related ↔ Meets t rest related := by
  have unchanged : ∀ e' ∈ rest, (absorbed clash t e).get? e'.1 = t.get? e'.1 := by
    intro e' member
    exact absorbed_get? t e fun same => absent (same ▸ List.mem_map_of_mem member)
  constructor
  · intro meets e' member old found
    exact meets e' member old ((unchanged e' member).trans found)
  · intro meets e' member old found
    exact meets e' member old ((unchanged e' member).symm.trans found)

theorem meets_cons {t : Table α} {e : String × α} {rest : List (String × α)}
    {related : α → α → Prop} :
    Meets t (e :: rest) related ↔
      (∀ old, t.get? e.1 = some old → related old e.2) ∧ Meets t rest related :=
  List.forall_mem_cons

theorem absorbed_grows (growth : Growth grows gains) {t : Table α} (distinct : t.keys.Nodup)
    {e : String × α}
    (grown : ∀ old, t.get? e.1 = some old → grows old (clash old e.2).value) :
    t.Grows grows (absorbed clash t e) := by
  unfold absorbed
  cases found : t.get? e.1 with
  | some old => exact Table.grows_modify growth distinct found (grown old found)
  | none => exact Table.grows_push growth t e.1 e.2

theorem absorbed_gains {t : Table α} (distinct : t.keys.Nodup) {e : String × α}
    (gained : ∀ old, t.get? e.1 = some old → gains old (clash old e.2).value) :
    t.Gains gains (absorbed clash t e) := by
  unfold absorbed
  cases found : t.get? e.1 with
  | some old =>
    obtain ⟨i, entry⟩ := (Table.get?_eq_some_iff_at? distinct e.1 old).mp found
    exact .inr ⟨i, e.1, old, _, entry, by simp [entry], gained old found⟩
  | none =>
    left
    simp [Table.size, Table.push]

theorem absorb_grows (growth : Growth grows gains) {entries : List (String × α)}
    (names : (entries.map Prod.fst).Nodup) {t : Table α} (distinct : t.keys.Nodup)
    (grown : Meets t entries fun old new => grows old (clash old new).value) :
    t.Grows grows (absorb clash t entries).value := by
  induction entries generalizing t with
  | nil => exact (Table.growth growth).refl t
  | cons e rest ih =>
    obtain ⟨absent, later⟩ := List.nodup_cons.mp names
    obtain ⟨here, others⟩ := meets_cons.mp grown
    rw [absorb_cons_value]
    exact (Table.growth growth).trans (absorbed_grows growth distinct here)
      (ih later (absorbed_distinct distinct e) ((meets_absorbed absent).mpr others))

/-- One entry that brings something is enough. -/
theorem absorb_gains (growth : Growth grows gains) {entries : List (String × α)}
    (names : (entries.map Prod.fst).Nodup) {t : Table α} (distinct : t.keys.Nodup)
    (grown : Meets t entries fun old new => grows old (clash old new).value)
    {e : String × α} (member : e ∈ entries)
    (gained : ∀ old, t.get? e.1 = some old → gains old (clash old e.2).value) :
    t.Gains gains (absorb clash t entries).value := by
  induction entries generalizing t with
  | nil => cases member
  | cons first rest ih =>
    obtain ⟨absent, later⟩ := List.nodup_cons.mp names
    obtain ⟨here, others⟩ := meets_cons.mp grown
    have distinct' : (absorbed clash t first).keys.Nodup := absorbed_distinct distinct first
    have grown' : Meets (absorbed clash t first) rest fun old new =>
        grows old (clash old new).value := (meets_absorbed absent).mpr others
    rw [absorb_cons_value]
    rcases List.mem_cons.mp member with rfl | inside
    · exact (Table.growth growth).gain_grow (absorbed_gains distinct gained)
        (absorb_grows growth later distinct' grown')
    · refine (Table.growth growth).grow_gain (absorbed_grows growth distinct here)
        (ih later distinct' grown' inside fun old found => gained old ?_)
      rwa [absorbed_get?] at found
      exact fun same => absent (same ▸ List.mem_map_of_mem inside)

/-- Without a report, no clash is reported. -/
theorem absorb_silent {entries : List (String × α)} (names : (entries.map Prod.fst).Nodup)
    {t : Table α} (silent : (absorb clash t entries).problems = []) :
    Meets t entries fun old new => (clash old new).problems = [] := by
  induction entries generalizing t with
  | nil => exact List.forall_mem_nil _
  | cons e rest ih =>
    obtain ⟨absent, later⟩ := List.nodup_cons.mp names
    rw [absorb_cons_problems, List.append_eq_nil_iff] at silent
    refine meets_cons.mpr ⟨fun old found => ?_, (meets_absorbed absent).mp (ih later silent.2)⟩
    simpa [found] using silent.1

/-- Entries that are all taken in without a report bring something, if there are any. -/
theorem absorb_gains_of_silent (growth : Growth grows gains) {entries : List (String × α)}
    (names : (entries.map Prod.fst).Nodup) {t : Table α} (distinct : t.keys.Nodup)
    (grown : Meets t entries fun old new => grows old (clash old new).value)
    (gained : Meets t entries fun old new => (clash old new).problems = [] →
      gains old (clash old new).value)
    (nonempty : entries ≠ []) (silent : (absorb clash t entries).problems = []) :
    t.Gains gains (absorb clash t entries).value := by
  obtain ⟨e, member⟩ := List.exists_mem_of_ne_nil entries nonempty
  refine absorb_gains growth names distinct grown member fun old found => ?_
  exact gained e member old found (absorb_silent names silent e member old found)

end Absorbing

section Gathering

variable {α β : Type} {key : α → String} {repeated : α → Reported Unit} {read : α → Reported β}
  {grows gains : β → β → Prop}

theorem gather_grows (growth : Growth grows gains) (as : List α) (t : Table β) :
    t.Grows grows (gather key repeated read t as).value := by
  induction as generalizing t with
  | nil => exact (Table.growth growth).refl t
  | cons a rest ih =>
    rw [gather]
    split
    · exact ih t
    · exact (Table.growth growth).trans (Table.grows_push growth t _ _) (ih _)

theorem gather_gains (growth : Growth grows gains) (loud : ∀ a, (repeated a).problems ≠ [])
    {as : List α} (nonempty : as ≠ []) {t : Table β}
    (silent : (gather key repeated read t as).problems = []) :
    t.Gains gains (gather key repeated read t as).value := by
  obtain ⟨a, rest, rfl⟩ := List.exists_cons_of_ne_nil nonempty
  rw [gather] at silent ⊢
  split
  · next taken =>
    rw [if_pos taken, Reported.bind_problems, List.append_eq_nil_iff] at silent
    exact absurd silent.1 (loud a)
  · exact (Table.growth growth).gain_grow (.inl (by simp [Table.size, Table.push]))
      (gather_grows growth rest _)

/-- What is read without a report is there. -/
theorem gathered_ne_nil (loud : ∀ a, (repeated a).problems ≠ []) {as : List α}
    (nonempty : as ≠ []) (silent : (gather key repeated read .empty as).problems = []) :
    (gather key repeated read .empty as).value.entries ≠ [] := by
  have more := (gather_gains Growth.fixed loud nonempty silent).size_lt
  exact List.ne_nil_of_length_pos more

end Gathering

/-! What each element may gain. -/

/-- All but the usages stays as it is. -/
structure InputValue.Grows (old new : InputValue) : Prop where
  same : { new with usages := [] } = { old with usages := [] }
  usages : old.usages <+: new.usages

def InputValue.Gains (old new : InputValue) : Prop := old.usages.length < new.usages.length

theorem InputValue.growth : Growth InputValue.Grows InputValue.Gains where
  refl _ := ⟨rfl, List.prefix_refl _⟩
  trans first second := ⟨second.same.trans first.same, first.usages.trans second.usages⟩
  gain_grow gained grown := Nat.lt_of_lt_of_le gained grown.usages.length_le
  grow_gain grown gained := Nat.lt_of_le_of_lt grown.usages.length_le gained

/-- All but the usages and arguments stays as it is. -/
structure Field.Grows (old new : Field) : Prop where
  same : { new with usages := [], arguments := .empty } =
    { old with usages := [], arguments := .empty }
  usages : old.usages <+: new.usages
  arguments : old.arguments.Grows InputValue.Grows new.arguments

def Field.Gains (old new : Field) : Prop :=
  old.usages.length < new.usages.length ∨ old.arguments.Gains InputValue.Gains new.arguments

theorem Field.growth : Growth Field.Grows Field.Gains where
  refl f := ⟨rfl, List.prefix_refl _, (Table.growth InputValue.growth).refl f.arguments⟩
  trans first second := ⟨second.same.trans first.same, first.usages.trans second.usages,
    (Table.growth InputValue.growth).trans first.arguments second.arguments⟩
  gain_grow gained grown := gained.imp
    (fun more => Nat.lt_of_lt_of_le more grown.usages.length_le)
    (fun gained => (Table.growth InputValue.growth).gain_grow gained grown.arguments)
  grow_gain grown gained := gained.imp
    (fun more => Nat.lt_of_le_of_lt grown.usages.length_le more)
    (fun gained => (Table.growth InputValue.growth).grow_gain grown.arguments gained)

structure Shape.Grows (old new : Shape) : Prop where
  fields : old.fields.Grows Field.Grows new.fields
  implements : old.implements.Grows Eq new.implements

def Shape.Gains (old new : Shape) : Prop :=
  old.fields.Gains Field.Gains new.fields ∨ old.implements.size < new.implements.size

theorem Shape.Grows.refl (s : Shape) : s.Grows s :=
  ⟨(Table.growth Field.growth).refl _, (Table.growth Growth.fixed).refl _⟩

/-- Enum values, interfaces and union members do not change at all. -/
def TypeBody.Grows : TypeBody → TypeBody → Prop
  | .enum old, .enum new => old.Grows Eq new
  | .inputObject old, .inputObject new => old.Grows InputValue.Grows new
  | .interface old, .interface new => old.Grows new
  | .object old, .object new => old.Grows new
  | .scalar, .scalar => True
  | .union old, .union new => old.Grows Eq new
  | _, _ => False

def TypeBody.Gains : TypeBody → TypeBody → Prop
  | .enum old, .enum new => old.size < new.size
  | .inputObject old, .inputObject new => old.Gains InputValue.Gains new
  | .interface old, .interface new => old.Gains new
  | .object old, .object new => old.Gains new
  | .union old, .union new => old.size < new.size
  | _, _ => False

theorem TypeBody.Grows.refl (b : TypeBody) : b.Grows b := by
  cases b with
  | enum values => exact (Table.growth Growth.fixed).refl values
  | inputObject fields => exact (Table.growth InputValue.growth).refl fields
  | interface shape => exact Shape.Grows.refl shape
  | object shape => exact Shape.Grows.refl shape
  | scalar => trivial
  | union members => exact (Table.growth Growth.fixed).refl members

/-- All but the usages and members stays as it is. -/
structure TypeDef.Grows (old new : TypeDef) : Prop where
  same : { new with usages := [], body := .scalar } = { old with usages := [], body := .scalar }
  usages : old.usages <+: new.usages
  body : old.body.Grows new.body

def TypeDef.Gains (old new : TypeDef) : Prop :=
  old.usages.length < new.usages.length ∨ old.body.Gains new.body

theorem TypeDef.Grows.refl (d : TypeDef) : d.Grows d :=
  ⟨rfl, List.prefix_refl _, TypeBody.Grows.refl d.body⟩

structure SchemaBlock.Grows (old new : SchemaBlock) : Prop where
  location : new.location = old.location
  usages : old.usages <+: new.usages
  operations : old.operations <+: new.operations

def SchemaBlock.Gains (old new : SchemaBlock) : Prop :=
  old.usages.length < new.usages.length ∨ old.operations.length < new.operations.length

theorem SchemaBlock.Grows.refl (b : SchemaBlock) : b.Grows b :=
  ⟨rfl, List.prefix_refl _, List.prefix_refl _⟩

/-! Names are distinct in every table, as they are in a graph that was collected. -/

structure Shape.Distinct (s : Shape) : Prop where
  fields : s.fields.keys.Nodup
  arguments : ∀ e ∈ s.fields.entries, e.2.arguments.keys.Nodup
  implements : s.implements.keys.Nodup

def TypeBody.Distinct : TypeBody → Prop
  | .enum values => values.keys.Nodup
  | .inputObject fields => fields.keys.Nodup
  | .interface shape | .object shape => shape.Distinct
  | .scalar => True
  | .union members => members.keys.Nodup

structure Graph.Distinct (g : Graph) : Prop where
  types : g.types.keys.Nodup
  bodies : ∀ e ∈ g.types.entries, e.2.body.Distinct

theorem Shape.Fresh.distinct {s : Shape} (fresh : s.Fresh) : s.Distinct where
  fields := fresh.fields.distinct
  arguments e member := (fresh.fields.each e member).arguments.distinct
  implements := fresh.implements.distinct

theorem TypeBody.Fresh.distinct {b : TypeBody} (fresh : b.Fresh) : b.Distinct := by
  cases b with
  | enum values => exact (Table.All.toKeyed fresh).distinct
  | inputObject fields => exact (Table.All.toKeyed fresh).distinct
  | interface shape => exact Shape.Fresh.distinct fresh
  | object shape => exact Shape.Fresh.distinct fresh
  | scalar => trivial
  | union members => exact (Table.All.toKeyed fresh).distinct

theorem Graph.Fresh.distinct {g : Graph} (fresh : g.Fresh) : g.Distinct where
  types := fresh.types.distinct
  bodies e member := (fresh.types.each e member).body.distinct

namespace Extend

variable {origin : Origin} {location : SourceLocation} {type : ElementPath}

theorem withUsages_grows (old : InputValue) (added : List Usage) :
    old.Grows { old with usages := old.usages ++ added } :=
  ⟨rfl, List.prefix_append _ _⟩

theorem argument_grows (field : ElementPath) (old new : InputValue) :
    old.Grows (argument field old new).value := by
  rw [argument]
  split
  · exact InputValue.growth.refl old
  · exact withUsages_grows old new.usages

theorem argument_gains (field : ElementPath) {old new : InputValue}
    (same : old.type.equivalent new.type = true) (nonempty : new.usages ≠ []) :
    old.Gains (argument field old new).value := by
  simp only [argument, same, Bool.not_true, Bool.false_eq_true, if_false]
  exact length_lt_of_append nonempty

theorem inputField_grows (type : ElementPath) (old new : InputValue) :
    old.Grows (inputField type old new).value := by
  rw [inputField]
  split
  · exact InputValue.growth.refl old
  · split
    · exact InputValue.growth.refl old
    · exact withUsages_grows old new.usages

theorem inputField_gains {old new : InputValue} (silent : (inputField type old new).problems = []) :
    old.Gains (inputField type old new).value := by
  rw [inputField] at silent ⊢
  by_cases same : old.type.equivalent new.type = true
  · by_cases nothing : new.usages.isEmpty = true
    · simp [same, nothing] at silent
    · simp only [same, nothing, Bool.not_true, Bool.false_eq_true, if_false]
      exact length_lt_of_append fun none => nothing (List.isEmpty_iff.mpr none)
  · simp [same] at silent

theorem field_grows (type : ElementPath) {old new : Field} (distinct : old.arguments.keys.Nodup)
    (names : new.arguments.keys.Nodup) : old.Grows (field type old new).value := by
  rw [field]
  split
  · exact Field.growth.refl old
  · have arguments : old.arguments.Grows InputValue.Grows
        (absorb (argument (type.child (.field new.name))) old.arguments
          new.arguments.entries).value :=
      absorb_grows InputValue.growth names distinct fun e _ old _ => argument_grows _ old e.2
    simp only [Reported.bind_value]
    split
    all_goals exact ⟨rfl, List.prefix_append _ _, arguments⟩

/-- A field that is declared again without a report has something to add. -/
theorem field_adds {old new : Field} (silent : (field type old new).problems = []) :
    new.usages ≠ [] ∨ ∃ e ∈ new.arguments.entries, argumentAdds old e = true := by
  rw [field] at silent
  by_cases same : old.type.equivalent new.type = true
  · by_cases nothing :
        (new.usages.isEmpty && !new.arguments.entries.any (argumentAdds old)) = true
    · simp [same, nothing] at silent
    · rw [Bool.and_eq_true, not_and_or, Bool.not_eq_true', Bool.not_eq_false, List.any_eq_true,
        List.isEmpty_iff] at nothing
      exact nothing
  · simp [same] at silent

theorem field_gains {old new : Field} (distinct : old.arguments.keys.Nodup)
    (names : new.arguments.keys.Nodup) (silent : (field type old new).problems = []) :
    old.Gains (field type old new).value := by
  obtain ⟨-, value⟩ := field_silent silent
  rw [Field.Gains, value]
  rcases field_adds silent with usages | ⟨e, member, adds⟩
  · exact .inl (length_lt_of_append usages)
  · refine .inr (absorb_gains InputValue.growth names distinct
      (fun e _ old _ => argument_grows _ old e.2) member fun old found => ?_)
    simp only [argumentAdds, found, Bool.and_eq_true, Bool.not_eq_true', List.isEmpty_eq_false_iff]
      at adds
    exact argument_gains _ adds.1 adds.2

/-- A list whose members may not be listed again. -/
theorem keepOld_absorb_grows {α : Type} {listed : Listed} {name : α → String}
    {place : α → SourceLocation} {t new : Table α} (distinct : t.keys.Nodup)
    (names : new.keys.Nodup) :
    t.Grows Eq (absorb (keepOld listed type name place) t new.entries).value :=
  absorb_grows Growth.fixed names distinct fun _ _ _ _ => rfl

theorem keepOld_absorb_gains {α : Type} {listed : Listed} {name : α → String}
    {place : α → SourceLocation} {t new : Table α} (distinct : t.keys.Nodup)
    (names : new.keys.Nodup) (nonempty : new.entries ≠ [])
    (silent : (absorb (keepOld listed type name place) t new.entries).problems = []) :
    t.size < (absorb (keepOld listed type name place) t new.entries).value.size := by
  refine (absorb_gains_of_silent Growth.fixed names distinct (fun _ _ _ _ => rfl) ?_ nonempty
    silent).size_lt
  intro e _ old _ quiet
  exact keepOld_problems listed type name place old e.2 quiet

/-- The arguments of a field and of its redeclaration. -/
theorem redeclared_distinct {s : Shape} (distinct : s.Distinct) (ds : List FieldDecl) :
    Meets s.fields (Collect.fields origin type ds).value.entries fun old new =>
      old.arguments.keys.Nodup ∧ new.arguments.keys.Nodup := by
  intro e member old found
  have listed := (Table.get?_eq_some_iff distinct.fields e.1 old).mp found
  have fresh := (Collect.fields_fresh origin type ds).each e member
  exact ⟨distinct.arguments _ listed, fresh.arguments.distinct⟩

theorem redeclared_grows {s : Shape} (distinct : s.Distinct) (ds : List FieldDecl) :
    Meets s.fields (Collect.fields origin type ds).value.entries fun old new =>
      old.Grows (field type old new).value := by
  intro e member old found
  obtain ⟨oldArguments, newArguments⟩ := redeclared_distinct distinct ds e member old found
  exact field_grows type oldArguments newArguments

theorem shape_grows {implements : List String} {fields : List FieldDecl} {old : Shape}
    (distinct : old.Distinct) :
    old.Grows (shape origin location type implements fields old).value where
  fields := absorb_grows Field.growth (Collect.fields_fresh origin type fields).distinct
    distinct.fields (redeclared_grows distinct fields)
  implements := keepOld_absorb_grows distinct.implements
    (Collect.typeRefs_fresh location type _ implements).distinct

theorem shape_gains {implements : List String} {fields : List FieldDecl} {old : Shape}
    (distinct : old.Distinct) (nonempty : (implements.isEmpty && fields.isEmpty) = false)
    (silent : (shape origin location type implements fields old).problems = []) :
    old.Gains (shape origin location type implements fields old).value := by
  simp only [shape, Reported.bind_problems, Reported.pure_problems, List.append_nil,
    List.append_eq_nil_iff] at silent
  obtain ⟨readImplements, readFields, mergedImplements, mergedFields⟩ := silent
  rw [Bool.and_eq_false_iff, List.isEmpty_eq_false_iff, List.isEmpty_eq_false_iff] at nonempty
  rcases nonempty with listed | listed
  · exact .inr (keepOld_absorb_gains distinct.implements
      (Collect.typeRefs_fresh location type _ implements).distinct
      (gathered_ne_nil (fun _ => reportDuplicate_problems _ _ _ _) listed readImplements)
      mergedImplements)
  · refine .inl (absorb_gains_of_silent Field.growth
      (Collect.fields_fresh origin type fields).distinct distinct.fields
      (redeclared_grows distinct fields) ?_
      (gathered_ne_nil (fun _ => reportDuplicate_problems _ _ _ _) listed readFields)
      mergedFields)
    intro e member f found quiet
    obtain ⟨oldArguments, newArguments⟩ := redeclared_distinct distinct fields e member f found
    exact field_gains oldArguments newArguments quiet

theorem body_grows (origin : Origin) (location : SourceLocation) (type : ElementPath)
    (d : BodyDecl) {old : TypeBody} (distinct : old.Distinct) :
    old.Grows (body origin location type d old).value := by
  unfold body
  split
  · next values old =>
    exact keepOld_absorb_grows distinct (Collect.enumValues_fresh origin type values).distinct
  · next fields old =>
    exact absorb_grows InputValue.growth
      (Collect.inputValues_fresh origin type _ _ fields).distinct distinct
      fun e _ old _ => inputField_grows type old e.2
  · exact shape_grows distinct
  · exact shape_grows distinct
  · exact gather_grows Growth.fixed _ _
  · exact TypeBody.Grows.refl _

theorem body_gains {d : BodyDecl} {old : TypeBody} (kind : old.kind = d.kind)
    (distinct : old.Distinct) (nonempty : d.isEmpty = false)
    (silent : (body origin location type d old).problems = []) :
    old.Gains (body origin location type d old).value := by
  cases d with
  | enum values =>
    cases old with
    | enum old =>
      simp only [body, Reported.bind_problems, Reported.pure_problems, List.append_nil,
        List.append_eq_nil_iff] at silent
      exact keepOld_absorb_gains distinct (Collect.enumValues_fresh origin type values).distinct
        (gathered_ne_nil (fun _ => reportDuplicate_problems _ _ _ _)
          (List.isEmpty_eq_false_iff.mp nonempty) silent.1) silent.2
    | _ => cases kind
  | inputObject fields =>
    cases old with
    | inputObject old =>
      simp only [body, Reported.bind_problems, Reported.pure_problems, List.append_nil,
        List.append_eq_nil_iff] at silent
      exact absorb_gains_of_silent InputValue.growth
        (Collect.inputValues_fresh origin type _ _ fields).distinct distinct
        (fun e _ old _ => inputField_grows type old e.2) (fun _ _ _ _ => inputField_gains)
        (gathered_ne_nil (fun _ => reportDuplicate_problems _ _ _ _)
          (List.isEmpty_eq_false_iff.mp nonempty) silent.1) silent.2
    | _ => cases kind
  | interface implements fields =>
    cases old with
    | interface old =>
      rw [body, Reported.bind_problems, Reported.pure_problems, List.append_nil] at silent
      exact shape_gains distinct nonempty silent
    | _ => cases kind
  | object implements fields =>
    cases old with
    | object old =>
      rw [body, Reported.bind_problems, Reported.pure_problems, List.append_nil] at silent
      exact shape_gains distinct nonempty silent
    | _ => cases kind
  | scalar => cases nonempty
  | union members =>
    cases old with
    | union old =>
      rw [body, Reported.bind_problems, Reported.pure_problems, List.append_nil] at silent
      exact (gather_gains Growth.fixed (fun _ => reportDuplicate_problems _ _ _ _)
        (List.isEmpty_eq_false_iff.mp nonempty) silent).size_lt
    | _ => cases kind

end Extend

namespace Graph

variable {g : Graph} {origin : Origin}

/-- One type of a graph grows. Everything else is left as it is, and where it is. -/
structure TypeGrows (g h : Graph) (name : String) : Prop where
  keys : h.types.keys = g.types.keys
  others : ∀ i other d, other ≠ name → g.types.at? i = some (other, d) →
    h.types.at? i = some (other, d)
  target : ∀ i d, g.types.at? i = some (name, d) →
    ∃ d', h.types.at? i = some (name, d') ∧ d.Grows d'
  directives : h.directives = g.directives
  block : h.block = g.block
  root : h.root = g.root

def TypeGains (g h : Graph) (name : String) : Prop :=
  ∃ i d d', g.types.at? i = some (name, d) ∧ h.types.at? i = some (name, d') ∧ d.Gains d'

/-- The schema block grows, if there is one, and nothing else changes. -/
structure BlockGrows (g h : Graph) : Prop where
  block : Option.Rel SchemaBlock.Grows g.block h.block
  types : h.types = g.types
  directives : h.directives = g.directives
  root : h.root = g.root

def BlockGains (g h : Graph) : Prop :=
  ∃ b b', g.block = some b ∧ h.block = some b' ∧ b.Gains b'

theorem TypeGrows.refl (g : Graph) (name : String) : g.TypeGrows g name :=
  ⟨rfl, fun _ _ _ _ entry => entry, fun _ d entry => ⟨d, entry, TypeDef.Grows.refl d⟩, rfl, rfl,
    rfl⟩

theorem typeGrows_modify (distinct : g.types.keys.Nodup) {name : String} {old kept : TypeDef}
    (found : g.types.get? name = some old) (grown : old.Grows kept) :
    g.TypeGrows { g with types := g.types.modify name fun _ => kept } name where
  keys := Table.keys_modify ..
  others i other d different entry := by simp [entry, different]
  target i d entry := by
    obtain ⟨j, entry'⟩ := (Table.get?_eq_some_iff_at? distinct name old).mp found
    obtain rfl := Table.at?_index_unique distinct entry entry'
    cases entry.symm.trans entry'
    exact ⟨kept, by simp [entry], grown⟩
  directives := rfl
  block := rfl
  root := rfl

theorem typeGains_modify (distinct : g.types.keys.Nodup) {name : String} {old kept : TypeDef}
    (found : g.types.get? name = some old) (gained : old.Gains kept) :
    g.TypeGains { g with types := g.types.modify name fun _ => kept } name := by
  obtain ⟨i, entry⟩ := (Table.get?_eq_some_iff_at? distinct name old).mp found
  exact ⟨i, old, kept, entry, by simp [entry], gained⟩

theorem Distinct.body_of_get? (distinct : g.Distinct) {name : String} {d : TypeDef}
    (found : g.types.get? name = some d) : d.body.Distinct :=
  distinct.bodies _ ((Table.get?_eq_some_iff distinct.types name d).mp found)

theorem extendType_grows (distinct : g.Distinct) (origin : Origin) (e : TypeExtension) :
    g.TypeGrows (g.extendType origin e).value e.name := by
  simp only [extendType]
  split
  · exact TypeGrows.refl g e.name
  · next old found =>
    split
    · exact TypeGrows.refl g e.name
    · split
      · exact TypeGrows.refl g e.name
      · exact typeGrows_modify distinct.types found ⟨rfl, List.prefix_append _ _,
          Extend.body_grows _ _ _ _ (distinct.body_of_get? found)⟩

theorem extendType_nonempty {e : TypeExtension} (silent : (g.extendType origin e).problems = []) :
    e.isEmpty = false := by
  obtain ⟨old, found, kind, -⟩ := extendType_silent silent
  by_contra nothing
  rw [Bool.not_eq_false] at nothing
  simp [extendType, found, kind, nothing] at silent

theorem usages_ne_nil {owner : ElementPath} {ds : List UsageDecl} (listed : ds ≠ []) :
    (Collect.usages origin owner ds).value ≠ [] := by
  rw [Collect.usages, Reported.each_value]
  simpa using listed

theorem extendType_gains (distinct : g.Distinct) {e : TypeExtension}
    (silent : (g.extendType origin e).problems = []) :
    g.TypeGains (g.extendType origin e).value e.name := by
  obtain ⟨old, found, kind, -, merged, value⟩ := extendType_silent silent
  rw [value]
  refine typeGains_modify distinct.types found ?_
  have nonempty := extendType_nonempty silent
  rw [TypeExtension.isEmpty, Bool.and_eq_false_iff, List.isEmpty_eq_false_iff] at nonempty
  rcases nonempty with usages | members
  · exact .inl (length_lt_of_append (usages_ne_nil usages))
  · exact .inr (Extend.body_gains kind (distinct.body_of_get? found) members merged)

theorem BlockGrows.refl (g : Graph) : g.BlockGrows g := by
  refine ⟨?_, rfl, rfl, rfl⟩
  cases g.block with
  | none => exact .none
  | some b => exact .some (SchemaBlock.Grows.refl b)

theorem extendSchema_grows (g : Graph) (origin : Origin) (d : SchemaDecl) :
    g.BlockGrows (g.extendSchema origin d).value := by
  simp only [extendSchema]
  split
  · exact BlockGrows.refl g
  · next old found =>
    simp only [Reported.bind_value]
    split
    · exact BlockGrows.refl g
    · refine ⟨?_, rfl, rfl, rfl⟩
      rw [found]
      exact .some ⟨rfl, List.prefix_append _ _, List.prefix_append _ _⟩

theorem extendSchema_nonempty {d : SchemaDecl}
    (silent : (g.extendSchema origin d).problems = []) :
    (Collect.usages origin .schema d.usages).value ≠ [] ∨
      Collect.bindings (origin.locate d.pos) d ≠ [] := by
  obtain ⟨old, found, -⟩ := extendSchema_silent silent
  by_contra nothing
  rw [not_or, not_not, not_not] at nothing
  simp [extendSchema, found, nothing] at silent

theorem extendSchema_gains {d : SchemaDecl} (silent : (g.extendSchema origin d).problems = []) :
    g.BlockGains (g.extendSchema origin d).value := by
  obtain ⟨old, found, -, value⟩ := extendSchema_silent silent
  rw [value]
  refine ⟨old, _, found, rfl, ?_⟩
  exact (extendSchema_nonempty silent).imp length_lt_of_append length_lt_of_append

end Graph

/-- An extension lets its target grow, leaves all else as it is, and is reported unless the target
gains something. -/
theorem extend_grows_or_reports (g : Graph) (distinct : g.Distinct) (origin : Origin) :
    (∀ e : TypeExtension,
      g.TypeGrows (g.extend ⟨origin, .typeExtension e⟩).value e.name ∧
      ((g.extend ⟨origin, .typeExtension e⟩).problems = [] →
        g.TypeGains (g.extend ⟨origin, .typeExtension e⟩).value e.name)) ∧
    ∀ d : SchemaDecl,
      g.BlockGrows (g.extend ⟨origin, .schemaExtension d⟩).value ∧
      ((g.extend ⟨origin, .schemaExtension d⟩).problems = [] →
        g.BlockGains (g.extend ⟨origin, .schemaExtension d⟩).value) :=
  ⟨fun e => ⟨Graph.extendType_grows distinct origin e, Graph.extendType_gains distinct⟩,
    fun d => ⟨g.extendSchema_grows origin d, Graph.extendSchema_gains⟩⟩

/-- One more usage, on an argument of a field of a type. -/
def languageTag : TypeExtension where
  name := "Book"
  body := .object [] [
    { name := "title", type := .named "String"
      arguments := [
        { name := "language", type := .named "String", usages := [{ name := "tag" }] }] }]

theorem extend_grows_or_reports_catalogue :
    (Graph.described (given catalogue)).Distinct ∧
      ((Graph.described (given catalogue)).extend
        ⟨.given none, .typeExtension languageTag⟩).problems = [] ∧
      (Graph.described (given catalogue)).TypeGains ((Graph.described (given catalogue)).extend
        ⟨.given none, .typeExtension languageTag⟩).value "Book" ∧
      ((Graph.described (given catalogue)).extend
        ⟨.given none, .schemaExtension { subscription := some "Book" }⟩).problems = [] ∧
      (Graph.described (given catalogue)).BlockGains ((Graph.described (given catalogue)).extend
        ⟨.given none, .schemaExtension { subscription := some "Book" }⟩).value := by
  have distinct := (Graph.described_fresh (given catalogue)).distinct
  have tagged : ((Graph.described (given catalogue)).extend
      ⟨.given none, .typeExtension languageTag⟩).problems = [] :=
    List.isEmpty_iff.mp (by decide +kernel)
  have bound : ((Graph.described (given catalogue)).extend
      ⟨.given none, .schemaExtension { subscription := some "Book" }⟩).problems = [] :=
    List.isEmpty_iff.mp (by decide +kernel)
  have grows := extend_grows_or_reports _ distinct (.given none)
  exact ⟨distinct, tagged, (grows.1 languageTag).2 tagged, bound, (grows.2 _).2 bound⟩

end SchemaAtlas
