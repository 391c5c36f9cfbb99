import SchemaAtlas.Proofs.BuilderRuns

/-!
# Labels of unnamed texts

A text without a file is labelled with the number of such texts that were loaded before it, and the
count has sixteen bits. So its label is its rank modulo 65536. After any run of a builder, labels
are ranks, and tell texts apart, exactly if there are at most 65536 unnamed texts.
-/

namespace SchemaAtlas

theorem readDocument_ne_nil {content : String} {ds : List Declaration}
    (read : readDocument content = some ds) : ds ≠ [] := by
  rintro rfl
  simp only [readDocument, Reader.wholeText, Option.bind_eq_bind, Option.bind_eq_some_iff] at read
  obtain ⟨ts, _, ⟨items, rest⟩, _, kept⟩ := read
  cases items <;> simp at kept

namespace Builder

/-- A text without a file. -/
def Op.isUnnamed : Op → Bool
  | load none _ => true
  | load (some _) _ | add _ _ | validate => false

theorem Op.eq_load_of_isUnnamed {op : Op} (unnamed : op.isUnnamed = true) :
    ∃ content, op = load none content := by
  cases op with
  | load file content =>
    cases file with
    | none => exact ⟨content, rfl⟩
    | some file => cases unnamed
  | _ => cases unnamed

/-- The number of unnamed texts before a position. -/
def rank (ops : List Op) (p : Nat) : Nat := (ops.take p).countP Op.isUnnamed

/-- Where the declarations of an operation start in the buffer. -/
def offset (ops : List Op) (p : Nat) : Nat := ((ops.take p).map Op.size).sum

/-- The label with a number, of any size. -/
def numbered (k : Nat) : String := "str://" ++ toString k

theorem numbered_inj {j k : Nat} : numbered j = numbered k ↔ j = k := by
  rw [numbered, numbered, String.append_right_inj]
  exact Nat.repr_inj

theorem toNat_labels (ops : List Op) :
    (ops.map Op.labels).sum.toNat = ops.countP Op.isUnnamed % 65536 := by
  induction ops with
  | nil => rfl
  | cons op rest ih =>
    have one : op.labels.toNat = if op.isUnnamed = true then 1 else 0 := by
      rcases op with _ | ⟨_ | _, _⟩ | _ <;> rfl
    rw [List.map_cons, List.sum_cons, UInt16.toNat_add, ih, one, List.countP_cons]
    omega

/-- What an operation adds, between what comes before it and what comes later. -/
theorem buffered_of_getElem? {ops : List Op} {p : Nat} {op : Op} (stands : ops[p]? = some op) :
    ∃ later, buffered 0 ops =
      buffered 0 (ops.take p) ++ (op.appended ((ops.take p).map Op.labels).sum ++ later) := by
  obtain ⟨below, rfl⟩ := List.getElem?_eq_some_iff.mp stands
  have split : ops = ops.take p ++ ops[p] :: ops.drop (p + 1) := by
    rw [List.cons_getElem_drop_succ, List.take_append_drop]
  have parts := congrArg (buffered 0) split
  rw [buffered_append, UInt16.zero_add, buffered] at parts
  exact ⟨_, parts⟩

/-- A run goes through exactly if every text in it can be read. -/
theorem exists_run_eq_ok_iff (ops : List Op) :
    (∃ b, run ops = .ok b) ↔
      ∀ file content, .load file content ∈ ops → ∃ ds, readDocument content = some ds := by
  induction ops using List.reverseRecOn with
  | nil => exact ⟨by simp, fun _ => ⟨{}, rfl⟩⟩
  | append_singleton ops op ih =>
    have goesThrough (b : Builder) : (∃ next, b.step op = .ok next) ↔
        ∀ file content, .load file content = op → ∃ ds, readDocument content = some ds := by
      cases op with
      | add | validate => simp [step]
      | load file content =>
        simp only [step, load, Op.load.injEq, and_imp]
        cases read : readDocument content <;> simp [read]
    simp only [run_concat_eq_ok, List.mem_append, List.mem_singleton, or_imp, forall_and]
    rw [← ih]
    constructor
    · rintro ⟨next, before, ran, done⟩
      exact ⟨⟨before, ran⟩, (goesThrough before).mp ⟨next, done⟩⟩
    · rintro ⟨⟨before, ran⟩, read⟩
      obtain ⟨next, done⟩ := (goesThrough before).mpr read
      exact ⟨next, before, ran, done⟩

section Ranks

variable {ops : List Op} {p q : Nat} {content : String}

theorem rank_succ (stands : ops[p]? = some (.load none content)) :
    rank ops (p + 1) = rank ops p + 1 := by
  rw [rank, List.take_add_one, stands, List.countP_append]
  rfl

theorem rank_le_rank (before : p ≤ q) : rank ops p ≤ rank ops q :=
  (List.take_sublist_take_left before).countP_le

theorem rank_lt_rank (stands : ops[p]? = some (.load none content)) (before : p < q) :
    rank ops p < rank ops q := by
  have next : rank ops (p + 1) ≤ rank ops q := rank_le_rank before
  rw [rank_succ stands] at next
  omega

theorem rank_lt_countP (stands : ops[p]? = some (.load none content)) :
    rank ops p < ops.countP Op.isUnnamed := by
  have below : p < ops.length := (List.getElem?_eq_some_iff.mp stands).1
  have last := rank_lt_rank stands below
  rwa [rank, rank, List.take_length] at last

/-- Unnamed texts have all ranks below their number. -/
theorem exists_rank_eq {k : Nat} (below : k < ops.countP Op.isUnnamed) :
    ∃ p content, ops[p]? = some (.load none content) ∧ rank ops p = k := by
  induction ops generalizing k with
  | nil => cases below
  | cons op rest ih =>
    rw [List.countP_cons] at below
    cases unnamed : op.isUnnamed with
    | false =>
      rw [unnamed] at below
      obtain ⟨p, content, stands, same⟩ := ih below
      refine ⟨p + 1, content, stands, ?_⟩
      rw [← same, rank, List.take_succ_cons, List.countP_cons_of_neg (by simp [unnamed]), rank]
    | true =>
      rw [unnamed] at below
      cases k with
      | zero =>
        obtain ⟨content, rfl⟩ := Op.eq_load_of_isUnnamed unnamed
        exact ⟨0, content, rfl, rfl⟩
      | succ k =>
        obtain ⟨p, content, stands, same⟩ := ih (Nat.lt_of_succ_lt_succ below)
        refine ⟨p + 1, content, stands, ?_⟩
        rw [← same, rank, List.take_succ_cons, List.countP_cons_of_pos unnamed, rank]

end Ranks

/-- The unnamed text at a position brings a declaration with this label. -/
def Labelled (ops : List Op) (b : Builder) (p : Nat) (label : String) : Prop :=
  ∃ content i d, ops[p]? = some (.load none content) ∧ i < (Op.load none content).size ∧
    b.declarations[offset ops p + i]? = some ⟨.given (some label), d⟩

section Runs

variable {ops : List Op} {b : Builder} (ran : run ops = .ok b) {p : Nat} {content : String}
include ran

/-- Where the declarations of an unnamed text stand, and what they are labelled with. -/
theorem declarations_of_unnamed (stands : ops[p]? = some (.load none content)) :
    ∃ ds, readDocument content = some ds ∧ ds ≠ [] ∧ ∀ i d, ds[i]? = some d →
      b.declarations[offset ops p + i]? =
        some ⟨.given (some (numbered (rank ops p % 65536))), d⟩ := by
  obtain ⟨ds, read⟩ :=
    (exists_run_eq_ok_iff ops).mp ⟨b, ran⟩ none content (List.mem_of_getElem? stands)
  refine ⟨ds, read, readDocument_ne_nil read, fun i d found => ?_⟩
  obtain ⟨later, parts⟩ := buffered_of_getElem? stands
  have number : label ((ops.take p).map Op.labels).sum = numbered (rank ops p % 65536) := by
    rw [label, toNat_labels]
    rfl
  have start : (buffered 0 (ops.take p)).length = offset ops p := length_buffered 0 _
  have inside : i < ((Op.load none content).appended ((ops.take p).map Op.labels).sum).length := by
    rw [Op.length_appended, Op.size, read]
    exact (List.getElem?_eq_some_iff.mp found).1
  rw [(run_follows ran).declarations, parts, List.getElem?_append_right (by omega), start,
    Nat.add_sub_cancel_left, List.getElem?_append_left inside, Op.appended, read, List.getElem?_map,
    Option.getD_some, found, Option.getD_none, number]
  rfl

theorem labelled_iff (label : String) :
    Labelled ops b p label ↔
      (∃ content, ops[p]? = some (.load none content)) ∧
        label = numbered (rank ops p % 65536) := by
  constructor
  · rintro ⟨content, i, d, stands, inside, found⟩
    obtain ⟨ds, read, _, labels⟩ := declarations_of_unnamed ran stands
    rw [Op.size, read] at inside
    have labelled := labels i _ (List.getElem?_eq_getElem inside)
    rw [found] at labelled
    cases labelled
    exact ⟨⟨content, stands⟩, rfl⟩
  · rintro ⟨⟨content, stands⟩, rfl⟩
    obtain ⟨ds, read, some_, labels⟩ := declarations_of_unnamed ran stands
    have inside : 0 < ds.length := List.length_pos_iff.mpr some_
    refine ⟨content, 0, _, stands, ?_, labels 0 _ (List.getElem?_eq_getElem inside)⟩
    rw [Op.size, read]
    exact inside

theorem label_eq_rank_iff :
    (∀ p label, Labelled ops b p label → label = numbered (rank ops p)) ↔
      ops.countP Op.isUnnamed ≤ 65536 := by
  simp only [labelled_iff ran]
  constructor
  · intro exact
    by_contra! many
    obtain ⟨p, content, stands, rank_eq⟩ := exists_rank_eq many
    have same := numbered_inj.mp (exact p _ ⟨⟨content, stands⟩, rfl⟩)
    omega
  · rintro few p label ⟨⟨content, stands⟩, rfl⟩
    have below := rank_lt_countP stands
    rw [Nat.mod_eq_of_lt (by omega)]

theorem label_injective_iff :
    (∀ p q label, Labelled ops b p label → Labelled ops b q label → p = q) ↔
      ops.countP Op.isUnnamed ≤ 65536 := by
  simp only [labelled_iff ran]
  constructor
  · intro apart
    by_contra! many
    obtain ⟨p, content, stands, rank_eq⟩ := exists_rank_eq many
    obtain ⟨q, content', stands', rank_eq'⟩ := exists_rank_eq (Nat.zero_lt_of_lt many)
    have same := apart p q _ ⟨⟨content, stands⟩, rfl⟩
      ⟨⟨content', stands'⟩, by rw [rank_eq, rank_eq']⟩
    subst same
    omega
  · rintro few p q label ⟨⟨content, stands⟩, rfl⟩ ⟨⟨content', stands'⟩, same⟩
    have below := rank_lt_countP stands
    have below' := rank_lt_countP stands'
    rw [numbered_inj] at same
    rcases Nat.lt_trichotomy p q with before | rfl | after
    · have := rank_lt_rank stands before
      omega
    · rfl
    · have := rank_lt_rank stands' after
      omega

end Runs

end Builder

/-- After any run of a builder, an unnamed text has labelled all its declarations with its rank
modulo 65536. So labels are ranks exactly if there are at most 65536 unnamed texts, and only then do
they tell the texts apart. -/
theorem unnamed_labels_wrap (ops : List Builder.Op) (b : Builder) (ran : Builder.run ops = .ok b) :
    (∀ p content, ops[p]? = some (.load none content) →
      ∃ ds, readDocument content = some ds ∧ ds ≠ [] ∧ ∀ i d, ds[i]? = some d →
        b.declarations[Builder.offset ops p + i]? =
          some ⟨.given (some (Builder.numbered (Builder.rank ops p % 65536))), d⟩) ∧
    ((∀ p label, Builder.Labelled ops b p label →
        label = Builder.numbered (Builder.rank ops p)) ↔
      ops.countP Builder.Op.isUnnamed ≤ 65536) ∧
    ((∀ p q label, Builder.Labelled ops b p label → Builder.Labelled ops b q label → p = q) ↔
      ops.countP Builder.Op.isUnnamed ≤ 65536) :=
  ⟨fun _ _ stands => Builder.declarations_of_unnamed ran stands, Builder.label_eq_rank_iff ran,
    Builder.label_injective_iff ran⟩

/-- Two unnamed texts around a named one and a validation. -/
def shelvingOps : List Builder.Op :=
  [.load none "scalar Isbn", .load (some "prices") "scalar Price", .validate,
    .load none "scalar Shelf scalar Room"]

theorem unnamed_labels_wrap_shelving :
    ∃ b, Builder.run shelvingOps = .ok b ∧
      b.declarations.map Sourced.origin = [.given (some "str://0"), .given (some "prices"),
        .given (some "str://1"), .given (some "str://1")] ∧
      (∀ p label, Builder.Labelled shelvingOps b p label →
        label = Builder.numbered (Builder.rank shelvingOps p)) ∧
      ∀ p q label, Builder.Labelled shelvingOps b p label →
        Builder.Labelled shelvingOps b q label → p = q := by
  obtain ⟨b, ran, origins⟩ : ∃ b, Builder.run shelvingOps = .ok b ∧
      (b.declarations.map Sourced.origin == [.given (some "str://0"), .given (some "prices"),
        .given (some "str://1"), .given (some "str://1")]) = true :=
    exists_of_any (by decide +kernel)
  obtain ⟨_, exact, apart⟩ := unnamed_labels_wrap shelvingOps b ran
  have few : shelvingOps.countP Builder.Op.isUnnamed ≤ 65536 := by decide
  exact ⟨b, ran, beq_iff_eq.mp origins, exact.mpr few, apart.mpr few⟩

/-- The first text and the one after 65536 texts share a label. -/
theorem unnamed_label_shared :
    ∃ b, Builder.run (List.replicate 65537 (.load none "scalar Isbn")) = .ok b ∧
      Builder.Labelled (List.replicate 65537 (.load none "scalar Isbn")) b 0 "str://0" ∧
      Builder.Labelled (List.replicate 65537 (.load none "scalar Isbn")) b 65536 "str://0" := by
  have read : ∃ ds, readDocument "scalar Isbn" = some ds :=
    Option.isSome_iff_exists.mp (by decide +kernel)
  generalize size : 65537 = n
  have readable (file : Option String) (content : String)
      (member : Builder.Op.load file content ∈ List.replicate n (.load none "scalar Isbn")) :
      ∃ ds, readDocument content = some ds := by
    cases List.eq_of_mem_replicate member
    exact read
  obtain ⟨b, ran⟩ := (Builder.exists_run_eq_ok_iff _).mpr readable
  have rank (p : Nat) : Builder.rank (List.replicate n (.load none "scalar Isbn")) p = min p n := by
    simp [Builder.rank, List.take_replicate, List.countP_replicate, Builder.Op.isUnnamed]
  have stands (p : Nat) (below : p < n) :
      (List.replicate n (Builder.Op.load none "scalar Isbn"))[p]? =
        some (.load none "scalar Isbn") := by
    rw [List.getElem?_replicate, if_pos below]
  refine ⟨b, ran, ?_, ?_⟩
  · rw [Builder.labelled_iff ran, rank]
    refine ⟨⟨_, stands 0 (by omega)⟩, ?_⟩
    rw [Nat.zero_min]
    decide
  · rw [Builder.labelled_iff ran, rank]
    refine ⟨⟨_, stands 65536 (by omega)⟩, ?_⟩
    rw [Nat.min_eq_left (by omega), Nat.mod_self]
    decide

end SchemaAtlas
