import Mathlib
import SchemaAtlas.Builder
import SchemaAtlas.Proofs.Acceptance

/-!
# Runs of a builder

A builder is used by adding declarations, loading texts and validating, in any order. After any such
run, its buffer and its count of unnamed texts are told by the operations alone, and a schema is
kept exactly if the last operation was a validation that succeeded. So whatever schema can be asked
for is that of the current buffer.
-/

namespace SchemaAtlas

namespace Builder

inductive Op where
  | add (file : Option String) (ds : List Declaration)
  | load (file : Option String) (content : String)
  | validate

def step (b : Builder) : Op → Except BuildError Builder
  | .add file ds => .ok (b.add file ds)
  | .load file content => b.load file content
  | .validate => .ok b.validate.1

/-- Operations applied one after the other to an empty builder, as long as texts can be read. -/
def run (ops : List Op) : Except BuildError Builder := ops.foldlM step {}

namespace Op

/-- What an operation adds when so many unnamed texts have been loaded. -/
def appended (unnamed : UInt16) : Op → List Sourced
  | add file ds => ds.map fun d => ⟨.given file, d⟩
  | load file content =>
    ((readDocument content).getD []).map fun d => ⟨.given (some (file.getD (label unnamed))), d⟩
  | validate => []

/-- The number of labels that an operation takes. -/
def labels : Op → UInt16
  | load none _ => 1
  | load (some _) _ | add _ _ | validate => 0

/-- The number of declarations that an operation brings. -/
def size : Op → Nat
  | add _ ds => ds.length
  | load _ content => ((readDocument content).getD []).length
  | validate => 0

theorem length_appended (unnamed : UInt16) (op : Op) : (op.appended unnamed).length = op.size := by
  cases op <;> simp [appended, size]

end Op

/-- Everything that a sequence of operations adds, in order. -/
def buffered (unnamed : UInt16) : List Op → List Sourced
  | [] => []
  | op :: rest => op.appended unnamed ++ buffered (unnamed + op.labels) rest

theorem buffered_append (unnamed : UInt16) (ops later : List Op) :
    buffered unnamed (ops ++ later) =
      buffered unnamed ops ++ buffered (unnamed + (ops.map Op.labels).sum) later := by
  induction ops generalizing unnamed with
  | nil => simp [buffered]
  | cons first rest ih => simp [buffered, ih, UInt16.add_assoc]

theorem buffered_concat (unnamed : UInt16) (ops : List Op) (op : Op) :
    buffered unnamed (ops ++ [op]) =
      buffered unnamed ops ++ op.appended (unnamed + (ops.map Op.labels).sum) := by
  rw [buffered_append, buffered, buffered, List.append_nil]

theorem length_buffered (unnamed : UInt16) (ops : List Op) :
    (buffered unnamed ops).length = (ops.map Op.size).sum := by
  induction ops generalizing unnamed with
  | nil => rfl
  | cons op rest ih => simp [buffered, Op.length_appended, ih]

/-- The schema that an operation leaves behind: only a validation leaves one, that of the buffer. -/
def schemaAfter (declarations : List Sourced) : Op → Option Schema
  | .validate => (analyze false declarations).result.toOption
  | .add _ _ | .load _ _ => none

/-- What an operation that goes through does to each part of a builder. -/
theorem step_eq_ok {b next : Builder} {op : Op} (done : b.step op = .ok next) :
    next = ⟨b.declarations ++ op.appended b.unnamed, b.unnamed + op.labels,
      schemaAfter b.declarations op⟩ := by
  cases op with
  | add file ds =>
    cases done
    simp [add, Op.appended, Op.labels, schemaAfter]
  | validate =>
    cases done
    simp [validate, Op.appended, Op.labels, schemaAfter]
  | load file content =>
    simp only [step, load] at done
    cases read : readDocument content with
    | none => simp [read] at done
    | some ds =>
      simp only [read, Except.ok.injEq] at done
      rw [← done]
      cases file <;> simp [add, Op.appended, Op.labels, schemaAfter, read]

/-- What a builder holds after the operations `ops`. -/
structure Follows (ops : List Op) (b : Builder) : Prop where
  declarations : b.declarations = buffered 0 ops
  unnamed : b.unnamed = (ops.map Op.labels).sum
  schema : b.schema = ops.getLast?.bind (schemaAfter b.declarations)

theorem follows_nil : Follows [] {} := ⟨rfl, rfl, rfl⟩

theorem Follows.step {ops : List Op} {b next : Builder} (follows : Follows ops b) {op : Op}
    (done : b.step op = .ok next) : Follows (ops ++ [op]) next := by
  cases step_eq_ok done
  refine ⟨?_, ?_, ?_⟩
  · rw [buffered_concat, follows.declarations, follows.unnamed, UInt16.zero_add]
  · simp [follows.unnamed]
  · -- A validation adds nothing, so it has analyzed what is the buffer afterwards too.
    cases op <;> simp [schemaAfter, Op.appended]

theorem run_concat_eq_ok {ops : List Op} {op : Op} {b : Builder} :
    run (ops ++ [op]) = .ok b ↔ ∃ before, run ops = .ok before ∧ before.step op = .ok b := by
  rw [run, List.foldlM_append]
  change (run ops >>= _) = _ ↔ _
  cases run ops with
  | error e => simp [Bind.bind, Except.bind]
  | ok before =>
    simp only [Bind.bind, Except.bind, List.foldlM_cons, List.foldlM_nil, Except.ok.injEq,
      exists_eq_left']
    cases before.step op <;> simp [pure, Except.pure]

theorem run_follows {ops : List Op} {b : Builder} (ran : run ops = .ok b) : Follows ops b := by
  induction ops using List.reverseRecOn generalizing b with
  | nil =>
    cases ran
    exact follows_nil
  | append_singleton ops op ih =>
    obtain ⟨before, ran', done⟩ := run_concat_eq_ok.mp ran
    exact (ih ran').step done

theorem toOption_eq_some_iff {ε α : Type} {r : Except ε α} {a : α} :
    r.toOption = some a ↔ r = .ok a := by
  cases r <;> simp [Except.toOption]

/-- A schema is kept exactly by a validation that has just succeeded. -/
theorem schema_eq_some_iff {ops : List Op} {b : Builder} (ran : run ops = .ok b) (s : Schema) :
    b.schema = some s ↔
      ∃ init before, ops = init ++ [.validate] ∧ run init = .ok before ∧
        before.validate.2.result = .ok s := by
  constructor
  · intro kept
    rcases List.eq_nil_or_concat' ops with rfl | ⟨init, op, rfl⟩
    · cases ran
      cases kept
    · obtain ⟨before, ran', done⟩ := run_concat_eq_ok.mp ran
      cases step_eq_ok done
      cases op with
      | add file ds => cases kept
      | load file content => cases kept
      | validate => exact ⟨init, before, rfl, ran', toOption_eq_some_iff.mp kept⟩
  · rintro ⟨init, before, rfl, ran', ok⟩
    obtain ⟨before', ran'', done⟩ := run_concat_eq_ok.mp ran
    cases ran'.symm.trans ran''
    cases done
    exact toOption_eq_some_iff.mpr ok

/-- The schema that is kept is that of the current buffer. -/
theorem Follows.analyzed {ops : List Op} {b : Builder} (follows : Follows ops b) {s : Schema}
    (kept : b.schema = some s) : (analyze false b.declarations).result = .ok s := by
  rw [follows.schema, Option.bind_eq_some_iff] at kept
  obtain ⟨op, _, left⟩ := kept
  cases op with
  | add file ds => cases left
  | load file content => cases left
  | validate => exact toOption_eq_some_iff.mp left

end Builder

/-- After any run of a builder, what it exposes is told by the operations: a schema only after a
validation that succeeded, and then that of the buffer; the buffer from what was added; and the
result of a validation from the buffer alone. -/
theorem builder_never_stale (ops : List Builder.Op) (b : Builder) (ran : Builder.run ops = .ok b) :
    (∀ s, b.schema = some s ↔
      ∃ init before, ops = init ++ [.validate] ∧ Builder.run init = .ok before ∧
        before.validate.2.result = .ok s) ∧
    (∀ s, b.schema = some s → (analyze false b.declarations).result = .ok s) ∧
    b.isValidated = b.schema.isSome ∧
    b.declarations = Builder.buffered 0 ops ∧
    b.size = (ops.map Builder.Op.size).sum ∧
    (∀ e, b.validate.2.result = .error e → b.validate.1 = { b with schema := none }) ∧
    (∀ ops' b', Builder.run ops' = .ok b' → Builder.buffered 0 ops' = Builder.buffered 0 ops →
      b'.validate.2 = b.validate.2) := by
  have follows := Builder.run_follows ran
  refine ⟨Builder.schema_eq_some_iff ran, fun s => follows.analyzed, rfl, follows.declarations,
    ?_, ?_, ?_⟩
  · rw [Builder.size, follows.declarations, Builder.length_buffered]
  · intro e failed
    have none_left : b.validate.1.schema = none := congrArg Except.toOption failed
    rw [← none_left]
    rfl
  · intro ops' b' ran' same
    have same_buffer : b'.declarations = b.declarations := by
      rw [(Builder.run_follows ran').declarations, follows.declarations, same]
    simp only [Builder.validate, same_buffer]

/-- The bookshop in three parts, validated too early as well. -/
def bookshopOps : List Builder.Op :=
  [.add (some "types") bookshopTypes, .validate, .load none "scalar Isbn",
    .add (some "root") bookshopRoot, .validate]

/-- The first validation fails, since `tag` is not defined yet, and the last one succeeds. -/
theorem builder_never_stale_bookshop :
    ∃ b s, Builder.run bookshopOps = .ok b ∧ b.schema = some s ∧
      (analyze false b.declarations).result = .ok s ∧ b.size = 11 ∧
      (∃ e, (analyze false (Builder.buffered 0 (bookshopOps.take 1))).result = .error e) := by
  obtain ⟨b, ran, validated⟩ : ∃ b, Builder.run bookshopOps = .ok b ∧ b.isValidated = true :=
    exists_of_any (by decide +kernel)
  obtain ⟨_, current, agrees, _, size, _⟩ := builder_never_stale bookshopOps b ran
  rw [agrees, Option.isSome_iff_exists] at validated
  obtain ⟨s, kept⟩ := validated
  have early : (analyze false (Builder.buffered 0 (bookshopOps.take 1))).result.toOption.isNone :=
    by decide +kernel
  refine ⟨b, s, ran, kept, current s kept, size.trans (by decide +kernel), ?_⟩
  cases failed : (analyze false (Builder.buffered 0 (bookshopOps.take 1))).result with
  | error e => exact ⟨e, rfl⟩
  | ok s => rw [failed] at early; cases early

end SchemaAtlas
