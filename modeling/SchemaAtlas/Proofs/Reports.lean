import SchemaAtlas.Analysis

/-!
# Reports and their problems

The problems of a sequence of steps are those of its steps in order. So the report of an analysis is
what its four steps find, one after the other, and it succeeds exactly if none of them finds
anything.
-/

namespace SchemaAtlas

namespace Reported

variable {α β : Type}

@[simp] theorem pure_problems (a : α) : (pure a : Reported α).problems = [] := rfl

@[simp] theorem bind_problems (r : Reported α) (f : α → Reported β) :
    (r >>= f).problems = r.problems ++ (f r.value).problems := by
  simp [problems]

/-- How a step goes on matters only at the value that it gave. -/
theorem bind_congr_value {r : Reported α} {f g : α → Reported β} (same : f r.value = g r.value) :
    (r >>= f) = (r >>= g) := by
  simp only [Bind.bind, same]

@[simp] theorem summarize_value (line : Nat → String) (r : Reported α) :
    (r.summarize line).value = r.value := rfl

@[simp] theorem summarize_problems (line : Nat → String) (r : Reported α) :
    (r.summarize line).problems = r.problems := by
  simp [problems, summarize, Event.problem?]

@[simp] theorem problems_of_diagnostics (a : α) (ds : List Diagnostic) :
    (Reported.mk a (ds.map Event.problem)).problems = ds := by
  simp only [problems]
  induction ds with
  | nil => rfl
  | cons d rest ih => simpa [Event.problem?] using ih

@[simp] theorem each_problems (f : α → Reported β) (as : List α) :
    (each f as).problems = as.flatMap fun a => (f a).problems := by
  simp [problems, List.filterMap_flatMap]

@[simp] theorem through_nil (f : β → α → Reported β) (state : β) :
    through f state [] = pure state := rfl

@[simp] theorem through_cons_value (f : β → α → Reported β) (state : β) (a : α) (rest : List α) :
    (through f state (a :: rest)).value = (through f (f state a).value rest).value := rfl

@[simp] theorem through_cons_problems (f : β → α → Reported β) (state : β) (a : α)
    (rest : List α) :
    (through f state (a :: rest)).problems =
      (f state a).problems ++ (through f (f state a).value rest).problems := by
  simp [through]

/-- What every step keeps, a whole run keeps. -/
theorem through_preserves {f : β → α → Reported β} {P : β → Prop} {as : List α}
    (step : ∀ state, ∀ a ∈ as, P state → P (f state a).value) {state : β} (start : P state) :
    P (through f state as).value := by
  induction as generalizing state with
  | nil => exact start
  | cons a rest ih =>
    exact ih (fun s b member => step s b (List.mem_cons_of_mem _ member))
      (step state a List.mem_cons_self start)

/-- A run over two lists is a run over the first and then one over the second. -/
theorem through_append (f : β → α → Reported β) (state : β) (as bs : List α) :
    through f state (as ++ bs) = (through f state as >>= fun next => through f next bs) := by
  induction as generalizing state with
  | nil => rfl
  | cons a rest ih => simp [through, Bind.bind, ih, List.append_assoc]

/-- An item that does nothing can be left out. -/
theorem through_skip {f : β → α → Reported β} {a : α} (idle : ∀ state, f state a = pure state)
    (state : β) (before after : List α) :
    through f state (before ++ a :: after) = through f state (before ++ after) := by
  rw [through_append, through_append]
  refine bind_congr_value ?_
  rw [through, idle]
  rfl

/-- All items that do nothing can be left out. -/
theorem through_filter {f : β → α → Reported β} {p : α → Bool}
    (idle : ∀ state a, p a = false → f state a = pure state) (state : β) (as : List α) :
    through f state (as.filter p) = through f state as := by
  induction as generalizing state with
  | nil => rfl
  | cons a rest ih =>
    cases taken : p a with
    | false =>
      rw [List.filter_cons_of_neg (by simp [taken]), ih, through, idle state a taken]
      rfl
    | true =>
      rw [List.filter_cons_of_pos taken, through, through]
      exact bind_congr_value (ih _)

/-- What holds of a state and the items behind it after every step, holds after a run. -/
theorem through_follows {f : β → α → Reported β} {P : β → List α → Prop} {as : List α}
    (step : ∀ state done, ∀ a ∈ as, P state done → P (f state a).value (done ++ [a]))
    {state : β} {done : List α} (start : P state done) :
    P (through f state as).value (done ++ as) := by
  induction as generalizing state done with
  | nil => simpa using start
  | cons a rest ih =>
    have next := step state done a List.mem_cons_self start
    have last := ih (fun s d b member => step s d b (List.mem_cons_of_mem _ member)) next
    simpa using last

/-- What holds of a state and the items behind it, after every step that reports nothing, holds
after a run that reports nothing. -/
theorem through_accumulates {f : β → α → Reported β} {P : β → List α → Prop} {as : List α}
    (step : ∀ state done, ∀ a ∈ as, P state done → (f state a).problems = [] →
      P (f state a).value (done ++ [a]))
    {state : β} {done : List α} (start : P state done)
    (silent : (through f state as).problems = []) :
    P (through f state as).value (done ++ as) := by
  induction as generalizing state done with
  | nil => simpa using start
  | cons a rest ih =>
    rw [through_cons_problems, List.append_eq_nil_iff] at silent
    have next := step state done a List.mem_cons_self start silent.1
    have last := ih (fun s d b member => step s d b (List.mem_cons_of_mem _ member)) next silent.2
    simpa using last

end Reported

@[simp] theorem report_problems (problem : Problem) (location : SourceLocation)
    (path : ElementPath) : (report problem location path).problems ≠ [] := by
  simp [report, Reported.problems, Event.problem?]

@[simp] theorem trace_problems (message : String) : (trace message).problems = [] := rfl

theorem BuildError.ofProblems?_eq_none_iff (ds : List Diagnostic) :
    BuildError.ofProblems? ds = none ↔ ds = [] := by
  match ds with
  | [] => simp [ofProblems?]
  | [_] => simp [ofProblems?]
  | _ :: _ :: _ => simp [ofProblems?]

theorem BuildError.ofProblems?_problems (ds : List Diagnostic) :
    ((BuildError.ofProblems? ds).map BuildError.problems).getD [] = ds := by
  match ds with
  | [] => rfl
  | [_] => rfl
  | _ :: _ :: _ => rfl

/-- Everything that an analysis reports about the schema itself. -/
def Outcome.problems (o : Outcome) : List Diagnostic :=
  match o.result with
  | .ok _ => []
  | .error e => e.problems

/-- The graph that a buffer describes, before any name is looked up. -/
def Graph.described (declarations : List Sourced) : Graph :=
  (Graph.collect (BuiltIn.declarations ++ declarations)).value

@[simp] theorem Graph.link_value (g : Graph) : g.link.value = g.linked := rfl

@[simp] theorem Graph.link_problems (g : Graph) : g.link.problems = g.danglingNames := by
  simp [link]

@[simp] theorem Graph.check_problems (g : Graph) : g.check.problems = g.violations := by
  simp [check]

/-- The steps of an analysis that finds no problem. -/
structure Accepted (required : Bool) (declarations : List Sourced) : Prop where
  noExecutable : firstExecutable? declarations = none
  collected : (Graph.collect (BuiltIn.declarations ++ declarations)).problems = []
  linked : (Graph.described declarations).danglingNames = []
  lawful : (Graph.described declarations).linked.violations = []
  rooted : ((Graph.described declarations).linked.resolveRoot required).problems = []

/-- The report of an analysis, step by step. -/
theorem analyzeGraph_problems (required : Bool) (declarations : List Sourced) :
    (analyzeGraph required declarations).problems =
      (Graph.collect (BuiltIn.declarations ++ declarations)).problems ++
      ((Graph.described declarations).danglingNames ++
      ((Graph.described declarations).linked.violations ++
      ((Graph.described declarations).linked.resolveRoot required).problems)) := by
  simp [analyzeGraph, Graph.described]

/-- Without executable definitions, the outcome shows all that the steps report. -/
theorem analyze_problems (required : Bool) {declarations : List Sourced}
    (none : firstExecutable? declarations = none) :
    (analyze required declarations).problems = (analyzeGraph required declarations).problems := by
  have shown := BuildError.ofProblems?_problems (analyzeGraph required declarations).problems
  simp only [Outcome.problems, analyze, none]
  cases failed : BuildError.ofProblems? (analyzeGraph required declarations).problems with
  | none =>
    rw [failed] at shown
    exact shown
  | some error =>
    rw [failed] at shown
    exact shown

/-- An analysis succeeds exactly if no step reports a problem, and then gives the graph of its last
step. -/
theorem analyze_eq_ok_iff (required : Bool) (declarations : List Sourced) (s : Schema) :
    (analyze required declarations).result = .ok s ↔
      Accepted required declarations ∧
      s = ((Graph.described declarations).linked.resolveRoot required).value.toSchema := by
  have problems := analyzeGraph_problems required declarations
  have value : (analyzeGraph required declarations).value =
      ((Graph.described declarations).linked.resolveRoot required).value := rfl
  simp only [analyze]
  constructor
  · intro ok
    cases executable : firstExecutable? declarations with
    | some error => simp [executable] at ok
    | none =>
      simp only [executable] at ok
      cases failed : BuildError.ofProblems? (analyzeGraph required declarations).problems with
      | some error => simp [failed] at ok
      | none =>
        rw [BuildError.ofProblems?_eq_none_iff, problems] at failed
        simp only [List.append_eq_nil_iff] at failed
        obtain ⟨collected, linked, lawful, rooted⟩ := failed
        refine ⟨⟨executable, collected, linked, lawful, rooted⟩, ?_⟩
        have none_failed : BuildError.ofProblems?
            (analyzeGraph required declarations).problems = none := by
          rw [BuildError.ofProblems?_eq_none_iff, problems, collected, linked, lawful, rooted]
          rfl
        simp only [none_failed, Except.ok.injEq] at ok
        rw [← ok, value]
  · rintro ⟨accepted, rfl⟩
    have none_failed : BuildError.ofProblems?
        (analyzeGraph required declarations).problems = none := by
      rw [BuildError.ofProblems?_eq_none_iff, problems, accepted.collected, accepted.linked,
        accepted.lawful, accepted.rooted]
      rfl
    simp only [accepted.noExecutable, none_failed, value]

end SchemaAtlas
