import SchemaAtlas.Problem

/-!
# Reports

A step of the analysis gives a value and a list of events: the problems it found and the notes it
left for a log, in the order in which they came up. Nothing is ever taken back, so the steps
compose by joining their events.
-/

namespace SchemaAtlas

/-- Levels of a log, most severe first. -/
inductive Level where
  | error
  | warn
  | info
  | debug
  | trace
deriving DecidableEq

namespace Level

def name : Level → String
  | error => "ERROR"
  | warn => "WARN"
  | info => "INFO"
  | debug => "DEBUG"
  | trace => "TRACE"

def rank : Level → Nat
  | error => 0
  | warn => 1
  | info => 2
  | debug => 3
  | trace => 4

end Level

structure LogRecord where
  level : Level
  message : String
deriving DecidableEq

def LogRecord.text (r : LogRecord) : String := r.level.name ++ " " ++ r.message

inductive Event where
  | problem (d : Diagnostic)
  | note (r : LogRecord)

namespace Event

def problem? : Event → Option Diagnostic
  | problem d => some d
  | note _ => none

/-- Every event shows in the log; a problem as a trace. -/
def logged : Event → LogRecord
  | problem d => ⟨.trace, d.located⟩
  | note r => r

end Event

/-- A value with the events of its making. -/
structure Reported (α : Type) where
  value : α
  events : List Event

namespace Reported

variable {α β : Type}

instance : Monad Reported where
  pure a := ⟨a, []⟩
  bind r f :=
    let s := f r.value
    ⟨s.value, r.events ++ s.events⟩

@[simp] theorem pure_value (a : α) : (pure a : Reported α).value = a := rfl

@[simp] theorem pure_events (a : α) : (pure a : Reported α).events = [] := rfl

@[simp] theorem bind_value (r : Reported α) (f : α → Reported β) :
    (r >>= f).value = (f r.value).value := rfl

@[simp] theorem bind_events (r : Reported α) (f : α → Reported β) :
    (r >>= f).events = r.events ++ (f r.value).events := rfl

def problems (r : Reported α) : List Diagnostic := r.events.filterMap Event.problem?

/-- Close a step with a line that counts its problems. -/
def summarize (line : Nat → String) (r : Reported α) : Reported α :=
  ⟨r.value, r.events ++ [.note ⟨.debug, line r.problems.length⟩]⟩

/-- Run a step on each element in turn. -/
def each (f : α → Reported β) : List α → Reported (List β)
  | [] => pure []
  | a :: rest => do
    let b ← f a
    let bs ← each f rest
    return b :: bs

/-- Carry a state through a list. -/
def through (f : β → α → Reported β) (state : β) : List α → Reported β
  | [] => pure state
  | a :: rest => do
    let next ← f state a
    through f next rest

@[simp] theorem each_value (f : α → Reported β) (as : List α) :
    (each f as).value = as.map fun a => (f a).value := by
  induction as with
  | nil => rfl
  | cons a rest ih => simp [each, ih]

@[simp] theorem each_events (f : α → Reported β) (as : List α) :
    (each f as).events = as.flatMap fun a => (f a).events := by
  induction as with
  | nil => rfl
  | cons a rest ih => simp [each, ih]

end Reported

/-- Report a problem at a location. -/
def report (problem : Problem) (location : SourceLocation) (path : ElementPath) : Reported Unit :=
  ⟨(), [.problem ⟨problem, some location, path⟩]⟩

/-- Leave a trace in the log. -/
def trace (message : String) : Reported Unit := ⟨(), [.note ⟨.trace, message⟩]⟩

end SchemaAtlas
