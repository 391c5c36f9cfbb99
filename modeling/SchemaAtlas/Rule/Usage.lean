import SchemaAtlas.Graph.Fit
import SchemaAtlas.Problem

/-!
# Rules for directive usages

A directive stands only where its definition allows, more than once only if it is repeatable, with
arguments that it declares and values that fit them, and with every argument that it requires.
Usages of unknown directives are reported elsewhere and play no part here.
-/

namespace SchemaAtlas.Graph

/-- A problem with one usage on the element at `owner`. -/
def usageProblem (owner : ElementPath) (u : Usage) (p : Problem) : Diagnostic :=
  ⟨p, some u.location, owner.child (.usage u.name)⟩

/-- A problem with one argument of a usage. -/
def usageArgumentProblem (owner : ElementPath) (u : Usage) (argument : String) (p : Problem) :
    Diagnostic :=
  ⟨p, some u.location, (owner.child (.usage u.name)).child (.argument argument)⟩

/-- The one problem of a supplied argument, if it has any. -/
def suppliedArgument (g : Graph) (owner : ElementPath) (u : Usage) (d : DirectiveDef)
    (argument : String × Value) : List Diagnostic :=
  match d.arguments.get? argument.1 with
  | none => [usageArgumentProblem owner u argument.1
      (.undefinedUsageArgument argument.1 u.name owner)]
  | some declared =>
    if argument.2.isNull && declared.type.isNonNull then
      [usageArgumentProblem owner u argument.1 (.nullUsageArgument argument.1 u.name owner)]
    else if !argument.2.fits g.types declared.type then
      [usageArgumentProblem owner u argument.1
        (.incompatibleUsageArgument argument.1 u.name owner declared.type argument.2)]
    else []

/-- Required arguments that a usage leaves out. -/
def missingArguments (owner : ElementPath) (u : Usage) (d : DirectiveDef) : List Diagnostic :=
  (d.arguments.entries.filter fun e => e.2.isRequired && !u.arguments.contains e.1).map fun e =>
    usageProblem owner u (.missingUsageArgument e.1 u.name owner)

/-- The problems of one usage; `repeated` says that its directive stands here already. -/
def usageProblems (g : Graph) (location : DirectiveLocation) (owner : ElementPath)
    (repeated : Bool) (u : Usage) (d : DirectiveDef) : List Diagnostic :=
  (if d.locations.contains location then []
    else [usageProblem owner u (.invalidDirectiveLocation u.name owner location)]) ++
  (if repeated && !d.repeatable then
      [usageProblem owner u (.unrepeatableDirective u.name owner)]
    else []) ++
  u.arguments.entries.flatMap (g.suppliedArgument owner u d) ++
  missingArguments owner u d

/-- Check usages in order; `seen` are the directives met so far. -/
def checkUsagesFrom (g : Graph) (location : DirectiveLocation) (owner : ElementPath)
    (seen : List DirectiveId) : List Usage → List Diagnostic
  | [] => []
  | u :: rest =>
    match u.definition.bind fun id => (g.directiveAt? id).map fun d => (id, d) with
    | none => g.checkUsagesFrom location owner seen rest
    | some (id, d) =>
      g.usageProblems location owner (seen.contains id) u d ++
        g.checkUsagesFrom location owner (id :: seen) rest

/-- The problems of all directives applied to one element. -/
def checkUsages (g : Graph) (location : DirectiveLocation) (owner : ElementPath)
    (us : List Usage) : List Diagnostic :=
  g.checkUsagesFrom location owner [] us

end SchemaAtlas.Graph
