import SchemaAtlas.Proofs.OwedInterfaces
import SchemaAtlas.Proofs.Stability

/-!
# The text of a type

A type is written as a name inside brackets and exclamation marks. The last character of the text
tells which wrapper is the outermost one, and without it the text is that of the type inside. So as
long as names hold none of these characters, a text can be read in one way only, and a message that
sets two types against each other shows two different texts.
-/

namespace SchemaAtlas

namespace TypeUse

/-- The characters that wrappers are written with. -/
def marks : List Char := ['[', ']', '!']

/-- The name inside all wrappers has none of their characters. -/
def Plain (a : TypeUse) : Prop := ∀ c ∈ a.innermost.name.toList, c ∉ marks

instance (a : TypeUse) : Decidable a.Plain :=
  List.decidableBAll (· ∉ marks) a.innermost.name.toList

/-- Uses are equivalent if they stand for the same expression. -/
theorem equivalent_iff_toExpr (a b : TypeUse) : a.equivalent b = true ↔ a.toExpr = b.toExpr := by
  induction a generalizing b with
  | named ref => cases b <;> simp [equivalent, toExpr]
  | list item ih =>
    cases b with
    | list other => simpa [equivalent, toExpr] using ih other
    | _ => simp [equivalent, toExpr]
  | nonNull inner ih =>
    cases b with
    | nonNull other => simpa [equivalent, toExpr] using ih other
    | _ => simp [equivalent, toExpr]

/-- Messages show a type as documents do. -/
theorem text_eq_written (a : TypeUse) : a.text = Writer.typeExpr a.toExpr := by
  induction a with
  | named ref => rfl
  | list item ih => rw [text, toExpr, Writer.typeExpr, ih]
  | nonNull inner ih => rw [text, toExpr, Writer.typeExpr, ih]

/-- The character that the outermost wrapper ends with. -/
def closing? : TypeUse → Option Char
  | named _ => none
  | list _ => some ']'
  | nonNull _ => some '!'

/-- The text of a type ends as its outermost wrapper does, and a bare name with no mark. -/
theorem filter_getLast?_text {a : TypeUse} (plain : a.Plain) :
    a.text.toList.getLast?.filter (· ∈ marks) = a.closing? := by
  cases a with
  | named ref =>
    rw [closing?, Option.filter_eq_none_iff]
    intro c last mark
    exact plain c (List.mem_of_getLast? last) (of_decide_eq_true mark)
  | list item => simp [text, closing?, marks, List.getLast?_cons]
  | nonNull inner => simp [text, closing?, marks]

theorem closing?_eq_of_text_eq {a b : TypeUse} (plain : a.Plain) (plain' : b.Plain)
    (same : a.text = b.text) : a.closing? = b.closing? := by
  rw [← filter_getLast?_text plain, ← filter_getLast?_text plain', same]

theorem item_text_eq {a b : TypeUse} (same : (list a).text = (list b).text) : a.text = b.text := by
  have chars := congrArg String.toList same
  simp only [text, String.toList_append] at chars
  exact String.toList_inj.mp (List.append_cancel_left (List.append_cancel_right chars))

theorem inner_text_eq {a b : TypeUse} (same : (nonNull a).text = (nonNull b).text) :
    a.text = b.text := by
  have chars := congrArg String.toList same
  simp only [text, String.toList_append] at chars
  exact String.toList_inj.mp (List.append_cancel_right chars)

/-- A text can be read in one way only. -/
theorem toExpr_eq_of_text_eq {a b : TypeUse} (plain : a.Plain) (plain' : b.Plain)
    (same : a.text = b.text) : a.toExpr = b.toExpr := by
  -- The texts end alike, so the outermost wrappers agree; what is inside has equal texts again.
  induction a generalizing b with
  | named ref =>
    have closing := closing?_eq_of_text_eq plain plain' same
    cases b with
    | named other => exact congrArg TypeExpr.named same
    | list | nonNull => cases closing
  | list item ih =>
    have closing := closing?_eq_of_text_eq plain plain' same
    cases b with
    | list other => exact congrArg TypeExpr.list (ih plain plain' (item_text_eq same))
    | named | nonNull => cases closing
  | nonNull inner ih =>
    have closing := closing?_eq_of_text_eq plain plain' same
    cases b with
    | nonNull other => exact congrArg TypeExpr.nonNull (ih plain plain' (inner_text_eq same))
    | named | list => cases closing

theorem text_eq_iff {a b : TypeUse} (plain : a.Plain) (plain' : b.Plain) :
    a.text = b.text ↔ a.equivalent b = true := by
  rw [equivalent_iff_toExpr]
  constructor
  · exact toExpr_eq_of_text_eq plain plain'
  · intro same
    rw [text_eq_written, same, text_eq_written]

end TypeUse

namespace Problem

/-- The types that a message sets against each other, because they should be the same. They are in
the order of the message. -/
def contrast? : Problem → Option (TypeUse × TypeUse)
  | extensionChangesType _ existing new => some (existing, new)
  | interfaceArgumentMismatch _ expected found _ => some (found, expected)
  | _ => none

/-- A message shows two texts in quotes. -/
def Quotes (message first second : String) : Prop :=
  ∃ before between after, message =
    before ++ "'" ++ first ++ "'" ++ between ++ "'" ++ second ++ "'" ++ after

variable {p : Problem} {a b : TypeUse} (contrast : p.contrast? = some (a, b))

include contrast

theorem concern_of_contrast? : p.concern = .collection ∨ p.concern = .conformance := by
  cases p with
  | extensionChangesType element existing new => exact .inl rfl
  | interfaceArgumentMismatch element expected found interface => exact .inr rfl
  | _ => cases contrast

theorem message_quotes : Quotes p.message a.text b.text := by
  cases p with
  | extensionChangesType element existing new =>
    cases contrast
    refine ⟨"Extension of " ++ element.text ++ " changes its type from ", " to ", ".", ?_⟩
    calc message (extensionChangesType element a b)
        = "Extension of " ++ element.text ++ (" changes its type from " ++ "'") ++ a.text ++
            ("'" ++ " to " ++ "'") ++ b.text ++ ("'" ++ ".") := rfl
      _ = _ := by simp only [String.append_assoc]
  | interfaceArgumentMismatch element expected found interface =>
    cases contrast
    refine ⟨opening element ++ " has type ",
      ", but interface '" ++ interface ++ "' declares it with " ++ "type ", ".", ?_⟩
    calc message (interfaceArgumentMismatch element b a interface)
        = opening element ++ (" has type " ++ "'") ++ a.text ++
            ("'" ++ ", but interface '") ++ interface ++ "' declares it with " ++
              ("type " ++ "'" ++ b.text ++ ("'" ++ ".")) := rfl
      _ = _ := by simp only [String.append_assoc]
  | _ => cases contrast

theorem OfCollection.differs (collected : p.OfCollection) : a.equivalent b = false := by
  cases collected with
  | extensionChangesType element changed =>
    cases contrast
    exact changed
  | _ => cases contrast

theorem OfConformance.differs (conformance : p.OfConformance) : a.equivalent b = false := by
  cases conformance with
  | interfaceArgumentMismatch element differs interface =>
    cases contrast
    exact differs
  | _ => cases contrast

end Problem

theorem Graph.violations_differ {g : Graph} {x : Diagnostic} (member : x ∈ g.violations)
    {a b : TypeUse} (contrast : x.problem.contrast? = some (a, b)) : a.equivalent b = false := by
  have concern := Problem.concern_of_contrast? contrast
  have other : ∀ c, c ≠ .collection → c ≠ .conformance → x.problem.concern ≠ c := by
    rintro c first second rfl
    exact concern.elim first second
  rw [mem_violations (other .form (by decide) (by decide)) (other .usage (by decide) (by decide))
    (other .cycle (by decide) (by decide))] at member
  obtain ⟨t, d, shape, _, _, _, _, checked⟩ := member
  exact Problem.OfConformance.differs contrast ((g.each_checkInterfaces t d shape).holds x checked)

/-- A buffer with an executable definition is refused before anything is looked at. -/
theorem problems_of_executable {required : Bool} {declarations : List Sourced} {error : BuildError}
    (executable : firstExecutable? declarations = some error) :
    (analyze required declarations).problems = [] := by
  obtain ⟨s, _, found⟩ := List.exists_of_findSome?_eq_some executable
  simp only [Outcome.problems, analyze, executable]
  split at found
  · cases found
    rfl
  · cases found

/-- Types that a run sets against each other are not written alike. -/
theorem problems_differ {required : Bool} {declarations : List Sourced} {x : Diagnostic}
    (member : x ∈ (analyze required declarations).problems) {a b : TypeUse}
    (contrast : x.problem.contrast? = some (a, b)) : a.equivalent b = false := by
  have concern := Problem.concern_of_contrast? contrast
  cases executable : firstExecutable? declarations with
  | some error =>
    rw [problems_of_executable executable] at member
    cases member
  | none =>
    rcases (mem_problems_iff executable).mp member with collected | dangling | broken | rooted
    · exact Problem.OfCollection.differs contrast ((Graph.each_collect _).holds x collected)
    · rw [(Graph.only_danglingNames _).each x dangling] at concern
      simp at concern
    · exact Graph.violations_differ broken contrast
    · rw [(Graph.only_resolveRoot _ required).each x rooted] at concern
      simp at concern

/-- The text of a type is faithful. As long as names have no character of a wrapper, two types have
the same text exactly if they are equivalent, which they are exactly if they are written as the same
expression. So whenever a run sets two types against each other it shows two different texts. And a
type that is read from the expression of another one is equivalent to that, wherever it stands. -/
theorem type_text_faithful :
    (∀ a b : TypeUse, a.Plain → b.Plain →
      (a.text = b.text ↔ a.equivalent b = true) ∧ (a.text = b.text ↔ a.toExpr = b.toExpr)) ∧
      (∀ required declarations, ∀ x ∈ (analyze required declarations).problems, ∀ a b,
        x.problem.contrast? = some (a, b) →
          Problem.Quotes x.message a.text b.text ∧ (a.Plain → b.Plain → a.text ≠ b.text)) ∧
      ∀ location (a : TypeUse), (TypeUse.ofExpr location a.toExpr).equivalent a = true := by
  refine ⟨fun a b plain plain' => ?_, fun required declarations x member a b contrast => ?_,
    fun location a => ?_⟩
  · have same := TypeUse.text_eq_iff plain plain'
    exact ⟨same, same.trans (a.equivalent_iff_toExpr b)⟩
  · refine ⟨Problem.message_quotes contrast, fun plain plain' same => ?_⟩
    have differs := problems_differ member contrast
    rw [(TypeUse.text_eq_iff plain plain').mp same] at differs
    cases differs
  · rw [TypeUse.equivalent_iff_toExpr, TypeUse.toExpr_ofExpr]

/-- `Book` takes the days as another list than `Lendable` declares, and an extension turns a shelf
into a list of shelves. -/
def lendingDesk : List (Option String × Declaration) := [
  (none, .type {
    name := "Lendable"
    body := .interface [] [{ name := "due", type := .named "String", arguments := [
      { name := "days", type := .nonNull (.list (.nonNull (.named "Int"))) }] }] }),
  (none, .type {
    name := "Book"
    body := .object ["Lendable"] [
      { name := "due", type := .named "String", arguments := [
        { name := "days", type := .nonNull (.list (.named "Int")) }] },
      { name := "shelf", type := .nonNull (.named "Int") }] }),
  (none, .typeExtension {
    name := "Book"
    body := .object [] [{ name := "shelf", type := .list (.nonNull (.named "Int")) }] })]

/-- What is said about types on the lending desk: each time they have plain names, and the texts
differ. -/
theorem type_text_faithful_lendingDesk :
    ((analyze false (given lendingDesk)).problems.filterMap fun x =>
        x.problem.contrast?.map fun e => (e.1.text, e.2.text)) =
      [("Int!", "[Int!]"), ("[Int]!", "[Int!]!")] ∧
      ∀ x ∈ (analyze false (given lendingDesk)).problems, ∀ a b,
        x.problem.contrast? = some (a, b) →
          a.Plain ∧ b.Plain ∧ Problem.Quotes x.message a.text b.text ∧ a.text ≠ b.text := by
  obtain ⟨_, shown, _⟩ := type_text_faithful
  have plain : ((analyze false (given lendingDesk)).problems.all fun x =>
      x.problem.contrast?.all fun e => decide (e.1.Plain ∧ e.2.Plain)) = true := by decide +kernel
  refine ⟨by decide +kernel, fun x member a b contrast => ?_⟩
  have names := List.all_eq_true.mp plain x member
  rw [contrast] at names
  obtain ⟨first, second⟩ := of_decide_eq_true names
  obtain ⟨quotes, differ⟩ := shown false (given lendingDesk) x member a b contrast
  exact ⟨first, second, quotes, differ first second⟩

end SchemaAtlas
