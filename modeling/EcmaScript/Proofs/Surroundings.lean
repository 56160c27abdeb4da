import EcmaScript.Proofs.Node
import EcmaScript.Proofs.Rules

/-!
# What surrounds a node

The steps from a root down to a node say which loops, clauses and labelled statements surround it
inside its own function. A scope follows the steps: `Scope.along` is the scope of the node when that
of the root is known. The scope in which a node is really read agrees with it, but `in` may have
become an operator or ceased to be one, and the code may have become strict.
-/

namespace EcmaScript

namespace Step

/-- The step goes from a loop to its body. -/
def entersLoop (step : Step) : Bool :=
  match step.parent, step.child with
  | .statement (.whileLoop ..), .statement _ => true
  | .statement (.doWhileLoop ..), .statement _ => true
  | .statement (.forLoop ..), .statement _ => true
  | .statement (.forInLoop ..), .statement _ => true
  | _, _ => false

/-- The step goes from a `switch` statement to one of its clauses. -/
def entersClause (step : Step) : Bool :=
  match step.parent, step.child with
  | .statement (.switch ..), .clause _ => true
  | _, _ => false

/-- The label of the statement that the step goes into. -/
def label? (step : Step) : Option String :=
  match step.parent, step.child with
  | .statement (.labelled label _ _), .statement _ => some label.name
  | _, _ => none

/-- The last steps of a path, from the innermost function on. -/
def withinFunction (path : List Step) : List Step :=
  path.takeWhile fun step => !step.entersFunction

/-- A path leads into a function. -/
def inFunction (path : List Step) : Bool :=
  path.any entersFunction

/-- A path leads into the body of a loop, without a function in between. -/
def inLoop (path : List Step) : Bool :=
  (withinFunction path).any entersLoop

/-- A path leads into a clause of a `switch` statement, without a function in between. -/
def inClause (path : List Step) : Bool :=
  (withinFunction path).any entersClause

/-- The labels of the statements around a place in the same function, the innermost first. -/
def labels (path : List Step) : List String :=
  (withinFunction path).filterMap label?

/-- The scope after a step. -/
def enter (step : Step) (scope : Scope) : Scope :=
  if step.entersFunction then scope.inFunction
  else
    { scope with
      context :=
        { scope.context with
          inLoop := step.entersLoop || scope.context.inLoop
          inSwitch := step.entersClause || scope.context.inSwitch }
      labels := (step.label?.map scope.labels.push).getD scope.labels }

end Step

namespace Scope

/-- The scope at the end of a path, whose last step comes first. -/
def along (scope : Scope) (path : List Step) : Scope :=
  path.foldr Step.enter scope

/-- An inner scope has the same loops, clauses, functions and labels around it, and is strict if the
outer one is. -/
structure Agrees (outer inner : Scope) : Prop where
  labels : inner.labels = outer.labels
  options : inner.options = outer.options
  inLoop : inner.context.inLoop = outer.context.inLoop
  inSwitch : inner.context.inSwitch = outer.context.inSwitch
  inFunction : inner.context.inFunction = outer.context.inFunction
  strict : outer.context.strict = true → inner.context.strict = true

theorem Agrees.refl (scope : Scope) : scope.Agrees scope :=
  ⟨rfl, rfl, rfl, rfl, rfl, id⟩

theorem Agrees.trans {outer middle inner : Scope} (first : outer.Agrees middle)
    (second : middle.Agrees inner) : outer.Agrees inner :=
  ⟨second.labels.trans first.labels, second.options.trans first.options,
    second.inLoop.trans first.inLoop, second.inSwitch.trans first.inSwitch,
    second.inFunction.trans first.inFunction, fun strict => second.strict (first.strict strict)⟩

theorem Agrees.withIn (scope : Scope) : scope.Agrees scope.withIn :=
  ⟨rfl, rfl, rfl, rfl, rfl, id⟩

theorem Agrees.withoutIn (scope : Scope) : scope.Agrees scope.withoutIn :=
  ⟨rfl, rfl, rfl, rfl, rfl, id⟩

theorem Agrees.afterDirective (scope : Scope) (text : String) :
    scope.Agrees (scope.afterDirective text) := by
  unfold Scope.afterDirective
  split
  · exact ⟨rfl, rfl, rfl, rfl, rfl, fun _ => rfl⟩
  · exact .refl scope

/-- Scopes that agree still do so after a step. -/
theorem Agrees.enter {outer inner : Scope} (agrees : outer.Agrees inner) (step : Step) :
    (step.enter outer).Agrees (step.enter inner) := by
  unfold Step.enter
  split
  · exact ⟨rfl, agrees.options, rfl, rfl, rfl, agrees.strict⟩
  · constructor
    · simp only [agrees.labels]
    · exact agrees.options
    · simp only [agrees.inLoop]
    · simp only [agrees.inSwitch]
    · exact agrees.inFunction
    · exact agrees.strict

theorem Agrees.along {outer inner : Scope} (agrees : outer.Agrees inner) (path : List Step) :
    (outer.along path).Agrees (inner.along path) := by
  induction path with
  | nil => exact agrees
  | cons step path ih => exact ih.enter step

section Along

variable {scope : Scope} (path : List Step)

theorem inLoop_along (outside : scope.context.inLoop = false) :
    (scope.along path).context.inLoop = Step.inLoop path := by
  induction path with
  | nil => exact outside
  | cons step path ih =>
    rw [along, List.foldr_cons, Step.enter, Step.inLoop, Step.withinFunction]
    cases enters : step.entersFunction with
    | true => simp [enters, Scope.inFunction, Context.forFunctionBody]
    | false =>
      simp only [enters, Bool.not_false, List.takeWhile_cons_of_pos, List.any_cons]
      exact congrArg (step.entersLoop || ·) ih

theorem inSwitch_along (outside : scope.context.inSwitch = false) :
    (scope.along path).context.inSwitch = Step.inClause path := by
  induction path with
  | nil => exact outside
  | cons step path ih =>
    rw [along, List.foldr_cons, Step.enter, Step.inClause, Step.withinFunction]
    cases enters : step.entersFunction with
    | true => simp [enters, Scope.inFunction, Context.forFunctionBody]
    | false =>
      simp only [enters, Bool.not_false, List.takeWhile_cons_of_pos, List.any_cons]
      exact congrArg (step.entersClause || ·) ih

theorem labels_along (outside : scope.labels = {}) :
    (scope.along path).labels = ⟨Step.labels path⟩ := by
  induction path with
  | nil => exact outside
  | cons step path ih =>
    rw [along, List.foldr_cons, Step.enter, Step.labels, Step.withinFunction]
    cases enters : step.entersFunction with
    | true => simp [enters, Scope.inFunction]
    | false =>
      simp only [enters, Bool.not_false, List.takeWhile_cons_of_pos, List.filterMap_cons]
      cases step.label? with
      | none => exact ih
      | some label => exact congrArg (·.push label) ih

end Along

end Scope

end EcmaScript
