import EcmaScript.Proofs.Outcome

/-!
# Surroundings put back

An action restores its surroundings when they are the same before and after it, whether it succeeds
or fails. Reading tokens does, and so does a sequence of actions that do: a fault in one of them
leaves the surroundings as the actions before it left them. Actions in other surroundings put back
only what they change themselves, and of the rest they restore what their inner action does.
-/

namespace EcmaScript.Parse

variable {α β : Type}

/-- The state after an action, whether it succeeds or fails. -/
def stateAfter (action : Parse α) (state : State) : State :=
  match action state with
  | .ok _ after | .error _ after => after

/-- Whether an action succeeds or fails, some part of the state is what it was before. -/
def Keeps {γ : Type} (part : State → γ) (action : Parse α) : Prop :=
  ∀ state, part (stateAfter action state) = part state

/-- Whether an action succeeds or fails, its surroundings are what they were before. -/
def Restores (action : Parse α) : Prop :=
  action.Keeps State.scope

/-- A fault in the first of two actions is the end of both. -/
theorem stateAfter_bind (action : Parse α) (rest : α → Parse β) (state : State) :
    stateAfter (action >>= rest) state =
      match action state with
      | .ok value between => stateAfter (rest value) between
      | .error _ after => after := by
  change stateAfter (EStateM.bind action rest) state = _
  unfold stateAfter EStateM.bind
  cases action state with
  | ok => rfl
  | error => rfl

/-- What is made of a result does not change the state. -/
theorem stateAfter_bind_pure (action : Parse α) (function : α → β) (state : State) :
    stateAfter (action >>= fun value => pure (function value)) state = stateAfter action state := by
  rw [stateAfter_bind]
  unfold stateAfter
  cases action state with
  | ok => rfl
  | error => rfl

theorem stateAfter_enableStrict_bind (rest : Unit → Parse β) (state : State) :
    stateAfter (enableStrict >>= rest) state =
      stateAfter (rest ()) (stateAfter enableStrict state) := by
  obtain ⟨events, _, succeeds⟩ := enableStrict_ok state
  rw [stateAfter_bind, succeeds]
  simp only [stateAfter, succeeds]

/-- Code is strict after a directive that says so. -/
theorem scope_enableStrict (state : State) :
    (stateAfter enableStrict state).scope = state.scope.afterDirective "use strict" := by
  obtain ⟨events, _, succeeds⟩ := enableStrict_ok state
  simp only [stateAfter, succeeds]
  rfl

theorem stateAfter_within (enter : State → State) (leave : State → State → State)
    (action : Parse α) (state : State) :
    stateAfter (within enter leave action) state =
      leave state (stateAfter action (enter state)) := by
  unfold stateAfter within
  cases action (enter state) with
  | ok => rfl
  | error => rfl

section Keeps

variable {γ : Type} {part : State → γ} {action : Parse α} {rest : α → Parse β}

/-- An action after another one that keeps a part of the state leaves it as the first one does. -/
theorem Keeps.after (second : ∀ value, (rest value).Keeps part) (state : State) :
    part (stateAfter (action >>= rest) state) = part (stateAfter action state) := by
  rw [stateAfter_bind]
  unfold stateAfter
  cases action state with
  | ok value between => exact second value between
  | error => rfl

theorem Keeps.bind (first : action.Keeps part) (second : ∀ value, (rest value).Keeps part) :
    (action >>= rest).Keeps part :=
  fun state => (Keeps.after second state).trans (first state)

end Keeps

namespace Restores

section Sequences

variable {action : Parse α} {rest : α → Parse β}

theorem bind (first : action.Restores) (second : ∀ value, (rest value).Restores) :
    (action >>= rest).Restores :=
  Keeps.bind first second

theorem options (restores : action.Restores) : action.Keeps State.options :=
  fun state => congrArg Scope.options (restores state)

/-- An action that leaves the state alone. -/
theorem of_steady (steady : ∀ state, stateAfter action state = state) : action.Restores :=
  fun state => congrArg State.scope (steady state)

theorem pure (value : α) : (Pure.pure value : Parse α).Restores :=
  of_steady fun _ => rfl

theorem lookahead : Parse.lookahead.Restores :=
  of_steady fun _ => rfl

theorem record (event : Event) : (Parse.record event).Restores :=
  fun _ => rfl

end Sequences

section Tokens

theorem scan (action : Scan Token) : (Parse.scan action).Restores := by
  intro state
  unfold stateAfter Parse.scan
  cases action state.cursor with
  | ok => rfl
  | error => rfl

theorem fetch : Parse.fetch.Restores := by
  rw [Parse.fetch]
  refine bind (.scan _) fun token => ?_
  exact bind (.record _) fun _ => .pure token

theorem consume : Parse.consume.Restores := by
  rw [Parse.consume]
  exact bind .fetch fun next _ => rfl

theorem reread (front : List Char) : (Parse.reread front).Restores := by
  rw [Parse.reread]
  refine bind .lookahead fun slash => ?_
  refine bind (.scan _) fun token => ?_
  exact bind (.record _) fun _ _ => rfl

end Tokens

section Surroundings

variable {action : Parse α}

/-- The inner action restores the labels, and the context is put back. -/
theorem inContext (change : Context → Context) (restores : action.Restores) :
    (Parse.inContext change action).Restores := by
  intro state
  have same := restores { state with context := change state.context }
  rw [Parse.inContext, stateAfter_within]
  simp only [State.scope, Scope.mk.injEq] at same ⊢
  exact ⟨trivial, same.2⟩

/-- The inner action restores the context and its own labels, of which the innermost is removed. -/
theorem withLabel (label : String) (restores : action.Restores) :
    (Parse.withLabel label action).Restores := by
  intro state
  have same := restores { state with labels := state.labels.push label }
  rw [Parse.withLabel, stateAfter_within]
  simp only [State.scope, Scope.mk.injEq] at same ⊢
  obtain ⟨context, labels, options⟩ := same
  exact ⟨context, by rw [labels, Labels.pop_push], options⟩

/-- Whatever becomes of the context and the labels in the body of a function, they are put back. -/
theorem inFunction (keeps : action.Keeps State.options) : (Parse.inFunction action).Restores := by
  intro state
  have same := keeps { state with context := state.context.forFunctionBody, labels := {} }
  rw [Parse.inFunction, stateAfter_within]
  simp only [State.scope, same]

end Surroundings

end Restores

end EcmaScript.Parse
