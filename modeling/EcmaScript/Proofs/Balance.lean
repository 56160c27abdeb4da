import EcmaScript.Proofs.Composition
import EcmaScript.Proofs.Restoration

/-!
# Actions that put back what they change

A balanced action changes its surroundings only for an action inside it, and puts them back behind
that one, whether it succeeds or fails. Nearly all of the grammar is made of balanced actions, so how
they are put together is gone through only once: that they restore their surroundings, and that they
are composed as the actions of the grammar are, follows by induction.
-/

namespace EcmaScript.Parse

variable {α β : Type}

/-- A balanced action of the grammar. -/
inductive IsBalanced : {α : Type} → Parse α → Prop where
  /-- It looks at the state, and leaves it as it is. -/
  | look {α : Type} {action : Parse α} (view : State → α) :
      (∀ state, action state = .ok (view state) state) → IsBalanced action
  /-- It refuses what it sees. -/
  | refuse {α : Type} {action : Parse α} :
      (∀ state, ∃ fault, action state = .error fault state ∧ fault.cause.category ≠ .lexical) →
      IsBalanced action
  | consume : IsBalanced consume
  | reread (front : List Char) : IsBalanced (reread front)
  | bind {α β : Type} {first : Parse α} {rest : α → Parse β} : IsBalanced first →
      (∀ value, IsBalanced (rest value)) → IsBalanced (first >>= rest)
  | inContext {α : Type} {action : Parse α} (change : Context → Context) : IsBalanced action →
      IsBalanced (inContext change action)
  | withLabel {α : Type} {action : Parse α} (label : String) : IsBalanced action →
      IsBalanced (withLabel label action)
  /-- Inside it is the body of a function, which begins with directives. They need not be balanced:
  whatever becomes of the context and the labels in there, both are put back. -/
  | inFunction {α : Type} {action : Parse α} : action.IsComposed → action.Keeps State.options →
      IsBalanced (inFunction action)

namespace IsBalanced

theorem isComposed {action : Parse α} (balanced : action.IsBalanced) : action.IsComposed := by
  induction balanced with
  | look view same => exact .look view same
  | refuse fails => exact .refuse fails
  | consume => exact .consume
  | reread front => exact .reread front
  | bind _ _ first rest => exact .bind first rest
  | inContext _ _ ih => exact .within (fun _ => rfl) (fun _ _ => rfl) ih
  | withLabel _ _ ih => exact .within (fun _ => rfl) (fun _ _ => rfl) ih
  | inFunction composed => exact .within (fun _ => rfl) (fun _ _ => rfl) composed

theorem restores {action : Parse α} (balanced : action.IsBalanced) : action.Restores := by
  induction balanced with
  | look view same => exact .of_steady fun state => by rw [stateAfter, same]
  | refuse fails =>
    refine .of_steady fun state => ?_
    obtain ⟨fault, fails, -⟩ := fails state
    rw [stateAfter, fails]
  | consume => exact .consume
  | reread front => exact .reread front
  | bind _ _ first rest => exact .bind first rest
  | inContext change _ ih => exact ih.inContext change
  | withLabel label _ ih => exact ih.withLabel label
  | inFunction _ keeps => exact .inFunction keeps

section Parts

variable {action : Parse α} {rest : α → Parse β}

theorem pure (value : α) : (Pure.pure value : Parse α).IsBalanced :=
  look (fun _ => value) fun _ => rfl

theorem get : (MonadState.get : Parse State).IsBalanced :=
  look id fun _ => rfl

theorem lookahead : Parse.lookahead.IsBalanced :=
  look (·.lookahead) fun _ => rfl

theorem kind : Parse.kind.IsBalanced :=
  look (·.lookahead.kind) fun _ => rfl

theorem sees (expected : Kind) : (Parse.sees expected).IsBalanced :=
  look (·.lookahead.kind == expected) fun _ => rfl

theorem isStrict : Parse.isStrict.IsBalanced :=
  look (·.context.strict) fun _ => rfl

theorem nodeStart : Parse.nodeStart.IsBalanced :=
  look (·.lookahead.span.start) fun _ => rfl

theorem spanFrom (start : Position) : (Parse.spanFrom start).IsBalanced :=
  look (fun state => ⟨start, state.consumedEnd⟩) fun _ => rfl

theorem fail {cause : Cause} (grammatical : cause.category ≠ .lexical) (position : Position) :
    (Parse.fail cause position : Parse α).IsBalanced :=
  .refuse fun _ => ⟨_, rfl, grammatical⟩

theorem unexpected : (Parse.unexpected : Parse α).IsBalanced :=
  .refuse fun _ => ⟨_, rfl, by rintro ⟨⟩⟩

theorem exhausted : (Parse.exhausted : Parse α).IsBalanced :=
  .refuse fun _ => ⟨_, rfl, by rintro ⟨⟩⟩

theorem map {function : α → β} (balanced : action.IsBalanced) :
    (function <$> action).IsBalanced := by
  rw [map_eq_pure_bind]
  exact balanced.bind fun value => .pure _

variable {condition : Prop} [Decidable condition]

theorem choice {yes no : Parse α} (left : yes.IsBalanced) (right : no.IsBalanced) :
    (if condition then yes else no).IsBalanced := by
  split
  · exact left
  · exact right

/-- One of two actions, and then the same for both. -/
theorem either {yes no : Parse α} (left : yes.IsBalanced) (right : no.IsBalanced)
    (both : ∀ value, (rest value).IsBalanced) :
    (if condition then yes >>= rest else no >>= rest).IsBalanced :=
  .choice (.bind left both) (.bind right both)

/-- What comes after a fault is not reached. -/
theorem fail_bind {cause : Cause} (grammatical : cause.category ≠ .lexical) (position : Position) :
    ((Parse.fail cause position : Parse α) >>= rest).IsBalanced :=
  .refuse fun _ => ⟨_, rfl, grammatical⟩

/-- A fault of the grammar, unless something holds. -/
theorem need {cause : Cause} (grammatical : cause.category ≠ .lexical) {position : Position}
    {passed : Parse β} (holds : passed.IsBalanced) :
    (if condition then passed else Parse.fail cause position >>= rest).IsBalanced :=
  .choice holds (.fail_bind grammatical position)

/-- A fault of the grammar, if something holds. -/
theorem forbid {cause : Cause} (grammatical : cause.category ≠ .lexical) {position : Position}
    {passed : Parse β} (holds : passed.IsBalanced) :
    (if condition then Parse.fail cause position >>= rest else passed).IsBalanced :=
  .choice (.fail_bind grammatical position) holds

end Parts

section Tokens

theorem require (expected : Kind) : (Parse.require expected).IsBalanced := by
  rw [Parse.require]
  refine .bind (.sees _) fun found => ?_
  exact .choice .consume .unexpected

theorem consumeIf (expected : Kind) : (Parse.consumeIf expected).IsBalanced := by
  rw [Parse.consumeIf]
  refine .bind (.sees _) fun found => ?_
  exact .choice (.bind .consume fun _ => .pure _) (.pure _)

theorem semicolon : Parse.semicolon.IsBalanced := by
  rw [Parse.semicolon]
  refine .bind (.consumeIf _) fun found => ?_
  refine .choice (.pure _) ?_
  refine .bind .lookahead fun token => ?_
  exact .choice (.pure _) .unexpected

end Tokens

section Surroundings

variable {action : Parse α}

theorem withIn (balanced : action.IsBalanced) : (Parse.withIn action).IsBalanced :=
  balanced.inContext _

theorem withoutIn (balanced : action.IsBalanced) : (Parse.withoutIn action).IsBalanced :=
  balanced.inContext _

theorem inLoop (balanced : action.IsBalanced) : (Parse.inLoop action).IsBalanced :=
  balanced.inContext _

theorem inSwitch (balanced : action.IsBalanced) : (Parse.inSwitch action).IsBalanced :=
  balanced.inContext _

/-- Something that keeps the options, and then a balanced action, may be the body of a function. -/
theorem body {rest : α → Parse β} (composed : action.IsComposed)
    (keeps : action.Keeps State.options) (balanced : ∀ value, (rest value).IsBalanced) :
    (Parse.inFunction (action >>= rest)).IsBalanced :=
  .inFunction (composed.bind fun value => (balanced value).isComposed)
    (keeps.bind fun value => (balanced value).restores.options)

end Surroundings

section Lists

variable {item : Parse α}

theorem itemsUntil (ends : Kind → Bool) (balanced : item.IsBalanced) (turns : Nat) :
    (Parse.itemsUntil ends item turns).IsBalanced := by
  induction turns with
  | zero => exact .exhausted
  | succ turns ih =>
    rw [Parse.itemsUntil]
    refine .bind .kind fun kind => ?_
    refine .choice (.pure _) ?_
    refine .bind balanced fun first => ?_
    exact .bind ih fun others => .pure _

theorem separated (balanced : item.IsBalanced) (turns : Nat) :
    (Parse.separated item turns).IsBalanced := by
  induction turns with
  | zero => exact .exhausted
  | succ turns ih =>
    rw [Parse.separated]
    refine .bind balanced fun first => ?_
    refine .bind (.consumeIf _) fun found => ?_
    exact .choice (.bind ih fun others => .pure _) (.pure _)

end Lists

section Names

theorem identifierReference : Parse.identifierReference.IsBalanced := by
  rw [Parse.identifierReference]
  refine .bind .lookahead fun token => ?_
  split
  · refine .bind .consume fun _ => ?_
    refine .bind .isStrict fun strict => ?_
    exact .forbid (by rintro ⟨⟩) (.pure _)
  · exact .unexpected

theorem bindingIdentifier : Parse.bindingIdentifier.IsBalanced := by
  rw [Parse.bindingIdentifier]
  refine .bind .identifierReference fun name => ?_
  refine .bind .isStrict fun strict => ?_
  exact .forbid (by rintro ⟨⟩) (.pure _)

theorem identifierName : Parse.identifierName.IsBalanced := by
  rw [Parse.identifierName]
  refine .bind .lookahead fun token => ?_
  exact .choice (.bind .consume fun _ => .pure _) .unexpected

end Names

end IsBalanced

end EcmaScript.Parse
