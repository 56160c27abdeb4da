import EcmaScript.Grammar.Script

/-!
# Operands in the head of a `for` statement

In the head of a `for` statement `in` is no operator, but inside brackets, arguments and functions it
is one there too. An operand with all that follows it directly is therefore read in a head just as it
is read elsewhere: none of its productions looks at whether it stands in a head.
-/

namespace EcmaScript

/-- A state in the head of a `for` statement, or outside of one. -/
def State.inHead (inside : Bool) (state : State) : State :=
  { state with context := { state.context with withoutIn := inside } }

namespace Parse

variable {α β : Type}

/-- What comes out of an action, in the head of a `for` statement or outside of one. -/
def outcomeInHead (inside : Bool) : EStateM.Result Fault State α → EStateM.Result Fault State α
  | .ok value after => .ok value (after.inHead inside)
  | .error fault after => .error fault (after.inHead inside)

/-- An action does the same in the head of a `for` statement and elsewhere. -/
def IgnoresHead (action : Parse α) : Prop :=
  ∀ inside state, action (state.inHead inside) = outcomeInHead inside (action state)

namespace IgnoresHead

section Sequences

variable {action : Parse α} {rest : α → Parse β}

theorem bind (first : action.IgnoresHead) (second : ∀ value, (rest value).IgnoresHead) :
    (action >>= rest).IgnoresHead := by
  intro inside state
  change EStateM.bind action rest _ = outcomeInHead inside (EStateM.bind action rest state)
  unfold EStateM.bind
  rw [first inside state]
  cases action state with
  | ok value between => exact second value inside between
  | error => rfl

theorem pure (value : α) : (Pure.pure value : Parse α).IgnoresHead :=
  fun _ _ => rfl

theorem map {function : α → β} (ignores : action.IgnoresHead) :
    (function <$> action).IgnoresHead := by
  rw [map_eq_pure_bind]
  exact ignores.bind fun value => .pure (function value)

theorem fail (cause : Cause) (position : Position) :
    (Parse.fail cause position : Parse α).IgnoresHead :=
  fun _ _ => rfl

theorem unexpected : (Parse.unexpected : Parse α).IgnoresHead :=
  fun _ _ => rfl

theorem exhausted : (Parse.exhausted : Parse α).IgnoresHead :=
  fun _ _ => rfl

theorem lookahead : Parse.lookahead.IgnoresHead :=
  fun _ _ => rfl

theorem nodeStart : Parse.nodeStart.IgnoresHead :=
  fun _ _ => rfl

theorem sees (expected : Kind) : (Parse.sees expected).IgnoresHead :=
  fun _ _ => rfl

theorem isStrict : Parse.isStrict.IgnoresHead :=
  fun _ _ => rfl

theorem spanFrom (start : Position) : (Parse.spanFrom start).IgnoresHead :=
  fun _ _ => rfl

theorem choice {condition : Prop} [Decidable condition] {yes no : Parse α}
    (left : yes.IgnoresHead) (right : no.IgnoresHead) :
    (if condition then yes else no).IgnoresHead := by
  split
  · exact left
  · exact right

theorem either {condition : Prop} [Decidable condition] {yes no : Parse α} {rest : α → Parse β}
    (left : yes.IgnoresHead) (right : no.IgnoresHead) (next : ∀ value, (rest value).IgnoresHead) :
    (if condition then yes >>= rest else no >>= rest).IgnoresHead :=
  .choice (left.bind next) (right.bind next)

theorem refuse {condition : Prop} [Decidable condition] {cause : Cause} {position : Position}
    {passed : Parse α} (ignores : passed.IgnoresHead) :
    (if condition then Parse.fail cause position >>= fun _ : PUnit => passed
      else passed).IgnoresHead :=
  .choice (.bind (.fail _ _) fun _ => ignores) ignores

end Sequences

theorem scan (action : Scan Token) : (Parse.scan action).IgnoresHead := by
  intro inside state
  unfold Parse.scan
  dsimp only [State.inHead]
  cases action state.cursor <;> rfl

theorem consume : Parse.consume.IgnoresHead := by
  rw [Parse.consume, Parse.fetch]
  refine .bind (.bind (.scan _) fun token => ?_) fun next => fun _ _ => rfl
  exact .bind (fun _ _ => rfl) fun _ => .pure _

theorem reread (front : List Char) : (Parse.reread front).IgnoresHead := by
  rw [Parse.reread]
  refine .bind .lookahead fun slash => ?_
  refine .bind (.scan _) fun token => ?_
  exact .bind (fun _ _ => rfl) fun _ => fun _ _ => rfl

theorem require (expected : Kind) : (Parse.require expected).IgnoresHead := by
  rw [Parse.require]
  exact .bind (.sees _) fun seen => .choice .consume .unexpected

theorem consumeIf (expected : Kind) : (Parse.consumeIf expected).IgnoresHead := by
  rw [Parse.consumeIf]
  exact .bind (.sees _) fun seen => .choice (.bind .consume fun _ => .pure _) (.pure _)

/-- Inside brackets `in` is an operator whatever is around them. -/
theorem withIn (action : Parse α) : (Parse.withIn action).IgnoresHead := by
  intro inside state
  simp only [Parse.withIn, Parse.inContext, Parse.within, State.inHead]
  cases action { state with context := { state.context with withoutIn := false } } <;> rfl

/-- A function body is in no head. -/
theorem inFunction (action : Parse α) : (Parse.inFunction action).IgnoresHead := by
  intro inside state
  simp only [Parse.inFunction, Parse.within, State.inHead, Context.forFunctionBody]
  cases action { state with
    context := { strict := state.context.strict, inFunction := true }, labels := {} } <;> rfl

theorem separated {item : Parse α} (ignores : item.IgnoresHead) (turns : Nat) :
    (Parse.separated item turns).IgnoresHead := by
  induction turns with
  | zero => exact .exhausted
  | succ turns ih =>
    rw [Parse.separated]
    refine .bind ignores fun first => ?_
    refine .bind (.consumeIf _) fun more => ?_
    exact .choice (.bind ih fun others => .pure _) (.pure _)

theorem identifierReference : Parse.identifierReference.IgnoresHead := by
  rw [Parse.identifierReference]
  refine .bind .lookahead fun token => ?_
  split
  · refine .bind .consume fun _ => ?_
    refine .bind .isStrict fun strict => ?_
    exact .refuse (.pure _)
  · exact .unexpected

theorem bindingIdentifier : Parse.bindingIdentifier.IgnoresHead := by
  rw [Parse.bindingIdentifier]
  refine .bind .identifierReference fun identifier => ?_
  refine .bind .isStrict fun strict => ?_
  exact .refuse (.pure _)

theorem identifierName : Parse.identifierName.IgnoresHead := by
  rw [Parse.identifierName]
  refine .bind .lookahead fun token => ?_
  exact .choice (.bind .consume fun _ => .pure _) .unexpected

end IgnoresHead

end Parse

namespace Grammar

open Parse

variable (self : Nonterminals)

theorem ignoresHead_literal (value : Literal) : (literal value).IgnoresHead := by
  rw [literal, literalToken]
  refine .bind (.bind .lookahead fun token => ?_) fun token => .pure _
  refine .bind .consume fun _ => ?_
  refine .bind .isStrict fun strict => ?_
  exact .refuse (.pure _)

theorem ignoresHead_regularExpression (front : List Char) :
    (regularExpression front).IgnoresHead := by
  rw [regularExpression]
  refine .bind (.reread _) fun _ => ?_
  refine .bind .lookahead fun token => ?_
  split
  · exact ignoresHead_literal _
  · exact .unexpected

theorem ignoresHead_arguments : (arguments self).IgnoresHead := by
  rw [arguments]
  exact .bind (.require _) fun _ => .withIn _

theorem ignoresHead_parenthesized : (parenthesized self).IgnoresHead := by
  rw [parenthesized]
  refine .bind (.require _) fun _ => ?_
  refine .bind (.withIn _) fun expression => ?_
  exact .bind (.require _) fun _ => .pure _

theorem ignoresHead_arrayLiteral : (arrayLiteral self).IgnoresHead := by
  rw [arrayLiteral]
  refine .bind .nodeStart fun start => ?_
  refine .bind (.require _) fun _ => ?_
  refine .bind (.withIn _) fun elements => ?_
  refine .bind (.require _) fun _ => ?_
  exact .bind (.spanFrom _) fun span => .pure _

theorem ignoresHead_objectLiteral : (objectLiteral self).IgnoresHead := by
  rw [objectLiteral]
  refine .bind .nodeStart fun start => ?_
  refine .bind (.require _) fun _ => ?_
  refine .bind (.withIn _) fun properties => ?_
  refine .bind (.require _) fun _ => ?_
  exact .bind (.spanFrom _) fun span => .pure _

theorem ignoresHead_formalParameters : (formalParameters self).IgnoresHead := by
  rw [formalParameters]
  refine .bind (.require _) fun _ => ?_
  refine .bind (.sees _) fun empty => ?_
  refine .either (.pure _) (.separated .bindingIdentifier _) fun parameters => ?_
  exact .bind (.require _) fun _ => .pure _

theorem ignoresHead_functionBody : (functionBody self).IgnoresHead := by
  rw [functionBody]
  refine .bind .nodeStart fun start => ?_
  refine .bind (.require _) fun _ => ?_
  refine .bind (.inFunction _) fun body => ?_
  exact .bind (.spanFrom _) fun span => .pure _

theorem ignoresHead_functionExpression : (functionExpression self).IgnoresHead := by
  rw [functionExpression]
  refine .bind .nodeStart fun start => ?_
  refine .bind (.require _) fun _ => ?_
  refine .bind (.sees _) fun named => ?_
  refine .either (.map .bindingIdentifier) (.pure _) fun name => ?_
  refine .bind (ignoresHead_formalParameters self) fun parameters => ?_
  refine .bind (ignoresHead_functionBody self) fun body => ?_
  exact .bind (.spanFrom _) fun span => .pure _

theorem ignoresHead_primary : (primary self).IgnoresHead := by
  rw [primary]
  refine .bind .lookahead fun token => ?_
  split
  · exact .bind .consume fun _ => .pure _
  · exact .map .identifierReference
  · exact ignoresHead_parenthesized self
  · exact ignoresHead_arrayLiteral self
  · exact ignoresHead_objectLiteral self
  · exact ignoresHead_functionExpression self
  · split
    · exact ignoresHead_regularExpression _
    · exact ignoresHead_literal _
    · exact .unexpected

theorem ignoresHead_suffixes (withCalls : Bool) (start : Position) (turns : Nat)
    (value : Expression) : (suffixes self withCalls start turns value).IgnoresHead := by
  induction turns generalizing value with
  | zero => exact .exhausted
  | succ turns ih =>
    rw [suffixes]
    refine .bind .lookahead fun token => ?_
    split
    · refine .bind .consume fun _ => ?_
      refine .bind .identifierName fun name => ?_
      exact .bind (.spanFrom _) fun span => ih _
    · refine .bind .consume fun _ => ?_
      refine .bind (.withIn _) fun name => ?_
      refine .bind (.require _) fun _ => ?_
      exact .bind (.spanFrom _) fun span => ih _
    · refine .choice ?_ (.pure _)
      refine .bind (ignoresHead_arguments self) fun items => ?_
      exact .bind (.spanFrom _) fun span => ih _
    · exact .pure _

variable {self}

theorem ignoresHead_leftHandSide (nested : self.callee.IgnoresHead) (withCalls : Bool) :
    (leftHandSide self withCalls).IgnoresHead := by
  rw [leftHandSide]
  refine .bind .nodeStart fun start => ?_
  refine .bind (.sees _) fun constructed => ?_
  refine .either ?_ (ignoresHead_primary self) fun value => ignoresHead_suffixes self _ _ _ _
  rw [newExpression]
  refine .bind .nodeStart fun start => ?_
  refine .bind (.require _) fun _ => ?_
  refine .bind nested fun callee => ?_
  refine .bind (.sees _) fun called => ?_
  refine .either (ignoresHead_arguments self) (.pure _) fun items => ?_
  exact .bind (.spanFrom _) fun span => .pure _

theorem ignoresHead_callee (budget : Nat) : (Nonterminals.ofBudget budget).callee.IgnoresHead := by
  induction budget with
  | zero => exact .exhausted
  | succ budget ih => exact ignoresHead_leftHandSide ih false

/-- An operand with its property accesses and calls is read in the head of a `for` statement as it is
read where `in` is an operator. -/
theorem withoutIn_leftHandSide (budget : Nat) (withCalls : Bool) :
    withoutIn (leftHandSide (.ofBudget budget) withCalls) =
      withIn (leftHandSide (.ofBudget budget) withCalls) := by
  have ignores := ignoresHead_leftHandSide (ignoresHead_callee budget) withCalls
  funext state
  have inside := ignores true state
  have outside := ignores false state
  simp only [withoutIn, withIn, inContext, within]
  unfold State.inHead at inside outside
  rw [inside, outside]
  cases leftHandSide (.ofBudget budget) withCalls state <;> rfl

end Grammar

end EcmaScript
