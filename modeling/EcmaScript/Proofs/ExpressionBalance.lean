import EcmaScript.Grammar.Expression
import EcmaScript.Proofs.Balance

/-!
# How functions and expressions are put together

There is one lemma for each production of functions and expressions: it is balanced. The directives
at the beginning of a body are not, and they are the only part of the grammar that does not restore
its surroundings: each of them that is recognised may make the code strict, and a fault after it does
not take that back.
-/

namespace EcmaScript

/-- The constructs by which the grammar is recursive are balanced. -/
structure Nonterminals.IsBalanced (grammar : Nonterminals) : Prop where
  expression : grammar.expression.IsBalanced
  assignment : grammar.assignment.IsBalanced
  unary : grammar.unary.IsBalanced
  operators : ∀ start tier left, (grammar.operators start tier left).IsBalanced
  callee : grammar.callee.IsBalanced
  statement : grammar.statement.IsBalanced
  listItem : grammar.listItem.IsBalanced

/-- After some directives code is strict if it was, or if one of them says so. -/
theorem Scope.foldl_afterDirective (texts : List String) (scope : Scope) :
    texts.foldl Scope.afterDirective scope =
      { scope with context := { scope.context with
          strict := scope.context.strict || texts.contains "use strict" } } := by
  induction texts generalizing scope with
  | nil => simp
  | cons text texts ih =>
    rw [List.foldl_cons, ih, List.contains_cons]
    by_cases strict : text = "use strict"
    · simp [afterDirective, strict]
    · rw [afterDirective, if_neg strict, beq_false_of_ne (Ne.symm strict), Bool.false_or]

namespace Grammar

open Parse

section Directives

/-- The texts of the directives that are recognised from a state on, one after the other. What comes
after the last of them, be it a fault, does not matter. -/
def recognised (statement : Parse Statement) : Nat → State → List String
  | 0, _ => []
  | turns + 1, state =>
    match statement state with
    | .ok first after =>
      if state.lookahead.kind = .stringLiteral ∧ (directive? state.lookahead first).isSome then
        let text := insideQuotes state.lookahead.text
        text :: recognised statement turns
          (if text = "use strict" then stateAfter enableStrict after else after)
      else []
    | .error _ _ => []

variable {statement : Parse Statement}

/-- Where no string begins, there is no directive. -/
theorem recognised_of_ne {state : State} (plain : state.lookahead.kind ≠ .stringLiteral)
    (turns : Nat) : recognised statement turns state = [] := by
  cases turns with
  | zero => rfl
  | succ turns =>
    rw [recognised]
    split
    · exact if_neg fun found => plain found.1
    · rfl

/-- Directives change the surroundings as those of them say that are recognised. -/
theorem scope_directives (restores : statement.Restores) (turns : Nat) (state : State) :
    (stateAfter (directives statement turns) state).scope =
      (recognised statement turns state).foldl Scope.afterDirective state.scope := by
  induction turns generalizing state with
  | zero => rfl
  | succ turns ih =>
    rw [directives]
    change (stateAfter (if state.lookahead.kind != .stringLiteral then _ else _) state).scope = _
    split
    · rename_i plain
      rw [recognised_of_ne (by simpa using plain)]
      rfl
    · rename_i opens
      have string : state.lookahead.kind = .stringLiteral := by simpa using opens
      have same := restores state
      rw [stateAfter_bind, recognised]
      cases run : statement state with
      | error fault after =>
        rw [stateAfter, run] at same
        exact same
      | ok first after =>
        rw [stateAfter, run] at same
        dsimp only at same ⊢
        cases found : directive? state.lookahead first with
        | none =>
          rw [if_neg (by simp)]
          exact same
        | some directive =>
          rw [if_pos ⟨string, rfl⟩, List.foldl_cons, ← same]
          dsimp only
          by_cases strict : insideQuotes state.lookahead.text = "use strict"
          · rw [if_pos (by simpa using strict), stateAfter_enableStrict_bind, stateAfter_bind_pure,
              ih, if_pos strict, scope_enableStrict, strict]
          · rw [if_neg (by simpa using strict), stateAfter_bind_pure, ih, if_neg strict,
              Scope.afterDirective, if_neg strict]

theorem options_directives (restores : statement.Restores) (turns : Nat) :
    (directives statement turns).Keeps State.options := by
  intro state
  have same := congrArg Scope.options (scope_directives restores turns state)
  rw [Scope.foldl_afterDirective] at same
  exact same

/-- Directives are composed as all actions of the grammar are. -/
theorem isComposed_directives (composed : statement.IsComposed) (turns : Nat) :
    (directives statement turns).IsComposed := by
  induction turns with
  | zero => exact IsBalanced.exhausted.isComposed
  | succ turns ih =>
    rw [directives]
    refine .bind .lookahead fun opening => ?_
    refine .choice (.pure _) ?_
    refine .bind composed fun first => ?_
    split
    · refine .choice ?_ ?_
      · refine .bind .enableStrict fun _ => ?_
        exact .bind ih fun others => .pure _
      · exact .bind ih fun others => .pure _
    · exact .pure _

end Directives

variable {self : Nonterminals}

theorem isBalanced_statementList (nested : self.IsBalanced) : (statementList self).IsBalanced :=
  .itemsUntil _ nested.listItem _

theorem isBalanced_formalParameters : (formalParameters self).IsBalanced := by
  rw [formalParameters]
  refine .bind (.require _) fun _ => ?_
  refine .bind (.sees _) fun empty => ?_
  refine .either (.pure _) (.separated .bindingIdentifier _) fun parameters => ?_
  exact .bind (.require _) fun _ => .pure _

theorem isBalanced_functionBody (nested : self.IsBalanced) : (functionBody self).IsBalanced := by
  rw [functionBody]
  refine .bind .nodeStart fun start => ?_
  refine .bind (.require _) fun _ => ?_
  have composed := isComposed_directives nested.statement.isComposed self.turns
  have keeps := options_directives nested.statement.restores self.turns
  refine .bind (.body composed keeps fun opening => ?_) fun body => ?_
  · refine .bind (isBalanced_statementList nested) fun others => ?_
    exact .bind (.require _) fun _ => .pure _
  · exact .bind (.spanFrom _) fun span => .pure _

theorem isBalanced_functionExpression (nested : self.IsBalanced) :
    (functionExpression self).IsBalanced := by
  rw [functionExpression]
  refine .bind .nodeStart fun start => ?_
  refine .bind (.require _) fun _ => ?_
  refine .bind (.sees _) fun named => ?_
  refine .either (.map .bindingIdentifier) (.pure _) fun name => ?_
  refine .bind isBalanced_formalParameters fun parameters => ?_
  refine .bind (isBalanced_functionBody nested) fun body => ?_
  exact .bind (.spanFrom _) fun span => .pure _

theorem isBalanced_functionDeclaration (nested : self.IsBalanced) :
    (functionDeclaration self).IsBalanced := by
  rw [functionDeclaration]
  refine .bind .nodeStart fun start => ?_
  refine .bind (.require _) fun _ => ?_
  refine .bind .bindingIdentifier fun name => ?_
  refine .bind isBalanced_formalParameters fun parameters => ?_
  refine .bind (isBalanced_functionBody nested) fun body => ?_
  exact .bind (.spanFrom _) fun span => .pure _

theorem isBalanced_literalToken : literalToken.IsBalanced := by
  rw [literalToken]
  refine .bind .lookahead fun token => ?_
  refine .bind .consume fun _ => ?_
  refine .bind .isStrict fun strict => ?_
  exact .forbid (by rintro ⟨⟩) (.pure _)

theorem isBalanced_literal (value : Literal) : (literal value).IsBalanced := by
  rw [literal]
  exact .bind isBalanced_literalToken fun token => .pure _

theorem isBalanced_regularExpression (front : List Char) :
    (regularExpression front).IsBalanced := by
  rw [regularExpression]
  refine .bind (.reread _) fun _ => ?_
  refine .bind .lookahead fun token => ?_
  split
  · exact isBalanced_literal _
  · exact .unexpected

theorem isBalanced_checkTarget (target : Expression) : (checkTarget target).IsBalanced := by
  rw [checkTarget]
  refine .bind .isStrict fun strict => ?_
  exact .choice (.fail (by rintro ⟨⟩) _) (.pure _)

theorem isBalanced_arguments (nested : self.IsBalanced) : (arguments self).IsBalanced := by
  rw [arguments]
  refine .bind (.require _) fun _ => .withIn ?_
  refine .bind (.sees _) fun empty => ?_
  refine .either (.pure _) (.separated nested.assignment _) fun items => ?_
  exact .bind (.require _) fun _ => .pure _

theorem isBalanced_parenthesized (nested : self.IsBalanced) : (parenthesized self).IsBalanced := by
  rw [parenthesized]
  refine .bind (.require _) fun _ => ?_
  refine .bind (.withIn nested.expression) fun expression => ?_
  exact .bind (.require _) fun _ => .pure _

theorem isBalanced_itemWithComma {α : Type} {item : Parse α} (balanced : item.IsBalanced)
    (closing : Punctuator) : (itemWithComma closing item).IsBalanced := by
  rw [itemWithComma]
  refine .bind balanced fun value => ?_
  refine .bind (.sees _) fun ended => ?_
  exact .choice (.pure _) (.bind (.require _) fun _ => .pure _)

theorem isBalanced_element (nested : self.IsBalanced) : (element self).IsBalanced := by
  rw [element]
  refine .bind (.consumeIf _) fun hole => ?_
  exact .choice (.pure _) (.map (isBalanced_itemWithComma nested.assignment _))

theorem isBalanced_arrayLiteral (nested : self.IsBalanced) : (arrayLiteral self).IsBalanced := by
  rw [arrayLiteral]
  refine .bind .nodeStart fun start => ?_
  refine .bind (.require _) fun _ => ?_
  refine .bind (.withIn (.itemsUntil _ (isBalanced_element nested) _)) fun elements => ?_
  refine .bind (.require _) fun _ => ?_
  exact .bind (.spanFrom _) fun span => .pure _

theorem isBalanced_literalKey (value : Literal) : (literalKey value).IsBalanced := by
  rw [literalKey]
  exact .bind isBalanced_literalToken fun token => .pure _

theorem isBalanced_propertyKey : propertyKey.IsBalanced := by
  rw [propertyKey]
  refine .bind .lookahead fun token => ?_
  split
  · exact isBalanced_literalKey _
  · exact isBalanced_literalKey _
  · exact .map .identifierName

theorem isBalanced_checkAccessor (kind : PropertyKind) (parameters : List Identifier)
    (position : Position) :
    (checkAccessor kind parameters position).IsBalanced := by
  unfold checkAccessor
  split
  · exact .fail (by rintro ⟨⟩) _
  · exact .pure _
  · exact .fail (by rintro ⟨⟩) _
  · exact .pure _

theorem isBalanced_accessorFunction (nested : self.IsBalanced) (kind : PropertyKind) :
    (accessorFunction self kind).IsBalanced := by
  rw [accessorFunction]
  refine .bind .nodeStart fun start => ?_
  refine .bind isBalanced_formalParameters fun parameters => ?_
  refine .bind (isBalanced_checkAccessor _ _ _) fun _ => ?_
  refine .bind (isBalanced_functionBody nested) fun body => ?_
  exact .bind (.spanFrom _) fun span => .pure _

theorem isBalanced_propertyValue (nested : self.IsBalanced) (start : Position) (key : PropertyKey) :
    (propertyValue self start key).IsBalanced := by
  rw [propertyValue]
  refine .bind (.require _) fun _ => ?_
  refine .bind nested.assignment fun value => ?_
  exact .bind (.spanFrom _) fun span => .pure _

theorem isBalanced_property (nested : self.IsBalanced) : (property self).IsBalanced := by
  rw [property]
  refine .bind .lookahead fun opening => ?_
  dsimp only
  split
  · refine .bind .consume fun _ => ?_
    refine .bind .kind fun next => ?_
    refine .choice ?_ (isBalanced_propertyValue nested _ _)
    refine .bind isBalanced_propertyKey fun key => ?_
    refine .bind (isBalanced_accessorFunction nested _) fun value => ?_
    exact .bind (.spanFrom _) fun span => .pure _
  · exact .bind isBalanced_propertyKey fun key => isBalanced_propertyValue nested _ _

theorem isBalanced_objectLiteral (nested : self.IsBalanced) : (objectLiteral self).IsBalanced := by
  rw [objectLiteral]
  refine .bind .nodeStart fun start => ?_
  refine .bind (.require _) fun _ => ?_
  refine .bind (.withIn (.itemsUntil _ (isBalanced_itemWithComma (isBalanced_property nested) _) _))
    fun properties => ?_
  refine .bind (.require _) fun _ => ?_
  exact .bind (.spanFrom _) fun span => .pure _

theorem isBalanced_primary (nested : self.IsBalanced) : (primary self).IsBalanced := by
  rw [primary]
  refine .bind .lookahead fun token => ?_
  split
  · exact .bind .consume fun _ => .pure _
  · exact .map .identifierReference
  · exact isBalanced_parenthesized nested
  · exact isBalanced_arrayLiteral nested
  · exact isBalanced_objectLiteral nested
  · exact isBalanced_functionExpression nested
  · split
    · exact isBalanced_regularExpression _
    · exact isBalanced_literal _
    · exact .unexpected

theorem isBalanced_newExpression (nested : self.IsBalanced) : (newExpression self).IsBalanced := by
  rw [newExpression]
  refine .bind .nodeStart fun start => ?_
  refine .bind (.require _) fun _ => ?_
  refine .bind nested.callee fun callee => ?_
  refine .bind (.sees _) fun called => ?_
  refine .either (isBalanced_arguments nested) (.pure _) fun items => ?_
  exact .bind (.spanFrom _) fun span => .pure _

theorem isBalanced_suffixes (nested : self.IsBalanced) (withCalls : Bool)
    (start : Position) (turns : Nat) (value : Expression) :
    (suffixes self withCalls start turns value).IsBalanced := by
  induction turns generalizing value with
  | zero => exact .exhausted
  | succ turns ih =>
    rw [suffixes]
    refine .bind .lookahead fun token => ?_
    split
    · refine .bind .consume fun _ => ?_
      refine .bind .identifierName fun name => ?_
      exact .bind (.spanFrom _) fun span => ih _
    · refine .bind .consume fun _ => ?_
      refine .bind (.withIn nested.expression) fun name => ?_
      refine .bind (.require _) fun _ => ?_
      exact .bind (.spanFrom _) fun span => ih _
    · refine .choice ?_ (.pure _)
      refine .bind (isBalanced_arguments nested) fun items => ?_
      exact .bind (.spanFrom _) fun span => ih _
    · exact .pure _

theorem isBalanced_leftHandSide (nested : self.IsBalanced) (withCalls : Bool) :
    (leftHandSide self withCalls).IsBalanced := by
  rw [leftHandSide]
  refine .bind .nodeStart fun start => ?_
  refine .bind (.sees _) fun constructed => ?_
  refine .either (isBalanced_newExpression nested) (isBalanced_primary nested) fun value => ?_
  exact isBalanced_suffixes nested _ _ _ _

theorem isBalanced_update (nested : self.IsBalanced) : (update self).IsBalanced := by
  rw [update]
  refine .bind .nodeStart fun start => ?_
  refine .bind .kind fun kind => ?_
  split
  · refine .bind .consume fun _ => ?_
    refine .bind nested.unary fun target => ?_
    refine .need (by rintro ⟨⟩) ?_
    refine .bind (isBalanced_checkTarget _) fun _ => ?_
    exact .bind (.spanFrom _) fun span => .pure _
  · refine .bind (isBalanced_leftHandSide nested _) fun target => ?_
    refine .bind .lookahead fun token => ?_
    split
    · refine .need (by rintro ⟨⟩) ?_
      refine .bind (isBalanced_checkTarget _) fun _ => ?_
      refine .bind .consume fun _ => ?_
      exact .bind (.spanFrom _) fun span => .pure _
    · exact .pure _

theorem isBalanced_checkDelete (operator : UnaryOperator) (argument : Expression)
    (start : Position) :
    (checkDelete operator argument start).IsBalanced := by
  rw [checkDelete]
  refine .bind .isStrict fun strict => ?_
  exact .choice (.fail (by rintro ⟨⟩) _) (.pure _)

theorem isBalanced_unary (nested : self.IsBalanced) : (unary self).IsBalanced := by
  rw [unary]
  refine .bind .nodeStart fun start => ?_
  refine .bind .kind fun kind => ?_
  split
  · refine .bind .consume fun _ => ?_
    refine .bind nested.unary fun argument => ?_
    refine .bind (isBalanced_checkDelete _ _ _) fun _ => ?_
    exact .bind (.spanFrom _) fun span => .pure _
  · exact isBalanced_update nested

theorem isBalanced_binaryOperator : binaryOperator?.IsBalanced := by
  rw [binaryOperator?]
  refine .bind .kind fun kind => ?_
  refine .bind .get fun state => ?_
  exact .choice (.pure _) (.pure _)

theorem isBalanced_rightOperand (nested : self.IsBalanced) (start : Position)
    (tier turns : Nat) (right : Expression) :
    (rightOperand self start tier turns right).IsBalanced := by
  induction turns generalizing right with
  | zero => exact .exhausted
  | succ turns ih =>
    rw [rightOperand]
    refine .bind isBalanced_binaryOperator fun next => ?_
    split
    · exact .pure _
    · refine .choice ?_ (.choice ?_ (.pure _))
      · exact .bind (nested.operators _ _ _) fun value => ih _
      · exact .bind (nested.operators _ _ _) fun value => ih _

theorem isBalanced_operators (nested : self.IsBalanced) (start : Position)
    (tier turns : Nat) (left : Expression) :
    (operators self start tier turns left).IsBalanced := by
  induction turns generalizing left with
  | zero => exact .exhausted
  | succ turns ih =>
    rw [operators]
    refine .bind isBalanced_binaryOperator fun operator => ?_
    split
    · exact .pure _
    · refine .choice (.pure _) ?_
      refine .bind .consume fun _ => ?_
      refine .bind .nodeStart fun rightStart => ?_
      refine .bind nested.unary fun operand => ?_
      refine .bind (isBalanced_rightOperand nested _ _ _ _) fun right => ?_
      exact .bind (.spanFrom _) fun span =>
        ih _

theorem isBalanced_binary (nested : self.IsBalanced) : (binary self).IsBalanced := by
  rw [binary]
  refine .bind .nodeStart fun start => ?_
  refine .bind (isBalanced_unary nested) fun left => ?_
  exact isBalanced_operators nested _ _ _ _

theorem isBalanced_assignment (nested : self.IsBalanced) : (assignment self).IsBalanced := by
  rw [assignment]
  refine .bind .nodeStart fun start => ?_
  refine .bind (isBalanced_binary nested) fun value => ?_
  refine .bind .kind fun kind => ?_
  split
  · refine .need (by rintro ⟨⟩) ?_
    refine .bind (isBalanced_checkTarget _) fun _ => ?_
    refine .bind .consume fun _ => ?_
    refine .bind nested.assignment fun right => ?_
    exact .bind (.spanFrom _) fun span => .pure _
  · refine .bind (.consumeIf _) fun conditional => ?_
    refine .choice ?_ (.pure _)
    refine .bind (.withIn nested.assignment) fun consequent => ?_
    refine .bind (.require _) fun _ => ?_
    refine .bind nested.assignment fun alternate => ?_
    exact .bind (.spanFrom _) fun span => .pure _

theorem isBalanced_expression (nested : self.IsBalanced) : (expression self).IsBalanced := by
  rw [expression]
  refine .bind .nodeStart fun start => ?_
  refine .bind (isBalanced_assignment nested) fun first => ?_
  refine .bind (.consumeIf _) fun more => ?_
  refine .choice ?_ (.pure _)
  refine .bind (.separated nested.assignment _) fun others => ?_
  exact .bind (.spanFrom _) fun span => .pure _

end Grammar

end EcmaScript
