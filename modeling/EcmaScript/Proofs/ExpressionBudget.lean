import EcmaScript.Proofs.ExpressionSoundness
import EcmaScript.Proofs.Settling

/-!
# Expressions settle within the budget

Each construct that is nested in another begins after a token has been consumed, when fewer
characters lie ahead than the budget that is left for it.
-/

namespace EcmaScript

open Parse

/-- The constructs by which the grammar is recursive settle where fewer characters lie ahead than
there are turns. Operators come forward if there is one to go on with. -/
structure Nonterminals.Settles (grammar : Nonterminals) (budget : Nat) : Prop where
  turns : grammar.turns = budget
  expression : ∀ {state}, state.ahead < budget → grammar.expression.Settles state 1
  assignment : ∀ {state}, state.ahead < budget → grammar.assignment.Settles state 1
  unary : ∀ {state}, state.ahead < budget → grammar.unary.Settles state 1
  operators : ∀ {state start tier left operator}, state.ahead + 1 < budget →
    state.operator? = some operator → tier ≤ operator.precedence →
    (grammar.operators start tier left).Settles state 1
  callee : ∀ {state}, state.ahead < budget → grammar.callee.Settles state 1
  statement : ∀ {state}, state.ahead < budget → grammar.statement.Settles state 1
  listItem : ∀ {state}, state.ahead < budget → grammar.listItem.Settles state 1

namespace Parse.Settles

variable {state : State}

theorem identifierReference : Parse.identifierReference.Settles state 1 := by
  rw [Parse.identifierReference, settles_lookahead]
  split
  · rename_i name found
    apply consumes (by simp [found])
    intro next _
    rw [settles_isStrict]
    split
    · exact .fail_bind (by rintro ⟨⟩)
    · exact .pure _
  · exact .unexpected

theorem bindingIdentifier : Parse.bindingIdentifier.Settles state 1 := by
  rw [Parse.bindingIdentifier]
  apply identifierReference.bind
  intro name next _
  rw [settles_isStrict]
  split
  · exact .fail_bind (by rintro ⟨⟩)
  · exact .pure _

theorem identifierName : Parse.identifierName.Settles state 1 := by
  rw [Parse.identifierName, settles_lookahead]
  split
  · rename_i isName
    apply consumes
    · intro ended
      simp [Token.kind, ended, Lexeme.kind, Kind.isIdentifierName, Kind.isReservedWord] at isName
    · intro next _
      exact .pure _
  · exact .unexpected

end Parse.Settles

namespace Grammar

open Parse

variable {self : Nonterminals} {budget : Nat} {state : State}

theorem settles_formalParameters (nested : self.Settles budget) (enough : state.ahead ≤ budget) :
    (formalParameters self).Settles state 1 := by
  rw [formalParameters]
  apply Settles.require
  intro next behind
  rw [settles_sees]
  dsimp only
  split
  · rw [pure_bind]
    apply Settles.require
    intro last _
    exact .pure _
  · have names : (separated bindingIdentifier self.turns).Settles next 1 :=
      .separated (fun _ _ => .bindingIdentifier) (by rw [nested.turns]; omega)
    apply names.bind
    intro names last _
    apply Settles.require
    intro after _
    exact .pure _

theorem settles_directives {statement : Parse Statement} {turns : Nat}
    (each : ∀ next : State, next.ahead ≤ state.ahead → statement.Settles next 1)
    (enough : state.ahead < turns) : (directives statement turns).Settles state 0 := by
  induction turns generalizing state with
  | zero => exact absurd enough (Nat.not_lt_zero _)
  | succ turns ih =>
    rw [directives, settles_lookahead]
    split
    · exact .pure _
    · apply (each state (Nat.le_refl _)).bind
      intro first next behind
      have others : (directives statement turns).Settles next 0 :=
        ih (fun last further => each last (by omega)) (by omega)
      split
      · rename_i value span _
        have rest : ∀ next : State, next.ahead + 1 ≤ state.ahead →
            (directives statement turns >>= fun others =>
              pure (.expression value (some (insideQuotes state.lookahead.text)) span ::
                others)).Settles next 0 := by
          intro next behind
          refine (ih (fun last further => each last (by omega)) (by omega)).bind ?_
          intro others last _
          exact .pure _
        dsimp only
        split
        · apply Settles.enableStrict.bind
          intro _ last same
          exact rest last (by omega)
        · exact rest next behind
      · exact .pure _

theorem settles_statementList (nested : self.Settles budget) (enough : state.ahead < budget) :
    (statementList self).Settles state 0 :=
  .itemsUntil (fun _ _ => nested.listItem (by omega)) (by rwa [nested.turns])

theorem settles_functionBody (nested : self.Settles budget) (enough : state.ahead ≤ budget) :
    (functionBody self).Settles state 1 := by
  rw [functionBody, settles_nodeStart]
  apply Settles.require
  intro next behind
  have inside : ∀ inner : State, inner.ahead = next.ahead →
      (do
        let opening ← directives self.statement self.turns
        let others ← statementList self
        require Punctuator.rightBrace
        return opening ++ others : Parse (List Statement)).Settles inner 0 := by
    intro inner same
    refine (settles_directives (fun _ _ => nested.statement (by omega))
      (by rw [nested.turns]; omega)).bind ?_
    intro opening after _
    apply (settles_statementList nested (by omega)).bind
    intro others last _
    apply Settles.require
    intro _ _
    exact .pure _
  apply (Settles.inFunction inside).bind
  intro body last _
  rw [settles_spanFrom]
  exact .pure _

theorem settles_functionExpression (nested : self.Settles budget)
    (enough : state.ahead ≤ budget) : (functionExpression self).Settles state 1 := by
  rw [functionExpression, settles_nodeStart]
  apply Settles.require
  intro next behind
  have rest : ∀ (name : Option Identifier) (next : State), next.ahead + 1 ≤ state.ahead →
      (do
        let parameters ← formalParameters self
        let body ← functionBody self
        return Expression.function name parameters body
          (← spanFrom state.lookahead.span.start) : Parse Expression).Settles next 0 := by
    intro name next behind
    apply (settles_formalParameters nested (by omega)).bind
    intro parameters after _
    apply (settles_functionBody nested (by omega)).bind
    intro body last _
    rw [settles_spanFrom]
    exact .pure _
  rw [settles_sees]
  dsimp only
  split
  · rw [bind_map_left]
    apply Settles.bindingIdentifier.bind
    intro name after _
    exact rest (some name) after (by omega)
  · rw [pure_bind]
    exact rest none next behind

theorem settles_functionDeclaration (nested : self.Settles budget)
    (enough : state.ahead ≤ budget) : (functionDeclaration self).Settles state 1 := by
  rw [functionDeclaration, settles_nodeStart]
  apply Settles.require
  intro next behind
  apply Settles.bindingIdentifier.bind
  intro name after _
  apply (settles_formalParameters nested (by omega)).bind
  intro parameters inner _
  apply (settles_functionBody nested (by omega)).bind
  intro body last _
  rw [settles_spanFrom]
  exact .pure _

theorem settles_literalToken (inside : state.lookahead.lexeme ≠ .endOfFile) :
    literalToken.Settles state 1 := by
  rw [literalToken, settles_lookahead]
  apply Settles.consumes inside
  intro next _
  rw [settles_isStrict]
  split
  · exact .fail_bind (by rintro ⟨⟩)
  · exact .pure _

theorem settles_literal {value : Literal} (inside : state.lookahead.lexeme ≠ .endOfFile) :
    (literal value).Settles state 1 := by
  rw [literal]
  apply (settles_literalToken inside).bind
  intro _ next _
  exact .pure _

theorem settles_regularExpression {front : List Char}
    (slash : Scan.slash? state.lookahead.lexeme = some front) :
    (regularExpression front).Settles state 1 := by
  rw [regularExpression]
  apply (Settles.reread slash).bind
  intro _ next _
  rw [settles_lookahead]
  split
  · rename_i found
    refine settles_literal ?_
    intro ended
    simp [ended, Lexeme.literal?] at found
  · exact .unexpected

/-- To check a target reads nothing. -/
theorem settles_checkTarget {α : Type} {target : Expression} {rest : Unit → Parse α} {least : Nat}
    (settles : (rest ()).Settles state least) :
    (checkTarget target >>= rest).Settles state least := by
  rw [checkTarget, bind_assoc, settles_isStrict]
  split
  · exact .fail_bind (by rintro ⟨⟩)
  · rwa [pure_bind]

theorem settles_arguments (nested : self.Settles budget) (enough : state.ahead ≤ budget) :
    (arguments self).Settles state 1 := by
  rw [arguments]
  apply Settles.require
  intro next behind
  apply Settles.inContext
  intro inside same
  rw [settles_sees]
  dsimp only
  split
  · rw [pure_bind]
    apply Settles.require
    intro last _
    exact .pure _
  · have items : (separated self.assignment self.turns).Settles inside 1 :=
      .separated (fun _ _ => nested.assignment (by omega)) (by rw [nested.turns]; omega)
    apply items.bind
    intro items after _
    apply Settles.require
    intro last _
    exact .pure _

theorem settles_parenthesized (nested : self.Settles budget) (enough : state.ahead ≤ budget) :
    (parenthesized self).Settles state 1 := by
  rw [parenthesized]
  apply Settles.require
  intro next behind
  have inner : (withIn self.expression).Settles next 1 :=
    .inContext fun _ _ => nested.expression (by omega)
  apply inner.bind
  intro value after _
  apply Settles.require
  intro last _
  exact .pure _

theorem settles_itemWithComma {α : Type} {closing : Punctuator} {item : Parse α}
    (settles : item.Settles state 1) : (itemWithComma closing item).Settles state 1 := by
  rw [itemWithComma]
  apply settles.bind
  intro value next _
  rw [settles_sees]
  dsimp only
  split
  · exact .pure _
  · apply Settles.require
    intro last _
    exact .pure _

theorem settles_element (nested : self.Settles budget) (enough : state.ahead < budget) :
    (element self).Settles state 1 := by
  rw [element]
  apply Settles.consumeIf
  · intro next _
    exact .pure _
  · exact .map (settles_itemWithComma (nested.assignment enough))

theorem settles_arrayLiteral (nested : self.Settles budget) (enough : state.ahead ≤ budget) :
    (arrayLiteral self).Settles state 1 := by
  rw [arrayLiteral, settles_nodeStart]
  apply Settles.require
  intro next behind
  have elements : (withIn (itemsUntil (· == .symbol Punctuator.rightBracket) (element self)
      self.turns)).Settles next 0 := by
    apply Settles.inContext
    intro inside same
    exact .itemsUntil (fun _ _ => settles_element nested (by omega)) (by rw [nested.turns]; omega)
  apply elements.bind
  intro elements after _
  apply Settles.require
  intro last _
  rw [settles_spanFrom]
  exact .pure _

theorem settles_literalKey {value : Literal} (inside : state.lookahead.lexeme ≠ .endOfFile) :
    (literalKey value).Settles state 1 := by
  rw [literalKey]
  apply (settles_literalToken inside).bind
  intro _ next _
  exact .pure _

theorem settles_propertyKey : propertyKey.Settles state 1 := by
  rw [propertyKey, settles_lookahead]
  split
  · rename_i found
    exact settles_literalKey (by simp [found])
  · rename_i found
    exact settles_literalKey (by simp [found])
  · exact .map .identifierName

theorem settles_checkAccessor (kind : PropertyKind) (parameters : List Identifier)
    (position : Position) : (checkAccessor kind parameters position).Settles state 0 := by
  unfold checkAccessor
  split
  · exact .fail (by rintro ⟨⟩)
  · exact .pure _
  · exact .fail (by rintro ⟨⟩)
  · exact .pure _

theorem settles_accessorFunction (nested : self.Settles budget) (kind : PropertyKind)
    (enough : state.ahead ≤ budget) : (accessorFunction self kind).Settles state 1 := by
  rw [accessorFunction, settles_nodeStart]
  apply (settles_formalParameters nested enough).bind
  intro parameters next _
  apply (settles_checkAccessor _ _ _).bind
  intro _ after _
  apply (settles_functionBody nested (by omega)).bind
  intro body last _
  rw [settles_spanFrom]
  exact .pure _

theorem settles_propertyValue (nested : self.Settles budget) (start : Position) (key : PropertyKey)
    (enough : state.ahead ≤ budget) : (propertyValue self start key).Settles state 1 := by
  rw [propertyValue]
  apply Settles.require
  intro next _
  apply (nested.assignment (by omega)).bind
  intro value last _
  rw [settles_spanFrom]
  exact .pure _

theorem settles_property (nested : self.Settles budget) (enough : state.ahead ≤ budget) :
    (property self).Settles state 1 := by
  rw [property, settles_lookahead]
  dsimp only
  split
  · rename_i found
    apply Settles.consumes (by intro ended; simp [ended, accessorKind?] at found)
    intro next _
    rw [settles_kind]
    split
    · apply settles_propertyKey.bind
      intro key after _
      apply (settles_accessorFunction nested _ (by omega)).bind
      intro value last _
      rw [settles_spanFrom]
      exact .pure _
    · exact (settles_propertyValue nested _ _ (by omega)).mono (Nat.zero_le 1)
  · apply settles_propertyKey.bind
    intro key next _
    exact (settles_propertyValue nested _ _ (by omega)).mono (Nat.zero_le 1)

theorem settles_objectLiteral (nested : self.Settles budget) (enough : state.ahead ≤ budget) :
    (objectLiteral self).Settles state 1 := by
  rw [objectLiteral, settles_nodeStart]
  apply Settles.require
  intro next behind
  have properties : (withIn (itemsUntil (· == .symbol Punctuator.rightBrace)
      (itemWithComma .rightBrace (property self)) self.turns)).Settles next 0 := by
    apply Settles.inContext
    intro inside same
    exact .itemsUntil (fun _ _ => settles_itemWithComma (settles_property nested (by omega)))
      (by rw [nested.turns]; omega)
  apply properties.bind
  intro properties after _
  apply Settles.require
  intro last _
  rw [settles_spanFrom]
  exact .pure _

theorem settles_primary (nested : self.Settles budget) (enough : state.ahead ≤ budget) :
    (primary self).Settles state 1 := by
  rw [primary, settles_lookahead]
  split
  · rename_i found
    apply Settles.consumes (by simp [found])
    intro next _
    exact .pure _
  · exact .map .identifierReference
  · exact settles_parenthesized nested enough
  · exact settles_arrayLiteral nested enough
  · exact settles_objectLiteral nested enough
  · exact settles_functionExpression nested enough
  · split
    · rename_i slash
      exact settles_regularExpression slash
    · rename_i found
      refine settles_literal ?_
      intro ended
      simp [ended, Lexeme.literal?] at found
    · exact .unexpected

theorem settles_newExpression (nested : self.Settles budget) (enough : state.ahead ≤ budget) :
    (newExpression self).Settles state 1 := by
  rw [newExpression, settles_nodeStart]
  apply Settles.require
  intro next _
  apply (nested.callee (by omega)).bind
  intro callee after _
  rw [settles_sees]
  dsimp only
  split
  · apply (settles_arguments nested (by omega)).bind
    intro items last _
    rw [settles_spanFrom]
    exact .pure _
  · rw [pure_bind, settles_spanFrom]
    exact .pure _

theorem settles_suffixes (nested : self.Settles budget) {withCalls : Bool} {start : Position}
    {turns : Nat} {value : Expression} (enough : state.ahead ≤ budget)
    (bound : state.ahead < turns) :
    (suffixes self withCalls start turns value).Settles state 0 := by
  induction turns generalizing state value with
  | zero => exact absurd bound (Nat.not_lt_zero _)
  | succ turns ih =>
    rw [suffixes, settles_lookahead]
    split
    · rename_i found
      apply Settles.consumes (by simp [found])
      intro next _
      apply Settles.identifierName.bind
      intro name last _
      rw [settles_spanFrom]
      exact ih (by omega) (by omega)
    · rename_i found
      apply Settles.consumes (by simp [found])
      intro next _
      have inner : (withIn self.expression).Settles next 1 :=
        .inContext fun _ _ => nested.expression (by omega)
      apply inner.bind
      intro name after _
      apply Settles.require
      intro last _
      rw [settles_spanFrom]
      exact ih (by omega) (by omega)
    · split
      · apply (settles_arguments nested enough).bind
        intro items last _
        rw [settles_spanFrom]
        exact ih (by omega) (by omega)
      · exact .pure _
    · exact .pure _

theorem settles_leftHandSide (nested : self.Settles budget) {withCalls : Bool}
    (enough : state.ahead ≤ budget) : (leftHandSide self withCalls).Settles state 1 := by
  rw [leftHandSide, settles_nodeStart, settles_sees]
  have continued : ∀ {head : Parse Expression}, head.Settles state 1 →
      (head >>= suffixes self withCalls state.lookahead.span.start self.turns).Settles state
        1 := by
    intro head settles
    apply settles.bind
    intro value next _
    exact settles_suffixes nested (by omega) (by rw [nested.turns]; omega)
  dsimp only
  split
  · exact continued (settles_newExpression nested enough)
  · exact continued (settles_primary nested enough)

theorem settles_update (nested : self.Settles budget) (enough : state.ahead ≤ budget) :
    (update self).Settles state 1 := by
  rw [update, settles_nodeStart, settles_kind]
  split
  · rename_i found
    apply Settles.consumes (Alignment.lexeme_ne_endOfFile_of_view rfl found)
    intro next _
    apply (nested.unary (by omega)).bind
    intro target last _
    dsimp only
    split
    · apply settles_checkTarget
      rw [settles_spanFrom]
      exact .pure _
    · exact .fail_bind (by rintro ⟨⟩)
  · apply (settles_leftHandSide nested enough).bind
    intro target next _
    rw [settles_lookahead]
    split
    · rename_i found _
      dsimp only
      split
      · apply settles_checkTarget
        apply Settles.consumes (Alignment.lexeme_ne_endOfFile_of_view rfl found)
        intro last _
        rw [settles_spanFrom]
        exact .pure _
      · exact .fail_bind (by rintro ⟨⟩)
    · exact .pure _

theorem settles_checkDelete (operator : UnaryOperator) (argument : Expression) (start : Position) :
    (checkDelete operator argument start).Settles state 0 := by
  rw [checkDelete, settles_isStrict]
  split
  · exact .fail (by rintro ⟨⟩)
  · exact .pure _

theorem settles_unary (nested : self.Settles budget) (enough : state.ahead ≤ budget) :
    (unary self).Settles state 1 := by
  rw [unary, settles_nodeStart, settles_kind]
  split
  · rename_i found
    apply Settles.consumes (Alignment.lexeme_ne_endOfFile_of_view rfl found)
    intro next _
    apply (nested.unary (by omega)).bind
    intro argument after _
    apply (settles_checkDelete _ _ _).bind
    intro _ last _
    rw [settles_spanFrom]
    exact .pure _
  · exact settles_update nested enough

theorem settles_binaryOperator? {α : Type} {rest : Option BinaryOperator → Parse α} {least : Nat}
    (settles : (rest state.operator?).Settles state least) :
    (binaryOperator? >>= rest).Settles state least :=
  settles_of_eq (binaryOperator?_bind state) settles

theorem settles_rightOperand (nested : self.Settles budget) {start : Position} {tier turns : Nat}
    {right : Expression} (enough : state.ahead + 1 < budget) (bound : state.ahead < turns) :
    (rightOperand self start tier turns right).Settles state 0 := by
  induction turns generalizing state right with
  | zero => exact absurd bound (Nat.not_lt_zero _)
  | succ turns ih =>
    rw [rightOperand]
    apply settles_binaryOperator?
    split
    · exact .pure _
    · rename_i next found
      split
      · rename_i higher
        apply (nested.operators enough found higher).bind
        intro value last _
        exact ih (by omega) (by omega)
      · split
        · rename_i equal
          apply (nested.operators enough found (Nat.le_of_eq equal.1)).bind
          intro value last _
          exact ih (by omega) (by omega)
        · exact .pure _

/-- An operator of the tier or a higher one is consumed with its right operand. -/
theorem settles_operation (nested : self.Settles budget) {start : Position} {tier turns : Nat}
    {left : Expression} {operator : BinaryOperator} (enough : state.ahead ≤ budget)
    (found : state.operator? = some operator)
    (others : ∀ {next : State} {left : Expression}, next.ahead + 2 ≤ state.ahead →
      (operators self start tier turns left).Settles next 0) :
    (do
      consume
      let rightStart ← nodeStart
      let operand ← self.unary
      let right ← rightOperand self rightStart operator.precedence self.turns operand
      operators self start tier turns (.binary operator left right (← spanFrom start)) :
      Parse Expression).Settles state 1 := by
  have inside : state.lookahead.lexeme ≠ .endOfFile := by
    intro ended
    rw [State.operator?, Token.kind, ended] at found
    simp [Lexeme.kind, Kind.binaryOperator?] at found
  apply Settles.consumes inside
  intro next _
  rw [settles_nodeStart]
  apply (nested.unary (by omega)).bind
  intro operand after _
  apply (settles_rightOperand nested (by omega) (by rw [nested.turns]; omega)).bind
  intro right last _
  rw [settles_spanFrom]
  exact others (by omega)

theorem settles_operators (nested : self.Settles budget) {start : Position} {tier turns : Nat}
    {left : Expression} (enough : state.ahead ≤ budget) (bound : state.ahead < turns) :
    (operators self start tier turns left).Settles state 0 := by
  induction turns generalizing state left with
  | zero => exact absurd bound (Nat.not_lt_zero _)
  | succ turns ih =>
    rw [operators]
    apply settles_binaryOperator?
    split
    · exact .pure _
    · rename_i operator found
      split
      · exact .pure _
      · refine (settles_operation nested enough found ?_).mono (Nat.zero_le 1)
        intro next left behind
        exact ih (by omega) (by omega)

/-- Operators come forward where there is one to go on with. -/
theorem settles_operators_of_operator (nested : self.Settles budget) {start : Position}
    {tier turns : Nat} {left : Expression} {operator : BinaryOperator}
    (enough : state.ahead ≤ budget) (bound : state.ahead < turns)
    (found : state.operator? = some operator) (higher : tier ≤ operator.precedence) :
    (operators self start tier turns left).Settles state 1 := by
  cases turns with
  | zero => exact absurd bound (Nat.not_lt_zero _)
  | succ turns =>
    rw [operators]
    apply settles_binaryOperator?
    rw [found]
    dsimp only
    rw [if_neg (Nat.not_lt.mpr higher)]
    apply settles_operation nested enough found
    intro next left behind
    exact settles_operators nested (by omega) (by omega)

theorem settles_binary (nested : self.Settles budget) (enough : state.ahead ≤ budget) :
    (binary self).Settles state 1 := by
  rw [binary, settles_nodeStart]
  apply (settles_unary nested enough).bind
  intro left next _
  exact settles_operators nested (by omega) (by rw [nested.turns]; omega)

theorem settles_assignment (nested : self.Settles budget) (enough : state.ahead ≤ budget) :
    (assignment self).Settles state 1 := by
  rw [assignment, settles_nodeStart]
  apply (settles_binary nested enough).bind
  intro target next _
  rw [settles_kind]
  split
  · rename_i found
    dsimp only
    split
    · apply settles_checkTarget
      apply Settles.consumes (Alignment.lexeme_ne_endOfFile_of_view rfl found)
      intro after _
      apply (nested.assignment (by omega)).bind
      intro value last _
      rw [settles_spanFrom]
      exact .pure _
    · exact .fail_bind (by rintro ⟨⟩)
  · apply Settles.consumeIf
    · intro after _
      rw [if_pos rfl]
      have inner : (withIn self.assignment).Settles after 1 :=
        .inContext fun _ _ => nested.assignment (by omega)
      apply inner.bind
      intro consequent middle _
      apply Settles.require
      intro behind _
      apply (nested.assignment (by omega)).bind
      intro alternate last _
      rw [settles_spanFrom]
      exact .pure _
    · exact .pure _

theorem settles_expression (nested : self.Settles budget) (enough : state.ahead ≤ budget) :
    (expression self).Settles state 1 := by
  rw [expression, settles_nodeStart]
  apply (settles_assignment nested enough).bind
  intro first next _
  apply Settles.consumeIf
  · intro after _
    rw [if_pos rfl]
    have others : (separated self.assignment self.turns).Settles after 1 :=
      .separated (fun _ _ => nested.assignment (by omega)) (by rw [nested.turns]; omega)
    apply others.bind
    intro others last _
    rw [settles_spanFrom]
    exact .pure _
  · exact .pure _

end Grammar

end EcmaScript
