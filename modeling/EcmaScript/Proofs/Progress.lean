import EcmaScript.Proofs.Completion
import EcmaScript.Proofs.Recursion

/-!
# Parsing makes progress

Every construct that is read takes a token, every turn of a list goes on behind the token it began
at, and so does whatever is nested in a construct. The end of the text is never consumed, and no more
tokens are looked for than there are characters, and the end.
-/

namespace EcmaScript

open Parse Grammar EcmaScript.Alignment

/-- Every result of an action comes with a token that has been consumed. -/
def Parse.Progresses {α : Type} (action : Parse α) (state : State) : Prop :=
  ∀ {value next}, action state = .ok value next → state.consumed.length < next.consumed.length

theorem Point.IsProper.length_consumed {state : State} (proper : state.point.IsProper) :
    state.progress = state.consumed.length + 1 := by
  obtain ⟨others, whole⟩ := List.head?_eq_some_iff.mp proper.1
  have whole : Event.tokens state.events = state.lookahead :: others := whole
  rw [State.consumed, List.length_reverse, whole]
  exact congrArg List.length whole

theorem Parse.Settles.progresses {α : Type} {action : Parse α} {state : State}
    (settles : action.Settles state 1) (proper : state.point.IsProper) :
    action.Progresses state := by
  intro value next run
  have further := (settles.ok run).2
  have some := proper.length_consumed
  have length : next.consumed.length = next.progress - 1 := by
    rw [State.consumed, List.length_reverse, List.length_tail]
    rfl
  omega

namespace Grammar

/-- The productions of expressions, of properties and of statements progress. -/
structure Progresses (self : Nonterminals) (state : State) : Prop where
  identifierReference : Parse.identifierReference.Progresses state
  bindingIdentifier : Parse.bindingIdentifier.Progresses state
  identifierName : Parse.identifierName.Progresses state
  literal : ∀ {value}, state.lookahead.lexeme.literal? = some value →
    (literal value).Progresses state
  regularExpression : ∀ {front}, Scan.slash? state.lookahead.lexeme = some front →
    (regularExpression front).Progresses state
  parenthesized : (parenthesized self).Progresses state
  arguments : (arguments self).Progresses state
  element : (element self).Progresses state
  arrayLiteral : (arrayLiteral self).Progresses state
  objectLiteral : (objectLiteral self).Progresses state
  functionExpression : (functionExpression self).Progresses state
  primary : (primary self).Progresses state
  newExpression : (newExpression self).Progresses state
  leftHandSide : ∀ {withCalls}, (leftHandSide self withCalls).Progresses state
  update : (update self).Progresses state
  unary : (unary self).Progresses state
  binary : (binary self).Progresses state
  assignment : (assignment self).Progresses state
  expression : (expression self).Progresses state
  propertyKey : propertyKey.Progresses state
  propertyValue : ∀ {start key}, (propertyValue self start key).Progresses state
  accessorFunction : ∀ {kind}, (accessorFunction self kind).Progresses state
  property : (property self).Progresses state
  formalParameters : (formalParameters self).Progresses state
  functionBody : (functionBody self).Progresses state
  functionDeclaration : (functionDeclaration self).Progresses state
  block : (block self).Progresses state
  variableDeclarator : (variableDeclarator self).Progresses state
  variableDeclaration : (variableDeclaration self).Progresses state
  variableStatement : (variableStatement self).Progresses state
  condition : (condition self).Progresses state
  loopBody : (loopBody self).Progresses state
  ifStatement : (ifStatement self).Progresses state
  whileStatement : (whileStatement self).Progresses state
  doWhileStatement : (doWhileStatement self).Progresses state
  forStatement : (forStatement self).Progresses state
  continueStatement : continueStatement.Progresses state
  breakStatement : breakStatement.Progresses state
  returnStatement : (returnStatement self).Progresses state
  withStatement : (withStatement self).Progresses state
  caseTest : ∀ {seenDefault}, (caseTest self seenDefault).Progresses state
  switchStatement : (switchStatement self).Progresses state
  throwStatement : (throwStatement self).Progresses state
  tryStatement : (tryStatement self).Progresses state
  debuggerStatement : state.lookahead.lexeme ≠ .endOfFile → debuggerStatement.Progresses state
  labelledStatement : ∀ {start label}, state.lookahead.lexeme ≠ .endOfFile →
    (labelledStatement self start label).Progresses state
  expressionStatement : (expressionStatement self).Progresses state
  statement : (statement self).Progresses state
  listItem : (listItem self).Progresses state

theorem progresses_of_settles {self : Nonterminals} {budget : Nat} {state : State}
    (nested : self.Settles budget) (less : state.ahead < budget)
    (proper : state.point.IsProper) : Progresses self state := by
  have enough : state.ahead ≤ budget := Nat.le_of_lt less
  exact
    { identifierReference := Settles.identifierReference.progresses proper
      bindingIdentifier := Settles.bindingIdentifier.progresses proper
      identifierName := Settles.identifierName.progresses proper
      literal found := by
        refine Settles.progresses (settles_literal fun ended => ?_) proper
        rw [ended] at found
        cases found
      regularExpression slash := (settles_regularExpression slash).progresses proper
      parenthesized := (settles_parenthesized nested enough).progresses proper
      arguments := (settles_arguments nested enough).progresses proper
      element := (settles_element nested less).progresses proper
      arrayLiteral := (settles_arrayLiteral nested enough).progresses proper
      objectLiteral := (settles_objectLiteral nested enough).progresses proper
      functionExpression := (settles_functionExpression nested enough).progresses proper
      primary := (settles_primary nested enough).progresses proper
      newExpression := (settles_newExpression nested enough).progresses proper
      leftHandSide := (settles_leftHandSide nested enough).progresses proper
      update := (settles_update nested enough).progresses proper
      unary := (settles_unary nested enough).progresses proper
      binary := (settles_binary nested enough).progresses proper
      assignment := (settles_assignment nested enough).progresses proper
      expression := (settles_expression nested enough).progresses proper
      propertyKey := settles_propertyKey.progresses proper
      propertyValue := (settles_propertyValue nested _ _ enough).progresses proper
      accessorFunction := (settles_accessorFunction nested _ enough).progresses proper
      property := (settles_property nested enough).progresses proper
      formalParameters := (settles_formalParameters nested enough).progresses proper
      functionBody := (settles_functionBody nested enough).progresses proper
      functionDeclaration := (settles_functionDeclaration nested enough).progresses proper
      block := (settles_block nested enough).progresses proper
      variableDeclarator := (settles_variableDeclarator nested enough).progresses proper
      variableDeclaration := (settles_variableDeclaration nested enough).progresses proper
      variableStatement := (settles_variableStatement nested enough).progresses proper
      condition := (settles_condition nested enough).progresses proper
      loopBody := (settles_loopBody nested less).progresses proper
      ifStatement := (settles_ifStatement nested enough).progresses proper
      whileStatement := (settles_whileStatement nested enough).progresses proper
      doWhileStatement := (settles_doWhileStatement nested enough).progresses proper
      forStatement := (settles_forStatement nested enough).progresses proper
      continueStatement := settles_continueStatement.progresses proper
      breakStatement := settles_breakStatement.progresses proper
      returnStatement := (settles_returnStatement nested enough).progresses proper
      withStatement := (settles_withStatement nested enough).progresses proper
      caseTest := (settles_caseTest nested enough).progresses proper
      switchStatement := (settles_switchStatement nested enough).progresses proper
      throwStatement := (settles_throwStatement nested enough).progresses proper
      tryStatement := (settles_tryStatement nested enough).progresses proper
      debuggerStatement inside := (settles_debuggerStatement inside).progresses proper
      labelledStatement inside := (settles_labelledStatement nested inside enough).progresses proper
      expressionStatement := (settles_expressionStatement nested enough).progresses proper
      statement := (settles_statement nested enough).progresses proper
      listItem := (settles_listItem nested enough).progresses proper }

end Grammar

/-! ### Lists -/

section Turns

variable {α β : Type} {state : State}

/-- A list is read turn by turn, and a turn goes on with the next one only when a token has been
consumed.

The next turn is given by an action that may be run at later points only. -/
structure Parse.TakesTurns {γ : Type} (loop : Nat → γ → Parse β)
    (turn : (γ → Parse β) → γ → Parse β) (state : State) : Prop where
  turns : ∀ turns given, loop (turns + 1) given = turn (loop turns) given
  behind : ∀ next given,
    turn (fun given => (next given).onlyAt (state.point.scanned.length < ·.scanned.length)) given
      state = turn next given state

namespace Parse

/-- Two actions do the same from a state. -/
def AgreeAt (state : State) (first second : Parse α) : Prop :=
  first state = second state

theorem agreeAt_lookahead {rest others : Token → Parse α} :
    AgreeAt state (lookahead >>= rest) (lookahead >>= others) ↔
      AgreeAt state (rest state.lookahead) (others state.lookahead) := Iff.rfl

theorem agreeAt_kind {rest others : Kind → Parse α} :
    AgreeAt state (kind >>= rest) (kind >>= others) ↔
      AgreeAt state (rest state.lookahead.kind) (others state.lookahead.kind) := Iff.rfl

theorem agreeAt_sees {expected : Kind} {rest others : Bool → Parse α} :
    AgreeAt state (sees expected >>= rest) (sees expected >>= others) ↔
      AgreeAt state (rest (state.lookahead.kind == expected))
        (others (state.lookahead.kind == expected)) := Iff.rfl

theorem agreeAt_nodeStart {rest others : Position → Parse α} :
    AgreeAt state (nodeStart >>= rest) (nodeStart >>= others) ↔
      AgreeAt state (rest state.lookahead.span.start) (others state.lookahead.span.start) := Iff.rfl

theorem agreeAt_spanFrom {start : Position} {rest others : Span → Parse α} :
    AgreeAt state (spanFrom start >>= rest) (spanFrom start >>= others) ↔
      AgreeAt state (rest ⟨start, state.consumedEnd⟩) (others ⟨start, state.consumedEnd⟩) := Iff.rfl

theorem agreeAt_binaryOperator? {rest others : Option BinaryOperator → Parse α} :
    AgreeAt state (binaryOperator? >>= rest) (binaryOperator? >>= others) ↔
      AgreeAt state (rest state.operator?) (others state.operator?) := by
  unfold AgreeAt
  rw [binaryOperator?_bind, binaryOperator?_bind]

/-- Actions agree when they agree behind an action that comes before both. -/
theorem Settles.agreeAt {action : Parse α} {least : Nat} (settles : action.Settles state least)
    {rest others : α → Parse β}
    (same : ∀ value next, next.ahead + least ≤ state.ahead →
      state.progress + least ≤ next.progress → AgreeAt next (rest value) (others value)) :
    AgreeAt state (action >>= rest) (action >>= others) := by
  change EStateM.bind action rest state = EStateM.bind action others state
  unfold EStateM.bind
  cases run : action state with
  | error => rfl
  | ok value next =>
    obtain ⟨behind, further⟩ := settles.ok run
    exact same value next behind further

theorem agreeAt_onlyAt {action : Parse α} {next : State}
    (further : state.progress + 1 ≤ next.progress) :
    AgreeAt next (action.onlyAt (state.point.scanned.length < ·.scanned.length)) action :=
  onlyAt_of_allowed further

/-- What is made of the next turns does not matter. -/
theorem agreeAt_onlyAt_bind {action : Parse α} {next : State} {rest : α → Parse β}
    (further : state.progress + 1 ≤ next.progress) :
    AgreeAt next (action.onlyAt (state.point.scanned.length < ·.scanned.length) >>= rest)
      (action >>= rest) := by
  change EStateM.bind _ _ next = EStateM.bind _ _ next
  rw [EStateM.bind, EStateM.bind, onlyAt_of_allowed further]

theorem agreeAt_consumeIf {symbol : Symbol} {rest others : Bool → Parse β}
    (hit : ∀ next : State, next.ahead + 1 ≤ state.ahead → state.progress + 1 ≤ next.progress →
      AgreeAt next (rest true) (others true)) (miss : AgreeAt state (rest false) (others false)) :
    AgreeAt state (consumeIf symbol >>= rest) (consumeIf symbol >>= others) := by
  rw [consumeIf_bind, consumeIf_bind, agreeAt_lookahead]
  split
  · rename_i found
    exact (Settles.consume (lexeme_ne_endOfFile found)).agreeAt fun _ => hit
  · exact miss

/-- A turn of items up to a token that ends them. -/
def itemsTurn (ends : Kind → Bool) (item : Parse α) (next : Unit → Parse (List α)) (_ : Unit) :
    Parse (List α) := do
  if ends (← kind) then return []
  let first ← item
  let others ← next ()
  return first :: others

theorem itemsUntil_takesTurns {ends : Kind → Bool} {item : Parse α}
    (each : item.Settles state 1) :
    TakesTurns (fun turns _ => itemsUntil ends item turns) (itemsTurn ends item) state := by
  refine ⟨fun _ _ => rfl, fun next given => ?_⟩
  change AgreeAt state _ _
  rw [itemsTurn, itemsTurn, agreeAt_kind]
  split
  · rfl
  · apply each.agreeAt
    intro first next _ further
    exact agreeAt_onlyAt_bind further

/-- A turn of items with commas between them. -/
def separatedTurn (item : Parse α) (next : Unit → Parse (List α)) (_ : Unit) :
    Parse (List α) := do
  let first ← item
  if ← consumeIf Punctuator.comma then
    let others ← next ()
    return first :: others
  else return [first]

theorem separated_takesTurns {item : Parse α} (each : item.Settles state 1) :
    TakesTurns (fun turns _ => separated item turns) (separatedTurn item) state := by
  refine ⟨fun _ _ => rfl, fun next given => ?_⟩
  change AgreeAt state _ _
  apply each.agreeAt
  intro first next _ further
  apply agreeAt_consumeIf
  · intro last _ beyond
    exact agreeAt_onlyAt_bind (Nat.le_trans further (Nat.le_of_succ_le beyond))
  · rfl

end Parse

namespace Grammar

/-- A turn of directives. -/
def directivesTurn (statement : Parse Statement) (next : Unit → Parse (List Statement))
    (_ : Unit) : Parse (List Statement) := do
  let opening ← lookahead
  if opening.kind != .stringLiteral then return []
  let first ← statement
  match directive? opening first with
  | some (expression, span) =>
    let text := insideQuotes opening.text
    if text == "use strict" then enableStrict
    let others ← next ()
    return .expression expression (some text) span :: others
  | none => return [first]

theorem directives_takesTurns {statement : Parse Statement} (each : statement.Settles state 1) :
    TakesTurns (fun turns _ => directives statement turns) (directivesTurn statement) state := by
  refine ⟨fun _ _ => rfl, fun next given => ?_⟩
  change AgreeAt state _ _
  rw [directivesTurn, directivesTurn, agreeAt_lookahead]
  split
  · rfl
  · apply each.agreeAt
    intro first next _ further
    split
    · dsimp only
      split
      · apply Settles.enableStrict.agreeAt
        intro _ last _ beyond
        exact agreeAt_onlyAt_bind (Nat.le_trans further beyond)
      · exact agreeAt_onlyAt_bind further
    · rfl

/-- A turn of property accesses and calls. -/
def suffixesTurn (self : Nonterminals) (withCalls : Bool) (start : Position)
    (next : Expression → Parse Expression) (expression : Expression) : Parse Expression := do
  match (← lookahead).lexeme with
  | .symbol (.punctuator .period) =>
    consume
    let name ← identifierName
    next (.dot expression name (← spanFrom start))
  | .symbol (.punctuator .leftBracket) =>
    consume
    let name ← withIn self.expression
    require Punctuator.rightBracket
    next (.index expression name (← spanFrom start))
  | .symbol (.punctuator .leftParen) =>
    if withCalls then
      let items ← arguments self
      next (.call expression items (← spanFrom start))
    else return expression
  | _ => return expression

theorem suffixes_takesTurns {self : Nonterminals} {budget : Nat} (nested : self.Settles budget)
    (enough : state.ahead ≤ budget) {withCalls : Bool} {start : Position} :
    TakesTurns (suffixes self withCalls start) (suffixesTurn self withCalls start) state := by
  refine ⟨fun _ _ => rfl, fun further expression => ?_⟩
  change AgreeAt state _ _
  rw [suffixesTurn, suffixesTurn, agreeAt_lookahead]
  split
  · rename_i found
    apply (Settles.consume (by simp [found])).agreeAt
    intro _ next _ consumed
    apply Settles.identifierName.agreeAt
    intro name last _ beyond
    rw [agreeAt_spanFrom]
    exact agreeAt_onlyAt (by omega)
  · rename_i found
    apply (Settles.consume (by simp [found])).agreeAt
    intro _ next _ consumed
    have inner : (withIn self.expression).Settles next 1 :=
      .inContext fun _ _ => nested.expression (by omega)
    apply inner.agreeAt
    intro name after _ beyond
    apply Settles.require_last.agreeAt
    intro _ last _ closed
    rw [agreeAt_spanFrom]
    exact agreeAt_onlyAt (by omega)
  · split
    · apply (settles_arguments nested enough).agreeAt
      intro items last _ beyond
      rw [agreeAt_spanFrom]
      exact agreeAt_onlyAt beyond
    · rfl
  · rfl

/-- A turn of the operators that bind tighter than some operator and go on with its right operand.
-/
def rightOperandTurn (self : Nonterminals) (start : Position) (tier : Nat)
    (next : Expression → Parse Expression) (right : Expression) : Parse Expression := do
  match ← binaryOperator? with
  | none => return right
  | some operator =>
    if tier < operator.precedence then next (← self.operators start (tier + 1) right)
    else if tier = operator.precedence ∧ operator.isRightAssociative then
      next (← self.operators start tier right)
    else return right

theorem rightOperand_takesTurns {self : Nonterminals} {budget : Nat} (nested : self.Settles budget)
    (enough : state.ahead + 1 < budget) {start : Position} {tier : Nat} :
    TakesTurns (rightOperand self start tier) (rightOperandTurn self start tier) state := by
  refine ⟨fun _ _ => rfl, fun further right => ?_⟩
  change AgreeAt state _ _
  rw [rightOperandTurn, rightOperandTurn, agreeAt_binaryOperator?]
  split
  · rfl
  · rename_i next found
    split
    · rename_i higher
      apply (nested.operators enough found higher).agreeAt
      intro value last _ beyond
      exact agreeAt_onlyAt beyond
    · split
      · rename_i equal
        apply (nested.operators enough found (Nat.le_of_eq equal.1)).agreeAt
        intro value last _ beyond
        exact agreeAt_onlyAt beyond
      · rfl

/-- A turn of operators with their right operands. -/
def operatorsTurn (self : Nonterminals) (start : Position) (tier : Nat)
    (next : Expression → Parse Expression) (left : Expression) : Parse Expression := do
  match ← binaryOperator? with
  | none => return left
  | some operator =>
    if operator.precedence < tier then return left
    else
      consume
      let rightStart ← nodeStart
      let operand ← self.unary
      let right ← rightOperand self rightStart operator.precedence self.turns operand
      next (.binary operator left right (← spanFrom start))

theorem operators_takesTurns {self : Nonterminals} {budget : Nat} (nested : self.Settles budget)
    (enough : state.ahead ≤ budget) {start : Position} {tier : Nat} :
    TakesTurns (operators self start tier) (operatorsTurn self start tier) state := by
  refine ⟨fun _ _ => rfl, fun further left => ?_⟩
  change AgreeAt state _ _
  rw [operatorsTurn, operatorsTurn, agreeAt_binaryOperator?]
  split
  · rfl
  · rename_i operator found
    split
    · rfl
    · have inside : state.lookahead.lexeme ≠ .endOfFile := by
        intro ended
        rw [State.operator?, Token.kind, ended] at found
        simp [Lexeme.kind, Kind.binaryOperator?] at found
      apply (Settles.consume inside).agreeAt
      intro _ next _ consumed
      rw [agreeAt_nodeStart]
      apply (nested.unary (by omega)).agreeAt
      intro operand after _ taken
      apply (settles_rightOperand nested (by omega) (by rw [nested.turns]; omega)).agreeAt
      intro right last _ beyond
      rw [agreeAt_spanFrom]
      exact agreeAt_onlyAt (by omega)

/-- A turn of the clauses of a `switch` statement. -/
def switchCasesTurn (self : Nonterminals) (next : Bool → Parse (List SwitchCase))
    (seenDefault : Bool) : Parse (List SwitchCase) := do
  if ← sees Punctuator.rightBrace then return []
  let start ← nodeStart
  let test ← caseTest self seenDefault
  require Punctuator.colon
  let consequent ← statementList self
  let clause : SwitchCase := ⟨test, consequent, ← spanFrom start⟩
  let others ← next (seenDefault || test.isNone)
  return clause :: others

theorem switchCases_takesTurns {self : Nonterminals} {budget : Nat} (nested : self.Settles budget)
    (enough : state.ahead ≤ budget) :
    TakesTurns (fun turns seenDefault => switchCases self seenDefault turns) (switchCasesTurn self)
      state := by
  refine ⟨fun _ _ => rfl, fun further seenDefault => ?_⟩
  change AgreeAt state _ _
  rw [switchCasesTurn, switchCasesTurn, agreeAt_sees]
  split
  · rfl
  · rw [agreeAt_nodeStart]
    apply (settles_caseTest nested enough).agreeAt
    intro test next _ taken
    apply Settles.require_last.agreeAt
    intro _ inner _ closed
    apply (settles_statementList nested (by omega)).agreeAt
    intro consequent last _ beyond
    rw [agreeAt_spanFrom]
    exact agreeAt_onlyAt_bind (by omega)

/-- All lists of the grammar are read turn by turn. -/
structure ListsTakeTurns (self : Nonterminals) (state : State) : Prop where
  program : TakesTurns (fun turns _ => itemsUntil (· == .endOfFile) self.listItem turns)
    (itemsTurn (· == .endOfFile) self.listItem) state
  statements : TakesTurns (fun turns _ => itemsUntil endsStatements self.listItem turns)
    (itemsTurn endsStatements self.listItem) state
  directives : TakesTurns (fun turns _ => directives self.statement turns)
    (directivesTurn self.statement) state
  clauses : TakesTurns (fun turns seenDefault => switchCases self seenDefault turns)
    (switchCasesTurn self) state
  elements : TakesTurns
    (fun turns _ => itemsUntil (· == .symbol Punctuator.rightBracket) (element self) turns)
    (itemsTurn (· == .symbol Punctuator.rightBracket) (element self)) state
  properties : TakesTurns
    (fun turns _ => itemsUntil (· == .symbol Punctuator.rightBrace)
      (itemWithComma .rightBrace (property self)) turns)
    (itemsTurn (· == .symbol Punctuator.rightBrace) (itemWithComma .rightBrace (property self)))
    state
  /-- Arguments, and the parts of a sequence. -/
  assignments : TakesTurns (fun turns _ => separated self.assignment turns)
    (separatedTurn self.assignment) state
  parameters : TakesTurns (fun turns _ => separated bindingIdentifier turns)
    (separatedTurn bindingIdentifier) state
  declarators : TakesTurns (fun turns _ => separated (variableDeclarator self) turns)
    (separatedTurn (variableDeclarator self)) state
  suffixes : ∀ withCalls start,
    TakesTurns (suffixes self withCalls start) (suffixesTurn self withCalls start) state
  operators : ∀ start tier,
    TakesTurns (operators self start tier) (operatorsTurn self start tier) state
  rightOperand : ∀ start tier,
    TakesTurns (rightOperand self start tier) (rightOperandTurn self start tier) state

theorem listsTakeTurns_of_settles {self : Nonterminals} {budget : Nat} {state : State}
    (nested : self.Settles budget) (enough : state.ahead + 1 < budget) :
    ListsTakeTurns self state where
  program := itemsUntil_takesTurns (nested.listItem (by omega))
  statements := itemsUntil_takesTurns (nested.listItem (by omega))
  directives := directives_takesTurns (nested.statement (by omega))
  clauses := switchCases_takesTurns nested (by omega)
  elements := itemsUntil_takesTurns (settles_element nested (by omega))
  properties := itemsUntil_takesTurns
    (settles_itemWithComma (settles_property nested (by omega)))
  assignments := separated_takesTurns (nested.assignment (by omega))
  parameters := separated_takesTurns Settles.bindingIdentifier
  declarators := separated_takesTurns (settles_variableDeclarator nested (by omega))
  suffixes _ _ := suffixes_takesTurns nested (by omega)
  operators _ _ := operators_takesTurns nested (by omega)
  rightOperand _ _ := rightOperand_takesTurns nested enough

end Grammar

end Turns

end EcmaScript
