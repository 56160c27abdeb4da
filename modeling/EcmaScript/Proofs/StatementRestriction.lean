import EcmaScript.Grammar.Statement
import EcmaScript.Proofs.ExpressionRestriction

/-!
# Refused parts of statements

A restricted parse and a lenient one build the same statements, but for those in which some node is
refused. Besides what expressions check, strict code has no `with`, and a `return` outside functions
may be refused.
-/

namespace EcmaScript.Grammar

open Parse

variable {restriction : Restriction} {inFunction : Bool} {self : Nonterminals}

theorem tightens_block (nested : self.Tightens restriction) :
    Parse.Tightens restriction inFunction True (block self) fun value =>
      restriction.Accepts inFunction (.block value) := by
  rw [block]
  apply Tightens.nodeStart
  intro start
  apply Tightens.skip .require
  apply Tightens.step (tightens_statementList nested)
  intro body
  apply Tightens.skip .require
  apply Tightens.spanFrom
  intro span
  refine .made rfl rfl ?_
  simp [Node.children, Step.entersFunction]

/-- A block is accepted as a statement when it is accepted. -/
theorem accepts_blockStatement {value : Block} :
    restriction.Accepts inFunction (.statement (.block value)) ↔
      restriction.Accepts inFunction (.block value) := by
  refine (Restriction.accepts_plain rfl rfl).trans ?_
  refine Iff.trans ?_ (Restriction.accepts_plain rfl rfl).symm
  simp [Node.children, Statement.children, Step.entersFunction]

theorem tightens_variableDeclarator (nested : self.Tightens restriction) :
    Parse.Tightens restriction inFunction True (variableDeclarator self) fun value =>
      restriction.Accepts inFunction (.declarator value) := by
  rw [variableDeclarator]
  apply Tightens.nodeStart
  intro start
  apply Tightens.step tightens_bindingIdentifier
  intro name
  apply Tightens.consumeIf
  intro assigned
  dsimp only
  split
  · rw [bind_map_left]
    apply Tightens.step nested.assignment
    intro value
    apply Tightens.spanFrom
    intro span
    refine .made rfl rfl ?_
    simp [Node.children, Step.entersFunction]
  · rw [pure_bind]
    apply Tightens.spanFrom
    intro span
    refine .made rfl rfl ?_
    simp [Node.children, Step.entersFunction]

theorem tightens_variableDeclaration (nested : self.Tightens restriction) :
    Parse.Tightens restriction inFunction True (variableDeclaration self) fun value =>
      restriction.Accepts inFunction (.declaration value) := by
  rw [variableDeclaration]
  apply Tightens.nodeStart
  intro start
  apply Tightens.skip .require
  apply Tightens.step (.separated (tightens_variableDeclarator nested) _)
  intro declarators
  apply Tightens.spanFrom
  intro span
  refine .made rfl rfl ?_
  simp [Node.children, Step.entersFunction]

theorem tightens_variableStatement (nested : self.Tightens restriction) :
    Parse.Tightens restriction inFunction True (variableStatement self) fun value =>
      restriction.Accepts inFunction (.statement value) := by
  rw [variableStatement]
  apply Tightens.nodeStart
  intro start
  apply Tightens.step (tightens_variableDeclaration nested)
  intro declaration
  apply Tightens.skip .semicolon
  apply Tightens.spanFrom
  intro span
  refine .made rfl rfl ?_
  rw [Restriction.accepts_plain rfl rfl]
  simp [Node.children, Statement.children, Step.entersFunction]

theorem tightens_condition (nested : self.Tightens restriction) :
    Parse.Tightens restriction inFunction True (condition self) fun value =>
      restriction.Accepts inFunction (.expression value) := by
  rw [condition]
  apply Tightens.skip .require
  apply Tightens.step (tightens_expression nested)
  intro test
  apply Tightens.skip .require
  exact .pure (by simp)

theorem tightens_loopBody (nested : self.Tightens restriction) :
    Parse.Tightens restriction inFunction True (loopBody self) fun value =>
      restriction.Accepts inFunction (.statement value) :=
  .inLoop nested.statement

theorem tightens_ifStatement (nested : self.Tightens restriction) :
    Parse.Tightens restriction inFunction True (ifStatement self) fun value =>
      restriction.Accepts inFunction (.statement value) := by
  rw [ifStatement]
  apply Tightens.nodeStart
  intro start
  apply Tightens.skip .require
  apply Tightens.step (tightens_condition nested)
  intro test
  apply Tightens.step nested.statement
  intro consequent
  apply Tightens.consumeIf
  intro otherwise
  dsimp only
  split
  · rw [bind_map_left]
    apply Tightens.step nested.statement
    intro alternate
    apply Tightens.spanFrom
    intro span
    refine .made rfl rfl ?_
    simp [Node.children, Statement.children, Step.entersFunction, and_assoc]
  · rw [pure_bind]
    apply Tightens.spanFrom
    intro span
    refine .made rfl rfl ?_
    simp [Node.children, Statement.children, Step.entersFunction]

theorem tightens_whileStatement (nested : self.Tightens restriction) :
    Parse.Tightens restriction inFunction True (whileStatement self) fun value =>
      restriction.Accepts inFunction (.statement value) := by
  rw [whileStatement]
  apply Tightens.nodeStart
  intro start
  apply Tightens.skip .require
  apply Tightens.step (tightens_condition nested)
  intro test
  apply Tightens.step (tightens_loopBody nested)
  intro body
  apply Tightens.spanFrom
  intro span
  refine .made rfl rfl ?_
  simp [Node.children, Statement.children, Step.entersFunction]

theorem tightens_doWhileStatement (nested : self.Tightens restriction) :
    Parse.Tightens restriction inFunction True (doWhileStatement self) fun value =>
      restriction.Accepts inFunction (.statement value) := by
  rw [doWhileStatement]
  apply Tightens.nodeStart
  intro start
  apply Tightens.skip .require
  apply Tightens.step (tightens_loopBody nested)
  intro body
  apply Tightens.skip .require
  apply Tightens.step (tightens_condition nested)
  intro test
  apply Tightens.consumeIf
  intro _
  apply Tightens.spanFrom
  intro span
  refine .made rfl rfl ?_
  simp [Node.children, Statement.children, Step.entersFunction]

theorem tightens_forHead? (nested : self.Tightens restriction) :
    Parse.Tightens restriction inFunction True (forHead? self) fun head =>
      ∀ init ∈ head, restriction.Accepts inFunction init.node := by
  rw [forHead?]
  apply Tightens.lookahead
  intro token _
  split
  · exact .pure (by simp)
  · apply Tightens.step (.withoutIn (tightens_variableDeclaration nested))
    intro declaration
    exact .pure (by simp [ForHead.node])
  · apply Tightens.step (.withoutIn (tightens_expression nested))
    intro value
    exact .pure (by simp [ForHead.node])

/-- Strict code may assign to what a loop begins with. -/
def isAssignable : ForHead → Bool
  | .declaration _ => true
  | .expression target => !target.name?.any isEvalOrArguments

theorem tightens_checkForInTarget {head : ForHead} :
    Parse.Tightens restriction inFunction True (checkForInTarget head) fun _ =>
      restriction.strict = true → isAssignable head = true := by
  unfold checkForInTarget
  split
  · split
    · exact .pure (by simp [isAssignable])
    · exact .fail
  · dsimp only
    split
    · apply tightens_checkTarget.congr Iff.rfl
      intro _
      simp [isAssignable]
    · exact .fail_bind

theorem tightens_forInRest (nested : self.Tightens restriction) {start : Position}
    {left : ForHead} :
    Parse.Tightens restriction inFunction
      (restriction.Accepts inFunction left.node ∧
        (restriction.strict = true → isAssignable left = true))
      (forInRest self start left) fun value =>
      restriction.Accepts inFunction (.statement value) := by
  rw [forInRest]
  apply Tightens.skip .consume
  apply Tightens.step (tightens_expression nested)
  intro right
  apply Tightens.skip .require
  apply Tightens.step (tightens_loopBody nested)
  intro body
  apply Tightens.spanFrom
  intro span
  have allowed : Node.isStrictlyAllowed (.statement (.forInLoop left right body span)) =
      isAssignable left := by
    cases left <;> rfl
  apply Tightens.checked
  rw [Restriction.permits, allowed]
  cases strict : restriction.strict <;> cases left <;>
    simp [Node.isReturn, Node.children, Statement.children, ForHead.node, Step.entersFunction,
      and_comm, and_left_comm, and_assoc]

theorem tightens_optionalExpression (nested : self.Tightens restriction) {ending : Punctuator} :
    Parse.Tightens restriction inFunction True (optionalExpression self ending) fun value =>
      ∀ item ∈ value, restriction.Accepts inFunction (.expression item) := by
  rw [optionalExpression]
  apply Tightens.sees
  intro ended
  split
  · exact .pure (by simp)
  · exact .map (tightens_expression nested) (by simp)

theorem tightens_forRest (nested : self.Tightens restriction) {start : Position}
    {init : Option ForHead} :
    Parse.Tightens restriction inFunction
      (∀ head ∈ init, restriction.Accepts inFunction head.node)
      (forRest self start init) fun value =>
      restriction.Accepts inFunction (.statement value) := by
  rw [forRest]
  apply Tightens.skip .require
  apply Tightens.step (tightens_optionalExpression nested)
  intro test
  apply Tightens.skip .require
  apply Tightens.step (tightens_optionalExpression nested)
  intro step
  apply Tightens.skip .require
  apply Tightens.step (tightens_loopBody nested)
  intro body
  apply Tightens.spanFrom
  intro span
  refine .made rfl rfl ?_
  cases init with
  | none =>
    simp [Node.children, Statement.children, Step.entersFunction, or_imp, forall_and, and_assoc]
  | some head =>
    cases head <;>
      simp [Node.children, Statement.children, ForHead.node, Step.entersFunction, or_imp,
        forall_and, and_assoc]

theorem tightens_forStatement (nested : self.Tightens restriction) :
    Parse.Tightens restriction inFunction True (forStatement self) fun value =>
      restriction.Accepts inFunction (.statement value) := by
  rw [forStatement]
  apply Tightens.nodeStart
  intro start
  apply Tightens.skip .require
  apply Tightens.skip .require
  apply Tightens.step (tightens_forHead? nested)
  intro init
  apply Tightens.sees
  intro isIn
  split
  · apply Tightens.step tightens_checkForInTarget
    intro _
    refine (tightens_forInRest nested).congr ?_ fun _ => Iff.rfl
    simp
  · refine (tightens_forRest nested).congr ?_ fun _ => Iff.rfl
    simp

theorem accepts_label {label : Identifier} :
    restriction.Accepts inFunction (.label label) ↔
      (restriction.strict = true → isStrictReservedWord label.name = false) := by
  rw [Restriction.accepts_iff]
  cases strict : restriction.strict <;>
    simp [Restriction.permits, Node.isStrictlyAllowed, Node.isReturn, Node.children, strict]

theorem tightens_jumpLabel :
    Parse.Tightens restriction inFunction True jumpLabel fun label =>
      ∀ item ∈ label, restriction.Accepts inFunction (.label item) := by
  rw [jumpLabel]
  apply Tightens.lookahead
  intro token _
  split
  · exact .pure (by simp)
  · apply Tightens.step tightens_identifierReference
    intro label
    refine .get ?_ fun state _ => ?_
    · intro lenient strict twin
      rw [twin.labels]
    · dsimp only
      split
      · apply Tightens.pure
        simp [accepts_label]
      · exact .fail_bind

theorem tightens_continueStatement :
    Parse.Tightens restriction inFunction True continueStatement fun value =>
      restriction.Accepts inFunction (.statement value) := by
  rw [continueStatement]
  apply Tightens.nodeStart
  intro start
  apply Tightens.skip .require
  refine .get ?_ fun state _ => ?_
  · intro lenient strict twin
    rw [twin.context]
  · dsimp only
    split
    · apply Tightens.step tightens_jumpLabel
      intro label
      apply Tightens.skip .semicolon
      apply Tightens.spanFrom
      intro span
      refine .made rfl rfl ?_
      simp [Node.children, Statement.children, Step.entersFunction]
    · exact .fail_bind

theorem tightens_breakStatement :
    Parse.Tightens restriction inFunction True breakStatement fun value =>
      restriction.Accepts inFunction (.statement value) := by
  rw [breakStatement]
  apply Tightens.nodeStart
  intro start
  apply Tightens.skip .require
  refine .get ?_ fun state _ => ?_
  · intro lenient strict twin
    rw [twin.context]
  · dsimp only
    split
    · apply Tightens.step tightens_jumpLabel
      intro label
      apply Tightens.skip .semicolon
      apply Tightens.spanFrom
      intro span
      refine .made rfl rfl ?_
      simp [Node.children, Statement.children, Step.entersFunction]
    · exact .fail_bind

theorem tightens_returnStatement (nested : self.Tightens restriction) :
    Parse.Tightens restriction inFunction True (returnStatement self) fun value =>
      restriction.Accepts inFunction (.statement value) := by
  have returned : ∀ (start : Position) (argument : Option Expression), Parse.Tightens restriction
      inFunction ((restriction.noReturn = true → inFunction = true) ∧
        ∀ value ∈ argument, restriction.Accepts inFunction (.expression value))
      (do
        semicolon
        return .returnValue argument (← spanFrom start))
      fun value => restriction.Accepts inFunction (.statement value) := by
    intro start argument
    apply Tightens.skip .semicolon
    apply Tightens.spanFrom
    intro span
    apply Tightens.checked
    cases noReturn : restriction.noReturn <;> cases inFunction <;>
      simp [Restriction.permits, Node.isStrictlyAllowed, Node.isReturn, Node.children,
        Statement.children, Step.entersFunction, noReturn]
  rw [returnStatement]
  apply Tightens.nodeStart
  intro start
  dsimp only
  apply Tightens.mayReturn (by rintro _ _ _ ⟨⟩)
  apply Tightens.skip .require
  apply Tightens.lookahead
  intro token _
  split
  · rw [pure_bind]
    exact (returned start none).congr (by simp) fun _ => Iff.rfl
  · rw [bind_map_left]
    apply Tightens.step (tightens_expression nested)
    intro argument
    exact (returned start (some argument)).congr (by simp) fun _ => Iff.rfl

theorem tightens_withStatement (nested : self.Tightens restriction) :
    Parse.Tightens restriction inFunction True (withStatement self) fun value =>
      restriction.Accepts inFunction (.statement value) := by
  rw [withStatement]
  apply Tightens.nodeStart
  intro start
  dsimp only
  apply Tightens.notStrict (by rintro _ _ _ ⟨⟩)
  apply Tightens.skip .require
  apply Tightens.step (tightens_condition nested)
  intro object
  apply Tightens.step nested.statement
  intro body
  apply Tightens.spanFrom
  intro span
  apply Tightens.checked
  cases strict : restriction.strict <;>
    simp [Restriction.permits, Node.isStrictlyAllowed, Node.isReturn, Node.children,
      Statement.children, Step.entersFunction, strict]

theorem tightens_caseTest (nested : self.Tightens restriction) {seenDefault : Bool} :
    Parse.Tightens restriction inFunction True (caseTest self seenDefault) fun test =>
      ∀ value ∈ test, restriction.Accepts inFunction (.expression value) := by
  rw [caseTest]
  apply Tightens.lookahead
  intro token _
  split
  · apply Tightens.skip .consume
    exact .map (tightens_expression nested) (by simp)
  · dsimp only
    split
    · exact .fail_bind
    · apply Tightens.skip .consume
      exact .pure (by simp)
  · exact .unexpected

theorem tightens_switchCases (nested : self.Tightens restriction) (turns : Nat)
    (seenDefault : Bool) :
    Parse.Tightens restriction inFunction True (switchCases self seenDefault turns) fun cases =>
      ∀ clause ∈ cases, restriction.Accepts inFunction (.clause clause) := by
  induction turns generalizing seenDefault with
  | zero => exact .exhausted
  | succ turns ih =>
    rw [switchCases]
    apply Tightens.sees
    intro closed
    split
    · exact .pure (by simp)
    · apply Tightens.nodeStart
      intro start
      apply Tightens.step (tightens_caseTest nested)
      intro test
      apply Tightens.skip .require
      apply Tightens.step (tightens_statementList nested)
      intro consequent
      apply Tightens.spanFrom
      intro span
      apply Tightens.step (ih _)
      intro others
      apply Tightens.pure
      rw [List.forall_mem_cons]
      apply and_congr_left
      intro _
      refine Iff.trans ?_ (Restriction.accepts_plain rfl rfl).symm
      simp [Node.children, Step.entersFunction, or_imp, forall_and]

theorem tightens_switchStatement (nested : self.Tightens restriction) :
    Parse.Tightens restriction inFunction True (switchStatement self) fun value =>
      restriction.Accepts inFunction (.statement value) := by
  rw [switchStatement]
  apply Tightens.nodeStart
  intro start
  apply Tightens.skip .require
  apply Tightens.step (tightens_condition nested)
  intro discriminant
  apply Tightens.skip .require
  apply Tightens.step (.inSwitch (tightens_switchCases nested _ _))
  intro cases
  apply Tightens.skip .require
  apply Tightens.spanFrom
  intro span
  refine .made rfl rfl ?_
  simp [Node.children, Statement.children, Step.entersFunction]

theorem tightens_throwStatement (nested : self.Tightens restriction) :
    Parse.Tightens restriction inFunction True (throwStatement self) fun value =>
      restriction.Accepts inFunction (.statement value) := by
  rw [throwStatement]
  apply Tightens.nodeStart
  intro start
  apply Tightens.skip .require
  apply Tightens.lookahead
  intro token _
  dsimp only
  split
  · exact .fail_bind
  · apply Tightens.step (tightens_expression nested)
    intro argument
    apply Tightens.skip .semicolon
    apply Tightens.spanFrom
    intro span
    refine .made rfl rfl ?_
    simp [Node.children, Statement.children, Step.entersFunction]

theorem tightens_catchClause? (nested : self.Tightens restriction) :
    Parse.Tightens restriction inFunction True (catchClause? self) fun handler =>
      ∀ clause ∈ handler, restriction.Accepts inFunction (.handler clause) := by
  rw [catchClause?]
  apply Tightens.nodeStart
  intro start
  apply Tightens.consumeIf
  intro found
  split
  · apply Tightens.skip .require
    apply Tightens.step tightens_bindingIdentifier
    intro parameter
    apply Tightens.skip .require
    apply Tightens.step (tightens_block nested)
    intro body
    apply Tightens.spanFrom
    intro span
    apply Tightens.pure
    simp only [Option.mem_some_iff, forall_eq']
    refine Iff.trans ?_ (Restriction.accepts_plain rfl rfl).symm
    simp [Node.children, Step.entersFunction]
  · exact .pure (by simp)

theorem tightens_tryStatement (nested : self.Tightens restriction) :
    Parse.Tightens restriction inFunction True (tryStatement self) fun value =>
      restriction.Accepts inFunction (.statement value) := by
  rw [tryStatement]
  apply Tightens.nodeStart
  intro start
  apply Tightens.skip .require
  apply Tightens.step (tightens_block nested)
  intro body
  apply Tightens.step (tightens_catchClause? nested)
  intro handler
  have finished : ∀ finalizer : Option Block, Parse.Tightens restriction inFunction
      (((True ∧ restriction.Accepts inFunction (.block body)) ∧
        ∀ clause ∈ handler, restriction.Accepts inFunction (.handler clause)) ∧
        ∀ last ∈ finalizer, restriction.Accepts inFunction (.block last))
      (if (handler.isNone && finalizer.isNone) = true then do
        fail .tryAlone (← nodeStart)
        return .tryBlock body handler finalizer (← spanFrom start)
      else return .tryBlock body handler finalizer (← spanFrom start))
      fun value => restriction.Accepts inFunction (.statement value) := by
    intro finalizer
    split
    · apply Tightens.nodeStart
      intro position
      exact .fail_bind
    · apply Tightens.spanFrom
      intro span
      refine .made rfl rfl ?_
      simp [Node.children, Statement.children, Step.entersFunction, or_imp, forall_and, and_assoc]
  apply Tightens.consumeIf
  intro found
  dsimp only
  split
  · rw [bind_map_left]
    apply Tightens.step (tightens_block nested)
    intro last
    exact (finished (some last)).congr (by simp) fun _ => Iff.rfl
  · rw [pure_bind]
    exact (finished none).congr (by simp) fun _ => Iff.rfl

theorem tightens_debuggerStatement :
    Parse.Tightens restriction inFunction True debuggerStatement fun value =>
      restriction.Accepts inFunction (.statement value) := by
  rw [debuggerStatement]
  apply Tightens.nodeStart
  intro start
  apply Tightens.skip .consume
  apply Tightens.skip .semicolon
  apply Tightens.spanFrom
  intro span
  refine .made rfl rfl ?_
  simp [Node.children, Statement.children]

theorem tightens_labelledStatement (nested : self.Tightens restriction) {start : Position}
    {label : Identifier} :
    Parse.Tightens restriction inFunction
      (restriction.Accepts inFunction (.expression (.identifier label)))
      (labelledStatement self start label) fun value =>
      restriction.Accepts inFunction (.statement value) := by
  rw [labelledStatement]
  refine .get ?_ fun state _ => ?_
  · intro lenient strict twin
    rw [twin.labels]
  · dsimp only
    split
    · exact .fail_bind
    · apply Tightens.skip .consume
      apply Tightens.step (.withLabel nested.statement)
      intro body
      apply Tightens.spanFrom
      intro span
      refine .made rfl rfl ?_
      simp [Node.children, Statement.children, Step.entersFunction, accepts_identifier,
        accepts_label]

theorem tightens_expressionStatement (nested : self.Tightens restriction) :
    Parse.Tightens restriction inFunction True (expressionStatement self) fun value =>
      restriction.Accepts inFunction (.statement value) := by
  rw [expressionStatement]
  apply Tightens.lookahead
  intro opening _
  apply Tightens.step (tightens_expression nested)
  intro value
  apply Tightens.kind
  intro kind
  split
  · refine (tightens_labelledStatement nested).congr ?_ fun _ => Iff.rfl
    simp
  · apply Tightens.skip .semicolon
    apply Tightens.spanFrom
    intro span
    refine .made rfl rfl ?_
    simp [Node.children, Statement.children, Step.entersFunction]

theorem tightens_statement (nested : self.Tightens restriction) :
    Parse.Tightens restriction inFunction True (statement self) fun value =>
      restriction.Accepts inFunction (.statement value) := by
  rw [statement]
  apply Tightens.lookahead
  intro token _
  split
  · exact .map (tightens_block nested) fun _ => accepts_blockStatement.symm
  · apply Tightens.skip .consume
    refine .made rfl rfl ?_
    simp [Node.children, Statement.children]
  · split
    · exact tightens_variableStatement nested
    · exact tightens_ifStatement nested
    · exact tightens_whileStatement nested
    · exact tightens_doWhileStatement nested
    · exact tightens_forStatement nested
    · exact tightens_continueStatement
    · exact tightens_breakStatement
    · exact tightens_returnStatement nested
    · exact tightens_withStatement nested
    · exact tightens_switchStatement nested
    · exact tightens_throwStatement nested
    · exact tightens_tryStatement nested
    · exact tightens_debuggerStatement
    · exact tightens_expressionStatement nested
  · exact tightens_expressionStatement nested

theorem tightens_listItem (nested : self.Tightens restriction) :
    Parse.Tightens restriction inFunction True (listItem self) fun value =>
      restriction.Accepts inFunction (.statement value) := by
  rw [listItem]
  apply Tightens.sees
  intro declared
  split
  · exact tightens_functionDeclaration nested
  · exact tightens_statement nested

end EcmaScript.Grammar
