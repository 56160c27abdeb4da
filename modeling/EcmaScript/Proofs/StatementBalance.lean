import EcmaScript.Proofs.ExpressionBalance
import EcmaScript.Proofs.ScriptSoundness

/-!
# How statements and scripts are put together

There is one lemma for each production of statements. The productions are tied together by induction
on the budget, so that whatever is nested, and wherever in it a fault is found, every production of
the grammar but the directives is balanced. A script, with its directives, is composed as every
function of the grammar is.
-/

namespace EcmaScript

namespace Grammar

open Parse

variable {self : Nonterminals}

theorem isBalanced_block (nested : self.IsBalanced) : (block self).IsBalanced := by
  rw [block]
  refine .bind .nodeStart fun start => ?_
  refine .bind (.require _) fun _ => ?_
  refine .bind (isBalanced_statementList nested) fun body => ?_
  refine .bind (.require _) fun _ => ?_
  exact .bind (.spanFrom _) fun span => .pure _

theorem isBalanced_variableDeclarator (nested : self.IsBalanced) :
    (variableDeclarator self).IsBalanced := by
  rw [variableDeclarator]
  refine .bind .nodeStart fun start => ?_
  refine .bind .bindingIdentifier fun name => ?_
  refine .bind (.consumeIf _) fun initialized => ?_
  refine .either (.map nested.assignment) (.pure _) fun value => ?_
  exact .bind (.spanFrom _) fun span => .pure _

theorem isBalanced_variableDeclaration (nested : self.IsBalanced) :
    (variableDeclaration self).IsBalanced := by
  rw [variableDeclaration]
  refine .bind .nodeStart fun start => ?_
  refine .bind (.require _) fun _ => ?_
  refine .bind (.separated (isBalanced_variableDeclarator nested) _) fun declarators => ?_
  exact .bind (.spanFrom _) fun span => .pure _

theorem isBalanced_variableStatement (nested : self.IsBalanced) :
    (variableStatement self).IsBalanced := by
  rw [variableStatement]
  refine .bind .nodeStart fun start => ?_
  refine .bind (isBalanced_variableDeclaration nested) fun declaration => ?_
  refine .bind .semicolon fun _ => ?_
  exact .bind (.spanFrom _) fun span => .pure _

theorem isBalanced_condition (nested : self.IsBalanced) : (condition self).IsBalanced := by
  rw [condition]
  refine .bind (.require _) fun _ => ?_
  refine .bind (isBalanced_expression nested) fun test => ?_
  exact .bind (.require _) fun _ => .pure _

theorem isBalanced_loopBody (nested : self.IsBalanced) : (loopBody self).IsBalanced :=
  .inLoop nested.statement

theorem isBalanced_ifStatement (nested : self.IsBalanced) : (ifStatement self).IsBalanced := by
  rw [ifStatement]
  refine .bind .nodeStart fun start => ?_
  refine .bind (.require _) fun _ => ?_
  refine .bind (isBalanced_condition nested) fun test => ?_
  refine .bind nested.statement fun consequent => ?_
  refine .bind (.consumeIf _) fun found => ?_
  refine .either (.map nested.statement) (.pure _) fun alternate => ?_
  exact .bind (.spanFrom _) fun span => .pure _

theorem isBalanced_whileStatement (nested : self.IsBalanced) :
    (whileStatement self).IsBalanced := by
  rw [whileStatement]
  refine .bind .nodeStart fun start => ?_
  refine .bind (.require _) fun _ => ?_
  refine .bind (isBalanced_condition nested) fun test => ?_
  refine .bind (isBalanced_loopBody nested) fun body => ?_
  exact .bind (.spanFrom _) fun span => .pure _

theorem isBalanced_doWhileStatement (nested : self.IsBalanced) :
    (doWhileStatement self).IsBalanced := by
  rw [doWhileStatement]
  refine .bind .nodeStart fun start => ?_
  refine .bind (.require _) fun _ => ?_
  refine .bind (isBalanced_loopBody nested) fun body => ?_
  refine .bind (.require _) fun _ => ?_
  refine .bind (isBalanced_condition nested) fun test => ?_
  refine .bind (.consumeIf _) fun _ => ?_
  exact .bind (.spanFrom _) fun span => .pure _

theorem isBalanced_forHead (nested : self.IsBalanced) : (forHead? self).IsBalanced := by
  rw [forHead?]
  refine .bind .lookahead fun token => ?_
  split
  · exact .pure _
  · refine .bind (.withoutIn (isBalanced_variableDeclaration nested)) fun declaration => .pure _
  · refine .bind (.withoutIn (isBalanced_expression nested)) fun value => .pure _

theorem isBalanced_checkForInTarget (head : ForHead) : (checkForInTarget head).IsBalanced := by
  unfold checkForInTarget
  split
  · exact .choice (.pure _) (.fail (by rintro ⟨⟩) _)
  · exact .need (by rintro ⟨⟩) (isBalanced_checkTarget _)

theorem isBalanced_forInRest (nested : self.IsBalanced) (start : Position) (left : ForHead) :
    (forInRest self start left).IsBalanced := by
  rw [forInRest]
  refine .bind .consume fun _ => ?_
  refine .bind (isBalanced_expression nested) fun right => ?_
  refine .bind (.require _) fun _ => ?_
  refine .bind (isBalanced_loopBody nested) fun body => ?_
  exact .bind (.spanFrom _) fun span => .pure _

theorem isBalanced_optionalExpression (nested : self.IsBalanced) (ending : Punctuator) :
    (optionalExpression self ending).IsBalanced := by
  rw [optionalExpression]
  refine .bind (.sees _) fun ended => ?_
  exact .choice (.pure _) (.map (isBalanced_expression nested))

theorem isBalanced_forRest (nested : self.IsBalanced) (start : Position) (init : Option ForHead) :
    (forRest self start init).IsBalanced := by
  rw [forRest]
  refine .bind (.require _) fun _ => ?_
  refine .bind (isBalanced_optionalExpression nested _) fun test => ?_
  refine .bind (.require _) fun _ => ?_
  refine .bind (isBalanced_optionalExpression nested _) fun step => ?_
  refine .bind (.require _) fun _ => ?_
  refine .bind (isBalanced_loopBody nested) fun body => ?_
  exact .bind (.spanFrom _) fun span => .pure _

theorem isBalanced_forStatement (nested : self.IsBalanced) : (forStatement self).IsBalanced := by
  rw [forStatement]
  refine .bind .nodeStart fun start => ?_
  refine .bind (.require _) fun _ => ?_
  refine .bind (.require _) fun _ => ?_
  refine .bind (isBalanced_forHead nested) fun init => ?_
  refine .bind (.sees _) fun isIn => ?_
  split
  · refine .bind (isBalanced_checkForInTarget _) fun _ => ?_
    exact isBalanced_forInRest nested _ _
  · exact isBalanced_forRest nested _ _

theorem isBalanced_jumpLabel : jumpLabel.IsBalanced := by
  rw [jumpLabel]
  refine .bind .lookahead fun token => ?_
  refine .choice (.pure _) ?_
  refine .bind .identifierReference fun label => ?_
  refine .bind .get fun state => ?_
  exact .need (by rintro ⟨⟩) (.pure _)

theorem isBalanced_continueStatement : continueStatement.IsBalanced := by
  rw [continueStatement]
  refine .bind .nodeStart fun start => ?_
  refine .bind (.require _) fun _ => ?_
  refine .bind .get fun state => ?_
  refine .need (by rintro ⟨⟩) ?_
  refine .bind isBalanced_jumpLabel fun label => ?_
  refine .bind .semicolon fun _ => ?_
  exact .bind (.spanFrom _) fun span => .pure _

theorem isBalanced_breakStatement : breakStatement.IsBalanced := by
  rw [breakStatement]
  refine .bind .nodeStart fun start => ?_
  refine .bind (.require _) fun _ => ?_
  refine .bind .get fun state => ?_
  refine .need (by rintro ⟨⟩) ?_
  refine .bind isBalanced_jumpLabel fun label => ?_
  refine .bind .semicolon fun _ => ?_
  exact .bind (.spanFrom _) fun span => .pure _

theorem isBalanced_returnStatement (nested : self.IsBalanced) :
    (returnStatement self).IsBalanced := by
  rw [returnStatement]
  refine .bind .nodeStart fun start => ?_
  refine .bind .get fun state => ?_
  refine .need (by rintro ⟨⟩) ?_
  refine .bind (.require _) fun _ => ?_
  refine .bind .lookahead fun token => ?_
  refine .either (.pure _) (.map (isBalanced_expression nested)) fun argument => ?_
  refine .bind .semicolon fun _ => ?_
  exact .bind (.spanFrom _) fun span => .pure _

theorem isBalanced_withStatement (nested : self.IsBalanced) : (withStatement self).IsBalanced := by
  rw [withStatement]
  refine .bind .nodeStart fun start => ?_
  refine .bind .isStrict fun strict => ?_
  refine .forbid (by rintro ⟨⟩) ?_
  refine .bind (.require _) fun _ => ?_
  refine .bind (isBalanced_condition nested) fun object => ?_
  refine .bind nested.statement fun body => ?_
  exact .bind (.spanFrom _) fun span => .pure _

theorem isBalanced_caseTest (nested : self.IsBalanced) (seenDefault : Bool) :
    (caseTest self seenDefault).IsBalanced := by
  rw [caseTest]
  refine .bind .lookahead fun token => ?_
  split
  · exact .bind .consume fun _ => .map (isBalanced_expression nested)
  · refine .forbid (by rintro ⟨⟩) ?_
    exact .bind .consume fun _ => .pure _
  · exact .unexpected

theorem isBalanced_switchCases (nested : self.IsBalanced) (seenDefault : Bool) (turns : Nat) :
    (switchCases self seenDefault turns).IsBalanced := by
  induction turns generalizing seenDefault with
  | zero => exact .exhausted
  | succ turns ih =>
    rw [switchCases]
    refine .bind (.sees _) fun ended => ?_
    refine .choice (.pure _) ?_
    refine .bind .nodeStart fun start => ?_
    refine .bind (isBalanced_caseTest nested _) fun test => ?_
    refine .bind (.require _) fun _ => ?_
    refine .bind (isBalanced_statementList nested) fun consequent => ?_
    refine .bind (.spanFrom _) fun span => ?_
    exact .bind (ih _) fun others => .pure _

theorem isBalanced_switchStatement (nested : self.IsBalanced) :
    (switchStatement self).IsBalanced := by
  rw [switchStatement]
  refine .bind .nodeStart fun start => ?_
  refine .bind (.require _) fun _ => ?_
  refine .bind (isBalanced_condition nested) fun discriminant => ?_
  refine .bind (.require _) fun _ => ?_
  refine .bind (.inSwitch (isBalanced_switchCases nested _ _)) fun cases => ?_
  refine .bind (.require _) fun _ => ?_
  exact .bind (.spanFrom _) fun span => .pure _

theorem isBalanced_throwStatement (nested : self.IsBalanced) :
    (throwStatement self).IsBalanced := by
  rw [throwStatement]
  refine .bind .nodeStart fun start => ?_
  refine .bind (.require _) fun _ => ?_
  refine .bind .lookahead fun token => ?_
  refine .forbid (by rintro ⟨⟩) ?_
  refine .bind (isBalanced_expression nested) fun argument => ?_
  refine .bind .semicolon fun _ => ?_
  exact .bind (.spanFrom _) fun span => .pure _

theorem isBalanced_catchClause (nested : self.IsBalanced) : (catchClause? self).IsBalanced := by
  rw [catchClause?]
  refine .bind .nodeStart fun start => ?_
  refine .bind (.consumeIf _) fun found => ?_
  refine .choice ?_ (.pure _)
  refine .bind (.require _) fun _ => ?_
  refine .bind .bindingIdentifier fun parameter => ?_
  refine .bind (.require _) fun _ => ?_
  refine .bind (isBalanced_block nested) fun body => ?_
  exact .bind (.spanFrom _) fun span => .pure _

theorem isBalanced_tryStatement (nested : self.IsBalanced) : (tryStatement self).IsBalanced := by
  rw [tryStatement]
  refine .bind .nodeStart fun start => ?_
  refine .bind (.require _) fun _ => ?_
  refine .bind (isBalanced_block nested) fun body => ?_
  refine .bind (isBalanced_catchClause nested) fun handler => ?_
  refine .bind (.consumeIf _) fun found => ?_
  refine .either (.map (isBalanced_block nested)) (.pure _) fun finalizer => ?_
  refine .choice ?_ ?_
  · exact .bind .nodeStart fun place => .fail_bind (by rintro ⟨⟩) _
  · exact .bind (.spanFrom _) fun span => .pure _

theorem isBalanced_debuggerStatement : debuggerStatement.IsBalanced := by
  rw [debuggerStatement]
  refine .bind .nodeStart fun start => ?_
  refine .bind .consume fun _ => ?_
  refine .bind .semicolon fun _ => ?_
  exact .bind (.spanFrom _) fun span => .pure _

theorem isBalanced_labelledStatement (nested : self.IsBalanced) (start : Position)
    (label : Identifier) :
    (labelledStatement self start label).IsBalanced := by
  rw [labelledStatement]
  refine .bind .get fun state => ?_
  refine .forbid (by rintro ⟨⟩) ?_
  refine .bind .consume fun _ => ?_
  refine .bind (.withLabel _ nested.statement) fun body => ?_
  exact .bind (.spanFrom _) fun span => .pure _

theorem isBalanced_expressionStatement (nested : self.IsBalanced) :
    (expressionStatement self).IsBalanced := by
  rw [expressionStatement]
  refine .bind .lookahead fun opening => ?_
  dsimp only
  refine .bind (isBalanced_expression nested) fun value => ?_
  refine .bind .kind fun kind => ?_
  split
  · exact isBalanced_labelledStatement nested _ _
  · refine .bind .semicolon fun _ => ?_
    exact .bind (.spanFrom _) fun span => .pure _

theorem isBalanced_statement (nested : self.IsBalanced) : (statement self).IsBalanced := by
  rw [statement]
  refine .bind .lookahead fun token => ?_
  split
  · exact .map (isBalanced_block nested)
  · exact .bind .consume fun _ => .pure _
  · split
    · exact isBalanced_variableStatement nested
    · exact isBalanced_ifStatement nested
    · exact isBalanced_whileStatement nested
    · exact isBalanced_doWhileStatement nested
    · exact isBalanced_forStatement nested
    · exact isBalanced_continueStatement
    · exact isBalanced_breakStatement
    · exact isBalanced_returnStatement nested
    · exact isBalanced_withStatement nested
    · exact isBalanced_switchStatement nested
    · exact isBalanced_throwStatement nested
    · exact isBalanced_tryStatement nested
    · exact isBalanced_debuggerStatement
    · exact isBalanced_expressionStatement nested
  · exact isBalanced_expressionStatement nested

theorem isBalanced_listItem (nested : self.IsBalanced) : (listItem self).IsBalanced := by
  rw [listItem]
  refine .bind (.sees _) fun function => ?_
  exact .choice (isBalanced_functionDeclaration nested) (isBalanced_statement nested)

/-- A script, from its first token on, records that it has ended. -/
theorem isComposed_wholeBody (nested : self.IsBalanced) : (wholeBody self).IsComposed := by
  rw [wholeBody]
  refine .bind (isComposed_directives nested.statement.isComposed _) fun opening => ?_
  refine .bind (IsBalanced.itemsUntil _ nested.listItem _).isComposed fun others => ?_
  refine .bind (.stay fun state => ⟨_, _, rfl, rfl⟩) fun _ => ?_
  exact .bind .lookahead fun token => .pure _

end Grammar

/-- The constructs by which the grammar is recursive are balanced, however deeply they are nested.
-/
theorem Nonterminals.isBalanced_ofBudget (budget : Nat) : (ofBudget budget).IsBalanced := by
  induction budget with
  | zero =>
    exact
      { expression := .exhausted
        assignment := .exhausted
        unary := .exhausted
        operators := fun _ _ _ => .exhausted
        callee := .exhausted
        statement := .exhausted
        listItem := .exhausted }
  | succ budget ih =>
    exact
      { expression := Grammar.isBalanced_expression ih
        assignment := Grammar.isBalanced_assignment ih
        unary := Grammar.isBalanced_unary ih
        operators := fun _ _ _ => Grammar.isBalanced_operators ih _ _ _ _
        callee := Grammar.isBalanced_leftHandSide ih false
        statement := Grammar.isBalanced_statement ih
        listItem := Grammar.isBalanced_listItem ih }

namespace Grammar

open Parse

/-- The productions of functions, expressions and statements over some constructs of the grammar:
all but the one of directives. -/
inductive IsProduction (self : Nonterminals) : {α : Type} → Parse α → Prop where
  | identifierReference : IsProduction self identifierReference
  | bindingIdentifier : IsProduction self bindingIdentifier
  | identifierName : IsProduction self identifierName
  | statementList : IsProduction self (statementList self)
  | formalParameters : IsProduction self (formalParameters self)
  | functionBody : IsProduction self (functionBody self)
  | functionExpression : IsProduction self (functionExpression self)
  | functionDeclaration : IsProduction self (functionDeclaration self)
  | literal (value : Literal) : IsProduction self (literal value)
  | regularExpression (front : List Char) : IsProduction self (regularExpression front)
  | arguments : IsProduction self (arguments self)
  | parenthesized : IsProduction self (parenthesized self)
  | element : IsProduction self (element self)
  | arrayLiteral : IsProduction self (arrayLiteral self)
  | propertyKey : IsProduction self propertyKey
  | accessorFunction (kind : PropertyKind) : IsProduction self (accessorFunction self kind)
  | propertyValue (start : Position) (key : PropertyKey) :
      IsProduction self (propertyValue self start key)
  | property : IsProduction self (property self)
  | objectLiteral : IsProduction self (objectLiteral self)
  | primary : IsProduction self (primary self)
  | newExpression : IsProduction self (newExpression self)
  | suffixes (withCalls : Bool) (start : Position) (turns : Nat) (value : Expression) :
      IsProduction self (suffixes self withCalls start turns value)
  | leftHandSide (withCalls : Bool) : IsProduction self (leftHandSide self withCalls)
  | update : IsProduction self (update self)
  | unary : IsProduction self (unary self)
  | rightOperand (start : Position) (tier turns : Nat) (right : Expression) :
      IsProduction self (rightOperand self start tier turns right)
  | operators (start : Position) (tier turns : Nat) (left : Expression) :
      IsProduction self (operators self start tier turns left)
  | binary : IsProduction self (binary self)
  | assignment : IsProduction self (assignment self)
  | expression : IsProduction self (expression self)
  | block : IsProduction self (block self)
  | variableDeclarator : IsProduction self (variableDeclarator self)
  | variableDeclaration : IsProduction self (variableDeclaration self)
  | variableStatement : IsProduction self (variableStatement self)
  | condition : IsProduction self (condition self)
  | loopBody : IsProduction self (loopBody self)
  | ifStatement : IsProduction self (ifStatement self)
  | whileStatement : IsProduction self (whileStatement self)
  | doWhileStatement : IsProduction self (doWhileStatement self)
  | forHead : IsProduction self (forHead? self)
  | forInRest (start : Position) (left : ForHead) : IsProduction self (forInRest self start left)
  | optionalExpression (ending : Punctuator) : IsProduction self (optionalExpression self ending)
  | forRest (start : Position) (init : Option ForHead) : IsProduction self (forRest self start init)
  | forStatement : IsProduction self (forStatement self)
  | jumpLabel : IsProduction self jumpLabel
  | continueStatement : IsProduction self continueStatement
  | breakStatement : IsProduction self breakStatement
  | returnStatement : IsProduction self (returnStatement self)
  | withStatement : IsProduction self (withStatement self)
  | caseTest (seenDefault : Bool) : IsProduction self (caseTest self seenDefault)
  | switchCases (seenDefault : Bool) (turns : Nat) :
      IsProduction self (switchCases self seenDefault turns)
  | switchStatement : IsProduction self (switchStatement self)
  | throwStatement : IsProduction self (throwStatement self)
  | catchClause : IsProduction self (catchClause? self)
  | tryStatement : IsProduction self (tryStatement self)
  | debuggerStatement : IsProduction self debuggerStatement
  | labelledStatement (start : Position) (label : Identifier) :
      IsProduction self (labelledStatement self start label)
  | expressionStatement : IsProduction self (expressionStatement self)
  | statement : IsProduction self (statement self)
  | listItem : IsProduction self (listItem self)

/-- Every production is balanced. -/
theorem IsProduction.isBalanced {α : Type} {self : Nonterminals} {action : Parse α}
    (production : IsProduction self action) (nested : self.IsBalanced) : action.IsBalanced := by
  cases production with
  | identifierReference => exact .identifierReference
  | bindingIdentifier => exact .bindingIdentifier
  | identifierName => exact .identifierName
  | statementList => exact isBalanced_statementList nested
  | formalParameters => exact isBalanced_formalParameters
  | functionBody => exact isBalanced_functionBody nested
  | functionExpression => exact isBalanced_functionExpression nested
  | functionDeclaration => exact isBalanced_functionDeclaration nested
  | literal => exact isBalanced_literal _
  | regularExpression => exact isBalanced_regularExpression _
  | arguments => exact isBalanced_arguments nested
  | parenthesized => exact isBalanced_parenthesized nested
  | element => exact isBalanced_element nested
  | arrayLiteral => exact isBalanced_arrayLiteral nested
  | propertyKey => exact isBalanced_propertyKey
  | accessorFunction => exact isBalanced_accessorFunction nested _
  | propertyValue => exact isBalanced_propertyValue nested _ _
  | property => exact isBalanced_property nested
  | objectLiteral => exact isBalanced_objectLiteral nested
  | primary => exact isBalanced_primary nested
  | newExpression => exact isBalanced_newExpression nested
  | suffixes => exact isBalanced_suffixes nested _ _ _ _
  | leftHandSide => exact isBalanced_leftHandSide nested _
  | update => exact isBalanced_update nested
  | unary => exact isBalanced_unary nested
  | rightOperand => exact isBalanced_rightOperand nested _ _ _ _
  | operators => exact isBalanced_operators nested _ _ _ _
  | binary => exact isBalanced_binary nested
  | assignment => exact isBalanced_assignment nested
  | expression => exact isBalanced_expression nested
  | block => exact isBalanced_block nested
  | variableDeclarator => exact isBalanced_variableDeclarator nested
  | variableDeclaration => exact isBalanced_variableDeclaration nested
  | variableStatement => exact isBalanced_variableStatement nested
  | condition => exact isBalanced_condition nested
  | loopBody => exact isBalanced_loopBody nested
  | ifStatement => exact isBalanced_ifStatement nested
  | whileStatement => exact isBalanced_whileStatement nested
  | doWhileStatement => exact isBalanced_doWhileStatement nested
  | forHead => exact isBalanced_forHead nested
  | forInRest => exact isBalanced_forInRest nested _ _
  | optionalExpression => exact isBalanced_optionalExpression nested _
  | forRest => exact isBalanced_forRest nested _ _
  | forStatement => exact isBalanced_forStatement nested
  | jumpLabel => exact isBalanced_jumpLabel
  | continueStatement => exact isBalanced_continueStatement
  | breakStatement => exact isBalanced_breakStatement
  | returnStatement => exact isBalanced_returnStatement nested
  | withStatement => exact isBalanced_withStatement nested
  | caseTest => exact isBalanced_caseTest nested _
  | switchCases => exact isBalanced_switchCases nested _ _
  | switchStatement => exact isBalanced_switchStatement nested
  | throwStatement => exact isBalanced_throwStatement nested
  | catchClause => exact isBalanced_catchClause nested
  | tryStatement => exact isBalanced_tryStatement nested
  | debuggerStatement => exact isBalanced_debuggerStatement
  | labelledStatement => exact isBalanced_labelledStatement nested _ _
  | expressionStatement => exact isBalanced_expressionStatement nested
  | statement => exact isBalanced_statement nested
  | listItem => exact isBalanced_listItem nested

/-- The functions of the grammar: its productions at any depth, the directives, the whole body of a
script, and those by which all of them consume tokens. -/
inductive IsFunction : {α : Type} → Parse α → Prop where
  | scan {action : Parse Unit} : action.Scans → IsFunction action
  | require (expected : Kind) : IsFunction (Parse.require expected)
  | consumeIf (expected : Kind) : IsFunction (Parse.consumeIf expected)
  | semicolon : IsFunction Parse.semicolon
  | production {α : Type} {production : Parse α} (budget : Nat) :
      IsProduction (.ofBudget budget) production → IsFunction production
  | directives (budget turns : Nat) :
      IsFunction (directives (Nonterminals.ofBudget budget).statement turns)
  | wholeBody (budget : Nat) : IsFunction (wholeBody (.ofBudget budget))

theorem IsFunction.isComposed {α : Type} {action : Parse α} (function : IsFunction action) :
    action.IsComposed := by
  cases function with
  | scan scans => exact scans.isComposed
  | require expected => exact (IsBalanced.require expected).isComposed
  | consumeIf expected => exact (IsBalanced.consumeIf expected).isComposed
  | semicolon => exact IsBalanced.semicolon.isComposed
  | production budget production =>
    exact (production.isBalanced (Nonterminals.isBalanced_ofBudget budget)).isComposed
  | directives budget =>
    exact isComposed_directives (Nonterminals.isBalanced_ofBudget budget).statement.isComposed _
  | wholeBody budget => exact isComposed_wholeBody (Nonterminals.isBalanced_ofBudget budget)

end Grammar

end EcmaScript
