import EcmaScript.Proofs.ExpressionFaultPlaces
import EcmaScript.Proofs.ScriptFollowing

/-!
# Faults of statements and scripts

There is one lemma for each production of statements. The faults about jumps, labels and the heads
of loops point at the first token of a statement, at a name or at what a loop assigns to, and all of
these begin at tokens. The productions are tied together by induction on the budget, so a script
points at one of its tokens whenever it is refused by the grammar.
-/

namespace EcmaScript

/-- Where the first clause of a loop begins. -/
def ForHead.start : ForHead → Position
  | .declaration declared => declared.span.start
  | .expression value => value.span.start

namespace Grammar

open Parse

variable {self : Nonterminals} {known : Set Position}

theorem blames_block (nested : self.Blames) : (block self).Blames known nowhere := by
  rw [block]
  refine .skip (.ignored .nodeStart) fun start => ?_
  refine .skip (.require _) fun _ => ?_
  refine .skip (blames_statementList nested) fun body => ?_
  refine .skip (.require _) fun _ => ?_
  exact .skip (.spanned _) fun span => .done _

theorem blames_variableDeclarator (nested : self.Blames) :
    (variableDeclarator self).Blames known nowhere := by
  rw [variableDeclarator]
  refine .skip (.ignored .nodeStart) fun start => ?_
  refine .skip (.ignored .bindingIdentifier) fun name => ?_
  refine .skip (.consumeIf _) fun initialized => ?_
  refine .option (.wrapped nested.assignment) (.done _) fun value => ?_
  exact .skip (.spanned _) fun span => .done _

theorem blames_variableDeclaration (nested : self.Blames) :
    (variableDeclaration self).Blames known fun declaration => {declaration.span.start} := by
  rw [variableDeclaration]
  refine .bind .nodeStart fun start => ?_
  refine .skip (.require _) fun _ => ?_
  refine .skip (.separated (blames_variableDeclarator nested) _) fun declarators => ?_
  exact .bind (.spanFrom (.inr rfl)) fun span => .pure Set.subset_union_right

theorem blames_variableStatement (nested : self.Blames) :
    (variableStatement self).Blames known nowhere := by
  rw [variableStatement]
  refine .skip (.ignored .nodeStart) fun start => ?_
  refine .skip (.ignored (blames_variableDeclaration nested)) fun declaration => ?_
  refine .skip .semicolon fun _ => ?_
  exact .skip (.spanned _) fun span => .done _

theorem blames_condition (nested : self.Blames) : (condition self).Blames known nowhere := by
  rw [condition]
  refine .skip (.require _) fun _ => ?_
  refine .skip (.ignored (blames_expression nested)) fun test => ?_
  exact .skip (.require _) fun _ => .done _

theorem blames_loopBody (nested : self.Blames) : (loopBody self).Blames known nowhere :=
  .inLoop nested.statement

theorem blames_ifStatement (nested : self.Blames) : (ifStatement self).Blames known nowhere := by
  rw [ifStatement]
  refine .skip (.ignored .nodeStart) fun start => ?_
  refine .skip (.require _) fun _ => ?_
  refine .skip (blames_condition nested) fun test => ?_
  refine .skip nested.statement fun consequent => ?_
  refine .skip (.consumeIf _) fun found => ?_
  refine .option (.wrapped nested.statement) (.done _) fun alternate => ?_
  exact .skip (.spanned _) fun span => .done _

theorem blames_whileStatement (nested : self.Blames) :
    (whileStatement self).Blames known nowhere := by
  rw [whileStatement]
  refine .skip (.ignored .nodeStart) fun start => ?_
  refine .skip (.require _) fun _ => ?_
  refine .skip (blames_condition nested) fun test => ?_
  refine .skip (blames_loopBody nested) fun body => ?_
  exact .skip (.spanned _) fun span => .done _

theorem blames_doWhileStatement (nested : self.Blames) :
    (doWhileStatement self).Blames known nowhere := by
  rw [doWhileStatement]
  refine .skip (.ignored .nodeStart) fun start => ?_
  refine .skip (.require _) fun _ => ?_
  refine .skip (blames_loopBody nested) fun body => ?_
  refine .skip (.require _) fun _ => ?_
  refine .skip (blames_condition nested) fun test => ?_
  refine .skip (.consumeIf _) fun _ => ?_
  exact .skip (.spanned _) fun span => .done _

/-- The first clause of a loop shows where it begins. -/
theorem blames_forHead (nested : self.Blames) :
    (forHead? self).Blames known fun head? =>
      {position | head?.map ForHead.start = some position} := by
  rw [forHead?]
  refine .skip (.ignored .lookahead) fun token => ?_
  split
  · exact .pure (by rintro _ ⟨⟩)
  · refine .bind (.withoutIn (blames_variableDeclaration nested)) fun declaration => .pure ?_
    rintro _ ⟨⟩
    exact .inr rfl
  · refine .bind (.withoutIn (blames_expression nested)) fun value => .pure ?_
    rintro _ ⟨⟩
    exact .inr rfl

theorem blames_checkForInTarget {head : ForHead} (member : head.start ∈ known) :
    (checkForInTarget head).Blames known nowhere := by
  unfold checkForInTarget
  split
  · exact .choice (.done _) (.fail _ member)
  · exact .need member (blames_checkTarget member)

theorem blames_forInRest (nested : self.Blames) (start : Position) (left : ForHead) :
    (forInRest self start left).Blames known nowhere := by
  rw [forInRest]
  refine .skip .consume fun _ => ?_
  refine .skip (.ignored (blames_expression nested)) fun right => ?_
  refine .skip (.require _) fun _ => ?_
  refine .skip (blames_loopBody nested) fun body => ?_
  exact .skip (.spanned _) fun span => .done _

theorem blames_optionalExpression (nested : self.Blames) (ending : Punctuator) :
    (optionalExpression self ending).Blames known nowhere := by
  rw [optionalExpression]
  refine .skip (.sees _) fun ended => ?_
  exact .choice (.done _) (.wrapped (blames_expression nested))

theorem blames_forRest (nested : self.Blames) (start : Position) (init : Option ForHead) :
    (forRest self start init).Blames known nowhere := by
  rw [forRest]
  refine .skip (.require _) fun _ => ?_
  refine .skip (blames_optionalExpression nested _) fun test => ?_
  refine .skip (.require _) fun _ => ?_
  refine .skip (blames_optionalExpression nested _) fun step => ?_
  refine .skip (.require _) fun _ => ?_
  refine .skip (blames_loopBody nested) fun body => ?_
  exact .skip (.spanned _) fun span => .done _

theorem blames_forStatement (nested : self.Blames) :
    (forStatement self).Blames known nowhere := by
  rw [forStatement]
  refine .skip (.ignored .nodeStart) fun start => ?_
  refine .skip (.require _) fun _ => ?_
  refine .skip (.require _) fun _ => ?_
  refine .bind (blames_forHead nested) fun init => ?_
  refine .skip (.sees _) fun isIn => ?_
  split
  · refine .skip (blames_checkForInTarget (.inr rfl)) fun _ => ?_
    exact blames_forInRest nested _ _
  · exact blames_forRest nested _ _

theorem blames_jumpLabel : jumpLabel.Blames known nowhere := by
  rw [jumpLabel]
  refine .skip (.ignored .lookahead) fun token => ?_
  refine .choice (.done _) ?_
  refine .bind .identifierReference fun label => ?_
  refine .skip .get fun state => ?_
  exact .need (.inr rfl) (.done _)

theorem blames_continueStatement : continueStatement.Blames known nowhere := by
  rw [continueStatement]
  refine .bind .nodeStart fun start => ?_
  refine .skip (.require _) fun _ => ?_
  refine .skip .get fun state => ?_
  refine .need (.inr rfl) ?_
  refine .skip blames_jumpLabel fun label => ?_
  refine .skip .semicolon fun _ => ?_
  exact .skip (.spanned _) fun span => .done _

theorem blames_breakStatement : breakStatement.Blames known nowhere := by
  rw [breakStatement]
  refine .bind .nodeStart fun start => ?_
  refine .skip (.require _) fun _ => ?_
  refine .skip .get fun state => ?_
  refine .need (.inr rfl) ?_
  refine .skip blames_jumpLabel fun label => ?_
  refine .skip .semicolon fun _ => ?_
  exact .skip (.spanned _) fun span => .done _

theorem blames_returnStatement (nested : self.Blames) :
    (returnStatement self).Blames known nowhere := by
  rw [returnStatement]
  refine .bind .nodeStart fun start => ?_
  refine .skip .get fun state => ?_
  refine .need (.inr rfl) ?_
  refine .skip (.require _) fun _ => ?_
  refine .skip (.ignored .lookahead) fun token => ?_
  refine .option (.done _) (.wrapped (blames_expression nested)) fun argument => ?_
  refine .skip .semicolon fun _ => ?_
  exact .skip (.spanned _) fun span => .done _

theorem blames_withStatement (nested : self.Blames) :
    (withStatement self).Blames known nowhere := by
  rw [withStatement]
  refine .bind .nodeStart fun start => ?_
  refine .skip .isStrict fun strict => ?_
  refine .refuse (.inr rfl) ?_
  refine .skip (.require _) fun _ => ?_
  refine .skip (blames_condition nested) fun object => ?_
  refine .skip nested.statement fun body => ?_
  exact .skip (.spanned _) fun span => .done _

theorem blames_caseTest (nested : self.Blames) (seenDefault : Bool) :
    (caseTest self seenDefault).Blames known nowhere := by
  rw [caseTest]
  refine .bind .lookahead fun token => ?_
  split
  · exact .skip .consume fun _ => .wrapped (blames_expression nested)
  · refine .refuse (.inr rfl) ?_
    exact .skip .consume fun _ => .done _
  · exact .unexpected

theorem blames_switchCases (nested : self.Blames) (seenDefault : Bool) (turns : Nat) :
    (switchCases self seenDefault turns).Blames known nowhere := by
  induction turns generalizing seenDefault with
  | zero => exact .exhausted
  | succ turns ih =>
    rw [switchCases]
    refine .skip (.sees _) fun ended => ?_
    refine .choice (.done _) ?_
    refine .skip (.ignored .nodeStart) fun start => ?_
    refine .skip (blames_caseTest nested _) fun test => ?_
    refine .skip (.require _) fun _ => ?_
    refine .skip (blames_statementList nested) fun consequent => ?_
    refine .skip (.spanned _) fun span => ?_
    exact .skip (ih _) fun others => .done _

theorem blames_switchStatement (nested : self.Blames) :
    (switchStatement self).Blames known nowhere := by
  rw [switchStatement]
  refine .skip (.ignored .nodeStart) fun start => ?_
  refine .skip (.require _) fun _ => ?_
  refine .skip (blames_condition nested) fun discriminant => ?_
  refine .skip (.require _) fun _ => ?_
  refine .skip (.inSwitch (blames_switchCases nested _ _)) fun cases => ?_
  refine .skip (.require _) fun _ => ?_
  exact .skip (.spanned _) fun span => .done _

theorem blames_throwStatement (nested : self.Blames) :
    (throwStatement self).Blames known nowhere := by
  rw [throwStatement]
  refine .skip (.ignored .nodeStart) fun start => ?_
  refine .skip (.require _) fun _ => ?_
  refine .bind .lookahead fun token => ?_
  refine .refuse (.inr rfl) ?_
  refine .skip (.ignored (blames_expression nested)) fun argument => ?_
  refine .skip .semicolon fun _ => ?_
  exact .skip (.spanned _) fun span => .done _

theorem blames_catchClause (nested : self.Blames) : (catchClause? self).Blames known nowhere := by
  rw [catchClause?]
  refine .skip (.ignored .nodeStart) fun start => ?_
  refine .skip (.consumeIf _) fun found => ?_
  refine .choice ?_ (.done _)
  refine .skip (.require _) fun _ => ?_
  refine .skip (.ignored .bindingIdentifier) fun parameter => ?_
  refine .skip (.require _) fun _ => ?_
  refine .skip (blames_block nested) fun body => ?_
  exact .skip (.spanned _) fun span => .done _

theorem blames_tryStatement (nested : self.Blames) :
    (tryStatement self).Blames known nowhere := by
  rw [tryStatement]
  refine .skip (.ignored .nodeStart) fun start => ?_
  refine .skip (.require _) fun _ => ?_
  refine .skip (blames_block nested) fun body => ?_
  refine .skip (blames_catchClause nested) fun handler => ?_
  refine .skip (.consumeIf _) fun found => ?_
  refine .option (.wrapped (blames_block nested)) (.done _) fun finalizer => ?_
  refine .choice ?_ ?_
  · exact .bind .nodeStart fun place => .fail_bind _ (.inr rfl)
  · exact .skip (.spanned _) fun span => .done _

theorem blames_debuggerStatement : debuggerStatement.Blames known nowhere := by
  rw [debuggerStatement]
  refine .skip (.ignored .nodeStart) fun start => ?_
  refine .skip .consume fun _ => ?_
  refine .skip .semicolon fun _ => ?_
  exact .skip (.spanned _) fun span => .done _

theorem blames_labelledStatement (nested : self.Blames) (start : Position) {label : Identifier}
    (member : label.span.start ∈ known) :
    (labelledStatement self start label).Blames known nowhere := by
  rw [labelledStatement]
  refine .skip .get fun state => ?_
  refine .refuse member ?_
  refine .skip .consume fun _ => ?_
  refine .skip (.withLabel _ nested.statement) fun body => ?_
  exact .skip (.spanned _) fun span => .done _

/-- An expression that turns out to be a label has been read before the colon is seen. -/
theorem blames_expressionStatement (nested : self.Blames) :
    (expressionStatement self).Blames known nowhere := by
  rw [expressionStatement]
  refine .skip (.ignored .lookahead) fun opening => ?_
  dsimp only
  refine .bind (blames_expression nested) fun value => ?_
  refine .skip .kind fun kind => ?_
  split
  · exact blames_labelledStatement nested _ (.inr rfl)
  · refine .skip .semicolon fun _ => ?_
    exact .skip (.spanned _) fun span => .done _

theorem blames_statement (nested : self.Blames) : (statement self).Blames known nowhere := by
  rw [statement]
  refine .skip (.ignored .lookahead) fun token => ?_
  split
  · exact .wrapped (blames_block nested)
  · exact .skip .consume fun _ => .done _
  · split
    · exact blames_variableStatement nested
    · exact blames_ifStatement nested
    · exact blames_whileStatement nested
    · exact blames_doWhileStatement nested
    · exact blames_forStatement nested
    · exact blames_continueStatement
    · exact blames_breakStatement
    · exact blames_returnStatement nested
    · exact blames_withStatement nested
    · exact blames_switchStatement nested
    · exact blames_throwStatement nested
    · exact blames_tryStatement nested
    · exact blames_debuggerStatement
    · exact blames_expressionStatement nested
  · exact blames_expressionStatement nested

theorem blames_listItem (nested : self.Blames) : (listItem self).Blames known nowhere := by
  rw [listItem]
  refine .skip (.sees _) fun function => ?_
  exact .choice (blames_functionDeclaration nested) (blames_statement nested)

theorem blames_topLevel (nested : self.Blames) (turns : Nat) :
    (topLevel self turns).Blames known nowhere := by
  rw [topLevel]
  refine .skip (blames_directives nested.statement _) fun opening => ?_
  exact .skip (.itemsUntil _ nested.listItem _) fun others => .done _

end Grammar

/-- Whatever is nested, and however deeply, it points at tokens with its faults. -/
theorem Nonterminals.blames_ofBudget (budget : Nat) : (ofBudget budget).Blames := by
  induction budget with
  | zero =>
    exact
      { expression := .exhausted
        assignment := .exhausted
        unary := .exhausted
        operators := fun _ _ _ => .exhausted
        callee := .exhausted
        statement := .exhausted
        listItem := .exhausted }
  | succ budget ih =>
    exact
      { expression := Grammar.blames_expression ih
        assignment := Grammar.blames_assignment ih
        unary := Grammar.blames_unary ih
        operators := fun tier member begins =>
          Grammar.blames_operators ih member tier budget begins
        callee := Grammar.blames_leftHandSide ih false
        statement := Grammar.blames_statement ih
        listItem := Grammar.blames_listItem ih }

end EcmaScript
