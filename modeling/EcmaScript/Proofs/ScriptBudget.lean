import EcmaScript.Proofs.ExpressionBudget
import EcmaScript.Proofs.ScriptFollowing

/-!
# No text runs out of the budget

Statements settle within the budget as expressions do, and so do all constructs of the grammar, by
induction on it. The budget of a script exceeds the length of its text, which is why a parse never
ends with the fault that its constructs are nested too deeply.
-/

namespace EcmaScript

open Parse

namespace Grammar

variable {self : Nonterminals} {budget : Nat} {state : State}

theorem settles_block (nested : self.Settles budget) (enough : state.ahead ≤ budget) :
    (block self).Settles state 1 := by
  rw [block, settles_nodeStart]
  apply Settles.require
  intro next _
  apply (settles_statementList nested (by omega)).bind
  intro body after _
  apply Settles.require
  intro last _
  rw [settles_spanFrom]
  exact .pure _

theorem settles_variableDeclarator (nested : self.Settles budget) (enough : state.ahead ≤ budget) :
    (variableDeclarator self).Settles state 1 := by
  rw [variableDeclarator, settles_nodeStart]
  apply Settles.bindingIdentifier.bind
  intro name next _
  apply Settles.consumeIf
  · intro after _
    rw [if_pos rfl, bind_map_left]
    apply (nested.assignment (by omega)).bind
    intro value last _
    rw [settles_spanFrom]
    exact .pure _
  · rw [if_neg Bool.false_ne_true, pure_bind, settles_spanFrom]
    exact .pure _

theorem settles_variableDeclaration (nested : self.Settles budget)
    (enough : state.ahead ≤ budget) : (variableDeclaration self).Settles state 1 := by
  rw [variableDeclaration, settles_nodeStart]
  apply Settles.require
  intro next _
  have declarators : (separated (variableDeclarator self) self.turns).Settles next 1 :=
    .separated (fun _ _ => settles_variableDeclarator nested (by omega))
      (by rw [nested.turns]; omega)
  apply declarators.bind
  intro declarators last _
  rw [settles_spanFrom]
  exact .pure _

theorem settles_variableStatement (nested : self.Settles budget) (enough : state.ahead ≤ budget) :
    (variableStatement self).Settles state 1 := by
  rw [variableStatement, settles_nodeStart]
  apply (settles_variableDeclaration nested enough).bind
  intro declaration next _
  apply Settles.semicolon
  intro last _
  rw [settles_spanFrom]
  exact .pure _

theorem settles_condition (nested : self.Settles budget) (enough : state.ahead ≤ budget) :
    (condition self).Settles state 1 := by
  rw [condition]
  apply Settles.require
  intro next _
  apply (settles_expression nested (by omega)).bind
  intro test after _
  apply Settles.require
  intro last _
  exact .pure _

theorem settles_loopBody (nested : self.Settles budget) (enough : state.ahead < budget) :
    (loopBody self).Settles state 1 := by
  rw [loopBody, Parse.inLoop]
  apply Settles.inContext
  intro inside same
  exact nested.statement (by omega)

theorem settles_ifStatement (nested : self.Settles budget) (enough : state.ahead ≤ budget) :
    (ifStatement self).Settles state 1 := by
  rw [ifStatement, settles_nodeStart]
  apply Settles.require
  intro next _
  apply (settles_condition nested (by omega)).bind
  intro test inner _
  apply (nested.statement (by omega)).bind
  intro consequent after _
  apply Settles.consumeIf
  · intro otherwise _
    rw [if_pos rfl, bind_map_left]
    apply (nested.statement (by omega)).bind
    intro alternate last _
    rw [settles_spanFrom]
    exact .pure _
  · rw [if_neg Bool.false_ne_true, pure_bind, settles_spanFrom]
    exact .pure _

theorem settles_whileStatement (nested : self.Settles budget) (enough : state.ahead ≤ budget) :
    (whileStatement self).Settles state 1 := by
  rw [whileStatement, settles_nodeStart]
  apply Settles.require
  intro next _
  apply (settles_condition nested (by omega)).bind
  intro test after _
  apply (settles_loopBody nested (by omega)).bind
  intro body last _
  rw [settles_spanFrom]
  exact .pure _

theorem settles_doWhileStatement (nested : self.Settles budget) (enough : state.ahead ≤ budget) :
    (doWhileStatement self).Settles state 1 := by
  rw [doWhileStatement, settles_nodeStart]
  apply Settles.require
  intro next _
  apply (settles_loopBody nested (by omega)).bind
  intro body after _
  apply Settles.require
  intro inner _
  apply (settles_condition nested (by omega)).bind
  intro test behind _
  apply Settles.consumeIf
  · intro last _
    rw [settles_spanFrom]
    exact .pure _
  · rw [settles_spanFrom]
    exact .pure _

theorem settles_forHead? (nested : self.Settles budget) (enough : state.ahead ≤ budget) :
    (forHead? self).Settles state 0 := by
  rw [forHead?, settles_lookahead]
  split
  · exact .pure _
  · have declaration : (withoutIn (variableDeclaration self)).Settles state 1 :=
      .inContext fun _ _ => settles_variableDeclaration nested (by omega)
    apply declaration.bind
    intro declaration next _
    exact .pure _
  · have target : (withoutIn (expression self)).Settles state 1 :=
      .inContext fun _ _ => settles_expression nested (by omega)
    apply target.bind
    intro target next _
    exact .pure _

/-- To check what a loop assigns to reads nothing. -/
theorem settles_checkForInTarget {α : Type} {head : ForHead} {rest : Unit → Parse α} {least : Nat}
    (settles : (rest ()).Settles state least) :
    (checkForInTarget head >>= rest).Settles state least := by
  unfold checkForInTarget
  split
  · split
    · rwa [pure_bind]
    · exact .fail_bind (by rintro ⟨⟩)
  · split
    · exact settles_checkTarget settles
    · rw [bind_assoc]
      exact .fail_bind (by rintro ⟨⟩)

theorem settles_forInRest (nested : self.Settles budget) {start : Position} {left : ForHead}
    (inside : state.lookahead.lexeme ≠ .endOfFile) (enough : state.ahead ≤ budget) :
    (forInRest self start left).Settles state 1 := by
  rw [forInRest]
  apply Settles.consumes inside
  intro next _
  apply (settles_expression nested (by omega)).bind
  intro right after _
  apply Settles.require
  intro behind _
  apply (settles_loopBody nested (by omega)).bind
  intro body last _
  rw [settles_spanFrom]
  exact .pure _

theorem settles_optionalExpression (nested : self.Settles budget) {ending : Punctuator}
    (enough : state.ahead ≤ budget) : (optionalExpression self ending).Settles state 0 := by
  rw [optionalExpression, settles_sees]
  split
  · exact .pure _
  · exact (Settles.map (settles_expression nested enough)).mono (Nat.zero_le 1)

theorem settles_forRest (nested : self.Settles budget) {start : Position} {init : Option ForHead}
    (enough : state.ahead ≤ budget) : (forRest self start init).Settles state 1 := by
  rw [forRest]
  apply Settles.require
  intro next _
  apply (settles_optionalExpression nested (by omega)).bind
  intro test after _
  apply Settles.require
  intro middle _
  apply (settles_optionalExpression nested (by omega)).bind
  intro step behind _
  apply Settles.require
  intro inner _
  apply (settles_loopBody nested (by omega)).bind
  intro body last _
  rw [settles_spanFrom]
  exact .pure _

theorem settles_forStatement (nested : self.Settles budget) (enough : state.ahead ≤ budget) :
    (forStatement self).Settles state 1 := by
  rw [forStatement, settles_nodeStart]
  apply Settles.require
  intro next _
  apply Settles.require
  intro inner _
  apply (settles_forHead? nested (by omega)).bind
  intro init after _
  rw [settles_sees]
  split
  · rename_i found
    apply settles_checkForInTarget
    have inside := Alignment.lexeme_ne_endOfFile (eq_of_beq found)
    exact (settles_forInRest nested inside (by omega)).mono (Nat.zero_le 1)
  · exact (settles_forRest nested (by omega)).mono (Nat.zero_le 1)

theorem settles_jumpLabel : jumpLabel.Settles state 0 := by
  rw [jumpLabel, settles_lookahead]
  split
  · exact .pure _
  · apply Settles.identifierReference.bind
    intro label next _
    rw [settles_get]
    dsimp only
    split
    · exact .pure _
    · exact .fail_bind (by rintro ⟨⟩)

theorem settles_jump {start : Position} {jump : Option Identifier → Span → Statement} :
    (jumpLabel >>= fun label => semicolon >>= fun _ => spanFrom start >>= fun span =>
      pure (jump label span)).Settles state 0 := by
  apply settles_jumpLabel.bind
  intro label next _
  apply Settles.semicolon
  intro last _
  rw [settles_spanFrom]
  exact .pure _

theorem settles_continueStatement : continueStatement.Settles state 1 := by
  rw [continueStatement, settles_nodeStart]
  apply Settles.require
  intro next _
  rw [settles_get]
  dsimp only
  split
  · exact settles_jump
  · exact .fail_bind (by rintro ⟨⟩)

theorem settles_breakStatement : breakStatement.Settles state 1 := by
  rw [breakStatement, settles_nodeStart]
  apply Settles.require
  intro next _
  rw [settles_get]
  dsimp only
  split
  · exact settles_jump
  · exact .fail_bind (by rintro ⟨⟩)

theorem settles_returnStatement (nested : self.Settles budget) (enough : state.ahead ≤ budget) :
    (returnStatement self).Settles state 1 := by
  rw [returnStatement, settles_nodeStart, settles_get]
  dsimp only
  split
  · apply Settles.require
    intro next _
    have rest : ∀ (argument : Option Expression) (next : State),
        (do
          semicolon
          return .returnValue argument (← spanFrom state.lookahead.span.start) :
          Parse Statement).Settles next 0 := by
      intro argument next
      apply Settles.semicolon
      intro last _
      rw [settles_spanFrom]
      exact .pure _
    rw [settles_lookahead]
    split
    · rw [pure_bind]
      exact rest none next
    · rw [bind_map_left]
      apply (settles_expression nested (by omega)).bind
      intro argument after _
      exact rest (some argument) after
  · exact .fail_bind (by rintro ⟨⟩)

theorem settles_withStatement (nested : self.Settles budget) (enough : state.ahead ≤ budget) :
    (withStatement self).Settles state 1 := by
  rw [withStatement, settles_nodeStart, settles_isStrict]
  dsimp only
  split
  · exact .fail_bind (by rintro ⟨⟩)
  · apply Settles.require
    intro next _
    apply (settles_condition nested (by omega)).bind
    intro object after _
    apply (nested.statement (by omega)).bind
    intro body last _
    rw [settles_spanFrom]
    exact .pure _

theorem settles_caseTest (nested : self.Settles budget) {seenDefault : Bool}
    (enough : state.ahead ≤ budget) : (caseTest self seenDefault).Settles state 1 := by
  rw [caseTest, settles_lookahead]
  split
  · rename_i found
    apply Settles.consumes (by simp [found])
    intro next _
    exact (Settles.map (settles_expression nested (by omega))).mono (Nat.zero_le 1)
  · rename_i found
    split
    · exact .fail_bind (by rintro ⟨⟩)
    · apply Settles.consumes (by simp [found])
      intro next _
      exact .pure _
  · exact .unexpected

theorem settles_switchCases (nested : self.Settles budget) {seenDefault : Bool} {turns : Nat}
    (enough : state.ahead ≤ budget) (bound : state.ahead < turns) :
    (switchCases self seenDefault turns).Settles state 0 := by
  induction turns generalizing state seenDefault with
  | zero => exact absurd bound (Nat.not_lt_zero _)
  | succ turns ih =>
    rw [switchCases, settles_sees]
    split
    · exact .pure _
    · rw [settles_nodeStart]
      apply (settles_caseTest nested enough).bind
      intro test next _
      apply Settles.require
      intro inner _
      apply (settles_statementList nested (by omega)).bind
      intro consequent after _
      rw [settles_spanFrom]
      refine (ih (by omega) (by omega)).bind ?_
      intro others last _
      exact .pure _

theorem settles_switchStatement (nested : self.Settles budget) (enough : state.ahead ≤ budget) :
    (switchStatement self).Settles state 1 := by
  rw [switchStatement, settles_nodeStart]
  apply Settles.require
  intro next _
  apply (settles_condition nested (by omega)).bind
  intro discriminant after _
  apply Settles.require
  intro inner _
  have clauses : (Parse.inSwitch (switchCases self false self.turns)).Settles inner 0 :=
    .inContext fun _ _ => settles_switchCases nested (by omega) (by rw [nested.turns]; omega)
  apply clauses.bind
  intro clauses behind _
  apply Settles.require
  intro last _
  rw [settles_spanFrom]
  exact .pure _

theorem settles_throwStatement (nested : self.Settles budget) (enough : state.ahead ≤ budget) :
    (throwStatement self).Settles state 1 := by
  rw [throwStatement, settles_nodeStart]
  apply Settles.require
  intro next _
  rw [settles_lookahead]
  dsimp only
  split
  · exact .fail_bind (by rintro ⟨⟩)
  · apply (settles_expression nested (by omega)).bind
    intro argument after _
    apply Settles.semicolon
    intro last _
    rw [settles_spanFrom]
    exact .pure _

theorem settles_catchClause? (nested : self.Settles budget) (enough : state.ahead ≤ budget) :
    (catchClause? self).Settles state 0 := by
  rw [catchClause?, settles_nodeStart]
  apply Settles.consumeIf
  · intro next _
    rw [if_pos rfl]
    apply Settles.require
    intro inner _
    apply Settles.bindingIdentifier.bind
    intro parameter after _
    apply Settles.require
    intro behind _
    apply (settles_block nested (by omega)).bind
    intro body last _
    rw [settles_spanFrom]
    exact .pure _
  · exact .pure _

theorem settles_tryStatement (nested : self.Settles budget) (enough : state.ahead ≤ budget) :
    (tryStatement self).Settles state 1 := by
  rw [tryStatement, settles_nodeStart]
  apply Settles.require
  intro next _
  apply (settles_block nested (by omega)).bind
  intro body after _
  apply (settles_catchClause? nested (by omega)).bind
  intro handler behind _
  have rest : ∀ (finalizer : Option Block) (last : State),
      (do
        if handler.isNone && finalizer.isNone then fail .tryAlone (← nodeStart)
        return Statement.tryBlock body handler finalizer
          (← spanFrom state.lookahead.span.start) : Parse Statement).Settles last 0 := by
    intro finalizer last
    split
    · rw [settles_nodeStart]
      exact .fail_bind (by rintro ⟨⟩)
    · rw [settles_spanFrom]
      exact .pure _
  apply Settles.consumeIf
  · intro inner _
    rw [if_pos rfl, bind_map_left]
    apply (settles_block nested (by omega)).bind
    intro finalizer last _
    exact rest (some finalizer) last
  · rw [if_neg Bool.false_ne_true, pure_bind]
    exact rest none behind

theorem settles_debuggerStatement (inside : state.lookahead.lexeme ≠ .endOfFile) :
    debuggerStatement.Settles state 1 := by
  rw [debuggerStatement, settles_nodeStart]
  apply Settles.consumes inside
  intro next _
  apply Settles.semicolon
  intro last _
  rw [settles_spanFrom]
  exact .pure _

theorem settles_labelledStatement (nested : self.Settles budget) {start : Position}
    {label : Identifier} (inside : state.lookahead.lexeme ≠ .endOfFile)
    (enough : state.ahead ≤ budget) : (labelledStatement self start label).Settles state 1 := by
  rw [labelledStatement, settles_get]
  dsimp only
  split
  · exact .fail_bind (by rintro ⟨⟩)
  · apply Settles.consumes inside
    intro next _
    have body : (withLabel label.name self.statement).Settles next 1 :=
      .withLabel fun _ _ => nested.statement (by omega)
    apply body.bind
    intro body last _
    rw [settles_spanFrom]
    exact .pure _

theorem settles_expressionStatement (nested : self.Settles budget)
    (enough : state.ahead ≤ budget) : (expressionStatement self).Settles state 1 := by
  rw [expressionStatement, settles_lookahead]
  apply (settles_expression nested enough).bind
  intro value next _
  rw [settles_kind]
  split
  · rename_i found
    simp only [Bool.and_eq_true, beq_iff_eq] at found
    have inside := Alignment.lexeme_ne_endOfFile found.2
    exact (settles_labelledStatement nested inside (by omega)).mono (Nat.zero_le 1)
  · apply Settles.semicolon
    intro last _
    rw [settles_spanFrom]
    exact .pure _

theorem settles_statement (nested : self.Settles budget) (enough : state.ahead ≤ budget) :
    (statement self).Settles state 1 := by
  rw [statement, settles_lookahead]
  split
  · exact .map (settles_block nested enough)
  · rename_i found
    apply Settles.consumes (by simp [found])
    intro next _
    exact .pure _
  · rename_i word found
    split
    · exact settles_variableStatement nested enough
    · exact settles_ifStatement nested enough
    · exact settles_whileStatement nested enough
    · exact settles_doWhileStatement nested enough
    · exact settles_forStatement nested enough
    · exact settles_continueStatement
    · exact settles_breakStatement
    · exact settles_returnStatement nested enough
    · exact settles_withStatement nested enough
    · exact settles_switchStatement nested enough
    · exact settles_throwStatement nested enough
    · exact settles_tryStatement nested enough
    · exact settles_debuggerStatement (by simp [found])
    · exact settles_expressionStatement nested enough
  · exact settles_expressionStatement nested enough

theorem settles_listItem (nested : self.Settles budget) (enough : state.ahead ≤ budget) :
    (listItem self).Settles state 1 := by
  rw [listItem, settles_sees]
  split
  · exact settles_functionDeclaration nested enough
  · exact settles_statement nested enough

end Grammar

open Grammar

theorem Nonterminals.settles_ofBudget (budget : Nat) : (ofBudget budget).Settles budget := by
  induction budget with
  | zero =>
    exact
      { turns := rfl
        expression := fun less => absurd less (Nat.not_lt_zero _)
        assignment := fun less => absurd less (Nat.not_lt_zero _)
        unary := fun less => absurd less (Nat.not_lt_zero _)
        operators := fun less => absurd less (Nat.not_lt_zero _)
        callee := fun less => absurd less (Nat.not_lt_zero _)
        statement := fun less => absurd less (Nat.not_lt_zero _)
        listItem := fun less => absurd less (Nat.not_lt_zero _) }
  | succ budget ih =>
    exact
      { turns := rfl
        expression := fun less => settles_expression ih (Nat.le_of_lt_succ less)
        assignment := fun less => settles_assignment ih (Nat.le_of_lt_succ less)
        unary := fun less => settles_unary ih (Nat.le_of_lt_succ less)
        operators := fun less found higher =>
          settles_operators_of_operator ih (by omega) (Nat.lt_of_succ_lt_succ less) found higher
        callee := fun less => settles_leftHandSide ih (Nat.le_of_lt_succ less)
        statement := fun less => settles_statement ih (Nat.le_of_lt_succ less)
        listItem := fun less => settles_listItem ih (Nat.le_of_lt_succ less) }

namespace Grammar

theorem settles_topLevel {self : Nonterminals} {budget : Nat} {state : State}
    (nested : self.Settles budget) (enough : state.ahead < budget) :
    (topLevel self budget).Settles state 0 := by
  have bound : ∀ next : State, next.ahead ≤ state.ahead → next.ahead < budget :=
    fun next le => Nat.lt_of_le_of_lt le enough
  rw [topLevel]
  refine (settles_directives (fun next le => nested.statement (bound next le)) enough).bind ?_
  intro opening next behind
  refine (Settles.itemsUntil (fun last le => nested.listItem (by omega))
    (by rw [nested.turns]; omega)).bind ?_
  intro others last _
  exact .pure _

end Grammar

/-- A script begins in the text that remains. -/
theorem State.rest_opening_le (state : State) :
    state.opening.rest.length ≤ state.cursor.rest.length := by
  unfold opening
  split
  · unfold Cursor.passHashbang
    split
    · rw [Cursor.rest_pass, List.length_drop]
      exact Nat.sub_le _ _
    · exact Nat.le_refl _
  · exact Nat.le_refl _

/-- No more text lies ahead of the first token than the whole text. -/
theorem State.rest_opening (source : String) (options : Options) :
    (State.ofSource source options).opening.rest.length ≤ source.length :=
  Nat.le_trans (rest_opening_le _) (Nat.le_of_eq String.length_toList)

/-- Whatever is wrong with a text, it is not that its constructs are nested too deeply. -/
theorem possible_of_parse {source : String} {options : Options} {fault : Fault}
    (refused : parse source options = .error fault) : fault.cause ≠ .exhausted := by
  rw [parse_eq] at refused
  split at refused
  · rename_i scanned
    cases refused
    intro exhausted
    have lexical := (Scan.lexical_of_token scanned).1
    rw [exhausted] at lexical
    cases lexical
  · rename_i token cursor scanned
    have ahead : ((State.ofSource source options).begun token cursor).ahead ≤ source.length :=
      Nat.le_trans (Scan.rest_of_token scanned) (State.rest_opening source options)
    split at refused
    · rename_i run
      cases refused
      exact (settles_topLevel (Nonterminals.settles_ofBudget _) (by omega)).error run
    · cases refused

end EcmaScript
