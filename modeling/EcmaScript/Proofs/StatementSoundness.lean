import EcmaScript.Proofs.ExpressionSoundness

/-!
# Statements follow the rules

Every production of a statement is sound when the constructs by which the grammar is recursive are.
A statement that begins with an expression is told from one with a label after the expression has
been read, and a single name that was read as an expression is then known to be one token.
-/

namespace EcmaScript

/-- A name that is read as an expression, and begins with an identifier, is one token. -/
theorem Reads.identifier {scope : Scope} {name : Identifier} {tokens : List Token}
    {opening next : Token} (reads : Reads scope (.fits .expression (.identifier name)) tokens next)
    (opens : opening.Opens tokens next) (kind : opening.kind = .identifier) :
    ∃ token, tokens = [token] ∧ scope.Refers token name := by
  rcases reads.cases_fits with ⟨_, made⟩ | ⟨paren, inside, closing, rfl, isParen, -⟩
  · cases made with
    | reference refers => exact ⟨_, rfl, refers⟩
  · rw [opens.eq_first (by simp [kind]), kind] at isParen
    cases isParen

namespace Grammar

open Parse

variable {self : Nonterminals}

/-- The end of a statement. -/
theorem ensures_semicolon {α : Type} {rest : Unit → Parse α} {start state : State}
    {front : List Token} {property : α → State → Prop} (so : start.Consumes front state)
    (next : ∀ ending after, start.Consumes (front ++ ending) after →
      state.lookahead.Terminates ending after.lookahead → (rest ()).Ensures after property) :
    (semicolon >>= rest).Ensures state property := by
  rw [semicolon, bind_assoc]
  apply ensures_consumeIf so
  · intro after mark consumed
    exact next _ after consumed (.semicolon mark)
  · intro other
    rw [if_neg (by simp), bind_assoc, ensures_lookahead]
    split
    · rename_i inserted
      rw [pure_bind]
      refine next [] state (by simpa using so) (.inserted other ?_)
      simpa [or_assoc] using inserted
    · rw [ensures_bind]
      exact ensures_unexpected

theorem sound_block (sound : self.Sound) :
    (block self).Sound fun scope value => Reads scope (.block value) := by
  intro state
  rw [block, ensures_nodeStart]
  apply ensures_require (.refl state)
  intro between opening consumed
  apply (sound_statementList sound).step consumed
  intro statements tokens last consumed _ reads
  apply ensures_require consumed
  intro after closing consumed
  rw [ensures_spanFrom, ensures_pure, consumed.span (by simp)]
  exact ⟨_, consumed, by simpa using Reads.block opening reads closing⟩

theorem sound_variableDeclarator (sound : self.Sound) :
    (variableDeclarator self).Sound fun scope value => Reads scope (.declarator value) := by
  intro state
  rw [variableDeclarator, ensures_nodeStart]
  apply sound_bindingIdentifier.step (.refl state)
  rintro name _ between consumed _ ⟨token, rfl, binds⟩
  apply ensures_consumeIf consumed
  · intro last mark consumed
    rw [if_pos rfl]
    dsimp only
    rw [bind_map_left]
    apply sound.assignment.step consumed
    intro value tokens after consumed _ reads
    rw [ensures_spanFrom, ensures_pure, consumed.span (by simp)]
    exact ⟨_, consumed, by simpa using Reads.initialized binds mark reads⟩
  · intro other
    rw [if_neg (by simp)]
    dsimp only
    rw [pure_bind, ensures_spanFrom, ensures_pure, consumed.span (by simp)]
    exact ⟨_, consumed, .declared binds other⟩

theorem sound_variableDeclaration (sound : self.Sound) :
    (variableDeclaration self).Sound fun scope value => Reads scope (.declaration value) := by
  intro state
  rw [variableDeclaration, ensures_nodeStart]
  apply ensures_require (.refl state)
  intro between word consumed
  have separated : (separated (variableDeclarator self) self.turns).Sound
      fun scope values => Reads scope (.declarators values) := by
    apply (sound_variableDeclarator sound).separated
    · intro scope first tokens next reads other
      exact .declaratorsOne reads other
    · intro scope first comma others next tokens rest reads mark readsOthers
      exact .declaratorsMore reads mark readsOthers
  apply separated.step consumed
  intro declarators tokens after consumed _ reads
  rw [ensures_spanFrom, ensures_pure, consumed.span (by simp)]
  exact ⟨_, consumed, .declaration word reads⟩

theorem sound_variableStatement (sound : self.Sound) :
    (variableStatement self).Sound fun scope value => Reads scope (.statement value) := by
  intro state
  rw [variableStatement, ensures_nodeStart]
  apply (sound_variableDeclaration sound).step (.refl state)
  intro declaration tokens between consumed _ reads
  apply ensures_semicolon consumed
  intro ending after consumed terminates
  rw [ensures_spanFrom, ensures_pure, consumed.span (by simp [reads.ne_nil rfl])]
  exact ⟨_, consumed, .variableStatement reads terminates⟩

theorem sound_condition (sound : self.Sound) :
    (condition self).Sound fun scope value => Reads scope (.condition value) := by
  intro state
  rw [condition]
  apply ensures_require (.refl state)
  intro between opening consumed
  apply (sound_expression sound).step consumed
  intro test tokens last consumed _ reads
  apply ensures_require consumed
  intro after closing consumed
  rw [ensures_pure]
  exact ⟨_, consumed, by simpa using Reads.condition opening reads closing⟩

theorem sound_loopBody (sound : self.Sound) :
    (loopBody self).Sound fun scope value => Reads scope.inLoop (.statement value) :=
  sound.statement.inLoop

theorem sound_ifStatement (sound : self.Sound) :
    (ifStatement self).Sound fun scope value => Reads scope (.statement value) := by
  intro state
  rw [ifStatement, ensures_nodeStart]
  apply ensures_require (.refl state)
  intro between word consumed
  apply (sound_condition sound).step consumed
  intro test testTokens between consumed _ readsTest
  apply sound.statement.step consumed
  intro consequent tokens between consumed opens reads
  apply ensures_consumeIf consumed
  · intro last elseWord consumed
    rw [if_pos rfl]
    dsimp only
    rw [bind_map_left]
    apply sound.statement.step consumed
    intro alternate others after consumed _ readsOther
    rw [ensures_spanFrom, ensures_pure, consumed.span (by simp)]
    exact ⟨_, consumed, by simpa using Reads.ifWith word readsTest opens reads elseWord readsOther⟩
  · intro other
    rw [if_neg (by simp)]
    dsimp only
    rw [pure_bind, ensures_spanFrom, ensures_pure, consumed.span (by simp)]
    exact ⟨_, consumed, by simpa using Reads.ifWithout word readsTest opens reads other⟩

theorem sound_whileStatement (sound : self.Sound) :
    (whileStatement self).Sound fun scope value => Reads scope (.statement value) := by
  intro state
  rw [whileStatement, ensures_nodeStart]
  apply ensures_require (.refl state)
  intro between word consumed
  apply (sound_condition sound).step consumed
  intro test testTokens between consumed _ readsTest
  apply (sound_loopBody sound).step consumed
  intro body tokens after consumed opens reads
  rw [ensures_spanFrom, ensures_pure, consumed.span (by simp)]
  exact ⟨_, consumed, by simpa using Reads.whileLoop word readsTest opens reads⟩

theorem sound_doWhileStatement (sound : self.Sound) :
    (doWhileStatement self).Sound fun scope value => Reads scope (.statement value) := by
  intro state
  rw [doWhileStatement, ensures_nodeStart]
  apply ensures_require (.refl state)
  intro between word consumed
  apply (sound_loopBody sound).step consumed
  intro body tokens between consumed _ reads
  apply ensures_require consumed
  intro between whileWord consumed
  apply (sound_condition sound).step consumed
  intro test testTokens between consumed _ readsTest
  apply ensures_consumeIf consumed
  · intro after mark consumed
    rw [ensures_spanFrom, ensures_pure, consumed.span (by simp)]
    refine ⟨_, consumed, ?_⟩
    simpa using Reads.doWhileLoop word reads whileWord readsTest (.semicolon mark)
  · intro other
    rw [ensures_spanFrom, ensures_pure, consumed.span (by simp)]
    refine ⟨_, consumed, ?_⟩
    simpa using Reads.doWhileLoop word reads whileWord readsTest (.none other)

theorem sound_forHead? (sound : self.Sound) :
    (forHead? self).Sound fun scope value => Reads scope (.init value) := by
  intro state
  rw [forHead?, ensures_lookahead]
  split
  · rw [ensures_pure]
    exact ⟨[], .refl state, .initNone⟩
  · apply (sound_variableDeclaration sound).withoutIn.step (.refl state)
    intro declaration tokens after consumed _ reads
    rw [ensures_pure]
    exact ⟨_, consumed, .initSome (.headDeclaration reads)⟩
  · apply (sound_expression sound).withoutIn.step (.refl state)
    intro value tokens after consumed _ reads
    rw [ensures_pure]
    exact ⟨_, consumed, .initSome (.headExpression reads)⟩

theorem ensures_checkForInTarget {α : Type} {rest : Unit → Parse α} {start state : State}
    {front : List Token} {property : α → State → Prop} {head : ForHead}
    (so : start.Consumes front state)
    (next : start.scope.AllowsForIn head → (rest ()).Ensures state property) :
    (checkForInTarget head >>= rest).Ensures state property := by
  cases head with
  | declaration declaration =>
    rw [checkForInTarget]
    split
    · rename_i single
      rw [pure_bind]
      exact next (by simpa [Scope.AllowsForIn] using single)
    · exact ensures_fail_bind
  | expression target =>
    rw [checkForInTarget]
    dsimp only
    split
    · rename_i isReference
      apply ensures_checkTarget so isReference
      exact next
    · rw [bind_assoc]
      exact ensures_fail_bind

theorem sound_optionalExpression (sound : self.Sound) (ending : Punctuator) :
    (optionalExpression self ending).Sound fun scope value => Reads scope (.optional value) := by
  intro state
  rw [optionalExpression, ensures_sees]
  split
  · rw [ensures_pure]
    exact ⟨[], .refl state, .optionalNone⟩
  · rw [ensures_map]
    apply (sound_expression sound).last (.refl state)
    intro value tokens after consumed _ reads
    exact ⟨_, consumed, .optionalSome reads⟩

/-- A loop over the properties of an object, from the word `in`. -/
theorem ensures_forInRest (sound : self.Sound) {start state : State} {word opening : Token}
    {tokens : List Token} {head : ForHead}
    (so : start.Consumes (word :: opening :: tokens) state)
    (forWord : word.kind = .symbol Keyword.forWord)
    (parenthesis : opening.kind = .symbol Punctuator.leftParen)
    (reads : Reads start.scope.withoutIn (.head head) tokens state.lookahead)
    (inWord : state.lookahead.kind = .symbol BinaryOperator.isIn)
    (allowed : start.scope.AllowsForIn head) :
    (forInRest self start.lookahead.span.start head).Ensures state fun value after =>
      ∃ tokens, start.Consumes tokens after ∧
        Reads start.scope (.statement value) tokens after.lookahead := by
  rw [forInRest]
  apply ensures_consume so (ne_endOfFile_of_kind inWord)
  intro between consumed
  apply (sound_expression sound).step consumed
  intro right rightTokens between consumed _ readsRight
  apply ensures_require consumed
  intro between closing consumed
  apply (sound_loopBody sound).step consumed
  intro body bodyTokens after consumed _ readsBody
  rw [ensures_spanFrom, ensures_pure, consumed.span (by simp)]
  refine ⟨_, consumed, ?_⟩
  simpa using Reads.forInLoop forWord parenthesis reads inWord allowed readsRight closing readsBody

/-- A loop with three clauses, from the first semicolon. -/
theorem ensures_forRest (sound : self.Sound) {start state : State} {word opening : Token}
    {tokens : List Token} {init : Option ForHead}
    (so : start.Consumes (word :: opening :: tokens) state)
    (forWord : word.kind = .symbol Keyword.forWord)
    (parenthesis : opening.kind = .symbol Punctuator.leftParen)
    (reads : Reads start.scope (.init init) tokens state.lookahead) :
    (forRest self start.lookahead.span.start init).Ensures state fun value after =>
      ∃ tokens, start.Consumes tokens after ∧
        Reads start.scope (.statement value) tokens after.lookahead := by
  rw [forRest]
  apply ensures_require so
  intro between first consumed
  apply (sound_optionalExpression sound .semicolon).step consumed
  intro test testTokens between consumed _ readsTest
  apply ensures_require consumed
  intro between second consumed
  apply (sound_optionalExpression sound .rightParen).step consumed
  intro update updateTokens between consumed _ readsUpdate
  apply ensures_require consumed
  intro between closing consumed
  apply (sound_loopBody sound).step consumed
  intro body bodyTokens after consumed _ readsBody
  rw [ensures_spanFrom, ensures_pure, consumed.span (by simp)]
  refine ⟨_, consumed, ?_⟩
  simpa using Reads.forLoop forWord parenthesis reads first readsTest second readsUpdate closing
    readsBody

theorem sound_forStatement (sound : self.Sound) :
    (forStatement self).Sound fun scope value => Reads scope (.statement value) := by
  intro state
  rw [forStatement, ensures_nodeStart]
  apply ensures_require (.refl state)
  intro between word consumed
  apply ensures_require consumed
  intro between opening consumed
  apply (sound_forHead? sound).step consumed
  intro init tokens between consumed _ reads
  rw [ensures_sees]
  split
  · rename_i head inWord
    apply ensures_checkForInTarget consumed
    intro allowed
    cases reads with
    | initSome reads =>
      exact ensures_forInRest sound consumed word opening reads (by simpa using inWord) allowed
  · exact ensures_forRest sound consumed word opening reads

/-- A jump names one of the labels around it, or none. -/
theorem sound_jumpLabel : jumpLabel.Sound Scope.HasJumpLabel := by
  intro state
  rw [jumpLabel, ensures_lookahead]
  dsimp only
  split
  · rename_i none
    rw [ensures_pure]
    exact ⟨[], .refl state, .none (by simpa using none)⟩
  · rename_i some
    have plain : state.lookahead.kind = .identifier ∧ state.lookahead.flags.lineBreak = false := by
      simpa using some
    apply sound_identifierReference.step (.refl state)
    rintro label _ after consumed opens ⟨token, rfl, refers⟩
    rw [ensures_get]
    split
    · rename_i known
      rw [ensures_pure]
      refine ⟨_, consumed, .some refers ?_ ?_⟩
      · rw [opens.lineBreak]
        exact plain.2
      · rw [consumed.labels] at known
        exact known
    · exact ensures_fail_bind

theorem sound_continueStatement :
    continueStatement.Sound fun scope value => Reads scope (.statement value) := by
  intro state
  rw [continueStatement, ensures_nodeStart]
  apply ensures_require (.refl state)
  intro between word consumed
  rw [ensures_get, consumed.context]
  dsimp only
  split
  · rename_i inLoop
    apply sound_jumpLabel.step consumed
    intro label labelTokens between consumed _ hasLabel
    apply ensures_semicolon consumed
    intro ending after consumed terminates
    rw [ensures_spanFrom, ensures_pure, consumed.span (by simp)]
    exact ⟨_, consumed, by simpa using Reads.continueTo word inLoop hasLabel terminates⟩
  · exact ensures_fail_bind

theorem sound_breakStatement :
    breakStatement.Sound fun scope value => Reads scope (.statement value) := by
  intro state
  rw [breakStatement, ensures_nodeStart]
  apply ensures_require (.refl state)
  intro between word consumed
  rw [ensures_get, consumed.context]
  dsimp only
  split
  · rename_i inside
    apply sound_jumpLabel.step consumed
    intro label labelTokens between consumed _ hasLabel
    apply ensures_semicolon consumed
    intro ending after consumed terminates
    rw [ensures_spanFrom, ensures_pure, consumed.span (by simp)]
    refine ⟨_, consumed, ?_⟩
    simpa using Reads.breakTo word (by simpa [State.scope] using inside) hasLabel terminates
  · exact ensures_fail_bind

theorem sound_returnStatement (sound : self.Sound) :
    (returnStatement self).Sound fun scope value => Reads scope (.statement value) := by
  intro state
  rw [returnStatement, ensures_nodeStart, ensures_get]
  dsimp only
  split
  · rename_i inside
    have allowed : state.scope.context.inFunction = true ∨
        state.scope.options.allowReturnOutsideFunction = true := by
      simpa [State.scope] using inside
    apply ensures_require (.refl state)
    intro between word consumed
    rw [ensures_lookahead]
    split
    · rename_i ends
      rw [pure_bind]
      apply ensures_semicolon consumed
      intro ending after consumed terminates
      rw [ensures_spanFrom, ensures_pure, consumed.span (by simp)]
      exact ⟨_, consumed, by simpa using Reads.returnNothing word allowed ends terminates⟩
    · rename_i continues
      rw [bind_map_left]
      apply (sound_expression sound).step consumed
      intro value tokens between consumed opens reads
      apply ensures_semicolon consumed
      intro ending after consumed terminates
      rw [ensures_spanFrom, ensures_pure, consumed.span (by simp)]
      refine ⟨_, consumed, ?_⟩
      simpa using Reads.returnValue word allowed opens (by simpa using continues) reads terminates
  · exact ensures_fail_bind

theorem sound_withStatement (sound : self.Sound) :
    (withStatement self).Sound fun scope value => Reads scope (.statement value) := by
  intro state
  rw [withStatement, ensures_nodeStart, ensures_isStrict]
  dsimp only
  split
  · exact ensures_fail_bind
  · rename_i sloppy
    apply ensures_require (.refl state)
    intro between word consumed
    apply (sound_condition sound).step consumed
    intro object objectTokens between consumed _ readsObject
    apply sound.statement.step consumed
    intro body tokens after consumed opens reads
    rw [ensures_spanFrom, ensures_pure, consumed.span (by simp)]
    refine ⟨_, consumed, ?_⟩
    simpa using Reads.withObject word (by simpa [State.scope] using sloppy) readsObject opens reads

/-- What the tokens of the test of a clause are. Only the first default clause is one. -/
inductive IsCaseTest (seenDefault : Bool) (scope : Scope) :
    Option Expression → List Token → Token → Prop where
  | test {word next : Token} {tokens : List Token} {test : Expression} :
      word.kind = .symbol Keyword.caseWord → Reads scope (.fits .expression test) tokens next →
      IsCaseTest seenDefault scope (some test) (word :: tokens) next
  | default {word next : Token} : word.kind = .symbol Keyword.defaultWord → seenDefault = false →
      IsCaseTest seenDefault scope none [word] next

theorem sound_caseTest (sound : self.Sound) (seenDefault : Bool) :
    (caseTest self seenDefault).Sound (IsCaseTest seenDefault) := by
  intro state
  rw [caseTest, ensures_lookahead]
  split
  · rename_i lexeme
    apply ensures_consume (.refl state) (by simp [lexeme])
    intro between consumed
    rw [ensures_map]
    apply (sound_expression sound).last consumed
    intro test tokens after consumed _ reads
    have word : state.lookahead.kind = .symbol Keyword.caseWord := by rw [Token.kind, lexeme]; rfl
    exact ⟨_, consumed, .test word reads⟩
  · rename_i lexeme
    dsimp only
    split
    · exact ensures_fail_bind
    · rename_i first
      apply ensures_consume (.refl state) (by simp [lexeme])
      intro after consumed
      rw [ensures_pure]
      have word : state.lookahead.kind = .symbol Keyword.defaultWord := by
        rw [Token.kind, lexeme]
        rfl
      exact ⟨_, consumed, .default word (by simpa using first)⟩
  · exact ensures_unexpected

theorem IsCaseTest.clause {seenDefault : Bool} {scope : Scope} {test : Option Expression}
    {testTokens tokens : List Token} {colon next : Token} {statements : List Statement}
    (isTest : IsCaseTest seenDefault scope test testTokens colon)
    (mark : colon.kind = .symbol Punctuator.colon)
    (reads : Reads scope (.statements statements) tokens next) :
    Reads scope (.clause ⟨test, statements, Token.cover (testTokens ++ colon :: tokens)⟩)
        (testTokens ++ colon :: tokens) next ∧ (test = none → seenDefault = false) := by
  cases isTest with
  | test word readsTest => exact ⟨.caseClause word readsTest mark reads, by simp⟩
  | default word first => exact ⟨.defaultClause word mark reads, fun _ => first⟩

theorem sound_switchCases (sound : self.Sound) (turns : Nat) (seenDefault : Bool) :
    (switchCases self seenDefault turns).Sound
      fun scope clauses => Reads scope (.clauses seenDefault clauses) := by
  induction turns generalizing seenDefault with
  | zero => exact fun state => ensures_exhausted
  | succ turns ih =>
    intro state
    rw [switchCases, ensures_sees]
    dsimp only
    split
    · rename_i closing
      rw [ensures_pure]
      exact ⟨[], .refl state, .clausesNone (by simpa using closing)⟩
    · rw [ensures_nodeStart]
      apply (sound_caseTest sound seenDefault).step (.refl state)
      intro test testTokens between consumed _ isTest
      apply ensures_require consumed
      intro between colon consumed
      apply (sound_statementList sound).step consumed
      intro statements tokens between consumed _ reads
      obtain ⟨readsClause, once⟩ := isTest.clause colon reads
      rw [ensures_spanFrom, consumed.span (by simp)]
      apply (ih _).step consumed
      intro clauses others after consumed opens readsOthers
      rw [ensures_pure]
      refine ⟨_, consumed, ?_⟩
      have rule := Reads.clausesMore readsClause once opens readsOthers
      simpa using rule

theorem sound_switchStatement (sound : self.Sound) :
    (switchStatement self).Sound fun scope value => Reads scope (.statement value) := by
  intro state
  rw [switchStatement, ensures_nodeStart]
  apply ensures_require (.refl state)
  intro between word consumed
  apply (sound_condition sound).step consumed
  intro discriminant testTokens between consumed _ readsTest
  apply ensures_require consumed
  intro between opening consumed
  apply (sound_switchCases sound self.turns false).inSwitch.step consumed
  intro clauses tokens between consumed _ reads
  apply ensures_require consumed
  intro after closing consumed
  rw [ensures_spanFrom, ensures_pure, consumed.span (by simp)]
  exact ⟨_, consumed, by simpa using Reads.switch word readsTest opening reads closing⟩

theorem sound_throwStatement (sound : self.Sound) :
    (throwStatement self).Sound fun scope value => Reads scope (.statement value) := by
  intro state
  rw [throwStatement, ensures_nodeStart]
  apply ensures_require (.refl state)
  intro between word consumed
  rw [ensures_lookahead]
  dsimp only
  split
  · exact ensures_fail_bind
  · rename_i sameLine
    apply (sound_expression sound).step consumed
    intro value tokens between consumed opens reads
    apply ensures_semicolon consumed
    intro ending after consumed terminates
    rw [ensures_spanFrom, ensures_pure, consumed.span (by simp)]
    refine ⟨_, consumed, ?_⟩
    simpa using Reads.throwValue word opens (by simpa using sameLine) reads terminates

theorem sound_catchClause? (sound : self.Sound) :
    (catchClause? self).Sound fun scope value => Reads scope (.handler value) := by
  intro state
  rw [catchClause?, ensures_nodeStart]
  apply ensures_consumeIf (.refl state)
  · intro between word consumed
    rw [if_pos rfl]
    apply ensures_require consumed
    intro between opening consumed
    apply sound_bindingIdentifier.step consumed
    rintro parameter _ between consumed _ ⟨token, rfl, binds⟩
    apply ensures_require consumed
    intro between closing consumed
    apply (sound_block sound).step consumed
    intro body tokens after consumed _ reads
    rw [ensures_spanFrom, ensures_pure, consumed.span (by simp)]
    exact ⟨_, consumed, by simpa using Reads.handlerSome word opening binds closing reads⟩
  · intro other
    rw [if_neg (by simp), ensures_pure]
    exact ⟨[], .refl state, .handlerNone other⟩

theorem sound_tryStatement (sound : self.Sound) :
    (tryStatement self).Sound fun scope value => Reads scope (.statement value) := by
  intro state
  rw [tryStatement, ensures_nodeStart]
  apply ensures_require (.refl state)
  intro between word consumed
  apply (sound_block sound).step consumed
  intro inner tokens between consumed _ reads
  apply (sound_catchClause? sound).step consumed
  intro handler handlerTokens between consumed opens readsHandler
  have ended : ∀ finalizer finalizerTokens after,
      state.Consumes
        (state.lookahead :: (tokens ++ (handlerTokens ++ finalizerTokens))) after →
      between.lookahead.Opens finalizerTokens after.lookahead →
      Reads state.scope (.finalizer finalizer) finalizerTokens after.lookahead →
      (do
        if handler.isNone && finalizer.isNone then fail .tryAlone (← nodeStart)
        return Statement.tryBlock inner handler finalizer
          (← spanFrom state.lookahead.span.start)).Ensures after fun value last =>
        ∃ tokens, state.Consumes tokens last ∧
          Reads state.scope (.statement value) tokens last.lookahead := by
    intro finalizer finalizerTokens after consumed opensFinalizer readsFinalizer
    dsimp only
    split
    · rw [ensures_nodeStart]
      exact ensures_fail_bind
    · rename_i some
      rw [ensures_spanFrom, ensures_pure, consumed.span (by simp)]
      refine ⟨_, consumed, .tryBlock word reads opens readsHandler opensFinalizer readsFinalizer ?_⟩
      cases handler <;> cases finalizer <;> simp_all
  apply ensures_consumeIf consumed
  · intro last word consumed
    rw [if_pos rfl]
    dsimp only
    rw [bind_map_left]
    apply (sound_block sound).step consumed
    intro body bodyTokens after consumed _ readsBody
    exact ended (some body) (between.lookahead :: bodyTokens) after (by simpa using consumed)
      (.inl rfl) (.finalizerSome word readsBody)
  · intro other
    rw [if_neg (by simp)]
    dsimp only
    rw [pure_bind]
    exact ended none [] between (by simpa using consumed) rfl (.finalizerNone other)

theorem ensures_debuggerStatement {state : State}
    (word : state.lookahead.kind = .symbol Keyword.debuggerWord) :
    debuggerStatement.Ensures state fun value after => ∃ tokens, state.Consumes tokens after ∧
      Reads state.scope (.statement value) tokens after.lookahead := by
  rw [debuggerStatement, ensures_nodeStart]
  apply ensures_consume (.refl state) (ne_endOfFile_of_kind word)
  intro between consumed
  apply ensures_semicolon consumed
  intro ending after consumed terminates
  rw [ensures_spanFrom, ensures_pure, consumed.span (by simp)]
  exact ⟨_, consumed, by simpa using Reads.debugger word terminates⟩

/-- A statement after its label, from the colon. -/
theorem ensures_labelledStatement (sound : self.Sound) {start state : State} {token : Token}
    {label : Identifier} (so : start.Consumes [token] state)
    (refers : start.scope.Refers token label)
    (colon : state.lookahead.kind = .symbol Punctuator.colon) :
    (labelledStatement self start.lookahead.span.start label).Ensures state fun value after =>
      ∃ tokens, start.Consumes tokens after ∧
        Reads start.scope (.statement value) tokens after.lookahead := by
  rw [labelledStatement, ensures_get, so.labels]
  dsimp only
  split
  · exact ensures_fail_bind
  · rename_i new
    apply ensures_consume so (ne_endOfFile_of_kind colon)
    intro between consumed
    apply (sound.statement.withLabel label.name).step consumed
    intro body tokens after consumed _ reads
    rw [ensures_spanFrom, ensures_pure, consumed.span (by simp)]
    refine ⟨_, consumed, ?_⟩
    simpa using Reads.labelled refers colon (by simpa [State.scope] using new) reads

theorem ensures_expressionStatement (sound : self.Sound) {state : State}
    (other : state.lookahead.kind ≠ .symbol Punctuator.leftBrace) :
    (expressionStatement self).Ensures state fun value after =>
      ∃ tokens, state.Consumes tokens after ∧
        Reads state.scope (.statement value) tokens after.lookahead := by
  rw [expressionStatement, ensures_lookahead]
  apply (sound_expression sound).step (.refl state)
  intro value tokens between consumed opens reads
  rw [ensures_kind]
  split
  · rename_i label found
    have found : state.lookahead.kind = .identifier ∧
        between.lookahead.kind = .symbol Punctuator.colon := by simpa using found
    obtain ⟨token, rfl, refers⟩ := reads.identifier opens found.1
    exact ensures_labelledStatement sound consumed refers found.2
  · apply ensures_semicolon consumed
    intro ending after consumed terminates
    rw [ensures_spanFrom, ensures_pure, consumed.span (by simp [reads.ne_nil rfl])]
    exact ⟨_, consumed, .expressionStatement opens other reads terminates⟩

theorem sound_statement (sound : self.Sound) :
    (statement self).Sound fun scope value => Reads scope (.statement value) := by
  intro state
  rw [statement, ensures_lookahead]
  split
  · rw [ensures_map]
    apply (sound_block sound).last (.refl state)
    intro inner tokens after consumed _ reads
    exact ⟨_, consumed, .blockStatement reads⟩
  · rename_i lexeme
    apply ensures_consume (.refl state) (by simp [lexeme])
    intro after consumed
    rw [ensures_pure]
    exact ⟨_, consumed, .empty (by rw [Token.kind, lexeme]; rfl)⟩
  · rename_i word lexeme
    have kind : state.lookahead.kind = .symbol word := by rw [Token.kind, lexeme]; rfl
    split
    · exact sound_variableStatement sound state
    · exact sound_ifStatement sound state
    · exact sound_whileStatement sound state
    · exact sound_doWhileStatement sound state
    · exact sound_forStatement sound state
    · exact sound_continueStatement state
    · exact sound_breakStatement state
    · exact sound_returnStatement sound state
    · exact sound_withStatement sound state
    · exact sound_switchStatement sound state
    · exact sound_throwStatement sound state
    · exact sound_tryStatement sound state
    · exact ensures_debuggerStatement kind
    · exact ensures_expressionStatement sound (by simp [kind])
  · rename_i notBrace _ _
    apply ensures_expressionStatement sound
    intro brace
    exact notBrace (lexeme_of_kind brace)

theorem sound_listItem (sound : self.Sound) :
    (listItem self).Sound fun scope value => Reads scope (.item value) := by
  intro state
  rw [listItem, ensures_sees]
  split
  · exact sound_functionDeclaration sound state
  · rename_i other
    apply (sound_statement sound).last (.refl state)
    intro value tokens after consumed opens reads
    exact ⟨_, consumed, .item opens (by simpa using other) reads⟩

end Grammar

end EcmaScript
