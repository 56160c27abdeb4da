import EcmaScript.Proofs.Outcome

/-!
# Functions follow the rules

The constructs by which the grammar is recursive are assumed to follow the rules, and then so do
functions with their parameters and bodies. Directives are read before the statements of a body and
may change its scope, so what is said of them is how they extend a reading of the statements.
-/

namespace EcmaScript

/-- The binary operator in the lookahead, where `in` may be none. -/
def State.operator? (state : State) : Option BinaryOperator :=
  if state.lookahead.kind.binaryOperator? = some .isIn ∧ state.context.withoutIn = true then none
  else state.lookahead.kind.binaryOperator?

/-- An expression of some tier or a higher one can be a left operand of the operator in the
lookahead. -/
def State.Extends (state : State) (scope : Scope) (tier : Nat) (left : Expression)
    (tokens : List Token) : Prop :=
  ∃ own, tier ≤ own ∧ Reads scope (.fits (.operators own) left) tokens state.lookahead ∧
    ∀ operator, state.operator? = some operator → operator.leftTier ≤ own

/-- Operators after a left operand extend it, up to an operator that is not of the tier. -/
def Parse.ExtendsOperands (action : Position → Nat → Expression → Parse Expression) : Prop :=
  ∀ tier left start state front, State.Consumes start front state →
    state.Extends start.scope tier left front →
    (action start.lookahead.span.start tier left).Ensures state fun value after =>
      ∃ tokens, start.Consumes tokens after ∧
        Reads start.scope (.fits (.operators tier) value) tokens after.lookahead ∧
        ∀ operator, after.operator? = some operator → operator.precedence < tier

/-- The constructs by which the grammar is recursive follow the rules. -/
structure Nonterminals.Sound (grammar : Nonterminals) : Prop where
  expression : grammar.expression.Sound fun scope value => Reads scope (.fits .expression value)
  assignment : grammar.assignment.Sound fun scope value => Reads scope (.fits .assignment value)
  unary : grammar.unary.Sound fun scope value => Reads scope (.fits .unary value)
  operators : Parse.ExtendsOperands grammar.operators
  callee : grammar.callee.Sound fun scope value => Reads scope (.fits (.member false) value)
  statement : grammar.statement.Sound fun scope value => Reads scope (.statement value)
  listItem : grammar.listItem.Sound fun scope value => Reads scope (.item value)

namespace Parse

/-- An action in other surroundings is sound in the scope of these. -/
theorem Sound.within {α : Type} {action : Parse α}
    {reads : Scope → α → List Token → Token → Prop} {enter : State → State}
    {leave : State → State → State} {inner : Scope → Scope} (sound : action.Sound reads)
    (points : ∀ state after, (enter state).point = state.point ∧
      (leave state after).point = after.point)
    (entered : ∀ state, (enter state).scope = inner state.scope)
    (left : ∀ {state after : State}, after.scope = inner state.scope →
      (leave state after).scope = state.scope) :
    (within enter leave action).Sound fun scope => reads (inner scope) := by
  intro state
  rw [ensures_within]
  constructor
  intro value after run
  obtain ⟨tokens, consumes, related⟩ := (sound _).of_ok run
  obtain ⟨before, behind⟩ := points state after
  have passes := consumes.passes
  rw [before, ← behind] at passes
  have lookahead : (leave state after).lookahead = after.lookahead :=
    congrArg Point.lookahead behind
  rw [entered] at related
  rw [lookahead]
  exact ⟨tokens, ⟨left (consumes.scope.trans (entered state)), passes⟩, related⟩

/-- An action in a changed context is sound in the scope with that context. -/
theorem Sound.inContext {α : Type} {action : Parse α}
    {reads : Scope → α → List Token → Token → Prop} (change : Context → Context)
    (sound : action.Sound reads) :
    (inContext change action).Sound fun scope =>
      reads { scope with context := change scope.context } := by
  refine sound.within (fun _ _ => ⟨rfl, rfl⟩) (fun _ => rfl) ?_
  intro state after same
  simp only [State.scope, Scope.mk.injEq] at same ⊢
  exact ⟨trivial, same.2⟩

theorem Sound.withIn {α : Type} {action : Parse α}
    {reads : Scope → α → List Token → Token → Prop} (sound : action.Sound reads) :
    (withIn action).Sound fun scope => reads scope.withIn :=
  sound.inContext _

theorem Sound.withoutIn {α : Type} {action : Parse α}
    {reads : Scope → α → List Token → Token → Prop} (sound : action.Sound reads) :
    (withoutIn action).Sound fun scope => reads scope.withoutIn :=
  sound.inContext _

theorem Sound.inLoop {α : Type} {action : Parse α}
    {reads : Scope → α → List Token → Token → Prop} (sound : action.Sound reads) :
    (inLoop action).Sound fun scope => reads scope.inLoop :=
  sound.inContext _

theorem Sound.inSwitch {α : Type} {action : Parse α}
    {reads : Scope → α → List Token → Token → Prop} (sound : action.Sound reads) :
    (inSwitch action).Sound fun scope => reads scope.inSwitch :=
  sound.inContext _

theorem Sound.withLabel {α : Type} {action : Parse α}
    {reads : Scope → α → List Token → Token → Prop} (label : String)
    (sound : action.Sound reads) :
    (withLabel label action).Sound fun scope => reads (scope.withLabel label) := by
  refine sound.within (fun _ _ => ⟨rfl, rfl⟩) (fun _ => rfl) ?_
  intro state after same
  simp only [State.scope, Scope.withLabel, Scope.mk.injEq] at same ⊢
  obtain ⟨context, labels, options⟩ := same
  exact ⟨context, by rw [labels, Labels.pop_push], options⟩

theorem sound_identifierReference : identifierReference.Sound fun scope name tokens _ =>
    ∃ token, tokens = [token] ∧ scope.Refers token name := by
  intro state
  rw [identifierReference, ensures_lookahead]
  split
  · rename_i name lexeme
    apply ensures_consume (.refl state) (by simp [lexeme])
    intro after consumed
    rw [ensures_isStrict]
    split
    · exact ensures_fail_bind
    · rename_i allowed
      rw [ensures_pure]
      refine ⟨[state.lookahead], consumed, state.lookahead, rfl, lexeme, rfl, ?_⟩
      intro strict
      have strictAfter : after.context.strict = true := by rw [consumed.context]; exact strict
      simpa [strictAfter] using allowed
  · exact ensures_unexpected

theorem sound_bindingIdentifier : bindingIdentifier.Sound fun scope name tokens _ =>
    ∃ token, tokens = [token] ∧ scope.Binds token name := by
  intro state
  rw [bindingIdentifier]
  apply sound_identifierReference.step (.refl state)
  rintro name tokens after consumed _ ⟨token, rfl, refers⟩
  rw [ensures_isStrict]
  split
  · exact ensures_fail_bind
  · rename_i allowed
    rw [ensures_pure]
    refine ⟨[token], consumed, token, rfl, refers, ?_⟩
    intro strict
    have strictAfter : after.context.strict = true := by rw [consumed.context]; exact strict
    simpa [strictAfter] using allowed

theorem sound_identifierName : identifierName.Sound fun _ name tokens _ =>
    ∃ token, tokens = [token] ∧ token.kind.isIdentifierName = true ∧
      name = ⟨token.name?.getD "", token.span⟩ := by
  intro state
  rw [identifierName, ensures_lookahead]
  split
  · rename_i named
    apply ensures_consume (.refl state)
    · intro ended
      simp [Token.kind, ended, Lexeme.kind, Kind.isIdentifierName, Kind.isReservedWord] at named
    · intro after consumed
      rw [ensures_pure]
      exact ⟨[state.lookahead], consumed, _, rfl, named, rfl⟩
  · exact ensures_unexpected

end Parse

namespace Grammar

open Parse

variable {self : Nonterminals}

theorem sound_statementList (sound : self.Sound) :
    (statementList self).Sound fun scope statements => Reads scope (.statements statements) := by
  apply sound.listItem.itemsUntil
  · exact fun scope next ended => .statementsNone ended
  · intro scope first follower others next tokens rest reads opens _ readsOthers
    exact .statementsMore reads opens readsOthers

theorem sound_formalParameters :
    (formalParameters self).Sound fun scope names tokens _ => scope.HasParameters names tokens := by
  intro state
  rw [formalParameters]
  apply ensures_require (.refl state)
  intro between opening consumed
  rw [ensures_sees]
  split
  · rw [pure_bind]
    apply ensures_require consumed
    intro after closing consumed
    rw [ensures_pure]
    exact ⟨_, consumed, .none opening closing⟩
  · have separated : (separated bindingIdentifier self.turns).Sound
        fun scope names tokens _ => scope.HasBindings names tokens := by
      apply sound_bindingIdentifier.separated
      · rintro scope first tokens next ⟨token, rfl, binds⟩ _
        exact .one binds
      · rintro scope first comma others next tokens rest ⟨token, rfl, binds⟩ mark bindings
        exact .more binds mark bindings
    apply separated.step consumed
    intro names tokens last consumed _ bindings
    apply ensures_require consumed
    intro after closing consumed
    rw [ensures_pure]
    exact ⟨_, consumed, by simpa using Scope.HasParameters.some opening bindings closing⟩

/-- A statement that is a directive is a string literal at its start. -/
theorem eq_of_directive? {opening : Token} {statement : Statement} {value : Expression}
    {span : Span} (found : directive? opening statement = some (value, span)) :
    ∃ text raw, value = .literal (.string text) raw opening.span ∧
      statement = .expression (.literal (.string text) raw opening.span) none span := by
  unfold directive? at found
  split at found
  · rename_i text raw literalSpan span
    split at found
    · rename_i same
      cases found
      subst same
      exact ⟨text, raw, rfl, rfl⟩
    · contradiction
  · contradiction

/-- Code that becomes strict stays at its place. -/
theorem ensures_enableStrict {α : Type} {rest : Unit → Parse α} {state : State}
    {property : α → State → Prop}
    (next : ∀ after, after.point = state.point →
      after.scope = state.scope.afterDirective "use strict" → (rest ()).Ensures after property) :
    (enableStrict >>= rest).Ensures state property := by
  rw [ensures_bind]
  constructor
  intro value after run
  obtain ⟨events, same, succeeds⟩ := enableStrict_ok state
  rw [succeeds] at run
  cases run
  apply next
  · rw [State.point, same]
    rfl
  · rfl

/-- Some directives, and perhaps a statement, make a body of the statements after them. -/
def OpensBody (start : State) (opening : List Statement) (after : State) : Prop :=
  after.options = start.options ∧ ∃ tokens, start.point.Passes tokens after.point ∧
    ∀ statements rest next, after.lookahead.Opens rest next →
      Reads after.scope (.statements statements) rest next →
      Reads start.scope (.body (opening ++ statements)) (tokens ++ rest) next

/-- No directive stands where a statement begins with anything but a string. -/
theorem opensBody_nil {state : State} (other : state.lookahead.kind ≠ .stringLiteral) :
    OpensBody state [] state := by
  refine ⟨rfl, [], .none, ?_⟩
  intro statements rest next opens reads
  exact .undirected opens (fun string => absurd string other) reads

/-- A statement that begins with a string and is no directive ends the directives. -/
theorem opensBody_statement {start after : State} {tokens : List Token} {first : Statement}
    (string : start.lookahead.kind = .stringLiteral) (consumed : start.Consumes tokens after)
    (reads : Reads start.scope (.statement first) tokens after.lookahead)
    (other : directive? start.lookahead first = none) : OpensBody start [first] after := by
  refine ⟨consumed.options, tokens, consumed.passes, ?_⟩
  intro statements rest next opens readsRest
  rw [consumed.scope] at readsRest
  have notFunction : start.lookahead.kind ≠ .symbol Keyword.functionWord := by simp [string]
  refine .undirected (consumed.opens.append opens) ?_
    (.statementsMore (.item consumed.opens notFunction reads) opens readsRest)
  intro _ found member
  cases member
  exact other

/-- A directive is followed by the other directives, in the scope that it leads to. -/
theorem opensBody_directive {start between state after : State} {tokens : List Token}
    {text raw : String} {span : Span} {others : List Statement}
    (string : start.lookahead.kind = .stringLiteral) (consumed : start.Consumes tokens between)
    (reads : Reads start.scope
      (.statement (.expression (.literal (.string text) raw start.lookahead.span) none span)) tokens
      between.lookahead)
    (point : state.point = between.point)
    (scope : state.scope = start.scope.afterDirective (insideQuotes start.lookahead.text))
    (more : OpensBody state others after) :
    OpensBody start
      (.expression (.literal (.string text) raw start.lookahead.span)
        (some (insideQuotes start.lookahead.text)) span :: others) after := by
  obtain ⟨sameOptions, rest, passes, extended⟩ := more
  rw [point] at passes
  refine ⟨?_, tokens ++ rest, consumed.passes.append passes, ?_⟩
  · have same := congrArg Scope.options scope
    rw [Scope.options_afterDirective] at same
    exact sameOptions.trans same
  · intro statements last next opens readsLast
    have readsOthers := extended statements last next opens readsLast
    rw [scope] at readsOthers
    rw [List.append_assoc]
    exact .directed (.directive string consumed.opens reads) (passes.opens.append opens) readsOthers

theorem ensures_directives (sound : self.Sound) (turns : Nat) (start : State) :
    (directives self.statement turns).Ensures start (OpensBody start) := by
  induction turns generalizing start with
  | zero => exact ensures_exhausted
  | succ turns ih =>
    rw [directives, ensures_lookahead]
    split
    · rename_i other
      rw [ensures_pure]
      exact opensBody_nil (by simpa using other)
    · rename_i string
      have string : start.lookahead.kind = .stringLiteral := by simpa using string
      apply sound.statement.step (.refl start)
      intro first tokens between consumed _ reads
      split
      · rename_i value span found
        obtain ⟨text, raw, rfl, rfl⟩ := eq_of_directive? found
        have continued : ∀ state : State, state.point = between.point →
            state.scope = start.scope.afterDirective (insideQuotes start.lookahead.text) →
            (directives self.statement turns >>= fun others =>
              pure (.expression (.literal (.string text) raw start.lookahead.span)
                (some (insideQuotes start.lookahead.text)) span :: others)).Ensures state
                  (OpensBody start) := by
          intro state point scope
          rw [ensures_bind]
          constructor
          intro others after run
          rw [ensures_pure]
          exact opensBody_directive string consumed reads point scope ((ih state).of_ok run)
        dsimp only
        split
        · rename_i strict
          have strict : insideQuotes start.lookahead.text = "use strict" := by simpa using strict
          apply ensures_enableStrict
          intro state point scope
          rw [consumed.scope, ← strict] at scope
          exact continued state point scope
        · rename_i sloppy
          have sloppy : insideQuotes start.lookahead.text ≠ "use strict" := by simpa using sloppy
          apply continued between rfl
          rw [consumed.scope, Scope.afterDirective, if_neg sloppy]
      · rename_i found
        rw [ensures_pure]
        exact opensBody_statement string consumed reads found

/-- The statements of a function up to the closing brace. -/
theorem ensures_functionStatements (sound : self.Sound) (start : State) :
    (do
      let opening ← directives self.statement self.turns
      let others ← statementList self
      require Punctuator.rightBrace
      return opening ++ others : Parse (List Statement)).Ensures start fun statements after =>
        after.options = start.options ∧ ∃ (tokens : List Token) (closing : Token),
          start.point.Passes (tokens ++ [closing]) after.point ∧
          Reads start.scope (.body statements) tokens closing ∧
          closing.kind = .symbol Punctuator.rightBrace := by
  rw [ensures_bind]
  constructor
  intro opening middle run
  obtain ⟨options, tokens, passes, extended⟩ := (ensures_directives sound _ _).of_ok run
  apply (sound_statementList sound).step (.refl middle)
  intro others rest last consumed opens reads
  apply ensures_require consumed
  intro after closing consumed
  rw [ensures_pure]
  refine ⟨consumed.options.trans options, tokens ++ rest, last.lookahead, ?_, ?_, closing⟩
  · rw [List.append_assoc]
    exact passes.append consumed.passes
  · exact extended others rest _ opens reads

theorem sound_functionBody (sound : self.Sound) :
    (functionBody self).Sound fun scope body => Reads scope.inFunction (.functionBody body) := by
  intro state
  rw [functionBody, ensures_nodeStart]
  apply ensures_require (.refl state)
  intro between opening consumed
  rw [ensures_bind, Parse.inFunction, ensures_within]
  constructor
  intro statements inner run
  obtain ⟨options, tokens, closing, passes, reads, closes⟩ :=
    (ensures_functionStatements sound _).of_ok run
  rw [ensures_spanFrom, ensures_pure]
  have inside : between.Consumes (tokens ++ [closing])
      { inner with context := between.context, labels := between.labels } :=
    ⟨by simp only [State.scope, options], passes⟩
  have whole := consumed.trans inside
  rw [whole.span (by simp)]
  refine ⟨_, whole, .functionBody opening ?_ closes⟩
  have same := consumed.scope
  rw [← same]
  exact reads

theorem sound_functionExpression (sound : self.Sound) :
    (functionExpression self).Sound fun scope value => Reads scope (.fits .primary value) := by
  intro state
  rw [functionExpression, ensures_nodeStart]
  apply ensures_require (.refl state)
  intro between word consumed
  rw [ensures_sees]
  have rest : ∀ name nameTokens after, state.scope.HasFunctionName name nameTokens →
      state.Consumes (state.lookahead :: nameTokens) after →
      (do
        let parameters ← formalParameters self
        let body ← functionBody self
        return Expression.function name parameters body
          (← spanFrom state.lookahead.span.start)).Ensures after fun value last =>
        ∃ tokens, state.Consumes tokens last ∧
          Reads state.scope (.fits .primary value) tokens last.lookahead := by
    intro name nameTokens after named consumed
    apply sound_formalParameters.step consumed
    intro parameters parameterTokens between consumed _ hasParameters
    apply (sound_functionBody sound).step consumed
    intro body bodyTokens last consumed _ reads
    rw [ensures_spanFrom, ensures_pure, consumed.span (by simp)]
    refine ⟨_, consumed, ?_⟩
    simpa using Reads.made (.functionExpression word named (.function hasParameters reads))
  dsimp only
  split
  · rw [bind_map_left]
    apply sound_bindingIdentifier.step consumed
    rintro name tokens after consumed _ ⟨token, rfl, binds⟩
    exact rest _ _ _ (.some binds) consumed
  · rw [pure_bind]
    exact rest _ _ _ .none consumed

theorem sound_functionDeclaration (sound : self.Sound) :
    (functionDeclaration self).Sound fun scope value => Reads scope (.item value) := by
  intro state
  rw [functionDeclaration, ensures_nodeStart]
  apply ensures_require (.refl state)
  intro between word consumed
  apply sound_bindingIdentifier.step consumed
  rintro name tokens between consumed _ ⟨token, rfl, binds⟩
  apply sound_formalParameters.step consumed
  intro parameters parameterTokens between consumed _ hasParameters
  apply (sound_functionBody sound).step consumed
  intro body bodyTokens last consumed _ reads
  rw [ensures_spanFrom, ensures_pure, consumed.span (by simp)]
  refine ⟨_, consumed, ?_⟩
  simpa using Reads.functionDeclaration word binds (.function hasParameters reads)

end Grammar

end EcmaScript
