import EcmaScript.Grammar.Expression
import EcmaScript.Proofs.Restriction

/-!
# Refused parts of expressions

A restricted parse and a lenient one build the same expressions, but for those in which some node is
refused. There is one lemma for each production of functions and expressions, over constructs of the
grammar for which the same is known.
-/

namespace EcmaScript

variable {restriction : Restriction} {inFunction : Bool}

/-- The constructs by which the grammar is recursive give a restricted parse just those of their
results in which no node is refused. -/
structure Nonterminals.Tightens (grammar : Nonterminals) (restriction : Restriction) : Prop where
  expression : ∀ {inFunction}, Parse.Tightens restriction inFunction True grammar.expression
    fun value => restriction.Accepts inFunction (.expression value)
  assignment : ∀ {inFunction}, Parse.Tightens restriction inFunction True grammar.assignment
    fun value => restriction.Accepts inFunction (.expression value)
  unary : ∀ {inFunction}, Parse.Tightens restriction inFunction True grammar.unary
    fun value => restriction.Accepts inFunction (.expression value)
  operators : ∀ {inFunction} (start : Position) (tier : Nat) (left : Expression),
    Parse.Tightens restriction inFunction (restriction.Accepts inFunction (.expression left))
      (grammar.operators start tier left)
      fun value => restriction.Accepts inFunction (.expression value)
  callee : ∀ {inFunction}, Parse.Tightens restriction inFunction True grammar.callee
    fun value => restriction.Accepts inFunction (.expression value)
  statement : ∀ {inFunction}, Parse.Tightens restriction inFunction True grammar.statement
    fun value => restriction.Accepts inFunction (.statement value)
  listItem : ∀ {inFunction}, Parse.Tightens restriction inFunction True grammar.listItem
    fun value => restriction.Accepts inFunction (.statement value)

namespace Parse

/-- Words that strict code reserves are refused. -/
theorem tightens_identifierReference :
    Tightens restriction inFunction True identifierReference fun item =>
      restriction.strict = true → isStrictReservedWord item.name = false := by
  rw [identifierReference]
  apply Tightens.lookahead
  intro token _
  split
  · rename_i name _
    apply Tightens.skip .consume
    apply Tightens.check (by rintro _ _ _ ⟨⟩)
    exact .pure (by simp)
  · exact .unexpected

theorem tightens_bindingIdentifier :
    Tightens restriction inFunction True bindingIdentifier fun item =>
      restriction.Accepts inFunction (.binding item) := by
  rw [bindingIdentifier]
  apply Tightens.step tightens_identifierReference
  intro item
  apply Tightens.check (by rintro _ _ _ ⟨⟩)
  apply Tightens.checked
  cases strict : restriction.strict <;>
    simp [Restriction.permits, Node.isStrictlyAllowed, Node.isReturn, Node.children, strict]

theorem tightens_identifierName :
    Tightens restriction inFunction True identifierName fun _ => True := by
  rw [identifierName]
  apply Tightens.lookahead
  intro token _
  split
  · apply Tightens.skip .consume
    exact .pure Iff.rfl
  · exact .unexpected

end Parse

namespace Grammar

open Parse

variable {self : Nonterminals}

theorem tightens_statementList (nested : self.Tightens restriction) :
    Parse.Tightens restriction inFunction True (statementList self) fun body =>
      ∀ statement ∈ body, restriction.Accepts inFunction (.statement statement) :=
  .itemsUntil nested.listItem self.turns

/-- A directive is accepted when the statement that it was is. -/
theorem accepts_directive {opening : Token} {statement : Statement} {value : Expression}
    {span : Span} {text : String} (found : directive? opening statement = some (value, span)) :
    restriction.Accepts inFunction (.statement (.expression value (some text) span)) ↔
      restriction.Accepts inFunction (.statement statement) := by
  unfold directive? at found
  split at found
  · split at found
    · cases found
      rw [Restriction.accepts_iff, Restriction.accepts_iff]
      rfl
    · contradiction
  · contradiction

theorem tightens_directives {statement : Parse Statement}
    (tightens : Parse.Tightens restriction inFunction True statement fun value =>
      restriction.Accepts inFunction (.statement value)) (turns : Nat) :
    Parse.Tightens restriction inFunction True (directives statement turns) fun body =>
      ∀ statement ∈ body, restriction.Accepts inFunction (.statement statement) := by
  induction turns with
  | zero => exact .exhausted
  | succ turns ih =>
    rw [directives]
    apply Tightens.lookahead
    intro opening _
    split
    · exact .pure (by simp)
    · apply Tightens.step tightens
      intro first
      split
      · rename_i value span found
        have directed : ∀ others : List Statement,
            (True ∧ restriction.Accepts inFunction (.statement first)) ∧
                (∀ other ∈ others, restriction.Accepts inFunction (.statement other)) ↔
              ∀ other ∈ .expression value (some (insideQuotes opening.text)) span :: others,
                restriction.Accepts inFunction (.statement other) := by
          intro others
          rw [List.forall_mem_cons, accepts_directive found, true_and]
        dsimp only
        split
        · apply Tightens.skip .enableStrict
          apply Tightens.step ih
          intro others
          exact .pure (directed others)
        · apply Tightens.step ih
          intro others
          exact .pure (directed others)
      · exact .pure (by simp)

theorem tightens_formalParameters :
    Parse.Tightens restriction inFunction True (formalParameters self) fun parameters =>
      ∀ name ∈ parameters, restriction.Accepts inFunction (.binding name) := by
  rw [formalParameters]
  apply Tightens.skip .require
  apply Tightens.sees
  intro closed
  dsimp only
  split
  · rw [pure_bind]
    apply Tightens.skip .require
    exact .pure (by simp)
  · apply Tightens.step (.separated tightens_bindingIdentifier _)
    intro parameters
    apply Tightens.skip .require
    exact .pure (by simp)

theorem tightens_functionBody (nested : self.Tightens restriction) :
    Parse.Tightens restriction inFunction True (functionBody self) fun body =>
      restriction.Accepts true (.block body) := by
  have inside : Parse.Tightens restriction true True
      (do
        let opening ← directives self.statement self.turns
        let others ← statementList self
        require Punctuator.rightBrace
        return opening ++ others)
      fun body => ∀ statement ∈ body, restriction.Accepts true (.statement statement) := by
    apply Tightens.step (tightens_directives nested.statement _)
    intro opening
    apply Tightens.step (tightens_statementList nested)
    intro others
    apply Tightens.skip .require
    apply Tightens.pure
    rw [List.forall_mem_append, true_and]
  rw [functionBody]
  apply Tightens.nodeStart
  intro start
  apply Tightens.skip .require
  apply Tightens.step (.withinFunction inside)
  intro body
  apply Tightens.spanFrom
  intro span
  refine .made rfl rfl ?_
  simp [Node.children, Step.entersFunction]

theorem tightens_functionExpression (nested : self.Tightens restriction) :
    Parse.Tightens restriction inFunction True (functionExpression self) fun value =>
      restriction.Accepts inFunction (.expression value) := by
  have rest : ∀ (start : Position) (name : Option Identifier), Parse.Tightens restriction inFunction
      (∀ item ∈ name.toList, restriction.Accepts inFunction (.binding item))
      (do
        let parameters ← formalParameters self
        let body ← functionBody self
        return .function name parameters body (← spanFrom start))
      fun value => restriction.Accepts inFunction (.expression value) := by
    intro start name
    apply Tightens.step tightens_formalParameters
    intro parameters
    apply Tightens.step (tightens_functionBody nested)
    intro body
    apply Tightens.spanFrom
    intro span
    refine .made rfl rfl ?_
    simp [Node.children, Expression.children, Step.entersFunction, or_imp, forall_and, and_assoc]
  rw [functionExpression]
  apply Tightens.nodeStart
  intro start
  apply Tightens.skip .require
  apply Tightens.sees
  intro named
  dsimp only
  split
  · rw [bind_map_left]
    apply Tightens.step tightens_bindingIdentifier
    intro name
    exact (rest start (some name)).congr (by simp) fun _ => Iff.rfl
  · rw [pure_bind]
    exact (rest start none).congr (by simp) fun _ => Iff.rfl

theorem tightens_functionDeclaration (nested : self.Tightens restriction) :
    Parse.Tightens restriction inFunction True (functionDeclaration self) fun value =>
      restriction.Accepts inFunction (.statement value) := by
  rw [functionDeclaration]
  apply Tightens.nodeStart
  intro start
  apply Tightens.skip .require
  apply Tightens.step tightens_bindingIdentifier
  intro name
  apply Tightens.step tightens_formalParameters
  intro parameters
  apply Tightens.step (tightens_functionBody nested)
  intro body
  apply Tightens.spanFrom
  intro span
  refine .made rfl rfl ?_
  simp [Node.children, Statement.children, Step.entersFunction, or_imp, forall_and, and_assoc]

/-- The token of a literal is refused in strict code when it is a string with a legacy escape. -/
theorem tightens_literalToken {token : Token} (faithful : token.Faithful) :
    Parse.Tightens restriction inFunction True (upon token literalToken) fun literal =>
      restriction.strict = true → token.lexeme.isLegacyString literal.1.toList = false := by
  rw [literalToken, upon_lookahead]
  apply Tightens.upon
  apply Tightens.skip .consume
  apply Tightens.check (by rintro _ _ _ ⟨⟩)
  apply Tightens.pure
  rw [faithful, true_and]

/-- The value of a literal is a string when its lexeme is one. -/
theorem isStrictlyAllowed_literal {lexeme : Lexeme} {value : Literal} (raw : String) (span : Span)
    (found : lexeme.literal? = some value) :
    Node.isStrictlyAllowed (.expression (.literal value raw span)) =
      !lexeme.isLegacyString raw.toList := by
  unfold Lexeme.literal? at found
  split at found <;> cases found <;> rfl

theorem tightens_literal {token : Token} {value : Literal} (faithful : token.Faithful)
    (found : token.lexeme.literal? = some value) :
    Parse.Tightens restriction inFunction True (upon token (literal value)) fun value =>
      restriction.Accepts inFunction (.expression value) := by
  rw [literal, upon_bind]
  refine .step (tightens_literalToken faithful) fun (raw, span) => ?_
  refine .checked ?_
  rw [Restriction.permits, isStrictlyAllowed_literal raw span found]
  cases strict : restriction.strict <;>
    simp [Node.isReturn, Node.children, Expression.children]

theorem tightens_regularExpression {front : List Char} :
    Parse.Tightens restriction inFunction True (regularExpression front) fun value =>
      restriction.Accepts inFunction (.expression value) := by
  rw [regularExpression]
  apply Tightens.skip .reread
  apply Tightens.opening
  intro token faithful
  split
  · rename_i value found
    exact tightens_literal faithful found
  · exact .upon .unexpected

theorem tightens_checkTarget {target : Expression} :
    Parse.Tightens restriction inFunction True (checkTarget target) fun _ =>
      restriction.strict = true → target.name?.any isEvalOrArguments = false := by
  rw [checkTarget]
  apply Tightens.check (by rintro _ _ _ ⟨⟩)
  exact .pure (by simp)

theorem tightens_arguments (nested : self.Tightens restriction) :
    Parse.Tightens restriction inFunction True (arguments self) fun items =>
      ∀ item ∈ items, restriction.Accepts inFunction (.expression item) := by
  rw [arguments]
  apply Tightens.skip .require
  apply Tightens.withIn
  apply Tightens.sees
  intro closed
  dsimp only
  split
  · rw [pure_bind]
    apply Tightens.skip .require
    exact .pure (by simp)
  · apply Tightens.step (.separated nested.assignment _)
    intro items
    apply Tightens.skip .require
    exact .pure (by simp)

theorem tightens_parenthesized (nested : self.Tightens restriction) :
    Parse.Tightens restriction inFunction True (parenthesized self) fun value =>
      restriction.Accepts inFunction (.expression value) := by
  rw [parenthesized]
  apply Tightens.skip .require
  apply Tightens.step (.withIn nested.expression)
  intro value
  apply Tightens.skip .require
  exact .pure (by simp)

theorem tightens_itemWithComma {α : Type} {closing : Punctuator} {item : Parse α}
    {accepts : α → Prop} (tightens : Parse.Tightens restriction inFunction True item accepts) :
    Parse.Tightens restriction inFunction True (itemWithComma closing item) accepts := by
  rw [itemWithComma]
  apply Tightens.step tightens
  intro value
  apply Tightens.sees
  intro closed
  dsimp only
  split
  · exact .pure (by simp)
  · apply Tightens.skip .require
    exact .pure (by simp)

theorem tightens_element (nested : self.Tightens restriction) :
    Parse.Tightens restriction inFunction True (element self) fun element =>
      ∀ value ∈ element, restriction.Accepts inFunction (.expression value) := by
  rw [element]
  apply Tightens.consumeIf
  intro comma
  split
  · exact .pure (by simp)
  · exact .map (tightens_itemWithComma nested.assignment) (by simp)

theorem tightens_arrayLiteral (nested : self.Tightens restriction) :
    Parse.Tightens restriction inFunction True (arrayLiteral self) fun value =>
      restriction.Accepts inFunction (.expression value) := by
  rw [arrayLiteral]
  apply Tightens.nodeStart
  intro start
  apply Tightens.skip .require
  apply Tightens.step (.withIn (.itemsUntil (tightens_element nested) _))
  intro elements
  apply Tightens.skip .require
  apply Tightens.spanFrom
  intro span
  refine .made rfl rfl ?_
  simp only [Node.children, Expression.children, Step.entersFunction, List.forall_mem_map,
    List.mem_filterMap, Bool.or_false, true_and]
  constructor
  · rintro every value ⟨element, member, rfl⟩
    exact every _ member value rfl
  · rintro every element member value rfl
    exact every value ⟨some value, member, rfl⟩

theorem tightens_literalKey {token : Token} {value : Literal} (faithful : token.Faithful)
    (found : token.lexeme.literal? = some value) :
    Parse.Tightens restriction inFunction True (upon token (literalKey value)) fun key =>
      restriction.Accepts inFunction (.key key) := by
  rw [literalKey, upon_bind]
  refine .step (tightens_literalToken faithful) fun (raw, span) => ?_
  refine .checked ?_
  have allowed : Node.isStrictlyAllowed (.key (.literal value raw span)) =
      !token.lexeme.isLegacyString raw.toList := by
    rw [← isStrictlyAllowed_literal raw span found]
    cases value <;> rfl
  rw [Restriction.permits, allowed]
  cases strict : restriction.strict <;> simp [Node.isReturn, Node.children]

theorem accepts_identifierKey (name : Identifier) :
    restriction.Accepts inFunction (.key (.identifier name)) := by
  rw [Restriction.accepts_plain rfl rfl]
  simp [Node.children]

theorem accepts_name (name : Identifier) : restriction.Accepts inFunction (.name name) := by
  rw [Restriction.accepts_plain rfl rfl]
  simp [Node.children]

theorem tightens_propertyKey :
    Parse.Tightens restriction inFunction True propertyKey fun key =>
      restriction.Accepts inFunction (.key key) := by
  rw [propertyKey]
  apply Tightens.opening
  intro token faithful
  split
  · rename_i value found
    exact tightens_literalKey faithful (by rw [found]; rfl)
  · rename_i value found
    exact tightens_literalKey faithful (by rw [found]; rfl)
  · apply Tightens.upon
    exact .map tightens_identifierName fun name => by simp [accepts_identifierKey]

theorem tightens_accessorFunction (nested : self.Tightens restriction) {kind : PropertyKind} :
    Parse.Tightens restriction inFunction True (accessorFunction self kind) fun value =>
      restriction.Accepts inFunction (.expression value) := by
  rw [accessorFunction]
  apply Tightens.nodeStart
  intro start
  apply Tightens.step tightens_formalParameters
  intro parameters
  refine .skip ?_ ?_
  · unfold checkAccessor
    split
    · exact .fail
    · exact .pure Iff.rfl
    · exact .fail
    · exact .pure Iff.rfl
  · apply Tightens.step (tightens_functionBody nested)
    intro body
    apply Tightens.spanFrom
    intro span
    refine .made rfl rfl ?_
    simp [Node.children, Expression.children, Step.entersFunction, or_imp, forall_and]

theorem tightens_propertyValue (nested : self.Tightens restriction) {start : Position}
    {key : PropertyKey} :
    Parse.Tightens restriction inFunction (restriction.Accepts inFunction (.key key))
      (propertyValue self start key) fun value =>
      restriction.Accepts inFunction (.property value) := by
  rw [propertyValue]
  apply Tightens.skip .require
  apply Tightens.step nested.assignment
  intro value
  apply Tightens.spanFrom
  intro span
  refine .made rfl rfl ?_
  simp [Node.children, Step.entersFunction]

theorem tightens_property (nested : self.Tightens restriction) :
    Parse.Tightens restriction inFunction True (property self) fun value =>
      restriction.Accepts inFunction (.property value) := by
  rw [property]
  apply Tightens.lookahead
  intro opening _
  dsimp only
  split
  · apply Tightens.skip .consume
    apply Tightens.kind
    intro kind
    split
    · apply Tightens.step tightens_propertyKey
      intro key
      apply Tightens.step (tightens_accessorFunction nested)
      intro value
      apply Tightens.spanFrom
      intro span
      refine .made rfl rfl ?_
      simp [Node.children, Step.entersFunction]
    · refine (tightens_propertyValue nested).congr ?_ fun _ => Iff.rfl
      simp [accepts_identifierKey]
  · apply Tightens.step tightens_propertyKey
    intro key
    refine (tightens_propertyValue nested).congr ?_ fun _ => Iff.rfl
    simp

theorem tightens_objectLiteral (nested : self.Tightens restriction) :
    Parse.Tightens restriction inFunction True (objectLiteral self) fun value =>
      restriction.Accepts inFunction (.expression value) := by
  rw [objectLiteral]
  apply Tightens.nodeStart
  intro start
  apply Tightens.skip .require
  refine .step (.withIn (.itemsUntil (tightens_itemWithComma (tightens_property nested)) _))
    fun properties => ?_
  apply Tightens.skip .require
  apply Tightens.spanFrom
  intro span
  refine .made rfl rfl ?_
  simp [Node.children, Expression.children, Step.entersFunction]

/-- A name is accepted when strict code does not reserve it. -/
theorem accepts_identifier {item : Identifier} :
    restriction.Accepts inFunction (.expression (.identifier item)) ↔
      (restriction.strict = true → isStrictReservedWord item.name = false) := by
  rw [Restriction.accepts_iff]
  cases strict : restriction.strict <;>
    simp [Restriction.permits, Node.isStrictlyAllowed, Node.isReturn, Node.children,
      Expression.children, strict]

theorem tightens_primary (nested : self.Tightens restriction) :
    Parse.Tightens restriction inFunction True (primary self) fun value =>
      restriction.Accepts inFunction (.expression value) := by
  rw [primary]
  apply Tightens.opening
  intro token faithful
  split
  · refine .upon (.skip .consume ?_)
    refine .made rfl rfl ?_
    simp [Node.children, Expression.children]
  · exact .upon (.map tightens_identifierReference fun _ => accepts_identifier.symm)
  · exact .upon (tightens_parenthesized nested)
  · exact .upon (tightens_arrayLiteral nested)
  · exact .upon (tightens_objectLiteral nested)
  · exact .upon (tightens_functionExpression nested)
  · split
    · exact .upon tightens_regularExpression
    · rename_i value _ found
      exact tightens_literal faithful found
    · exact .upon .unexpected

theorem tightens_newExpression (nested : self.Tightens restriction) :
    Parse.Tightens restriction inFunction True (newExpression self) fun value =>
      restriction.Accepts inFunction (.expression value) := by
  rw [newExpression]
  apply Tightens.nodeStart
  intro start
  apply Tightens.skip .require
  apply Tightens.step nested.callee
  intro callee
  apply Tightens.sees
  intro opened
  dsimp only
  split
  · apply Tightens.step (tightens_arguments nested)
    intro items
    apply Tightens.spanFrom
    intro span
    refine .made rfl rfl ?_
    simp [Node.children, Expression.children, Step.entersFunction]
  · rw [pure_bind]
    apply Tightens.spanFrom
    intro span
    refine .made rfl rfl ?_
    simp [Node.children, Expression.children, Step.entersFunction]

theorem tightens_suffixes (nested : self.Tightens restriction) {withCalls : Bool}
    {start : Position} (turns : Nat) (holder : Expression) :
    Parse.Tightens restriction inFunction (restriction.Accepts inFunction (.expression holder))
      (suffixes self withCalls start turns holder) fun value =>
      restriction.Accepts inFunction (.expression value) := by
  induction turns generalizing holder with
  | zero => exact .exhausted
  | succ turns ih =>
    rw [suffixes]
    apply Tightens.lookahead
    intro token _
    split
    · apply Tightens.skip .consume
      apply Tightens.step tightens_identifierName
      intro name
      apply Tightens.spanFrom
      intro span
      refine (ih _).congr ?_ fun _ => Iff.rfl
      refine Iff.trans ?_ (Restriction.accepts_plain rfl rfl).symm
      simp [Node.children, Expression.children, Step.entersFunction, accepts_name]
    · apply Tightens.skip .consume
      apply Tightens.step (.withIn nested.expression)
      intro name
      apply Tightens.skip .require
      apply Tightens.spanFrom
      intro span
      refine (ih _).congr ?_ fun _ => Iff.rfl
      refine Iff.trans ?_ (Restriction.accepts_plain rfl rfl).symm
      simp [Node.children, Expression.children, Step.entersFunction]
    · split
      · apply Tightens.step (tightens_arguments nested)
        intro items
        apply Tightens.spanFrom
        intro span
        refine (ih _).congr ?_ fun _ => Iff.rfl
        refine Iff.trans ?_ (Restriction.accepts_plain rfl rfl).symm
        simp [Node.children, Expression.children, Step.entersFunction]
      · exact .pure Iff.rfl
    · exact .pure Iff.rfl

theorem tightens_leftHandSide (nested : self.Tightens restriction) {withCalls : Bool} :
    Parse.Tightens restriction inFunction True (leftHandSide self withCalls) fun value =>
      restriction.Accepts inFunction (.expression value) := by
  rw [leftHandSide]
  apply Tightens.nodeStart
  intro start
  apply Tightens.sees
  intro opened
  dsimp only
  split
  · exact .bind (tightens_newExpression nested) (tightens_suffixes nested self.turns)
  · exact .bind (tightens_primary nested) (tightens_suffixes nested self.turns)

/-- An operand of `++` or `--` is accepted with the operator when strict code may assign to it. -/
theorem accepts_update {operator : UpdateOperator} {placement : Placement} {target : Expression}
    {span : Span} :
    restriction.Accepts inFunction (.expression (.update operator placement target span)) ↔
      restriction.Accepts inFunction (.expression target) ∧
        (restriction.strict = true → target.name?.any isEvalOrArguments = false) := by
  apply Restriction.accepts_iff.trans
  cases strict : restriction.strict <;>
    simp [Restriction.permits, Node.isStrictlyAllowed, Node.isReturn, Node.children,
      Expression.children, Step.entersFunction, strict, and_comm]

theorem tightens_update (nested : self.Tightens restriction) :
    Parse.Tightens restriction inFunction True (update self) fun value =>
      restriction.Accepts inFunction (.expression value) := by
  rw [update]
  apply Tightens.nodeStart
  intro start
  apply Tightens.kind
  intro kind
  split
  · apply Tightens.skip .consume
    apply Tightens.step nested.unary
    intro target
    dsimp only
    split
    · apply Tightens.step tightens_checkTarget
      intro _
      apply Tightens.spanFrom
      intro span
      exact .pure (by rw [accepts_update, true_and])
    · exact .fail_bind
  · apply Tightens.step (tightens_leftHandSide nested)
    intro target
    apply Tightens.lookahead
    intro token _
    split
    · dsimp only
      split
      · apply Tightens.step tightens_checkTarget
        intro _
        apply Tightens.skip .consume
        apply Tightens.spanFrom
        intro span
        exact .pure (by rw [accepts_update, true_and])
      · exact .fail_bind
    · exact .pure (by simp)

theorem tightens_checkDelete {operator : UnaryOperator} {argument : Expression}
    {start : Position} :
    Parse.Tightens restriction inFunction True (checkDelete operator argument start) fun _ =>
      restriction.strict = true → (operator == .delete && argument.name?.isSome) = false := by
  have strictFirst : ∀ strict : Bool, (operator == .delete && strict && argument.name?.isSome) =
      (strict && (operator == .delete && argument.name?.isSome)) := by
    intro strict
    rw [Bool.and_comm _ strict, Bool.and_assoc]
  simp only [checkDelete, strictFirst]
  apply Tightens.check (by rintro _ _ _ ⟨⟩)
  exact .pure (by rw [true_and])

/-- The operand of a unary operator is accepted with it when strict code may delete it. -/
theorem accepts_unary {operator : UnaryOperator} {argument : Expression} {span : Span} :
    restriction.Accepts inFunction (.expression (.unary operator argument span)) ↔
      restriction.Accepts inFunction (.expression argument) ∧ (restriction.strict = true →
        (operator == .delete && argument.name?.isSome) = false) := by
  have allowed : Node.isStrictlyAllowed (.expression (.unary operator argument span)) =
      !(operator == .delete && argument.name?.isSome) := by
    cases operator <;> cases argument <;> rfl
  apply Restriction.accepts_iff.trans
  rw [Restriction.permits, allowed]
  generalize (operator == .delete && argument.name?.isSome) = bad
  cases strict : restriction.strict <;>
    simp [Node.isReturn, Node.children, Expression.children, Step.entersFunction, and_comm]

theorem tightens_unary (nested : self.Tightens restriction) :
    Parse.Tightens restriction inFunction True (unary self) fun value =>
      restriction.Accepts inFunction (.expression value) := by
  rw [unary]
  apply Tightens.nodeStart
  intro start
  apply Tightens.kind
  intro kind
  split
  · rename_i operator _
    apply Tightens.skip .consume
    apply Tightens.step nested.unary
    intro argument
    apply Tightens.step tightens_checkDelete
    intro _
    apply Tightens.spanFrom
    intro span
    exact .pure (by rw [accepts_unary, true_and])
  · exact tightens_update nested

theorem tightens_binaryOperator? {rest : Option BinaryOperator → Parse Expression} {before : Prop}
    {accepts : Expression → Prop}
    (each : ∀ operator, Parse.Tightens restriction inFunction before (rest operator) accepts) :
    Parse.Tightens restriction inFunction before (binaryOperator? >>= rest) accepts := by
  rw [binaryOperator?, bind_assoc]
  apply Tightens.kind
  intro kind
  rw [bind_assoc]
  refine .get ?_ fun state _ => ?_
  · intro lenient strict twin
    rw [twin.context]
  · split
    · exact each none
    · exact each kind.binaryOperator?

theorem tightens_rightOperand (nested : self.Tightens restriction) {start : Position} {tier : Nat}
    (turns : Nat) (right : Expression) :
    Parse.Tightens restriction inFunction (restriction.Accepts inFunction (.expression right))
      (rightOperand self start tier turns right) fun value =>
      restriction.Accepts inFunction (.expression value) := by
  induction turns generalizing right with
  | zero => exact .exhausted
  | succ turns ih =>
    rw [rightOperand]
    apply tightens_binaryOperator?
    intro operator
    split
    · exact .pure Iff.rfl
    · split
      · exact .bind (nested.operators _ _ _) ih
      · split
        · exact .bind (nested.operators _ _ _) ih
        · exact .pure Iff.rfl

theorem tightens_operators (nested : self.Tightens restriction) {start : Position} {tier : Nat}
    (turns : Nat) (left : Expression) :
    Parse.Tightens restriction inFunction (restriction.Accepts inFunction (.expression left))
      (operators self start tier turns left) fun value =>
      restriction.Accepts inFunction (.expression value) := by
  induction turns generalizing left with
  | zero => exact .exhausted
  | succ turns ih =>
    rw [operators]
    apply tightens_binaryOperator?
    intro operator
    split
    · exact .pure Iff.rfl
    · split
      · exact .pure Iff.rfl
      · apply Tightens.skip .consume
        apply Tightens.nodeStart
        intro rightStart
        apply Tightens.step nested.unary
        intro operand
        apply Tightens.bind ((tightens_rightOperand nested _ operand).frame _)
        intro right
        apply Tightens.spanFrom
        intro span
        refine (ih _).congr ?_ fun _ => Iff.rfl
        refine Iff.trans ?_ (Restriction.accepts_plain rfl rfl).symm
        simp [Node.children, Expression.children, Step.entersFunction]

theorem tightens_binary (nested : self.Tightens restriction) :
    Parse.Tightens restriction inFunction True (binary self) fun value =>
      restriction.Accepts inFunction (.expression value) := by
  rw [binary]
  apply Tightens.nodeStart
  intro start
  exact .bind (tightens_unary nested) (tightens_operators nested self.turns)

theorem tightens_assignment (nested : self.Tightens restriction) :
    Parse.Tightens restriction inFunction True (assignment self) fun value =>
      restriction.Accepts inFunction (.expression value) := by
  rw [assignment]
  apply Tightens.nodeStart
  intro start
  apply Tightens.step (tightens_binary nested)
  intro front
  apply Tightens.kind
  intro kind
  split
  · dsimp only
    split
    · apply Tightens.step tightens_checkTarget
      intro _
      apply Tightens.skip .consume
      apply Tightens.step nested.assignment
      intro value
      apply Tightens.spanFrom
      intro span
      apply Tightens.checked
      cases strict : restriction.strict <;>
        simp [Restriction.permits, Node.isStrictlyAllowed, Node.isReturn, Node.children,
          Expression.children, Step.entersFunction, strict, and_comm, and_assoc]
    · exact .fail_bind
  · apply Tightens.consumeIf
    intro question
    split
    · apply Tightens.step (.withIn nested.assignment)
      intro consequent
      apply Tightens.skip .require
      apply Tightens.step nested.assignment
      intro alternate
      apply Tightens.spanFrom
      intro span
      refine .made rfl rfl ?_
      simp [Node.children, Expression.children, Step.entersFunction, and_assoc]
    · exact .pure (by simp)

theorem tightens_expression (nested : self.Tightens restriction) :
    Parse.Tightens restriction inFunction True (expression self) fun value =>
      restriction.Accepts inFunction (.expression value) := by
  rw [expression]
  apply Tightens.nodeStart
  intro start
  apply Tightens.step (tightens_assignment nested)
  intro first
  apply Tightens.consumeIf
  intro comma
  split
  · apply Tightens.step (.separated nested.assignment _)
    intro others
    apply Tightens.spanFrom
    intro span
    refine .made rfl rfl ?_
    simp [Node.children, Expression.children, Step.entersFunction]
  · exact .pure (by simp)

end Grammar

end EcmaScript
