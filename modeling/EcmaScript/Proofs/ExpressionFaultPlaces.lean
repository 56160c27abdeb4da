import EcmaScript.Grammar.Expression
import EcmaScript.Proofs.FaultPlaces

/-!
# Faults of functions and expressions

Every expression shows where it begins: at a token that it was the first to see, at the position
that a suffix or an operator was given with its left operand, or at the beginning of the expression
that stands in its parentheses. The faults about operands and targets point there. There is one
lemma for each production of functions and expressions.
-/

namespace EcmaScript

/-- The constructs by which the grammar is recursive point at tokens with their faults, and their
expressions begin at tokens. -/
structure Nonterminals.Blames (grammar : Nonterminals) : Prop where
  expression : ∀ {known}, grammar.expression.Blames known fun value => {value.span.start}
  assignment : ∀ {known}, grammar.assignment.Blames known fun value => {value.span.start}
  unary : ∀ {known}, grammar.unary.Blames known fun value => {value.span.start}
  operators : ∀ {known start left} tier, start ∈ known → left.span.start ∈ known →
    (grammar.operators start tier left).Blames known fun value => {value.span.start}
  callee : ∀ {known}, grammar.callee.Blames known fun value => {value.span.start}
  statement : ∀ {known}, grammar.statement.Blames known Parse.nowhere
  listItem : ∀ {known}, grammar.listItem.Blames known Parse.nowhere

namespace Grammar

open Parse

variable {self : Nonterminals} {known : Set Position}

theorem blames_statementList (nested : self.Blames) :
    (statementList self).Blames known nowhere :=
  .itemsUntil _ nested.listItem _

theorem blames_directives {statement : Parse Statement} (blames : statement.Blames known nowhere)
    (turns : Nat) : (directives statement turns).Blames known nowhere := by
  induction turns with
  | zero => exact .exhausted
  | succ turns ih =>
    rw [directives]
    refine .skip (.ignored .lookahead) fun opening => ?_
    refine .choice (.done _) ?_
    refine .skip blames fun first => ?_
    split
    · refine .choice ?_ ?_
      · refine .skip .enableStrict fun _ => ?_
        exact .skip ih fun others => .done _
      · exact .skip ih fun others => .done _
    · exact .done _

theorem blames_formalParameters : (formalParameters self).Blames known nowhere := by
  rw [formalParameters]
  refine .skip (.require _) fun _ => ?_
  refine .skip (.sees _) fun empty => ?_
  refine .option (.done _) (.separated (.ignored .bindingIdentifier) _) fun parameters => ?_
  exact .skip (.require _) fun _ => .done _

theorem blames_functionBody (nested : self.Blames) : (functionBody self).Blames known nowhere := by
  rw [functionBody]
  refine .skip (.ignored .nodeStart) fun start => ?_
  refine .skip (.require _) fun _ => ?_
  refine .skip (.inFunction ?_) fun body => ?_
  · refine .skip (blames_directives nested.statement _) fun opening => ?_
    refine .skip (blames_statementList nested) fun others => ?_
    exact .skip (.require _) fun _ => .done _
  · exact .skip (.spanned _) fun span => .done _

theorem blames_functionExpression (nested : self.Blames) :
    (functionExpression self).Blames known fun value => {value.span.start} := by
  rw [functionExpression]
  refine .bind .nodeStart fun start => ?_
  refine .skip (.require _) fun _ => ?_
  refine .skip (.sees _) fun named => ?_
  refine .option (.wrapped .bindingIdentifier) (.done _) fun name => ?_
  refine .skip blames_formalParameters fun parameters => ?_
  refine .skip (blames_functionBody nested) fun body => ?_
  exact .bind (.spanFrom (.inr rfl)) fun span => .pure Set.subset_union_right

theorem blames_functionDeclaration (nested : self.Blames) :
    (functionDeclaration self).Blames known nowhere := by
  rw [functionDeclaration]
  refine .skip (.ignored .nodeStart) fun start => ?_
  refine .skip (.require _) fun _ => ?_
  refine .skip (.ignored .bindingIdentifier) fun name => ?_
  refine .skip blames_formalParameters fun parameters => ?_
  refine .skip (blames_functionBody nested) fun body => ?_
  exact .skip (.spanned _) fun span => .done _

theorem blames_literalToken : literalToken.Blames known fun token => {token.2.start} := by
  rw [literalToken]
  refine .bind .lookahead fun token => ?_
  refine .skip .consume fun _ => ?_
  refine .skip .isStrict fun strict => ?_
  exact .refuse (.inr rfl) (.pure Set.subset_union_right)

theorem blames_literal (value : Literal) :
    (literal value).Blames known fun value => {value.span.start} := by
  rw [literal]
  exact .bind blames_literalToken fun token => .pure Set.subset_union_right

theorem blames_regularExpression (front : List Char) :
    (regularExpression front).Blames known fun value => {value.span.start} := by
  rw [regularExpression]
  refine .skip (.reread _) fun _ => ?_
  refine .skip (.ignored .lookahead) fun token => ?_
  split
  · exact blames_literal _
  · exact .unexpected

theorem blames_checkTarget {target : Expression} (member : target.span.start ∈ known) :
    (checkTarget target).Blames known nowhere := by
  rw [checkTarget]
  refine .skip .isStrict fun strict => ?_
  exact .choice (.fail _ member) (.done _)

theorem blames_arguments (nested : self.Blames) : (arguments self).Blames known nowhere := by
  rw [arguments]
  refine .skip (.require _) fun _ => .withIn ?_
  refine .skip (.sees _) fun empty => ?_
  refine .option (.done _) (.separated (.ignored nested.assignment) _) fun items => ?_
  exact .skip (.require _) fun _ => .done _

theorem blames_parenthesized (nested : self.Blames) :
    (parenthesized self).Blames known fun value => {value.span.start} := by
  rw [parenthesized]
  refine .skip (.require _) fun _ => ?_
  refine .bind (.withIn nested.expression) fun expression => ?_
  exact .skip (.require _) fun _ => .pure Set.subset_union_right

theorem blames_itemWithComma {α : Type} {item : Parse α} (blames : item.Blames known nowhere)
    (closing : Punctuator) : (itemWithComma closing item).Blames known nowhere := by
  rw [itemWithComma]
  refine .skip blames fun value => ?_
  refine .skip (.sees _) fun ended => ?_
  exact .choice (.done _) (.skip (.require _) fun _ => .done _)

theorem blames_element (nested : self.Blames) : (element self).Blames known nowhere := by
  rw [element]
  refine .skip (.consumeIf _) fun hole => ?_
  exact .choice (.done _) (.wrapped (blames_itemWithComma (.ignored nested.assignment) _))

theorem blames_arrayLiteral (nested : self.Blames) :
    (arrayLiteral self).Blames known fun value => {value.span.start} := by
  rw [arrayLiteral]
  refine .bind .nodeStart fun start => ?_
  refine .skip (.require _) fun _ => ?_
  refine .skip (.withIn (.itemsUntil _ (blames_element nested) _)) fun elements => ?_
  refine .skip (.require _) fun _ => ?_
  exact .bind (.spanFrom (.inr rfl)) fun span => .pure Set.subset_union_right

theorem blames_literalKey (value : Literal) : (literalKey value).Blames known nowhere := by
  rw [literalKey]
  exact .skip (.ignored blames_literalToken) fun token => .done _

theorem blames_propertyKey : propertyKey.Blames known nowhere := by
  rw [propertyKey]
  refine .skip (.ignored .lookahead) fun token => ?_
  split
  · exact blames_literalKey _
  · exact blames_literalKey _
  · exact .wrapped .identifierName

theorem blames_checkAccessor (kind : PropertyKind) (parameters : List Identifier)
    {position : Position} (member : position ∈ known) :
    (checkAccessor kind parameters position).Blames known nowhere := by
  unfold checkAccessor
  split
  · exact .fail _ member
  · exact .done _
  · exact .fail _ member
  · exact .done _

theorem blames_accessorFunction (nested : self.Blames) (kind : PropertyKind) :
    (accessorFunction self kind).Blames known nowhere := by
  rw [accessorFunction]
  refine .bind .nodeStart fun start => ?_
  refine .skip blames_formalParameters fun parameters => ?_
  refine .skip (blames_checkAccessor _ _ (.inr rfl)) fun _ => ?_
  refine .skip (blames_functionBody nested) fun body => ?_
  exact .skip (.spanned _) fun span => .done _

theorem blames_propertyValue (nested : self.Blames) (start : Position) (key : PropertyKey) :
    (propertyValue self start key).Blames known nowhere := by
  rw [propertyValue]
  refine .skip (.require _) fun _ => ?_
  refine .skip (.ignored nested.assignment) fun value => ?_
  exact .skip (.spanned _) fun span => .done _

theorem blames_property (nested : self.Blames) : (property self).Blames known nowhere := by
  rw [property]
  refine .skip (.ignored .lookahead) fun opening => ?_
  dsimp only
  split
  · refine .skip .consume fun _ => ?_
    refine .skip .kind fun next => ?_
    refine .choice ?_ (blames_propertyValue nested _ _)
    refine .skip blames_propertyKey fun key => ?_
    refine .skip (blames_accessorFunction nested _) fun value => ?_
    exact .skip (.spanned _) fun span => .done _
  · exact .skip blames_propertyKey fun key => blames_propertyValue nested _ _

theorem blames_objectLiteral (nested : self.Blames) :
    (objectLiteral self).Blames known fun value => {value.span.start} := by
  rw [objectLiteral]
  refine .bind .nodeStart fun start => ?_
  refine .skip (.require _) fun _ => ?_
  refine .skip (.withIn (.itemsUntil _ (blames_itemWithComma (blames_property nested) _) _))
    fun properties => ?_
  refine .skip (.require _) fun _ => ?_
  exact .bind (.spanFrom (.inr rfl)) fun span => .pure Set.subset_union_right

theorem blames_primary (nested : self.Blames) :
    (primary self).Blames known fun value => {value.span.start} := by
  rw [primary]
  refine .bind .lookahead fun token => ?_
  split
  · exact .skip .consume fun _ => .pure Set.subset_union_right
  · exact .map .identifierReference fun _ => Set.subset_union_right
  · exact blames_parenthesized nested
  · exact blames_arrayLiteral nested
  · exact blames_objectLiteral nested
  · exact blames_functionExpression nested
  · split
    · exact blames_regularExpression _
    · exact blames_literal _
    · exact .unexpected

theorem blames_newExpression (nested : self.Blames) :
    (newExpression self).Blames known fun value => {value.span.start} := by
  rw [newExpression]
  refine .bind .nodeStart fun start => ?_
  refine .skip (.require _) fun _ => ?_
  refine .skip (.ignored nested.callee) fun callee => ?_
  refine .skip (.sees _) fun called => ?_
  refine .option (blames_arguments nested) (.done _) fun items => ?_
  exact .bind (.spanFrom (.inr rfl)) fun span => .pure Set.subset_union_right

/-- A suffix keeps the beginning of the expression before it, or takes the one that it was given. -/
theorem blames_suffixes (nested : self.Blames) (withCalls : Bool) {start : Position}
    (member : start ∈ known) (turns : Nat) {value : Expression}
    (begins : value.span.start ∈ known) :
    (suffixes self withCalls start turns value).Blames known fun value => {value.span.start} := by
  induction turns generalizing known value with
  | zero => exact .exhausted
  | succ turns ih =>
    have same : ({value.span.start} : Set Position) ⊆ known := Set.singleton_subset_iff.mpr begins
    rw [suffixes]
    refine .skip (.ignored .lookahead) fun token => ?_
    split
    · refine .skip .consume fun _ => ?_
      refine .skip .identifierName fun name => ?_
      exact .bind (.spanFrom member) fun span => ih (.inl member) (.inr rfl)
    · refine .skip .consume fun _ => ?_
      refine .skip (.withIn (.ignored nested.expression)) fun name => ?_
      refine .skip (.require _) fun _ => ?_
      exact .bind (.spanFrom member) fun span => ih (.inl member) (.inr rfl)
    · refine .choice ?_ (.pure same)
      refine .skip (blames_arguments nested) fun items => ?_
      exact .bind (.spanFrom member) fun span => ih (.inl member) (.inr rfl)
    · exact .pure same

theorem blames_leftHandSide (nested : self.Blames) (withCalls : Bool) :
    (leftHandSide self withCalls).Blames known fun value => {value.span.start} := by
  rw [leftHandSide]
  refine .bind .nodeStart fun start => ?_
  refine .skip (.sees _) fun constructed => ?_
  refine .either (blames_newExpression nested) (blames_primary nested) fun value => ?_
  exact blames_suffixes nested _ (.inl (.inr rfl)) _ (.inr rfl)

theorem blames_update (nested : self.Blames) :
    (update self).Blames known fun value => {value.span.start} := by
  rw [update]
  refine .bind .nodeStart fun start => ?_
  refine .skip .kind fun kind => ?_
  split
  · refine .skip .consume fun _ => ?_
    refine .bind nested.unary fun target => ?_
    refine .need (.inr rfl) ?_
    refine .skip (blames_checkTarget (.inr rfl)) fun _ => ?_
    exact .bind (.spanFrom (.inl (.inr rfl))) fun span => .pure Set.subset_union_right
  · refine .bind (blames_leftHandSide nested _) fun target => ?_
    refine .skip (.ignored .lookahead) fun token => ?_
    split
    · refine .need (.inr rfl) ?_
      refine .skip (blames_checkTarget (.inr rfl)) fun _ => ?_
      refine .skip .consume fun _ => ?_
      exact .bind (.spanFrom (.inl (.inr rfl))) fun span => .pure Set.subset_union_right
    · exact .pure Set.subset_union_right

theorem blames_checkDelete (operator : UnaryOperator) (argument : Expression)
    {start : Position} (member : start ∈ known) :
    (checkDelete operator argument start).Blames known nowhere := by
  rw [checkDelete]
  refine .skip .isStrict fun strict => ?_
  exact .choice (.fail _ member) (.done _)

theorem blames_unary (nested : self.Blames) :
    (unary self).Blames known fun value => {value.span.start} := by
  rw [unary]
  refine .bind .nodeStart fun start => ?_
  refine .skip .kind fun kind => ?_
  split
  · refine .skip .consume fun _ => ?_
    refine .skip (.ignored nested.unary) fun argument => ?_
    refine .skip (blames_checkDelete _ _ (.inr rfl)) fun _ => ?_
    exact .bind (.spanFrom (.inr rfl)) fun span => .pure Set.subset_union_right
  · exact blames_update nested

theorem blames_binaryOperator : binaryOperator?.Blames known nowhere := by
  rw [binaryOperator?]
  refine .skip .kind fun kind => ?_
  refine .skip .get fun state => ?_
  exact .choice (.done _) (.done _)

/-- Whatever extends a right operand begins where the operand did, or at the given position. -/
theorem blames_rightOperand (nested : self.Blames) {start : Position} (member : start ∈ known)
    (tier turns : Nat) {right : Expression} (begins : right.span.start ∈ known) :
    (rightOperand self start tier turns right).Blames known fun value => {value.span.start} := by
  induction turns generalizing known right with
  | zero => exact .exhausted
  | succ turns ih =>
    rw [rightOperand]
    refine .skip blames_binaryOperator fun next => ?_
    have same : ({right.span.start} : Set Position) ⊆ known := Set.singleton_subset_iff.mpr begins
    split
    · exact .pure same
    · refine .choice ?_ (.choice ?_ (.pure same))
      · exact .bind (nested.operators _ member begins) fun value => ih (.inl member) (.inr rfl)
      · exact .bind (nested.operators _ member begins) fun value => ih (.inl member) (.inr rfl)

/-- Operators and their right operands keep the beginning of the left operand, or take the one that
was given with it. -/
theorem blames_operators (nested : self.Blames) {start : Position} (member : start ∈ known)
    (tier turns : Nat) {left : Expression} (begins : left.span.start ∈ known) :
    (operators self start tier turns left).Blames known fun value => {value.span.start} := by
  induction turns generalizing known left with
  | zero => exact .exhausted
  | succ turns ih =>
    rw [operators]
    refine .skip blames_binaryOperator fun operator => ?_
    have same : ({left.span.start} : Set Position) ⊆ known := Set.singleton_subset_iff.mpr begins
    split
    · exact .pure same
    · refine .choice (.pure same) ?_
      refine .skip .consume fun _ => ?_
      refine .bind .nodeStart fun rightStart => ?_
      refine .bind nested.unary fun operand => ?_
      refine .skip (.ignored (blames_rightOperand nested (.inl (.inr rfl)) _ _ (.inr rfl)))
        fun right => ?_
      exact .bind (.spanFrom (.inl (.inl member))) fun span =>
        ih (.inl (.inl (.inl member))) (.inr rfl)

theorem blames_binary (nested : self.Blames) :
    (binary self).Blames known fun value => {value.span.start} := by
  rw [binary]
  refine .bind .nodeStart fun start => ?_
  refine .bind (blames_unary nested) fun left => ?_
  exact blames_operators nested (.inl (.inr rfl)) _ _ (.inr rfl)

theorem blames_assignment (nested : self.Blames) :
    (assignment self).Blames known fun value => {value.span.start} := by
  rw [assignment]
  refine .bind .nodeStart fun start => ?_
  refine .bind (blames_binary nested) fun value => ?_
  refine .skip .kind fun kind => ?_
  split
  · refine .need (.inr rfl) ?_
    refine .skip (blames_checkTarget (.inr rfl)) fun _ => ?_
    refine .skip .consume fun _ => ?_
    refine .skip (.ignored nested.assignment) fun right => ?_
    exact .bind (.spanFrom (.inl (.inr rfl))) fun span => .pure Set.subset_union_right
  · refine .skip (.consumeIf _) fun conditional => ?_
    refine .choice ?_ (.pure Set.subset_union_right)
    refine .skip (.withIn (.ignored nested.assignment)) fun consequent => ?_
    refine .skip (.require _) fun _ => ?_
    refine .skip (.ignored nested.assignment) fun alternate => ?_
    exact .bind (.spanFrom (.inl (.inr rfl))) fun span => .pure Set.subset_union_right

theorem blames_expression (nested : self.Blames) :
    (expression self).Blames known fun value => {value.span.start} := by
  rw [expression]
  refine .bind .nodeStart fun start => ?_
  refine .bind (blames_assignment nested) fun first => ?_
  refine .skip (.consumeIf _) fun more => ?_
  refine .choice ?_ (.pure Set.subset_union_right)
  refine .skip (.separated (.ignored nested.assignment) _) fun others => ?_
  exact .bind (.spanFrom (.inl (.inr rfl))) fun span => .pure Set.subset_union_right

end Grammar

end EcmaScript
