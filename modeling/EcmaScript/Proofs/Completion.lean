import EcmaScript.Proofs.ExpressionFollowing

/-!
# Expressions that are complete

An expression of a tighter sort is one of each looser sort when no token follows that would go on
with it. Each lemma takes one production, from the run of the tighter sort to that of the looser.
-/

namespace EcmaScript

namespace Parse

variable {α : Type} {state : State}

theorem lookahead_bind {rest : Token → Parse α} :
    (lookahead >>= rest) state = rest state.lookahead state := rfl

theorem kind_bind {rest : Kind → Parse α} :
    (kind >>= rest) state = rest state.lookahead.kind state := rfl

theorem nodeStart_bind {rest : Position → Parse α} :
    (nodeStart >>= rest) state = rest state.lookahead.span.start state := rfl

theorem sees_bind {expected : Kind} {rest : Bool → Parse α} :
    (sees expected >>= rest) state = rest (state.lookahead.kind == expected) state := rfl

theorem require_bind {expected : Kind} {rest : Unit → Parse α} {next : State}
    (found : state.lookahead.kind = expected) (run : consume state = .ok () next) :
    (require expected >>= rest) state = rest () next := by
  rw [require, bind_assoc, sees_bind, if_pos (by simpa using found)]
  change EStateM.bind _ _ state = _
  rw [EStateM.bind, run]

/-- A name that may be used is consumed. -/
theorem identifierReference_of_name {name : String} {next : State}
    (found : state.lookahead.lexeme = .identifier name) (run : consume state = .ok () next)
    (allowed : next.context.strict = true → isStrictReservedWord name = false) :
    identifierReference state = .ok ⟨name, state.lookahead.span⟩ next := by
  rw [identifierReference, lookahead_bind, found]
  refine bind_eq_ok.mpr ⟨(), next, run, ?_⟩
  change (if (next.context.strict && isStrictReservedWord name) = true then _ else _ :
    Parse Identifier) next = _
  cases strict : next.context.strict with
  | false => rfl
  | true =>
    rw [allowed strict]
    rfl

/-- A name that may be bound is consumed. -/
theorem bindingIdentifier_of_name {name : String} {next : State}
    (found : state.lookahead.lexeme = .identifier name) (run : consume state = .ok () next)
    (allowed : next.context.strict = true → isStrictReservedWord name = false)
    (bindable : next.context.strict = true → isEvalOrArguments name = false) :
    bindingIdentifier state = .ok ⟨name, state.lookahead.span⟩ next := by
  refine bind_eq_ok.mpr ⟨⟨name, state.lookahead.span⟩, next,
    identifierReference_of_name found run allowed, ?_⟩
  change (if (next.context.strict && isEvalOrArguments name) = true then _ else _ :
    Parse Identifier) next = _
  cases strict : next.context.strict with
  | false => rfl
  | true =>
    rw [bindable strict]
    rfl

end Parse

namespace Grammar

open Parse

variable {self : Nonterminals} {state next : State} {value : Expression}

theorem suffixes_of_end {withCalls : Bool} {start : Position} {turns : Nat} (some : 0 < turns)
    (ends : startsSuffix withCalls state.lookahead.lexeme = false) :
    suffixes self withCalls start turns value state = .ok value state := by
  obtain ⟨turns, rfl⟩ := Nat.exists_eq_add_of_lt some
  rw [suffixes, lookahead_bind]
  refine congrFun (?_ : _ = (pure value : Parse Expression)) state
  split
  · simp_all [startsSuffix]
  · simp_all [startsSuffix]
  · rw [if_neg (by simp_all [startsSuffix])]
  · rfl

theorem leftHandSide_of_primary {withCalls : Bool} (turns : 0 < self.turns)
    (plain : state.lookahead.kind ≠ .symbol Keyword.newWord)
    (run : primary self state = .ok value next)
    (ends : startsSuffix withCalls next.lookahead.lexeme = false) :
    leftHandSide self withCalls state = .ok value next := by
  rw [leftHandSide, nodeStart_bind, sees_bind]
  dsimp only
  rw [if_neg (by simpa using plain)]
  exact bind_eq_ok.mpr ⟨value, next, run, suffixes_of_end turns ends⟩

theorem update_of_leftHandSide (plain : state.lookahead.kind.updateOperator? = none)
    (run : leftHandSide self true state = .ok value next)
    (ends : endsOperand next.lookahead = true) : update self state = .ok value next := by
  rw [update, nodeStart_bind, kind_bind, plain]
  refine bind_eq_ok.mpr ⟨value, next, run, ?_⟩
  rw [lookahead_bind]
  refine congrFun (?_ : _ = (pure value : Parse Expression)) next
  split
  · simp_all [endsOperand]
  · rfl

theorem unary_of_update (plain : state.lookahead.kind.unaryOperator? = none)
    (run : update self state = .ok value next) : unary self state = .ok value next := by
  rw [unary, nodeStart_bind, kind_bind, plain]
  exact run

theorem operators_of_end {start : Position} {tier turns : Nat} (some : 0 < turns)
    (ends : state.operator? = none) :
    operators self start tier turns value state = .ok value state := by
  obtain ⟨turns, rfl⟩ := Nat.exists_eq_add_of_lt some
  rw [operators, binaryOperator?_bind, ends]
  rfl

theorem binary_of_unary (turns : 0 < self.turns) (run : unary self state = .ok value next)
    (ends : next.operator? = none) : binary self state = .ok value next := by
  rw [binary, nodeStart_bind]
  exact bind_eq_ok.mpr ⟨value, next, run, operators_of_end turns ends⟩

theorem assignment_of_binary (run : binary self state = .ok value next)
    (ends : next.lookahead.kind.assignmentOperator? = none)
    (alone : next.lookahead.kind ≠ .symbol Punctuator.questionMark) :
    assignment self state = .ok value next := by
  rw [assignment, nodeStart_bind]
  refine bind_eq_ok.mpr ⟨value, next, run, ?_⟩
  rw [kind_bind, ends]
  dsimp only
  rw [consumeIf_bind]
  exact congrFun (if_neg alone) next

theorem expression_of_assignment (run : assignment self state = .ok value next)
    (ends : next.lookahead.kind ≠ .symbol Punctuator.comma) :
    expression self state = .ok value next := by
  rw [expression, nodeStart_bind]
  refine bind_eq_ok.mpr ⟨value, next, run, ?_⟩
  rw [consumeIf_bind]
  exact congrFun (if_neg ends) next

/-- A token that ends an expression, whatever that is. -/
structure EndsExpression (token : Token) : Prop where
  suffix : startsSuffix true token.lexeme = false
  operand : endsOperand token = true
  binary : token.kind.binaryOperator? = none
  assignment : token.kind.assignmentOperator? = none
  conditional : token.kind ≠ .symbol Punctuator.questionMark
  sequence : token.kind ≠ .symbol Punctuator.comma

/-- A token that begins a primary expression. -/
structure BeginsPrimary (token : Token) : Prop where
  construction : token.kind ≠ .symbol Keyword.newWord
  update : token.kind.updateOperator? = none
  unary : token.kind.unaryOperator? = none

theorem expression_of_primary (turns : 0 < self.turns) (begins : BeginsPrimary state.lookahead)
    (run : primary self state = .ok value next) (ends : EndsExpression next.lookahead) :
    expression self state = .ok value next := by
  have operator : next.operator? = none := by
    rw [State.operator?, ends.binary, ite_self]
  have operand := leftHandSide_of_primary turns begins.construction run ends.suffix
  have operand := unary_of_update begins.unary
    (update_of_leftHandSide begins.update operand ends.operand)
  exact expression_of_assignment (assignment_of_binary (binary_of_unary turns operand operator)
    ends.assignment ends.conditional) ends.sequence

/-- An expression that no operator and no construction begins has a primary expression first. -/
theorem primary_of_expression (begins : BeginsPrimary state.lookahead)
    (run : expression self state = .ok value next) :
    ∃ first between, primary self state = .ok first between := by
  rw [expression, nodeStart_bind] at run
  obtain ⟨_, _, run, -⟩ := bind_eq_ok.mp run
  rw [assignment, nodeStart_bind] at run
  obtain ⟨_, _, run, -⟩ := bind_eq_ok.mp run
  rw [binary, nodeStart_bind] at run
  obtain ⟨_, _, run, -⟩ := bind_eq_ok.mp run
  rw [unary, nodeStart_bind, kind_bind, begins.unary] at run
  dsimp only at run
  rw [update, nodeStart_bind, kind_bind, begins.update] at run
  obtain ⟨_, _, run, -⟩ := bind_eq_ok.mp run
  rw [leftHandSide, nodeStart_bind, sees_bind] at run
  dsimp only at run
  rw [if_neg (by simpa using begins.construction)] at run
  obtain ⟨first, between, run, -⟩ := bind_eq_ok.mp run
  exact ⟨first, between, run⟩

/-- No statement begins with a closing brace or with the word of a clause. -/
theorem not_ok_of_listItem {statement : Statement} {symbol : Symbol}
    (closing : symbol = Punctuator.rightBrace ∨ symbol = Keyword.caseWord ∨
      symbol = Keyword.defaultWord)
    (found : state.lookahead.lexeme = .symbol symbol) :
    listItem self state ≠ .ok statement next := by
  intro run
  have kind : state.lookahead.kind = .symbol symbol := by rw [Token.kind, found]; rfl
  have run : expressionStatement self state = .ok statement next := by
    rw [listItem, sees_bind] at run
    rcases closing with rfl | rfl | rfl <;>
    · rw [if_neg (by rw [kind]; decide), Grammar.statement, lookahead_bind, found] at run
      exact run
  rw [expressionStatement, lookahead_bind] at run
  obtain ⟨value, between, run, -⟩ := bind_eq_ok.mp run
  have begins : BeginsPrimary state.lookahead := by
    constructor <;> rw [kind] <;> rcases closing with rfl | rfl | rfl <;> first | rfl | decide
  obtain ⟨first, middle, run⟩ := primary_of_expression begins run
  rw [primary, lookahead_bind, found] at run
  rcases closing with rfl | rfl | rfl <;> cases run

end Grammar

end EcmaScript
