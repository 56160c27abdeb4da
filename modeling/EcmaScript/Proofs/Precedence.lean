import EcmaScript.Proofs.OperatorTree
import EcmaScript.Proofs.Spans

/-!
# Precedence of operators

An operand in parentheses has a span that lies inside them. So the spans tell which operands of an
operator are themselves made by operators, and in every accepted program these are grouped in the
one way that respects the tiers.
-/

namespace EcmaScript

/-- The tree of the operators that make an expression. An operand of an operator ends there unless
it begins, on the left, or ends, on the right, where the operator with its operands does. -/
def Expression.operatorTree : Expression → OperatorTree
  | .binary operator left right span =>
    .node operator
      (if left.span.start = span.start then left.operatorTree else .operand left)
      (if right.span.stop = span.stop then right.operatorTree else .operand right)
  | value => .operand value

/-- Tokens are an operand and some more operands, each with an operator before it. -/
inductive HasOperands (scope : Scope) :
    Expression → List (BinaryOperator × Expression) → List Token → Token → Prop where
  | one {operand : Expression} {tokens : List Token} {next : Token} :
      Reads scope (.fits .unary operand) tokens next → HasOperands scope operand [] tokens next
  | more {operand second : Expression} {operator : BinaryOperator}
      {rest : List (BinaryOperator × Expression)} {tokens others : List Token}
      {mark next : Token} :
      Reads scope (.fits .unary operand) tokens mark →
      mark.kind.binaryOperator? = some operator → scope.HasOperator operator →
      HasOperands scope second rest others next →
      HasOperands scope operand ((operator, second) :: rest) (tokens ++ mark :: others) next

variable {scope : Scope} {tokens : List Token} {next : Token} {value : Expression}

theorem HasOperands.append {first second : Expression} {operator : BinaryOperator}
    {rest others : List (BinaryOperator × Expression)} {moreTokens : List Token} {mark : Token}
    (left : HasOperands scope first rest tokens mark)
    (isOperator : mark.kind.binaryOperator? = some operator) (allowed : scope.HasOperator operator)
    (right : HasOperands scope second others moreTokens next) :
    HasOperands scope first (rest ++ (operator, second) :: others) (tokens ++ mark :: moreTokens)
      next := by
  induction left with
  | one operand => exact .more operand isOperator allowed right
  | more operand inner allowedInner _ ih =>
    rw [List.append_assoc, List.cons_append]
    exact .more operand inner allowedInner (ih isOperator)

/-- An expression in parentheses lies inside them. -/
theorem Reads.within_parentheses {opening closing last : Token} {inner : List Token}
    {low high : Position} (reads : Reads scope (.fits .expression value) inner last)
    (between : Token.Between low (opening :: (inner ++ [closing])) high) :
    opening.span.start < value.span.start ∧ value.span.stop < closing.span.stop := by
  have nodes : ReadsNodes (fun _ => scope) [.expression value] inner :=
    reads.nodes_fits (.refl scope)
  cases between with
  | cons _ wide rest =>
    obtain ⟨middle, inside, behind⟩ := rest.split
    obtain ⟨start, stop⟩ := (nodes.within inside).1 _ (.head _)
    cases behind with
    | cons apart wideToo _ =>
      exact ⟨Position.lt_of_lt_of_le wide start,
        Position.lt_of_le_of_lt (Position.le_trans stop apart) wideToo⟩

/-- A binary operator whose operands make an operand of another operator is in parentheses. -/
theorem Reads.apart_of_binary {operator : BinaryOperator} {left right : Expression} {span : Span}
    {low high : Position}
    (reads : Reads scope (.fits .unary (.binary operator left right span)) tokens next)
    (between : Token.Between low tokens high) :
    span.start ≠ (Token.cover tokens).start ∧ span.stop ≠ (Token.cover tokens).stop := by
  cases reads with
  | made reads => cases reads
  | operand reads =>
    cases reads with
    | made reads => cases reads
    | head _ reads =>
      cases reads with
      | made reads => cases reads
      | @parenthesized _ opening closing _ inner _ _ reads =>
        obtain ⟨start, stop⟩ := reads.within_parentheses between
        have opens : (Token.cover (opening :: (inner ++ [closing]))).start = opening.span.start :=
          rfl
        have closes : (Token.cover (opening :: (inner ++ [closing]))).stop = closing.span.stop := by
          simp [Token.cover, List.getLast?_cons]
        rw [opens, closes]
        exact ⟨Position.ne_of_gt start, Position.ne_of_lt stop⟩

theorem Token.start_cover_append {tokens : List Token} (nonempty : tokens ≠ [])
    (more : List Token) : (cover (tokens ++ more)).start = (cover tokens).start := by
  cases tokens with
  | nil => contradiction
  | cons => rfl

theorem Token.stop_cover_append {tokens : List Token} (front : List Token)
    (nonempty : tokens ≠ []) : (cover (front ++ tokens)).stop = (cover tokens).stop := by
  simp [cover, List.getLast?_append, List.getLast?_eq_some_getLast nonempty]

/-- A tree groups the operands that some tokens are, which make the operand of some operator: those
of an expression without parentheses around it, or that one alone. -/
structure OperatorTree.Groups (tree : OperatorTree) (scope : Scope) (tier : Nat)
    (value : Expression) (tokens : List Token) (next : Token) : Prop where
  respects : tree.Respects
  tier : ∀ operator ∈ tree.root?, tier ≤ operator.precedence
  operands : HasOperands scope tree.first tree.rest tokens next
  left : (if value.span.start = (Token.cover tokens).start then value.operatorTree
    else .operand value) = tree
  right : (if value.span.stop = (Token.cover tokens).stop then value.operatorTree
    else .operand value) = tree

theorem Reads.groups_unary {low high : Position}
    (reads : Reads scope (.fits .unary value) tokens next)
    (between : Token.Between low tokens high) (tier : Nat) :
    (OperatorTree.operand value).Groups scope tier value tokens next := by
  have ends : (if value.span.start = (Token.cover tokens).start then value.operatorTree
        else .operand value) = .operand value ∧
      (if value.span.stop = (Token.cover tokens).stop then value.operatorTree
        else .operand value) = .operand value := by
    cases value with
    | binary operator left right span =>
      obtain ⟨start, stop⟩ := reads.apart_of_binary between
      exact ⟨if_neg start, if_neg stop⟩
    | _ => exact ⟨ite_self _, ite_self _⟩
  exact ⟨trivial, fun _ root => by contradiction, .one reads, ends.1, ends.2⟩

/-- Binary operators group their operands by the tiers. -/
theorem Reads.exists_groups {tier : Nat} {low high : Position}
    (reads : Reads scope (.fits (.operators tier) value) tokens next)
    (between : Token.Between low tokens high) :
    ∃ tree : OperatorTree, tree.Groups scope tier value tokens next := by
  generalize count : tokens.length = length
  induction length using Nat.strongRecOn generalizing tier value tokens next low high with
  | _ length ih =>
    cases reads with
    | single _ reads => exact ⟨_, reads.groups_unary between tier⟩
    | made reads =>
      cases reads with
      | @binary _ mark _ leftTokens rightTokens left right operator _ readsLeft isOperator allowed
          readsRight above =>
        rw [List.length_append, List.length_cons] at count
        obtain ⟨middle, front, behind⟩ := between.split
        cases behind with
        | cons _ _ behind =>
          obtain ⟨leftTree, groupsLeft⟩ := ih leftTokens.length (by omega) readsLeft front rfl
          obtain ⟨rightTree, groupsRight⟩ := ih rightTokens.length (by omega) readsRight behind rfl
          have start := Token.start_cover_append (readsLeft.ne_nil rfl) (mark :: rightTokens)
          have stop := Token.stop_cover_append (leftTokens ++ [mark]) (readsRight.ne_nil rfl)
          rw [List.append_assoc, List.singleton_append] at stop
          have whole : Expression.operatorTree
              (.binary operator left right (Token.cover (leftTokens ++ mark :: rightTokens))) =
                .node operator leftTree rightTree := by
            rw [Expression.operatorTree, start, stop, groupsLeft.left, groupsRight.right]
          refine ⟨.node operator leftTree rightTree, ?_, ?_, ?_, ?_, ?_⟩
          · exact ⟨fun inner root => BinaryOperator.takesLeft_iff.mpr (groupsLeft.tier inner root),
              fun inner root => BinaryOperator.takesRight_iff.mpr (groupsRight.tier inner root),
              groupsLeft.respects, groupsRight.respects⟩
          · rintro _ ⟨⟩
            exact above
          · exact groupsLeft.operands.append isOperator allowed groupsRight.operands
          · exact (if_pos rfl).trans whole
          · exact (if_pos rfl).trans whole

/-- The operand of a unary operator is no binary operator without parentheses. -/
theorem Reads.apart_of_unary {level : Level} {operator : UnaryOperator} {inner : BinaryOperator}
    {first second : Expression} {place span : Span} {low high : Position}
    (reads : Reads scope (.makes level (.unary operator (.binary inner first second place) span))
      tokens next)
    (between : Token.Between low tokens high) : place.stop ≠ span.stop := by
  cases reads with
  | @unary _ mark _ argumentTokens _ _ _ readsArgument =>
    cases between with
    | cons _ _ behind =>
      have stop := Token.stop_cover_append [mark] (readsArgument.ne_nil rfl)
      rw [List.singleton_append] at stop
      rw [stop]
      exact (readsArgument.apart_of_binary behind).2

/-- A binary operator with its operands is read as such, and its tree groups these operands. -/
theorem Reads.groups_binary {level : Level} {operator : BinaryOperator} {left right : Expression}
    {span : Span} {low high : Position}
    (reads : Reads scope (.makes level (.binary operator left right span)) tokens next)
    (between : Token.Between low tokens high) :
    ∃ tier, (Expression.operatorTree (.binary operator left right span)).Groups scope tier
      (.binary operator left right span) tokens next := by
  have start := congrArg Span.start reads.span_makes
  cases level with
  | operators tier =>
    obtain ⟨tree, groups⟩ := (Reads.made reads).exists_groups between
    have same := groups.left
    rw [if_pos start] at same
    rw [same]
    exact ⟨tier, groups⟩
  | _ => cases reads

namespace OperatorTree.Respects

variable {operator inner : BinaryOperator} {left right first second : Expression}
  {span place : Span}

theorem takesLeft
    (respects : (Expression.operatorTree (.binary operator left right span)).Respects)
    (isBinary : left = .binary inner first second place) (same : left.span.start = span.start) :
    operator.TakesLeft inner := by
  rw [Expression.operatorTree] at respects
  obtain ⟨takes, _⟩ := respects
  rw [if_pos same, isBinary] at takes
  exact takes inner rfl

theorem takesRight
    (respects : (Expression.operatorTree (.binary operator left right span)).Respects)
    (isBinary : right = .binary inner first second place) (same : right.span.stop = span.stop) :
    operator.TakesRight inner := by
  rw [Expression.operatorTree] at respects
  obtain ⟨_, takes, _⟩ := respects
  rw [if_pos same, isBinary] at takes
  exact takes inner rfl

end OperatorTree.Respects

section Parse

variable {source : String} {options : Options} {program : Program} {after : State}

/-- The operands of every binary operator of an accepted text stand in it one after the other. -/
theorem State.groups_of_parse
    (accepted : (ofSource source options).parse = (.ok program, after)) {path : List Step}
    {operator : BinaryOperator} {left right : Expression} {span : Span}
    (occurs : program.Occurs path (.expression (.binary operator left right span))) :
    ∃ scope tier tokens next, tokens <:+: after.consumed ∧ span = Token.cover tokens ∧
      (Expression.operatorTree (.binary operator left right span)).Groups scope tier
        (.binary operator left right span) tokens next := by
  obtain ⟨scope, tokens, next, low, high, ⟨level, reads⟩, part, between⟩ :=
    exists_read_of_parse accepted occurs
  obtain ⟨tier, groups⟩ := reads.groups_binary between
  exact ⟨scope, tier, tokens, next, part, reads.span_makes, groups⟩

/-- Operators of an accepted text. An operand that is a binary operator without parentheses has a
tier that the operator allows on that side, and for a unary operator there is none. So the operands
of binary operators, as they stand in the text, are grouped in the one way that respects the tiers.
-/
theorem State.precedence_of_parse
    (accepted : (ofSource source options).parse = (.ok program, after)) :
    (∀ path operator left right span,
      program.Occurs path (.expression (.binary operator left right span)) →
      (∀ inner first second place, left = .binary inner first second place →
        left.span.start = span.start → operator.TakesLeft inner) ∧
      ∀ inner first second place, right = .binary inner first second place →
        right.span.stop = span.stop → operator.TakesRight inner) ∧
    (∀ path operator inner first second place span,
      program.Occurs path
        (.expression (.unary operator (.binary inner first second place) span)) →
      place.stop ≠ span.stop) ∧
    ∀ path operator left right span,
      program.Occurs path (.expression (.binary operator left right span)) →
      ∃ tree, tree = Expression.operatorTree (.binary operator left right span) ∧
        (∃ scope tokens next, tokens <:+: after.consumed ∧ span = Token.cover tokens ∧
          HasOperands scope tree.first tree.rest tokens next) ∧
        tree.Respects ∧
        ∀ other : OperatorTree, other.Respects → other.first = tree.first →
          other.rest = tree.rest → other = tree := by
  refine ⟨?_, ?_, ?_⟩
  · intro path operator left right span occurs
    obtain ⟨scope, tier, tokens, next, _, _, groups⟩ := groups_of_parse accepted occurs
    constructor
    · intro inner first second place isBinary same
      exact groups.respects.takesLeft isBinary same
    · intro inner first second place isBinary same
      exact groups.respects.takesRight isBinary same
  · intro path operator inner first second place span occurs
    obtain ⟨scope, tokens, next, low, high, ⟨level, reads⟩, _, between⟩ :=
      exists_read_of_parse accepted occurs
    exact reads.apart_of_unary between
  · intro path operator left right span occurs
    obtain ⟨scope, tier, tokens, next, part, whole, groups⟩ := groups_of_parse accepted occurs
    refine ⟨_, rfl, ⟨scope, tokens, next, part, whole, groups.operands⟩, groups.respects, ?_⟩
    intro other respects sameFirst sameRest
    exact respects.eq groups.respects sameFirst sameRest

/-- The operators of three tiers, of which the last groups to the right. -/
theorem precedence_of_powers :
    ∃ program after, (State.ofSource "a - b * c ** d ** e - f" {}).parse = (.ok program, after) ∧
      ∀ path operator left right span,
        program.Occurs path (.expression (.binary operator left right span)) →
        ∀ inner first second place, right = .binary inner first second place →
          right.span.stop = span.stop → operator.TakesRight inner := by
  obtain ⟨program, accepted⟩ :=
    exists_of_toBool (by decide +kernel : (parse "a - b * c ** d ** e - f" {}).toBool = true)
  obtain ⟨after, accepted⟩ := exists_of_parse accepted
  refine ⟨program, after, accepted, ?_⟩
  intro path operator left right span occurs
  exact ((State.precedence_of_parse accepted).1 path operator left right span occurs).2

end Parse

end EcmaScript
