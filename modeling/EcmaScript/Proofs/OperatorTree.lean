import EcmaScript.Proofs.Rules
import Mathlib.Data.List.Induction

/-!
# Trees of binary operators

Operands with binary operators between them can be grouped in many ways, but only one of them
respects the tiers: an operator has operands without parentheses of higher tiers, and of its own
tier on the left only, or for `**` on the right only. A tree that respects the tiers is one that is
made from left to right, where each operator in turn takes over the last operands.
-/

namespace EcmaScript

namespace BinaryOperator

/-- The left operand of an operator may be that of another one without parentheses. -/
def TakesLeft (outer inner : BinaryOperator) : Prop :=
  outer.precedence < inner.precedence ∨
    (inner.precedence = outer.precedence ∧ outer ≠ .exponentiate)

/-- The right operand of an operator may be that of another one without parentheses. -/
def TakesRight (outer inner : BinaryOperator) : Prop :=
  outer.precedence < inner.precedence ∨ (outer = .exponentiate ∧ inner = .exponentiate)

variable {outer inner : BinaryOperator}

theorem eq_exponentiate_iff (operator : BinaryOperator) :
    operator = .exponentiate ↔ operator.precedence = 11 := by
  rw [← isRightAssociative_iff, isRightAssociative, beq_iff_eq]

theorem takesLeft_iff : outer.TakesLeft inner ↔ outer.leftTier ≤ inner.precedence := by
  have most := inner.precedence_le
  rw [TakesLeft, leftTier_le_iff, isRightAssociative_iff, ne_eq, eq_exponentiate_iff]
  omega

theorem takesRight_iff : outer.TakesRight inner ↔ outer.rightTier ≤ inner.precedence := by
  have most := inner.precedence_le
  rw [TakesRight, eq_exponentiate_iff, eq_exponentiate_iff, rightTier]
  split <;> rename_i groups <;> rw [isRightAssociative_iff] at groups <;> omega

/-- An operator in the left operand of another one does not take over the operand between them. -/
theorem TakesLeft.not_le (takes : outer.TakesLeft inner) :
    ¬inner.rightTier ≤ outer.precedence := by
  rw [← takesRight_iff]
  rintro (higher | ⟨rfl, rfl⟩)
  · rcases takes with lower | ⟨same, _⟩ <;> omega
  · rcases takes with lower | ⟨_, different⟩
    · omega
    · contradiction

end BinaryOperator

/-- Operands with binary operators between them, grouped in some way. -/
inductive OperatorTree where
  | operand (value : Expression)
  | node (operator : BinaryOperator) (left right : OperatorTree)

namespace OperatorTree

/-- The operator that was applied last. -/
def root? : OperatorTree → Option BinaryOperator
  | .operand _ => none
  | .node operator _ _ => some operator

/-- The first operand. -/
def first : OperatorTree → Expression
  | .operand value => value
  | .node _ left _ => left.first

/-- The operators in their order, each with the operand after it. -/
def rest : OperatorTree → List (BinaryOperator × Expression)
  | .operand _ => []
  | .node operator left right => left.rest ++ (operator, right.first) :: right.rest

/-- Operators are grouped by their tiers, those of one tier to the left and `**` to the right. -/
def Respects : OperatorTree → Prop
  | .operand _ => True
  | .node operator left right =>
    (∀ inner ∈ left.root?, operator.TakesLeft inner) ∧
      (∀ inner ∈ right.root?, operator.TakesRight inner) ∧ left.Respects ∧ right.Respects

/-- The tree with one more operand at its end. -/
def extend (next : BinaryOperator) (operand : Expression) : OperatorTree → OperatorTree
  | .operand value => .node next (.operand value) (.operand operand)
  | .node operator left right =>
    if operator.rightTier ≤ next.precedence then .node operator left (right.extend next operand)
    else .node next (.node operator left right) (.operand operand)

/-- All operators of a tree have the tier of its root or a higher one. -/
theorem Respects.precedence_le {tree : OperatorTree} (respects : tree.Respects) {tier : Nat}
    (above : ∀ operator ∈ tree.root?, tier ≤ operator.precedence) :
    ∀ item ∈ tree.rest, tier ≤ item.1.precedence := by
  induction tree with
  | operand value =>
    intro item member
    contradiction
  | node operator left right ihLeft ihRight =>
    obtain ⟨takesLeft, takesRight, respectsLeft, respectsRight⟩ := respects
    have here : tier ≤ operator.precedence := above operator rfl
    intro item member
    rcases List.mem_append.mp member with member | member
    · refine ihLeft respectsLeft (fun inner root => ?_) item member
      rcases takesLeft inner root with higher | ⟨same, _⟩
      · exact Nat.le_trans here (Nat.le_of_lt higher)
      · rw [same]
        exact here
    · rcases List.mem_cons.mp member with rfl | member
      · exact here
      · refine ihRight respectsRight (fun inner root => ?_) item member
        rcases takesRight inner root with higher | ⟨rfl, rfl⟩
        · exact Nat.le_trans here (Nat.le_of_lt higher)
        · exact here

theorem exists_mem_rest {tree : OperatorTree} {operator : BinaryOperator}
    (root : operator ∈ tree.root?) : ∃ operand, (operator, operand) ∈ tree.rest := by
  cases tree with
  | operand => contradiction
  | node _ left right =>
    cases root
    exact ⟨right.first, List.mem_append_right _ (.head _)⟩

/-- A tree that respects the tiers is a shorter one with its last operand added. -/
theorem Respects.exists_extend {tree : OperatorTree} (respects : tree.Respects)
    {front : List (BinaryOperator × Expression)} {last : BinaryOperator × Expression}
    (same : tree.rest = front ++ [last]) :
    ∃ shorter : OperatorTree, shorter.Respects ∧ shorter.first = tree.first ∧
      shorter.rest = front ∧ tree = shorter.extend last.1 last.2 := by
  induction tree generalizing front with
  | operand value => simp [rest] at same
  | node operator left right _ ihRight =>
    obtain ⟨takesLeft, takesRight, respectsLeft, respectsRight⟩ := respects
    cases right with
    | operand value =>
      obtain ⟨sameFront, sameLast⟩ := List.append_inj' same rfl
      cases sameLast
      refine ⟨left, respectsLeft, rfl, sameFront, ?_⟩
      cases left with
      | operand => rfl
      | node inner => exact (if_neg (takesLeft inner rfl).not_le).symm
    | node inner innerLeft innerRight =>
      generalize whole : node inner innerLeft innerRight = right at *
      have nonempty : right.rest ≠ [] := by simp [← whole, rest]
      obtain ⟨others, final, split⟩ := right.rest.eq_nil_or_concat.resolve_left nonempty
      rw [List.concat_eq_append] at split
      rw [rest, split, ← List.cons_append, ← List.append_assoc] at same
      obtain ⟨sameFront, sameLast⟩ := List.append_inj' same rfl
      cases sameLast
      obtain ⟨shorter, respectsShorter, sameFirst, sameRest, extended⟩ :=
        ihRight respectsRight split
      have above := respectsRight.precedence_le fun inner root =>
        BinaryOperator.takesRight_iff.mp (takesRight inner root)
      refine ⟨node operator left shorter, ⟨takesLeft, ?_, respectsLeft, respectsShorter⟩, rfl, ?_,
        ?_⟩
      · intro inner root
        obtain ⟨operand, member⟩ := exists_mem_rest root
        rw [sameRest] at member
        exact BinaryOperator.takesRight_iff.mpr (above (inner, operand) (by simp [split, member]))
      · rw [rest, sameFirst, sameRest, sameFront]
      · have takesOver : operator.rightTier ≤ last.1.precedence := above last (by simp [split])
        rw [extend, if_pos takesOver, ← extended]

/-- Operands and operators in their order can be grouped in only one way that respects the tiers. -/
theorem Respects.eq {first second : OperatorTree} (respects : first.Respects)
    (respectsToo : second.Respects) (sameFirst : first.first = second.first)
    (sameRest : first.rest = second.rest) : first = second := by
  generalize items : second.rest = rest at sameRest
  induction rest using List.reverseRecOn generalizing first second with
  | nil =>
    cases first with
    | operand =>
      cases second with
      | operand => exact congrArg operand sameFirst
      | node => simp [OperatorTree.rest] at items
    | node => simp [OperatorTree.rest] at sameRest
  | append_singleton front last ih =>
    obtain ⟨shorter, respectsShorter, opens, ends, rfl⟩ := respects.exists_extend sameRest
    obtain ⟨shorterToo, respectsShorterToo, opensToo, endsToo, rfl⟩ :=
      respectsToo.exists_extend items
    have opensAlike : shorter.first = shorterToo.first := by rw [opens, opensToo, sameFirst]
    rw [ih respectsShorter respectsShorterToo opensAlike endsToo ends]

end OperatorTree

end EcmaScript
