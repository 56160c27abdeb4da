import EcmaScript.Proofs.Node

/-!
# The nodes of a tree in their order

All nodes of a tree can be listed from the left, each before its children. Among them are the
leaves: names, literals and `this`. They have no children, so that they are listed in the order of
the source text.
-/

namespace EcmaScript

theorem Expression.sizeOf_lt_of_mem_children {item : Expression} {child : Node}
    (member : child ∈ item.children) : sizeOf child < sizeOf (Node.expression item) := by
  cases item <;> simp [children] at member ⊢ <;> grind [→ List.sizeOf_lt_of_mem]

theorem Statement.sizeOf_lt_of_mem_children {item : Statement} {child : Node}
    (member : child ∈ item.children) : sizeOf child < sizeOf (Node.statement item) := by
  have head : ∀ head : ForHead, sizeOf head.node = sizeOf head := by
    intro head
    cases head <;> rfl
  cases item with
  | block inner | «variables» inner =>
    cases inner
    simp [children] at member ⊢
    grind [→ List.sizeOf_lt_of_mem]
  | _ => simp [children] at member ⊢ <;> grind [→ List.sizeOf_lt_of_mem]

namespace Node

theorem sizeOf_lt_of_mem_children {node child : Node} (member : child ∈ node.children) :
    sizeOf child < sizeOf node := by
  cases node with
  | expression item => exact item.sizeOf_lt_of_mem_children member
  | statement item => exact item.sizeOf_lt_of_mem_children member
  | name | key | binding | label => simp [children] at member
  | property item | block item | declarator item | declaration item | clause item | handler item =>
    cases item
    simp [children] at member ⊢
    grind [→ List.sizeOf_lt_of_mem]

/-- All nodes of a tree, each before those below it. -/
def preorder (node : Node) : List Node :=
  node :: node.children.attach.flatMap fun child => child.val.preorder
termination_by sizeOf node
decreasing_by exact sizeOf_lt_of_mem_children child.property

theorem preorder_eq (node : Node) :
    node.preorder = node :: node.children.flatMap preorder := by
  rw [preorder, List.flatMap_subtype fun _ _ => rfl, List.unattach_attach]

/-- The names, the literals and `this`, which are a single token each. -/
def isLeaf : Node → Bool
  | .expression (.identifier _) | .expression (.literal ..) | .expression (.thisValue _) => true
  | .name _ | .key _ | .binding _ | .label _ => true
  | _ => false

/-- The leaves of a tree, in the order of the source text. -/
def leaves (node : Node) : List Node :=
  node.preorder.filter isLeaf

theorem children_of_isLeaf {node : Node} (leaf : node.isLeaf = true) : node.children = [] := by
  unfold isLeaf at leaf
  split at leaf <;> first | rfl | contradiction

theorem leaves_of_isLeaf {node : Node} (leaf : node.isLeaf = true) : node.leaves = [node] := by
  rw [leaves, preorder_eq, children_of_isLeaf leaf, List.flatMap_nil, List.filter_cons_of_pos leaf]
  rfl

theorem leaves_of_inner {node : Node} (inner : node.isLeaf = false) :
    node.leaves = node.children.flatMap leaves := by
  rw [leaves, preorder_eq, List.filter_cons_of_neg (by simp [inner]), List.filter_flatMap]
  rfl

/-- The list has all nodes that occur in the tree. -/
theorem mem_preorder {root node : Node} :
    node ∈ root.preorder ↔ ∃ path, root.Occurs path node := by
  constructor
  · intro member
    induction root using preorder.induct with
    | case1 root ih =>
      rw [preorder_eq] at member
      rcases List.mem_cons.mp member with rfl | below
      · exact ⟨[], .root⟩
      · obtain ⟨child, isChild, deeper⟩ := List.mem_flatMap.mp below
        obtain ⟨path, occurs⟩ := ih ⟨child, isChild⟩ deeper
        exact ⟨_, occurs.of_child isChild⟩
  · rintro ⟨path, occurs⟩
    induction root using preorder.induct generalizing path with
    | case1 root ih =>
      rw [preorder_eq]
      rcases occurs.cases_root with ⟨_, rfl⟩ | ⟨child, isChild, below, deeper, _⟩
      · exact List.mem_cons_self
      · exact List.mem_cons_of_mem _ (List.mem_flatMap.mpr ⟨child, isChild, ih ⟨child, isChild⟩ _ deeper⟩)

end Node

/-- The leaves of a program, in the order of the source text. -/
def Program.leaves (program : Program) : List Node :=
  program.body.flatMap fun statement => (Node.statement statement).leaves

/-- The leaves of a program are those that occur in it. -/
theorem Program.mem_leaves {program : Program} {node : Node} :
    node ∈ program.leaves ↔ node.isLeaf = true ∧ ∃ path, program.Occurs path node := by
  simp only [leaves, List.mem_flatMap, Node.leaves, List.mem_filter, Node.mem_preorder, Occurs]
  constructor
  · rintro ⟨statement, member, ⟨path, occurs⟩, leaf⟩
    exact ⟨leaf, path, statement, member, occurs⟩
  · rintro ⟨leaf, path, statement, member, occurs⟩
    exact ⟨statement, member, ⟨path, occurs⟩, leaf⟩

end EcmaScript
