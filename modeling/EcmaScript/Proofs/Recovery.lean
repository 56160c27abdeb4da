import EcmaScript.Proofs.Leaves
import EcmaScript.Proofs.LexemeText
import EcmaScript.Proofs.Shape
import EcmaScript.Proofs.TokenText
import Mathlib.Data.List.Forall2

/-!
# What the ESTree form tells of a tree

The ESTree form of a tree is compared as a JSON value: an object by its fields, in whatever order
they are, and an infinite number as the null that is written for it. So three sorts of literals have
the same value there. A regular expression is told by its parts, and the two others by their text:
only the word `null` is written as it is.
-/

namespace EcmaScript

namespace Json

/-- The document is written as null: it is null, or an infinite number. -/
def isNull : Json → Bool
  | .null => true
  | .number value => !value.isFinite
  | _ => false

/-- Two documents are the same JSON value. -/
inductive Same : Json → Json → Prop where
  | null {left right : Json} : left.isNull = true → right.isNull = true → Same left right
  | boolean (value : Bool) : Same (.boolean value) (.boolean value)
  | natural (value : Nat) : Same (.natural value) (.natural value)
  | number (value : Binary64) : Same (.number value) (.number value)
  | string (value : String) : Same (.string value) (.string value)
  | array {items others : List Json} :
      List.Forall₂ Same items others → Same (.array items) (.array others)
  | object {fields others : List (String × Json)} :
      (∀ name, Option.Rel Same (fields.lookup name) (others.lookup name)) →
      Same (.object fields) (.object others)

mutual

theorem Same.refl : (document : Json) → Same document document
  | .null => .null rfl rfl
  | .boolean value => .boolean value
  | .natural value => .natural value
  | .number value => .number value
  | .string value => .string value
  | .array items => .array (Same.refl_items items)
  | .object fields => .object (Same.refl_fields fields)

theorem Same.refl_items : (items : List Json) → List.Forall₂ Same items items
  | [] => .nil
  | item :: items => .cons (Same.refl item) (Same.refl_items items)

theorem Same.refl_fields : (fields : List (String × Json)) → (name : String) →
    Option.Rel Same (fields.lookup name) (fields.lookup name)
  | [], _ => .none
  | (field, value) :: fields, name => by
    rw [List.lookup_cons]
    split
    · exact .some (Same.refl value)
    · exact Same.refl_fields fields name

end

section Inversion

variable {left right : Json}

theorem Same.string_eq {first second : String} (same : Same (.string first) (.string second)) :
    first = second := by
  cases same with
  | null isNull => contradiction
  | string => rfl

theorem Same.boolean_eq {first second : Bool} (same : Same (.boolean first) (.boolean second)) :
    first = second := by
  cases same with
  | null isNull => contradiction
  | boolean => rfl

theorem Same.natural_eq {first second : Nat} (same : Same (.natural first) (.natural second)) :
    first = second := by
  cases same with
  | null isNull => contradiction
  | natural => rfl

theorem Same.number_eq {first second : Binary64} (same : Same (.number first) (.number second)) :
    first = second := by
  cases same with
  | null infinite infiniteToo =>
    have first_le := first.code_le
    have second_le := second.code_le
    simp only [isNull, Binary64.isFinite, Bool.not_eq_true', decide_eq_false_iff_not, Nat.not_lt]
      at infinite infiniteToo
    cases first
    cases second
    simp only [Binary64.mk.injEq]
    exact Nat.le_antisymm (Nat.le_trans first_le infiniteToo) (Nat.le_trans second_le infinite)
  | number => rfl

theorem Same.isNull_eq (same : Same left right) : left.isNull = right.isNull := by
  cases same with
  | null isNull isNullToo => rw [isNull, isNullToo]
  | _ => rfl

theorem Same.array_items {items others : List Json} (same : Same (.array items) (.array others)) :
    List.Forall₂ Same items others := by
  cases same with
  | null isNull => contradiction
  | array items => exact items

/-- The fields of a name are the same, or neither object has such a field. -/
theorem Same.rel_field (same : Same left right) (name : String) :
    Option.Rel Same (left.field? name) (right.field? name) := by
  cases same with
  | null isNull isNullToo =>
    have noField : ∀ {document : Json}, document.isNull = true → document.field? name = none := by
      intro document isNull
      cases document <;> first | rfl | contradiction
    rw [noField isNull, noField isNullToo]
    exact .none
  | object fields => exact fields name
  | _ => exact .none

theorem Same.field (same : Same left right) (name : String) {first second : Json}
    (found : left.field? name = some first) (foundToo : right.field? name = some second) :
    Same first second := by
  have related := same.rel_field name
  rw [found, foundToo] at related
  cases related with
  | some same => exact same

/-- No object has a field that the same object has not. -/
theorem Same.not_field (same : Same left right) (name : String) {value : Json}
    (found : left.field? name = some value) : right.field? name ≠ none := by
  intro missing
  have related := same.rel_field name
  rw [found, missing] at related
  cases related

theorem Same.symm_not_field (same : Same left right) (name : String) {value : Json}
    (found : right.field? name = some value) : left.field? name ≠ none := by
  intro missing
  have related := same.rel_field name
  rw [found, missing] at related
  cases related

/-- The same node has the same type. -/
theorem Same.type_eq {type other : String} {fields others : List (String × Json)}
    {span second : Span} (same : Same (.node type fields span) (.node other others second)) :
    type = other :=
  (same.field "type" rfl rfl).string_eq

end Inversion

end Json

open Json (Same)

theorem Position.eq_of_same {left right : Position} (same : Same left.estree right.estree) :
    left = right := by
  have line := (same.field "line" rfl rfl).natural_eq
  have column := (same.field "column" rfl rfl).natural_eq
  cases left
  cases right
  congr

theorem Span.eq_of_same {left right : Span} (same : Same left.estree right.estree) :
    left = right := by
  have start := Position.eq_of_same (same.field "start" rfl rfl)
  have stop := Position.eq_of_same (same.field "end" rfl rfl)
  cases left
  cases right
  congr

theorem Identifier.eq_of_same {left right : Identifier} (same : Same left.estree right.estree) :
    left = right := by
  have name := (same.field "name" rfl rfl).string_eq
  have span := Span.eq_of_same (same.field "loc" rfl rfl)
  cases left
  cases right
  congr

namespace BinaryOperator

theorem text_inj {left right : BinaryOperator} (same : left.text = right.text) : left = right := by
  cases left <;> cases right <;> first | rfl | exact absurd same (by decide)

/-- A node of another type is no binary operation. -/
@[simp] theorem nodeType_ne {type : String} (logical : "LogicalExpression" ≠ type)
    (plain : "BinaryExpression" ≠ type) (operator : BinaryOperator) : operator.nodeType ≠ type := by
  unfold nodeType
  split
  · exact logical
  · exact plain

end BinaryOperator

theorem UnaryOperator.text_inj {left right : UnaryOperator} (same : left.text = right.text) :
    left = right := by
  cases left <;> cases right <;> first | rfl | exact absurd same (by decide)

theorem UpdateOperator.text_inj {left right : UpdateOperator} (same : left.text = right.text) :
    left = right := by
  cases left <;> cases right <;> first | rfl | exact absurd same (by decide)

theorem AssignmentOperator.text_inj {left right : AssignmentOperator}
    (same : left.text = right.text) : left = right := by
  cases left <;> cases right <;> first | rfl | exact absurd same (by decide)

theorem PropertyKind.text_inj {left right : PropertyKind} (same : left.text = right.text) :
    left = right := by
  cases left <;> cases right <;> first | rfl | exact absurd same (by decide)

/-! ### Literals -/

/-- A literal is null just when its text is, if it is a number or null. -/
def Literal.IsSpelled (literal : Literal) (raw : String) : Prop :=
  match literal with
  | .null => raw = "null"
  | .number _ => raw ≠ "null"
  | _ => True

/-- Literals that are no regular expressions and have the same text and the same value. -/
theorem Literal.eq_of_same_json {left right : Literal} {raw : String}
    (spelled : left.IsSpelled raw) (spelledToo : right.IsSpelled raw)
    (plain : left.regexFields = []) (plainToo : right.regexFields = [])
    (same : Same left.json right.json) : left = right := by
  cases left with
  | null =>
    cases right with
    | null => rfl
    | number => exact absurd spelled spelledToo
    | regularExpression => contradiction
    | _ => cases same; contradiction
  | boolean =>
    cases right with
    | boolean => rw [same.boolean_eq]
    | _ => cases same; contradiction
  | number =>
    cases right with
    | number => rw [same.number_eq]
    | null => exact absurd spelledToo spelled
    | regularExpression => contradiction
    | _ => cases same; contradiction
  | string =>
    cases right with
    | string => rw [same.string_eq]
    | _ => cases same; contradiction
  | regularExpression => contradiction

theorem Literal.field_loc (literal : Literal) (raw : String) (span : Span) :
    (literal.estree raw span).field? "loc" = some span.estree := by
  cases literal <;> rfl

/-- The parts of a regular expression tell it from the other literals, and from each other. -/
theorem Literal.eq_of_same_regularExpression {left right : Literal} {raw other : String}
    {span second : Span} {pattern flags : String}
    (same : Same (left.estree raw span) (right.estree other second))
    (expression : left = .regularExpression pattern flags) : left = right := by
  subst expression
  cases right with
  | regularExpression =>
    have parts := same.field "regex" rfl rfl
    rw [(parts.field "pattern" rfl rfl).string_eq, (parts.field "flags" rfl rfl).string_eq]
  | _ => exact absurd rfl (same.not_field "regex" rfl)

theorem Literal.regexFields_eq_nil {literal : Literal}
    (plain : ∀ pattern flags, literal ≠ .regularExpression pattern flags) :
    literal.regexFields = [] := by
  cases literal with
  | regularExpression pattern flags => exact absurd rfl (plain pattern flags)
  | _ => rfl

theorem Same.symm_regularExpression {left right : Literal} {raw other : String}
    {span second : Span} {pattern flags : String}
    (same : Same (left.estree raw span) (right.estree other second))
    (expression : right = .regularExpression pattern flags) : left = right := by
  subst expression
  cases left with
  | regularExpression => exact Literal.eq_of_same_regularExpression same rfl
  | _ => exact absurd rfl (same.symm_not_field "regex" rfl)

theorem Literal.eq_of_same {left right : Literal} {raw other : String} {span second : Span}
    (spelled : left.IsSpelled raw) (spelledToo : right.IsSpelled other)
    (same : Same (left.estree raw span) (right.estree other second)) :
    left = right ∧ raw = other ∧ span = second := by
  have text : raw = other := (same.field "raw" rfl rfl).string_eq
  have place := Span.eq_of_same (same.field "loc" (left.field_loc ..) (right.field_loc ..))
  refine ⟨?_, text, place⟩
  subst text
  by_cases expression : ∃ pattern flags, left = .regularExpression pattern flags
  · obtain ⟨pattern, flags, expression⟩ := expression
    exact eq_of_same_regularExpression same expression
  · by_cases expressionToo : ∃ pattern flags, right = .regularExpression pattern flags
    · obtain ⟨pattern, flags, expressionToo⟩ := expressionToo
      exact Same.symm_regularExpression same expressionToo
    · exact eq_of_same_json spelled spelledToo
        (regexFields_eq_nil fun pattern flags same => expression ⟨pattern, flags, same⟩)
        (regexFields_eq_nil fun pattern flags same => expressionToo ⟨pattern, flags, same⟩)
        (same.field "value" rfl rfl)

/-! ### Nodes -/

/-- The ESTree form of a node. -/
def Node.estree : Node → Json
  | .expression item => item.estree
  | .name item | .binding item | .label item => item.estree
  | .key item => item.estree
  | .property item => item.estree
  | .block item => item.estree
  | .declarator item => item.estree
  | .declaration item => item.estree
  | .clause item => item.estree
  | .handler item => item.estree
  | .statement item => item.estree

/-- The literal that a node is, if it is one, is null just when its text is. -/
def Node.IsSpelled : Node → Prop
  | .expression (.literal value raw _) => value.IsSpelled raw
  | .key (.literal value raw _) => value.IsSpelled raw
  | _ => True

/-- All literals in the tree of a node are spelled. -/
def Node.AllSpelled (node : Node) : Prop :=
  node.Everywhere fun _ item => item.IsSpelled

theorem Node.AllSpelled.child {node child : Node} (spelled : node.AllSpelled)
    (member : child ∈ node.children) : child.AllSpelled :=
  (everywhere_iff.mp spelled).2 child member

/-- No other node of the same sort has the same ESTree form, if all literals are spelled. -/
def Node.IsTold (node : Node) : Prop :=
  ∀ other : Node, other.AllSpelled → node.ctorIdx = other.ctorIdx →
    Same node.estree other.estree → node = other

/-- Trees of some type are nodes of one sort. -/
structure Node.IsSort {α : Type} (node : α → Node) : Prop where
  injective : ∀ {left right}, node left = node right → left = right
  ctorIdx : ∀ left right, (node left).ctorIdx = (node right).ctorIdx

namespace Node.IsSort

theorem expression : IsSort .expression := ⟨fun same => by cases same; rfl, fun _ _ => rfl⟩

theorem property : IsSort .property := ⟨fun same => by cases same; rfl, fun _ _ => rfl⟩

theorem key : IsSort .key := ⟨fun same => by cases same; rfl, fun _ _ => rfl⟩

theorem block : IsSort .block := ⟨fun same => by cases same; rfl, fun _ _ => rfl⟩

theorem declarator : IsSort .declarator := ⟨fun same => by cases same; rfl, fun _ _ => rfl⟩

theorem declaration : IsSort .declaration := ⟨fun same => by cases same; rfl, fun _ _ => rfl⟩

theorem clause : IsSort .clause := ⟨fun same => by cases same; rfl, fun _ _ => rfl⟩

theorem handler : IsSort .handler := ⟨fun same => by cases same; rfl, fun _ _ => rfl⟩

theorem statement : IsSort .statement := ⟨fun same => by cases same; rfl, fun _ _ => rfl⟩

end Node.IsSort

theorem eq_of_forall₂_same {α : Type} {estree : α → Json} {lefts rights : List α}
    (told : ∀ left ∈ lefts, ∀ right ∈ rights, Same (estree left) (estree right) → left = right)
    (same : List.Forall₂ Same (lefts.map estree) (rights.map estree)) : lefts = rights := by
  induction lefts generalizing rights with
  | nil =>
    cases rights with
    | nil => rfl
    | cons => cases same
  | cons left lefts ih =>
    cases rights with
    | nil => cases same
    | cons right rights =>
      cases same with
      | cons first others =>
        rw [told left (.head _) right (.head _) first]
        rw [ih (fun left member right memberToo => told left (.tail _ member) right
          (.tail _ memberToo)) others]

theorem eq_of_same_option {α : Type} {estree : α → Json} {left right : Option α}
    (solid : ∀ item, (estree item).isNull = false)
    (told : ∀ item ∈ left, ∀ other ∈ right, Same (estree item) (estree other) → item = other)
    (same : Same (.ofOption (left.map estree)) (.ofOption (right.map estree))) : left = right := by
  have nulls := same.isNull_eq
  cases left with
  | none =>
    cases right with
    | none => rfl
    | some item => exact absurd nulls.symm (ne_of_eq_of_ne (solid item) nofun)
  | some item =>
    cases right with
    | none => exact absurd nulls (ne_of_eq_of_ne (solid item) nofun)
    | some other => rw [told item rfl other rfl same]

section Parts

variable {α : Type} {node other : Node} {sort : α → Node} (isSort : Node.IsSort sort)
  (below : ∀ child ∈ node.children, child.IsTold) (spelled : other.AllSpelled)

include isSort below spelled

/-- A child is told by what it is in the ESTree form of its parent. -/
theorem Node.told {left right : α} (member : sort left ∈ node.children)
    (memberToo : sort right ∈ other.children) (same : Same (sort left).estree (sort right).estree) :
    left = right :=
  isSort.injective
    (below _ member _ (spelled.child memberToo) (isSort.ctorIdx left right) same)

theorem Node.told_list {estrees : List α → List Json}
    (estrees_eq : ∀ items, estrees items = items.map fun item => (sort item).estree)
    {lefts rights : List α} (members : ∀ item ∈ lefts, sort item ∈ node.children)
    (membersToo : ∀ item ∈ rights, sort item ∈ other.children)
    (same : Same (.array (estrees lefts)) (.array (estrees rights))) : lefts = rights := by
  have items := same.array_items
  rw [estrees_eq, estrees_eq] at items
  refine eq_of_forall₂_same (fun left member right memberToo same => ?_) items
  exact Node.told isSort below spelled (members left member) (membersToo right memberToo) same

theorem Node.told_option {estree? : Option α → Json}
    (estree?_eq : ∀ item, estree? item = .ofOption (item.map fun item => (sort item).estree))
    (solid : ∀ item, (sort item).estree.isNull = false) {left right : Option α}
    (members : ∀ item ∈ left, sort item ∈ node.children)
    (membersToo : ∀ item ∈ right, sort item ∈ other.children)
    (same : Same (estree? left) (estree? right)) : left = right := by
  rw [estree?_eq, estree?_eq] at same
  refine eq_of_same_option solid (fun left member right memberToo same => ?_) same
  exact Node.told isSort below spelled (members left member) (membersToo right memberToo) same

end Parts

/-! ### Lists and optional parts -/

theorem Expression.estrees_eq (items : List Expression) :
    estrees items = items.map estree := by
  induction items with
  | nil => rfl
  | cons item items ih => exact congrArg (item.estree :: ·) ih

theorem Expression.elementEstrees_eq (items : List (Option Expression)) :
    elementEstrees items = items.map estree? := by
  induction items with
  | nil => rfl
  | cons item items ih => cases item <;> exact congrArg (_ :: ·) ih

theorem Property.estrees_eq (items : List Property) : estrees items = items.map estree := by
  induction items with
  | nil => rfl
  | cons item items ih => exact congrArg (item.estree :: ·) ih

theorem VariableDeclarator.estrees_eq (items : List VariableDeclarator) :
    estrees items = items.map estree := by
  induction items with
  | nil => rfl
  | cons item items ih => exact congrArg (item.estree :: ·) ih

theorem SwitchCase.estrees_eq (items : List SwitchCase) : estrees items = items.map estree := by
  induction items with
  | nil => rfl
  | cons item items ih => exact congrArg (item.estree :: ·) ih

theorem Statement.estrees_eq (items : List Statement) : estrees items = items.map estree := by
  induction items with
  | nil => rfl
  | cons item items ih => exact congrArg (item.estree :: ·) ih

theorem Expression.estree?_eq (item : Option Expression) :
    estree? item = .ofOption (item.map estree) := by
  cases item <;> rfl

theorem Block.estree?_eq (item : Option Block) : estree? item = .ofOption (item.map estree) := by
  cases item <;> rfl

theorem CatchClause.estree?_eq (item : Option CatchClause) :
    estree? item = .ofOption (item.map estree) := by
  cases item <;> rfl

theorem Statement.estree?_eq (item : Option Statement) :
    estree? item = .ofOption (item.map estree) := by
  cases item <;> rfl

theorem ForHead.estree?_eq (item : Option ForHead) :
    estree? item = .ofOption (item.map estree) := by
  cases item <;> rfl

/-- The ESTree form of a node is an object. -/
theorem Node.isNull_estree (node : Node) : node.estree.isNull = false := by
  cases node with
  | statement item =>
    cases item with
    | block inner | «variables» inner =>
      cases inner
      rfl
    | expression _ directive => cases directive <;> rfl
    | _ => rfl
  | expression item | key item => cases item <;> rfl
  | name | binding | label => rfl
  | property item | block item | declarator item | declaration item | clause item | handler item =>
    cases item
    rfl

theorem Identifier.eq_of_same_list {lefts rights : List Identifier}
    (same : Same (estrees lefts) (estrees rights)) : lefts = rights :=
  eq_of_forall₂_same (fun _ _ _ _ same => eq_of_same same) same.array_items

theorem Identifier.eq_of_same_option {left right : Option Identifier}
    (same : Same (estree? left) (estree? right)) : left = right :=
  EcmaScript.eq_of_same_option (fun _ => rfl) (fun _ _ _ _ same => eq_of_same same) same

namespace Node

section Parts

variable {node other : Node} (below : ∀ child ∈ node.children, child.IsTold)
  (spelled : other.AllSpelled)

include below spelled

theorem told_expression {left right : Expression} (member : .expression left ∈ node.children)
    (memberToo : .expression right ∈ other.children) (same : Same left.estree right.estree) :
    left = right :=
  told IsSort.expression below spelled member memberToo same

theorem told_expressions {lefts rights : List Expression}
    (members : ∀ item ∈ lefts, .expression item ∈ node.children)
    (membersToo : ∀ item ∈ rights, .expression item ∈ other.children)
    (same : Same (.array (Expression.estrees lefts)) (.array (Expression.estrees rights))) :
    lefts = rights :=
  told_list IsSort.expression below spelled Expression.estrees_eq members membersToo same

theorem told_expression? {left right : Option Expression}
    (members : ∀ item ∈ left, .expression item ∈ node.children)
    (membersToo : ∀ item ∈ right, .expression item ∈ other.children)
    (same : Same (Expression.estree? left) (Expression.estree? right)) : left = right :=
  told_option IsSort.expression below spelled Expression.estree?_eq
    (fun item => isNull_estree (.expression item)) members membersToo same

theorem told_statement {left right : Statement} (member : .statement left ∈ node.children)
    (memberToo : .statement right ∈ other.children) (same : Same left.estree right.estree) :
    left = right :=
  told IsSort.statement below spelled member memberToo same

theorem told_statements {lefts rights : List Statement}
    (members : ∀ item ∈ lefts, .statement item ∈ node.children)
    (membersToo : ∀ item ∈ rights, .statement item ∈ other.children)
    (same : Same (.array (Statement.estrees lefts)) (.array (Statement.estrees rights))) :
    lefts = rights :=
  told_list IsSort.statement below spelled Statement.estrees_eq members membersToo same

theorem told_block {left right : Block} (member : .block left ∈ node.children)
    (memberToo : .block right ∈ other.children) (same : Same left.estree right.estree) :
    left = right :=
  told IsSort.block below spelled member memberToo same

theorem told_elements {lefts rights : List (Option Expression)}
    (members : ∀ element ∈ lefts, ∀ item ∈ element, .expression item ∈ node.children)
    (membersToo : ∀ element ∈ rights, ∀ item ∈ element, .expression item ∈ other.children)
    (same : Same (.array (Expression.elementEstrees lefts))
      (.array (Expression.elementEstrees rights))) : lefts = rights := by
  have items := same.array_items
  rw [Expression.elementEstrees_eq, Expression.elementEstrees_eq] at items
  refine eq_of_forall₂_same (fun left member right memberToo same => ?_) items
  exact told_expression? below spelled (members left member) (membersToo right memberToo) same

end Parts

theorem mem_elements {elements : List (Option Expression)} {span : Span} :
    ∀ element ∈ elements, ∀ item ∈ element,
      .expression item ∈ (Node.expression (.array elements span)).children :=
  fun element member _ inside =>
    List.mem_map_of_mem (List.mem_filterMap.mpr ⟨element, member, inside⟩)

/-- An expression is told when its parts are. -/
theorem isTold_expression {item : Expression}
    (below : ∀ child ∈ (Node.expression item).children, child.IsTold)
    (here : (Node.expression item).IsSpelled) : (Node.expression item).IsTold := by
  rintro (other | _) spelled sort same
  case expression =>
    congr 1
    have place : ∀ {span second}, item.estree.field? "loc" = some (Span.estree span) →
        other.estree.field? "loc" = some (Span.estree second) → span = second :=
      fun found foundToo => Span.eq_of_same (same.field _ found foundToo)
    cases item with
    | identifier name =>
      cases other with
      | identifier => rw [Identifier.eq_of_same same]
      | _ => exact absurd same.type_eq.symm (by simp)
    | literal value raw span =>
      cases other with
      | literal =>
        obtain ⟨rfl, rfl, rfl⟩ := Literal.eq_of_same here (everywhere_iff.mp spelled).1 same
        rfl
      | _ => exact absurd same.type_eq.symm (by simp)
    | thisValue span =>
      cases other with
      | thisValue => rw [place rfl rfl]
      | _ => exact absurd same.type_eq.symm (by simp)
    | array elements span =>
      cases other with
      | array =>
        rw [told_elements below spelled mem_elements mem_elements (same.field "elements" rfl rfl),
          place rfl rfl]
      | _ => exact absurd same.type_eq.symm (by simp)
    | object properties span =>
      cases other with
      | object =>
        rw [told_list IsSort.property below spelled Property.estrees_eq
          (fun _ inside => List.mem_map_of_mem inside) (fun _ inside => List.mem_map_of_mem inside)
          (same.field "properties" rfl rfl), place rfl rfl]
      | _ => exact absurd same.type_eq.symm (by simp)
    | function name parameters body span =>
      cases other with
      | function =>
        rw [Identifier.eq_of_same_option (same.field "id" rfl rfl),
          Identifier.eq_of_same_list (same.field "params" rfl rfl),
          told_block below spelled (by simp [children, Expression.children])
            (by simp [children, Expression.children]) (same.field "body" rfl rfl), place rfl rfl]
      | _ => exact absurd same.type_eq.symm (by simp)
    | unary operator argument span =>
      cases other with
      | unary =>
        rw [UnaryOperator.text_inj (same.field "operator" rfl rfl).string_eq,
          told_expression below spelled (.head _) (.head _) (same.field "argument" rfl rfl),
          place rfl rfl]
      | _ => exact absurd same.type_eq.symm (by simp)
    | update operator placement argument span =>
      cases other with
      | update _ second =>
        have sides : placement = second := by
          have before := (same.field "prefix" rfl rfl).boolean_eq
          cases placement <;> cases second <;> first | rfl | contradiction
        rw [UpdateOperator.text_inj (same.field "operator" rfl rfl).string_eq, sides,
          told_expression below spelled (.head _) (.head _) (same.field "argument" rfl rfl),
          place rfl rfl]
      | _ => exact absurd same.type_eq.symm (by simp)
    | binary operator left right span =>
      cases other with
      | binary =>
        rw [BinaryOperator.text_inj (same.field "operator" rfl rfl).string_eq,
          told_expression below spelled (.head _) (.head _) (same.field "left" rfl rfl),
          told_expression below spelled (.tail _ (.head _)) (.tail _ (.head _))
            (same.field "right" rfl rfl), place rfl rfl]
      | _ => exact absurd same.type_eq (by simp)
    | assignment operator target value span =>
      cases other with
      | assignment =>
        rw [AssignmentOperator.text_inj (same.field "operator" rfl rfl).string_eq,
          told_expression below spelled (.head _) (.head _) (same.field "left" rfl rfl),
          told_expression below spelled (.tail _ (.head _)) (.tail _ (.head _))
            (same.field "right" rfl rfl), place rfl rfl]
      | _ => exact absurd same.type_eq.symm (by simp)
    | conditional test consequent alternate span =>
      cases other with
      | conditional =>
        rw [told_expression below spelled (.head _) (.head _) (same.field "test" rfl rfl),
          told_expression below spelled (.tail _ (.head _)) (.tail _ (.head _))
            (same.field "consequent" rfl rfl),
          told_expression below spelled (.tail _ (.tail _ (.head _))) (.tail _ (.tail _ (.head _)))
            (same.field "alternate" rfl rfl), place rfl rfl]
      | _ => exact absurd same.type_eq.symm (by simp)
    | call callee arguments span =>
      cases other with
      | call =>
        rw [told_expression below spelled (.head _) (.head _) (same.field "callee" rfl rfl),
          told_expressions below spelled (fun _ inside => .tail _ (List.mem_map_of_mem inside))
            (fun _ inside => .tail _ (List.mem_map_of_mem inside)) (same.field "arguments" rfl rfl),
          place rfl rfl]
      | _ => exact absurd same.type_eq.symm (by simp)
    | new callee arguments span =>
      cases other with
      | new =>
        rw [told_expression below spelled (.head _) (.head _) (same.field "callee" rfl rfl),
          told_expressions below spelled (fun _ inside => .tail _ (List.mem_map_of_mem inside))
            (fun _ inside => .tail _ (List.mem_map_of_mem inside)) (same.field "arguments" rfl rfl),
          place rfl rfl]
      | _ => exact absurd same.type_eq.symm (by simp)
    | dot object property span =>
      cases other with
      | dot =>
        rw [told_expression below spelled (.head _) (.head _) (same.field "object" rfl rfl),
          Identifier.eq_of_same (same.field "property" rfl rfl), place rfl rfl]
      | index => exact absurd (same.field "computed" rfl rfl).boolean_eq (by decide)
      | _ => exact absurd same.type_eq.symm (by simp)
    | index object property span =>
      cases other with
      | index =>
        rw [told_expression below spelled (.head _) (.head _) (same.field "object" rfl rfl),
          told_expression below spelled (.tail _ (.head _)) (.tail _ (.head _))
            (same.field "property" rfl rfl), place rfl rfl]
      | dot => exact absurd (same.field "computed" rfl rfl).boolean_eq (by decide)
      | _ => exact absurd same.type_eq.symm (by simp)
    | sequence expressions span =>
      cases other with
      | sequence =>
        rw [told_expressions below spelled (fun _ inside => List.mem_map_of_mem inside)
          (fun _ inside => List.mem_map_of_mem inside) (same.field "expressions" rfl rfl),
          place rfl rfl]
      | _ => exact absurd same.type_eq.symm (by simp)
  all_goals cases sort

section Parts

variable {node other : Node} (below : ∀ child ∈ node.children, child.IsTold)
  (spelled : other.AllSpelled)

include below spelled

theorem told_head {left right : ForHead} (member : left.node ∈ node.children)
    (memberToo : right.node ∈ other.children) (same : Same left.estree right.estree) :
    left = right := by
  cases left with
  | declaration left =>
    cases right with
    | declaration right =>
      rw [told IsSort.declaration below spelled member memberToo same]
    | expression right =>
      cases left
      cases right <;> exact absurd same.type_eq.symm (by simp)
  | expression left =>
    cases right with
    | declaration right =>
      cases right
      cases left <;> exact absurd same.type_eq (by simp)
    | expression right => rw [told_expression below spelled member memberToo same]

theorem told_head? {left right : Option ForHead}
    (members : ∀ item ∈ left, item.node ∈ node.children)
    (membersToo : ∀ item ∈ right, item.node ∈ other.children)
    (same : Same (ForHead.estree? left) (ForHead.estree? right)) : left = right := by
  rw [ForHead.estree?_eq, ForHead.estree?_eq] at same
  refine eq_of_same_option (fun head => ?_) (fun left member right memberToo same => ?_) same
  · cases head with
    | declaration item => exact isNull_estree (.declaration item)
    | expression item => exact isNull_estree (.expression item)
  · exact told_head below spelled (members left member) (membersToo right memberToo) same

theorem told_statement? {left right : Option Statement}
    (members : ∀ item ∈ left, .statement item ∈ node.children)
    (membersToo : ∀ item ∈ right, .statement item ∈ other.children)
    (same : Same (Statement.estree? left) (Statement.estree? right)) : left = right :=
  told_option IsSort.statement below spelled Statement.estree?_eq
    (fun item => isNull_estree (.statement item)) members membersToo same

end Parts

/-- The type of the node of a statement. -/
def typeName : Statement → String
  | .empty _ => "EmptyStatement"
  | .block _ => "BlockStatement"
  | .expression .. => "ExpressionStatement"
  | .variables _ => "VariableDeclaration"
  | .function .. => "FunctionDeclaration"
  | .ifElse .. => "IfStatement"
  | .labelled .. => "LabeledStatement"
  | .breakTo .. => "BreakStatement"
  | .continueTo .. => "ContinueStatement"
  | .withObject .. => "WithStatement"
  | .switch .. => "SwitchStatement"
  | .returnValue .. => "ReturnStatement"
  | .throwValue .. => "ThrowStatement"
  | .tryBlock .. => "TryStatement"
  | .whileLoop .. => "WhileStatement"
  | .doWhileLoop .. => "DoWhileStatement"
  | .forLoop .. => "ForStatement"
  | .forInLoop .. => "ForInStatement"
  | .debugger _ => "DebuggerStatement"

theorem field_type (item : Statement) :
    item.estree.field? "type" = some (.string (typeName item)) := by
  cases item with
  | block inner | «variables» inner =>
    cases inner
    rfl
  | expression _ directive => cases directive <;> rfl
  | _ => rfl

theorem field_loc (item : Statement) :
    item.estree.field? "loc" = some item.span.estree := by
  cases item with
  | block inner | «variables» inner =>
    cases inner
    rfl
  | expression _ directive => cases directive <;> rfl
  | _ => rfl

/-- The same statement has the same type. -/
theorem typeName_eq_of_same {item other : Statement} (same : Same item.estree other.estree) :
    typeName item = typeName other :=
  (same.field "type" (field_type item) (field_type other)).string_eq

theorem span_eq_of_same {item other : Statement} (same : Same item.estree other.estree) :
    item.span = other.span :=
  Span.eq_of_same (same.field "loc" (field_loc item) (field_loc other))

theorem field_expression (value : Expression) (text : Option String) (span : Span) :
    (Statement.expression value text span).estree.field? "expression" = some value.estree := by
  cases text <;> rfl

/-- The text of a directive is there when the statement is one. -/
theorem directive_eq_of_same {value other : Expression} {text second : Option String}
    {span place : Span}
    (same : Same (Statement.expression value text span).estree
      (Statement.expression other second place).estree) : text = second := by
  cases text with
  | none =>
    cases second with
    | none => rfl
    | some => exact absurd rfl (same.symm_not_field "directive" rfl)
  | some =>
    cases second with
    | none => exact absurd rfl (same.not_field "directive" rfl)
    | some => rw [(same.field "directive" rfl rfl).string_eq]

/-- A statement is told when its parts are. -/
theorem isTold_statement {item : Statement}
    (below : ∀ child ∈ (Node.statement item).children, child.IsTold) :
    (Node.statement item).IsTold := by
  rintro (_ | _ | _ | _ | _ | _ | _ | _ | _ | _ | _ | other) spelled sort same
  case statement =>
    congr 1
    have type := typeName_eq_of_same same
    have place := span_eq_of_same same
    cases item with
    | empty =>
      cases other with
      | empty => exact congrArg _ place
      | _ => simp [typeName] at type
    | block inner =>
      cases other with
      | block other =>
        obtain ⟨body, span⟩ := inner
        obtain ⟨others, second⟩ := other
        have bodies : body = others :=
          told_statements below spelled (fun _ inside => List.mem_map_of_mem inside)
            (fun _ inside => List.mem_map_of_mem inside) (same.field "body" rfl rfl)
        have spans : span = second := place
        rw [bodies, spans]
      | _ => simp [typeName] at type
    | expression value text span =>
      cases other with
      | expression other second =>
        rw [directive_eq_of_same same, told_expression below spelled (.head _) (.head _)
          (same.field "expression" (field_expression ..) (field_expression ..))]
        exact congrArg _ place
      | _ => simp [typeName] at type
    | «variables» declaration =>
      cases other with
      | «variables» other =>
        obtain ⟨declarators, span⟩ := declaration
        obtain ⟨others, second⟩ := other
        have declarations : declarators = others :=
          told_list IsSort.declarator below spelled VariableDeclarator.estrees_eq
            (fun _ inside => List.mem_map_of_mem inside)
            (fun _ inside => List.mem_map_of_mem inside) (same.field "declarations" rfl rfl)
        have spans : span = second := place
        rw [declarations, spans]
      | _ => simp [typeName] at type
    | function name parameters body span =>
      cases other with
      | function =>
        rw [Identifier.eq_of_same (same.field "id" rfl rfl),
          Identifier.eq_of_same_list (same.field "params" rfl rfl),
          told_block below spelled (by simp [children, Statement.children])
            (by simp [children, Statement.children]) (same.field "body" rfl rfl)]
        exact congrArg _ place
      | _ => simp [typeName] at type
    | ifElse test consequent alternate span =>
      cases other with
      | ifElse =>
        rw [told_expression below spelled (.head _) (.head _) (same.field "test" rfl rfl),
          told_statement below spelled (.tail _ (.head _)) (.tail _ (.head _))
            (same.field "consequent" rfl rfl),
          told_statement? below spelled
            (fun _ inside => .tail _ (.tail _ (List.mem_map_of_mem (Option.mem_toList.mpr inside))))
            (fun _ inside => .tail _ (.tail _ (List.mem_map_of_mem (Option.mem_toList.mpr inside))))
            (same.field "alternate" rfl rfl)]
        exact congrArg _ place
      | _ => simp [typeName] at type
    | labelled label body span =>
      cases other with
      | labelled =>
        rw [Identifier.eq_of_same (same.field "label" rfl rfl),
          told_statement below spelled (.tail _ (.head _)) (.tail _ (.head _))
            (same.field "body" rfl rfl)]
        exact congrArg _ place
      | _ => simp [typeName] at type
    | breakTo label span =>
      cases other with
      | breakTo =>
        rw [Identifier.eq_of_same_option (same.field "label" rfl rfl)]
        exact congrArg _ place
      | _ => simp [typeName] at type
    | continueTo label span =>
      cases other with
      | continueTo =>
        rw [Identifier.eq_of_same_option (same.field "label" rfl rfl)]
        exact congrArg _ place
      | _ => simp [typeName] at type
    | withObject object body span =>
      cases other with
      | withObject =>
        rw [told_expression below spelled (.head _) (.head _) (same.field "object" rfl rfl),
          told_statement below spelled (.tail _ (.head _)) (.tail _ (.head _))
            (same.field "body" rfl rfl)]
        exact congrArg _ place
      | _ => simp [typeName] at type
    | switch discriminant clauses span =>
      cases other with
      | switch =>
        rw [told_expression below spelled (.head _) (.head _) (same.field "discriminant" rfl rfl),
          told_list IsSort.clause below spelled SwitchCase.estrees_eq
            (fun _ inside => .tail _ (List.mem_map_of_mem inside))
            (fun _ inside => .tail _ (List.mem_map_of_mem inside)) (same.field "cases" rfl rfl)]
        exact congrArg _ place
      | _ => simp [typeName] at type
    | returnValue argument span =>
      cases other with
      | returnValue =>
        rw [told_expression? below spelled
          (fun _ inside => List.mem_map_of_mem (Option.mem_toList.mpr inside))
          (fun _ inside => List.mem_map_of_mem (Option.mem_toList.mpr inside))
          (same.field "argument" rfl rfl)]
        exact congrArg _ place
      | _ => simp [typeName] at type
    | throwValue argument span =>
      cases other with
      | throwValue =>
        rw [told_expression below spelled (.head _) (.head _) (same.field "argument" rfl rfl)]
        exact congrArg _ place
      | _ => simp [typeName] at type
    | tryBlock inner handler finalizer span =>
      cases other with
      | tryBlock =>
        rw [told_block below spelled (.head _) (.head _) (same.field "block" rfl rfl),
          told_option IsSort.handler below spelled CatchClause.estree?_eq
            (fun item => isNull_estree (.handler item))
            (fun _ inside => by simp_all [children, Statement.children])
            (fun _ inside => by simp_all [children, Statement.children])
            (same.field "handler" rfl rfl),
          told_option IsSort.block below spelled Block.estree?_eq
            (fun item => isNull_estree (.block item))
            (fun _ inside => by simp_all [children, Statement.children])
            (fun _ inside => by simp_all [children, Statement.children])
            (same.field "finalizer" rfl rfl)]
        exact congrArg _ place
      | _ => simp [typeName] at type
    | whileLoop test body span =>
      cases other with
      | whileLoop =>
        rw [told_expression below spelled (.head _) (.head _) (same.field "test" rfl rfl),
          told_statement below spelled (.tail _ (.head _)) (.tail _ (.head _))
            (same.field "body" rfl rfl)]
        exact congrArg _ place
      | _ => simp [typeName] at type
    | doWhileLoop body test span =>
      cases other with
      | doWhileLoop =>
        rw [told_statement below spelled (.head _) (.head _) (same.field "body" rfl rfl),
          told_expression below spelled (.tail _ (.head _)) (.tail _ (.head _))
            (same.field "test" rfl rfl)]
        exact congrArg _ place
      | _ => simp [typeName] at type
    | forLoop init test update body span =>
      cases other with
      | forLoop =>
        rw [told_head? below spelled
            (fun _ inside => List.mem_append_left _
              (List.mem_map_of_mem (Option.mem_toList.mpr inside)))
            (fun _ inside => List.mem_append_left _
              (List.mem_map_of_mem (Option.mem_toList.mpr inside)))
            (same.field "init" rfl rfl),
          told_expression? below spelled
            (fun _ inside => by simp_all [children, Statement.children])
            (fun _ inside => by simp_all [children, Statement.children])
            (same.field "test" rfl rfl),
          told_expression? below spelled
            (fun _ inside => by simp_all [children, Statement.children])
            (fun _ inside => by simp_all [children, Statement.children])
            (same.field "update" rfl rfl),
          told_statement below spelled (by simp [children, Statement.children])
            (by simp [children, Statement.children]) (same.field "body" rfl rfl)]
        exact congrArg _ place
      | _ => simp [typeName] at type
    | forInLoop left right body span =>
      cases other with
      | forInLoop =>
        rw [told_head below spelled (.head _) (.head _) (same.field "left" rfl rfl),
          told_expression below spelled (.tail _ (.head _)) (.tail _ (.head _))
            (same.field "right" rfl rfl),
          told_statement below spelled (.tail _ (.tail _ (.head _))) (.tail _ (.tail _ (.head _)))
            (same.field "body" rfl rfl)]
        exact congrArg _ place
      | _ => simp [typeName] at type
    | debugger =>
      cases other with
      | debugger => exact congrArg _ place
      | _ => simp [typeName] at type
  all_goals cases sort

/-- A key is told by its ESTree form. -/
theorem isTold_key {item : PropertyKey} (here : (Node.key item).IsSpelled) :
    (Node.key item).IsTold := by
  intro other spelled sort same
  cases other with
  | key other =>
    cases item with
    | identifier name =>
      cases other with
      | identifier => rw [Identifier.eq_of_same same]
      | literal => exact absurd same.type_eq.symm (by simp)
    | literal value raw span =>
      cases other with
      | identifier => exact absurd same.type_eq.symm (by simp)
      | literal =>
        obtain ⟨rfl, rfl, rfl⟩ := Literal.eq_of_same here (everywhere_iff.mp spelled).1 same
        rfl
  | _ => cases sort

/-- A part of a statement or an expression is told when its own parts are. -/
theorem isTold_part {node : Node} (below : ∀ child ∈ node.children, child.IsTold)
    (noExpression : ∀ item, node ≠ .expression item) (noKey : ∀ item, node ≠ .key item)
    (noStatement : ∀ item, node ≠ .statement item) : node.IsTold := by
  intro other spelled sort same
  cases node with
  | expression item => exact absurd rfl (noExpression item)
  | key item => exact absurd rfl (noKey item)
  | statement item => exact absurd rfl (noStatement item)
  | name | binding | label =>
    cases other <;> cases sort
    rw [Identifier.eq_of_same same]
  | property item =>
    cases other <;> cases sort
    rename_i other
    obtain ⟨key, value, kind, span⟩ := item
    obtain ⟨otherKey, otherValue, otherKind, second⟩ := other
    have keys : key = otherKey :=
      told IsSort.key below spelled (.head _) (.head _) (same.field "key" rfl rfl)
    have values : value = otherValue :=
      told_expression below spelled (.tail _ (.head _)) (.tail _ (.head _))
        (same.field "value" rfl rfl)
    rw [keys, values, PropertyKind.text_inj (same.field "kind" rfl rfl).string_eq,
      Span.eq_of_same (same.field "loc" rfl rfl)]
  | block item =>
    cases other <;> cases sort
    rename_i other
    obtain ⟨body, span⟩ := item
    obtain ⟨others, second⟩ := other
    have bodies : body = others :=
      told_statements below spelled (fun _ inside => List.mem_map_of_mem inside)
        (fun _ inside => List.mem_map_of_mem inside) (same.field "body" rfl rfl)
    rw [bodies, Span.eq_of_same (same.field "loc" rfl rfl)]
  | declarator item =>
    cases other <;> cases sort
    rename_i other
    obtain ⟨name, value, span⟩ := item
    obtain ⟨otherName, otherValue, second⟩ := other
    have values : value = otherValue :=
      told_expression? below spelled
        (fun _ inside => .tail _ (List.mem_map_of_mem (Option.mem_toList.mpr inside)))
        (fun _ inside => .tail _ (List.mem_map_of_mem (Option.mem_toList.mpr inside)))
        (same.field "init" rfl rfl)
    rw [Identifier.eq_of_same (same.field "id" rfl rfl), values,
      Span.eq_of_same (same.field "loc" rfl rfl)]
  | declaration item =>
    cases other <;> cases sort
    rename_i other
    obtain ⟨declarators, span⟩ := item
    obtain ⟨others, second⟩ := other
    have declarations : declarators = others :=
      told_list IsSort.declarator below spelled VariableDeclarator.estrees_eq
        (fun _ inside => List.mem_map_of_mem inside)
        (fun _ inside => List.mem_map_of_mem inside) (same.field "declarations" rfl rfl)
    rw [declarations, Span.eq_of_same (same.field "loc" rfl rfl)]
  | clause item =>
    cases other <;> cases sort
    rename_i other
    obtain ⟨test, consequent, span⟩ := item
    obtain ⟨otherTest, otherConsequent, second⟩ := other
    rw [told_expression? below spelled (fun _ inside => by simp_all [children])
        (fun _ inside => by simp_all [children]) (same.field "test" rfl rfl),
      told_statements below spelled (fun _ inside => by simp_all [children])
        (fun _ inside => by simp_all [children]) (same.field "consequent" rfl rfl),
      Span.eq_of_same (same.field "loc" rfl rfl)]
  | handler item =>
    cases other <;> cases sort
    rename_i other
    obtain ⟨parameter, body, span⟩ := item
    obtain ⟨otherParameter, otherBody, second⟩ := other
    have bodies : body = otherBody :=
      told_block below spelled (.tail _ (.head _)) (.tail _ (.head _)) (same.field "body" rfl rfl)
    rw [Identifier.eq_of_same (same.field "param" rfl rfl), bodies,
      Span.eq_of_same (same.field "loc" rfl rfl)]

/-- A node is told when its children are. -/
theorem isTold_of_children {node : Node} (below : ∀ child ∈ node.children, child.IsTold)
    (here : node.IsSpelled) : node.IsTold := by
  cases node with
  | expression item => exact isTold_expression below here
  | statement item => exact isTold_statement below
  | key item => exact isTold_key here
  | _ => exact isTold_part below nofun nofun nofun

/-- A tree whose literals are spelled is told by its ESTree form. -/
theorem isTold_of_allSpelled {node : Node} (spelled : node.AllSpelled) : node.IsTold := by
  induction node using preorder.induct with
  | case1 node ih =>
    exact isTold_of_children (fun child member => ih ⟨child, member⟩ (spelled.child member))
      (everywhere_iff.mp spelled).1

end Node

/-! ### Texts -/

/-- No number begins with the letter of the word `null`. -/
theorem Lexeme.ne_of_number {text : List Char} {length : Nat} {value : Binary64} {flags : Flags}
    (success : read text = .success length (.number value, flags)) : text.head? ≠ some 'n' := by
  intro begins
  unfold read at success
  split at success
  · cases begins
  · rename_i char rest
    obtain rfl : char = 'n' := by simpa using begins
    have noNumber : NumericLiteral.starts ('n' :: rest) = false := rfl
    rw [if_neg (by decide), if_neg (by simp [noNumber]), if_pos (by decide)] at success
    rcases Name.eq_of_read success with ⟨_, ⟨⟩⟩ | ⟨_, ⟨⟩, _⟩

/-- A token that is a number or null is null just when its text is. -/
def Token.IsSpelled (token : Token) : Prop :=
  ∀ value, token.lexeme.literal? = some value → value.IsSpelled token.text

theorem Scan.isSpelled_of_token {cursor after : Cursor} {next : Token}
    (scanned : token cursor = .ok next after) : next.IsSpelled := by
  obtain ⟨gap, length, reads⟩ := reads_of_token scanned
  obtain ⟨flags, read⟩ := reads.lexeme
  intro value found
  rw [reads.text]
  revert read found
  generalize (cursor.pass gap).rest = text
  cases next.lexeme with
  | number number =>
    rintro read ⟨⟩ null
    have word : text.take length = ['n', 'u', 'l', 'l'] := String.ofList_injective null
    refine Lexeme.ne_of_number read ?_
    rw [← List.take_append_drop length text, word]
    rfl
  | string | regularExpression =>
    rintro - ⟨⟩
    trivial
  | symbol symbol =>
    intro read found
    rw [Lexeme.text_of_read read]
    unfold Lexeme.literal? at found
    split at found <;> cases found <;> first | trivial | (rename_i same; cases same; rfl)
  | endOfFile | identifier => exact fun _ found => nomatch found

theorem Scan.isSpelled_of_regularExpression {slash token : Token} {front : List Char}
    {cursor after : Cursor}
    (scanned : regularExpression slash front cursor = .ok token after) : token.IsSpelled := by
  obtain ⟨length, rereads⟩ := rereadsAs_of_regularExpression scanned
  obtain ⟨pattern, flags, expression⟩ := RegularExpression.eq_of_read rereads.expression
  intro value found
  rw [expression] at found
  cases found
  trivial

variable {scope : Scope} {tokens : List Token} {next : Token}

/-- A literal that was read from a spelled token is spelled. -/
theorem Node.IsRead.isSpelled {node : Node} (read : node.IsRead scope tokens next)
    (spelled : ∀ token ∈ tokens, token.IsSpelled) : node.IsSpelled := by
  cases node with
  | expression item =>
    cases item with
    | literal value raw span =>
      obtain ⟨level, reads⟩ := read
      cases reads with
      | literal found => exact spelled _ (.head _) value found
    | _ => trivial
  | key item =>
    cases item with
    | identifier => trivial
    | literal value raw span =>
      obtain ⟨token, rfl, hasKey⟩ := read
      cases hasKey with
      | literal _ _ found => exact spelled token (.head _) value found
  | _ => trivial

section Parse

variable {source other : String} {options otherOptions : Options} {program second : Program}

/-- The literals of an accepted text are spelled. -/
theorem allSpelled_of_parse (accepted : parse source options = .ok program) :
    ∀ statement ∈ program.body, (Node.statement statement).AllSpelled := by
  obtain ⟨after, run⟩ := exists_of_parse accepted
  obtain ⟨first, begins, isScript⟩ := State.isScript_of_parse run
  have spelled : ∀ token ∈ after.consumed, token.IsSpelled := by
    refine isScript.passes.forall_mem Scan.isSpelled_of_token Scan.isSpelled_of_regularExpression ?_
    rcases begins.scanned with scanned | scanned
    · exact Scan.isSpelled_of_token scanned
    · exact Scan.isSpelled_of_token scanned
  intro statement member path node occurs
  obtain ⟨scope, piece, follower, _, read, inside⟩ :=
    (State.reads_of_parse run).occurs_body member occurs
  exact read.isSpelled fun token within => spelled token (inside.subset within)

/-- Programs of accepted texts that have the same ESTree form are the same. -/
theorem eq_of_same_estree (accepted : parse source options = .ok program)
    (acceptedToo : parse other otherOptions = .ok second)
    (same : Same program.estree second.estree) : program = second := by
  have spelled := allSpelled_of_parse accepted
  have spelledToo := allSpelled_of_parse acceptedToo
  obtain ⟨body, span⟩ := program
  obtain ⟨others, place⟩ := second
  have items := (same.field "body" rfl rfl).array_items
  rw [Statement.estrees_eq, Statement.estrees_eq] at items
  have bodies : body = others := by
    refine eq_of_forall₂_same (fun left member right memberToo same => ?_) items
    have told := Node.isTold_of_allSpelled (spelled left member)
    cases told _ (spelledToo right memberToo) rfl same
    rfl
  have spans : span = place := Span.eq_of_same (same.field "loc" rfl rfl)
  rw [bodies, spans]

/-- A null, an infinite number and a regular expression are told apart, whether the code is strict or
not. -/
theorem eq_of_same_estree_strict :
    ∃ program second, parse "null, 1e999, /a/" {} = .ok program ∧
      parse "null, 1e999, /a/" { strict := true } = .ok second ∧
      Same program.estree second.estree ∧ program = second := by
  obtain ⟨program, accepted⟩ := exists_of_toBool
    (by decide +kernel : (parse "null, 1e999, /a/" { strict := true }).toBool = true)
  have acceptedToo : parse "null, 1e999, /a/" {} = .ok program :=
    ((parse_restrict { strict := true } "null, 1e999, /a/" {} program).mp accepted).1
  have same : Same program.estree program.estree := .refl _
  exact ⟨program, program, acceptedToo, accepted, same,
    eq_of_same_estree acceptedToo accepted same⟩

end Parse

end EcmaScript
