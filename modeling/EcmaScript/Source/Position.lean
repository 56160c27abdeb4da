/-!
# Positions and spans

A position is a line and a column of a source text, both counted in code points: lines from one,
columns from zero. A span is the half-open range between two positions. Positions are ordered by
line and then by column, and a span contains another when it begins no later and ends no earlier.
-/

namespace EcmaScript

/-- A place between two characters of a source text. -/
structure Position where
  line : Nat
  column : Nat
  deriving DecidableEq, Repr

namespace Position

/-- The place before the first character of every text. -/
def first : Position := ⟨1, 0⟩

instance : Inhabited Position := ⟨first⟩

/-- Positions are ordered by line, and on one line by column. -/
protected def le (left right : Position) : Bool :=
  left.line < right.line || (left.line == right.line && left.column ≤ right.column)

instance : LE Position := ⟨fun left right => left.le right = true⟩

instance : LT Position := ⟨fun left right => right.le left = false⟩

instance (left right : Position) : Decidable (left ≤ right) :=
  inferInstanceAs (Decidable (left.le right = true))

instance (left right : Position) : Decidable (left < right) :=
  inferInstanceAs (Decidable (right.le left = false))

theorem le_iff {left right : Position} :
    left ≤ right ↔
      left.line < right.line ∨ (left.line = right.line ∧ left.column ≤ right.column) := by
  change left.le right = true ↔ _
  simp [Position.le]

theorem lt_iff {left right : Position} :
    left < right ↔
      left.line < right.line ∨ (left.line = right.line ∧ left.column < right.column) := by
  have swapped := @le_iff right left
  change right.le left = true ↔ _ at swapped
  change right.le left = false ↔ _
  rw [← Bool.not_eq_true, swapped]
  omega

@[simp] theorem le_refl (position : Position) : position ≤ position :=
  le_iff.mpr (.inr ⟨rfl, Nat.le_refl _⟩)

theorem le_trans {first second third : Position} (left : first ≤ second) (right : second ≤ third) :
    first ≤ third := by
  rw [le_iff] at *
  omega

theorem le_total (left right : Position) : left ≤ right ∨ right ≤ left := by
  simp only [le_iff]
  omega

theorem le_antisymm {left right : Position} (below : left ≤ right) (above : right ≤ left) :
    left = right := by
  rw [le_iff] at below above
  cases left
  cases right
  simp only [Position.mk.injEq]
  dsimp only at below above
  omega

/-- The positions of a list in ascending order; equal ones keep their number. -/
def sort (positions : List Position) : List Position :=
  positions.mergeSort Position.le

/-- The position some characters further on the same line. -/
def right (position : Position) (count : Nat) : Position :=
  { position with column := position.column + count }

/-- The start of the next line. -/
def nextLine (position : Position) : Position :=
  ⟨position.line + 1, 0⟩

@[simp] theorem right_zero (position : Position) : position.right 0 = position := rfl

@[simp] theorem right_right (position : Position) (first second : Nat) :
    (position.right first).right second = position.right (first + second) := by
  simp [right, Nat.add_assoc]

end Position

/-- The range of a text from `start` up to, and without, `stop`. -/
structure Span where
  start : Position
  stop : Position
  deriving DecidableEq, Repr, Inhabited

namespace Span

/-- A span contains another that begins no earlier and ends no later. -/
def contains (outer inner : Span) : Bool :=
  decide (outer.start ≤ inner.start) && decide (inner.stop ≤ outer.stop)

theorem contains_iff {outer inner : Span} :
    outer.contains inner = true ↔ outer.start ≤ inner.start ∧ inner.stop ≤ outer.stop := by
  simp [contains]

theorem contains_refl (span : Span) : span.contains span = true := by
  simp [contains]

theorem contains_trans {first second third : Span} (outer : first.contains second = true)
    (inner : second.contains third = true) : first.contains third = true := by
  rw [contains_iff] at *
  exact ⟨Position.le_trans outer.1 inner.1, Position.le_trans inner.2 outer.2⟩

end Span

end EcmaScript
