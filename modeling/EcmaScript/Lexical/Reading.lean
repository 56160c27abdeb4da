import EcmaScript.Diagnostic

/-!
# Readings

A reader looks at the front of a text and says how many characters belong to the thing it looks for
and what they mean, or that they are faulty. It knows no positions: lengths and places are counted
from the front of the text it was given.
-/

namespace EcmaScript

/-- What a reader makes of the front of a text. -/
inductive Reading (α : Type) where
  /-- The first characters mean a value. -/
  | success (length : Nat) (value : α)
  /-- Reading went some way and found a fault at a place on it. -/
  | failure (length : Nat) (cause : Cause) (place : Nat)
  deriving Repr

namespace Reading

variable {α β : Type}

/-- The number of characters read. -/
def length : Reading α → Nat
  | .success length _ => length
  | .failure length _ _ => length

/-- The reading with its value changed. -/
def map (change : α → β) : Reading α → Reading β
  | .success length value => .success length (change value)
  | .failure length cause place => .failure length cause place

/-- The reading of a text in front of which some characters had been read already. -/
def further (before : Nat) : Reading α → Reading α
  | .success length value => .success (before + length) value
  | .failure length cause place => .failure (before + length) cause (before + place)

@[simp] theorem length_map (change : α → β) (reading : Reading α) :
    (reading.map change).length = reading.length := by
  cases reading <;> rfl

@[simp] theorem length_further (before : Nat) (reading : Reading α) :
    (reading.further before).length = before + reading.length := by
  cases reading <;> rfl

end Reading

end EcmaScript
