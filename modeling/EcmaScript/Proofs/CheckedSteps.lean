import EcmaScript.Lexical.Scan
import Mathlib.Algebra.Ring.Nat

/-!
# A lexer that checks its steps

A reader takes a text apart from its front, and cannot leave it. A machine goes over a text by an
index instead, and counts in words of 32 bits. It is trapped by a step that is not possible: to move
over a character where there is none, to compute a number that is no word, or to go on with a loop
for longer than there is text.

What a machine does is compared with what a reader makes of the text that remains.
-/

namespace EcmaScript

/-- Why an action ends that checks its steps. -/
inductive Stop (φ : Type) where
  | fault (fault : φ)
  /-- A step is not possible. -/
  | trap
  deriving DecidableEq, Repr

/-- A text, and the index of one of its characters. -/
structure Machine where
  text : List Char
  index : Nat
  deriving DecidableEq, Repr

namespace Machine

/-- The text that remains. -/
def rest (machine : Machine) : List Char :=
  machine.text.drop machine.index

/-- The machine some characters further. -/
def skip (machine : Machine) (count : Nat) : Machine :=
  { machine with index := machine.index + count }

variable (machine : Machine)

@[simp] theorem skip_zero : machine.skip 0 = machine := rfl

@[simp] theorem skip_skip (first second : Nat) :
    (machine.skip first).skip second = machine.skip (first + second) := by
  simp [skip, Nat.add_assoc]

@[simp] theorem rest_skip (count : Nat) : (machine.skip count).rest = machine.rest.drop count := by
  simp [rest, skip]

@[simp] theorem text_skip (count : Nat) : (machine.skip count).text = machine.text := rfl

theorem length_rest_le : machine.rest.length ≤ machine.text.length := by
  simp [rest]

variable {machine} in
/-- A character further, the text behind the character remains. -/
theorem rest_skip_succ {index : Nat} {char : Char} {text : List Char}
    (rest : (machine.skip index).rest = char :: text) : (machine.skip (index + 1)).rest = text := by
  rw [← skip_skip, rest_skip, rest]
  rfl

end Machine

/-- An action of a machine. -/
abbrev Checked := EStateM (Stop Cause) Machine

/-- What a machine does whose text is read in a way. -/
def Reading.outcome {α : Type} (reading : Reading α) (machine : Machine) :
    EStateM.Result (Stop Cause) Machine α :=
  match reading with
  | .success length value => .ok value (machine.skip length)
  | .failure length cause _ => .error (.fault cause) (machine.skip length)

namespace Checked

variable {α β : Type}

/-- Ends for a step that is not possible. -/
def trap : Checked α :=
  throw .trap

/-- Ends with a fault of the text. -/
def fault (cause : Cause) : Checked α :=
  throw (.fault cause)

/-- The next character. -/
def peek : Checked (Option Char) := fun machine =>
  .ok machine.text[machine.index]? machine

/-- The character after the next one. -/
def peekNext : Checked (Option Char) := fun machine =>
  .ok machine.text[machine.index + 1]? machine

/-- Moves over the next character, which must be there. -/
def advance : Checked Char := fun machine =>
  match machine.text[machine.index]? with
  | some char => .ok char (machine.skip 1)
  | none => .error .trap machine

/-- Moves over the next character if it is the one that is expected. -/
def accept (expected : Char) : Checked Bool := do
  if (← peek) = some expected then
    let _ ← advance
    return true
  else return false

/-- A number, which must be a word of 32 bits. -/
def word (number : Nat) : Checked Nat :=
  if number < 2 ^ 32 then pure number else trap

/-- The sum of two words. -/
def sum (left right : Nat) : Checked Nat :=
  word (left + right)

/-- The product of two words. -/
def product (left right : Nat) : Checked Nat :=
  word (left * right)

/-- The difference of two words. -/
def difference (left right : Nat) : Checked Nat :=
  if right ≤ left then pure (left - right) else trap

/-- A number of turns that no loop over the text needs. -/
def turns : Checked Nat :=
  return (← get).text.length + 1

section Steps

variable {machine next : Machine} {char expected : Char} {text : List Char}

theorem bind_ok {action : Checked α} {further : α → Checked β} {value : α}
    (run : action machine = .ok value next) : (action >>= further) machine = further value next := by
  change EStateM.bind _ _ _ = _
  rw [EStateM.bind, run]

theorem bind_error {action : Checked α} {further : α → Checked β} {stop : Stop Cause}
    (run : action machine = .error stop next) :
    (action >>= further) machine = .error stop next := by
  change EStateM.bind _ _ _ = _
  rw [EStateM.bind, run]

theorem peek_eq (machine : Machine) : peek machine = .ok machine.rest.head? machine := by
  rw [peek, Machine.rest, List.head?_drop]

theorem peekNext_eq (machine : Machine) :
    peekNext machine = .ok (machine.rest.drop 1).head? machine := by
  rw [peekNext, Machine.rest, List.drop_drop, List.head?_drop]

theorem advance_eq (rest : machine.rest = char :: text) :
    advance machine = .ok char (machine.skip 1) := by
  have here : machine.text[machine.index]? = some char := by
    rw [← List.head?_drop, ← Machine.rest, rest, List.head?_cons]
  rw [advance, here]

theorem peek_bind {further : Option Char → Checked α} (machine : Machine) :
    (peek >>= further) machine = further machine.rest.head? machine :=
  bind_ok (peek_eq machine)

theorem peekNext_bind {further : Option Char → Checked α} (machine : Machine) :
    (peekNext >>= further) machine = further (machine.rest.drop 1).head? machine :=
  bind_ok (peekNext_eq machine)

theorem advance_bind {further : Char → Checked α} (rest : machine.rest = char :: text) :
    (advance >>= further) machine = further char (machine.skip 1) :=
  bind_ok (advance_eq rest)

theorem get_bind {further : Machine → Checked α} (machine : Machine) :
    (get >>= further) machine = further machine machine := rfl

theorem turns_bind {further : Nat → Checked α} (machine : Machine) :
    (turns >>= further) machine = further (machine.text.length + 1) machine := rfl

theorem accept_eq_true (rest : machine.rest = expected :: text) :
    accept expected machine = .ok true (machine.skip 1) := by
  rw [accept, peek_bind, rest, List.head?_cons, if_pos rfl, advance_bind rest]
  rfl

theorem accept_eq_false (other : machine.rest.head? ≠ some expected) :
    accept expected machine = .ok false machine := by
  rw [accept, peek_bind, if_neg other]
  rfl

theorem sum_eq {left right : Nat} (small : left + right < 2 ^ 32) :
    sum left right = pure (left + right) :=
  if_pos small

theorem product_eq {left right : Nat} (small : left * right < 2 ^ 32) :
    product left right = pure (left * right) :=
  if_pos small

theorem difference_eq {left right : Nat} (positive : right ≤ left) :
    difference left right = pure (left - right) :=
  if_pos positive

end Steps

end Checked

end EcmaScript
