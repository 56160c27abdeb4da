import EcmaScript.Unicode.Identifier

/-!
# Character classes of source text

Line terminators end lines and single-line comments, white space separates tokens, and identifiers
are made of start and part characters. No character is both white space and a line terminator.
Digits are read in radix 2, 8, 10 or 16 and are always ASCII.
-/

namespace EcmaScript

/-- Line feed, carriage return, line separator and paragraph separator. -/
def isLineTerminator (char : Char) : Bool :=
  char == '\n' || char == '\r' || char == '\u2028' || char == '\u2029'

/-- The Unicode space separators, the tab, the two vertical spaces and the byte order mark. -/
def isWhiteSpace (char : Char) : Bool :=
  char == '\t' || char == '\x0b' || char == '\x0c' || char == ' ' || char == '\u00a0' ||
    char == '\ufeff' || char == '\u1680' || ('\u2000' ≤ char && char ≤ '\u200a') ||
    char == '\u202f' || char == '\u205f' || char == '\u3000'

/-- Characters that may begin an identifier. -/
def isIdentifierStart (char : Char) : Bool :=
  char == '$' || char == '_' || Unicode.isXidStart char

/-- Characters that may continue an identifier. The two joiners are allowed here only. -/
def isIdentifierPart (char : Char) : Bool :=
  char == '$' || char == '\u200c' || char == '\u200d' || Unicode.isXidContinue char

/-- The value of an ASCII digit or letter as a digit, whatever the radix. -/
def digitValue? (char : Char) : Option Nat :=
  if char.isDigit then some (char.toNat - '0'.toNat)
  else if 'a' ≤ char ∧ char ≤ 'z' then some (char.toNat - 'a'.toNat + 10)
  else if 'A' ≤ char ∧ char ≤ 'Z' then some (char.toNat - 'A'.toNat + 10)
  else none

/-- The value of a character that is a digit of the radix. -/
def digitOf? (radix : Nat) (char : Char) : Option Nat :=
  (digitValue? char).filter (· < radix)

/-- The number that some digits denote in a radix, most significant first. -/
def numberOfDigits (radix : Nat) (digits : List Nat) : Nat :=
  digits.foldl (fun value digit => value * radix + digit) 0

/-- The values of the longest run of digits of the radix at the front of a text. -/
def leadingDigits (radix : Nat) : List Char → List Nat
  | [] => []
  | char :: rest =>
    match digitOf? radix char with
    | some digit => digit :: leadingDigits radix rest
    | none => []

theorem digitOf?_lt {radix digit : Nat} {char : Char} (read : digitOf? radix char = some digit) :
    digit < radix := by
  have := Option.filter_eq_some_iff.mp read
  simpa using this.2

theorem leadingDigits_length_le (radix : Nat) (text : List Char) :
    (leadingDigits radix text).length ≤ text.length := by
  induction text with
  | nil => simp [leadingDigits]
  | cons char rest ih =>
    unfold leadingDigits
    split <;> simp [ih]

theorem isIdentifierPart_of_start {char : Char} (start : isIdentifierStart char = true) :
    isIdentifierPart char = true := by
  unfold isIdentifierStart at start
  unfold isIdentifierPart
  rcases Bool.or_eq_true _ _ |>.mp start with start | start
  · rcases Bool.or_eq_true _ _ |>.mp start with start | start
    · simp [start]
    · obtain rfl : char = '_' := by simpa using start
      decide
  · simp [Unicode.isXidContinue_of_isXidStart start]

/-- White space never ends a line. -/
theorem isLineTerminator_of_isWhiteSpace {char : Char} (blank : isWhiteSpace char = true) :
    isLineTerminator char = false := by
  rw [← Bool.not_eq_true]
  intro terminator
  simp only [isLineTerminator, Bool.or_eq_true, beq_iff_eq] at terminator
  rcases terminator with ((rfl | rfl) | rfl) | rfl <;> exact absurd blank (by decide)

end EcmaScript
