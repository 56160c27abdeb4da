import EcmaScript.Proofs.DecimalLiterals
import EcmaScript.Proofs.DigitRounding

/-!
# Literals with a radix prefix

A literal with a prefix is a zero, the letter of a radix and digits of this radix. Its text is
scanned as one number, unless there are no digits or something begins behind it that cannot stand
behind a number. The number is the sum of the digits with a rounding at each step, which is not
always the number nearest to the literal.
-/

namespace EcmaScript

/-- The radix that a prefix chooses. -/
inductive Radix where
  | hexadecimal
  | octal
  | binary

namespace Radix

/-- The binary digits in a digit of the radix. -/
def bits : Radix → Nat
  | hexadecimal => 4
  | octal => 3
  | binary => 1

/-- The letters that choose the radix. -/
def letters : Radix → List Char
  | hexadecimal => ['x', 'X']
  | octal => ['o', 'O']
  | binary => ['b', 'B']

/-- The flag of the radix. -/
def flags : Radix → Flags
  | hexadecimal => { hexadecimal := true }
  | octal => { octal := true }
  | binary => { binary := true }

end Radix

/-- A literal with a prefix by its parts. It may be without digits, which is a fault. -/
structure RadixLiteral where
  radix : Radix
  letter : Char
  isLetter : letter ∈ radix.letters
  digits : List (Digit (2 ^ radix.bits))

namespace RadixLiteral

variable (literal : RadixLiteral)

/-- The text of a literal. -/
def text : List Char :=
  '0' :: literal.letter :: Digit.text literal.digits

/-- The whole number that a literal stands for. -/
def value : Nat :=
  Digit.number literal.digits

/-- The number that is read, before anything is said about rounding. -/
def number : Binary64 :=
  .ofDigits (2 ^ literal.radix.bits) (literal.digits.map Digit.value)

/-- No further digit of the radix comes behind the literal. -/
def EndsBefore (back : List Char) : Prop :=
  ∀ char ∈ back.head?, digitOf? (2 ^ literal.radix.bits) char = none

/-- The rounding steps lead away from the nearest number: the digits that are seen are half-way
above an even significand, some of the others are not zero, and the number is not too great for
finite ones. -/
def IsMisrounded : Prop :=
  Digit.IsHalfSeen literal.digits ∧ literal.value < 2 ^ 1024

/-! ### The number -/

theorem number_eq : literal.number = .ofNat (Digit.seenNumber literal.digits) :=
  Binary64.ofDigits_eq literal.digits

/-- The number of a literal is what is seen of it, rounded. -/
theorem isRounded_seenNumber :
    Binary64.IsRounded (Digit.seenNumber literal.digits) literal.number := by
  rw [number_eq]
  exact Binary64.isRounded_ofNat _

/-- All but misrounded literals are rounded as a whole. -/
theorem isRounded_value_iff :
    Binary64.IsRounded literal.value literal.number ↔ ¬literal.IsMisrounded := by
  have rounded := Binary64.isRounded_ofNat literal.value
  have same : Binary64.ofNat literal.value = literal.number ↔ ¬literal.IsMisrounded := by
    rw [number_eq]
    exact Binary64.ofNat_number_eq_iff literal.digits
  rw [← same]
  exact ⟨rounded.eq, fun same => same ▸ rounded⟩

/-! ### Reading -/

variable {literal} {back : List Char}

theorem radixOf?_letter : NumericLiteral.radixOf? literal.letter =
    some (2 ^ literal.radix.bits, literal.radix.flags) := by
  obtain ⟨radix, letter, isLetter, digits⟩ := literal
  cases radix with
  | hexadecimal | octal | binary =>
    rcases List.mem_pair.mp isLetter with rfl | rfl <;> rfl

/-- The digits are read to the end. -/
theorem leadingDigits_text (ends : literal.EndsBefore back) :
    leadingDigits (2 ^ literal.radix.bits) (Digit.text literal.digits ++ back) =
      literal.digits.map Digit.value := by
  have none : leadingDigits (2 ^ literal.radix.bits) back = [] := by
    cases back with
    | nil => rfl
    | cons char rest => rw [leadingDigits, ends char rfl]
  rw [Digit.leadingDigits_text, none, List.append_nil]

/-- What comes behind the digits of a literal may stand there. -/
def IsApart (back : List Char) : Prop :=
  ∀ char ∈ back.head?, char.isDigit = false ∧ char ≠ '\\' ∧ isIdentifierStart char = false

theorem isApart_iff : IsApart back ↔
    NumericLiteral.startsDigit back = false ∧ NumericLiteral.startsIdentifier back = false := by
  cases back with
  | nil => simp [IsApart, NumericLiteral.startsDigit, NumericLiteral.startsIdentifier]
  | cons char rest => simp [IsApart, NumericLiteral.startsDigit, NumericLiteral.startsIdentifier]

/-- A literal is read as a whole, or is faulty as a whole. -/
theorem read_text (ends : literal.EndsBefore back) :
    (literal.digits ≠ [] ∧ IsApart back → NumericLiteral.read (literal.text ++ back) =
      .success literal.text.length (literal.number, literal.radix.flags)) ∧
    (¬(literal.digits ≠ [] ∧ IsApart back) → ∃ cause place,
      NumericLiteral.read (literal.text ++ back) = .failure literal.text.length cause place) := by
  have length : 2 + (literal.digits.map Digit.value).length = literal.text.length := by
    simp only [text, List.length_map, List.length_cons, Digit.length_text]
    omega
  have behind : (Digit.text literal.digits ++ back).drop (literal.digits.map Digit.value).length =
      back := by
    rw [List.length_map, ← Digit.length_text, List.drop_left]
  have read : NumericLiteral.read (literal.text ++ back) =
      NumericLiteral.readRadix (2 ^ literal.radix.bits) literal.radix.flags
        (Digit.text literal.digits ++ back) := by
    rw [text, List.cons_append, List.cons_append, NumericLiteral.read, radixOf?_letter]
  rw [read, NumericLiteral.readRadix, isApart_iff, leadingDigits_text ends, length, behind,
    List.isEmpty_map]
  constructor
  · rintro ⟨some, digit, identifier⟩
    rw [if_neg (by simp [some, digit]), NumericLiteral.accept, if_neg (by simp [identifier])]
    rfl
  · intro wrong
    split
    · exact ⟨_, _, rfl⟩
    · rename_i right
      rw [Bool.or_eq_true, not_or, Bool.not_eq_true, Bool.not_eq_true, List.isEmpty_eq_false_iff]
        at right
      have identifier : NumericLiteral.startsIdentifier back = true := by
        rw [← Bool.not_eq_false]
        exact fun apart => wrong ⟨right.1, right.2, apart⟩
      rw [NumericLiteral.accept, if_pos identifier]
      exact ⟨_, _, rfl⟩

/-- No token but a number is read from the text. -/
theorem lexeme_text (literal : RadixLiteral) (back : List Char) :
    Trivia.read (literal.text ++ back) = .success 0 false ∧
      Lexeme.read (literal.text ++ back) =
        (NumericLiteral.read (literal.text ++ back)).map fun (value, flags) =>
          (.number value, flags) := by
  rw [text, List.cons_append]
  generalize literal.letter :: Digit.text literal.digits ++ back = rest
  refine ⟨?_, ?_⟩
  · simp [Trivia.read, Trivia.readFrom, show isLineTerminator '0' = false by decide,
      show isWhiteSpace '0' = false by decide]
  · have starts : NumericLiteral.starts ('0' :: rest) = true := rfl
    rw [Lexeme.read, if_neg (by decide), if_pos starts]

/-- The text is within a line. -/
theorem inLine_text (literal : RadixLiteral) :
    ∀ char ∈ literal.text, isLineTerminator char = false := by
  have digits : ∀ char ∈ Digit.text literal.digits, isLineTerminator char = false := by
    intro char member
    obtain ⟨digit, -, rfl⟩ := List.mem_map.mp member
    exact isLineTerminator_of_digitOf? digit.reads
  have letter : isLineTerminator literal.letter = false := by
    obtain ⟨radix, letter, isLetter, digits⟩ := literal
    cases radix with
    | hexadecimal | octal | binary =>
      rcases List.mem_pair.mp isLetter with rfl | rfl <;> rfl
  rw [text]
  exact List.forall_mem_cons.mpr ⟨rfl, List.forall_mem_cons.mpr ⟨letter, digits⟩⟩

variable {cursor : Cursor}

/-- A literal with digits, and nothing behind it that cannot stand there, is the next token. -/
theorem token_of_ends (ends : literal.EndsBefore back) (here : cursor.rest = literal.text ++ back)
    (right : literal.digits ≠ [] ∧ IsApart back) :
    Scan.token cursor =
      .ok (.inLine cursor literal.text (.number literal.number) literal.radix.flags)
        (cursor.passInLine literal.text back) := by
  obtain ⟨none, read⟩ := literal.lexeme_text back
  have noBreak : literal.radix.flags.lineBreak = false := by cases literal.radix <;> rfl
  rw [← here] at none read
  refine Scan.token_inLine here none ⟨by simp [text], by simp [text]⟩ (List.cons_ne_nil _ _)
    literal.inLine_text noBreak ?_
  rw [read, here, (read_text ends).1 right]
  rfl

/-- No other literal is the next token. -/
theorem not_token_of_ends (ends : literal.EndsBefore back)
    (here : cursor.rest = literal.text ++ back) (wrong : ¬(literal.digits ≠ [] ∧ IsApart back)) :
    ∀ next after, Scan.token cursor ≠ .ok next after := by
  intro next after scanned
  obtain ⟨none, read⟩ := literal.lexeme_text back
  obtain ⟨cause, place, faulty⟩ := (read_text ends).2 wrong
  rw [← here] at none read
  rw [here, faulty] at read
  rw [Scan.token_of_faulty none (by rw [here]; exact read)] at scanned
  cases scanned

end RadixLiteral

/-- Literals with a radix prefix. Take the text of such a literal in front of something that does
not go on with its digits. It is scanned as a token just if it has digits and neither a decimal
digit nor a backslash nor the start of an identifier comes behind it. The token takes up this text
and nothing behind it, and it has the flag of the radix. Its value is the whole number of the
literal, with zeros for the digits that are not seen, rounded; and it is the whole number of the
literal itself, rounded, just if the literal is not misrounded. -/
theorem Scan.token_of_radix (literal : RadixLiteral) (cursor : Cursor) (back : List Char)
    (ends : literal.EndsBefore back) (here : cursor.rest = literal.text ++ back) :
    ((∃ next after, Scan.token cursor = .ok next after) ↔
      literal.digits ≠ [] ∧ RadixLiteral.IsApart back) ∧
    ∀ next after, Scan.token cursor = .ok next after →
      after = cursor.passInLine literal.text back ∧
        ∃ number, next = .inLine cursor literal.text (.number number) literal.radix.flags ∧
          Binary64.IsRounded (Digit.seenNumber literal.digits) number ∧
          (Binary64.IsRounded literal.value number ↔ ¬literal.IsMisrounded) := by
  by_cases right : literal.digits ≠ [] ∧ RadixLiteral.IsApart back
  · have scanned := RadixLiteral.token_of_ends ends here right
    refine ⟨iff_of_true ⟨_, _, scanned⟩ right, fun next after same => ?_⟩
    rw [scanned] at same
    cases same
    exact ⟨rfl, _, rfl, literal.isRounded_seenNumber, literal.isRounded_value_iff⟩
  · have fails := RadixLiteral.not_token_of_ends ends here right
    exact ⟨iff_of_false (fun ⟨next, after, same⟩ => fails next after same) right,
      fun next after same => absurd same (fails next after)⟩

/-- A literal in front of a semicolon. -/
theorem Scan.token_of_seventeen :
    ∃ (literal : RadixLiteral) (next : Token) (after : Cursor),
      String.ofList literal.text = "0O021" ∧ literal.EndsBefore [';'] ∧
      Scan.token ⟨literal.text ++ [';'], 0, .first⟩ = .ok next after ∧
      ∃ number, next.lexeme = .number number ∧ Binary64.IsRounded 17 number := by
  let literal : RadixLiteral :=
    ⟨.octal, 'O', by decide, [⟨'0', 0, rfl⟩, ⟨'2', 2, rfl⟩, ⟨'1', 1, rfl⟩]⟩
  have ends : literal.EndsBefore [';'] := by
    rintro _ ⟨⟩
    rfl
  have facts := token_of_radix literal ⟨literal.text ++ [';'], 0, .first⟩ [';'] ends rfl
  obtain ⟨next, after, scanned⟩ := facts.1.mpr ⟨List.cons_ne_nil _ _, by rintro _ ⟨⟩; decide⟩
  obtain ⟨-, number, rfl, -, rounded⟩ := facts.2 next after scanned
  have all : ¬literal.IsMisrounded := fun wrong => wrong.1.more (by decide)
  exact ⟨literal, _, _, by decide, ends, scanned, number, rfl, rounded.mpr all⟩

/-- A literal whose last digit should decide that the number is rounded up, and does not. -/
theorem Scan.token_of_misrounded :
    ∃ next after number, Scan.token (.atStart "0x200000000000011") = .ok next after ∧
      next.lexeme = .number number ∧ ¬Binary64.IsRounded 0x200000000000011 number := by
  let zero : Digit 16 := ⟨'0', 0, rfl⟩
  let one : Digit 16 := ⟨'1', 1, rfl⟩
  let literal : RadixLiteral :=
    ⟨.hexadecimal, 'x', by decide, ⟨'2', 2, rfl⟩ :: (List.replicate 12 zero ++ [one, one])⟩
  have here : (Cursor.atStart "0x200000000000011").rest = literal.text ++ [] := by decide
  have ends : literal.EndsBefore [] := nofun
  have scanned := RadixLiteral.token_of_ends ends here ⟨List.cons_ne_nil _ _, nofun⟩
  have wrong : literal.IsMisrounded := ⟨⟨by decide +kernel, by decide +kernel⟩, by decide +kernel⟩
  have value : literal.value = 0x200000000000011 := by decide
  refine ⟨_, _, _, scanned, rfl, fun rounded => literal.isRounded_value_iff.mp ?_ wrong⟩
  rw [value]
  exact rounded

end EcmaScript
