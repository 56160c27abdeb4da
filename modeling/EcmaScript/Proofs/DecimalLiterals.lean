import EcmaScript.Proofs.Rounding
import EcmaScript.Proofs.EscapedPoints
import EcmaScript.Proofs.WordText

/-!
# Decimal literals

A decimal literal is a whole part, a fraction and an exponent, of which some may be missing. Its
text is scanned as one number, unless the exponent has no digits or an identifier begins behind it.
The number is the rational one that the literal stands for, rounded, and so it does not depend on
the way the rational number is written.
-/

namespace EcmaScript

/-! ### Parts of a literal -/

/-- The sign of an exponent. -/
inductive ExponentSign where
  | none
  | plus
  | minus

namespace ExponentSign

/-- The text of a sign. -/
def text : ExponentSign → List Char
  | none => []
  | plus => ['+']
  | minus => ['-']

/-- The exponent is negative. -/
def isNegative : ExponentSign → Bool
  | none | plus => false
  | minus => true

end ExponentSign

/-- An exponent of ten. It may be without digits, which is a fault. -/
structure DecimalExponent where
  letter : Char
  isLetter : letter = 'e' ∨ letter = 'E'
  sign : ExponentSign
  digits : List (Digit 10)

namespace DecimalExponent

variable (exponent : DecimalExponent)

/-- The text of an exponent. -/
def text : List Char :=
  exponent.letter :: (exponent.sign.text ++ Digit.text exponent.digits)

/-- The power of ten. -/
def power : Int :=
  if exponent.sign.isNegative then -Digit.number exponent.digits
  else Digit.number exponent.digits

end DecimalExponent

/-- A decimal literal by its parts. There is a digit in it before the exponent. -/
structure DecimalLiteral where
  whole : List (Digit 10)
  /-- The digits behind the point, if there is a point. -/
  fraction : Option (List (Digit 10))
  exponent : Option DecimalExponent
  nonempty : whole ++ fraction.getD [] ≠ []

namespace DecimalLiteral

variable (literal : DecimalLiteral)

/-- The digits behind the point. -/
def places : List (Digit 10) :=
  literal.fraction.getD []

/-- The text of the point and the digits behind it. -/
def fractionText : List Char :=
  literal.fraction.elim [] fun digits => '.' :: Digit.text digits

/-- The text of the exponent. -/
def exponentText : List Char :=
  literal.exponent.elim [] DecimalExponent.text

/-- The text of a literal. -/
def text : List Char :=
  Digit.text literal.whole ++ (literal.fractionText ++ literal.exponentText)

/-- The power of ten that the rest is multiplied with. -/
def power : Int :=
  literal.exponent.elim 0 DecimalExponent.power

/-- The rational number that a literal stands for. -/
def value : ℚ :=
  (Digit.number literal.whole + Digit.number literal.places / 10 ^ literal.places.length) *
    10 ^ literal.power

/-- An exponent has digits. -/
def IsComplete : Prop :=
  ∀ exponent ∈ literal.exponent, exponent.digits ≠ []

/-- The number that is read, before anything is said about rounding. -/
def number : Binary64 :=
  .ofDecimal (Digit.number (literal.whole ++ literal.places))
    (literal.power - literal.places.length)

/-- The flags of a literal. -/
def flags : Flags :=
  { exponent := literal.exponent.isSome }

/-- What comes behind a literal does not go on with a part of it, and does not make a single zero
the prefix of another radix. -/
structure EndsBefore (back : List Char) : Prop where
  digit : ∀ char ∈ back.head?, digitOf? 10 char = none
  point : literal.fraction = none → literal.exponent = none → back.head? ≠ some '.'
  letter : literal.exponent = none → back.head? ≠ some 'e' ∧ back.head? ≠ some 'E'
  sign : ∀ exponent ∈ literal.exponent, exponent.sign = .none → exponent.digits = [] →
    back.head? ≠ some '+' ∧ back.head? ≠ some '-'
  radix : literal.text = ['0'] → ∀ letter ∈ back.head?, NumericLiteral.radixOf? letter = none

end DecimalLiteral

/-! ### Reading -/

namespace NumericLiteral

theorem leadingDigits_eq_nil {text : List Char}
    (ends : ∀ char ∈ text.head?, digitOf? 10 char = none) : leadingDigits 10 text = [] := by
  cases text with
  | nil => rfl
  | cons char rest => rw [leadingDigits, ends char rfl]

/-- Digits are read up to what is no digit. -/
theorem leadingDigits_of_ends (digits : List (Digit 10)) {back : List Char}
    (ends : ∀ char ∈ back.head?, digitOf? 10 char = none) :
    leadingDigits 10 (Digit.text digits ++ back) = digits.map Digit.value := by
  rw [Digit.leadingDigits_text, leadingDigits_eq_nil ends, List.append_nil]

theorem exponentSign_text {sign : ExponentSign} {back : List Char}
    (ends : sign = .none → back.head? ≠ some '+' ∧ back.head? ≠ some '-') :
    exponentSign (sign.text ++ back) = (sign.text.length, sign.isNegative) := by
  cases sign with
  | none =>
    obtain ⟨notPlus, notMinus⟩ := ends rfl
    change exponentSign back = (0, false)
    unfold exponentSign
    split
    · contradiction
    · contradiction
    · rfl
  | plus | minus => rfl

theorem fraction_text {literal : DecimalLiteral} {back : List Char}
    (digit : ∀ char ∈ back.head?, digitOf? 10 char = none)
    (point : literal.fraction = none → back.head? ≠ some '.') :
    fraction (literal.fractionText ++ back) =
      (literal.fractionText.length, literal.places.map Digit.value) := by
  unfold DecimalLiteral.fractionText DecimalLiteral.places
  cases known : literal.fraction with
  | none =>
    change fraction back = (0, [])
    unfold fraction
    split
    · exact absurd rfl (point known)
    · rfl
  | some digits =>
    change fraction ('.' :: (Digit.text digits ++ back)) = _
    rw [fraction]
    rw [leadingDigits_of_ends digits digit, List.length_map]
    simp [Nat.add_comm]

end NumericLiteral

namespace DecimalLiteral

variable {literal : DecimalLiteral} {back : List Char} (ends : literal.EndsBefore back)
include ends

/-- No digit comes behind the fraction. -/
theorem EndsBefore.digit_exponentText :
    ∀ char ∈ (literal.exponentText ++ back).head?, digitOf? 10 char = none := by
  unfold exponentText
  cases literal.exponent with
  | none => exact ends.digit
  | some exponent =>
    rintro _ ⟨⟩
    rcases exponent.isLetter with same | same <;> rw [same] <;> rfl

/-- Without a fraction, no point comes behind the whole digits. -/
theorem EndsBefore.point_exponentText (noFraction : literal.fraction = none) :
    (literal.exponentText ++ back).head? ≠ some '.' := by
  unfold exponentText
  cases known : literal.exponent with
  | none => exact ends.point noFraction known
  | some exponent =>
    rintro same
    have letter : exponent.letter = '.' := Option.some.inj same
    rcases exponent.isLetter with other | other <;> rw [other] at letter <;> contradiction

/-- No digit comes behind the whole digits. -/
theorem EndsBefore.digit_fractionText :
    ∀ char ∈ (literal.fractionText ++ (literal.exponentText ++ back)).head?,
      digitOf? 10 char = none := by
  unfold fractionText
  cases literal.fraction with
  | none => exact ends.digit_exponentText
  | some digits =>
    rintro _ ⟨⟩
    rfl

/-- Without a sign, none comes behind the letter of the exponent. -/
theorem EndsBefore.sign_digits {exponent : DecimalExponent}
    (known : literal.exponent = some exponent) (noSign : exponent.sign = .none) :
    (Digit.text exponent.digits ++ back).head? ≠ some '+' ∧
      (Digit.text exponent.digits ++ back).head? ≠ some '-' := by
  cases digits : exponent.digits with
  | nil => exact ends.sign exponent known noSign digits
  | cons digit _ =>
    have isDigit := digit.isDigit_of_le_ten (Nat.le_refl 10)
    constructor
    · rintro same
      rw [show digit.char = '+' from Option.some.inj same] at isDigit
      contradiction
    · rintro same
      rw [show digit.char = '-' from Option.some.inj same] at isDigit
      contradiction

end DecimalLiteral

namespace NumericLiteral

variable {literal : DecimalLiteral} {back : List Char}

/-- The text is read up to the exponent. -/
theorem readDecimal_front (ends : literal.EndsBefore back) :
    leadingDigits 10 (literal.text ++ back) = literal.whole.map Digit.value ∧
      fraction ((literal.text ++ back).drop literal.whole.length) =
        (literal.fractionText.length, literal.places.map Digit.value) ∧
      (literal.text ++ back).drop (literal.whole.length + literal.fractionText.length) =
        literal.exponentText ++ back := by
  have split : literal.text ++ back =
      Digit.text literal.whole ++ (literal.fractionText ++ (literal.exponentText ++ back)) := by
    simp [DecimalLiteral.text]
  have behind : (literal.text ++ back).drop literal.whole.length =
      literal.fractionText ++ (literal.exponentText ++ back) := by
    rw [split, ← Digit.length_text, List.drop_left]
  refine ⟨?_, ?_, ?_⟩
  · rw [split]
    exact leadingDigits_of_ends literal.whole ends.digit_fractionText
  · rw [behind, fraction_text ends.digit_exponentText ends.point_exponentText]
  · rw [← List.drop_drop, behind, List.drop_left]

theorem length_text (literal : DecimalLiteral) : literal.text.length =
    literal.whole.length + literal.fractionText.length + literal.exponentText.length := by
  simp [DecimalLiteral.text, Nat.add_assoc]

/-- The exponent is read from its text. -/
theorem exponent_text (ends : literal.EndsBefore back) {exponent : DecimalExponent}
    (known : literal.exponent = some exponent) :
    ((exponent.text ++ back).head? = some 'e' ∨ (exponent.text ++ back).head? = some 'E') ∧
      exponentSign ((exponent.text ++ back).drop 1) =
        (exponent.sign.text.length, exponent.sign.isNegative) ∧
      leadingDigits 10 ((exponent.text ++ back).drop (1 + exponent.sign.text.length)) =
        exponent.digits.map Digit.value := by
  have inside : (exponent.text ++ back).drop 1 =
      exponent.sign.text ++ (Digit.text exponent.digits ++ back) := by
    simp [DecimalExponent.text]
  refine ⟨exponent.isLetter.imp (congrArg some) (congrArg some), ?_, ?_⟩
  · rw [inside, exponentSign_text (ends.sign_digits known)]
  · rw [← List.drop_drop, inside, List.drop_left, leadingDigits_of_ends _ ends.digit]

/-- The whole text is read. -/
theorem readDecimal_text (ends : literal.EndsBefore back) :
    readDecimal (literal.text ++ back) =
      match literal.exponent with
      | none => accept literal.text.length back literal.number literal.flags
      | some exponent =>
        if exponent.digits = [] then .failure literal.text.length .invalidNumber 0
        else accept literal.text.length back literal.number literal.flags := by
  obtain ⟨whole, places, rest⟩ := readDecimal_front ends
  have long := length_text literal
  have digits : numberOfDigits 10
      (literal.whole.map Digit.value ++ literal.places.map Digit.value) =
        Digit.number (literal.whole ++ literal.places) := by
    rw [← List.map_append, ← Digit.number_eq]
  unfold readDecimal
  simp only [whole, List.length_map, places, rest, digits]
  unfold DecimalLiteral.exponentText at long ⊢
  unfold DecimalLiteral.number DecimalLiteral.power DecimalLiteral.flags
  cases known : literal.exponent with
  | none =>
    obtain ⟨lower, upper⟩ := ends.letter known
    rw [known, Option.elim_none, List.length_nil, Nat.add_zero] at long
    simp only [Option.elim_none, List.nil_append, lower, upper, or_self, if_false, long, zero_sub,
      Option.isSome_none]
  | some exponent =>
    rw [known, Option.elim_some] at long
    obtain ⟨marked, sign, power⟩ := exponent_text ends known
    have length : literal.whole.length + literal.fractionText.length + 1 +
        exponent.sign.text.length + (exponent.digits.map Digit.value).length =
          literal.text.length := by
      rw [long, DecimalExponent.text, List.length_cons, List.length_append, Digit.length_text,
        List.length_map]
      omega
    have none : (exponent.digits.map Digit.value).isEmpty = true ↔ exponent.digits = [] := by
      rw [List.isEmpty_iff, List.map_eq_nil_iff]
    simp only [Option.elim_some, if_pos marked, sign, power, length, List.drop_left, none,
      Option.isSome_some]
    rfl

theorem readDecimal_complete (ends : literal.EndsBefore back) (complete : literal.IsComplete) :
    readDecimal (literal.text ++ back) =
      accept literal.text.length back literal.number literal.flags := by
  rw [readDecimal_text ends]
  split
  · rfl
  · rename_i exponent known
    rw [if_neg (complete exponent known)]

theorem readDecimal_incomplete (ends : literal.EndsBefore back) (incomplete : ¬literal.IsComplete) :
    readDecimal (literal.text ++ back) = .failure literal.text.length .invalidNumber 0 := by
  rw [readDecimal_text ends]
  split
  · rename_i known
    exact absurd (fun exponent isSome => by rw [known] at isSome; cases isSome) incomplete
  · rename_i exponent known
    rw [if_pos]
    by_contra some
    refine incomplete fun other isSome => ?_
    obtain rfl : exponent = other := Option.some.inj (known.symm.trans isSome)
    exact some

theorem length_readDecimal_text (ends : literal.EndsBefore back) :
    (readDecimal (literal.text ++ back)).length = literal.text.length := by
  by_cases complete : literal.IsComplete
  · rw [readDecimal_complete ends complete, length_accept]
  · rw [readDecimal_incomplete ends complete]
    rfl

theorem startsIdentifier_eq_false {text : List Char} :
    startsIdentifier text = false ↔
      ∀ char ∈ text.head?, char ≠ '\\' ∧ isIdentifierStart char = false := by
  cases text with
  | nil => simp [startsIdentifier]
  | cons char rest => simp [startsIdentifier]

theorem radixOf?_of_isDigit {letter : Char} (digit : letter.isDigit = true) :
    radixOf? letter = none := by
  unfold radixOf?
  split
  case h_7 => rfl
  all_goals exact absurd digit (by decide)

/-- The text does not begin with the prefix of another radix. -/
theorem radixOf?_text (ends : literal.EndsBefore back) {letter : Char} {rest : List Char}
    (prefixed : literal.text ++ back = '0' :: letter :: rest) : radixOf? letter = none := by
  obtain ⟨whole, fraction, exponent, nonempty⟩ := literal
  match whole, fraction, exponent, nonempty with
  | [], none, _, nonempty => exact absurd rfl nonempty
  | [], some _, _, _ => exact absurd (List.cons.inj prefixed).1 (by decide)
  | _ :: second :: _, _, _, _ =>
    obtain ⟨-, inside⟩ := List.cons.inj prefixed
    obtain ⟨rfl, -⟩ := List.cons.inj inside
    exact radixOf?_of_isDigit (second.isDigit_of_le_ten (Nat.le_refl 10))
  | [_], some _, _, _ =>
    obtain ⟨-, inside⟩ := List.cons.inj prefixed
    obtain ⟨rfl, -⟩ := List.cons.inj inside
    rfl
  | [_], none, some exponent, _ =>
    obtain ⟨-, inside⟩ := List.cons.inj prefixed
    obtain ⟨rfl, -⟩ := List.cons.inj inside
    rcases exponent.isLetter with same | same <;> rw [same] <;> rfl
  | [digit], none, none, nonempty =>
    obtain ⟨zero, inside⟩ := List.cons.inj prefixed
    have single : DecimalLiteral.text ⟨[digit], none, none, nonempty⟩ = ['0'] :=
      congrArg (fun char => [char]) zero
    exact ends.radix single letter (by rw [show back = letter :: rest from inside]; rfl)

theorem read_text (ends : literal.EndsBefore back) :
    read (literal.text ++ back) = readDecimal (literal.text ++ back) := by
  unfold read
  split
  · rename_i letter rest prefixed
    rw [radixOf?_text ends prefixed, prefixed]
  · rfl

end NumericLiteral

/-- A digit begins nothing but a number. -/
theorem plain_of_isDigit {char : Char} (digit : char.isDigit = true) :
    char ∉ ['"', '\'', '.', '/'] ∧ isLineTerminator char = false ∧ isWhiteSpace char = false := by
  have plain : ∀ code < 58, (Char.ofNat code).isDigit = true →
      Char.ofNat code ∉ ['"', '\'', '.', '/'] ∧ isLineTerminator (Char.ofNat code) = false ∧
        isWhiteSpace (Char.ofNat code) = false := by
    decide
  have small : char.toNat < 58 := by
    simp only [Char.isDigit, Bool.and_eq_true, decide_eq_true_eq] at digit
    exact Nat.lt_succ_of_le digit.2
  have found := plain char.toNat small
  rw [Char.ofNat_toNat] at found
  exact found digit

namespace DecimalLiteral

variable (literal : DecimalLiteral)

/-- A literal begins with a digit, or with a point and a digit. -/
theorem exists_text (back : List Char) :
    ∃ char inside, literal.text = char :: inside ∧ (char.isDigit = true ∨ char = '.') ∧
      NumericLiteral.starts (literal.text ++ back) = true := by
  have isDigit (digit : Digit 10) : digit.char.isDigit = true :=
    digit.isDigit_of_le_ten (Nat.le_refl 10)
  obtain ⟨whole, fraction, exponent, nonempty⟩ := literal
  match whole, fraction, nonempty with
  | [], none, nonempty => exact absurd rfl nonempty
  | [], some [], nonempty => exact absurd rfl nonempty
  | [], some (digit :: _), _ => exact ⟨_, _, rfl, .inr rfl, isDigit digit⟩
  | digit :: digits, fraction, _ =>
    refine ⟨digit.char, _, rfl, .inl (isDigit digit), ?_⟩
    unfold NumericLiteral.starts
    split
    · rename_i same
      have point : digit.char = '.' := (List.cons.inj same).1
      have isPoint := isDigit digit
      rw [point] at isPoint
      contradiction
    · exact isDigit digit

/-- No token but a number is read from the text. -/
theorem read_text (back : List Char) :
    Trivia.read (literal.text ++ back) = .success 0 false ∧
      Lexeme.read (literal.text ++ back) =
        (NumericLiteral.read (literal.text ++ back)).map fun (value, flags) =>
          (.number value, flags) := by
  obtain ⟨char, inside, same, begins, starts⟩ := literal.exists_text back
  have plain : char ∉ ['"', '\'', '/'] ∧ isLineTerminator char = false ∧
      isWhiteSpace char = false := by
    rcases begins with digit | rfl
    · obtain ⟨plain, blank⟩ := plain_of_isDigit digit
      simp only [List.mem_cons, not_or] at plain
      exact ⟨by simp [plain], blank⟩
    · decide
  obtain ⟨plain, notEnd, notBlank⟩ := plain
  simp only [List.mem_cons, List.not_mem_nil, or_false, not_or] at plain
  rw [same, List.cons_append] at starts ⊢
  constructor
  · simp [Trivia.read, Trivia.readFrom, plain, notEnd, notBlank]
  · rw [Lexeme.read, if_neg (by simp [plain]), if_pos starts]

/-- The digits behind the point count as much less as there are digits. -/
theorem value_eq : literal.value =
    Digit.number (literal.whole ++ literal.places) *
      10 ^ (literal.power - literal.places.length) := by
  have together : (Digit.number (literal.whole ++ literal.places) : ℚ) =
      Digit.number literal.whole * 10 ^ literal.places.length + Digit.number literal.places := by
    rw [Digit.number_append, Nat.cast_add, Nat.cast_mul, Nat.cast_pow, Nat.cast_ofNat]
  have power : (10 : ℚ) ^ literal.places.length ≠ 0 := pow_ne_zero _ (by norm_num)
  rw [together, zpow_sub₀ (by norm_num), zpow_natCast, value, mul_div_assoc', mul_div_right_comm,
    add_div, mul_div_cancel_right₀ _ power]

/-- The number of a literal is the rational one, rounded. -/
theorem isRounded_number : Binary64.IsRounded literal.value literal.number := by
  rw [value_eq]
  exact Binary64.isRounded_ofDecimal _ _

variable {literal} {back : List Char}

/-- The text is within a line, and not in quotes. -/
theorem inLine_text (literal : DecimalLiteral) (ends : literal.EndsBefore back) :
    (literal.text.head? ≠ some '"' ∧ literal.text.head? ≠ some '\'') ∧ literal.text ≠ [] ∧
      ∀ char ∈ literal.text, isLineTerminator char = false := by
  obtain ⟨char, inside, whole, begins, -⟩ := literal.exists_text back
  have inLine := NumericLiteral.inLine_readDecimal (literal.text ++ back)
  rw [NumericLiteral.length_readDecimal_text ends, InLine, List.take_left] at inLine
  refine ⟨?_, by simp [whole], inLine⟩
  rw [whole, List.head?_cons]
  rcases begins with digit | rfl
  · have plain := (plain_of_isDigit digit).1
    simp only [List.mem_cons, not_or] at plain
    simp [plain]
  · decide

variable {cursor : Cursor}

/-- A complete literal with no identifier behind it is the next token. -/
theorem token_of_ends (ends : literal.EndsBefore back) (here : cursor.rest = literal.text ++ back)
    (complete : literal.IsComplete) (apart : NumericLiteral.startsIdentifier back = false) :
    Scan.token cursor =
      .ok (.inLine cursor literal.text (.number literal.number) literal.flags)
        (cursor.passInLine literal.text back) := by
  obtain ⟨none, read⟩ := literal.read_text back
  obtain ⟨noQuotes, nonempty, inLine⟩ := inLine_text literal ends
  rw [← here] at none read
  refine Scan.token_inLine here none noQuotes nonempty inLine rfl ?_
  rw [read, here, NumericLiteral.read_text ends, NumericLiteral.readDecimal_complete ends complete,
    NumericLiteral.accept, if_neg (by rw [apart]; exact Bool.false_ne_true)]
  rfl

/-- No other literal is the next token. -/
theorem not_token_of_ends (ends : literal.EndsBefore back)
    (here : cursor.rest = literal.text ++ back)
    (wrong : ¬(literal.IsComplete ∧ NumericLiteral.startsIdentifier back = false)) :
    ∀ next after, Scan.token cursor ≠ .ok next after := by
  intro next after scanned
  obtain ⟨none, read⟩ := literal.read_text back
  rw [← here] at none read
  have faulty : ∃ length cause place, Lexeme.read cursor.rest = .failure length cause place := by
    rw [read, here, NumericLiteral.read_text ends]
    by_cases complete : literal.IsComplete
    · have identifier : NumericLiteral.startsIdentifier back = true := by
        rw [← Bool.not_eq_false]
        exact fun apart => wrong ⟨complete, apart⟩
      rw [NumericLiteral.readDecimal_complete ends complete, NumericLiteral.accept,
        if_pos identifier]
      exact ⟨_, _, _, rfl⟩
    · rw [NumericLiteral.readDecimal_incomplete ends complete]
      exact ⟨_, _, _, rfl⟩
  obtain ⟨length, cause, place, found⟩ := faulty
  rw [Scan.token_of_faulty none found] at scanned
  cases scanned

/-- What is scanned where a literal stands. -/
theorem of_token (ends : literal.EndsBefore back) (here : cursor.rest = literal.text ++ back)
    {next : Token} {after : Cursor} (scanned : Scan.token cursor = .ok next after) :
    (literal.IsComplete ∧ NumericLiteral.startsIdentifier back = false) ∧
      next = .inLine cursor literal.text (.number literal.number) literal.flags ∧
      after = cursor.passInLine literal.text back := by
  by_cases right : literal.IsComplete ∧ NumericLiteral.startsIdentifier back = false
  · rw [token_of_ends ends here right.1 right.2] at scanned
    cases scanned
    exact ⟨right, rfl, rfl⟩
  · exact absurd scanned (not_token_of_ends ends here right next after)

end DecimalLiteral

/-- Decimal literals. Take the text of a decimal literal in front of something that does not go on
with it. It is scanned as a token just if an exponent in it has digits and no identifier begins
behind it. The token takes up this text and nothing behind it, its flags say whether there is an
exponent, and its value is the rational number of the literal, rounded. Two literals of one rational
number have the same value. -/
theorem Scan.token_of_decimal :
    (∀ (literal : DecimalLiteral) (cursor : Cursor) (back : List Char), literal.EndsBefore back →
      cursor.rest = literal.text ++ back →
      ((∃ next after, Scan.token cursor = .ok next after) ↔
        literal.IsComplete ∧
          ∀ char ∈ back.head?, char ≠ '\\' ∧ isIdentifierStart char = false) ∧
      ∀ next after, Scan.token cursor = .ok next after →
        after = cursor.passInLine literal.text back ∧
          ∃ number, next = .inLine cursor literal.text (.number number) literal.flags ∧
            Binary64.IsRounded literal.value number) ∧
    ∀ (literal other : DecimalLiteral) (cursor cursorToo : Cursor) (back backToo : List Char),
      literal.EndsBefore back → cursor.rest = literal.text ++ back →
      other.EndsBefore backToo → cursorToo.rest = other.text ++ backToo →
      literal.value = other.value →
      ∀ next after mate last, Scan.token cursor = .ok next after →
        Scan.token cursorToo = .ok mate last → next.lexeme = mate.lexeme := by
  constructor
  · intro literal cursor back ends here
    rw [← NumericLiteral.startsIdentifier_eq_false]
    refine ⟨⟨fun ⟨next, after, scanned⟩ => ?_, fun right => ?_⟩, fun next after scanned => ?_⟩
    · exact (DecimalLiteral.of_token ends here scanned).1
    · exact ⟨_, _, DecimalLiteral.token_of_ends ends here right.1 right.2⟩
    · obtain ⟨-, rfl, rfl⟩ := DecimalLiteral.of_token ends here scanned
      exact ⟨rfl, _, rfl, literal.isRounded_number⟩
  · intro literal other cursor cursorToo back backToo ends here endsToo hereToo same next after mate
      last scanned scannedToo
    obtain ⟨-, rfl, -⟩ := DecimalLiteral.of_token ends here scanned
    obtain ⟨-, rfl, -⟩ := DecimalLiteral.of_token endsToo hereToo scannedToo
    have rounded := literal.isRounded_number
    rw [same] at rounded
    exact congrArg Lexeme.number (rounded.eq other.isRounded_number)

/-- A number with a negative exponent and the same number without one. -/
theorem Scan.token_of_fifteen_hundredths :
    ∃ (first second : DecimalLiteral) (next mate : Token) (after last : Cursor),
      String.ofList first.text = "1.5e-1" ∧ String.ofList second.text = ".15" ∧
      Scan.token ⟨first.text ++ [';'], 0, .first⟩ = .ok next after ∧
      Scan.token ⟨second.text, 0, .first⟩ = .ok mate last ∧
      (∃ number, next.lexeme = .number number ∧ Binary64.IsRounded (3 / 20) number) ∧
      next.lexeme = mate.lexeme := by
  let one : Digit 10 := ⟨'1', 1, rfl⟩
  let five : Digit 10 := ⟨'5', 5, rfl⟩
  let first : DecimalLiteral := ⟨[one], some [five], some ⟨'e', .inl rfl, .minus, [one]⟩, by simp⟩
  let second : DecimalLiteral := ⟨[], some [one, five], none, by simp⟩
  have firstEnds : first.EndsBefore [';'] := by
    refine ⟨?_, nofun, nofun, ?_, fun text => absurd text (by decide)⟩
    · rintro _ ⟨⟩
      rfl
    · rintro _ ⟨⟩ noSign
      cases noSign
  have secondEnds : second.EndsBefore [] :=
    ⟨nofun, nofun, by simp, nofun, nofun⟩
  have value : first.value = 3 / 20 := by
    have unfolded : first.value = ((1 : Nat) + (5 : Nat) / 10 ^ 1) * 10 ^ (-1 : Int) := rfl
    rw [unfolded]
    norm_num
  have same : first.value = second.value := by
    have unfolded : second.value = ((0 : Nat) + (15 : Nat) / 10 ^ 2) * 10 ^ (0 : Int) := rfl
    rw [value, unfolded]
    norm_num
  have complete : first.IsComplete := by
    rintro _ ⟨⟩
    exact List.cons_ne_nil _ _
  obtain ⟨next, after, scanned⟩ := (Scan.token_of_decimal.1 first ⟨first.text ++ [';'], 0, .first⟩
    [';'] firstEnds rfl).1.mpr ⟨complete, by rintro _ ⟨⟩; decide⟩
  obtain ⟨mate, last, scannedToo⟩ := (Scan.token_of_decimal.1 second ⟨second.text, 0, .first⟩
    [] secondEnds (List.append_nil _).symm).1.mpr ⟨nofun, nofun⟩
  obtain ⟨-, number, rfl, rounded⟩ :=
    (Scan.token_of_decimal.1 first _ _ firstEnds rfl).2 _ _ scanned
  rw [value] at rounded
  exact ⟨first, second, _, _, _, _, by decide, by decide, scanned, scannedToo,
    ⟨number, rfl, rounded⟩, Scan.token_of_decimal.2 first second _ _ _ _ firstEnds rfl secondEnds
      (List.append_nil _).symm same _ _ _ _ scanned scannedToo⟩

end EcmaScript
