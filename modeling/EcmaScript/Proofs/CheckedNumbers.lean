import EcmaScript.Proofs.CheckedLexemes

/-!
# Numbers, step by step

A decimal number has digits wherever one begins, and the text that is made of its parts is one that
denotes a number. The faults for a number without digits, and for a text that denotes none, never
come up.
-/

namespace EcmaScript

/-- A part of a number, or a zero if it is missing. -/
def orZero (part : List Char) : List Char :=
  if part.isEmpty then ['0'] else part

/-- The digits of a number, a point, and its exponent; a part that is missing is zero. -/
def floatText (whole fraction exponent : List Char) : List Char :=
  orZero whole ++ '.' :: (orZero fraction ++ 'e' :: orZero exponent)

/-- Decimal digits with an optional sign. -/
def isExponentText (text : List Char) : Bool :=
  let digits := if text.head? = some '+' ∨ text.head? = some '-' then text.drop 1 else text
  !digits.isEmpty && digits.all Char.isDigit

/-- A text that denotes a floating-point number: decimal digits with an optional point among them,
and an optional exponent. -/
def isFloatText (text : List Char) : Bool :=
  let whole := text.takeWhile Char.isDigit
  let rest := text.drop whole.length
  let fraction :=
    if rest.head? = some '.' then (rest.drop 1).takeWhile Char.isDigit else []
  let rest := if rest.head? = some '.' then rest.drop (1 + fraction.length) else rest
  (!whole.isEmpty || !fraction.isEmpty) &&
    (rest.isEmpty || (rest.head? = some 'e' || rest.head? = some 'E') && isExponentText (rest.drop 1))

/-- The number of an exponent with an optional sign. -/
def exponentOf (text : List Char) : Int :=
  match text with
  | '-' :: digits => -numberOfDigits 10 (leadingDigits 10 digits)
  | '+' :: digits | digits => numberOfDigits 10 (leadingDigits 10 digits)

section Decimal

variable {text whole fraction exponent : List Char}

theorem takeWhile_digits {digits rest : List Char} (all : digits.all Char.isDigit = true)
    (stops : ∀ char ∈ rest.head?, char.isDigit = false) :
    (digits ++ rest).takeWhile Char.isDigit = digits := by
  rw [List.takeWhile_append_of_pos (List.all_eq_true.mp all)]
  cases rest with
  | nil => rw [List.takeWhile_nil, List.append_nil]
  | cons char rest =>
    rw [List.takeWhile_cons_of_neg (by simp [stops char rfl]), List.append_nil]

theorem all_orZero (all : text.all Char.isDigit = true) : (orZero text).all Char.isDigit = true := by
  unfold orZero
  split
  · rfl
  · exact all

theorem orZero_ne_nil : (orZero text).isEmpty = false := by
  unfold orZero
  split
  · rfl
  · rename_i some
    exact eq_false_of_ne_true some

/-- The text that is made of the parts of a number denotes one. -/
theorem isFloatText_floatText (allWhole : whole.all Char.isDigit = true)
    (allFraction : fraction.all Char.isDigit = true)
    (isExponent : exponent = [] ∨ isExponentText exponent = true) :
    isFloatText (floatText whole fraction exponent) = true := by
  have front : ((floatText whole fraction exponent).takeWhile Char.isDigit) = orZero whole :=
    takeWhile_digits (all_orZero allWhole) (by rintro _ ⟨⟩; rfl)
  have middle : (orZero fraction ++ 'e' :: orZero exponent).takeWhile Char.isDigit =
      orZero fraction :=
    takeWhile_digits (all_orZero allFraction) (by rintro _ ⟨⟩; rfl)
  have back : isExponentText (orZero exponent) = true := by
    rcases isExponent with rfl | isExponent
    · rfl
    · unfold orZero
      split
      · rfl
      · exact isExponent
  have after : (floatText whole fraction exponent).drop (orZero whole).length =
      '.' :: (orZero fraction ++ 'e' :: orZero exponent) :=
    List.drop_left
  have last : ('.' :: (orZero fraction ++ 'e' :: orZero exponent)).drop
      (1 + (orZero fraction).length) = 'e' :: orZero exponent := by
    rw [Nat.add_comm, List.drop_succ_cons, List.drop_left]
  rw [isFloatText, front, after, List.head?_cons, if_pos rfl, if_pos rfl, List.drop_one,
    List.tail_cons, middle, last,
    orZero_ne_nil, List.head?_cons, List.drop_one, List.tail_cons, back]
  rfl

/-- Decimal digits are the ASCII digits. -/
theorem digitOf?_decimal (char : Char) :
    digitOf? 10 char = if char.isDigit then some (char.toNat - '0'.toNat) else none := by
  unfold digitOf? digitValue?
  split
  · rename_i isDigit
    have most : char.toNat ≤ 57 := by
      simp only [Char.isDigit, Bool.and_eq_true, decide_eq_true_eq] at isDigit
      exact isDigit.2
    have zero : '0'.toNat = 48 := rfl
    rw [Option.filter_some, if_pos (by rw [decide_eq_true_eq]; omega)]
  · split
    · rw [Option.filter_some, if_neg (by rw [decide_eq_true_eq]; omega)]
    · split
      · rw [Option.filter_some, if_neg (by rw [decide_eq_true_eq]; omega)]
      · rfl

theorem leadingDigits_decimal (text : List Char) :
    leadingDigits 10 text =
      (text.takeWhile Char.isDigit).map fun char => char.toNat - '0'.toNat := by
  induction text with
  | nil => rfl
  | cons char text ih =>
    rw [leadingDigits, digitOf?_decimal, List.takeWhile_cons]
    by_cases isDigit : char.isDigit = true
    · rw [if_pos isDigit, if_pos isDigit, List.map_cons, ih]
    · rw [if_neg isDigit, if_neg isDigit, List.map_nil]

theorem length_leadingDigits_decimal (text : List Char) :
    (leadingDigits 10 text).length = (text.takeWhile Char.isDigit).length := by
  rw [leadingDigits_decimal, List.length_map]

/-- A run of digits has the values that begin the text it begins. -/
theorem leadingDigits_takeWhile (text : List Char) :
    leadingDigits 10 (text.takeWhile Char.isDigit) = leadingDigits 10 text := by
  rw [leadingDigits_decimal, leadingDigits_decimal,
    List.takeWhile_eq_self_iff.mpr (List.all_eq_true.mp List.all_takeWhile)]

theorem all_takeWhile (text : List Char) :
    (text.takeWhile Char.isDigit).all Char.isDigit = true :=
  List.all_takeWhile

/-- The digits of two runs are those of their whole. -/
theorem leadingDigits_of_digits (allWhole : whole.all Char.isDigit = true)
    (allFraction : fraction.all Char.isDigit = true) :
    leadingDigits 10 (whole ++ fraction) = leadingDigits 10 whole ++ leadingDigits 10 fraction := by
  have every : ∀ {digits : List Char}, digits.all Char.isDigit = true →
      leadingDigits 10 digits = digits.map fun char => char.toNat - '0'.toNat := by
    intro digits all
    rw [leadingDigits_decimal, List.takeWhile_eq_self_iff.mpr (List.all_eq_true.mp all)]
  rw [every (by rw [List.all_append, allWhole, allFraction]; rfl), every allWhole,
    every allFraction, List.map_append]

end Decimal

namespace Checked

/-- No identifier begins directly after a number. -/
def numberEnd : Checked Unit := do
  if (← peek).any fun char => char == '\\' || isIdentifierStart char then
    fault .identifierAfterNumber
  else return ()

/-- Digits of a radix. Those found so far are given, the last one first. -/
def radixDigits (radix : Nat) (found : List Nat) : Nat → Checked (List Nat)
  | 0 => trap
  | turns + 1 => do
    match (← peek).bind (digitOf? radix) with
    | some digit =>
      let _ ← advance
      radixDigits radix (digit :: found) turns
    | none => return found.reverse

/-- A number with a radix, from its prefix on. -/
def radixNumber (radix : Nat) (flags : Flags) : Checked Content := do
  let _ ← advance
  let _ ← advance
  let digits ← radixDigits radix [] (← turns)
  let next ← peek
  if digits.isEmpty || next.any Char.isDigit then fault .invalidNumber
  else
    numberEnd
    return ⟨.numericLiteral, some (.number (.ofDigits radix digits)), flags⟩

/-- The digits after the point of a decimal number, if there is a point. -/
def fraction : Checked (List Char) := do
  if ← accept '.' then charactersOf Char.isDigit [] (← turns) else return []

/-- The sign of an exponent, if there is one. -/
def sign : Checked (List Char) := do
  let next ← peek
  if next = some '+' ∨ next = some '-' then
    let char ← advance
    return [char]
  else return []

/-- An exponent, from its letter on. -/
def exponent : Checked (List Char) := do
  let _ ← advance
  let sign ← sign
  let digits ← charactersOf Char.isDigit [] (← turns)
  if digits.isEmpty then fault .invalidNumber else return sign ++ digits

/-- The decimal number of its parts. Their text must denote a number. -/
def decimalOf (whole fraction exponent : List Char) (flags : Flags) : Checked Content := do
  numberEnd
  if isFloatText (floatText whole fraction exponent) then
    let number := numberOfDigits 10 (leadingDigits 10 (whole ++ fraction))
    let value := Binary64.ofDecimal number (exponentOf exponent - fraction.length)
    return ⟨.numericLiteral, some (.number value), flags⟩
  else trap

/-- A decimal number, in which there must be a digit. -/
def decimal : Checked Content := do
  let whole ← charactersOf Char.isDigit [] (← turns)
  let fraction ← fraction
  if whole.isEmpty && fraction.isEmpty then trap
  else
    let next ← peek
    if next = some 'e' ∨ next = some 'E' then
      decimalOf whole fraction (← exponent) { exponent := true }
    else decimalOf whole fraction [] {}

/-- A number, from its first digit or its point on. -/
def number : Checked Content := do
  let first ← peek
  let second ← peekNext
  match if first = some '0' then second.bind NumericLiteral.radixOf? else none with
  | some (radix, flags) => radixNumber radix flags
  | none => decimal

variable {machine : Machine} {text : List Char}

/-- What is kept of a number with its flags. -/
def numberContent (found : Binary64 × Flags) : Content :=
  (Lexeme.number found.1).content found.2

theorem numberEnd_bind {α : Type} {further : Unit → Checked α} (machine : Machine) :
    (numberEnd >>= further) machine =
      if NumericLiteral.startsIdentifier machine.rest then
        .error (.fault .identifierAfterNumber) machine
      else further () machine := by
  have run : numberEnd machine =
      if NumericLiteral.startsIdentifier machine.rest then
        .error (.fault .identifierAfterNumber) machine
      else .ok () machine := by
    rw [numberEnd, peek_bind, NumericLiteral.startsIdentifier]
    split <;> rfl
  split
  · rename_i identifier
    exact bind_error (run.trans (if_pos identifier))
  · rename_i ends
    exact bind_ok (run.trans (if_neg ends))

theorem radixDigits_eq {radix turns : Nat} {found : List Nat}
    (enough : machine.rest.length < turns) :
    radixDigits radix found turns machine =
      .ok (found.reverse ++ leadingDigits radix machine.rest)
        (machine.skip (leadingDigits radix machine.rest).length) := by
  induction turns generalizing found machine with
  | zero => contradiction
  | succ turns ih =>
    rw [radixDigits, peek_bind]
    cases rest : machine.rest with
    | nil =>
      rw [leadingDigits, List.append_nil]
      rfl
    | cons char text =>
      have behind : (machine.skip 1).rest = text := by
        rw [Machine.rest_skip, rest]
        rfl
      rw [List.head?_cons, Option.bind_some, leadingDigits]
      cases digitOf? radix char with
      | none =>
        rw [List.append_nil]
        rfl
      | some digit =>
        rw [rest, List.length_cons] at enough
        dsimp only
        rw [advance_bind rest, ih (by rw [behind]; exact Nat.lt_of_succ_lt_succ enough), behind,
          Machine.skip_skip, List.reverse_cons, List.append_assoc, List.length_cons, Nat.add_comm 1]
        rfl

theorem radixNumber_eq {radix : Nat} {flags : Flags} {first second : Char}
    (rest : machine.rest = first :: second :: text) :
    radixNumber radix flags machine =
      ((NumericLiteral.readRadix radix flags text).map numberContent).outcome machine := by
  have after : (machine.skip 1).rest = second :: text := by
    rw [Machine.rest_skip, rest]
    rfl
  have behind : (machine.skip 2).rest = text := by
    rw [Machine.rest_skip, rest]
    rfl
  have beyond : (machine.skip (2 + (leadingDigits radix text).length)).rest =
      text.drop (leadingDigits radix text).length := by
    rw [← Machine.skip_skip, Machine.rest_skip, behind]
  have enough := Nat.lt_succ_of_le (machine.skip 2).length_rest_le
  rw [radixNumber, advance_bind rest, advance_bind after, Machine.skip_skip, turns_bind,
    bind_ok (radixDigits_eq enough), behind, peek_bind, Machine.skip_skip, beyond,
    List.reverse_nil, List.nil_append, NumericLiteral.readRadix]
  split
  · rename_i wrong
    rw [if_pos (by exact wrong)]
    rfl
  · rename_i right
    rw [if_neg (by exact right), numberEnd_bind, beyond, NumericLiteral.accept]
    split <;> rfl

/-- A run of decimal digits is moved over. -/
theorem digitCharacters_bind {α : Type} {further : List Char → Checked α} (machine : Machine) :
    (turns >>= fun turns => charactersOf Char.isDigit [] turns >>= further) machine =
      further (machine.rest.takeWhile Char.isDigit)
        (machine.skip (leadingDigits 10 machine.rest).length) := by
  rw [turns_bind, bind_ok (charactersOf_eq (Nat.lt_succ_of_le machine.length_rest_le)),
    length_leadingDigits_decimal]
  rfl

theorem exists_fraction (rest : machine.rest = text) :
    ∃ digits, fraction machine = .ok digits (machine.skip (NumericLiteral.fraction text).1) ∧
      digits.all Char.isDigit = true ∧
      leadingDigits 10 digits = (NumericLiteral.fraction text).2 := by
  rw [fraction]
  by_cases point : text.head? = some '.'
  · obtain ⟨text, rfl⟩ := List.head?_eq_some_iff.mp point
    have behind : (machine.skip 1).rest = text := by
      rw [Machine.rest_skip, rest]
      rfl
    refine ⟨text.takeWhile Char.isDigit, ?_, all_takeWhile _, leadingDigits_takeWhile _⟩
    rw [bind_ok (accept_eq_true rest), if_pos rfl, turns_bind,
      charactersOf_eq (Nat.lt_succ_of_le (machine.skip 1).length_rest_le), behind,
      Machine.skip_skip, NumericLiteral.fraction, length_leadingDigits_decimal]
    rfl
  · have none : NumericLiteral.fraction text = (0, []) := by
      rw [NumericLiteral.fraction]
      rintro others rfl
      exact point rfl
    refine ⟨[], ?_, rfl, by rw [none]; rfl⟩
    rw [bind_ok (accept_eq_false (by rwa [rest])), none]
    rfl

/-- An exponent is made of its sign and its digits. -/
theorem exponent_parts {front digits : List Char} (isSign : front ∈ [[], ['+'], ['-']])
    (all : digits.all Char.isDigit = true) (some : digits.isEmpty = false) :
    isExponentText (front ++ digits) = true ∧
      exponentOf (front ++ digits) =
        (let size : Int := numberOfDigits 10 (leadingDigits 10 digits)
        if front = ['-'] then -size else size) := by
  simp only [List.mem_cons, List.not_mem_nil, or_false] at isSign
  rcases isSign with rfl | rfl | rfl
  · have unsigned : ∀ char : Char, char.isDigit = false → digits.head? ≠ Option.some char := by
      intro char mark first
      obtain ⟨others, rfl⟩ := List.head?_eq_some_iff.mp first
      rw [List.all_cons, mark] at all
      cases all
    rw [List.nil_append]
    constructor
    · rw [isExponentText, if_neg (not_or.mpr ⟨unsigned '+' rfl, unsigned '-' rfl⟩), some, all]
      rfl
    · rw [exponentOf]
      · rfl
      · rintro others rfl
        exact unsigned '-' rfl rfl
      · rintro others rfl
        exact unsigned '+' rfl rfl
  · constructor
    · rw [isExponentText]
      simpa using ⟨by simpa using some, by simpa using all⟩
    · rfl
  · constructor
    · rw [isExponentText]
      simpa using ⟨by simpa using some, by simpa using all⟩
    · rfl

theorem exists_sign (rest : machine.rest = text) :
    ∃ front, sign machine = .ok front (machine.skip (NumericLiteral.exponentSign text).1) ∧
      front ∈ [[], ['+'], ['-']] ∧
      ((NumericLiteral.exponentSign text).2 = true ↔ front = ['-']) := by
  rw [sign, peek_bind, rest]
  by_cases minus : text.head? = some '-'
  · obtain ⟨text, rfl⟩ := List.head?_eq_some_iff.mp minus
    refine ⟨['-'], ?_, by simp, by simp [NumericLiteral.exponentSign]⟩
    rw [if_pos (.inr minus), advance_bind rest]
    rfl
  by_cases plus : text.head? = some '+'
  · obtain ⟨text, rfl⟩ := List.head?_eq_some_iff.mp plus
    refine ⟨['+'], ?_, by simp, by simp [NumericLiteral.exponentSign]⟩
    rw [if_pos (.inl plus), advance_bind rest]
    rfl
  have none : NumericLiteral.exponentSign text = (0, false) := by
    rw [NumericLiteral.exponentSign]
    · rintro others rfl
      exact minus rfl
    · rintro others rfl
      exact plus rfl
  refine ⟨[], ?_, by simp, by simp [none]⟩
  rw [if_neg (not_or.mpr ⟨plus, minus⟩), none]
  rfl

/-- Behind the letter of an exponent there are digits, or it is faulty. -/
theorem exponent_eq {letter : Char} (rest : machine.rest = letter :: text) :
    let sign := NumericLiteral.exponentSign text
    let digits := leadingDigits 10 (text.drop sign.1)
    if digits.isEmpty then
      exponent machine = .error (.fault .invalidNumber) (machine.skip (1 + sign.1 + digits.length))
    else
      ∃ power, exponent machine = .ok power (machine.skip (1 + sign.1 + digits.length)) ∧
        isExponentText power = true ∧
        exponentOf power =
          (let size : Int := numberOfDigits 10 digits
          if sign.2 then -size else size) := by
  have behind : (machine.skip 1).rest = text := by
    rw [Machine.rest_skip, rest]
    rfl
  obtain ⟨front, run, isSign, isMinus⟩ := exists_sign behind
  have beyond : ((machine.skip 1).skip (NumericLiteral.exponentSign text).1).rest =
      text.drop (NumericLiteral.exponentSign text).1 := by
    rw [Machine.rest_skip, behind]
  have length := length_leadingDigits_decimal (text.drop (NumericLiteral.exponentSign text).1)
  dsimp only
  rw [exponent, advance_bind rest, bind_ok run, digitCharacters_bind, beyond, Machine.skip_skip,
    Machine.skip_skip]
  generalize found : (text.drop (NumericLiteral.exponentSign text).1).takeWhile Char.isDigit =
    characters at length ⊢
  have all : characters.all Char.isDigit = true := found ▸ all_takeWhile _
  have same : leadingDigits 10 (text.drop (NumericLiteral.exponentSign text).1) =
      leadingDigits 10 characters := by
    rw [← found, leadingDigits_takeWhile]
  cases characters with
  | nil =>
    rw [same]
    rfl
  | cons char characters =>
    have parts := exponent_parts isSign all rfl
    have none : (leadingDigits 10 (text.drop (NumericLiteral.exponentSign text).1)).isEmpty =
        false := by
      rw [← Bool.not_eq_true, List.isEmpty_iff_length_eq_zero, length]
      exact Nat.succ_ne_zero _
    rw [none, if_neg Bool.false_ne_true]
    refine ⟨front ++ char :: characters, by rw [← Nat.add_assoc]; rfl, parts.1,
      parts.2.trans ?_⟩
    rw [same]
    dsimp only
    split
    · rename_i negative
      rw [if_pos (isMinus.mpr negative)]
    · rename_i positive
      rw [if_neg (mt isMinus.mp positive)]

/-- The text of the parts of a number is never refused. -/
theorem decimalOf_eq {whole fraction power : List Char} {flags : Flags} {length : Nat}
    (allWhole : whole.all Char.isDigit = true) (allFraction : fraction.all Char.isDigit = true)
    (isExponent : power = [] ∨ isExponentText power = true) :
    decimalOf whole fraction power flags (machine.skip length) =
      ((NumericLiteral.accept length (machine.rest.drop length)
        (.ofDecimal (numberOfDigits 10 (leadingDigits 10 whole ++ leadingDigits 10 fraction))
          (exponentOf power - (leadingDigits 10 fraction).length)) flags).map
            numberContent).outcome machine := by
  have lengths : (leadingDigits 10 fraction).length = fraction.length := by
    rw [length_leadingDigits_decimal,
      List.takeWhile_eq_self_iff.mpr (List.all_eq_true.mp allFraction)]
  rw [decimalOf, numberEnd_bind, Machine.rest_skip, NumericLiteral.accept,
    if_pos (isFloatText_floatText allWhole allFraction isExponent),
    leadingDigits_of_digits allWhole allFraction, lengths]
  split <;> rfl

/-- Where a number begins, there are digits before a point or after it. -/
theorem digits_of_starts {fraction : List Char} (starts : NumericLiteral.starts text = true)
    (read : leadingDigits 10 fraction =
      (NumericLiteral.fraction (text.drop (leadingDigits 10 text).length)).2) :
    ((text.takeWhile Char.isDigit).isEmpty && fraction.isEmpty) = false := by
  rw [Bool.and_eq_false_iff]
  by_cases point : text.head? = some '.'
  · obtain ⟨text, rfl⟩ := List.head?_eq_some_iff.mp point
    have starts : text.head?.any Char.isDigit = true := starts
    obtain ⟨char, first, isDigit⟩ := (Option.any_eq_true _ _).mp starts
    obtain ⟨text, rfl⟩ := List.head?_eq_some_iff.mp first
    have read : leadingDigits 10 fraction = leadingDigits 10 (char :: text) := read
    refine .inr (Bool.eq_false_iff.mpr fun empty => ?_)
    rw [List.isEmpty_iff.mp empty, leadingDigits_decimal, leadingDigits_decimal,
      List.takeWhile_cons_of_pos isDigit] at read
    cases read
  · have starts : text.head?.any Char.isDigit = true := by
      rw [NumericLiteral.starts] at starts
      · exact starts
      · rintro others rfl
        exact point rfl
    obtain ⟨char, first, isDigit⟩ := (Option.any_eq_true _ _).mp starts
    obtain ⟨text, rfl⟩ := List.head?_eq_some_iff.mp first
    rw [List.takeWhile_cons_of_pos isDigit]
    exact .inl rfl

theorem decimal_eq (rest : machine.rest = text) (starts : NumericLiteral.starts text = true) :
    decimal machine = ((NumericLiteral.readDecimal text).map numberContent).outcome machine := by
  have beyond : (machine.skip (leadingDigits 10 text).length).rest =
      text.drop (leadingDigits 10 text).length := by
    rw [Machine.rest_skip, rest]
  obtain ⟨parts, run, all, digits⟩ := exists_fraction beyond
  have allWhole : (text.takeWhile Char.isDigit).all Char.isDigit = true := all_takeWhile text
  rw [decimal, digitCharacters_bind, rest, bind_ok run, digits_of_starts starts digits,
    if_neg Bool.false_ne_true, NumericLiteral.readDecimal]
  dsimp only
  rw [← digits, peek_bind, Machine.skip_skip, Machine.rest_skip, rest]
  generalize (leadingDigits 10 text).length +
    (NumericLiteral.fraction (text.drop (leadingDigits 10 text).length)).1 = front
  split
  · rename_i marked
    obtain ⟨letter, tail, behind⟩ : ∃ letter tail, text.drop front = letter :: tail := by
      cases behind : text.drop front with
      | nil => simp [behind] at marked
      | cons letter tail => exact ⟨letter, tail, rfl⟩
    have there : (machine.skip front).rest = letter :: tail := by
      rw [Machine.rest_skip, rest, behind]
    have power := exponent_eq there
    dsimp only at power
    rw [behind, List.drop_one, List.tail_cons, Nat.add_comm 1, List.drop_succ_cons]
    split
    · rename_i none
      rw [if_pos none, Machine.skip_skip] at power
      rw [bind_error power, ← Nat.add_assoc, ← Nat.add_assoc]
      rfl
    · rename_i some
      rw [if_neg some, Machine.skip_skip] at power
      obtain ⟨power, run, isExponent, value⟩ := power
      rw [bind_ok run, decimalOf_eq allWhole all (.inr isExponent), value, leadingDigits_takeWhile,
        rest, ← Nat.add_assoc, ← Nat.add_assoc]
  · rw [decimalOf_eq allWhole all (.inl rfl), leadingDigits_takeWhile, rest]
    have zero : exponentOf [] - (leadingDigits 10 parts).length =
        -((leadingDigits 10 parts).length : Int) := Int.zero_sub _
    rw [zero]

/-- A number is read where one begins. -/
theorem number_eq (rest : machine.rest = text) (starts : NumericLiteral.starts text = true) :
    number machine = ((NumericLiteral.read text).map numberContent).outcome machine := by
  have decimal := decimal_eq rest starts
  rw [number, peek_bind, peekNext_bind, rest]
  by_cases zero : text.head? = some '0'
  · obtain ⟨text, rfl⟩ := List.head?_eq_some_iff.mp zero
    rw [if_pos zero, List.drop_one, List.tail_cons]
    cases text with
    | nil => exact decimal
    | cons letter text =>
      rw [List.head?_cons, Option.bind_some, NumericLiteral.read]
      cases NumericLiteral.radixOf? letter with
      | none => exact decimal
      | some chosen => exact radixNumber_eq rest
  · rw [if_neg zero, NumericLiteral.read]
    · exact decimal
    · rintro letter others rfl
      exact zero rfl

end Checked

end EcmaScript
