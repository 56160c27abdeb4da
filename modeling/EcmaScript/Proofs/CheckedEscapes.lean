import EcmaScript.Proofs.CheckedSteps
import EcmaScript.Proofs.Lookahead

/-!
# Escapes, step by step

The digits of an escape are added up in words, and surrogates are joined in them. None of these sums,
products and differences leaves the words: the digits are few, or the sum is compared with the last
code point after each of them. Two surrogates are a code point.
-/

namespace EcmaScript

namespace Checked

/-- Adds up digits of a radix, at most some number of them. The sum and the number of digits so far
are given. -/
def digits (radix : Nat) : Nat → Nat → Nat → Checked (Nat × Nat)
  | 0, code, count => return (code, count)
  | limit + 1, code, count => do
    match (← peek).bind (digitOf? radix) with
    | some digit =>
      let _ ← advance
      let code ← sum (← product code radix) digit
      digits radix limit code (count + 1)
    | none => return (code, count)

/-- The digits of a code point in braces, and the closing brace. The code and the number of digits
so far are given. -/
def bracedDigits (code count : Nat) : Nat → Checked Escape.CodePoint
  | 0 => trap
  | turns + 1 => do
    match (← peek).bind (digitOf? 16) with
    | some digit =>
      let _ ← advance
      let code ← sum (← product code 16) digit
      if 0x10FFFF < code then fault .undefinedCodePoint
      else bracedDigits code (count + 1) turns
    | none =>
      if count = 0 then fault .invalidUnicodeEscape
      else if ← accept '}' then return ⟨code, true⟩
      else fault .invalidUnicodeEscape

/-- A code point after a backslash and the letter `u`. -/
def codePoint : Checked Escape.CodePoint := do
  if ← accept '{' then bracedDigits 0 0 (← turns)
  else
    let (code, count) ← digits 16 4 0 0
    if count = 4 then return ⟨code, false⟩
    else fault .invalidUnicodeEscape

/-- The code point of two surrogates. -/
def join (high low : Nat) : Checked Nat := do
  let upper ← product (← difference high 0xD800) 0x400
  let code ← sum (← sum 0x10000 upper) (← difference low 0xDC00)
  if 0x10FFFF < code then trap else return code

/-- What a code point adds to a string. A first half of a pair is joined with a second one that
comes next; after anything else the machine goes back. -/
def joined (point : Escape.CodePoint) : Checked Escape.Contribution := do
  let next ← peek
  let afterNext ← peekNext
  if Escape.isHighSurrogate point.code ∧ next = some '\\' ∧ afterNext = some 'u' then
    let saved ← get
    let _ ← advance
    let _ ← advance
    let low ← codePoint
    if Escape.isLowSurrogate low.code then
      let code ← join point.code low.code
      return ⟨[Escape.charOfCode code], point.flags.union low.flags⟩
    else
      set saved
      return ⟨[Escape.charOfCode point.code], point.flags⟩
  else return ⟨[Escape.charOfCode point.code], point.flags⟩

/-- The two digits of a hexadecimal escape. -/
def hexadecimal : Checked Escape.Contribution := do
  match (← peek).bind (digitOf? 16), (← peekNext).bind (digitOf? 16) with
  | some high, some low =>
    let _ ← advance
    let _ ← advance
    let code ← sum (← product high 16) low
    return ⟨[Escape.charOfCode code], {}⟩
  | _, _ => fault .invalidHexadecimalEscape

/-- An octal escape, from its first digit on, which has been moved over. -/
def octal (first : Char) : Checked Escape.Contribution := do
  let value ← difference first.toNat '0'.toNat
  let (code, count) ← digits 8 (if value ≤ 3 then 2 else 1) value 1
  let next ← peek
  let isNull := first == '0' && count == 1 && !next.any Char.isDigit
  return ⟨[Escape.charOfCode code], { octalEscape := !isNull }⟩

/-- An escape of a string, from its backslash on. -/
def escape : Checked Escape.Contribution := do
  let _ ← advance
  match ← peek with
  | none => fault .unterminatedString
  | some char =>
    let _ ← advance
    if char = '\r' then
      let _ ← accept '\n'
      return ⟨[], {}⟩
    else if isLineTerminator char then return ⟨[], {}⟩
    else if char = 'x' then hexadecimal
    else if char = 'u' then joined (← codePoint)
    else if '0' ≤ char ∧ char ≤ '7' then octal char
    else if char = '8' ∨ char = '9' then return ⟨[char], { uselessEscape := true }⟩
    else return ⟨[(Escape.controlCharacter? char).getD char], {}⟩

variable {machine : Machine} {text : List Char}

theorem digits_eq {radix : Nat} (limit code count : Nat) (machine : Machine)
    (small : (code + 1) * radix ^ limit ≤ 2 ^ 32) :
    let found := leadingDigits radix (machine.rest.take limit)
    digits radix limit code count machine =
      .ok (found.foldl (fun value digit => value * radix + digit) code, count + found.length)
        (machine.skip found.length) := by
  induction limit generalizing code count machine with
  | zero => rfl
  | succ limit ih =>
    rw [digits, peek_bind]
    cases rest : machine.rest with
    | nil => rfl
    | cons char text =>
      rw [List.take_succ_cons, leadingDigits, List.head?_cons, Option.bind_some]
      cases read : digitOf? radix char with
      | none => rfl
      | some digit =>
        have less := digitOf?_lt read
        have step : (code * radix + digit + 1) * radix ^ limit ≤ 2 ^ 32 := by
          refine Nat.le_trans ?_ small
          rw [Nat.pow_succ', ← Nat.mul_assoc]
          apply Nat.mul_le_mul_right
          rw [Nat.add_mul]
          omega
        have word : code * radix + digit < 2 ^ 32 :=
          Nat.lt_of_lt_of_le (Nat.lt_of_lt_of_le (Nat.lt_succ_self _)
            (Nat.le_mul_of_pos_right _ (Nat.pow_pos (Nat.zero_lt_of_lt less)))) step
        have next := ih (code * radix + digit) (count + 1) (machine.skip 1) step
        rw [Machine.rest_skip, rest, List.drop_one, List.tail_cons] at next
        dsimp only
        rw [advance_bind rest, product_eq (Nat.lt_of_le_of_lt (Nat.le_add_right _ _) word),
          pure_bind, sum_eq word, pure_bind, next]
        simp only [List.foldl_cons, List.length_cons, Machine.skip_skip]
        rw [Nat.add_assoc, Nat.add_comm 1]

theorem bracedDigits_eq {code count turns : Nat} (small : code ≤ 0x10FFFF)
    (enough : (machine.skip (3 + count)).rest.length < turns) :
    bracedDigits code count turns (machine.skip (3 + count)) =
      (Escape.bracedDigits code (3 + count) (machine.skip (3 + count)).rest).outcome machine := by
  induction turns generalizing code count with
  | zero => contradiction
  | succ turns ih =>
    rw [bracedDigits, peek_bind]
    cases rest : (machine.skip (3 + count)).rest with
    | nil =>
      rw [Escape.bracedDigits, List.head?_nil, Option.bind_none]
      dsimp only
      split
      · rfl
      · rw [bind_ok (accept_eq_false (by rw [rest]; rintro ⟨⟩))]
        rfl
    | cons char text =>
      rw [Escape.bracedDigits, List.head?_cons, Option.bind_some]
      cases read : digitOf? 16 char with
      | none =>
        dsimp only
        by_cases none : count = 0
        · rw [if_pos none, if_neg (by simp [none])]
          rfl
        · rw [if_neg none]
          by_cases closing : char = '}'
          · subst closing
            rw [bind_ok (accept_eq_true rest), if_pos rfl, if_pos (by simp [none]),
              Machine.skip_skip]
            rfl
          · rw [bind_ok (accept_eq_false (by simpa [rest] using closing)), if_neg Bool.false_ne_true,
              if_neg (by simp [closing])]
            rfl
      | some digit =>
        have less := digitOf?_lt read
        dsimp only
        rw [advance_bind rest, product_eq (by omega), pure_bind, sum_eq (by omega), pure_bind,
          Machine.skip_skip]
        split
        · rfl
        · rename_i bounded
          rw [Machine.rest_skip] at rest enough
          have behind : machine.rest.drop (3 + (count + 1)) = text := by
            rw [← Nat.add_assoc, ← List.drop_drop, rest, List.drop_one, List.tail_cons]
          have next := @ih (code * 16 + digit) (count + 1) (Nat.le_of_not_lt bounded) (by
            rw [Machine.rest_skip, behind]
            rw [rest, List.length_cons] at enough
            exact Nat.lt_of_succ_lt_succ enough)
          rw [Machine.rest_skip, behind] at next
          exact next

/-- A code point is read after its backslash and its letter. -/
theorem codePoint_eq (rest : machine.rest = '\\' :: 'u' :: text) :
    codePoint (machine.skip 2) = (Escape.unicode machine.rest).outcome machine := by
  have behind : (machine.skip 2).rest = text := by
    rw [Machine.rest_skip, rest]
    rfl
  rw [codePoint]
  by_cases braced : text.head? = some '{'
  · obtain ⟨inner, rfl⟩ := List.head?_eq_some_iff.mp braced
    rw [bind_ok (accept_eq_true behind), if_pos rfl, turns_bind, Machine.skip_skip, rest,
      Escape.unicode]
    have inside : (machine.skip (3 + 0)).rest = inner := by
      rw [Machine.rest_skip, rest]
      rfl
    have enough := (machine.skip (3 + 0)).length_rest_le
    have whole := bracedDigits_eq (Nat.zero_le _) (Nat.lt_succ_of_le enough)
    rw [inside] at whole
    exact whole
  · rw [bind_ok (accept_eq_false (by rwa [behind])), if_neg Bool.false_ne_true,
      bind_ok (digits_eq 4 0 0 _ (by decide)), behind, rest, Escape.unicode]
    · dsimp only
      rw [Nat.zero_add, Machine.skip_skip]
      split
      · rename_i four
        rw [four]
        rfl
      · rfl
    · rintro inner rfl
      exact braced rfl

/-- Two surrogates are joined in words, and stand for a code point. -/
theorem join_eq {high low : Nat} (first : Escape.isHighSurrogate high = true)
    (second : Escape.isLowSurrogate low = true) :
    join high low = pure (Escape.joinSurrogates high low) := by
  simp only [Escape.isHighSurrogate, Escape.isLowSurrogate, Bool.and_eq_true,
    decide_eq_true_eq] at first second
  obtain ⟨highLower, highUpper⟩ := first
  obtain ⟨lowLower, lowUpper⟩ := second
  rw [join, difference_eq highLower, pure_bind, product_eq (by omega), pure_bind,
    sum_eq (by omega), pure_bind, difference_eq lowLower, pure_bind, sum_eq (by omega), pure_bind,
    if_neg (by omega)]
  rfl

/-- Where no second half of a pair comes next, a code point stands alone. -/
theorem joined_alone {point : Escape.CodePoint}
    (alone : ¬(Escape.isHighSurrogate point.code = true ∧ machine.rest.head? = some '\\' ∧
      (machine.rest.drop 1).head? = some 'u')) :
    joined point machine = .ok ⟨[Escape.charOfCode point.code], point.flags⟩ machine := by
  rw [joined, peek_bind, peekNext_bind, if_neg alone]
  rfl

/-- A first half of a pair is joined with a second one, and nothing else is moved over. -/
theorem joined_pair {point : Escape.CodePoint} (high : Escape.isHighSurrogate point.code = true)
    (rest : machine.rest = '\\' :: 'u' :: text) :
    joined point machine =
      match Escape.unicode machine.rest with
      | .failure length cause _ => .error (.fault cause) (machine.skip length)
      | .success length low =>
        if Escape.isLowSurrogate low.code then
          .ok ⟨[Escape.charOfCode (Escape.joinSurrogates point.code low.code)],
            point.flags.union low.flags⟩ (machine.skip length)
        else .ok ⟨[Escape.charOfCode point.code], point.flags⟩ machine := by
  have read := codePoint_eq rest
  have after : (machine.skip 1).rest = 'u' :: text := by
    rw [Machine.rest_skip, rest]
    rfl
  rw [joined, peek_bind, peekNext_bind, if_pos ⟨high, by rw [rest]; rfl, by rw [rest]; rfl⟩,
    get_bind, advance_bind rest, advance_bind after, Machine.skip_skip]
  cases second : Escape.unicode machine.rest with
  | failure length cause place =>
    rw [second] at read
    exact bind_error read
  | success length low =>
    rw [second] at read
    rw [bind_ok read]
    dsimp only
    split
    · rename_i isLow
      rw [join_eq high isLow]
      rfl
    · rfl

theorem joined_eq (rest : machine.rest = '\\' :: 'u' :: text) :
    (codePoint >>= joined) (machine.skip 2) =
      (Escape.unicodeInString machine.rest).outcome machine := by
  have read := codePoint_eq rest
  rw [Escape.unicodeInString]
  cases first : Escape.unicode machine.rest with
  | failure length cause place =>
    rw [first] at read
    exact bind_error read
  | success length point =>
    rw [first] at read
    rw [bind_ok read]
    dsimp only
    split
    · rename_i others high next
      have there : (machine.skip length).rest = '\\' :: 'u' :: others := by
        rw [Machine.rest_skip, next]
      rw [joined_pair high there, there]
      cases Escape.unicode ('\\' :: 'u' :: others) with
      | failure further cause place =>
        dsimp only
        rw [Machine.skip_skip]
        rfl
      | success further low =>
        dsimp only
        rw [Machine.skip_skip]
        split <;> rfl
    · rename_i other
      apply joined_alone
      rintro ⟨high, first, second⟩
      rw [Machine.rest_skip] at first second
      obtain ⟨tail, next⟩ := List.head?_eq_some_iff.mp first
      rw [next, List.drop_one, List.tail_cons] at second
      obtain ⟨others, rfl⟩ := List.head?_eq_some_iff.mp second
      exact other others high next

theorem digitOf?_octal {char : Char} (least : '0' ≤ char) (most : char ≤ '7') :
    digitOf? 8 char = some (char.toNat - '0'.toNat) := by
  have lower : 48 ≤ char.toNat := least
  have upper : char.toNat ≤ 55 := most
  have isDigit : char.isDigit = true := by
    rw [Char.isDigit, Bool.and_eq_true, decide_eq_true_eq, decide_eq_true_eq]
    exact ⟨least, Nat.le_trans upper (by decide)⟩
  have zero : '0'.toNat = 48 := rfl
  rw [digitOf?, digitValue?, if_pos isDigit, Option.filter_some, if_pos]
  rw [decide_eq_true_eq]
  omega

/-- The first digit of an octal escape is moved over already. -/
theorem octal_eq {first : Char} (rest : machine.rest = '\\' :: first :: text) (least : '0' ≤ first)
    (most : first ≤ '7') :
    octal first (machine.skip 2) = (Escape.octalInString first text).outcome machine := by
  have behind : machine.rest.drop 2 = text := by
    rw [rest]
    rfl
  have lower : 48 ≤ first.toNat := least
  have upper : first.toNat ≤ 55 := most
  have zero : '0'.toNat = 48 := rfl
  have limit : (if first ≤ '3' then 3 else 2) =
      (if first.toNat - '0'.toNat ≤ 3 then 2 else 1) + 1 := by
    have three : first ≤ '3' ↔ first.toNat ≤ 51 := Iff.rfl
    by_cases small : first.toNat ≤ 51
    · rw [if_pos (three.mpr small), if_pos (by omega)]
    · rw [if_neg (mt three.mp small), if_neg (by omega)]
  rw [octal, difference_eq (show '0'.toNat ≤ first.toNat from least), pure_bind,
    Escape.octalInString, limit, List.take_succ_cons,
    leadingDigits, digitOf?_octal least most]
  generalize few : (if first.toNat - '0'.toNat ≤ 3 then 2 else 1) = bound
  have within : (first.toNat - '0'.toNat + 1) * 8 ^ bound ≤ 2 ^ 32 := by
    split at few <;> subst few <;> omega
  rw [bind_ok (digits_eq bound _ _ _ within)]
  dsimp only
  rw [peek_bind, Machine.skip_skip, Machine.rest_skip, Machine.rest_skip, ← List.drop_drop, behind]
  generalize leadingDigits 8 (text.take bound) = others
  have same : (first == '0' && 1 + others.length == 1 &&
      !(text.drop others.length).head?.any Char.isDigit) =
        (first == '0' && others.length + 1 == 1 && !text.head?.any Char.isDigit) := by
    cases others with
    | nil => rfl
    | cons => simp
  rw [same, List.length_cons, numberOfDigits, List.foldl_cons, Nat.zero_mul, Nat.zero_add]
  change EStateM.Result.ok _ _ = EStateM.Result.ok _ _
  rw [show 2 + others.length = 1 + (others.length + 1) by omega]

/-- Up to two digits are found one by one. -/
theorem leadingDigits_two {first second : Option Nat} {text : List Char}
    (readFirst : text.head?.bind (digitOf? 16) = first)
    (readSecond : (text.drop 1).head?.bind (digitOf? 16) = second) :
    leadingDigits 16 (text.take 2) =
      first.elim [] fun high => high :: second.toList := by
  subst readFirst readSecond
  cases text with
  | nil => rfl
  | cons char rest =>
    cases rest with
    | nil => cases read : digitOf? 16 char <;> simp [leadingDigits, read]
    | cons other rest =>
      cases read : digitOf? 16 char <;> cases readToo : digitOf? 16 other <;>
        simp [leadingDigits, read, readToo]

/-- The backslash and the letter of a hexadecimal escape are moved over already. -/
theorem hexadecimal_eq (rest : machine.rest = '\\' :: 'x' :: text) :
    hexadecimal (machine.skip 2) = (Escape.inString machine.rest).outcome machine := by
  have behind : (machine.skip 2).rest = text := by
    rw [Machine.rest_skip, rest]
    rfl
  rw [hexadecimal, peek_bind, peekNext_bind, behind, rest, Escape.inString,
    leadingDigits_two rfl rfl]
  cases first : text.head?.bind (digitOf? 16) with
  | none => rfl
  | some high =>
    cases second : (text.drop 1).head?.bind (digitOf? 16) with
    | none => rfl
    | some low =>
      obtain ⟨char, here, readFirst⟩ := Option.bind_eq_some_iff.mp first
      obtain ⟨other, next, readSecond⟩ := Option.bind_eq_some_iff.mp second
      obtain ⟨text, rfl⟩ := List.head?_eq_some_iff.mp here
      obtain ⟨text, same⟩ := List.head?_eq_some_iff.mp next
      rw [List.drop_one, List.tail_cons] at same
      subst same
      have after : ((machine.skip 2).skip 1).rest = other :: text := by
        rw [Machine.rest_skip, behind]
        rfl
      have less := digitOf?_lt readFirst
      have lessToo := digitOf?_lt readSecond
      dsimp only
      rw [advance_bind behind, advance_bind after, product_eq (by omega), pure_bind,
        sum_eq (by omega), pure_bind, Machine.skip_skip, Machine.skip_skip]
      rfl

theorem escape_eq (rest : machine.rest = '\\' :: text) :
    escape machine = (Escape.inString machine.rest).outcome machine := by
  have behind : (machine.skip 1).rest = text := by
    rw [Machine.rest_skip, rest]
    rfl
  rw [escape, advance_bind rest, peek_bind, behind]
  cases text with
  | nil =>
    rw [rest]
    rfl
  | cons char text =>
    have beyond : (machine.skip 2).rest = text := by
      rw [Machine.rest_skip, rest]
      rfl
    rw [List.head?_cons]
    dsimp only
    rw [advance_bind behind, Machine.skip_skip]
    by_cases isReturn : char = '\r'
    · subst isReturn
      rw [if_pos rfl, rest, Escape.inString_of_return]
      by_cases pair : text.head? = some '\n'
      · obtain ⟨others, rfl⟩ := List.head?_eq_some_iff.mp pair
        rw [bind_ok (accept_eq_true beyond), if_pos pair, Machine.skip_skip]
        rfl
      · rw [bind_ok (accept_eq_false (by rwa [beyond])), if_neg pair]
        rfl
    rw [if_neg isReturn]
    by_cases isX : char = 'x'
    · subst isX
      rw [if_neg (by decide), if_pos rfl]
      exact hexadecimal_eq rest
    by_cases isU : char = 'u'
    · subst isU
      rw [if_neg (by decide), if_neg isX, if_pos rfl, joined_eq rest, rest, Escape.inString]
    rw [if_neg isX, if_neg isU, rest, Escape.inString_of_plain text ⟨isReturn, isX, isU⟩]
    split
    · rfl
    split
    · rename_i isOctal
      exact octal_eq rest isOctal.1 isOctal.2
    split <;> rfl

end Checked

end EcmaScript
