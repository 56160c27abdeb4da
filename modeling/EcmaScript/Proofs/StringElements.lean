import EcmaScript.Proofs.InLine
import EcmaScript.Proofs.LegacyEscape
import EcmaScript.Proofs.Neighbours

/-!
# Strings element by element

Between its quotes a string is a sequence of elements: characters that stand for themselves, escape
sequences and line continuations. Each element stands for at most one character. What an element
contributes depends on one character more, the one behind it: an octal escape is as long as it can
be, and a zero is no octal escape unless a digit comes next.

Reading the text of some elements between quotes gives back what they stand for, one after the
other, and says of which kinds they are.
-/

namespace EcmaScript

namespace Flags

theorem union_none (flags : Flags) : flags.union {} = flags := by
  simp [union]

theorem none_union (flags : Flags) : Flags.union {} flags = flags := by
  simp [union]

theorem union_assoc (first second third : Flags) :
    (first.union second).union third = first.union (second.union third) := by
  simp [union, Bool.or_assoc]

end Flags

/-- A character that is a digit of a radix. -/
structure Digit (radix : Nat) where
  char : Char
  value : Nat
  reads : digitOf? radix char = some value

namespace Digit

variable {radix : Nat}

/-- Digits as a text. -/
def text (digits : List (Digit radix)) : List Char :=
  digits.map Digit.char

/-- The number that some digits denote behind others that denote a number. -/
def numberFrom (high : Nat) (digits : List (Digit radix)) : Nat :=
  (digits.map Digit.value).foldl (fun value digit => value * radix + digit) high

/-- The number that some digits denote. -/
def number (digits : List (Digit radix)) : Nat :=
  numberFrom 0 digits

theorem number_eq (digits : List (Digit radix)) :
    number digits = numberOfDigits radix (digits.map Digit.value) :=
  rfl

/-- One more digit behind some digits. -/
theorem numberFrom_concat (high : Nat) (digits : List (Digit radix)) (digit : Digit radix) :
    numberFrom high (digits ++ [digit]) = numberFrom high digits * radix + digit.value := by
  simp [numberFrom]

theorem le_numberFrom (some : 0 < radix) (high : Nat) (digits : List (Digit radix)) :
    high ≤ numberFrom high digits := by
  induction digits generalizing high with
  | nil => exact Nat.le_refl high
  | cons digit digits ih =>
    have more : high ≤ high * radix := Nat.le_mul_of_pos_right high some
    exact Nat.le_trans (Nat.le_trans more (Nat.le_add_right _ digit.value)) (ih _)

@[simp] theorem length_text (digits : List (Digit radix)) : (text digits).length = digits.length :=
  List.length_map _

/-- Digits are read up to the first character that is none. -/
theorem leadingDigits_text (digits : List (Digit radix)) (rest : List Char) :
    leadingDigits radix (text digits ++ rest) =
      digits.map Digit.value ++ leadingDigits radix rest := by
  induction digits with
  | nil => rfl
  | cons digit digits ih =>
    rw [text, List.map_cons, List.cons_append, leadingDigits, digit.reads]
    exact congrArg _ ih

/-- The digits of a radix up to ten are decimal digits. -/
theorem isDigit_of_le_ten (few : radix ≤ 10) (digit : Digit radix) : digit.char.isDigit = true := by
  rw [← Bool.not_eq_false]
  intro other
  have reads := digit.reads
  rw [Escape.digitOf?_of_le_ten few other] at reads
  cases reads

/-- Octal digits are the decimal digits from zero to seven. -/
theorem toNat_octal (digit : Digit 8) : digit.char.toNat = 48 + digit.value := by
  have isDigit := digit.isDigit_of_le_ten (by decide)
  obtain ⟨char, value, reads⟩ := digit
  have least : 48 ≤ char.toNat := by
    rw [Char.isDigit, Bool.and_eq_true, decide_eq_true_eq] at isDigit
    exact isDigit.1
  dsimp only at isDigit
  rw [digitOf?, digitValue?, if_pos isDigit] at reads
  have same : char.toNat - 48 = value := Option.some.inj (Option.filter_eq_some_iff.mp reads).1
  change char.toNat = 48 + value
  omega

theorem range_octal (digit : Digit 8) : '0' ≤ digit.char ∧ digit.char ≤ '7' := by
  have same := digit.toNat_octal
  have small := digitOf?_lt digit.reads
  constructor
  · change 48 ≤ digit.char.toNat
    omega
  · change digit.char.toNat ≤ 55
    omega

theorem value_lt (digit : Digit radix) : digit.value < radix :=
  digitOf?_lt digit.reads

end Digit

/-- A part of a string in quotes of one kind. -/
inductive StringElement (quote : Char) where
  | plain (char : Char) (isPlain : char ∉ [quote, '\\', '\n', '\r'])
  /-- Two hexadecimal digits behind an `x`. -/
  | hexadecimal (high low : Digit 16)
  /-- Four hexadecimal digits behind a `u`. -/
  | codePoint (digits : List (Digit 16)) (four : digits.length = 4)
      (isChar : (Digit.number digits).isValidChar)
  /-- Any number of hexadecimal digits in braces behind a `u`. -/
  | braced (digits : List (Digit 16)) (some : digits ≠ [])
      (isChar : (Digit.number digits).isValidChar)
  /-- A letter that stands for a control character. -/
  | control (letter meaning : Char)
      (known : (letter, meaning) ∈
        [('n', '\n'), ('r', '\r'), ('t', '\t'), ('b', '\x08'), ('f', '\x0c'), ('v', '\x0b')])
  | octal (digits : List (Digit 8)) (some : digits ≠ []) (three : digits.length ≤ 3)
      (byte : Digit.number digits ≤ 255)
  /-- An escaped eight or nine. -/
  | useless (digit : Char) (known : digit ∈ ['8', '9'])
  /-- An escaped character without a meaning of its own. -/
  | escaped (char : Char) (noDigit : char.isDigit = false)
      (noTerminator : isLineTerminator char = false)
      (noLetter : char ∉ ['x', 'u', 'n', 'r', 't', 'b', 'f', 'v'])
  /-- A line terminator that is escaped. -/
  | continuation (terminator : List Char)
      (known : terminator ∈ [['\n'], ['\r', '\n'], ['\r'], ['\u2028'], ['\u2029']])

namespace StringElement

variable {quote : Char}

/-- The text of an element. -/
def text : StringElement quote → List Char
  | plain char _ => [char]
  | hexadecimal high low => ['\\', 'x', high.char, low.char]
  | codePoint digits _ _ => '\\' :: 'u' :: Digit.text digits
  | braced digits _ _ => '\\' :: 'u' :: '{' :: (Digit.text digits ++ ['}'])
  | control letter _ _ => ['\\', letter]
  | octal digits _ _ _ => '\\' :: Digit.text digits
  | useless digit _ => ['\\', digit]
  | escaped char _ _ _ => ['\\', char]
  | continuation terminator _ => '\\' :: terminator

/-- The characters that an element stands for. -/
def meaning : StringElement quote → List Char
  | plain char _ => [char]
  | hexadecimal high low => [Char.ofNat (high.value * 16 + low.value)]
  | codePoint digits _ _ | braced digits _ _ => [Char.ofNat (Digit.number digits)]
  | control _ meaning _ => [meaning]
  | octal digits _ _ _ => [Char.ofNat (Digit.number digits)]
  | useless digit _ => [digit]
  | escaped char _ _ _ => [char]
  | continuation _ _ => []

/-- The escape names a code point. -/
def isCodePoint : StringElement quote → Bool
  | codePoint .. | braced .. => true
  | _ => false

/-- The escape names a code point in braces. -/
def isBraced : StringElement quote → Bool
  | braced .. => true
  | _ => false

/-- The escape is an eight or a nine. -/
def isUseless : StringElement quote → Bool
  | useless .. => true
  | _ => false

/-- The element is an octal escape in front of a character: any but a zero that no digit follows. -/
def isOctalBefore (next : Char) : StringElement quote → Bool
  | octal digits _ _ _ => Digit.text digits != ['0'] || next.isDigit
  | _ => false

/-- The element is as long as it can be in front of a character: an octal escape with that
character would have too many digits, or denote too large a number. -/
def EndsBefore (next : Char) : StringElement quote → Prop
  | octal digits _ _ _ => ∀ digit : Digit 8, digit.char = next →
      digits.length = 3 ∨ 255 < Digit.number (digits ++ [digit])
  | _ => True

/-- What an element in front of a character adds to the flags of its string. -/
def flags (next : Char) (element : StringElement quote) : Flags :=
  { unicodeEscape := element.isCodePoint, bracedEscape := element.isBraced
    octalEscape := element.isOctalBefore next, uselessEscape := element.isUseless }

/-- The first character of some elements, or the closing quote. -/
def first (elements : List (StringElement quote)) : Char :=
  (elements.flatMap text).headD quote

end StringElement

/-! ### Escapes -/

namespace Escape

open StringElement

theorem charOfCode_of_isChar {code : Nat} (isChar : code.isValidChar) :
    charOfCode code = Char.ofNat code :=
  if_pos isChar

theorem isValidChar_of_byte {code : Nat} (byte : code ≤ 255) : code.isValidChar :=
  .inl (Nat.lt_of_le_of_lt byte (by decide))

/-- A code point that is a character is no half of a surrogate pair. -/
theorem not_high_of_isChar {code : Nat} (isChar : code.isValidChar) :
    isHighSurrogate code = false := by
  unfold isHighSurrogate
  rcases isChar with low | ⟨high, _⟩
  · simp only [Bool.and_eq_false_iff, decide_eq_false_iff_not]
    omega
  · simp only [Bool.and_eq_false_iff, decide_eq_false_iff_not]
    omega

/-- Digits in braces are read up to the closing brace. -/
theorem bracedDigits_text {digits : List (Digit 16)} {code index : Nat} (rest : List Char)
    (small : Digit.numberFrom code digits ≤ 0x10FFFF) (some : index + digits.length ≠ 3) :
    bracedDigits code index (Digit.text digits ++ '}' :: rest) =
      .success (index + digits.length + 1) ⟨Digit.numberFrom code digits, true⟩ := by
  induction digits generalizing code index with
  | nil =>
    have none : digitOf? 16 '}' = none := by decide
    have more : (index != 3) = true := by simpa using some
    rw [Digit.text, List.map_nil, List.nil_append, bracedDigits, none]
    simp [more, Digit.numberFrom]
  | cons digit digits ih =>
    have inside : ¬ 0x10FFFF < code * 16 + digit.value :=
      Nat.not_lt.mpr (Nat.le_trans (Digit.le_numberFrom (by decide) _ digits) small)
    rw [List.length_cons] at some
    rw [Digit.text, List.map_cons, List.cons_append, bracedDigits, digit.reads]
    dsimp only
    rw [if_neg inside]
    refine (ih small (by omega)).trans ?_
    rw [List.length_cons]
    congr 1
    omega

/-- A code point in braces, which may be a surrogate. -/
theorem unicode_braced_of_le {digits : List (Digit 16)} (some : digits ≠ [])
    (small : Digit.number digits ≤ 0x10FFFF) (rest : List Char) :
    unicode ('\\' :: 'u' :: '{' :: (Digit.text digits ++ '}' :: rest)) =
      .success (digits.length + 4) ⟨Digit.number digits, true⟩ := by
  have length := List.length_pos_iff.mpr some
  rw [unicode]
  refine (bracedDigits_text rest small (by omega)).trans ?_
  congr 1
  omega

/-- A code point in braces. -/
theorem unicode_braced {digits : List (Digit 16)} (some : digits ≠ [])
    (isChar : (Digit.number digits).isValidChar) (rest : List Char) :
    unicode ('\\' :: 'u' :: '{' :: (Digit.text digits ++ '}' :: rest)) =
      .success (digits.length + 4) ⟨Digit.number digits, true⟩ := by
  refine unicode_braced_of_le some ?_ rest
  rcases isChar with low | ⟨_, high⟩ <;> omega

/-- A code point with four digits. -/
theorem unicode_four {digits : List (Digit 16)} (four : digits.length = 4) (rest : List Char) :
    unicode ('\\' :: 'u' :: (Digit.text digits ++ rest)) =
      .success 6 ⟨Digit.number digits, false⟩ := by
  have taken : (Digit.text digits ++ rest).take 4 = Digit.text digits :=
    List.take_left' (by rw [Digit.length_text, four])
  have values : leadingDigits 16 (Digit.text digits) = digits.map Digit.value := by
    simpa [leadingDigits] using Digit.leadingDigits_text digits []
  have notBrace : ∀ others, Digit.text digits ++ rest ≠ '{' :: others := by
    intro others same
    cases digits with
    | nil => cases four
    | cons digit digits =>
      have none : digitOf? 16 '{' = none := by decide
      have read := digit.reads
      rw [(List.cons.inj same).1, none] at read
      cases read
  rw [unicode]
  · rw [taken, values, if_pos (by rw [List.length_map, four]), Digit.number_eq]
  · exact notBrace

theorem unicodeInString_of_isChar {text : List Char} {length : Nat} {point : CodePoint}
    (read : unicode text = .success length point) (isChar : point.code.isValidChar) :
    unicodeInString text = .success length ⟨[Char.ofNat point.code], point.flags⟩ := by
  rw [unicodeInString, read]
  dsimp only
  rw [not_high_of_isChar isChar, charOfCode_of_isChar isChar]

/-- How many digits an octal escape may have. -/
def octalBound (first : Digit 8) : Nat :=
  if first.value ≤ 3 then 3 else 2

theorem octalBound_eq (first : Digit 8) :
    (if first.char ≤ '3' then 3 else 2) = octalBound first := by
  have same := first.toNat_octal
  have iff : first.char ≤ '3' ↔ first.value ≤ 3 := by
    change first.char.toNat ≤ 51 ↔ _
    omega
  simp only [octalBound, iff]

/-- An octal escape that cannot be longer has all digits it may have, or no digit comes next. -/
theorem octalBound_of_ends {first : Digit 8} {digits : List (Digit 8)} {next : Char}
    (three : (first :: digits).length ≤ 3) (byte : Digit.number (first :: digits) ≤ 255)
    (ends : ∀ digit : Digit 8, digit.char = next →
      (first :: digits).length = 3 ∨ 255 < Digit.number (first :: digits ++ [digit])) :
    (first :: digits).length = octalBound first ∨
      (first :: digits).length < octalBound first ∧ digitOf? 8 next = none := by
  have small := first.value_lt
  -- One more digit would not make the number too large.
  have none (fits : ∀ value, value < 8 → (first :: digits).length ≠ 3 ∧
      Digit.numberFrom 0 (first :: digits) * 8 + value ≤ 255) : digitOf? 8 next = none := by
    rw [Option.eq_none_iff_forall_ne_some]
    intro value read
    obtain ⟨short, low⟩ := fits value (digitOf?_lt read)
    have larger := ends ⟨next, value, read⟩ rfl
    rw [Digit.number, Digit.numberFrom_concat] at larger
    dsimp only at larger
    omega
  match digits, three with
  | [], _ =>
    right
    constructor
    · unfold octalBound
      split <;> simp
    · refine none fun value low => ⟨by simp, ?_⟩
      simp only [Digit.numberFrom, List.map_cons, List.map_nil, List.foldl_cons, List.foldl_nil]
      omega
  | [second], _ =>
    have smallToo := second.value_lt
    by_cases low : first.value ≤ 3
    · right
      rw [octalBound, if_pos low]
      refine ⟨by simp, none fun value lowToo => ⟨by simp, ?_⟩⟩
      simp only [Digit.numberFrom, List.map_cons, List.map_nil, List.foldl_cons, List.foldl_nil]
      omega
    · left
      rw [octalBound, if_neg low]
      rfl
  | [second, third], _ =>
    left
    simp only [Digit.number, Digit.numberFrom, List.map_cons, List.map_nil, List.foldl_cons,
      List.foldl_nil] at byte
    rw [octalBound, if_pos (by omega)]
    rfl

/-- The digits of an octal escape are all that are read, if it cannot be longer. -/
theorem leadingDigits_octal {first : Digit 8} {digits : List (Digit 8)} {next : Char}
    (ends : (first :: digits).length = octalBound first ∨
      (first :: digits).length < octalBound first ∧ digitOf? 8 next = none) (rest : List Char) :
    leadingDigits 8 ((Digit.text (first :: digits) ++ next :: rest).take (octalBound first)) =
      (first :: digits).map Digit.value := by
  have within : (first :: digits).length ≤ octalBound first :=
    ends.elim Nat.le_of_eq fun shorter => Nat.le_of_lt shorter.1
  rw [List.take_append, List.take_of_length_le (by simpa using within), Digit.length_text,
    Digit.leadingDigits_text]
  have stop : leadingDigits 8 ((next :: rest).take (octalBound first - (first :: digits).length)) =
      [] := by
    rcases ends with same | ⟨shorter, none⟩
    · rw [same, Nat.sub_self]
      rfl
    · obtain ⟨more, same⟩ := Nat.exists_eq_add_of_lt shorter
      rw [same, Nat.add_assoc, Nat.add_sub_cancel_left, List.take_succ_cons, leadingDigits, none]
  rw [stop, List.append_nil]

/-- An octal escape that cannot be longer. -/
theorem octalInString_text {first : Digit 8} {digits : List (Digit 8)} {next : Char}
    (three : (first :: digits).length ≤ 3) (byte : Digit.number (first :: digits) ≤ 255)
    (ends : ∀ digit : Digit 8, digit.char = next →
      (first :: digits).length = 3 ∨ 255 < Digit.number (first :: digits ++ [digit]))
    (rest : List Char) :
    octalInString first.char (Digit.text digits ++ next :: rest) =
      .success (first :: digits).length.succ
        ⟨[Char.ofNat (Digit.number (first :: digits))],
          { octalEscape := Digit.text (first :: digits) != ['0'] || next.isDigit }⟩ := by
  have read := leadingDigits_octal (octalBound_of_ends three byte ends) rest
  rw [← octalBound_eq] at read
  have whole : first.char :: (Digit.text digits ++ next :: rest) =
      Digit.text (first :: digits) ++ next :: rest := rfl
  rw [octalInString, whole, read, List.length_map, ← Digit.number_eq,
    charOfCode_of_isChar (isValidChar_of_byte byte)]
  cases digits with
  | nil => cases zero : first.char == '0' <;> simp_all [Digit.text]
  | cons second digits =>
    have long : ((first :: second :: digits).length == 1) = false := by simp
    have differs : (Digit.text (first :: second :: digits) != ['0']) = true := by simp [Digit.text]
    rw [long, differs, Nat.add_comm]
    simp

/-- A character behind a backslash that begins no longer escape. -/
theorem inString_of_char {char : Char} {rest : List Char} (noLetter : char ∉ ['x', 'u'])
    (noPair : char = '\r' → rest.head? ≠ some '\n') :
    inString ('\\' :: char :: rest) =
      if isLineTerminator char then .success 2 ⟨[], {}⟩
      else if '0' ≤ char ∧ char ≤ '7' then octalInString char rest
      else if char = '8' ∨ char = '9' then .success 2 ⟨[char], { uselessEscape := true }⟩
      else .success 2 ⟨[(controlCharacter? char).getD char], {}⟩ := by
  simp only [List.mem_cons, List.not_mem_nil, or_false, not_or] at noLetter
  rw [inString]
  · rintro others isReturn rfl
    exact noPair isReturn rfl
  · exact noLetter.1
  · exact noLetter.2

/-- The text of an escape is read as what the escape stands for. -/
theorem inString_text {quote next : Char} {element : StringElement quote}
    (ends : element.EndsBefore next) (notFeed : next ≠ '\n')
    (escape : element.text.head? = some '\\') (rest : List Char) :
    inString (element.text ++ next :: rest) =
      .success element.text.length ⟨element.meaning, element.flags next⟩ := by
  cases element with
  | plain char isPlain =>
    cases escape
    simp at isPlain
  | hexadecimal high low =>
    have highLt := high.value_lt
    have lowLt := low.value_lt
    have digits : leadingDigits 16 ((high.char :: low.char :: next :: rest).take 2) =
        [high.value, low.value] := by
      simp [leadingDigits, high.reads, low.reads]
    change inString ('\\' :: 'x' :: high.char :: low.char :: next :: rest) = _
    rw [inString, digits]
    dsimp only
    rw [charOfCode_of_isChar (isValidChar_of_byte (by omega))]
    rfl
  | codePoint digits four isChar =>
    have read := unicodeInString_of_isChar (unicode_four four (next :: rest)) isChar
    change inString ('\\' :: 'u' :: (Digit.text digits ++ next :: rest)) = _
    have length : (codePoint digits four isChar : StringElement quote).text.length = 6 := by
      simp [text, four]
    rw [inString, read, length]
    rfl
  | braced digits some isChar =>
    have read := unicodeInString_of_isChar (unicode_braced some isChar (next :: rest)) isChar
    have length : (braced digits some isChar : StringElement quote).text.length =
        digits.length + 4 := by
      simp [text]
    have whole : (braced digits some isChar : StringElement quote).text ++ next :: rest =
        '\\' :: 'u' :: '\x7b' :: (Digit.text digits ++ '\x7d' :: next :: rest) := by
      simp [text]
    rw [whole, inString, read, length]
    rfl
  | control letter meaning known =>
    simp only [List.mem_cons, Prod.mk.injEq, List.not_mem_nil, or_false] at known
    rcases known with ⟨rfl, rfl⟩ | ⟨rfl, rfl⟩ | ⟨rfl, rfl⟩ | ⟨rfl, rfl⟩ | ⟨rfl, rfl⟩ |
      ⟨rfl, rfl⟩ <;> rfl
  | octal digits nonempty three byte =>
    obtain ⟨first, digits, rfl⟩ := List.exists_cons_of_ne_nil nonempty
    have read := octalInString_text three byte ends rest
    have range := first.range_octal
    have noTerminator := isLineTerminator_of_digitOf? first.reads
    have noLetter : first.char ∉ ['x', 'u'] := by
      intro member
      simp only [List.mem_cons, List.not_mem_nil, or_false] at member
      rcases member with same | same <;> exact absurd range (same ▸ by decide)
    have noReturn : first.char = '\r' → (Digit.text digits ++ next :: rest).head? ≠ some '\n' :=
      fun same => absurd range (same ▸ by decide)
    have length : (octal (first :: digits) nonempty three byte : StringElement quote).text.length =
        (first :: digits).length.succ := by
      simp [text]
    change inString ('\\' :: first.char :: (Digit.text digits ++ next :: rest)) = _
    rw [inString_of_char noLetter noReturn, if_neg (by simp [noTerminator]), if_pos range, read,
      length]
    rfl
  | useless digit known =>
    simp only [List.mem_cons, List.not_mem_nil, or_false] at known
    rcases known with rfl | rfl <;> rfl
  | escaped char noDigit noTerminator noLetter =>
    have others : char ∉ ['x', 'u'] := by
      intro member
      simp only [List.mem_cons, List.not_mem_nil, or_false] at member
      rcases member with rfl | rfl <;> exact noLetter (by decide)
    have noReturn : char = '\r' → (next :: rest).head? ≠ some '\n' := by
      rintro rfl
      cases noTerminator
    have noOctal : ¬ ('0' ≤ char ∧ char ≤ '7') := fun range =>
      absurd (isDigit_of_le range) (by simp [noDigit])
    have useful : ¬ (char = '8' ∨ char = '9') := by
      rintro (rfl | rfl) <;> cases noDigit
    have noControl : controlCharacter? char = none := by
      unfold controlCharacter?
      split <;> first | rfl | exact absurd (by decide) noLetter
    refine (inString_of_char others noReturn).trans ?_
    rw [if_neg (by simp [noTerminator]), if_neg noOctal, if_neg useful, noControl]
    rfl
  | continuation terminator known =>
    simp only [List.mem_cons, List.not_mem_nil, or_false] at known
    rcases known with rfl | rfl | rfl | rfl | rfl
    · rfl
    · rfl
    · refine (inString_of_char (by decide) fun _ => ?_).trans rfl
      exact fun same => notFeed (Option.some.inj same)
    · rfl
    · rfl

end Escape

/-! ### Whole strings -/

namespace StringElement

variable {quote : Char} {elements : List (StringElement quote)}

/-- Every element ends in front of what comes behind it. -/
def Fit (elements : List (StringElement quote)) : Prop :=
  ∀ element behind, element :: behind <:+ elements → element.EndsBefore (first behind)

/-- The text of some elements in quotes. -/
def literal (elements : List (StringElement quote)) : List Char :=
  quote :: (elements.flatMap text ++ [quote])

/-- What some elements add to the flags of their string. -/
def allFlags : List (StringElement quote) → Flags
  | [] => {}
  | element :: elements => (element.flags (first elements)).union (allFlags elements)

theorem text_ne_nil (element : StringElement quote) : element.text ≠ [] := by
  cases element <;> exact List.cons_ne_nil _ _

/-- No element begins with a line feed. -/
theorem head_text_ne (element : StringElement quote) : element.text.head? ≠ some '\n' := by
  cases element with
  | plain char isPlain =>
    rintro ⟨⟩
    exact isPlain (by simp)
  | _ => simp [text]

/-- What is behind an element begins with the next element or the closing quote. -/
theorem exists_first (elements : List (StringElement quote)) (back : List Char) :
    ∃ rest, elements.flatMap text ++ quote :: back = first elements :: rest := by
  unfold first
  cases elements.flatMap text with
  | nil => exact ⟨back, rfl⟩
  | cons char others => exact ⟨others ++ quote :: back, rfl⟩

theorem first_ne_newline (notFeed : quote ≠ '\n') : first elements ≠ '\n' := by
  cases elements with
  | nil => exact notFeed
  | cons element elements =>
    have some := element.text_ne_nil
    have head := element.head_text_ne
    unfold first
    cases inside : element.text with
    | nil => exact absurd inside some
    | cons char others => simpa [inside] using head

theorem fit_nil : Fit ([] : List (StringElement quote)) :=
  fun _ _ inside => absurd (List.suffix_nil.mp inside) (List.cons_ne_nil _ _)

theorem fit_cons {element : StringElement quote} :
    Fit (element :: elements) ↔ element.EndsBefore (first elements) ∧ Fit elements := by
  constructor
  · intro fit
    exact ⟨fit element elements List.suffix_rfl,
      fun other behind inside => fit other behind (inside.trans (List.suffix_cons _ _))⟩
  · rintro ⟨here, fit⟩ other behind inside
    rcases List.suffix_cons_iff.mp inside with same | later
    · obtain ⟨rfl, rfl⟩ := List.cons.inj same
      exact here
    · exact fit other behind later

end StringElement

namespace StringLiteral

open StringElement

variable {quote : Char}

/-- A quote is no backslash and no line feed. -/
theorem ne_of_isQuote (isQuote : quote = '"' ∨ quote = '\'') : quote ≠ '\\' ∧ quote ≠ '\n' := by
  rcases isQuote with rfl | rfl <;> decide

/-- One element is read. -/
theorem readFrom_element {next : Char} {element : StringElement quote}
    (ends : element.EndsBefore next) (notFeed : next ≠ '\n') (index : Nat) (value : List Char)
    (flags : Flags) (rest : List Char) :
    readFrom quote index value flags (element.text ++ next :: rest) =
      readFrom quote (index + element.text.length) (element.meaning.reverse ++ value)
        (flags.union (element.flags next)) (next :: rest) := by
  by_cases escape : element.text.head? = some '\\'
  · obtain ⟨inside, same⟩ := List.head?_eq_some_iff.mp escape
    have read := Escape.inString_text ends notFeed escape rest
    rw [same, List.cons_append] at read ⊢
    rw [readFrom]
    · rw [read]
      simp
    · simp
  · cases element with
    | plain char isPlain =>
      simp only [List.mem_cons, List.not_mem_nil, or_false, not_or] at isPlain
      obtain ⟨notQuote, notSlash, notLine⟩ := isPlain
      change readFrom quote index value flags (char :: next :: rest) = _
      rw [readFrom]
      · rw [if_neg notQuote, if_neg (not_or.mpr notLine)]
        exact congrArg (readFrom quote _ _ · _) (Flags.union_none flags).symm
      · intro isSlash _
        exact notSlash isSlash
      · exact notSlash
    | _ => exact absurd rfl escape

/-- All elements are read up to the closing quote. -/
theorem readFrom_elements {elements : List (StringElement quote)}
    (isQuote : quote = '"' ∨ quote = '\'') (fit : Fit elements) (index : Nat) (value : List Char)
    (flags : Flags) (back : List Char) :
    readFrom quote index value flags (elements.flatMap text ++ quote :: back) =
      .success (index + (elements.flatMap text).length + 1)
        (String.ofList (value.reverse ++ elements.flatMap meaning),
          flags.union (allFlags elements)) := by
  obtain ⟨notSlash, notFeed⟩ := ne_of_isQuote isQuote
  induction elements generalizing index value flags with
  | nil =>
    rw [List.flatMap_nil, List.nil_append, readFrom]
    · simp [allFlags, Flags.union_none]
    · exact fun isSlash _ => notSlash isSlash
    · exact notSlash
  | cons element elements ih =>
    obtain ⟨rest, same⟩ := exists_first elements back
    have behind : (element :: elements).flatMap text ++ quote :: back =
        element.text ++ first elements :: rest := by
      rw [List.flatMap_cons, List.append_assoc, same]
    obtain ⟨here, later⟩ := fit_cons.mp fit
    rw [behind, readFrom_element here (first_ne_newline notFeed), ← same, ih later,
      Flags.union_assoc]
    simp [allFlags, Nat.add_assoc]

end StringLiteral

/-- A string of some elements, as a token. -/
structure Token.IsStringOf {quote : Char} (token : Token) (elements : List (StringElement quote)) :
    Prop where
  lexeme : token.lexeme = .string (String.ofList (elements.flatMap StringElement.meaning))
  text : token.text = String.ofList (StringElement.literal elements)
  unicodeEscape : token.flags.unicodeEscape = true ↔
    ∃ element ∈ elements, element.isCodePoint = true
  bracedEscape : token.flags.bracedEscape = true ↔ ∃ element ∈ elements, element.isBraced = true
  octalEscape : token.flags.octalEscape = true ↔ ∃ element behind,
    element :: behind <:+ elements ∧ element.isOctalBefore (StringElement.first behind) = true
  uselessEscape : token.flags.uselessEscape = true ↔ ∃ element ∈ elements, element.isUseless = true
  /-- No other flag is set. -/
  others : token.flags =
    { unicodeEscape := token.flags.unicodeEscape, bracedEscape := token.flags.bracedEscape
      octalEscape := token.flags.octalEscape, uselessEscape := token.flags.uselessEscape }

namespace StringElement

variable {quote : Char} {elements : List (StringElement quote)}

/-- A flag of a string is that of one of its elements. -/
theorem flag_allFlags {flag : Flags → Bool} (none : flag {} = false)
    (union : ∀ left right, flag (left.union right) = (flag left || flag right)) :
    flag (allFlags elements) = true ↔ ∃ element behind,
      element :: behind <:+ elements ∧ flag (element.flags (first behind)) = true := by
  induction elements with
  | nil => simp [allFlags, none]
  | cons element elements ih =>
    rw [allFlags, union, Bool.or_eq_true, ih]
    simp [List.suffix_cons_iff, or_and_right, exists_or]

theorem exists_suffix_iff {holds : StringElement quote → Bool} :
    (∃ element behind, element :: behind <:+ elements ∧ holds element = true) ↔
      ∃ element ∈ elements, holds element = true := by
  constructor
  · rintro ⟨element, behind, inside, found⟩
    exact ⟨element, inside.subset List.mem_cons_self, found⟩
  · rintro ⟨element, member, found⟩
    obtain ⟨front, behind, rfl⟩ := List.append_of_mem member
    exact ⟨element, behind, List.suffix_append _ _, found⟩

theorem unicodeEscape_allFlags :
    (allFlags elements).unicodeEscape = true ↔ ∃ element ∈ elements, element.isCodePoint = true :=
  (flag_allFlags rfl fun _ _ => rfl).trans exists_suffix_iff

theorem bracedEscape_allFlags :
    (allFlags elements).bracedEscape = true ↔ ∃ element ∈ elements, element.isBraced = true :=
  (flag_allFlags rfl fun _ _ => rfl).trans exists_suffix_iff

theorem octalEscape_allFlags :
    (allFlags elements).octalEscape = true ↔ ∃ element behind,
      element :: behind <:+ elements ∧ element.isOctalBefore (first behind) = true :=
  flag_allFlags rfl fun _ _ => rfl

theorem uselessEscape_allFlags :
    (allFlags elements).uselessEscape = true ↔ ∃ element ∈ elements, element.isUseless = true :=
  (flag_allFlags rfl fun _ _ => rfl).trans exists_suffix_iff

theorem allFlags_eq (elements : List (StringElement quote)) :
    allFlags elements =
      { unicodeEscape := (allFlags elements).unicodeEscape
        bracedEscape := (allFlags elements).bracedEscape
        octalEscape := (allFlags elements).octalEscape
        uselessEscape := (allFlags elements).uselessEscape } := by
  induction elements with
  | nil => rfl
  | cons element elements ih =>
    rw [allFlags, ih]
    simp [Flags.union, flags]

end StringElement

/-- Strings element by element. The text of any elements between quotes, each of which ends in front
of what comes behind it, is scanned as one string token that takes up this text and nothing behind
it. Its value is what the elements stand for, one after the other, and its flags say which kinds of
escapes are among them. -/
theorem Scan.token_of_elements {quote : Char} (isQuote : quote = '"' ∨ quote = '\'')
    {elements : List (StringElement quote)} (fit : StringElement.Fit elements) {cursor : Cursor}
    {back : List Char} (here : cursor.rest = StringElement.literal elements ++ back) :
    ∃ token after, Scan.token cursor = .ok token after ∧ token.IsStringOf elements ∧
      token.start = cursor.offset ∧
      token.stop = cursor.offset + (StringElement.literal elements).length ∧
      token.span =
        ⟨cursor.position, cursor.position.afterLiteral (StringElement.literal elements)⟩ ∧
      after = ⟨back, token.stop, token.span.stop⟩ := by
  have between : Trivia.read cursor.rest = .success 0 false := by
    rw [here, StringElement.literal, List.cons_append]
    rcases isQuote with rfl | rfl <;>
      simp [Trivia.read, Trivia.readFrom, isLineTerminator, isWhiteSpace]
  have whole : StringElement.literal elements ++ back =
      quote :: (elements.flatMap StringElement.text ++ quote :: back) := by
    simp [StringElement.literal]
  have inside := StringLiteral.readFrom_elements isQuote fit 1 [] {} back
  have found : Lexeme.read cursor.rest = .success (StringElement.literal elements).length
      (.string (String.ofList (elements.flatMap StringElement.meaning)),
        StringElement.allFlags elements) := by
    rw [here, whole, Lexeme.read, if_pos isQuote, StringLiteral.read, inside]
    simp [StringElement.literal, Reading.map, Flags.none_union, Nat.add_comm]
  have walk : Lexeme.walk cursor.rest = Position.afterLiteral := by
    rw [here, whole, Lexeme.walk, if_pos]
    simpa using isQuote
  have moved : (cursor.pass 0).moveBy (Lexeme.walk (cursor.rest.drop 0))
      (StringElement.literal elements).length =
        ⟨back, cursor.offset + (StringElement.literal elements).length,
          cursor.position.afterLiteral (StringElement.literal elements)⟩ := by
    rw [Cursor.pass_zero, List.drop_zero, walk, Cursor.moveBy, here]
    simp
  have taken : (cursor.rest.drop 0).take (StringElement.literal elements).length =
      StringElement.literal elements := by
    rw [List.drop_zero, here, List.take_left]
  refine ⟨_, _, token_eq_ok.mpr ⟨0, false, _, _, _, between, found, rfl, rfl⟩, ?_, ?_, ?_, ?_, ?_⟩
  · exact ⟨rfl, congrArg String.ofList taken, StringElement.unicodeEscape_allFlags,
      StringElement.bracedEscape_allFlags, StringElement.octalEscape_allFlags,
      StringElement.uselessEscape_allFlags,
      congrArg (fun flags : Flags => { flags with lineBreak := false })
        (StringElement.allFlags_eq elements)⟩
  · rw [Cursor.pass_zero]
  · rw [moved]
  · rw [moved, Cursor.pass_zero]
  · rw [moved]

/-- A code point in braces, a zero in front of an eight, and a line continuation. -/
theorem Scan.token_of_zero_eight :
    ∃ (elements : List (StringElement '"')) (token : Token) (after : Cursor),
      StringElement.Fit elements ∧
      String.ofList (StringElement.literal elements) = "\"\\u\x7b041\x7d\\08\\\r\n\"" ∧
      Scan.token (Cursor.atStart "\"\\u\x7b041\x7d\\08\\\r\n\"") = .ok token after ∧
      token.IsStringOf elements ∧ token.lexeme = .string "A\x008" ∧ after.rest = [] := by
  let elements : List (StringElement '"') :=
    [.braced [⟨'0', 0, rfl⟩, ⟨'4', 4, rfl⟩, ⟨'1', 1, rfl⟩] (by simp) (by decide),
      .octal [⟨'0', 0, rfl⟩] (by simp) (by decide) (by decide), .plain '8' (by decide),
      .continuation ['\r', '\n'] (by simp)]
  have fit : StringElement.Fit elements := by
    refine StringElement.fit_cons.mpr ⟨trivial, StringElement.fit_cons.mpr ⟨?_,
      StringElement.fit_cons.mpr ⟨trivial, StringElement.fit_cons.mpr
        ⟨trivial, StringElement.fit_nil⟩⟩⟩⟩
    -- An eight is no octal digit, so that the zero is the only one.
    exact fun digit same => absurd digit.range_octal (same ▸ by decide)
  obtain ⟨token, after, scanned, isString, -, -, -, rfl⟩ :=
    Scan.token_of_elements (.inl rfl) fit
      (show (Cursor.atStart "\"\\u\x7b041\x7d\\08\\\r\n\"").rest =
        StringElement.literal elements ++ [] by decide)
  exact ⟨elements, token, _, fit, by decide, scanned, isString, isString.lexeme.trans rfl, rfl⟩

end EcmaScript
