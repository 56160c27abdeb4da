import EcmaScript.Proofs.EscapedPoints

/-!
# Code units in strings

An escape of a string may write any 16-bit code unit, a half of a surrogate pair too. A run of such
escapes is decoded as UTF-16: a high surrogate and a low one directly behind it are one character,
and every other surrogate is replaced. To find the second half a reader has to read one more escape
and, when that is none, to read it again; the run is decoded all the same, wherever it stands among
the other elements of a string.
-/

namespace EcmaScript

/-! ### UTF-16 -/

namespace Utf16

open Escape

/-- The characters that some code units stand for. -/
def decode : List Nat → List Char
  | [] => []
  | [unit] => [charOfCode unit]
  | high :: low :: units =>
    if isHighSurrogate high && isLowSurrogate low then
      charOfCode (joinSurrogates high low) :: decode units
    else charOfCode high :: decode (low :: units)

/-- The code units of a character. -/
def encode (char : Char) : List Nat :=
  if char.toNat < 0x10000 then [char.toNat]
  else [0xD800 + (char.toNat - 0x10000) / 0x400, 0xDC00 + (char.toNat - 0x10000) % 0x400]

theorem decode_pair {high low : Nat} (isHigh : isHighSurrogate high = true)
    (isLow : isLowSurrogate low = true) (units : List Nat) :
    decode (high :: low :: units) = charOfCode (joinSurrogates high low) :: decode units := by
  rw [decode, isHigh, isLow, Bool.and_self, if_pos rfl]

/-- A code unit that is no first half of a pair stands for itself. -/
theorem decode_alone {unit : Nat} {units : List Nat}
    (alone : isHighSurrogate unit = true → ∀ low ∈ units.head?, isLowSurrogate low = false) :
    decode (unit :: units) = charOfCode unit :: decode units := by
  cases units with
  | nil => rfl
  | cons low units =>
    rw [decode, if_neg]
    rw [Bool.and_eq_true]
    rintro ⟨isHigh, isLow⟩
    rw [alone isHigh low rfl] at isLow
    contradiction

theorem isValidChar_toNat (char : Char) : char.toNat.isValidChar :=
  char.valid

theorem charOfCode_toNat (char : Char) : charOfCode char.toNat = char := by
  rw [charOfCode_of_isChar (isValidChar_toNat char), Char.ofNat_toNat]

/-- The code units of a character, in front of any others, stand for the character. -/
theorem decode_encode_append (char : Char) (units : List Nat) :
    decode (encode char ++ units) = char :: decode units := by
  unfold encode
  split
  · have alone : isHighSurrogate char.toNat = true →
        ∀ low ∈ units.head?, isLowSurrogate low = false := by
      rw [not_high_of_isChar (isValidChar_toNat char)]
      exact nofun
    rw [List.singleton_append, decode_alone alone, charOfCode_toNat]
  · rename_i large
    have bound : char.toNat < 0x110000 := by
      rcases isValidChar_toNat char with low | high <;> omega
    have isHigh : isHighSurrogate (0xD800 + (char.toNat - 0x10000) / 0x400) = true := by
      simp only [isHighSurrogate, Bool.and_eq_true, decide_eq_true_eq]
      omega
    have isLow : isLowSurrogate (0xDC00 + (char.toNat - 0x10000) % 0x400) = true := by
      simp only [isLowSurrogate, Bool.and_eq_true, decide_eq_true_eq]
      omega
    have joined : joinSurrogates (0xD800 + (char.toNat - 0x10000) / 0x400)
        (0xDC00 + (char.toNat - 0x10000) % 0x400) = char.toNat := by
      unfold joinSurrogates
      omega
    refine (decode_pair isHigh isLow units).trans ?_
    rw [joined, charOfCode_toNat]

/-- Characters are decoded from their code units. -/
theorem decode_encode (chars : List Char) : decode (chars.flatMap encode) = chars := by
  induction chars with
  | nil => rfl
  | cons char chars ih => rw [List.flatMap_cons, decode_encode_append, ih]

/-- Two high surrogates, a low one and another low one. -/
example : decode [0xD83D, 0xD83D, 0xDE00, 0xDE00] = ['\ufffd', '😀', '\ufffd'] := by decide

end Utf16

/-! ### Escapes of code units -/

/-- A 16-bit code unit that is written as an escape. -/
structure CodeUnit where
  escape : EscapedPoint
  small : escape.code < 0x10000

namespace CodeUnit

/-- The text of the escape. -/
def text (unit : CodeUnit) : List Char :=
  unit.escape.text

/-- The code unit itself. -/
def value (unit : CodeUnit) : Nat :=
  unit.escape.code

/-- What some escapes add to the flags of their string. -/
def allFlags (units : List CodeUnit) : Flags :=
  units.foldr (fun unit flags => unit.escape.flags.union flags) {}

/-- What some escapes stand for. -/
def decode (units : List CodeUnit) : List Char :=
  Utf16.decode (units.map value)

/-- Four digits always write a code unit. -/
def ofDigits (digits : List (Digit 16)) (four : digits.length = 4) : CodeUnit where
  escape := .four digits four
  small := by simpa [EscapedPoint.code, four] using Digit.number_lt digits

theorem exists_text (unit : CodeUnit) : ∃ inside, unit.text = '\\' :: 'u' :: inside :=
  unit.escape.exists_text

theorem unicode_text (unit : CodeUnit) (rest : List Char) :
    Escape.unicode (unit.text ++ rest) =
      .success unit.text.length ⟨unit.value, unit.escape.isBraced⟩ :=
  unit.escape.unicode_text rest

end CodeUnit

namespace Escape

/-- No second half of a surrogate pair is at the front of a text: if an escape of a code point
begins there, it is whole and names something else. -/
def Unpaired (text : List Char) : Prop :=
  ∀ inside, text = '\\' :: 'u' :: inside →
    ∃ length point, unicode text = .success length point ∧ isLowSurrogate point.code = false

theorem unpaired_unit {unit : CodeUnit} (notLow : isLowSurrogate unit.value = false)
    (rest : List Char) : Unpaired (unit.text ++ rest) :=
  fun _ _ => ⟨_, _, unit.unicode_text rest, notLow⟩

theorem unpaired_of_ne {char : Char} (notSlash : char ≠ '\\') (rest : List Char) :
    Unpaired (char :: rest) :=
  fun _ same => absurd (List.cons.inj same).1 notSlash

/-- No other element is a second half: where one names a code point, that is a character. -/
theorem unpaired_element {quote : Char} (element : StringElement quote) (rest : List Char) :
    Unpaired (element.text ++ rest) := by
  have notLow {code : Nat} (isChar : code.isValidChar) : isLowSurrogate code = false := by
    simp only [isLowSurrogate, Bool.and_eq_false_iff, decide_eq_false_iff_not]
    rcases isChar with low | ⟨high, _⟩ <;> omega
  -- Any other escape has a second character that is no `u`.
  have other {second : Char} {inside : List Char} (differs : second ≠ 'u') :
      Unpaired ('\\' :: second :: inside) :=
    fun _ same => absurd (List.cons.inj (List.cons.inj same).2).1 differs
  cases element with
  | plain char isPlain =>
    refine unpaired_of_ne ?_ rest
    rintro rfl
    simp at isPlain
  | hexadecimal high low => exact other (by decide)
  | codePoint digits four isChar =>
    exact fun _ _ => ⟨6, ⟨Digit.number digits, false⟩, unicode_four four rest, notLow isChar⟩
  | braced digits some isChar =>
    intro inside _
    refine ⟨digits.length + 4, ⟨Digit.number digits, true⟩, ?_, notLow isChar⟩
    have whole : (StringElement.braced digits some isChar : StringElement quote).text ++ rest =
        '\\' :: 'u' :: '{' :: (Digit.text digits ++ '}' :: rest) := by
      simp [StringElement.text]
    rw [whole]
    exact unicode_braced some isChar rest
  | control letter meaning known =>
    refine other ?_
    rintro rfl
    simp at known
  | octal digits some three byte =>
    obtain ⟨first, digits, rfl⟩ := List.exists_cons_of_ne_nil some
    refine other fun isLetter => ?_
    exact absurd first.range_octal (isLetter ▸ by decide)
  | useless digit known =>
    refine other ?_
    rintro rfl
    simp at known
  | escaped char noDigit noTerminator noLetter =>
    refine other ?_
    rintro rfl
    simp at noLetter
  | continuation terminator known =>
    simp only [List.mem_cons, List.not_mem_nil, or_false] at known
    rcases known with rfl | rfl | rfl | rfl | rfl <;> exact other (by decide)

theorem inString_unit (unit : CodeUnit) (rest : List Char) :
    inString (unit.text ++ rest) = unicodeInString (unit.text ++ rest) := by
  obtain ⟨inside, same⟩ := unit.exists_text
  rw [same]
  rfl

/-- The two halves of a surrogate pair are read together. -/
theorem inString_pair {high low : CodeUnit} (isHigh : isHighSurrogate high.value = true)
    (isLow : isLowSurrogate low.value = true) (rest : List Char) :
    inString (high.text ++ (low.text ++ rest)) =
      .success (high.text.length + low.text.length)
        ⟨[charOfCode (joinSurrogates high.value low.value)],
          high.escape.flags.union low.escape.flags⟩ := by
  obtain ⟨inside, same⟩ := low.exists_text
  have second := low.unicode_text rest
  rw [inString_unit, unicodeInString, high.unicode_text]
  dsimp only
  rw [isHigh, List.drop_left]
  simp only [same, List.cons_append] at second ⊢
  rw [second]
  simp only [isLow, if_true]
  rfl

/-- A code unit that is no first half of a pair is read alone. -/
theorem inString_alone (unit : CodeUnit) {rest : List Char}
    (alone : isHighSurrogate unit.value = true → Unpaired rest) :
    inString (unit.text ++ rest) =
      .success unit.text.length ⟨[charOfCode unit.value], unit.escape.flags⟩ := by
  rw [inString_unit, unicodeInString, unit.unicode_text]
  dsimp only
  rw [List.drop_left]
  split
  · rename_i inside isHigh
    obtain ⟨length, point, read, notLow⟩ := alone isHigh inside rfl
    rw [read]
    simp only [notLow]
    rfl
  · rfl

end Escape

namespace StringLiteral

open Escape

variable {quote : Char}

/-- An escape is read. -/
theorem readFrom_of_escape {front rest : List Char} {added : Contribution}
    (escape : ∃ inside, front = '\\' :: 'u' :: inside)
    (read : inString (front ++ rest) = .success front.length added) (index : Nat)
    (value : List Char) (flags : Flags) :
    readFrom quote index value flags (front ++ rest) =
      readFrom quote (index + front.length) (added.characters.reverse ++ value)
        (flags.union added.flags) rest := by
  obtain ⟨inside, rfl⟩ := escape
  rw [List.cons_append] at read ⊢
  rw [readFrom]
  · rw [read]
    simp
  · simp

/-- A run of code units is decoded up to what comes behind it. -/
theorem readFrom_units {rest : List Char} (unpaired : Unpaired rest) (index : Nat)
    (value : List Char) (flags : Flags) :
    ∀ units : List CodeUnit,
      readFrom quote index value flags (units.flatMap CodeUnit.text ++ rest) =
        readFrom quote (index + (units.flatMap CodeUnit.text).length)
          ((CodeUnit.decode units).reverse ++ value) (flags.union (CodeUnit.allFlags units)) rest
  | [] => by simp [CodeUnit.decode, CodeUnit.allFlags, Utf16.decode, Flags.union_none]
  | [unit] => by
    have read := inString_alone unit fun _ => unpaired
    rw [List.flatMap_singleton, readFrom_of_escape unit.exists_text read]
    simp [CodeUnit.decode, CodeUnit.allFlags, Utf16.decode, Flags.union_none]
  | first :: second :: units => by
    by_cases pair : isHighSurrogate first.value = true ∧ isLowSurrogate second.value = true
    · have read := inString_pair pair.1 pair.2 (units.flatMap CodeUnit.text ++ rest)
      rw [← List.append_assoc, ← List.length_append] at read
      have escape : ∃ inside, first.text ++ second.text = '\\' :: 'u' :: inside := by
        obtain ⟨inside, same⟩ := first.exists_text
        exact ⟨inside ++ second.text, by rw [same]; rfl⟩
      have whole : (first :: second :: units).flatMap CodeUnit.text ++ rest =
          (first.text ++ second.text) ++ (units.flatMap CodeUnit.text ++ rest) := by
        simp
      rw [whole, readFrom_of_escape escape read, readFrom_units unpaired _ _ _ units]
      simp [CodeUnit.decode, CodeUnit.allFlags, Utf16.decode_pair pair.1 pair.2,
        Flags.union_assoc, Nat.add_assoc]
    · have notLow (isHigh : isHighSurrogate first.value = true) :
          isLowSurrogate second.value = false := by
        rw [← Bool.not_eq_true]
        exact fun isLow => pair ⟨isHigh, isLow⟩
      have alone : CodeUnit.decode (first :: second :: units) =
          charOfCode first.value :: CodeUnit.decode (second :: units) :=
        Utf16.decode_alone fun isHigh => by
          rintro _ ⟨⟩
          exact notLow isHigh
      have unpairedSecond (isHigh : isHighSurrogate first.value = true) :
          Unpaired ((second :: units).flatMap CodeUnit.text ++ rest) := by
        rw [List.flatMap_cons, List.append_assoc]
        exact unpaired_unit (notLow isHigh) _
      have read := inString_alone first unpairedSecond
      rw [List.flatMap_cons, List.append_assoc, readFrom_of_escape first.exists_text read,
        readFrom_units unpaired _ _ _ (second :: units), alone]
      simp [CodeUnit.allFlags, Flags.union_assoc, Nat.add_assoc]

end StringLiteral

/-! ### Whole strings -/

/-- The inside of a string with runs of code units in it: a run at its front, and another one behind
each element that is in no run. A run may be empty. -/
structure CodeUnitString (quote : Char) where
  front : List CodeUnit
  others : List (StringElement quote × List CodeUnit)

namespace CodeUnitString

variable {quote : Char} {others : List (StringElement quote × List CodeUnit)}

/-- The text of some elements, each with its run. -/
def textOf (others : List (StringElement quote × List CodeUnit)) : List Char :=
  others.flatMap fun other => other.1.text ++ other.2.flatMap CodeUnit.text

/-- What some elements with their runs stand for: every run is decoded by itself. -/
def meaningOf (others : List (StringElement quote × List CodeUnit)) : List Char :=
  others.flatMap fun other => other.1.meaning ++ CodeUnit.decode other.2

/-- The character behind an element that has a run and some others behind it. -/
def follower (units : List CodeUnit) (others : List (StringElement quote × List CodeUnit)) : Char :=
  (units.flatMap CodeUnit.text ++ textOf others).headD quote

/-- What some elements with their runs add to the flags of their string. -/
def flagsOf : List (StringElement quote × List CodeUnit) → Flags
  | [] => {}
  | (element, units) :: others =>
    (element.flags (follower units others)).union ((CodeUnit.allFlags units).union (flagsOf others))

/-- The text between the quotes. -/
def body (string : CodeUnitString quote) : List Char :=
  string.front.flatMap CodeUnit.text ++ textOf string.others

/-- The text with its quotes. -/
def literal (string : CodeUnitString quote) : List Char :=
  quote :: (string.body ++ [quote])

/-- What the string stands for. -/
def meaning (string : CodeUnitString quote) : List Char :=
  CodeUnit.decode string.front ++ meaningOf string.others

/-- Which kinds of escapes are in the string. -/
def flags (string : CodeUnitString quote) : Flags :=
  (CodeUnit.allFlags string.front).union (flagsOf string.others)

/-- Every element ends in front of what comes behind it. -/
def FitOf (others : List (StringElement quote × List CodeUnit)) : Prop :=
  ∀ element units behind, (element, units) :: behind <:+ others →
    element.EndsBefore (follower units behind)

theorem fitOf_cons {element : StringElement quote} {units : List CodeUnit}
    (fit : FitOf ((element, units) :: others)) :
    element.EndsBefore (follower units others) ∧ FitOf others :=
  ⟨fit element units others List.suffix_rfl, fun other units behind inside =>
    fit other units behind (inside.trans (List.suffix_cons _ _))⟩

/-- The text behind an element begins with its follower. -/
theorem exists_follower (units : List CodeUnit)
    (others : List (StringElement quote × List CodeUnit)) (back : List Char) :
    ∃ rest, units.flatMap CodeUnit.text ++ (textOf others ++ quote :: back) =
      follower units others :: rest := by
  unfold follower
  rw [← List.append_assoc]
  cases units.flatMap CodeUnit.text ++ textOf others with
  | nil => exact ⟨back, rfl⟩
  | cons char inside => exact ⟨inside ++ quote :: back, rfl⟩

theorem follower_ne (units : List CodeUnit) (notFeed : quote ≠ '\n') :
    follower units others ≠ '\n' := by
  cases units with
  | cons unit units =>
    obtain ⟨inside, same⟩ := unit.exists_text
    simp [follower, same]
  | nil =>
    cases others with
    | nil => exact notFeed
    | cons other others =>
      have head := other.1.head_text_ne
      cases text : other.1.text with
      | nil => exact absurd text other.1.text_ne_nil
      | cons char inside => simpa [follower, textOf, text] using head

/-- No second half of a pair comes behind a run. -/
theorem unpaired_textOf (notSlash : quote ≠ '\\')
    (others : List (StringElement quote × List CodeUnit)) (back : List Char) :
    Escape.Unpaired (textOf others ++ quote :: back) := by
  cases others with
  | nil => exact Escape.unpaired_of_ne notSlash back
  | cons other others =>
    rw [textOf, List.flatMap_cons, List.append_assoc, List.append_assoc]
    exact Escape.unpaired_element other.1 _

end CodeUnitString

namespace StringLiteral

open CodeUnitString

variable {quote : Char}

/-- Elements with runs behind them are read up to the closing quote. -/
theorem readFrom_others {others : List (StringElement quote × List CodeUnit)}
    (isQuote : quote = '"' ∨ quote = '\'') (fit : FitOf others) (index : Nat) (value : List Char)
    (flags : Flags) (back : List Char) :
    readFrom quote index value flags (textOf others ++ quote :: back) =
      .success (index + (textOf others).length + 1)
        (String.ofList (value.reverse ++ meaningOf others), flags.union (flagsOf others)) := by
  obtain ⟨notSlash, notFeed⟩ := ne_of_isQuote isQuote
  induction others generalizing index value flags with
  | nil => simpa [textOf, meaningOf, flagsOf, StringElement.allFlags] using
      readFrom_elements isQuote StringElement.fit_nil index value flags back
  | cons other others ih =>
    obtain ⟨element, units⟩ := other
    obtain ⟨here, later⟩ := fitOf_cons fit
    obtain ⟨rest, behind⟩ := exists_follower units others back
    have whole : textOf ((element, units) :: others) ++ quote :: back =
        element.text ++ follower units others :: rest := by
      rw [← behind]
      simp [textOf]
    rw [whole, readFrom_element here (follower_ne units notFeed), ← behind,
      readFrom_units (unpaired_textOf notSlash others back), ih later]
    simp [textOf, meaningOf, flagsOf, Flags.union_assoc, Nat.add_assoc]

/-- A string with runs of code units is read. -/
theorem readFrom_body {string : CodeUnitString quote} (isQuote : quote = '"' ∨ quote = '\'')
    (fit : FitOf string.others) (index : Nat) (back : List Char) :
    readFrom quote index [] {} (string.body ++ quote :: back) =
      .success (index + string.body.length + 1)
        (String.ofList string.meaning, string.flags) := by
  have unpaired := unpaired_textOf (ne_of_isQuote isQuote).1 string.others back
  rw [body, List.append_assoc, readFrom_units unpaired, readFrom_others isQuote fit,
    Flags.none_union]
  simp [meaning, CodeUnitString.flags, Nat.add_assoc]

end StringLiteral

/-- Surrogates in strings. Take the text of any code units, each with four digits or in braces, or
of several runs of them with other elements between the runs. In quotes it is scanned as one string
token that takes up this text and nothing behind it. Each run is decoded as UTF-16 by itself, and so
the value of the token is what the runs and the elements stand for, one after the other. -/
theorem Scan.token_of_codeUnits {quote : Char} (isQuote : quote = '"' ∨ quote = '\'')
    {string : CodeUnitString quote} (fit : CodeUnitString.FitOf string.others) {cursor : Cursor}
    {back : List Char} (here : cursor.rest = string.literal ++ back) :
    ∃ token after, Scan.token cursor = .ok token after ∧
      token.lexeme = .string (String.ofList string.meaning) ∧
      token.flags = { string.flags with lineBreak := false } ∧
      token.text = String.ofList string.literal ∧ token.start = cursor.offset ∧
      token.stop = cursor.offset + string.literal.length ∧
      token.span = ⟨cursor.position, cursor.position.afterLiteral string.literal⟩ ∧
      after = ⟨back, token.stop, token.span.stop⟩ := by
  have whole : string.literal ++ back = quote :: (string.body ++ quote :: back) := by
    simp [CodeUnitString.literal]
  have none : Trivia.read cursor.rest = .success 0 false := by
    rw [here, whole]
    rcases isQuote with rfl | rfl <;>
      simp [Trivia.read, Trivia.readFrom, isLineTerminator, isWhiteSpace]
  have found : Lexeme.read cursor.rest = .success string.literal.length
      (.string (String.ofList string.meaning), string.flags) := by
    rw [here, whole, Lexeme.read, if_pos isQuote, StringLiteral.read,
      StringLiteral.readFrom_body isQuote fit 1 back]
    simp [CodeUnitString.literal, Reading.map, Nat.add_comm]
  have walk : Lexeme.walk cursor.rest = Position.afterLiteral := by
    rw [here, whole, Lexeme.walk, if_pos]
    simpa using isQuote
  refine ⟨_, _, token_of_lexeme here none found, rfl, rfl, rfl, rfl, rfl, ?_, rfl⟩
  rw [walk]

/-- Two first halves and a second one, and behind a dash the halves in the wrong order, in front of
a code point in braces. -/
theorem Scan.token_of_swapped_halves :
    ∃ (string : CodeUnitString '"') (token : Token) (after : Cursor),
      CodeUnitString.FitOf string.others ∧
      String.ofList string.literal =
        "\"\\uD83D\\u\x7b0D83D\x7d\\uDE00-\\u\x7bDE00\x7d\\uD83D\\u\x7b1F600\x7d\"" ∧
      Scan.token (Cursor.atStart (String.ofList string.literal)) = .ok token after ∧
      token.lexeme = .string "\ufffd😀-\ufffd\ufffd😀" ∧ after.rest = [] := by
  let first : List (Digit 16) := [⟨'D', 13, rfl⟩, ⟨'8', 8, rfl⟩, ⟨'3', 3, rfl⟩, ⟨'D', 13, rfl⟩]
  let second : List (Digit 16) := [⟨'D', 13, rfl⟩, ⟨'E', 14, rfl⟩, ⟨'0', 0, rfl⟩, ⟨'0', 0, rfl⟩]
  let string : CodeUnitString '"' :=
    { front :=
        [.ofDigits first rfl, ⟨.braced (⟨'0', 0, rfl⟩ :: first) (by simp) (by decide), by decide⟩,
          .ofDigits second rfl]
      others :=
        [(.plain '-' (by decide),
            [⟨.braced second (by simp [second]) (by decide), by decide⟩, .ofDigits first rfl]),
          (.braced [⟨'1', 1, rfl⟩, ⟨'F', 15, rfl⟩, ⟨'6', 6, rfl⟩, ⟨'0', 0, rfl⟩, ⟨'0', 0, rfl⟩]
            (by simp) (by decide), [])] }
  have fit : CodeUnitString.FitOf string.others := by
    intro element units behind inside
    simp only [string, List.suffix_cons_iff, List.suffix_nil] at inside
    rcases inside with same | same | same
    · cases same
      trivial
    · cases same
      trivial
    · cases same
  have here : (Cursor.atStart (String.ofList string.literal)).rest = string.literal ++ [] := by
    rw [Cursor.atStart, String.toList_ofList, List.append_nil]
  obtain ⟨token, after, scanned, value, -, -, -, -, -, rfl⟩ :=
    Scan.token_of_codeUnits (.inl rfl) fit here
  exact ⟨string, token, _, fit, by decide, scanned, value.trans (by decide), rfl⟩

end EcmaScript
