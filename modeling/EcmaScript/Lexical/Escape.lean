import EcmaScript.Lexical.Reading
import EcmaScript.Source.Character

/-!
# Escape sequences

An escape sequence begins with a backslash. `Escape.unicode` reads the form with `u` that names a
code point, which identifiers and strings share; `Escape.inString` reads every form that a string
may have. Strings are sequences of 16-bit units: two escapes that form a surrogate pair stand for
one character, and any other surrogate stands for the replacement character.
-/

namespace EcmaScript

namespace Escape

/-- The character of a code point; a surrogate has none and is replaced. -/
def charOfCode (code : Nat) : Char :=
  if code.isValidChar then Char.ofNat code else '\ufffd'

/-- A code point written as an escape. -/
structure CodePoint where
  code : Nat
  braced : Bool
  deriving DecidableEq, Repr

/-- The flags of an identifier or string with a code point written as an escape. -/
def CodePoint.flags (point : CodePoint) : Flags :=
  { unicodeEscape := true, bracedEscape := point.braced }

/-- Reads the digits of a code point in braces, and the closing brace. The code so far and the
number of characters so far are given; three characters stand before the first digit. -/
def bracedDigits (code index : Nat) : List Char → Reading CodePoint
  | [] => .failure index .invalidUnicodeEscape 0
  | char :: rest =>
    match digitOf? 16 char with
    | some digit =>
      let code := code * 16 + digit
      if 0x10FFFF < code then .failure (index + 1) .undefinedCodePoint 0
      else bracedDigits code (index + 1) rest
    | none =>
      if char == '}' && index != 3 then .success (index + 1) ⟨code, true⟩
      else .failure index .invalidUnicodeEscape 0

/-- Reads a code point escape at the front of a text that begins with a backslash: four hexadecimal
digits, or any number of them in braces up to the last code point. -/
def unicode : List Char → Reading CodePoint
  | '\\' :: 'u' :: '{' :: rest => bracedDigits 0 3 rest
  | '\\' :: 'u' :: rest =>
    let digits := leadingDigits 16 (rest.take 4)
    if digits.length = 4 then .success 6 ⟨numberOfDigits 16 digits, false⟩
    else .failure (2 + digits.length) .invalidUnicodeEscape 0
  | _ => .failure 1 .invalidUnicodeEscape 0

/-- The first halves of surrogate pairs. -/
def isHighSurrogate (code : Nat) : Bool :=
  0xD800 ≤ code && code < 0xDC00

/-- The second halves of surrogate pairs. -/
def isLowSurrogate (code : Nat) : Bool :=
  0xDC00 ≤ code && code < 0xE000

/-- The code point that a surrogate pair stands for. -/
def joinSurrogates (high low : Nat) : Nat :=
  0x10000 + (high - 0xD800) * 0x400 + (low - 0xDC00)

/-- What an escape adds to a string. -/
structure Contribution where
  characters : List Char
  flags : Flags := {}
  deriving DecidableEq, Repr

/-- Reads a code point escape of a string, with the second half of a surrogate pair if there is
one. -/
def unicodeInString (text : List Char) : Reading Contribution :=
  match unicode text with
  | .failure length cause place => .failure length cause place
  | .success length point =>
    let alone := .success length ⟨[charOfCode point.code], point.flags⟩
    match isHighSurrogate point.code, text.drop length with
    | true, '\\' :: 'u' :: rest =>
      match unicode ('\\' :: 'u' :: rest) with
      | .failure further cause place => .failure (length + further) cause (length + place)
      | .success further low =>
        if isLowSurrogate low.code then
          .success (length + further)
            ⟨[charOfCode (joinSurrogates point.code low.code)], point.flags.union low.flags⟩
        else alone
    | _, _ => alone

/-- Reads an octal escape of a string. It has at most three digits, and two when the first exceeds
three. A lone zero that no decimal digit follows is no octal escape. -/
def octalInString (first : Char) (rest : List Char) : Reading Contribution :=
  let digits := leadingDigits 8 ((first :: rest).take (if first ≤ '3' then 3 else 2))
  let isNull := first == '0' && digits.length == 1 && !rest.head?.any Char.isDigit
  .success (1 + digits.length)
    ⟨[charOfCode (numberOfDigits 8 digits)], { octalEscape := !isNull }⟩

/-- The characters that a letter stands for after a backslash. -/
def controlCharacter? : Char → Option Char
  | 'n' => some '\n'
  | 'r' => some '\r'
  | 't' => some '\t'
  | 'b' => some '\x08'
  | 'f' => some '\x0c'
  | 'v' => some '\x0b'
  | _ => none

/-- Reads an escape of a string at the front of a text that begins with a backslash. An escaped line
terminator adds nothing, and a character without a meaning of its own stands for itself. -/
def inString : List Char → Reading Contribution
  | '\\' :: '\r' :: '\n' :: _ => .success 3 ⟨[], {}⟩
  | '\\' :: 'x' :: rest =>
    match leadingDigits 16 (rest.take 2) with
    | [high, low] => .success 4 ⟨[charOfCode (high * 16 + low)], {}⟩
    | _ => .failure 2 .invalidHexadecimalEscape 0
  | '\\' :: 'u' :: rest => unicodeInString ('\\' :: 'u' :: rest)
  | '\\' :: char :: rest =>
    if isLineTerminator char then .success 2 ⟨[], {}⟩
    else if '0' ≤ char ∧ char ≤ '7' then octalInString char rest
    else if char = '8' ∨ char = '9' then .success 2 ⟨[char], { uselessEscape := true }⟩
    else .success 2 ⟨[(controlCharacter? char).getD char], {}⟩
  | _ => .failure 1 .unterminatedString 0

theorem length_bracedDigits_le (code index : Nat) (text : List Char) :
    (bracedDigits code index text).length ≤ index + text.length := by
  fun_induction bracedDigits code index text <;> simp_all [Reading.length] <;> omega

theorem length_unicode_le (rest : List Char) :
    (unicode ('\\' :: rest)).length ≤ rest.length + 1 := by
  unfold unicode
  split
  · rename_i equal
    cases equal
    have := length_bracedDigits_le 0 3 ‹List Char›
    simp only [List.length_cons]
    omega
  · rename_i inner _ equal
    cases equal
    have := leadingDigits_length_le 16 (inner.take 4)
    simp only [List.length_take] at this
    dsimp only
    split <;> simp only [Reading.length, List.length_cons] <;> omega
  · simp [Reading.length]

theorem length_unicodeInString_le (rest : List Char) :
    (unicodeInString ('\\' :: rest)).length ≤ rest.length + 1 := by
  have whole := length_unicode_le rest
  unfold unicodeInString
  split
  · rename_i read
    simpa [read, Reading.length] using whole
  · rename_i length point read
    rw [read] at whole
    simp only [Reading.length] at whole
    dsimp only
    split
    · rename_i tail _ dropped
      have second := length_unicode_le ('u' :: tail)
      have shorter := congrArg List.length dropped
      simp only [List.length_drop, List.length_cons] at shorter second
      split
      · rename_i read
        simp only [read, Reading.length] at second ⊢
        omega
      · rename_i read
        simp only [read, Reading.length] at second
        split <;> simp only [Reading.length] <;> omega
    · simpa [Reading.length] using whole

theorem length_octalInString_le (first : Char) (rest : List Char) :
    (octalInString first rest).length ≤ rest.length + 2 := by
  unfold octalInString
  have := leadingDigits_length_le 8 ((first :: rest).take (if first ≤ '3' then 3 else 2))
  simp only [List.length_take, List.length_cons] at this
  simp only [Reading.length]
  omega

theorem length_inString_le (rest : List Char) :
    (inString ('\\' :: rest)).length ≤ rest.length + 1 := by
  unfold inString
  split
  · rename_i equal
    cases equal
    simp [Reading.length]
  · rename_i inner equal
    cases equal
    split
    · rename_i digits
      have := congrArg List.length digits
      have := leadingDigits_length_le 16 (inner.take 2)
      simp only [List.length_take, List.length_cons, List.length_nil] at *
      simp only [Reading.length]
      omega
    · simp [Reading.length]
  · rename_i equal
    cases equal
    exact length_unicodeInString_le _
  · rename_i char inner _ _ _ equal
    cases equal
    have := length_octalInString_le char inner
    simp only [List.length_cons]
    repeat' split
    all_goals first | exact this | simp [Reading.length]
  · simp [Reading.length]

end Escape

end EcmaScript
