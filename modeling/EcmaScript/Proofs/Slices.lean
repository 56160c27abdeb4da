import EcmaScript.Grammar.Function
import EcmaScript.Proofs.Separation
import EcmaScript.Proofs.TokenText
import Mathlib.Algebra.Ring.Nat

/-!
# Slices of a text

A slice of a text is taken between two offsets. They may count the characters of the text, or the
bytes of its encoding, in which one character takes up to four; then no character may be cut. The
text of a string literal has a quote at both ends, which is one byte each, so what is between them
can be sliced out.
-/

namespace EcmaScript

/-- The characters between two offsets, which must be in order and in the text. -/
def slice? (text : List Char) (start stop : Nat) : Option (List Char) :=
  if start ≤ stop ∧ stop ≤ text.length then some ((text.drop start).take (stop - start)) else none

/-- The part of a source text between two offsets, which are moved into the text before. -/
def slicedText? (source : String) (start stop : Nat) : Option String :=
  let stop := min stop source.length
  let start := min start stop
  (slice? source.toList start stop).map String.ofList

/-- The number of bytes of a text. -/
def bytes (text : List Char) : Nat :=
  (text.map Char.utf8Size).sum

/-- A text in two parts, the first of which has some number of bytes. There are none if the text is
too short, or a character is cut. -/
def splitBytes? (size : Nat) : List Char → Option (List Char × List Char)
  | [] => if size = 0 then some ([], []) else none
  | char :: text =>
    if size = 0 then some ([], char :: text)
    else if char.utf8Size ≤ size then
      (splitBytes? (size - char.utf8Size) text).map fun parts => (char :: parts.1, parts.2)
    else none

/-- The characters between two numbers of bytes, which must be in order, and between characters of
the text. -/
def byteSlice? (text : List Char) (start stop : Nat) : Option (List Char) := do
  if start ≤ stop then
    let front ← splitBytes? start text
    let middle ← splitBytes? (stop - start) front.2
    return middle.1
  else none

/-- A text without its first byte and its last one. -/
def sliceInside? (text : String) : Option String := do
  if 1 ≤ bytes text.toList then
    let inside ← byteSlice? text.toList 1 (bytes text.toList - 1)
    return String.ofList inside
  else none

/-- A text has a quote at both ends. -/
def IsQuoted (text : String) : Prop :=
  ∃ quote body, (quote = '"' ∨ quote = '\'') ∧ text.toList = quote :: (body ++ [quote])

namespace StringLiteral

/-- A string ends with its quote. -/
theorem getElem?_of_readFrom {quote : Char} {index length : Nat} {value text : List Char}
    {flags : Flags} {result : String × Flags}
    (read : readFrom quote index value flags text = .success length result) :
    ∃ count, length = index + count + 1 ∧ text[count]? = some quote := by
  fun_induction readFrom quote index value flags text with
  | case4 index value flags rest _ further added escape ih =>
    obtain ⟨count, rfl, last⟩ := ih read
    have some := Escape.two_le_of_inString escape
    refine ⟨further + count, by omega, ?_⟩
    obtain ⟨before, rfl⟩ : ∃ before, further = before + 1 := ⟨further - 1, by omega⟩
    rw [List.getElem?_drop, Nat.add_sub_cancel] at last
    rw [← last, Nat.add_right_comm]
    rfl
  | case5 =>
    cases read
    exact ⟨0, rfl, rfl⟩
  | case7 index value flags char rest _ _ _ _ ih =>
    obtain ⟨count, rfl, last⟩ := ih read
    exact ⟨count + 1, by omega, last⟩
  | _ => cases read

end StringLiteral

/-- The text of a string literal that has been read. -/
theorem Lexeme.isQuoted_of_read {text : List Char} {length : Nat} {value : String} {flags : Flags}
    (read : Lexeme.read text = .success length (.string value, flags)) :
    IsQuoted (String.ofList (text.take length)) := by
  rw [Lexeme.read.eq_def] at read
  split at read
  · cases read
  · rename_i char rest
    split at read
    · rename_i isQuote
      cases found : StringLiteral.read char rest with
      | failure =>
        rw [found] at read
        cases read
      | success other result =>
        rw [found] at read
        cases read
        obtain ⟨count, rfl, last⟩ := StringLiteral.getElem?_of_readFrom found
        refine ⟨char, rest.take count, isQuote, ?_⟩
        rw [String.toList_ofList, Nat.add_assoc, Nat.add_comm 1, List.take_succ_cons, List.take_add_one,
          last]
        rfl
    · split at read
      · cases found : NumericLiteral.read (char :: rest) with
        | failure =>
          rw [found] at read
          cases read
        | success other result =>
          rw [found] at read
          cases read
      · split at read
        · rcases Name.eq_of_read read with ⟨_, ⟨⟩⟩ | ⟨_, ⟨⟩, _⟩
        · split at read <;> cases read

end EcmaScript
