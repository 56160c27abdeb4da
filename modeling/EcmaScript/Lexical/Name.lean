import EcmaScript.Lexical.Escape

/-!
# Identifiers and reserved words

A name is a start character and any number of part characters, each written as it is or as a code
point escape. A name that is a reserved word has to be written without escapes.
-/

namespace EcmaScript

namespace Name

/-- A character that may stand at a place in a name, the first or a later one. -/
def allows (isFirst : Bool) (char : Char) : Bool :=
  if isFirst then isIdentifierStart char else isIdentifierPart char

/-- Reads the rest of a name. What has been read so far is given: the number of characters, the
name, last character first, and the flags. -/
def readFrom (index : Nat) (name : List Char) (flags : Flags) (text : List Char) :
    Reading (String × Flags) :=
  match text with
  | [] => .success index (String.ofList name.reverse, flags)
  | '\\' :: rest =>
    match Escape.unicode ('\\' :: rest) with
    | .failure length cause place => .failure (index + length) cause (index + place)
    | .success length point =>
      let char := Char.ofNat point.code
      if point.code.isValidChar && allows name.isEmpty char then
        readFrom (index + length) (char :: name) (flags.union point.flags) (rest.drop (length - 1))
      else .failure (index + length) .unexpectedCharacter index
  | char :: rest =>
    if allows name.isEmpty char then readFrom (index + 1) (char :: name) flags rest
    else .success index (String.ofList name.reverse, flags)
termination_by text.length
decreasing_by all_goals (simp only [List.length_cons, List.length_drop]; omega)

/-- Reads the identifier or reserved word at the front of a text that begins with one. -/
def read (text : List Char) : Reading (Lexeme × Flags) :=
  match readFrom 0 [] {} text with
  | .failure length cause place => .failure length cause place
  | .success length (name, flags) =>
    match Symbol.ofWord? name with
    | none => .success length (.identifier name, flags)
    | some word =>
      if flags.unicodeEscape then .failure length .escapedKeyword 0
      else .success length (.symbol word, flags)

theorem length_readFrom_le (index : Nat) (name : List Char)
    (flags : Flags) (text : List Char) :
    (readFrom index name flags text).length ≤ index + text.length := by
  fun_induction readFrom index name flags text with
  | case1 => simp [Reading.length]
  | case2 index name flags rest length cause place escape =>
    have := Escape.length_unicode_le rest
    simp only [escape, Reading.length, List.length_cons] at *
    omega
  | case3 index name flags rest length point escape char allowed ih =>
    have := Escape.length_unicode_le rest
    simp only [escape, Reading.length, List.length_cons, List.length_drop] at *
    omega
  | case4 index name flags rest length point escape char allowed =>
    have := Escape.length_unicode_le rest
    simp only [escape, Reading.length, List.length_cons] at *
    omega
  | case5 index name flags char rest _ allowed ih =>
    simp only [List.length_cons]
    omega
  | case6 => simp [Reading.length]

theorem length_read_le (text : List Char) : (read text).length ≤ text.length := by
  have inside := length_readFrom_le 0 [] {} text
  unfold read
  split
  · rename_i found
    simpa [found, Reading.length] using inside
  · rename_i found
    simp only [found, Reading.length, Nat.zero_add] at inside
    split
    · exact inside
    · split <;> exact inside

end Name

end EcmaScript
