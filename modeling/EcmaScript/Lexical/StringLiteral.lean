import EcmaScript.Lexical.Escape

/-!
# String literals

A string literal runs from a quote to the next one of the same kind that is not escaped. It may not
contain a line feed or a carriage return, unless escaped; the two other line terminators are plain
characters.
-/

namespace EcmaScript

namespace StringLiteral

/-- Reads the rest of a literal. What has been read so far is given: the number of characters, the
value, last character first, and the flags. -/
def readFrom (quote : Char) (index : Nat) (value : List Char) (flags : Flags) (text : List Char) :
    Reading (String × Flags) :=
  match text with
  | [] => .failure index .unterminatedString 0
  | ['\\'] => .failure (index + 1) .unterminatedString 0
  | '\\' :: rest =>
    match Escape.inString ('\\' :: rest) with
    | .failure length cause place => .failure (index + length) cause (index + place)
    | .success length added =>
      readFrom quote (index + length) (added.characters.reverse ++ value) (flags.union added.flags)
        (rest.drop (length - 1))
  | char :: rest =>
    if char = quote then .success (index + 1) (String.ofList value.reverse, flags)
    else if char = '\n' ∨ char = '\r' then .failure index .unterminatedString 0
    else readFrom quote (index + 1) (char :: value) flags rest
termination_by text.length
decreasing_by all_goals (simp only [List.length_cons, List.length_drop]; omega)

/-- Reads the string literal at the front of a text that begins with a quote. -/
def read (quote : Char) (rest : List Char) : Reading (String × Flags) :=
  readFrom quote 1 [] {} rest

theorem length_readFrom_le (quote : Char) (index : Nat) (value : List Char)
    (flags : Flags) (text : List Char) :
    (readFrom quote index value flags text).length ≤ index + text.length := by
  fun_induction readFrom quote index value flags text with
  | case1 => simp [Reading.length]
  | case2 => simp [Reading.length]
  | case3 index value flags rest _ length cause place read =>
    have := Escape.length_inString_le rest
    simp only [read, Reading.length, List.length_cons] at *
    omega
  | case4 index value flags rest _ length added read ih =>
    have := Escape.length_inString_le rest
    simp only [read, Reading.length, List.length_cons, List.length_drop] at *
    omega
  | case5 => simp [Reading.length]
  | case6 => simp [Reading.length]
  | case7 index value flags char rest _ _ _ _ ih =>
    simp only [List.length_cons]
    omega

theorem length_read_le (quote : Char) (rest : List Char) :
    (read quote rest).length ≤ rest.length + 1 := by
  have inside := length_readFrom_le quote 1 [] {} rest
  unfold read
  omega

end StringLiteral

end EcmaScript
