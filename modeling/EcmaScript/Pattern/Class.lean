import EcmaScript.Pattern.Escape

/-!
# Character classes of a pattern

A class is a list of atoms up to a closing bracket. An atom is a character or a set of characters,
and two atoms with a hyphen between them are a range, which must run upwards. A set cannot bound a
range: in Unicode mode that is a fault, and otherwise the hyphen is a character like others.
-/

namespace EcmaScript.Pattern

/-- An item of a class. -/
inductive ClassAtom where
  | code (code : Nat)
  | set
  deriving DecidableEq, Repr

/-- Reads an item of a class after its first character, which is not a bracket that closes. The
answer is the number of characters taken after the first one, and the item. -/
def classAtom (isUnicode : Bool) : Char → List Char → Except Fault (Nat × ClassAtom)
  | '\\', [] => .error .unfinishedClassEscape
  | '\\', char :: rest =>
    let escape : Except Fault (Nat × ClassAtom) :=
      (characterEscape isUnicode char rest).map fun (length, code) => (1 + length, .code code)
    match char with
    | 'b' => .ok (1, .code 8)
    | '-' => if isUnicode then .ok (1, .code '-'.toNat) else escape
    | 'c' =>
      if isUnicode then escape
      else
        match rest.head? with
        | some next =>
          if next.isAlpha then .ok (2, .code (next.toNat % 32))
          else if next.isDigit || next == '_' then .ok (2, .code (next.toNat % 32))
          else .ok (0, .code '\\'.toNat)
        | none => .ok (0, .code '\\'.toNat)
    | _ =>
      if isClassLetter char then .ok (1, .set)
      else if isUnicode && (char == 'p' || char == 'P') then
        (propertyEscape rest).map fun length => (1 + length, .set)
      else escape
  | char, _ => .ok (0, .code char.toNat)

/-- Two items with a hyphen between them. -/
def checkRange (isUnicode : Bool) : ClassAtom → ClassAtom → Except Fault Unit
  | .code first, .code last => if last < first then .error .reversedRange else .ok ()
  | _, _ => if isUnicode then .error .invalidRange else .ok ()

/-- Reads the rest of a class and its closing bracket, some characters after its beginning. The
answer is the number of all its characters. -/
def classFrom (isUnicode : Bool) (index : Nat) (text : List Char) : Except Fault Nat :=
  match text with
  | [] => .error .unbalancedBracket
  | char :: rest =>
    if char = ']' then .ok (index + 1)
    else
      match classAtom isUnicode char rest with
      | .error fault => .error fault
      | .ok (length, first) =>
        match more : rest.drop length with
        | '-' :: last :: others =>
          if last = ']' then .ok (index + length + 3)
          else
            match classAtom isUnicode last others with
            | .error fault => .error fault
            | .ok (further, second) =>
              match checkRange isUnicode first second with
              | .error fault => .error fault
              | .ok () =>
                classFrom isUnicode (index + length + further + 3) (others.drop further)
        | _ => classFrom isUnicode (index + 1 + length) (rest.drop length)
termination_by text.length
decreasing_by
  all_goals
    have shorter := congrArg List.length more
    simp only [List.length_cons, List.length_drop] at *
    omega

/-- Reads a class after its opening bracket, and answers how many characters it takes. -/
def classLength (isUnicode : Bool) : List Char → Except Fault Nat
  | '^' :: rest => classFrom isUnicode 1 rest
  | text => classFrom isUnicode 0 text

end EcmaScript.Pattern
