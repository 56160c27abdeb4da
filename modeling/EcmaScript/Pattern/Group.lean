import EcmaScript.Pattern.Escape

/-!
# Groups of a pattern

Back references may stand before the groups they name, so the groups of a pattern are collected
before it is checked: the number of opening parentheses, and the names. Characters in classes and
escaped characters are passed over, and no name may occur twice.
-/

namespace EcmaScript.Pattern

/-- The groups of a pattern. Every opening parenthesis counts, whatever it opens. -/
structure Groups where
  count : Nat := 0
  names : List String := []
  deriving DecidableEq, Repr

/-- A character that may stand at a place in a group name, the first or a later one. -/
def allowsInName (isFirst : Bool) (char : Char) : Bool :=
  char == '$' || char == '_' ||
    if isFirst then Unicode.isIdStart char
    else char == '\u200c' || char == '\u200d' || Unicode.isIdContinue char

/-- Reads the rest of a group name up to `>`, which may be escaped like the characters of the name.
What has been read so far is given: the number of characters, and the name, last character first. -/
def groupNameFrom? (index : Nat) (name : List Char) (text : List Char) : Option (Nat × String) :=
  match text with
  | [] => none
  | '\\' :: 'u' :: rest =>
    match codePoint? rest with
    | some (length, code) =>
      let char := Char.ofNat code
      if !code.isValidChar then none
      else if char = '>' ∧ !name.isEmpty then some (index + length + 2, String.ofList name.reverse)
      else if allowsInName name.isEmpty char then
        groupNameFrom? (index + length + 2) (char :: name) (rest.drop length)
      else none
    | none => none
  | char :: rest =>
    if char = '>' ∧ !name.isEmpty then some (index + 1, String.ofList name.reverse)
    else if allowsInName name.isEmpty char then groupNameFrom? (index + 1) (char :: name) rest
    else none
termination_by text.length
decreasing_by all_goals (simp only [List.length_cons, List.length_drop]; omega)

/-- Reads a group name in angle brackets, with the number of its characters. -/
def groupName? : List Char → Option (Nat × String)
  | '<' :: rest => groupNameFrom? 1 [] rest
  | _ => none

/-- The text after a class whose opening bracket has been read. -/
def afterClass : List Char → List Char
  | [] => []
  | ['\\'] => []
  | '\\' :: _ :: rest => afterClass rest
  | char :: rest => if char = ']' then rest else afterClass rest

theorem length_afterClass_le (text : List Char) : (afterClass text).length ≤ text.length := by
  fun_induction afterClass text <;> simp_all <;> omega

/-- Collects the groups of a text that comes after some groups. -/
def groupsFrom (groups : Groups) (text : List Char) : Except Fault Groups :=
  match text with
  | [] => .ok groups
  | '\\' :: rest => groupsFrom groups (rest.drop 1)
  | '[' :: rest => groupsFrom groups (afterClass rest)
  | '(' :: '?' :: '<' :: rest =>
    match groupName? ('<' :: rest) with
    | some (length, name) =>
      if groups.names.contains name then .error .duplicateGroupName
      else groupsFrom ⟨groups.count + 1, name :: groups.names⟩ (rest.drop (length - 1))
    | none => groupsFrom { groups with count := groups.count + 1 } rest
  | '(' :: '?' :: rest => groupsFrom { groups with count := groups.count + 1 } rest
  | '(' :: rest => groupsFrom { groups with count := groups.count + 1 } rest
  | _ :: rest => groupsFrom groups rest
termination_by text.length
decreasing_by
  all_goals
    simp only [List.length_cons, List.length_drop]
    have shorter := length_afterClass_le rest
    omega

/-- Collects the groups of a pattern. -/
def groups (pattern : List Char) : Except Fault Groups :=
  groupsFrom {} pattern

end EcmaScript.Pattern
