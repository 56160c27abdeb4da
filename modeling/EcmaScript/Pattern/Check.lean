import EcmaScript.Pattern.Class
import EcmaScript.Pattern.Group

/-!
# Well-formed patterns

A pattern is an alternation of sequences of terms. A term is an assertion, an atom or a group, and a
quantifier may follow it unless it is an anchor, a look-behind, or in Unicode mode a look-ahead.
`Pattern.check` answers the first fault. It reads the pattern once from left to right and keeps, for
each group that is open, whether a quantifier may follow it.
-/

namespace EcmaScript.Pattern

/-- A count in braces is kept in 64 bits. -/
def largestCount : Nat := 0xFFFFFFFFFFFFFFFF

/-- The count that decimal digits denote. -/
def countOf (digits : List Char) : Nat :=
  min (numberOfDigits 10 (leadingDigits 10 digits)) largestCount

/-- Reads the rest of a quantifier in braces after the opening brace: the number of its characters,
and whether its bounds are in order. -/
def bracedQuantifier? (text : List Char) : Option (Nat × Bool) :=
  let least := text.takeWhile Char.isDigit
  if least.isEmpty then none
  else
    match text.drop least.length with
    | '}' :: _ => some (least.length + 1, true)
    | ',' :: rest =>
      let most := rest.takeWhile Char.isDigit
      if (rest.drop most.length).head? = some '}' then
        some (least.length + most.length + 2, most.isEmpty || countOf least ≤ countOf most)
      else none
    | _ => none

/-- Reads a quantifier, if there is one, and the question mark that may follow it. The answer is the
number of characters it takes. -/
def quantifier (isUnicode isAllowed : Bool) (text : List Char) : Except Fault Nat :=
  let accept (length : Nat) (inOrder : Bool) : Except Fault Nat :=
    if !isAllowed then .error .quantifierNotAllowed
    else if !inOrder then .error .invalidQuantifier
    else .ok (if (text.drop length).head? = some '?' then length + 1 else length)
  match text with
  | '*' :: _ | '+' :: _ | '?' :: _ => accept 1 true
  | '{' :: rest =>
    match bracedQuantifier? rest with
    | some (length, inOrder) => accept (1 + length) inOrder
    | none => if isUnicode then .error .invalidQuantifier else .ok 0
  | _ => .ok 0

/-- Reads the letters of a group that changes the flags, up to the colon. The letters so far,
whether a hyphen was among them, and the number of characters so far are given. -/
def modifiersFrom (letters : List Char) (hyphen : Bool) (index : Nat) :
    List Char → Except Fault Nat
  | [] => .error .invalidGroupModifier
  | char :: rest =>
    if ['i', 'm', 's'].contains char && !letters.contains char then
      modifiersFrom (char :: letters) hyphen (index + 1) rest
    else if char == '-' && !hyphen then modifiersFrom letters true (index + 1) rest
    else if char == ':' && !letters.isEmpty then .ok (index + 1)
    else .error .invalidGroupModifier

/-- Reads what follows the parenthesis that opens a group: the number of characters that say what
kind of group it is, and whether a quantifier may follow the group. -/
def groupOpening (isUnicode : Bool) : List Char → Except Fault (Nat × Bool)
  | '?' :: '=' :: _ | '?' :: '!' :: _ => .ok (2, !isUnicode)
  | '?' :: '<' :: '=' :: _ | '?' :: '<' :: '!' :: _ => .ok (3, false)
  | '?' :: ':' :: _ => .ok (2, true)
  | '?' :: '<' :: rest =>
    match groupName? ('<' :: rest) with
    | some (length, _) => .ok (1 + length, true)
    | none => .error .invalidGroupName
  | ['?'] => .error .invalidGroupName
  | '?' :: rest => (modifiersFrom [] false 1 rest).map fun length => (length, true)
  | _ => .ok (0, true)

/-- Reads an escape outside classes after its backslash, and answers how many characters it takes.
-/
def atomEscape (isUnicode : Bool) (groups : Groups) : List Char → Except Fault Nat
  | [] => .error .unfinishedEscape
  | char :: rest =>
    let single : Except Fault Nat :=
      (characterEscape isUnicode char rest).map fun (length, _) => 1 + length
    if char = 'b' ∨ char = 'B' ∨ isClassLetter char then .ok 1
    else if char = 'c' ∧ !isUnicode then
      .ok (if rest.head?.any Char.isAlpha then 2 else 1)
    else if isUnicode && (char == 'p' || char == 'P') then
      (propertyEscape rest).map fun length => 1 + length
    else if '1' ≤ char ∧ char ≤ '9' then
      let digits := leadingDigits 10 (char :: rest)
      if numberOfDigits 10 digits ≤ groups.count then .ok digits.length
      else if isUnicode then .error .invalidCharacterEscape
      else single
    else if char = 'k' ∧ (isUnicode || !groups.names.isEmpty) then
      match groupName? rest with
      | none => .error .unfinishedNamedReference
      | some (length, name) =>
        if groups.names.contains name then .ok (1 + length) else .error (.unknownGroup name)
    else single

/-- A term that has been read after its first character: how many more characters it takes, and
whether a quantifier may follow it. -/
inductive Term where
  | atom (length : Nat) (isQuantifiable : Bool)
  | opening (length : Nat) (isQuantifiable : Bool)
  deriving DecidableEq, Repr

/-- Reads a term, or the opening of a group, by its first character. -/
def term (isUnicode : Bool) (groups : Groups) (char : Char) (rest : List Char) :
    Except Fault Term :=
  match char with
  | '^' | '$' => .ok (.atom 0 false)
  | '\\' => (atomEscape isUnicode groups rest).map fun length => .atom length true
  | '(' => (groupOpening isUnicode rest).map fun (length, allowed) => .opening length allowed
  | '[' => (classLength isUnicode rest).map fun length => .atom length true
  | '*' | '+' | '?' => .error .invalidAtom
  | '{' =>
    if isUnicode then .error .invalidAtom
    else if (bracedQuantifier? rest).isSome then .error .invalidBracedQuantifier
    else .ok (.atom 0 true)
  | ']' | '}' => if isUnicode then .error .invalidAtom else .ok (.atom 0 true)
  | _ => .ok (.atom 0 true)

/-- Checks the rest of a pattern inside some open groups, the innermost first, of which is known
whether a quantifier may follow them. -/
def checkFrom (isUnicode : Bool) (groups : Groups) (opened : List Bool) (text : List Char) :
    Except Fault Unit :=
  match text with
  | [] => if opened.isEmpty then .ok () else .error .unbalancedParenthesis
  | '|' :: rest => checkFrom isUnicode groups opened rest
  | ')' :: rest =>
    match opened with
    | [] => .error .unbalancedParenthesis
    | isQuantifiable :: outer =>
      match quantifier isUnicode isQuantifiable rest with
      | .error fault => .error fault
      | .ok length => checkFrom isUnicode groups outer (rest.drop length)
  | char :: rest =>
    match term isUnicode groups char rest with
    | .error fault => .error fault
    | .ok (.opening length isQuantifiable) =>
      checkFrom isUnicode groups (isQuantifiable :: opened) (rest.drop length)
    | .ok (.atom length isQuantifiable) =>
      match quantifier isUnicode isQuantifiable (rest.drop length) with
      | .error fault => .error fault
      | .ok further => checkFrom isUnicode groups opened (rest.drop (length + further))
termination_by text.length
decreasing_by all_goals (simp only [List.length_cons, List.length_drop]; omega)

/-- Checks a pattern, in Unicode mode or not. -/
def check (isUnicode : Bool) (pattern : String) : Except Fault Unit :=
  match groups pattern.toList with
  | .error fault => .error fault
  | .ok groups => checkFrom isUnicode groups [] pattern.toList

end EcmaScript.Pattern
