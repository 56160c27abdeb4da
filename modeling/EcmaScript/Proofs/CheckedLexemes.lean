import EcmaScript.Proofs.CheckedEscapes

/-!
# Strings and names, step by step

A token is kept as a kind with a value beside it, and nothing but the lexer makes the two agree. A
machine that reads the strings and the names of a text keeps of them what the readers find.
-/

namespace EcmaScript

/-- A value that is kept beside the kind of a token. -/
inductive Payload where
  | number (value : Binary64)
  /-- A name, a reserved word, or the value of a string. -/
  | text (value : String)
  | regularExpression (pattern flags : String)
  deriving DecidableEq, Repr

/-- What is kept of a lexeme: its kind, and a value for some kinds. -/
structure Content where
  kind : Kind
  payload : Option Payload
  flags : Flags
  deriving DecidableEq, Repr

/-- The value that is kept of a lexeme. Marks and the end of the text have none. -/
def Lexeme.payload : Lexeme → Option Payload
  | .endOfFile => none
  | .identifier name => some (.text name)
  | .number value => some (.number value)
  | .string value => some (.text value)
  | .regularExpression pattern flags => some (.regularExpression pattern flags)
  | .symbol item => if item.isWord then some (.text item.text) else none

/-- What is kept of a lexeme with its flags. -/
def Lexeme.content (lexeme : Lexeme) (flags : Flags) : Content :=
  ⟨lexeme.kind, lexeme.payload, flags⟩

namespace Checked

/-- Moves over the characters of a class, and answers them. Those found so far are given, the last
one first. -/
def charactersOf (isOne : Char → Bool) (found : List Char) : Nat → Checked (List Char)
  | 0 => trap
  | turns + 1 => do
    match ← peek with
    | none => return found.reverse
    | some char =>
      if isOne char then
        let char ← advance
        charactersOf isOne (char :: found) turns
      else return found.reverse

theorem charactersOf_eq {isOne : Char → Bool} {found : List Char} {turns : Nat} {machine : Machine}
    (enough : machine.rest.length < turns) :
    charactersOf isOne found turns machine =
      .ok (found.reverse ++ machine.rest.takeWhile isOne)
        (machine.skip (machine.rest.takeWhile isOne).length) := by
  induction turns generalizing found machine with
  | zero => contradiction
  | succ turns ih =>
    rw [charactersOf, peek_bind]
    cases rest : machine.rest with
    | nil =>
      rw [List.takeWhile_nil, List.append_nil]
      rfl
    | cons char text =>
      have behind : (machine.skip 1).rest = text := by
        rw [Machine.rest_skip, rest]
        rfl
      rw [List.head?_cons, List.takeWhile_cons]
      dsimp only
      split
      · rw [rest, List.length_cons] at enough
        rw [advance_bind rest, ih (by rw [behind]; exact Nat.lt_of_succ_lt_succ enough), behind,
          Machine.skip_skip, List.reverse_cons, List.append_assoc, List.length_cons, Nat.add_comm 1]
        rfl
      · rw [List.append_nil]
        rfl

/-! ### Strings -/

/-- The rest of a string. What has been read so far is given: the value, last character first, and
the flags. -/
def stringFrom (quote : Char) (value : List Char) (flags : Flags) : Nat → Checked (String × Flags)
  | 0 => trap
  | turns + 1 => do
    match ← peek with
    | none => fault .unterminatedString
    | some char =>
      if char = '\n' ∨ char = '\r' then fault .unterminatedString
      else if char = quote then
        let _ ← advance
        return (String.ofList value.reverse, flags)
      else if char = '\\' then
        let added ← escape
        stringFrom quote (added.characters.reverse ++ value) (flags.union added.flags) turns
      else
        let char ← advance
        stringFrom quote (char :: value) flags turns

/-- A string, from its quote on. -/
def string : Checked (String × Flags) := do
  let quote ← advance
  stringFrom quote [] {} (← turns)

/-! ### Names -/

/-- An escape of a name, from its backslash on. -/
def nameEscape : Checked Escape.CodePoint := do
  let _ ← advance
  if ← accept 'u' then codePoint else fault .invalidUnicodeEscape

/-- The rest of a name. What has been read so far is given: the name, last character first, and the
flags. -/
def nameFrom (name : List Char) (flags : Flags) : Nat → Checked (String × Flags)
  | 0 => trap
  | turns + 1 => do
    match ← peek with
    | none => return (String.ofList name.reverse, flags)
    | some char =>
      if char = '\\' then
        let point ← nameEscape
        let char := Char.ofNat point.code
        if point.code.isValidChar && Name.allows name.isEmpty char then
          nameFrom (char :: name) (flags.union point.flags) turns
        else fault .unexpectedCharacter
      else if Name.allows name.isEmpty char then
        let char ← advance
        nameFrom (char :: name) flags turns
      else return (String.ofList name.reverse, flags)

variable {machine : Machine} {text : List Char}

theorem stringFrom_eq {quote : Char} (isQuote : quote = '"' ∨ quote = '\'') {index turns : Nat}
    {value : List Char} {flags : Flags} (rest : (machine.skip index).rest = text)
    (enough : text.length < turns) :
    stringFrom quote value flags turns (machine.skip index) =
      (StringLiteral.readFrom quote index value flags text).outcome machine := by
  have notEscape : '\\' ≠ quote := by rcases isQuote with rfl | rfl <;> decide
  have notLine : ¬(quote = '\n' ∨ quote = '\r') := by rcases isQuote with rfl | rfl <;> decide
  induction turns generalizing index value flags text with
  | zero => contradiction
  | succ turns ih =>
    rw [stringFrom, peek_bind, rest]
    fun_cases StringLiteral.readFrom quote index value flags text with
    | case1 => rfl
    | case2 =>
      have escaped := escape_eq rest
      rw [rest] at escaped
      rw [List.head?_cons]
      dsimp only
      rw [if_neg (by decide), if_neg notEscape, if_pos rfl, bind_error escaped, Machine.skip_skip]
      rfl
    | case3 text _ length cause place read =>
      have escaped := escape_eq rest
      rw [rest, read] at escaped
      rw [List.head?_cons]
      dsimp only
      rw [if_neg (by decide), if_neg notEscape, if_pos rfl, bind_error escaped, Machine.skip_skip]
      rfl
    | case4 text _ length added read =>
      have escaped := escape_eq rest
      have some := Escape.two_le_of_inString read
      obtain ⟨count, rfl⟩ : ∃ count, length = count + 1 := ⟨length - 1, by omega⟩
      rw [rest, read] at escaped
      rw [List.head?_cons]
      dsimp only
      rw [if_neg (by decide), if_neg notEscape, if_pos rfl, bind_ok escaped, Machine.skip_skip]
      apply ih
      · rw [← Machine.skip_skip, Machine.rest_skip, rest, List.drop_succ_cons, Nat.add_sub_cancel]
      · rw [List.length_drop]
        rw [List.length_cons] at enough
        omega
    | case5 text notEscape =>
      rw [List.head?_cons]
      dsimp only
      rw [if_neg notLine, if_pos rfl, advance_bind rest, Machine.skip_skip]
      rfl
    | case6 char text _ _ notQuote ends =>
      rw [List.head?_cons]
      dsimp only
      rw [if_pos ends]
      rfl
    | case7 char text _ plain notQuote inLine =>
      rw [List.head?_cons]
      dsimp only
      rw [if_neg inLine, if_neg notQuote, if_neg plain, advance_bind rest, Machine.skip_skip]
      apply ih
      · exact Machine.rest_skip_succ rest
      · exact Nat.lt_of_succ_lt_succ enough

theorem string_eq {quote : Char} (rest : machine.rest = quote :: text)
    (isQuote : quote = '"' ∨ quote = '\'') :
    string machine = (StringLiteral.read quote text).outcome machine := by
  have behind : (machine.skip 1).rest = text := by
    rw [Machine.rest_skip, rest]
    rfl
  have enough := (machine.skip 1).length_rest_le
  rw [behind] at enough
  rw [string, advance_bind rest, turns_bind]
  exact stringFrom_eq isQuote behind (Nat.lt_succ_of_le enough)

theorem nameEscape_eq (rest : machine.rest = '\\' :: text) :
    nameEscape machine = (Escape.unicode machine.rest).outcome machine := by
  have behind : (machine.skip 1).rest = text := by
    rw [Machine.rest_skip, rest]
    rfl
  rw [nameEscape, advance_bind rest]
  by_cases escapes : text.head? = some 'u'
  · obtain ⟨text, rfl⟩ := List.head?_eq_some_iff.mp escapes
    rw [bind_ok (accept_eq_true behind), if_pos rfl, Machine.skip_skip]
    exact codePoint_eq rest
  · rw [bind_ok (accept_eq_false (by rwa [behind])), if_neg Bool.false_ne_true,
      Escape.unicode_of_not_escape]
    · rfl
    · intro others same
      rw [rest, List.cons.injEq] at same
      exact escapes (by rw [same.2]; rfl)

theorem nameFrom_eq {index turns : Nat} {name : List Char} {flags : Flags}
    (rest : (machine.skip index).rest = text) (enough : text.length < turns) :
    nameFrom name flags turns (machine.skip index) =
      (Name.readFrom index name flags text).outcome machine := by
  induction turns generalizing index name flags text with
  | zero => contradiction
  | succ turns ih =>
    rw [nameFrom, peek_bind, rest]
    fun_cases Name.readFrom index name flags text with
    | case1 => rfl
    | case2 text length cause place read =>
      have escaped := nameEscape_eq rest
      rw [rest, read] at escaped
      rw [List.head?_cons]
      dsimp only
      rw [if_pos rfl, bind_error escaped, Machine.skip_skip]
      rfl
    | case3 text length point read char allowed =>
      have escaped := nameEscape_eq rest
      have some := Escape.three_lt_of_unicode read
      obtain ⟨count, rfl⟩ : ∃ count, length = count + 1 := ⟨length - 1, by omega⟩
      rw [rest, read] at escaped
      rw [List.head?_cons]
      dsimp only
      rw [if_pos rfl, bind_ok escaped, Machine.skip_skip, if_pos allowed]
      apply ih
      · rw [← Machine.skip_skip, Machine.rest_skip, rest, List.drop_succ_cons, Nat.add_sub_cancel]
      · rw [List.length_drop]
        rw [List.length_cons] at enough
        omega
    | case4 text length point read char refused =>
      have escaped := nameEscape_eq rest
      rw [rest, read] at escaped
      rw [List.head?_cons]
      dsimp only
      rw [if_pos rfl, bind_ok escaped, Machine.skip_skip, if_neg refused]
      rfl
    | case5 char text plain allowed =>
      rw [List.head?_cons]
      dsimp only
      rw [if_neg plain, if_pos allowed, advance_bind rest, Machine.skip_skip]
      apply ih
      · exact Machine.rest_skip_succ rest
      · exact Nat.lt_of_succ_lt_succ enough
    | case6 char text plain ends =>
      rw [List.head?_cons]
      dsimp only
      rw [if_neg plain, if_neg ends]
      rfl

end Checked

end EcmaScript
