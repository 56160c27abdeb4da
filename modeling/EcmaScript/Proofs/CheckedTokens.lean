import EcmaScript.Proofs.CheckedMarks
import EcmaScript.Proofs.CheckedNumbers
import EcmaScript.Proofs.Separation
import EcmaScript.Proofs.TokenText

/-!
# Tokens, step by step

A machine moves over trivia and lexemes, and over a regular expression from the character behind its
slash. What it keeps of a token is what the scanner finds, at the same place of the text.
-/

namespace EcmaScript

/-- What is kept of a token. -/
structure RawToken where
  content : Content
  start : Nat
  stop : Nat
  deriving DecidableEq, Repr

/-- A token is a slash, or one with an equals sign behind it. -/
def RawToken.isSlash (token : RawToken) : Bool :=
  token.content.kind == .symbol BinaryOperator.divide ||
    token.content.kind == .symbol AssignmentOperator.divideAssign

/-- What is kept of a token, apart from its place in the lines of the text. -/
def Token.raw (token : Token) : RawToken :=
  ⟨token.lexeme.content token.flags, token.start, token.stop⟩

namespace Checked

/-- A name or a reserved word. -/
def name : Checked Content := do
  let (name, flags) ← nameFrom [] {} (← turns)
  match Symbol.ofWord? name with
  | none => return ⟨.identifier, some (.text name), flags⟩
  | some word =>
    if flags.unicodeEscape then fault .escapedKeyword
    else return ⟨.symbol word, some (.text name), flags⟩

/-- The content of the lexeme at hand. -/
def content : Checked Content := do
  match ← peek with
  | none => return ⟨.endOfFile, none, {}⟩
  | some char =>
    let next ← peekNext
    if char = '"' ∨ char = '\'' then
      let (value, flags) ← string
      return ⟨.stringLiteral, some (.text value), flags⟩
    else if char.isDigit ∨ char = '.' ∧ next.any Char.isDigit then number
    else if char = '\\' ∨ isIdentifierStart char then name
    else
      let mark ← mark
      return ⟨.symbol mark, none, {}⟩

/-- The rest of a comment in block form. Whether a line has ended in it so far is given. -/
def blockComment (lineBreak : Bool) : Nat → Checked Bool
  | 0 => trap
  | turns + 1 => do
    let next ← peekNext
    match ← peek with
    | none => fault .unterminatedComment
    | some char =>
      if char = '*' ∧ next = some '/' then
        let _ ← advance
        let _ ← advance
        return lineBreak
      else if char = '\r' then
        let _ ← advance
        let _ ← accept '\n'
        blockComment true turns
      else
        let _ ← advance
        blockComment (lineBreak || isLineTerminator char) turns

/-- The trivia at hand. Whether a line has ended in it so far is given. -/
def trivia (lineBreak : Bool) : Nat → Checked Bool
  | 0 => trap
  | turns + 1 => do
    let next ← peekNext
    match ← peek with
    | none => return lineBreak
    | some char =>
      if char = '\r' then
        let _ ← advance
        let _ ← accept '\n'
        trivia true turns
      else if isLineTerminator char then
        let _ ← advance
        trivia true turns
      else if char = '/' ∧ next = some '/' then
        let _ ← charactersOf (fun char => !isLineTerminator char) [] (← Checked.turns)
        trivia lineBreak turns
      else if char = '/' ∧ next = some '*' then
        let _ ← advance
        let _ ← advance
        let inside ← blockComment false (← Checked.turns)
        trivia (lineBreak || inside) turns
      else if isWhiteSpace char then
        let _ ← advance
        trivia lineBreak turns
      else return lineBreak

/-- The lexeme at hand, as a token. Whether a line has ended in front of it is given. -/
def lexeme (lineBreak : Bool) : Checked RawToken := do
  let start := (← get).index
  let content ← content
  return ⟨{ content with flags := { content.flags with lineBreak } }, start, (← get).index⟩

/-- The next token. -/
def token : Checked RawToken := do
  let lineBreak ← trivia false (← turns)
  lexeme lineBreak

/-- The rest of a pattern, up to its slash. What has been read so far is given: whether a class is
open, and the pattern, last character first. -/
def pattern (isInClass : Bool) (found : List Char) : Nat → Checked (List Char)
  | 0 => trap
  | turns + 1 => do
    match ← peek with
    | none => fault .unterminatedRegularExpression
    | some char =>
      if isLineTerminator char then fault .unterminatedRegularExpression
      else if char = '\\' then
        let _ ← advance
        match ← peek with
        | none => fault .unterminatedRegularExpression
        | some escaped =>
          if isLineTerminator escaped then fault .unterminatedRegularExpression
          else
            let _ ← advance
            pattern isInClass (escaped :: char :: found) turns
      else if char == '/' && !isInClass then
        let _ ← advance
        return found.reverse
      else
        let _ ← advance
        pattern (char == '[' || (isInClass && char != ']')) (char :: found) turns

/-- A regular expression, from the character behind its slash. -/
def expression : Checked Content := do
  let pattern ← pattern false [] (← turns)
  let flags ← charactersOf isIdentifierPart [] (← turns)
  match RegularExpression.fault? (String.ofList pattern) (String.ofList flags) with
  | some cause => fault cause
  | none =>
    return ⟨.regularExpressionLiteral,
      some (.regularExpression (String.ofList pattern) (String.ofList flags)), {}⟩

/-- Goes back to a slash, which the token must be, and reads it again as a regular expression. -/
def reread (slash : RawToken) : Checked RawToken := do
  if slash.isSlash then
    modify fun machine => { machine with index := slash.start + 1 }
    let content ← expression
    return ⟨{ content with
      flags := { content.flags with lineBreak := slash.content.flags.lineBreak } },
      slash.start, (← get).index⟩
  else trap

end Checked

namespace Trivia

variable {text : List Char}

/-- A line terminator between comments is moved over. -/
theorem readFrom_terminator {index : Nat} {lineBreak : Bool} {char : Char}
    (terminator : isLineTerminator char = true) :
    readFrom .between index lineBreak (char :: text) =
      readFrom .between (index + 1) true text := by
  rw [readFrom, if_pos terminator]
  · rintro rest rfl -
    cases terminator
  · rintro rest rfl -
    cases terminator

/-- A comment in line form ends where its line does. -/
theorem readFrom_lineComment (index : Nat) (lineBreak : Bool) (text : List Char) :
    readFrom .lineComment index lineBreak text =
      readFrom .between (index + (text.takeWhile fun char => !isLineTerminator char).length)
        lineBreak (text.drop (text.takeWhile fun char => !isLineTerminator char).length) := by
  induction text generalizing index with
  | nil =>
    rw [readFrom, List.takeWhile_nil, List.drop_nil, readFrom]
    · rfl
    · rintro start ⟨⟩
    · rintro start ⟨⟩
  | cons char text ih =>
    rw [readFrom, List.takeWhile_cons]
    cases terminator : isLineTerminator char with
    | true => exact (readFrom_terminator terminator).symm
    | false =>
      rw [if_neg Bool.false_ne_true, ih, Bool.not_false, if_pos rfl, List.length_cons,
        List.drop_succ_cons, Nat.add_assoc, Nat.add_comm 1]

/-- A comment in block form goes on behind a character that does not end it. -/
theorem readFrom_blockComment {start index : Nat} {lineBreak : Bool} {char : Char}
    (goesOn : ¬(char = '*' ∧ text.head? = some '/')) :
    readFrom (.blockComment start) index lineBreak (char :: text) =
      readFrom (.blockComment start) (index + 1) (lineBreak || isLineTerminator char) text := by
  rw [readFrom]
  rintro rest rfl rfl
  exact goesOn ⟨rfl, rfl⟩

/-- Trivia that begins with no comment and with no line terminator is white space, or ends. -/
theorem readFrom_plain {index : Nat} {lineBreak : Bool} {char : Char}
    (plain : ¬isLineTerminator char = true) (line : ¬(char = '/' ∧ text.head? = some '/'))
    (block : ¬(char = '/' ∧ text.head? = some '*')) :
    readFrom .between index lineBreak (char :: text) =
      if isWhiteSpace char then readFrom .between (index + 1) lineBreak text
      else .success index lineBreak := by
  rw [readFrom, if_neg plain]
  · rintro rest rfl rfl
    exact line ⟨rfl, rfl⟩
  · rintro rest rfl rfl
    exact block ⟨rfl, rfl⟩

end Trivia

namespace Checked

variable {machine : Machine} {text : List Char}

theorem name_eq (rest : machine.rest = text) :
    name machine = ((Name.read text).map fun found =>
      found.1.content found.2).outcome machine := by
  have enough := machine.length_rest_le
  rw [rest] at enough
  have read := @nameFrom_eq machine text 0 _ [] {} rest (Nat.lt_succ_of_le enough)
  rw [Machine.skip_zero] at read
  rw [name, turns_bind, Name.read]
  cases found : Name.readFrom 0 [] {} text with
  | failure length cause place =>
    rw [found] at read
    exact bind_error read
  | success length value =>
    obtain ⟨name, flags⟩ := value
    rw [found] at read
    rw [bind_ok read]
    dsimp only
    cases known : Symbol.ofWord? name with
    | none => rfl
    | some word =>
      dsimp only
      have isWord := List.mem_filter.mp (List.mem_of_find?_eq_some known)
      have same := Symbol.text_of_ofWord? known
      have content : (Lexeme.symbol word).content flags = ⟨.symbol word, some (.text name), flags⟩ := by
        rw [Lexeme.content, Lexeme.payload, if_pos isWord.2, same]
        rfl
      split
      · rfl
      · rw [← content]
        rfl

theorem not_isWord_of_leadingMark? {mark : Symbol} (found : Symbol.leadingMark? text = some mark) :
    ¬mark.isWord = true := by
  have plain : ∀ mark ∈ Symbol.marks, ¬mark.isWord = true := by decide +kernel
  exact plain mark (List.mem_of_find?_eq_some found)

/-- The content of a lexeme is what is kept of the one that is read. -/
theorem content_eq (rest : machine.rest = text) :
    content machine = ((Lexeme.read text).map fun found =>
      found.1.content found.2).outcome machine := by
  rw [content, peek_bind, rest]
  cases text with
  | nil => rfl
  | cons char text =>
    rw [List.head?_cons, Lexeme.read]
    dsimp only
    rw [peekNext_bind, rest, List.drop_one, List.tail_cons]
    split
    · rename_i isQuote
      have read := string_eq rest isQuote
      cases found : StringLiteral.read char text with
      | failure => rw [found] at read; exact bind_error read
      | success => rw [found] at read; exact bind_ok read
    · have starts : NumericLiteral.starts (char :: text) = true ↔
          char.isDigit = true ∨ char = '.' ∧ text.head?.any Char.isDigit = true := by
        by_cases point : char = '.'
        · subst point
          exact (or_iff_right (by decide)).trans (and_iff_right rfl) |>.symm
        · rw [NumericLiteral.starts]
          · exact (or_iff_left fun both => point both.1).symm
          · rintro rest same
            exact point (List.cons.inj same).1
      split
      · rename_i isNumber
        rw [if_pos (starts.mpr isNumber), number_eq rest (starts.mpr isNumber)]
        cases NumericLiteral.read (char :: text) <;> rfl
      · rename_i notNumber
        rw [if_neg (mt starts.mp notNumber)]
        split
        · exact name_eq rest
        · have read := mark_eq rest
          rw [rest] at read
          cases found : Symbol.leadingMark? (char :: text) with
          | none =>
            rw [found] at read
            exact bind_error read
          | some mark =>
            have content : (Lexeme.symbol mark).content {} = ⟨.symbol mark, none, {}⟩ := by
              rw [Lexeme.content, Lexeme.payload, if_neg (not_isWord_of_leadingMark? found)]
              rfl
            rw [found] at read
            refine (bind_ok read).trans ?_
            rw [← content]
            rfl

/-- Behind a comment in block form, from an index on, the trivia goes on, or the comment has no end.
What a machine does is given, and what a reader does. -/
def EndsComment (machine : Machine) (start index : Nat) (before : Bool)
    (run : EStateM.Result (Stop Cause) Machine Bool) (reading : Reading Bool) : Prop :=
  (∃ length inside, index ≤ length ∧ run = .ok inside (machine.skip length) ∧
    reading = Trivia.readFrom .between length (before || inside) (machine.skip length).rest) ∨
  ∃ length, run = .error (.fault .unterminatedComment) (machine.skip length) ∧
    reading = .failure length .unterminatedComment start

theorem EndsComment.of_le {start first index : Nat} {before : Bool}
    {run : EStateM.Result (Stop Cause) Machine Bool} {reading : Reading Bool} (le : first ≤ index)
    (ends : EndsComment machine start index before run reading) :
    EndsComment machine start first before run reading := by
  obtain ⟨length, inside, after, same⟩ | fails := ends
  · exact .inl ⟨length, inside, Nat.le_trans le after, same⟩
  · exact .inr fails

theorem blockComment_eq {start index turns : Nat} {before lineBreak : Bool}
    (rest : (machine.skip index).rest = text) (enough : text.length < turns) :
    EndsComment machine start index before (blockComment lineBreak turns (machine.skip index))
      (Trivia.readFrom (.blockComment start) index (before || lineBreak) text) := by
  induction turns generalizing index lineBreak text with
  | zero => contradiction
  | succ turns ih =>
    rw [blockComment, peekNext_bind, peek_bind, rest]
    cases text with
    | nil => exact .inr ⟨index, rfl, by rw [Trivia.readFrom]⟩
    | cons char text =>
      have behind : (machine.skip (index + 1)).rest = text := Machine.rest_skip_succ rest
      have shorter : text.length < turns := Nat.lt_of_succ_lt_succ enough
      rw [List.head?_cons, List.drop_one, List.tail_cons]
      dsimp only
      by_cases ends : char = '*' ∧ text.head? = some '/'
      · obtain ⟨rfl, next⟩ := ends
        obtain ⟨text, rfl⟩ := List.head?_eq_some_iff.mp next
        refine .inl ⟨index + 2, lineBreak, Nat.le_add_right _ _, ?_, ?_⟩
        · rw [if_pos ⟨rfl, next⟩, advance_bind rest, Machine.skip_skip, advance_bind behind,
            Machine.skip_skip]
          rfl
        · rw [Trivia.readFrom, ← Machine.skip_skip, Machine.rest_skip, rest]
          rfl
      · rw [if_neg ends, Trivia.readFrom_blockComment ends]
        split
        · rename_i isReturn
          subst isReturn
          rw [advance_bind rest, Machine.skip_skip]
          by_cases feed : text.head? = some '\n'
          · obtain ⟨text, rfl⟩ := List.head?_eq_some_iff.mp feed
            have further : (machine.skip (index + 1 + 1)).rest = text :=
              Machine.rest_skip_succ behind
            have next := @ih text (index + 1 + 1) true further (Nat.lt_of_succ_lt shorter)
            rw [bind_ok (accept_eq_true behind), Machine.skip_skip,
              Trivia.readFrom_blockComment (by rintro ⟨⟨⟩, -⟩)]
            rw [Bool.or_true] at next
            rw [show isLineTerminator '\r' = true from rfl, Bool.or_true, Bool.true_or]
            exact next.of_le (Nat.le_add_right index 2)
          · have next := @ih text (index + 1) true behind shorter
            rw [bind_ok (accept_eq_false (behind ▸ feed))]
            rw [Bool.or_true] at next
            rw [show isLineTerminator '\r' = true from rfl, Bool.or_true]
            exact next.of_le (Nat.le_succ index)
        · have next := @ih text (index + 1) (lineBreak || isLineTerminator char) behind shorter
          rw [advance_bind rest, Machine.skip_skip, Bool.or_assoc]
          exact next.of_le (Nat.le_succ index)

theorem trivia_eq {index turns : Nat} {lineBreak : Bool} (rest : (machine.skip index).rest = text)
    (enough : text.length < turns) :
    trivia lineBreak turns (machine.skip index) =
      (Trivia.readFrom .between index lineBreak text).outcome machine := by
  induction turns generalizing index lineBreak text with
  | zero => contradiction
  | succ turns ih =>
    have all := (machine.skip index).length_rest_le
    rw [trivia, peekNext_bind, peek_bind, rest]
    cases text with
    | nil =>
      rw [Trivia.readFrom]
      · rfl
      · rintro start ⟨⟩
    | cons char text =>
      have behind : (machine.skip (index + 1)).rest = text := Machine.rest_skip_succ rest
      have shorter : text.length < turns := Nat.lt_of_succ_lt_succ enough
      rw [List.head?_cons, List.drop_one, List.tail_cons]
      dsimp only
      split
      · rename_i isReturn
        subst isReturn
        rw [advance_bind rest, Machine.skip_skip, Trivia.readFrom_terminator rfl]
        by_cases feed : text.head? = some '\n'
        · obtain ⟨text, rfl⟩ := List.head?_eq_some_iff.mp feed
          have further : (machine.skip (index + 1 + 1)).rest = text := Machine.rest_skip_succ behind
          rw [bind_ok (accept_eq_true behind), Machine.skip_skip, Trivia.readFrom_terminator rfl]
          exact ih further (Nat.lt_of_succ_lt shorter)
        · rw [bind_ok (accept_eq_false (behind ▸ feed))]
          exact ih behind shorter
      · split
        · rename_i terminator
          rw [advance_bind rest, Machine.skip_skip, Trivia.readFrom_terminator terminator]
          exact ih behind shorter
        · rename_i plain
          split
          · rename_i line
            obtain ⟨rfl, next⟩ := line
            obtain ⟨text, rfl⟩ := List.head?_eq_some_iff.mp next
            have both : ('/' :: '/' :: text).takeWhile (fun char => !isLineTerminator char) =
                '/' :: '/' :: text.takeWhile fun char => !isLineTerminator char := rfl
            rw [turns_bind, bind_ok (charactersOf_eq (Nat.lt_succ_of_le all)), Machine.skip_skip,
              rest, both, Trivia.readFrom, Trivia.readFrom_lineComment, Nat.add_assoc, Nat.add_comm 2]
            refine ih ?_ ?_
            · rw [← Machine.skip_skip, Machine.rest_skip, rest]
              rfl
            · rw [List.length_drop]
              exact Nat.lt_of_le_of_lt (Nat.sub_le _ _) (Nat.lt_of_succ_lt shorter)
          · rename_i line
            split
            · rename_i block
              obtain ⟨rfl, next⟩ := block
              obtain ⟨text, rfl⟩ := List.head?_eq_some_iff.mp next
              have further : (machine.skip (index + 1 + 1)).rest = text :=
                Machine.rest_skip_succ behind
              have inText := (machine.skip (index + 1 + 1)).length_rest_le
              rw [further] at inText
              rw [advance_bind rest, Machine.skip_skip, advance_bind behind, Machine.skip_skip,
                turns_bind, Trivia.readFrom]
              have run := @blockComment_eq machine text index (index + 1 + 1) _ lineBreak false further
                (Nat.lt_succ_of_le inText)
              rw [Bool.or_false] at run
              obtain ⟨length, inside, le, run, same⟩ | ⟨length, run, same⟩ := run
              · rw [bind_ok run, same]
                refine ih rfl ?_
                have here : (machine.skip (index + 1 + 1)).rest.length = text.length := by
                  rw [further]
                rw [Machine.rest_skip, List.length_drop] at here ⊢
                rw [List.length_cons] at shorter
                omega
              · rw [bind_error run, same]
                rfl
            · rename_i block
              rw [Trivia.readFrom_plain plain line block]
              split
              · rw [advance_bind rest, Machine.skip_skip]
                exact ih behind shorter
              · rfl

end Checked

/-- A machine at a cursor in a source text. -/
def Cursor.machine (source : String) (cursor : Cursor) : Machine :=
  ⟨source.toList, cursor.offset⟩

/-- What a machine does where a scanner does something, and keeps a part of it. -/
def Scan.outcome {α β : Type} (source : String) (keep : α → β) :
    EStateM.Result Fault Cursor α → EStateM.Result (Stop Cause) Machine β
  | .ok value after => .ok (keep value) (after.machine source)
  | .error fault after => .error (.fault fault.cause) (after.machine source)

namespace Cursor.IsIn

variable {source : String} {cursor : Cursor} {walk : Position → List Char → Position} {count : Nat}

theorem rest_machine (inSource : cursor.IsIn source) :
    (cursor.machine source).rest = cursor.rest :=
  inSource.rest.symm

theorem machine_moveBy (enough : count ≤ cursor.rest.length) :
    (cursor.moveBy walk count).machine source = (cursor.machine source).skip count := by
  rw [machine, offset_moveBy enough]
  rfl

end Cursor.IsIn

namespace Checked

variable {source : String} {cursor : Cursor}

theorem scanTrivia_eq (inSource : cursor.IsIn source) :
    trivia false ((cursor.machine source).text.length + 1) (cursor.machine source) =
      Scan.outcome source id (Scan.trivia cursor) := by
  have rest := inSource.rest_machine
  have enough := (cursor.machine source).length_rest_le
  rw [rest] at enough
  have same := @trivia_eq (cursor.machine source) cursor.rest 0 _ false rest
    (Nat.lt_succ_of_le enough)
  have le := Trivia.length_read_le cursor.rest
  rw [← Trivia.read] at same
  refine same.trans ?_
  rw [Scan.trivia]
  cases read : Trivia.read cursor.rest with
  | failure length cause place =>
    rw [read] at le
    exact congrArg (EStateM.Result.error _) (Cursor.IsIn.machine_moveBy le).symm
  | success length lineBreak =>
    rw [read] at le
    exact congrArg (EStateM.Result.ok _) (Cursor.IsIn.machine_moveBy le).symm

theorem lexeme_eq (inSource : cursor.IsIn source) (lineBreak : Bool) :
    lexeme lineBreak (cursor.machine source) =
      Scan.outcome source Token.raw (Scan.lexeme lineBreak cursor) := by
  have same := content_eq inSource.rest_machine
  have le := Lexeme.length_read_le cursor.rest
  rw [lexeme, get_bind, Scan.lexeme]
  cases read : Lexeme.read cursor.rest with
  | failure length cause place =>
    rw [read] at same le
    refine (bind_error same).trans ?_
    exact congrArg (EStateM.Result.error _) (Cursor.IsIn.machine_moveBy le).symm
  | success length found =>
    rw [read] at same le
    have stop : (cursor.moveBy (Lexeme.walk cursor.rest) length).machine source =
        (cursor.machine source).skip length := Cursor.IsIn.machine_moveBy le
    refine (bind_ok same).trans ?_
    rw [get_bind, ← stop]
    rfl

/-- A machine finds the token that a scanner finds. -/
theorem token_eq (inSource : cursor.IsIn source) :
    token (cursor.machine source) = Scan.outcome source Token.raw (Scan.token cursor) := by
  have gap := scanTrivia_eq inSource
  rw [token, turns_bind]
  simp only [Scan.token, bind, EStateM.bind]
  cases scanned : Scan.trivia cursor with
  | error fault behind =>
    rw [scanned] at gap
    exact bind_error gap
  | ok lineBreak behind =>
    have moves : ∃ length, behind = cursor.pass length := by
      rw [Scan.trivia] at scanned
      split at scanned
      · cases scanned
        exact ⟨_, rfl⟩
      · cases scanned
    obtain ⟨length, rfl⟩ := moves
    rw [scanned] at gap
    exact (bind_ok gap).trans (lexeme_eq inSource.pass lineBreak)

section Expressions

variable {machine : Machine} {text front : List Char}

/-- The pattern in a text that has been read, from an index on, up to a slash. -/
def patternIn (index : Nat) (text : List Char) : Reading Unit → Reading (List Char)
  | .success length _ => .success length (text.take (length - 1 - index))
  | .failure length cause place => .failure length cause place

theorem map_patternIn_succ {index : Nat} {char : Char} {found : List Char} {reading : Reading Unit}
    (later : ∀ length, reading = .success length () → index + 1 < length) :
    (patternIn (index + 1) text reading).map ((char :: found).reverse ++ ·) =
      (patternIn index (char :: text) reading).map (found.reverse ++ ·) := by
  cases reading with
  | failure length cause place => rfl
  | success length value =>
    have inside := later length rfl
    have one : length - 1 - index = length - 1 - (index + 1) + 1 := by omega
    rw [patternIn, patternIn, one, List.take_succ_cons, Reading.map, Reading.map, List.reverse_cons,
      List.append_assoc]
    rfl

theorem pattern_eq {isInClass : Bool} {found : List Char} {index turns : Nat}
    (rest : (machine.skip index).rest = text) (enough : text.length < turns) :
    pattern isInClass found turns (machine.skip index) =
      ((patternIn index text (RegularExpression.closingSlash isInClass index text)).map
        (found.reverse ++ ·)).outcome machine := by
  induction turns generalizing isInClass found index text with
  | zero => contradiction
  | succ turns ih =>
    rw [pattern, peek_bind, rest]
    cases text with
    | nil => rfl
    | cons char text =>
      have behind : (machine.skip (index + 1)).rest = text := Machine.rest_skip_succ rest
      have shorter : text.length < turns := Nat.lt_of_succ_lt_succ enough
      rw [List.head?_cons]
      dsimp only
      by_cases escape : char = '\\'
      · subst escape
        rw [if_neg (by decide), if_pos rfl, advance_bind rest, Machine.skip_skip, peek_bind, behind]
        cases text with
        | nil => rfl
        | cons escaped text =>
          have further : (machine.skip (index + 1 + 1)).rest = text := Machine.rest_skip_succ behind
          rw [List.head?_cons, RegularExpression.closingSlash]
          dsimp only
          split
          · rfl
          · rw [advance_bind behind, Machine.skip_skip, ih further (Nat.lt_of_succ_lt shorter)]
            rw [map_patternIn_succ fun length read => ?_, map_patternIn_succ fun length read => ?_]
            · exact Nat.lt_of_succ_lt (RegularExpression.lt_of_closingSlash read)
            · exact RegularExpression.lt_of_closingSlash read
      · rw [RegularExpression.closingSlash_of_plain escape]
        split
        · rfl
        · split
          · rw [advance_bind rest, Machine.skip_skip, patternIn, Nat.add_sub_cancel, Nat.sub_self,
              List.take_zero, Reading.map, List.append_nil]
            rfl
          · rw [advance_bind rest, Machine.skip_skip, ih behind shorter]
            rw [map_patternIn_succ fun length read => RegularExpression.lt_of_closingSlash read]

/-- A slash may have taken an equals sign with it, which is in the pattern then. -/
theorem pattern_front (known : front = [] ∨ front = ['=']) (rest : machine.rest = front ++ text) :
    pattern false [] (machine.text.length + 1) machine =
      ((patternIn 0 text (RegularExpression.closingSlash false 0 text)).map
        (front ++ ·)).outcome (machine.skip front.length) := by
  have enough := machine.length_rest_le
  rw [rest, List.length_append] at enough
  obtain rfl | rfl := known
  · rw [List.length_nil, Nat.zero_add] at enough
    exact @pattern_eq machine text false [] 0 _ rest (Nat.lt_succ_of_le enough)
  · have behind : (machine.skip 1).rest = text := by
      rw [Machine.rest_skip, rest]
      rfl
    have later := @pattern_eq (machine.skip 1) text false ['='] 0 machine.text.length behind
      (by rw [List.length_singleton] at enough; omega)
    rw [pattern, peek_bind, rest]
    exact (advance_bind rest).trans later

/-- A machine finds the regular expression that a reader finds behind a slash. -/
theorem expression_eq (known : front = [] ∨ front = ['=']) (rest : machine.rest = front ++ text) :
    expression machine =
      ((RegularExpression.read front text).map fun lexeme =>
        lexeme.content {}).outcome (machine.skip front.length) := by
  have run := pattern_front known rest
  have behind : (machine.skip front.length).rest = text := by
    rw [Machine.rest_skip, rest, List.drop_left]
  rw [expression, turns_bind, RegularExpression.read]
  cases read : RegularExpression.closingSlash false 0 text with
  | failure length cause place =>
    rw [read] at run
    exact bind_error run
  | success length value =>
    have enough := ((machine.skip front.length).skip length).length_rest_le
    have flags := @charactersOf_eq isIdentifierPart [] _ _ (Nat.lt_succ_of_le enough)
    rw [Machine.rest_skip, behind] at flags
    rw [read] at run
    rw [bind_ok run, turns_bind]
    refine (bind_ok flags).trans ?_
    dsimp only
    rw [Nat.sub_zero, List.reverse_nil, List.nil_append, Machine.skip_skip _ length,
      String.length_ofList]
    cases RegularExpression.fault? (String.ofList (front ++ text.take (length - 1)))
      (String.ofList ((text.drop length).takeWhile isIdentifierPart)) with
    | none => rfl
    | some cause => rfl

end Expressions

end Checked

/-- A cursor stands behind a slash, with the part of a pattern in front of it that the slash has
taken. -/
structure Token.IsSlash (source : String) (slash : Token) (front : List Char) (behind : Cursor) :
    Prop where
  slash? : Scan.slash? slash.lexeme = some front
  isIn : behind.IsIn source
  rest : source.toList.drop (slash.start + 1) = front ++ behind.rest
  offset : behind.offset = slash.start + 1 + front.length

namespace Checked

variable {source : String} {cursor behind : Cursor} {slash : Token} {front : List Char}

theorem known_of_slash? {lexeme : Lexeme} (found : Scan.slash? lexeme = some front) :
    (front = [] ∨ front = ['=']) ∧
      (lexeme.kind = .symbol BinaryOperator.divide ∨
        lexeme.kind = .symbol AssignmentOperator.divideAssign) := by
  rw [Scan.slash?.eq_def] at found
  split at found
  · exact ⟨.inl (Option.some.inj found).symm, .inl rfl⟩
  · exact ⟨.inr (Option.some.inj found).symm, .inr rfl⟩
  · cases found

/-- A machine goes back to a slash, and finds the regular expression that a scanner finds. -/
theorem reread_eq (isSlash : slash.IsSlash source front behind) :
    reread slash.raw (cursor.machine source) =
      Scan.outcome source Token.raw (Scan.regularExpression slash front behind) := by
  obtain ⟨known, kind⟩ := known_of_slash? isSlash.slash?
  have same := @expression_eq ⟨source.toList, slash.start + 1⟩ _ _ known isSlash.rest
  have there : (Machine.mk source.toList (slash.start + 1)).skip front.length =
      behind.machine source := by
    rw [Cursor.machine, isSlash.offset]
    rfl
  have le := RegularExpression.length_read_le front behind.rest
  have guard : slash.raw.isSlash = true := by
    rw [RawToken.isSlash, Bool.or_eq_true, beq_iff_eq, beq_iff_eq]
    exact kind
  rw [there] at same
  rw [reread, if_pos guard, Scan.regularExpression]
  cases read : RegularExpression.read front behind.rest with
  | failure length cause place =>
    rw [read] at same le
    refine (bind_error same).trans ?_
    exact congrArg (EStateM.Result.error _) (Cursor.IsIn.machine_moveBy le).symm
  | success length lexeme =>
    rw [read] at same le
    have stop : (behind.pass length).machine source = (behind.machine source).skip length :=
      Cursor.IsIn.machine_moveBy le
    refine (bind_ok same).trans ?_
    rw [get_bind, ← stop]
    rfl

end Checked

end EcmaScript
