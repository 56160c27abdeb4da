import EcmaScript.Proofs.Alignment
import EcmaScript.Proofs.Separation

/-!
# Scanning in front of other text

A token is scanned alike at two cursors whose texts begin alike and go on, behind the token, with
something that is apart from it. The marks that are no beginning of another mark are scanned alike
whatever comes after them.
-/

namespace EcmaScript

/-- Tokens that are alike wherever they are. -/
abbrev Token.Alike (first second : Token) : Prop :=
  first.Matches (fun _ => .first) (fun _ => .first) second

/-- A mark is a single character that nothing else begins with. -/
structure Symbol.StandsAlone (mark : Symbol) (char : Char) : Prop where
  text : mark.text.toList = [char]
  isMark : mark ∈ marks
  only : ∀ other ∈ marks, other.text.toList.head? = some char → other = mark
  plain : char ∉ ['"', '\'', '\\', '.', '/']
  notDigit : char.isDigit = false
  notStart : isIdentifierStart char = false
  notTrivia : isLineTerminator char = false ∧ isWhiteSpace char = false

theorem Symbol.semicolon_standsAlone :
    StandsAlone (.punctuator .semicolon) ';' := by
  constructor <;> decide +kernel

theorem Symbol.leftBrace_standsAlone :
    StandsAlone (.punctuator .leftBrace) '\x7b' := by
  constructor <;> decide +kernel

section Alone

variable {mark : Symbol} {char : Char} (alone : mark.StandsAlone char) (rest : List Char)
include alone

theorem Symbol.leadingMark?_alone : leadingMark? (char :: rest) = some mark := by
  cases found : leadingMark? (char :: rest) with
  | none =>
    have refused := List.find?_eq_none.mp found mark alone.isMark
    rw [alone.text] at refused
    exact absurd (by simp) refused
  | some symbol =>
    have member := List.mem_of_find?_eq_some found
    have isFront := List.find?_some found
    have isFront := List.isPrefixOf_iff_prefix.mp isFront
    have nonempty := length_text_pos symbol member
    rw [← String.length_toList] at nonempty
    cases begins : symbol.text.toList with
    | nil => simp [begins] at nonempty
    | cons first others =>
      rw [begins, List.cons_prefix_cons] at isFront
      rw [alone.only symbol member (by rw [begins, List.head?_cons, isFront.1])]

/-- A mark that stands alone is read whatever comes after it. -/
theorem Lexeme.read_alone : read (char :: rest) = .success 1 (.symbol mark, {}) := by
  have plain := alone.plain
  simp only [List.mem_cons, List.not_mem_nil, or_false, not_or] at plain
  have notNumber : NumericLiteral.starts (char :: rest) = false := by
    unfold NumericLiteral.starts
    split
    · rename_i whole
      exact absurd (List.cons.inj whole).1 plain.2.2.2.1
    · simpa [NumericLiteral.startsDigit] using alone.notDigit
  have one : mark.text.length = 1 := by
    rw [← String.length_toList, alone.text, List.length_singleton]
  rw [read, if_neg (by simp [plain]), notNumber, if_neg Bool.false_ne_true,
    if_neg (by simp [plain, alone.notStart]), Symbol.leadingMark?_alone alone]
  dsimp only
  rw [one]

theorem Trivia.read_alone : Trivia.read (char :: rest) = .success 0 false := by
  have plain := alone.plain
  simp only [List.mem_cons, List.not_mem_nil, or_false, not_or] at plain
  simp [Trivia.read, Trivia.readFrom, plain, alone.notTrivia]

end Alone

/-- The token that some text within a line is at a cursor. -/
def Token.inLine (cursor : Cursor) (text : List Char) (lexeme : Lexeme) (flags : Flags) :
    Token where
  lexeme
  flags
  span := ⟨cursor.position, cursor.position.right text.length⟩
  start := cursor.offset
  stop := cursor.offset + text.length
  text := String.ofList text

/-- The cursor behind some text within a line. -/
def Cursor.passInLine (cursor : Cursor) (text back : List Char) : Cursor :=
  ⟨back, cursor.offset + text.length, cursor.position.right text.length⟩

namespace Scan

/-- What is scanned is trivia and then a lexeme. -/
theorem token_eq_ok {cursor after : Cursor} {next : Token} :
    token cursor = .ok next after ↔
      ∃ gap lineBreak length lexeme flags, Trivia.read cursor.rest = .success gap lineBreak ∧
        Lexeme.read (cursor.rest.drop gap) = .success length (lexeme, flags) ∧
        after = (cursor.pass gap).moveBy (Lexeme.walk (cursor.rest.drop gap)) length ∧
        next =
          { lexeme, flags := { flags with lineBreak }
            span := ⟨(cursor.pass gap).position, after.position⟩
            start := (cursor.pass gap).offset
            stop := after.offset
            text := String.ofList ((cursor.rest.drop gap).take length) } := by
  simp only [token, bind, EStateM.bind, trivia]
  constructor
  · intro scanned
    cases before : Trivia.read cursor.rest with
    | failure =>
      rw [before] at scanned
      cases scanned
    | success gap lineBreak =>
      rw [before] at scanned
      unfold lexeme at scanned
      dsimp only [Cursor.rest_pass] at scanned
      split at scanned
      · rename_i length lexeme flags inside
        cases scanned
        exact ⟨gap, lineBreak, length, lexeme, flags, rfl, inside, rfl, rfl⟩
      · cases scanned
  · rintro ⟨gap, lineBreak, length, item, flags, before, inside, rfl, rfl⟩
    rw [before]
    simp only [lexeme, Cursor.rest_pass, inside]

/-- A lexeme at the cursor, with no trivia before it, is the next token. -/
theorem token_of_lexeme {cursor : Cursor} {text back : List Char} {item : Lexeme} {flags : Flags}
    (here : cursor.rest = text ++ back) (none : Trivia.read cursor.rest = .success 0 false)
    (found : Lexeme.read cursor.rest = .success text.length (item, flags)) :
    token cursor = .ok
      { lexeme := item
        flags := { flags with lineBreak := false }
        span := ⟨cursor.position, Lexeme.walk cursor.rest cursor.position text⟩
        start := cursor.offset
        stop := cursor.offset + text.length
        text := String.ofList text }
      ⟨back, cursor.offset + text.length, Lexeme.walk cursor.rest cursor.position text⟩ := by
  have moved : cursor.moveBy (Lexeme.walk cursor.rest) text.length =
      ⟨back, cursor.offset + text.length, Lexeme.walk cursor.rest cursor.position text⟩ := by
    simp [Cursor.moveBy, here]
  refine token_eq_ok.mpr ⟨0, false, _, _, _, none, found, ?_, ?_⟩
  · rw [Cursor.pass_zero, List.drop_zero, moved]
  · rw [Cursor.pass_zero, List.drop_zero, here, List.take_left]

/-- A lexeme in one line, and not in quotes, moves a position along the line. -/
theorem walk_inLine {front : List Char} (back : List Char) (position : Position)
    (noQuotes : front.head? ≠ some '"' ∧ front.head? ≠ some '\'') (some : front ≠ [])
    (inLine : ∀ char ∈ front, isLineTerminator char = false) :
    Lexeme.walk (front ++ back) position front = position.right front.length := by
  obtain ⟨char, front, rfl⟩ := List.exists_cons_of_ne_nil some
  rw [List.head?_cons] at noQuotes
  rw [Lexeme.walk, if_neg]
  · exact Position.after_of_inLine _ position inLine
  · rw [List.cons_append, List.head?_cons, not_or]
    exact noQuotes

/-- A faulty lexeme at the cursor, with no trivia before it, is a fault. -/
theorem token_of_faulty {cursor : Cursor} {length place : Nat} {cause : Cause}
    (none : Trivia.read cursor.rest = .success 0 false)
    (found : Lexeme.read cursor.rest = .failure length cause place) :
    token cursor =
      .error ⟨cause, (cursor.moveBy (Lexeme.walk cursor.rest) place).position⟩
        (cursor.moveBy (Lexeme.walk cursor.rest) length) := by
  simp only [token, bind, EStateM.bind, trivia, none, Cursor.pass_zero, lexeme, found]

section InLine

variable {cursor : Cursor} {text back : List Char} (here : cursor.rest = text ++ back)
  (none : Trivia.read cursor.rest = .success 0 false)
  (noQuotes : text.head? ≠ some '"' ∧ text.head? ≠ some '\'') (some : text ≠ [])
  (inLine : ∀ char ∈ text, isLineTerminator char = false)
include here none noQuotes some inLine

/-- A lexeme in one line, and not in quotes, is the next token. -/
theorem token_inLine {item : Lexeme} {flags : Flags} (noBreak : flags.lineBreak = false)
    (found : Lexeme.read cursor.rest = .success text.length (item, flags)) :
    token cursor = .ok (.inLine cursor text item flags) (cursor.passInLine text back) := by
  have flags_eq : { flags with lineBreak := false } = flags := by
    rw [← noBreak]
  rw [token_of_lexeme here none found, here, walk_inLine back cursor.position noQuotes some
    inLine, flags_eq]
  rfl

/-- A lexeme in one line, and not in quotes, that is faulty as a whole is a fault at the cursor. -/
theorem token_of_faulty_inLine {cause : Cause}
    (found : Lexeme.read cursor.rest = .failure text.length cause 0) :
    token cursor = .error ⟨cause, cursor.position⟩ (cursor.passInLine text back) := by
  have start : Lexeme.walk cursor.rest cursor.position [] = cursor.position := by
    unfold Lexeme.walk
    split <;> rfl
  have stop := walk_inLine back cursor.position noQuotes some inLine
  rw [← here] at stop
  rw [token_of_faulty none found, Cursor.moveBy, Cursor.moveBy, List.take_zero, start, here,
    List.take_left, List.drop_left, ← here, stop]
  rfl

end InLine

theorem regularExpression_eq_ok {cursor after : Cursor} {slash next : Token} {opening : List Char} :
    regularExpression slash opening cursor = .ok next after ↔
      ∃ length lexeme, RegularExpression.read opening cursor.rest = .success length lexeme ∧
        after = cursor.pass length ∧
        next =
          { lexeme, flags := { lineBreak := slash.flags.lineBreak }
            span := ⟨slash.span.start, after.position⟩
            start := slash.start
            stop := after.offset
            text := slash.text ++ String.ofList (cursor.rest.take length) } := by
  unfold regularExpression
  constructor
  · intro scanned
    split at scanned
    · rename_i length lexeme read
      cases scanned
      exact ⟨length, lexeme, read, rfl, rfl⟩
    · cases scanned
  · rintro ⟨length, lexeme, read, rfl, rfl⟩
    rw [read]

variable {first second after : Cursor} {next : Token} {front back other : List Char}

/-- What is scanned depends on nothing but the text ahead. -/
theorem token_same (scanned : token first = .ok next after) (rest : second.rest = first.rest) :
    ∃ mate last, token second = .ok mate last ∧ next.Alike mate ∧ last.rest = after.rest := by
  obtain ⟨gap, lineBreak, length, lexeme, flags, before, found, rfl, rfl⟩ :=
    token_eq_ok.mp scanned
  refine ⟨_, _, token_eq_ok.mpr ⟨gap, lineBreak, length, lexeme, flags, by rw [rest, before],
    by rw [rest, found], rfl, rfl⟩, ⟨rfl, rfl, ?_, rfl⟩, ?_⟩
  · simp only [rest]
  · simp only [Cursor.moveBy, Cursor.rest_pass, rest]

/-- A slash begins the same regular expression wherever it is. -/
theorem regularExpression_same {slash slashToo : Token} {opening : List Char}
    (scanned : regularExpression slash opening first = .ok next after)
    (alike : slash.Alike slashToo) (rest : second.rest = first.rest) :
    ∃ mate last, regularExpression slashToo opening second = .ok mate last ∧ next.Alike mate ∧
      last.rest = after.rest := by
  obtain ⟨length, lexeme, read, rfl, rfl⟩ := regularExpression_eq_ok.mp scanned
  refine ⟨_, _, regularExpression_eq_ok.mpr ⟨length, lexeme, by rw [rest, read], rfl, rfl⟩,
    ⟨rfl, ?_, ?_, rfl⟩, ?_⟩
  · rw [alike.flags]
  · simp only [alike.text, rest]
  · rw [Cursor.rest_pass, Cursor.rest_pass, rest]

/-- A token is scanned in front of a text as it is in front of another. -/
theorem token_append (scanned : token first = .ok next after) (inside : next.lexeme ≠ .endOfFile)
    (rest : first.rest = front ++ back) (restToo : second.rest = front ++ other)
    (within : back.length ≤ after.rest.length) (separated : Separated other) :
    ∃ mate last passed, token second = .ok mate last ∧ next.Alike mate ∧
      after.rest = passed ++ back ∧ last.rest = passed ++ other := by
  obtain ⟨gap, lineBreak, length, lexeme, flags, before, found, rfl, rfl⟩ :=
    token_eq_ok.mp scanned
  have gapLe := Trivia.length_read_le first.rest
  have lengthLe := Lexeme.length_read_le (first.rest.drop gap)
  have some := (Lexeme.pos_of_read found inside).1
  rw [before] at gapLe
  rw [found] at lengthLe
  simp only [Reading.length, Cursor.moveBy, Cursor.rest_pass, List.length_drop, rest,
    List.length_append] at gapLe lengthLe within
  have dropped : ∀ text, (front ++ text).drop gap = front.drop gap ++ text := fun text =>
    List.drop_append_of_le_length (by omega)
  have shorter : (front.drop gap).length = front.length - gap := List.length_drop
  have taken : ∀ text, (front.drop gap ++ text).take length = (front.drop gap).take length :=
    fun text => List.take_append_of_le_length (by omega)
  have passed : ∀ text, (front.drop gap ++ text).drop length =
      (front.drop gap).drop length ++ text := fun text =>
    List.drop_append_of_le_length (by omega)
  rw [rest] at before found
  rw [dropped] at found
  have beforeToo : Trivia.read (front ++ other) = .success gap lineBreak :=
    Trivia.readFrom_append before (by omega) separated
  have foundToo := Lexeme.read_append found inside (by omega) separated
  refine ⟨_, _, (front.drop gap).drop length, token_eq_ok.mpr
    ⟨gap, lineBreak, length, lexeme, flags, by rw [restToo, beforeToo],
      by rw [restToo, dropped, foundToo], rfl, rfl⟩, ⟨rfl, rfl, ?_, rfl⟩, ?_, ?_⟩
  · simp only [rest, restToo, dropped, taken]
  · simp only [Cursor.moveBy, Cursor.rest_pass, rest, dropped, passed]
  · simp only [Cursor.moveBy, Cursor.rest_pass, restToo, dropped, passed]

/-- A slash begins the same regular expression in front of a text as in front of another. -/
theorem regularExpression_append {slash slashToo : Token} {opening : List Char}
    (scanned : regularExpression slash opening first = .ok next after)
    (alike : slash.Alike slashToo) (rest : first.rest = front ++ back)
    (restToo : second.rest = front ++ other) (within : back.length ≤ after.rest.length)
    (separated : Separated other) :
    ∃ mate last passed, regularExpression slashToo opening second = .ok mate last ∧
      next.Alike mate ∧ after.rest = passed ++ back ∧ last.rest = passed ++ other := by
  obtain ⟨length, lexeme, read, rfl, rfl⟩ := regularExpression_eq_ok.mp scanned
  have lengthLe := RegularExpression.length_read_le opening first.rest
  rw [read] at lengthLe
  simp only [Reading.length, Cursor.rest_pass, List.length_drop, rest,
    List.length_append] at lengthLe within
  have dropped : ∀ text, (front ++ text).drop length = front.drop length ++ text := fun text =>
    List.drop_append_of_le_length (by omega)
  have taken : ∀ text, (front ++ text).take length = front.take length := fun text =>
    List.take_append_of_le_length (by omega)
  rw [rest] at read
  have readToo : RegularExpression.read opening (front ++ other) = .success length lexeme :=
    RegularExpression.read_append read (by omega) separated
  refine ⟨_, _, front.drop length, regularExpression_eq_ok.mpr
    ⟨length, lexeme, by rw [restToo, readToo], rfl, rfl⟩, ⟨rfl, ?_, ?_, rfl⟩, ?_, ?_⟩
  · rw [alike.flags]
  · simp only [alike.text, rest, restToo, taken]
  · rw [Cursor.rest_pass, rest, dropped]
  · rw [Cursor.rest_pass, restToo, dropped]

/-- A mark that stands alone is scanned whatever comes after it. -/
theorem token_alone {mark : Symbol} {char : Char} {tail : List Char} {cursor : Cursor}
    (alone : mark.StandsAlone char) (here : cursor.rest = char :: tail) :
    token cursor = .ok
      { lexeme := .symbol mark, flags := {}
        span := ⟨cursor.position, (cursor.moveBy (Lexeme.walk (char :: tail)) 1).position⟩
        start := cursor.offset
        stop := (cursor.moveBy (Lexeme.walk (char :: tail)) 1).offset
        text := String.ofList [char] } (cursor.moveBy (Lexeme.walk (char :: tail)) 1) := by
  refine token_eq_ok.mpr ⟨0, false, 1, .symbol mark, {}, ?_, ?_, ?_, ?_⟩
  · rw [here, Trivia.read_alone alone]
  · rw [List.drop_zero, here, Lexeme.read_alone alone]
  · rw [Cursor.pass_zero, List.drop_zero, here]
  · rw [Cursor.pass_zero, List.drop_zero, here]
    rfl

/-- A text is a single token. -/
def scansAs (text : List Char) (lexeme : Lexeme) : Bool :=
  match token ⟨text, 0, .first⟩ with
  | .ok next after => next.lexeme == lexeme && after.rest.isEmpty
  | .error .. => false

/-- A token that is a text of its own is scanned in front of another text. -/
theorem token_of_scansAs {text tail : List Char} {lexeme : Lexeme} {cursor : Cursor}
    (scans : scansAs text lexeme = true) (inside : lexeme ≠ .endOfFile) (separated : Separated tail)
    (here : cursor.rest = text ++ tail) :
    ∃ mate last, token cursor = .ok mate last ∧ mate.lexeme = lexeme ∧ last.rest = tail := by
  unfold scansAs at scans
  split at scans
  · rename_i scanned
    rw [Bool.and_eq_true, beq_iff_eq, List.isEmpty_iff] at scans
    obtain ⟨rfl, ended⟩ := scans
    obtain ⟨mate, last, passed, scannedToo, alike, same, rest⟩ :=
      token_append scanned inside (List.append_nil text).symm here (Nat.zero_le _) separated
    rw [ended, List.append_nil] at same
    exact ⟨mate, last, scannedToo, alike.lexeme, by rw [rest, ← same, List.nil_append]⟩
  · contradiction

end Scan

end EcmaScript
