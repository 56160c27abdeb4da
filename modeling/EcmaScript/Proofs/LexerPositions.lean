import EcmaScript.Proofs.LiteralLines
import EcmaScript.Proofs.TokenText

/-!
# Positions in a lexer

A lexer moves over a source text in steps: it scans the next token, reads the latest slash again as
a regular expression, or passes over a hashbang. Any step may be taken at any time, also after one
that failed. Wherever the lexer comes to, its position is that of its offset, unless it has moved
over a line or paragraph separator in a string literal without counting the line.
-/

namespace EcmaScript

/-- A string literal, or the beginning of one, has a line or paragraph separator in it that is not
escaped. -/
def hasRawSeparator : List Char → Bool
  | char :: rest => (char == '"' || char == '\'') && hasUnescaped isSeparator rest
  | [] => false

namespace Lexeme

/-- Reading does not stop between a carriage return and its line feed, nor does it at a fault. -/
theorem keepsPairs_read {text : List Char} (begins : BeginsToken text) :
    KeepsPairs (text.take (read text).length) (text.drop (read text).length) := by
  unfold read
  split
  · exact .nil _
  · rename_i char rest
    have plain := (begins char rfl).1
    split
    · rename_i quote
      obtain ⟨count, same, escapes⟩ := StringLiteral.escapes_readFrom quote 1 [] {} rest
      have before : KeepsPairs [char] rest := .of_inLine (by simpa using plain)
      rw [Reading.length_map, StringLiteral.read, same, Nat.add_comm]
      exact before.append escapes.pairs
    · split
      · rw [Reading.length_map]
        exact .of_inLine (NumericLiteral.inLine_read _)
      · split
        · exact .of_inLine (Name.inLine_read _)
        · split
          · rename_i found
            exact .of_inLine (Symbol.inLine_leadingMark? found)
          · exact .of_inLine (InLine.cons plain (.zero rest))

/-- Only in a string literal with a separator are lines counted in another way. -/
theorem walk_eq_after {text : List Char} (position : Position)
    (counted : hasRawSeparator (text.take (read text).length) = false) :
    walk text position (text.take (read text).length) =
      position.after (text.take (read text).length) := by
  unfold walk
  split
  · rename_i quoted
    cases text with
    | nil => simp at quoted
    | cons char rest =>
      have quote : char = '"' ∨ char = '\'' := by simpa using quoted
      obtain ⟨count, same, escapes⟩ := StringLiteral.escapes_readFrom quote 1 [] {} rest
      have length : (read (char :: rest)).length = count + 1 := by
        rw [read, if_pos quote, Reading.length_map, StringLiteral.read, same, Nat.add_comm]
      rw [length, List.take_succ_cons] at counted ⊢
      apply Position.afterLiteral_eq_after
      have both : isLineTerminator = fun char => isNewline char || isSeparator char :=
        funext isLineTerminator_eq
      have inside : hasUnescaped isLineTerminator (rest.take count) = false := by
        rw [both, hasUnescaped_or, escapes.escaped, Bool.false_or]
        rcases quote with rfl | rfl <;> exact counted
      rcases quote with rfl | rfl <;> exact inside
  · rfl

end Lexeme

/-- A cursor is at the position of its offset in a source text, and not between a carriage return
and its line feed. -/
structure Cursor.IsLocated (source : String) (cursor : Cursor) : Prop where
  isIn : cursor.IsIn source
  position : cursor.position = .ofOffset source cursor.offset
  keepsPairs : KeepsPairs (source.toList.take cursor.offset) (source.toList.drop cursor.offset)

/-- The span of a token is between the positions of its offsets. -/
def Token.IsLocated (source : String) (token : Token) : Prop :=
  token.span = ⟨.ofOffset source token.start, .ofOffset source token.stop⟩

namespace Cursor.IsLocated

variable {source : String} {cursor : Cursor} {count : Nat}

theorem atStart (source : String) : (Cursor.atStart source).IsLocated source :=
  ⟨.atStart source, rfl, .nil _⟩

/-- A cursor moves to the position of its new offset. -/
theorem moveBy (located : cursor.IsLocated source) {walk : Position → List Char → Position}
    (enough : count ≤ cursor.rest.length)
    (counted : walk cursor.position (cursor.rest.take count) =
      cursor.position.after (cursor.rest.take count))
    (pairs : KeepsPairs (cursor.rest.take count) (cursor.rest.drop count)) :
    (cursor.moveBy walk count).IsLocated source := by
  have offset : (cursor.moveBy walk count).offset = cursor.offset + count := offset_moveBy enough
  have passed : source.toList.take (cursor.offset + count) =
      source.toList.take cursor.offset ++ cursor.rest.take count := by
    rw [List.take_add, located.isIn.rest]
  have before : KeepsPairs (source.toList.take cursor.offset) cursor.rest := by
    rw [located.isIn.rest]
    exact located.keepsPairs
  refine ⟨located.isIn.moveBy, ?_, ?_⟩
  · have start := located.position
    rw [← Position.after_first] at start
    change walk cursor.position (cursor.rest.take count) = _
    rw [offset, ← Position.after_first, counted, start, passed, Position.after_append]
    intro last opening
    apply before last
    rw [List.head?_take] at opening
    split at opening
    · contradiction
    · exact opening
  · rw [offset, passed, ← List.drop_drop, ← located.isIn.rest]
    exact before.append pairs

theorem pass (located : cursor.IsLocated source) (enough : count ≤ cursor.rest.length)
    (pairs : KeepsPairs (cursor.rest.take count) (cursor.rest.drop count)) :
    (cursor.pass count).IsLocated source :=
  located.moveBy enough rfl pairs

theorem passHashbang (located : cursor.IsLocated source) :
    cursor.passHashbang.IsLocated source := by
  unfold Cursor.passHashbang
  split
  · apply located.pass (List.takeWhile_sublist _).length_le
    apply KeepsPairs.of_inLine
    intro char member
    rw [← List.prefix_iff_eq_take.mp (List.takeWhile_prefix _)] at member
    have plain := List.all_eq_true.mp List.all_takeWhile char member
    simpa using plain
  · exact located

/-- A cursor moves over trivia, after which no line feed can stand. -/
theorem passTrivia (located : cursor.IsLocated source) {lineBreak : Bool}
    (read : Trivia.read cursor.rest = .success count lineBreak) :
    (cursor.pass count).IsLocated source := by
  apply located.pass
  · have bound := Trivia.length_read_le cursor.rest
    rwa [read] at bound
  · exact (Trivia.eq_of_read read).2.1.keepsPairs _

/-- A cursor moves over a lexeme, or over a part of it up to a fault. -/
theorem passLexeme (located : cursor.IsLocated source) (begins : BeginsToken cursor.rest)
    (counted : hasRawSeparator (cursor.rest.take (Lexeme.read cursor.rest).length) = false) :
    (cursor.moveBy (Lexeme.walk cursor.rest) (Lexeme.read cursor.rest).length).IsLocated source :=
  located.moveBy (Lexeme.length_read_le _) (Lexeme.walk_eq_after _ counted)
    (Lexeme.keepsPairs_read begins)

/-- A cursor moves over a regular expression, or over a part of it up to a fault. -/
theorem passExpression (located : cursor.IsLocated source) (front : List Char) :
    (cursor.pass (RegularExpression.read front cursor.rest).length).IsLocated source :=
  located.pass (RegularExpression.length_read_le _ _)
    (.of_inLine (RegularExpression.inLine_read _ _))

end Cursor.IsLocated

namespace Scan

/-- The cursor after an action of the scanner, whether or not it found a fault. -/
def leaves (action : Scan Token) (cursor : Cursor) : Cursor :=
  match action cursor with
  | .ok _ after | .error _ after => after

variable {cursor : Cursor}

theorem leaves_token_of_failure {length place : Nat} {cause : Cause}
    (read : Trivia.read cursor.rest = .failure length cause place) :
    token.leaves cursor = cursor.pass length := by
  simp only [leaves, token, bind, EStateM.bind, trivia, read]

theorem leaves_token_of_success {gap : Nat} {lineBreak : Bool}
    (read : Trivia.read cursor.rest = .success gap lineBreak) :
    token.leaves cursor =
      (cursor.pass gap).moveBy (Lexeme.walk (cursor.pass gap).rest)
        (Lexeme.read (cursor.pass gap).rest).length := by
  simp only [leaves, token, bind, EStateM.bind, trivia, read, lexeme]
  cases inside : Lexeme.read (cursor.pass gap).rest <;> rfl

theorem leaves_regularExpression (slash : Token) (front : List Char) :
    (regularExpression slash front).leaves cursor =
      cursor.pass (RegularExpression.read front cursor.rest).length := by
  simp only [leaves, regularExpression]
  cases inside : RegularExpression.read front cursor.rest <;> rfl

/-- Scanning the next token moves over a separator in a string literal without counting a line. -/
def missesLine (cursor : Cursor) : Bool :=
  match Trivia.read cursor.rest with
  | .success gap _ =>
    let text := (cursor.pass gap).rest
    hasRawSeparator (text.take (Lexeme.read text).length)
  | .failure _ _ _ => false

variable {source : String}

theorem isLocated_leaves_token (located : cursor.IsLocated source)
    (counted : missesLine cursor = false) : (token.leaves cursor).IsLocated source := by
  cases read : Trivia.read cursor.rest with
  | failure length cause place =>
    rw [leaves_token_of_failure read]
    have whole := Trivia.length_of_failure read
    apply located.pass (Nat.le_of_eq whole)
    rw [whole, List.drop_length]
    intro _ opening
    contradiction
  | success gap lineBreak =>
    rw [leaves_token_of_success read]
    rw [missesLine, read] at counted
    exact (located.passTrivia read).passLexeme (Trivia.eq_of_read read).2.1 counted

theorem isLocated_token {after : Cursor} {next : Token} (located : cursor.IsLocated source)
    (counted : missesLine cursor = false) (scanned : token cursor = .ok next after) :
    after.IsLocated source ∧ next.IsLocated source := by
  have behind := isLocated_leaves_token located counted
  rw [leaves, scanned] at behind
  obtain ⟨gap, length, reads⟩ := reads_of_token scanned
  have middle := located.passTrivia reads.trivia
  refine ⟨behind, ?_⟩
  rw [Token.IsLocated, reads.start, reads.stop, ← middle.position, ← behind.position,
    ← reads.spanStart, ← reads.spanStop]

theorem isLocated_regularExpression {after : Cursor} {slash next : Token} {front : List Char}
    (located : cursor.IsLocated source) (slashLocated : slash.IsLocated source)
    (scanned : regularExpression slash front cursor = .ok next after) :
    after.IsLocated source ∧ next.IsLocated source := by
  have behind := located.passExpression front
  rw [← leaves_regularExpression slash, leaves, scanned] at behind
  obtain ⟨length, rereads⟩ := rereadsAs_of_regularExpression scanned
  have start : slash.span.start = .ofOffset source slash.start := congrArg Span.start slashLocated
  refine ⟨behind, ?_⟩
  rw [Token.IsLocated, rereads.start, rereads.stop, ← start, ← behind.position,
    ← rereads.spanStart, ← rereads.spanStop]

end Scan

/-- A lexer on its way over a source text. -/
structure Lexer where
  cursor : Cursor
  /-- The slash that was scanned last, with the cursor behind it. -/
  slash? : Option (Token × Cursor)

namespace Lexer

/-- A step that a lexer can be asked to take. -/
inductive Action where
  | next
  | reread
  | passHashbang
  deriving DecidableEq, Repr

/-- A lexer before the first character of a text. -/
def atStart (source : String) : Lexer :=
  ⟨.atStart source, none⟩

/-- Scans the next token. The lexer stays where a faulty token was given up. -/
def next (lexer : Lexer) : Lexer × Option Token :=
  match Scan.token lexer.cursor with
  | .ok token cursor =>
    (⟨cursor, if (Scan.slash? token.lexeme).isSome then some (token, cursor) else lexer.slash?⟩,
      some token)
  | .error _ cursor => ({ lexer with cursor }, none)

/-- Goes back to the slash that was scanned last, and reads it again as a regular expression. -/
def reread (lexer : Lexer) : Lexer × Option Token :=
  match lexer.slash? with
  | none => (lexer, none)
  | some (slash, behind) =>
    match Scan.regularExpression slash ((Scan.slash? slash.lexeme).getD []) behind with
    | .ok token cursor => ({ lexer with cursor }, some token)
    | .error _ cursor => ({ lexer with cursor }, none)

/-- Takes a step, and answers the token that was read. -/
def perform (lexer : Lexer) : Action → Lexer × Option Token
  | .next => lexer.next
  | .reread => lexer.reread
  | .passHashbang => ({ lexer with cursor := lexer.cursor.passHashbang }, none)

/-- Takes some steps, and answers the tokens that were read. -/
def run (lexer : Lexer) : List Action → Lexer × List Token
  | [] => (lexer, [])
  | action :: actions =>
    let (between, token?) := lexer.perform action
    let (after, tokens) := between.run actions
    (after, token?.toList ++ tokens)

/-- No step moves over a separator in a string literal without counting a line. -/
def countsLines (lexer : Lexer) : List Action → Bool
  | [] => true
  | action :: actions =>
    !(action == .next && Scan.missesLine lexer.cursor) &&
      (lexer.perform action).1.countsLines actions

/-- The cursor of a lexer is at the position of its offset, and so was the cursor behind the latest
slash. -/
structure IsLocated (source : String) (lexer : Lexer) : Prop where
  cursor : lexer.cursor.IsLocated source
  slash : ∀ pair ∈ lexer.slash?, pair.1.IsLocated source ∧ pair.2.IsLocated source

variable {source : String} {lexer : Lexer}

theorem IsLocated.next (located : lexer.IsLocated source)
    (counted : Scan.missesLine lexer.cursor = false) :
    lexer.next.1.IsLocated source ∧ ∀ token ∈ lexer.next.2, token.IsLocated source := by
  have behind := Scan.isLocated_leaves_token located.cursor counted
  unfold Lexer.next
  split
  · rename_i token cursor scanned
    obtain ⟨cursorLocated, tokenLocated⟩ := Scan.isLocated_token located.cursor counted scanned
    refine ⟨⟨cursorLocated, ?_⟩, ?_⟩
    · intro pair slash
      dsimp only at slash
      split at slash
      · cases slash
        exact ⟨tokenLocated, cursorLocated⟩
      · exact located.slash pair slash
    · rintro _ ⟨⟩
      exact tokenLocated
  · rename_i fault cursor scanned
    rw [Scan.leaves, scanned] at behind
    exact ⟨⟨behind, located.slash⟩, by simp⟩

theorem IsLocated.reread (located : lexer.IsLocated source) :
    lexer.reread.1.IsLocated source ∧ ∀ token ∈ lexer.reread.2, token.IsLocated source := by
  unfold Lexer.reread
  split
  · exact ⟨located, by simp⟩
  · rename_i slash behind latest
    obtain ⟨slashLocated, behindLocated⟩ := located.slash _ latest
    split
    · rename_i token cursor scanned
      obtain ⟨cursorLocated, tokenLocated⟩ :=
        Scan.isLocated_regularExpression behindLocated slashLocated scanned
      refine ⟨⟨cursorLocated, located.slash⟩, ?_⟩
      rintro _ ⟨⟩
      exact tokenLocated
    · rename_i fault cursor scanned
      have stopped := behindLocated.passExpression ((Scan.slash? slash.lexeme).getD [])
      rw [← Scan.leaves_regularExpression slash, Scan.leaves, scanned] at stopped
      exact ⟨⟨stopped, located.slash⟩, by simp⟩

/-- Any step that counts all lines keeps a lexer at the position of its offset. -/
theorem IsLocated.perform (located : lexer.IsLocated source) {action : Action}
    (counted : (action == .next && Scan.missesLine lexer.cursor) = false) :
    (lexer.perform action).1.IsLocated source ∧
      ∀ token ∈ (lexer.perform action).2, token.IsLocated source := by
  cases action with
  | next => exact located.next counted
  | reread => exact located.reread
  | passHashbang => exact ⟨⟨located.cursor.passHashbang, located.slash⟩, by simp [Lexer.perform]⟩

theorem IsLocated.run (located : lexer.IsLocated source) {actions : List Action}
    (counts : lexer.countsLines actions = true) :
    (lexer.run actions).1.IsLocated source ∧
      ∀ token ∈ (lexer.run actions).2, token.IsLocated source := by
  induction actions generalizing lexer with
  | nil => exact ⟨located, by simp [Lexer.run]⟩
  | cons action actions ih =>
    rw [countsLines, Bool.and_eq_true, Bool.not_eq_true'] at counts
    obtain ⟨between, first⟩ := located.perform counts.1
    obtain ⟨after, others⟩ := ih between counts.2
    refine ⟨after, ?_⟩
    intro token member
    rcases List.mem_append.mp member with now | later
    · exact first token (Option.mem_toList.mp now)
    · exact others token later

/-- Wherever a lexer comes to from the start of a text, by steps that succeed or fail, it is at the
line and column that can be counted in the text before it, and never between a carriage return and
its line feed. All tokens that it has read have their places. -/
theorem located_of_run (source : String) (actions : List Action)
    (counts : (atStart source).countsLines actions = true) :
    ((atStart source).run actions).1.cursor.IsLocated source ∧
      ∀ token ∈ ((atStart source).run actions).2, token.IsLocated source := by
  have start : (atStart source).IsLocated source := ⟨.atStart source, by simp [atStart]⟩
  obtain ⟨after, tokens⟩ := start.run counts
  exact ⟨after.cursor, tokens⟩

/-- A hashbang, a regular expression that was read as a division first, a literal that goes on to
the next line, and a faulty one. -/
theorem located_of_hashbang :
    let source := "#!x\r\n= /[/]/ 'a\\\n' \"b\n c"
    let actions := [.passHashbang, .next, .next, .reread, .next, .next, .next, .next]
    (atStart source).countsLines actions = true ∧
      ((atStart source).run actions).2.length = 6 ∧
      ((atStart source).run actions).1.cursor.IsLocated source ∧
      ∀ token ∈ ((atStart source).run actions).2, token.IsLocated source := by
  intro source actions
  have counts : (atStart source).countsLines actions = true := by decide +kernel
  exact ⟨counts, by decide +kernel, located_of_run source actions counts⟩

end Lexer

end EcmaScript
