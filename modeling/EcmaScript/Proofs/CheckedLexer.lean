import EcmaScript.Proofs.CheckedTokens
import EcmaScript.Proofs.LexemeText
import EcmaScript.Proofs.LexerPositions

/-!
# A lexer that checks its steps never gets stuck

A lexer takes steps in any order, also after steps that failed. One that checks what it does takes
the same steps: it goes to the same places, keeps the same slash and answers the same tokens. So it
is never trapped: it does not leave the text, and all its numbers are words.
-/

namespace EcmaScript

namespace Checked

/-- Passes over a hashbang at the beginning of the text. -/
def hashbang : Checked Unit := do
  let machine ← get
  let second ← peekNext
  let first ← peek
  if machine.index = 0 ∧ first = some '#' ∧ second = some '!' then
    let _ ← charactersOf (fun char => !isLineTerminator char) [] (← turns)
  else return

theorem hashbang_eq {source : String} {cursor : Cursor} (inSource : cursor.IsIn source) :
    hashbang (cursor.machine source) = .ok () (cursor.passHashbang.machine source) := by
  have enough := (cursor.machine source).length_rest_le
  have run := @charactersOf_eq (fun char => !isLineTerminator char) [] _ _
    (Nat.lt_succ_of_le enough)
  have rest := inSource.rest_machine
  rw [hashbang, get_bind, peekNext_bind, peek_bind, rest, Cursor.passHashbang.eq_def]
  rw [rest] at run
  split
  · rename_i found
    obtain ⟨start, first, second⟩ := found
    split
    · rw [turns_bind]
      refine (bind_ok run).trans ?_
      exact congrArg (EStateM.Result.ok ())
        (Cursor.IsIn.machine_moveBy (List.takeWhile_sublist _).length_le).symm
    · rename_i other
      obtain ⟨text, same⟩ := List.head?_eq_some_iff.mp first
      rw [same] at second
      obtain ⟨text, rfl⟩ := List.head?_eq_some_iff.mp second
      exact absurd same (other text start)
  · rename_i other
    split
    · rename_i text start same
      exact absurd ⟨start, by rw [same]; rfl, by rw [same]; rfl⟩ other
    · rfl

end Checked

/-- A lexer that checks its steps, with the slash that it scanned last. -/
structure CheckedLexer where
  machine : Machine
  slash? : Option RawToken
  deriving DecidableEq, Repr

namespace CheckedLexer

/-- A lexer before the first character of a text. -/
def atStart (source : String) : CheckedLexer :=
  ⟨⟨source.toList, 0⟩, none⟩

/-- Ends a step. The lexer stays where a fault was found, but it cannot go on when it is trapped. -/
def finish {α : Type} (lexer : CheckedLexer)
    (keep : α → CheckedLexer → CheckedLexer × Option RawToken) :
    EStateM.Result (Stop Cause) Machine α → Option (CheckedLexer × Option RawToken)
  | .ok value machine => some (keep value { lexer with machine })
  | .error (.fault _) machine => some ({ lexer with machine }, none)
  | .error .trap _ => none

/-- Takes a step, and answers the token that was read. -/
def perform (lexer : CheckedLexer) : Lexer.Action → Option (CheckedLexer × Option RawToken)
  | .next =>
    lexer.finish (fun token after =>
      ({ after with slash? := if token.isSlash then some token else lexer.slash? }, some token))
      (Checked.token lexer.machine)
  | .reread =>
    match lexer.slash? with
    | none => some (lexer, none)
    | some slash =>
      lexer.finish (fun token after => (after, some token)) (Checked.reread slash lexer.machine)
  | .passHashbang =>
    lexer.finish (fun _ after => (after, none)) (Checked.hashbang lexer.machine)

/-- Takes some steps, and answers the tokens that were read. -/
def run (lexer : CheckedLexer) : List Lexer.Action → Option (CheckedLexer × List RawToken)
  | [] => some (lexer, [])
  | action :: actions => do
    let (between, token?) ← lexer.perform action
    let (after, tokens) ← between.run actions
    return (after, token?.toList ++ tokens)

end CheckedLexer

namespace Scan

variable {source : String} {cursor : Cursor}

/-- The scanner does not leave a source text, whether or not it finds a token. -/
theorem isIn_leaves_token (inSource : cursor.IsIn source) :
    (token.leaves cursor).IsIn source := by
  cases read : Trivia.read cursor.rest with
  | failure length cause place =>
    rw [leaves_token_of_failure read]
    exact inSource.pass
  | success gap lineBreak =>
    rw [leaves_token_of_success read]
    exact inSource.pass.moveBy

theorem isIn_leaves_regularExpression (inSource : cursor.IsIn source) (slash : Token)
    (front : List Char) : ((regularExpression slash front).leaves cursor).IsIn source := by
  rw [leaves_regularExpression]
  exact inSource.pass

end Scan

namespace Lexer

/-- What a lexer is that checks its steps. -/
def checked (source : String) (lexer : Lexer) : CheckedLexer :=
  ⟨lexer.cursor.machine source, lexer.slash?.map fun pair => pair.1.raw⟩

/-- A lexer is in a source text, and so is the slash that it scanned last. -/
structure IsIn (source : String) (lexer : Lexer) : Prop where
  cursor : lexer.cursor.IsIn source
  slash : ∀ pair ∈ lexer.slash?, ∃ front, pair.1.IsSlash source front pair.2

variable {source : String} {lexer : Lexer}

theorem IsIn.atStart (source : String) : (atStart source).IsIn source :=
  ⟨.atStart source, by rintro pair ⟨⟩⟩

theorem text_of_slash? {lexeme : Lexeme} {text front : List Char} {length : Nat} {flags : Flags}
    (read : Lexeme.read text = .success length (lexeme, flags))
    (slash : Scan.slash? lexeme = some front) : text.take length = '/' :: front := by
  rw [Scan.slash?.eq_def] at slash
  split at slash
  · cases slash
    exact String.ofList_injective (Lexeme.text_of_read read)
  · cases slash
    exact String.ofList_injective (Lexeme.text_of_read read)
  · cases slash

/-- Behind a slash that has been scanned, its regular expression goes on. -/
theorem isSlash_of_token {cursor behind : Cursor} {token : Token} {front : List Char}
    (inSource : cursor.IsIn source) (scanned : Scan.token cursor = .ok token behind)
    (slash : Scan.slash? token.lexeme = some front) : token.IsSlash source front behind := by
  obtain ⟨gap, length, reads⟩ := Scan.reads_of_token scanned
  obtain ⟨tokenIn, -, stop, behindIn⟩ := reads.isIn inSource
  obtain ⟨flags, lexeme⟩ := reads.lexeme
  have middle : (cursor.pass gap).IsIn source := inSource.pass
  have text := text_of_slash? lexeme slash
  have count := congrArg List.length text
  have enough : length ≤ (cursor.pass gap).rest.length := by
    have bound := Lexeme.length_read_le (cursor.pass gap).rest
    rwa [lexeme] at bound
  rw [List.length_take, Nat.min_eq_left enough, List.length_cons] at count
  refine ⟨slash, behindIn, ?_, ?_⟩
  · have rest : behind.rest = (cursor.pass gap).rest.drop length := by
      rw [reads.moves]
      rfl
    have whole := List.take_append_drop length (cursor.pass gap).rest
    rw [text] at whole
    rw [reads.start, ← List.drop_drop, ← middle.rest, rest, ← whole, count]
    exact congrArg (front ++ ·) List.drop_left.symm
  · rw [← reads.stop, stop, count, Nat.add_assoc, Nat.add_comm 1]

theorem isSlash_raw (token : Token) : token.raw.isSlash = (Scan.slash? token.lexeme).isSome := by
  change (token.lexeme.kind == _ || token.lexeme.kind == _) = _
  cases token.lexeme with
  | symbol symbol =>
    cases symbol with
    | binary operator => cases operator <;> rfl
    | assignment operator => cases operator <;> rfl
    | _ => rfl
  | _ => rfl

theorem IsIn.next (inSource : lexer.IsIn source) :
    lexer.next.1.IsIn source ∧
      (lexer.checked source).perform .next =
        some (lexer.next.1.checked source, lexer.next.2.map Token.raw) := by
  have same := Checked.token_eq inSource.cursor
  have inside := Scan.isIn_leaves_token inSource.cursor
  rw [Scan.leaves] at inside
  rw [CheckedLexer.perform, checked, same]
  unfold Lexer.next
  split
  · rename_i token behind scanned
    rw [scanned] at inside
    refine ⟨⟨inside, ?_⟩, ?_⟩
    · intro pair latest
      dsimp only at latest
      split at latest
      · rename_i isSlash
        obtain ⟨front, slash⟩ := Option.isSome_iff_exists.mp isSlash
        cases latest
        exact ⟨front, isSlash_of_token inSource.cursor scanned slash⟩
      · exact inSource.slash pair latest
    · rw [scanned, Scan.outcome, CheckedLexer.finish, isSlash_raw]
      dsimp only
      split <;> rfl
  · rename_i fault behind scanned
    rw [scanned] at inside ⊢
    exact ⟨⟨inside, inSource.slash⟩, rfl⟩

theorem IsIn.reread (inSource : lexer.IsIn source) :
    lexer.reread.1.IsIn source ∧
      (lexer.checked source).perform .reread =
        some (lexer.reread.1.checked source, lexer.reread.2.map Token.raw) := by
  obtain ⟨cursor, latest⟩ := lexer
  cases latest with
  | none => exact ⟨inSource, rfl⟩
  | some pair =>
    obtain ⟨slash, behind⟩ := pair
    obtain ⟨front, isSlash⟩ := inSource.slash _ rfl
    have same := @Checked.reread_eq source cursor _ _ _ isSlash
    have inside := Scan.isIn_leaves_regularExpression isSlash.isIn slash front
    have run : (checked source ⟨cursor, some (slash, behind)⟩).perform .reread =
        (checked source ⟨cursor, some (slash, behind)⟩).finish
          (fun token after => (after, some token))
          (Checked.reread slash.raw (cursor.machine source)) :=
      rfl
    rw [Scan.leaves] at inside
    rw [run, same, Lexer.reread]
    dsimp only
    rw [isSlash.slash?, Option.getD_some]
    cases scanned : Scan.regularExpression slash front behind with
    | error fault after =>
      rw [scanned] at inside
      exact ⟨⟨inside, inSource.slash⟩, rfl⟩
    | ok token after =>
      rw [scanned] at inside
      exact ⟨⟨inside, inSource.slash⟩, rfl⟩

theorem IsIn.perform (inSource : lexer.IsIn source) (action : Action) :
    (lexer.perform action).1.IsIn source ∧
      (lexer.checked source).perform action =
        some ((lexer.perform action).1.checked source, (lexer.perform action).2.map Token.raw) := by
  cases action with
  | next => exact inSource.next
  | reread => exact inSource.reread
  | passHashbang =>
    refine ⟨⟨inSource.cursor.passHashbang, inSource.slash⟩, ?_⟩
    exact congrArg (CheckedLexer.finish (lexer.checked source) fun _ after => (after, none))
      (Checked.hashbang_eq inSource.cursor)

/-- A lexer does not leave its text. -/
theorem IsIn.after (inSource : lexer.IsIn source) (actions : List Action) :
    (lexer.run actions).1.IsIn source := by
  induction actions generalizing lexer with
  | nil => exact inSource
  | cons action actions ih => exact ih (inSource.perform action).1

/-- A lexer that checks its steps goes where a lexer goes. -/
theorem IsIn.run (inSource : lexer.IsIn source) (actions : List Action) :
    (lexer.checked source).run actions =
      some ((lexer.run actions).1.checked source, (lexer.run actions).2.map Token.raw) := by
  induction actions generalizing lexer with
  | nil => rfl
  | cons action actions ih =>
    obtain ⟨between, step⟩ := inSource.perform action
    rw [CheckedLexer.run, step, Lexer.run]
    generalize lexer.perform action = performed at between ⊢
    obtain ⟨middle, token?⟩ := performed
    have others := ih between
    rw [Option.bind_eq_bind, Option.bind_some]
    dsimp only at others ⊢
    rw [others]
    cases token? <;> rfl

end Lexer

end EcmaScript
