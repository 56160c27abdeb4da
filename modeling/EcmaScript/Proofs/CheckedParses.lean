import EcmaScript.Proofs.CheckedLexer
import EcmaScript.Proofs.Fallbacks
import EcmaScript.Proofs.Sessions
import EcmaScript.Proofs.Termination

/-!
# Parses that check their steps

A parse takes the steps of a lexer, and comes to strings only as they are written, between quotes.
So all parses of a text, one after the other, have the outcomes that they have when every fallback
ends them with a fault, and directives are sliced out of the text.
-/

namespace EcmaScript

open Parse Grammar EcmaScript.Alignment

/-! ### Steps of a lexer -/

theorem Lexer.run_concat (lexer : Lexer) (actions : List Action) (action : Action) :
    (lexer.run (actions ++ [action])).1 = ((lexer.run actions).1.perform action).1 := by
  induction actions generalizing lexer with
  | nil => rfl
  | cons first actions ih => exact ih (lexer.perform first).1

/-- A lexer comes to a cursor. -/
def Cursor.IsLexed (source : String) (cursor : Cursor) : Prop :=
  ∃ actions, ((Lexer.atStart source).run actions).1.cursor = cursor

/-- A lexer comes to a point, where the latest slash is the token of lookahead if that is one. -/
structure Point.IsLexed (source : String) (point : Point) : Prop where
  isIn : point.IsIn source
  quoted : point.lookahead.kind = .stringLiteral → IsQuoted point.lookahead.text
  steps : ∃ actions, ((Lexer.atStart source).run actions).1.cursor = point.cursor ∧
    ∀ front, Scan.slash? point.lookahead.lexeme = some front →
      ((Lexer.atStart source).run actions).1.slash? = some (point.lookahead, point.cursor)

theorem Scan.isQuoted_of_token {cursor after : Cursor} {token : Token}
    (scanned : Scan.token cursor = .ok token after) (string : token.kind = .stringLiteral) :
    IsQuoted token.text := by
  obtain ⟨gap, length, reads⟩ := reads_of_token scanned
  obtain ⟨flags, read⟩ := reads.lexeme
  rw [Token.kind] at string
  rw [reads.text]
  cases lexeme : token.lexeme with
  | string value =>
    rw [lexeme] at read
    exact Lexeme.isQuoted_of_read read
  | _ =>
    rw [lexeme] at string
    cases string

namespace Cursor.IsLexed

variable {source : String} {cursor after : Cursor}

theorem atStart (source : String) : (Cursor.atStart source).IsLexed source :=
  ⟨[], rfl⟩

theorem passHashbang (lexed : cursor.IsLexed source) : cursor.passHashbang.IsLexed source := by
  obtain ⟨actions, rfl⟩ := lexed
  exact ⟨actions ++ [.passHashbang], congrArg Lexer.cursor (Lexer.run_concat _ _ _)⟩

theorem isIn (lexed : cursor.IsLexed source) : cursor.IsIn source := by
  obtain ⟨actions, rfl⟩ := lexed
  exact ((Lexer.IsIn.atStart source).after actions).cursor

theorem of_fault {fault : Fault} (lexed : cursor.IsLexed source)
    (scanned : Scan.token cursor = .error fault after) : after.IsLexed source := by
  obtain ⟨actions, rfl⟩ := lexed
  refine ⟨actions ++ [.next], (congrArg Lexer.cursor (Lexer.run_concat _ _ _)).trans ?_⟩
  rw [Lexer.perform, Lexer.next, scanned]

/-- A lexer comes to the point at which the next token has been scanned. -/
theorem scans {point : Point} (lexed : cursor.IsLexed source)
    (scanned : Scan.token cursor = .ok point.lookahead point.cursor) : point.IsLexed source := by
  have inSource := lexed.isIn
  obtain ⟨actions, rfl⟩ := lexed
  obtain ⟨gap, length, reads⟩ := Scan.reads_of_token scanned
  obtain ⟨token, -, -, cursor⟩ := reads.isIn inSource
  refine ⟨⟨token, cursor, reads.stop.symm⟩, Scan.isQuoted_of_token scanned,
    actions ++ [.next], ?_, ?_⟩
  · rw [Lexer.run_concat, Lexer.perform, Lexer.next, scanned]
  · intro front slash
    rw [Lexer.run_concat, Lexer.perform, Lexer.next, scanned]
    dsimp only
    rw [slash, Option.isSome_some, if_pos rfl]

end Cursor.IsLexed

namespace Point.IsLexed

variable {source : String} {before after : Point}

theorem cursorIsLexed (lexed : after.IsLexed source) : after.cursor.IsLexed source := by
  obtain ⟨actions, same, -⟩ := lexed.steps
  exact ⟨actions, same⟩

theorem advances (lexed : before.IsLexed source) (step : before.Advances after) :
    after.IsLexed source := by
  obtain ⟨-, next, cursor, scanned, rfl⟩ := step
  exact lexed.cursorIsLexed.scans scanned

theorem rereads (lexed : before.IsLexed source) (step : before.Rereads after) :
    after.IsLexed source := by
  have inSource := step.isIn lexed.isIn
  obtain ⟨front, token, cursor, slash, scanned, rfl⟩ := step
  obtain ⟨length, rereads⟩ := Scan.rereadsAs_of_regularExpression scanned
  obtain ⟨pattern, flags, expression⟩ := RegularExpression.eq_of_read rereads.expression
  obtain ⟨actions, same, latest⟩ := lexed.steps
  refine ⟨inSource, ?_, actions ++ [.reread], ?_, ?_⟩
  · intro string
    change token.lexeme.kind = .stringLiteral at string
    rw [expression] at string
    cases string
  · rw [Lexer.run_concat, Lexer.perform, Lexer.reread, latest front slash]
    dsimp only
    rw [slash, Option.getD_some, scanned]
  · intro other again
    change Scan.slash? token.lexeme = some other at again
    rw [expression] at again
    cases again

/-- A parse that fails at a point leaves its cursor where a lexer comes to. -/
theorem fails {fault : Fault} (lexed : before.IsLexed source) (step : before.Fails fault after) :
    after.cursor.IsLexed source := by
  cases step with
  | here => exact lexed.cursorIsLexed
  | token _ scanned => exact lexed.cursorIsLexed.of_fault scanned
  | @regularExpression front cursor slash scanned =>
    obtain ⟨actions, same, latest⟩ := lexed.steps
    refine ⟨actions ++ [.reread], (congrArg Lexer.cursor (Lexer.run_concat _ _ _)).trans ?_⟩
    rw [Lexer.perform, Lexer.reread, latest front slash]
    dsimp only
    rw [slash, Option.getD_some, scanned]

end Point.IsLexed

/-! ### Parses that check -/

/-- The lexer at a point, which may read the token of lookahead again if that is a slash. -/
def Point.lexer (point : Point) : Lexer :=
  ⟨point.cursor,
    (Scan.slash? point.lookahead.lexeme).map fun _ => (point.lookahead, point.cursor)⟩

/-- No step of a lexer is trapped at a point, and the token of lookahead can be sliced out of the
source text, without its quotes, if it is a string. -/
def Point.IsChecked (source : String) (point : Point) : Prop :=
  (∀ action ∈ [Lexer.Action.next, .reread, .passHashbang],
    ((point.lexer.checked source).perform action).isSome) ∧
  (point.lookahead.kind = .stringLiteral →
    directiveText? source point.lookahead = some (insideQuotes point.lookahead.text))

instance (source : String) : DecidablePred (Point.IsChecked source) := fun _ =>
  inferInstanceAs (Decidable (_ ∧ (_ → _)))

/-- The constructs of the grammar, with a fault for their fallbacks. They work only at points that
have been checked. -/
def Nonterminals.checked (source : String) (fallback : Fault) : Nat → Nonterminals
  | 0 => (ofBudget 0).onlyAt (Point.IsChecked source)
  | budget + 1 =>
    Nonterminals.onlyAt (Point.IsChecked source)
      { turns := budget + 1
        expression := fun state =>
          Fallback.expression source fallback (checked source fallback budget) state
        assignment := fun state =>
          Fallback.assignment source fallback (checked source fallback budget) state
        unary := fun state => Fallback.unary source fallback (checked source fallback budget) state
        operators := fun start tier left state =>
          Fallback.operators fallback (checked source fallback budget) start tier budget left state
        callee := fun state =>
          Fallback.leftHandSide source fallback (checked source fallback budget) false state
        statement := fun state => Grammar.statement (checked source fallback budget) state
        listItem := fun state =>
          Fallback.listItem source fallback (checked source fallback budget) state }

namespace Fallback

variable (source : String) (fallback : Fault)

/-- The statements of a script, from its first token to the end of the text. -/
def wholeBody (self : Nonterminals) : Parse Program := do
  let opening ← directives source fallback self.statement self.turns
  let others ← itemsUntil (· == .endOfFile) self.listItem self.turns
  let body := opening ++ others
  record (.ended body.length)
  return ⟨body, .first, (← lookahead).span.stop⟩

/-- A whole script, from the place of the cursor. -/
def script : Parse Program := do
  let self ← beginning
  wholeBody source fallback (.checked source fallback self.turns)

end Fallback

section Checked

variable {source : String} {fallback : Fault}

/-- A parse of a text and another one of the same text, both at points that a lexer comes to. -/
def Alignment.lexed (source : String) (returns : Bool) : Alignment :=
  .unchanged returns (Point.IsLexed source) Point.IsLexed.advances Point.IsLexed.rereads

theorem Fallback.wholeBody_eq {self : Nonterminals} (slices : SlicesStrings source self.statement) :
    wholeBody source fallback self = Grammar.wholeBody self := by
  rw [wholeBody, directives_eq slices]
  rfl

end Checked

end EcmaScript
