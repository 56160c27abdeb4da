import EcmaScript.Grammar.Statement

/-!
# Scripts

The productions of the grammar are tied together by a budget. A production that is reached again has
a smaller budget, and since a token has been consumed in between, a text cannot use up more than it
has characters. `State.parse` runs a parse from a state, which may be that after an earlier parse,
and `parse` reads a whole text.
-/

namespace EcmaScript

/-- The constructs of the grammar when no more than some number of them may be nested in each other.
-/
def Nonterminals.ofBudget : Nat → Nonterminals
  | 0 =>
    { turns := 0
      expression := Parse.exhausted
      assignment := Parse.exhausted
      unary := Parse.exhausted
      operators := fun _ _ _ => Parse.exhausted
      callee := Parse.exhausted
      statement := Parse.exhausted
      listItem := Parse.exhausted }
  | budget + 1 =>
    { turns := budget + 1
      expression := fun state => Grammar.expression (ofBudget budget) state
      assignment := fun state => Grammar.assignment (ofBudget budget) state
      unary := fun state => Grammar.unary (ofBudget budget) state
      operators := fun start tier left state =>
        Grammar.operators (ofBudget budget) start tier budget left state
      callee := fun state => Grammar.leftHandSide (ofBudget budget) false state
      statement := fun state => Grammar.statement (ofBudget budget) state
      listItem := fun state => Grammar.listItem (ofBudget budget) state }

namespace Grammar

open Parse

/-- A whole script, from the place of the cursor. -/
def script : Parse Program := do
  let length := (← get).cursor.sourceLength
  record (.began length)
  if (← get).options.allowHashbang then
    modify fun state => { state with cursor := state.cursor.passHashbang }
  let first ← fetch
  modify fun state => { state with lookahead := first }
  let self := Nonterminals.ofBudget (length + 2)
  let opening ← directives self.statement self.turns
  let others ← itemsUntil (· == .endOfFile) self.listItem self.turns
  let body := opening ++ others
  record (.ended body.length)
  return ⟨body, .first, (← lookahead).span.stop⟩

end Grammar

/-- Runs a parse, and answers its result and the state after it. -/
def State.parse (state : State) : Except Fault Program × State :=
  match Grammar.script state with
  | .ok program after => (.ok program, after)
  | .error fault after => (.error fault, after)

/-- Reads a source text. -/
def parse (source : String) (options : Options) : Except Fault Program :=
  ((State.ofSource source options).parse).1

end EcmaScript
