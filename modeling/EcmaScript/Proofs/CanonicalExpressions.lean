import Mathlib.Order.Filter.AtTopBot.Basic
import Mathlib.Order.Filter.Finite
import EcmaScript.Proofs.ScriptSoundness
import EcmaScript.Proofs.WordLeaves

/-!
# Expressions as words

An expression that is written in words, with every expression inside of it in parentheses, is parsed
as itself in front of a closing parenthesis. In parentheses of its own it is parsed as itself
wherever an expression of some level can stand, in front of anything that does not go on with it.
-/

namespace EcmaScript

open Parse Grammar

/-- Something holds of the grammar with any budget that is large enough. -/
abbrev Nonterminals.Eventually (property : Nonterminals → Prop) : Prop :=
  ∀ᶠ budget in Filter.atTop, property (.ofBudget budget)

namespace Nonterminals

/-- What holds of the productions holds where they are reached again. -/
theorem Eventually.succ {property inner : Nonterminals → Prop} (holds : Eventually property)
    (step : ∀ budget, property (ofBudget budget) → inner (ofBudget (budget + 1))) :
    Eventually inner := by
  obtain ⟨least, holds⟩ := Filter.eventually_atTop.mp holds
  refine Filter.eventually_atTop.mpr ⟨least + 1, fun budget enough => ?_⟩
  obtain ⟨budget, rfl⟩ := Nat.exists_eq_add_one.mpr (Nat.zero_lt_of_lt enough)
  exact step budget (holds budget (Nat.le_of_succ_le_succ enough))

/-- Lists can have any number of items. -/
theorem eventually_turns (count : Nat) : Eventually fun self => count < self.turns :=
  (Filter.eventually_gt_atTop count).mono fun budget enough =>
    enough.trans_eq (turns_ofBudget budget).symm

/-- What holds of each of some values holds of all of them at once. -/
theorem Eventually.all {α : Type} {values : List α} {property : α → Nonterminals → Prop}
    (holds : ∀ value ∈ values, Eventually (property value)) :
    Eventually fun self => ∀ value ∈ values, property value self :=
  values.finite_toSet.eventually_all.mpr holds

end Nonterminals

namespace Word

/-- All of some words can be read. -/
def AreLegible (words : List Word) : Prop :=
  ∀ word ∈ words, word.IsLegible

@[simp] theorem areLegible_nil : AreLegible [] :=
  nofun

@[simp] theorem areLegible_cons {word : Word} {words : List Word} :
    AreLegible (word :: words) ↔ word.IsLegible ∧ AreLegible words :=
  List.forall_mem_cons

@[simp] theorem areLegible_append {front back : List Word} :
    AreLegible (front ++ back) ↔ AreLegible front ∧ AreLegible back :=
  List.forall_mem_append

@[simp] theorem isLegible_symbol_iff (item : Symbol) : IsLegible item ↔ True :=
  iff_true_intro (isLegible_symbol item)

@[simp] theorem areLegible_enclosed {words : List Word} :
    AreLegible (enclosed words) ↔ AreLegible words := by
  simp [enclosed]

end Word

/-- The words of an expression are read as that expression, up to a closing parenthesis. -/
structure Expression.Reparses (scope : Scope) (value : Expression) : Prop where
  legible : Word.AreLegible value.words
  taken : Nonterminals.Eventually fun self => ∀ rest,
    (Grammar.expression self).Takes scope.withIn value.words (Located.Resembles · value)
      scope.withIn (.symbol Punctuator.rightParen :: rest)

/-! ### From tighter to looser levels -/

namespace Parse.Takes

variable {scope exit : Scope} {words rest : List Word} {self : Nonterminals}

/-- An action that does what another one does where certain tokens stand before and after it. -/
theorem lift {α : Type} {action other : Parse α} {answer : α → Prop} {begins ends : Token → Prop}
    (takes : action.Takes scope words answer exit rest) (front : Word.Show (words ++ rest) begins)
    (back : Word.Show rest ends)
    (step : ∀ {state next : State} {value : α}, begins state.lookahead → ends next.lookahead →
      next.scope = exit → action state = .ok value next → other state = .ok value next) :
    other.Takes scope words answer exit rest := fun state stands => by
  obtain ⟨value, after, run, holds, standsAfter⟩ := takes state stands
  obtain ⟨_, -, begins⟩ := stands.begins
  obtain ⟨_, -, ends⟩ := standsAfter.begins
  exact ⟨value, after, step (front _ _ begins) (back _ _ ends) standsAfter.scope run, holds,
    standsAfter⟩

end Parse.Takes

/-- A token that ends operands and operators in a scope, whatever they are. -/
structure Scope.EndsOperators (scope : Scope) (token : Token) : Prop where
  suffix : startsSuffix true token.lexeme = false
  operand : endsOperand token = true
  binary : ∀ operator, token.kind.binaryOperator? = some operator →
    operator = .isIn ∧ scope.context.withoutIn = true

/-- A token that ends an expression without commas in a scope, whatever that expression is. -/
structure Scope.Ends (scope : Scope) (token : Token) : Prop extends scope.EndsOperators token where
  assignment : token.kind.assignmentOperator? = none
  conditional : token.kind ≠ .symbol Punctuator.questionMark

/-- A token that begins an expression of the level of names and calls. -/
structure BeginsOperand (token : Token) : Prop where
  update : token.kind.updateOperator? = none
  unary : token.kind.unaryOperator? = none

section Levels

variable {scope : Scope} {words rest : List Word} {self : Nonterminals} {answer : Expression → Prop}

theorem Scope.EndsOperators.operator? {state : State}
    (ends : state.scope.EndsOperators state.lookahead) :
    state.operator? = none := by
  unfold State.operator?
  cases found : state.lookahead.kind.binaryOperator? with
  | none => exact ite_self _
  | some operator =>
    obtain ⟨rfl, withoutIn⟩ := ends.binary operator found
    exact if_pos ⟨rfl, withoutIn⟩

theorem takes_leftHandSide_of_primary {withCalls : Bool} (turns : 0 < self.turns)
    (takes : (primary self).Takes scope words answer scope rest)
    (front : Word.Show (words ++ rest) (·.kind ≠ .symbol Keyword.newWord))
    (back : Word.Show rest (startsSuffix withCalls ·.lexeme = false)) :
    (leftHandSide self withCalls).Takes scope words answer scope rest :=
  takes.lift front back fun plain ends _ run => leftHandSide_of_primary turns plain run ends

theorem takes_unary_of_leftHandSide
    (takes : (leftHandSide self true).Takes scope words answer scope rest)
    (front : Word.Show (words ++ rest) BeginsOperand)
    (back : Word.Show rest (endsOperand · = true)) :
    (Grammar.unary self).Takes scope words answer scope rest :=
  takes.lift front back fun plain ends _ run =>
    unary_of_update plain.unary (update_of_leftHandSide plain.update run ends)

theorem takes_binary_of_unary (turns : 0 < self.turns)
    (takes : (Grammar.unary self).Takes scope words answer scope rest)
    (back : Word.Show rest scope.EndsOperators) :
    (binary self).Takes scope words answer scope rest :=
  takes.lift (fun _ _ _ => trivial) back fun _ ends same run => by
    subst same
    exact binary_of_unary turns run ends.operator?

theorem takes_assignment_of_binary
    (takes : (binary self).Takes scope words answer scope rest) (back : Word.Show rest scope.Ends) :
    (Grammar.assignment self).Takes scope words answer scope rest :=
  takes.lift (fun _ _ _ => trivial) back fun _ ends _ run =>
    assignment_of_binary run ends.assignment ends.conditional

theorem takes_expression_of_assignment
    (takes : (Grammar.assignment self).Takes scope words answer scope rest)
    (back : Word.Show rest (·.kind ≠ .symbol Punctuator.comma)) :
    (Grammar.expression self).Takes scope words answer scope rest :=
  takes.lift (fun _ _ _ => trivial) back fun _ ends _ run => expression_of_assignment run ends

theorem takes_expression_of_primary (turns : 0 < self.turns)
    (takes : (primary self).Takes scope words answer scope rest)
    (front : Word.Show (words ++ rest) BeginsPrimary) (back : Word.Show rest scope.Ends)
    (notComma : Word.Show rest (·.kind ≠ .symbol Punctuator.comma)) :
    (Grammar.expression self).Takes scope words answer scope rest := by
  have operand := takes_unary_of_leftHandSide
    (takes_leftHandSide_of_primary turns takes (front.mono fun _ begins => begins.construction)
      (back.mono fun _ ends => ends.suffix))
    (front.mono fun _ begins => ⟨begins.update, begins.unary⟩)
    (back.mono fun _ ends => ends.operand)
  exact takes_expression_of_assignment (takes_assignment_of_binary
    (takes_binary_of_unary turns operand (back.mono fun _ ends => ends.toEndsOperators)) back)
    notComma

end Levels

/-! ### Expressions in parentheses -/

/-- The symbols that end every expression without commas in front of them. -/
def closers : List Symbol :=
  [Punctuator.rightParen, Punctuator.rightBracket, Punctuator.rightBrace, Punctuator.comma,
    Punctuator.colon, Punctuator.semicolon]

theorem Scope.ends_of_closer {scope : Scope} {item : Symbol} (closes : item ∈ closers)
    {token : Token} (found : token.lexeme = .symbol item) : scope.Ends token := by
  have kind : token.kind = .symbol item := congrArg Lexeme.kind found
  have facts : ∀ item ∈ closers, startsSuffix true (.symbol item) = false ∧
      (Kind.symbol item).updateOperator? = none ∧ (Kind.symbol item).binaryOperator? = none ∧
      (Kind.symbol item).assignmentOperator? = none ∧
      Kind.symbol item ≠ .symbol Punctuator.questionMark := by
    decide
  obtain ⟨suffix, update, binary, assignment, conditional⟩ := facts item closes
  refine ⟨⟨?_, ?_, fun operator isBinary => ?_⟩, ?_, ?_⟩
  · rw [found, suffix]
  · rw [endsOperand, kind, update]
    rfl
  · rw [kind, binary] at isBinary
    contradiction
  · rw [kind, assignment]
  · rw [kind]
    exact conditional

theorem Word.Show.ends {scope : Scope} {words : List Word} {item : Symbol}
    (closes : item ∈ closers) : Word.Show (.symbol item :: words) scope.Ends :=
  .symbol fun _ found _ => Scope.ends_of_closer closes found

theorem Word.Show.beginsOperand {words : List Word} :
    Word.Show (.symbol Punctuator.leftParen :: words) BeginsOperand :=
  .symbol fun token found _ => by
    have kind : token.kind = .symbol Punctuator.leftParen := congrArg Lexeme.kind found
    exact ⟨by rw [kind]; rfl, by rw [kind]; rfl⟩

namespace Expression.Reparses

variable {scope outer : Scope} {value : Expression}

/-- It does not matter whether `in` is an operator outside of the parentheses. -/
theorem of_withIn (reparses : value.Reparses scope) (same : outer.withIn = scope.withIn) :
    value.Reparses outer :=
  ⟨reparses.legible, by rw [same]; exact reparses.taken⟩

variable (reparses : value.Reparses scope)
include reparses

theorem legible_enclosed : Word.AreLegible (Word.enclosed value.words) :=
  Word.areLegible_enclosed.mpr reparses.legible

/-- In parentheses it is parsed without them. -/
theorem parenthesized : Nonterminals.Eventually fun self => ∀ rest,
    (primary self).Takes scope (Word.enclosed value.words) (Located.Resembles · value) scope
      rest := by
  refine reparses.taken.succ fun budget taken rest => ?_
  refine .lookahead_bind (.lexeme_symbol _) fun token found => ?_
  rw [found]
  refine .require_bind (.bind (.withIn (taken rest)) fun _ same => ?_)
  exact .require_bind (.pure same)

/-- As an operand of suffixes, and with them or without. -/
theorem leftHandSide (withCalls : Bool) : Nonterminals.Eventually fun self => ∀ rest,
    Word.Show rest (startsSuffix withCalls ·.lexeme = false) →
      (leftHandSide self withCalls).Takes scope (Word.enclosed value.words)
        (Located.Resembles · value) scope rest := by
  filter_upwards [reparses.parenthesized, Nonterminals.eventually_turns 0]
    with budget taken turns rest ends
  exact takes_leftHandSide_of_primary turns (taken rest)
    ((Word.Show.kind_symbol _).mono fun token kind => by rw [kind]; decide) ends

/-- As an operand of an operator. -/
theorem unary : Nonterminals.Eventually fun self => ∀ rest,
    Word.Show rest
        (fun token => startsSuffix true token.lexeme = false ∧ endsOperand token = true) →
      (Grammar.unary self).Takes scope (Word.enclosed value.words) (Located.Resembles · value) scope
        rest := by
  filter_upwards [reparses.leftHandSide true] with budget taken rest ends
  exact takes_unary_of_leftHandSide (taken rest (ends.mono fun _ ends => ends.1))
    Word.Show.beginsOperand (ends.mono fun _ ends => ends.2)

/-- As operands and operators. -/
theorem binary : Nonterminals.Eventually fun self => ∀ rest, Word.Show rest scope.EndsOperators →
    (Grammar.binary self).Takes scope (Word.enclosed value.words) (Located.Resembles · value)
      scope rest := by
  filter_upwards [reparses.unary, Nonterminals.eventually_turns 0] with budget taken turns rest ends
  exact takes_binary_of_unary turns
    (taken rest (ends.mono fun _ ends => ⟨ends.suffix, ends.operand⟩)) ends

/-- As an expression without commas. -/
theorem assignment : Nonterminals.Eventually fun self => ∀ rest, Word.Show rest scope.Ends →
    (Grammar.assignment self).Takes scope (Word.enclosed value.words) (Located.Resembles · value)
      scope rest := by
  filter_upwards [reparses.binary] with budget taken rest ends
  exact takes_assignment_of_binary (taken rest (ends.mono fun _ ends => ends.toEndsOperators)) ends

/-- As an expression that may have commas. -/
theorem expression : Nonterminals.Eventually fun self => ∀ rest, Word.Show rest scope.Ends →
    Word.Show rest (·.kind ≠ .symbol Punctuator.comma) →
      (Grammar.expression self).Takes scope (Word.enclosed value.words) (Located.Resembles · value)
        scope rest := by
  filter_upwards [reparses.assignment] with budget taken rest ends notComma
  exact takes_expression_of_assignment (taken rest ends) notComma

/-! Where the levels are reached again: -/

theorem callee : Nonterminals.Eventually fun self => ∀ rest,
    Word.Show rest (startsSuffix false ·.lexeme = false) →
      self.callee.Takes scope (Word.enclosed value.words) (Located.Resembles · value) scope rest :=
  (reparses.leftHandSide false).succ fun _ taken => taken

theorem innerUnary : Nonterminals.Eventually fun self => ∀ rest,
    Word.Show rest
        (fun token => startsSuffix true token.lexeme = false ∧ endsOperand token = true) →
      self.unary.Takes scope (Word.enclosed value.words) (Located.Resembles · value) scope rest :=
  reparses.unary.succ fun _ taken => taken

theorem innerAssignment : Nonterminals.Eventually fun self => ∀ rest, Word.Show rest scope.Ends →
    self.assignment.Takes scope (Word.enclosed value.words) (Located.Resembles · value) scope
      rest :=
  reparses.assignment.succ fun _ taken => taken

theorem innerExpression : Nonterminals.Eventually fun self => ∀ rest, Word.Show rest scope.Ends →
    Word.Show rest (·.kind ≠ .symbol Punctuator.comma) →
      self.expression.Takes scope (Word.enclosed value.words) (Located.Resembles · value) scope
        rest :=
  reparses.expression.succ fun _ taken => taken

end Expression.Reparses

/-! ### Expressions of the levels -/

section Rules

variable {scope : Scope} {value : Expression}

/-- In front of a closing parenthesis an expression without commas is one that may have them. -/
theorem Expression.reparses_of_assignment (legible : Word.AreLegible value.words)
    (taken : Nonterminals.Eventually fun self => ∀ rest,
      (Grammar.assignment self).Takes scope.withIn value.words (Located.Resembles · value)
        scope.withIn (.symbol Punctuator.rightParen :: rest)) : value.Reparses scope := by
  refine ⟨legible, ?_⟩
  filter_upwards [taken] with budget taken rest
  exact takes_expression_of_assignment (taken rest)
    ((Word.Show.kind_symbol _).mono fun token kind => by rw [kind]; decide)

/-- In front of a closing parenthesis operands and operators are an expression. -/
theorem Expression.reparses_of_binary (legible : Word.AreLegible value.words)
    (taken : Nonterminals.Eventually fun self => ∀ rest,
      (Grammar.binary self).Takes scope.withIn value.words (Located.Resembles · value)
        scope.withIn (.symbol Punctuator.rightParen :: rest)) : value.Reparses scope := by
  refine reparses_of_assignment legible ?_
  filter_upwards [taken] with budget taken rest
  exact takes_assignment_of_binary (taken rest) (.ends (by decide))

theorem Expression.reparses_of_unary (legible : Word.AreLegible value.words)
    (taken : Nonterminals.Eventually fun self => ∀ rest,
      (Grammar.unary self).Takes scope.withIn value.words (Located.Resembles · value)
        scope.withIn (.symbol Punctuator.rightParen :: rest)) : value.Reparses scope := by
  refine reparses_of_binary legible ?_
  filter_upwards [taken, Nonterminals.eventually_turns 0] with budget taken turns rest
  exact takes_binary_of_unary turns (taken rest)
    ((Word.Show.ends (by decide)).mono fun _ ends => ends.toEndsOperators)

theorem Expression.reparses_of_leftHandSide (legible : Word.AreLegible value.words)
    (front : ∀ others, Word.Show (value.words ++ others) BeginsOperand)
    (taken : Nonterminals.Eventually fun self => ∀ rest,
      (Grammar.leftHandSide self true).Takes scope.withIn value.words (Located.Resembles · value)
        scope.withIn (.symbol Punctuator.rightParen :: rest)) : value.Reparses scope := by
  refine reparses_of_unary legible ?_
  filter_upwards [taken] with budget taken rest
  exact takes_unary_of_leftHandSide (taken rest) (front _)
    ((Word.Show.ends (by decide)).mono fun _ (ends : scope.Ends _) => ends.operand)

theorem Expression.reparses_of_primary (legible : Word.AreLegible value.words)
    (front : ∀ others, Word.Show (value.words ++ others) BeginsPrimary)
    (taken : Nonterminals.Eventually fun self => ∀ rest, (primary self).Takes scope.withIn
      value.words (Located.Resembles · value) scope.withIn rest) : value.Reparses scope := by
  refine reparses_of_leftHandSide legible
    (fun others => (front others).mono fun _ begins => ⟨begins.update, begins.unary⟩) ?_
  filter_upwards [taken, Nonterminals.eventually_turns 0] with budget taken turns rest
  exact takes_leftHandSide_of_primary turns (taken _)
    ((front _).mono fun _ begins => begins.construction)
    ((Word.Show.ends (by decide)).mono fun _ (ends : scope.Ends _) => ends.suffix)

end Rules

end EcmaScript
