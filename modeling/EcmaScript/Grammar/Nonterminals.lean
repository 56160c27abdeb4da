import EcmaScript.Grammar.State

/-!
# The recursion of the grammar

The productions of the grammar are recursive: an expression may contain expressions, and functions
with statements. Each production is written over a record of the constructs that it reaches only
after a token has been consumed, and over a number of turns that its lists may take. The productions
themselves are not recursive; the recursion is tied elsewhere, once for all of them.
-/

namespace EcmaScript

/-- The constructs by which the grammar is recursive. -/
structure Nonterminals where
  /-- The number of items that a list can have. -/
  turns : Nat
  /-- An expression, with commas at the outermost level. -/
  expression : Parse Expression
  /-- An expression without commas at the outermost level. -/
  assignment : Parse Expression
  /-- An operand of a binary operator. -/
  unary : Parse Expression
  /-- Binary operators of some tier or a higher one, and their right operands, after a left operand
  that begins at some position. -/
  operators : Position → Nat → Expression → Parse Expression
  /-- The expression after `new`, up to its arguments. -/
  callee : Parse Expression
  statement : Parse Statement
  /-- A statement, or the declaration of a function. -/
  listItem : Parse Statement

end EcmaScript
