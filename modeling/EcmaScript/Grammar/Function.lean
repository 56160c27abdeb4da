import EcmaScript.Grammar.Nonterminals

/-!
# Functions

A function has parameters in parentheses and a body in braces. A body, like a whole script, begins
with its directives: statements that are nothing but a string literal. The directive `use strict`
makes the code after it strict.
-/

namespace EcmaScript.Grammar

open Parse

/-- The kinds that end a list of statements. -/
def endsStatements (kind : Kind) : Bool :=
  kind == .symbol Punctuator.rightBrace || kind == .endOfFile ||
    kind == .symbol Keyword.caseWord || kind == .symbol Keyword.defaultWord

/-- Statements up to a closing brace, a clause of a `switch` statement, or the end of the text. -/
def statementList (self : Nonterminals) : Parse (List Statement) :=
  itemsUntil endsStatements self.listItem self.turns

/-- The text of the directive that a statement is, when the statement began with a string. -/
def directive? (opening : Token) (statement : Statement) : Option (Expression × Span) :=
  match statement with
  | .expression (.literal (.string value) raw literalSpan) none span =>
    if literalSpan = opening.span then
      some (.literal (.string value) raw literalSpan, span)
    else none
  | _ => none

/-- The text of a string literal between its quotes. -/
def insideQuotes (literal : String) : String :=
  String.ofList (literal.toList.drop 1).dropLast

/-- The directives at the beginning of a script or a function body, and with them the first
statement after them if it begins with a string. -/
def directives (statement : Parse Statement) : Nat → Parse (List Statement)
  | 0 => exhausted
  | turns + 1 => do
    let opening ← lookahead
    if opening.kind != .stringLiteral then return []
    let first ← statement
    match directive? opening first with
    | some (expression, span) =>
      let text := insideQuotes opening.text
      if text == "use strict" then enableStrict
      let others ← directives statement turns
      return .expression expression (some text) span :: others
    | none => return [first]

/-- Parameters in parentheses. -/
def formalParameters (self : Nonterminals) : Parse (List Identifier) := do
  require Punctuator.leftParen
  let parameters ←
    if ← sees Punctuator.rightParen then pure []
    else separated bindingIdentifier self.turns
  require Punctuator.rightParen
  return parameters

/-- The body of a function, in braces. -/
def functionBody (self : Nonterminals) : Parse Block := do
  let start ← nodeStart
  require Punctuator.leftBrace
  let body ← inFunction do
    let opening ← directives self.statement self.turns
    let others ← statementList self
    require Punctuator.rightBrace
    return opening ++ others
  return ⟨body, ← spanFrom start⟩

/-- A function in an expression. -/
def functionExpression (self : Nonterminals) : Parse Expression := do
  let start ← nodeStart
  require Keyword.functionWord
  let name ←
    if ← sees .identifier then some <$> bindingIdentifier else pure none
  let parameters ← formalParameters self
  let body ← functionBody self
  return .function name parameters body (← spanFrom start)

/-- The declaration of a function. -/
def functionDeclaration (self : Nonterminals) : Parse Statement := do
  let start ← nodeStart
  require Keyword.functionWord
  let name ← bindingIdentifier
  let parameters ← formalParameters self
  let body ← functionBody self
  return .function name parameters body (← spanFrom start)

end EcmaScript.Grammar
