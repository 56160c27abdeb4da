import EcmaScript.Grammar.Expression

/-!
# Statements

The productions of statements. A statement in a list may be the declaration of a function, and a
statement elsewhere may not. Jumps are checked against the surroundings when they are read: a loop
or `switch` for `break`, a loop for `continue`, a function for `return`, and an enclosing label for
a jump that names one.
-/

namespace EcmaScript.Grammar

open Parse

/-- Statements in braces. -/
def block (self : Nonterminals) : Parse Block := do
  let start ← nodeStart
  require Punctuator.leftBrace
  let body ← statementList self
  require Punctuator.rightBrace
  return ⟨body, ← spanFrom start⟩

/-- A variable that is declared, with its initial value if there is one. -/
def variableDeclarator (self : Nonterminals) : Parse VariableDeclarator := do
  let start ← nodeStart
  let name ← bindingIdentifier
  let value ←
    if ← consumeIf AssignmentOperator.assign then some <$> self.assignment else pure none
  return ⟨name, value, ← spanFrom start⟩

/-- The declaration of some variables, without the end of a statement. -/
def variableDeclaration (self : Nonterminals) : Parse VariableDeclaration := do
  let start ← nodeStart
  require Keyword.varWord
  let declarators ← separated (variableDeclarator self) self.turns
  return ⟨declarators, ← spanFrom start⟩

/-- The declaration of some variables as a statement. -/
def variableStatement (self : Nonterminals) : Parse Statement := do
  let start ← nodeStart
  let declaration ← variableDeclaration self
  semicolon
  return .variables ⟨declaration.declarators, ← spanFrom start⟩

/-- An expression in parentheses, as statements have it after their first word. -/
def condition (self : Nonterminals) : Parse Expression := do
  require Punctuator.leftParen
  let test ← expression self
  require Punctuator.rightParen
  return test

/-- The body of a loop. -/
def loopBody (self : Nonterminals) : Parse Statement :=
  Parse.inLoop self.statement

/-- A choice between statements. An `else` belongs to the nearest `if` before it. -/
def ifStatement (self : Nonterminals) : Parse Statement := do
  let start ← nodeStart
  require Keyword.ifWord
  let test ← condition self
  let consequent ← self.statement
  let alternate ←
    if ← consumeIf Keyword.elseWord then some <$> self.statement else pure none
  return .ifElse test consequent alternate (← spanFrom start)

/-- A loop with its condition first. -/
def whileStatement (self : Nonterminals) : Parse Statement := do
  let start ← nodeStart
  require Keyword.whileWord
  let test ← condition self
  let body ← loopBody self
  return .whileLoop test body (← spanFrom start)

/-- A loop with its condition last. A semicolon after it is always optional. -/
def doWhileStatement (self : Nonterminals) : Parse Statement := do
  let start ← nodeStart
  require Keyword.doWord
  let body ← loopBody self
  require Keyword.whileWord
  let test ← condition self
  let _ ← consumeIf Punctuator.semicolon
  return .doWhileLoop body test (← spanFrom start)

/-- What a `for` statement begins with, if it does not begin with a semicolon. -/
def forHead? (self : Nonterminals) : Parse (Option ForHead) := do
  match (← lookahead).lexeme with
  | .symbol (.punctuator .semicolon) => return none
  | .symbol (.keyword .varWord) =>
    return some (.declaration (← withoutIn (variableDeclaration self)))
  | _ => return some (.expression (← withoutIn (expression self)))

/-- What a loop over the properties of an object assigns to: one declared variable, or a reference.
-/
def checkForInTarget (head : ForHead) : Parse Unit := do
  match head with
  | .declaration declaration =>
    unless declaration.declarators.length == 1 do
      fail .severalForInBindings declaration.span.start
  | .expression target =>
    unless target.isReference do fail .invalidForInTarget target.span.start
    checkTarget target

/-- The rest of a loop over the properties of an object, from the word `in`. -/
def forInRest (self : Nonterminals) (start : Position) (left : ForHead) : Parse Statement := do
  consume
  let right ← expression self
  require Punctuator.rightParen
  let body ← loopBody self
  return .forInLoop left right body (← spanFrom start)

/-- An expression that may be left out before a token that ends it. -/
def optionalExpression (self : Nonterminals) (ending : Punctuator) : Parse (Option Expression) := do
  if ← sees ending then return none else some <$> expression self

/-- The rest of a loop with three clauses, from the first semicolon. -/
def forRest (self : Nonterminals) (start : Position) (init : Option ForHead) :
    Parse Statement := do
  require Punctuator.semicolon
  let test ← optionalExpression self .semicolon
  require Punctuator.semicolon
  let step ← optionalExpression self .rightParen
  require Punctuator.rightParen
  let body ← loopBody self
  return .forLoop init test step body (← spanFrom start)

/-- A loop with three clauses, or over the properties of an object. -/
def forStatement (self : Nonterminals) : Parse Statement := do
  let start ← nodeStart
  require Keyword.forWord
  require Punctuator.leftParen
  let init ← forHead? self
  match init, ← sees BinaryOperator.isIn with
  | some head, true =>
    checkForInTarget head
    forInRest self start head
  | _, _ => forRest self start init

/-- The label that a jump names on its line, if it names one. -/
def jumpLabel : Parse (Option Identifier) := do
  let token ← lookahead
  if token.kind != .identifier || token.flags.lineBreak then return none
  let label ← identifierReference
  unless (← get).labels.contains label.name do
    fail (.undefinedLabel label.name) label.span.start
  return some label

/-- A jump to the next turn of a loop. -/
def continueStatement : Parse Statement := do
  let start ← nodeStart
  require Keyword.continueWord
  unless (← get).context.inLoop do fail .illegalContinue start
  let label ← jumpLabel
  semicolon
  return .continueTo label (← spanFrom start)

/-- A jump out of a loop or a `switch` statement. -/
def breakStatement : Parse Statement := do
  let start ← nodeStart
  require Keyword.breakWord
  let context := (← get).context
  unless context.inLoop || context.inSwitch do fail .illegalBreak start
  let label ← jumpLabel
  semicolon
  return .breakTo label (← spanFrom start)

/-- A `return` without argument ends its line, or stands before a semicolon, a closing brace or the
end of the text. -/
def endsReturn (token : Token) : Bool :=
  token.flags.lineBreak || token.kind == .symbol Punctuator.semicolon ||
    token.kind == .symbol Punctuator.rightBrace || token.kind == .endOfFile

/-- A jump out of a function. -/
def returnStatement (self : Nonterminals) : Parse Statement := do
  let start ← nodeStart
  let state ← get
  unless state.context.inFunction || state.options.allowReturnOutsideFunction do
    fail .illegalReturn start
  require Keyword.returnWord
  let argument ←
    if endsReturn (← lookahead) then pure none else some <$> expression self
  semicolon
  return .returnValue argument (← spanFrom start)

/-- A statement inside an object's scope, which strict code may not have. -/
def withStatement (self : Nonterminals) : Parse Statement := do
  let start ← nodeStart
  if ← isStrict then fail .strictWith start
  require Keyword.withWord
  let object ← condition self
  let body ← self.statement
  return .withObject object body (← spanFrom start)

/-- The test of a clause of a `switch` statement. There may be only one default clause. -/
def caseTest (self : Nonterminals) (seenDefault : Bool) : Parse (Option Expression) := do
  let token ← lookahead
  match token.lexeme with
  | .symbol (.keyword .caseWord) =>
    consume
    some <$> expression self
  | .symbol (.keyword .defaultWord) =>
    if seenDefault then fail .repeatedDefault token.span.start
    consume
    return none
  | _ => unexpected

/-- The clauses of a `switch` statement, up to the closing brace. -/
def switchCases (self : Nonterminals) (seenDefault : Bool) : Nat → Parse (List SwitchCase)
  | 0 => exhausted
  | turns + 1 => do
    if ← sees Punctuator.rightBrace then return []
    let start ← nodeStart
    let test ← caseTest self seenDefault
    require Punctuator.colon
    let consequent ← statementList self
    let clause : SwitchCase := ⟨test, consequent, ← spanFrom start⟩
    let others ← switchCases self (seenDefault || test.isNone) turns
    return clause :: others

/-- A choice by the value of an expression. -/
def switchStatement (self : Nonterminals) : Parse Statement := do
  let start ← nodeStart
  require Keyword.switchWord
  let discriminant ← condition self
  require Punctuator.leftBrace
  let cases ← Parse.inSwitch (switchCases self false self.turns)
  require Punctuator.rightBrace
  return .switch discriminant cases (← spanFrom start)

/-- A statement that throws a value, which must begin on the same line. -/
def throwStatement (self : Nonterminals) : Parse Statement := do
  let start ← nodeStart
  require Keyword.throwWord
  let token ← lookahead
  if token.flags.lineBreak then fail .lineBreakAfterThrow token.span.start
  let argument ← expression self
  semicolon
  return .throwValue argument (← spanFrom start)

/-- The handler of a `try` statement, if there is one. -/
def catchClause? (self : Nonterminals) : Parse (Option CatchClause) := do
  let start ← nodeStart
  if ← consumeIf Keyword.catchWord then
    require Punctuator.leftParen
    let parameter ← bindingIdentifier
    require Punctuator.rightParen
    let body ← block self
    return some ⟨parameter, body, ← spanFrom start⟩
  else return none

/-- A block whose exceptions are handled, or after which another block always runs. -/
def tryStatement (self : Nonterminals) : Parse Statement := do
  let start ← nodeStart
  require Keyword.tryWord
  let body ← block self
  let handler ← catchClause? self
  let finalizer ←
    if ← consumeIf Keyword.finallyWord then some <$> block self else pure none
  if handler.isNone && finalizer.isNone then fail .tryAlone (← nodeStart)
  return .tryBlock body handler finalizer (← spanFrom start)

/-- A statement of the one word `debugger`. -/
def debuggerStatement : Parse Statement := do
  let start ← nodeStart
  consume
  semicolon
  return .debugger (← spanFrom start)

/-- The body of a statement with a label, from the colon. The label must be new. -/
def labelledStatement (self : Nonterminals) (start : Position) (label : Identifier) :
    Parse Statement := do
  if (← get).labels.contains label.name then
    fail (.repeatedLabel label.name) label.span.start
  consume
  let body ← withLabel label.name self.statement
  return .labelled label body (← spanFrom start)

/-- An expression as a statement, or a statement with a label. A name in parentheses is no label. -/
def expressionStatement (self : Nonterminals) : Parse Statement := do
  let opening ← lookahead
  let start := opening.span.start
  let value ← expression self
  match value, opening.kind == .identifier && (← kind) == .symbol Punctuator.colon with
  | .identifier label, true => labelledStatement self start label
  | _, _ =>
    semicolon
    return .expression value none (← spanFrom start)

/-- A statement. -/
def statement (self : Nonterminals) : Parse Statement := do
  let token ← lookahead
  match token.lexeme with
  | .symbol (.punctuator .leftBrace) => .block <$> block self
  | .symbol (.punctuator .semicolon) =>
    consume
    return .empty token.span
  | .symbol (.keyword word) =>
    match word with
    | .varWord => variableStatement self
    | .ifWord => ifStatement self
    | .whileWord => whileStatement self
    | .doWord => doWhileStatement self
    | .forWord => forStatement self
    | .continueWord => continueStatement
    | .breakWord => breakStatement
    | .returnWord => returnStatement self
    | .withWord => withStatement self
    | .switchWord => switchStatement self
    | .throwWord => throwStatement self
    | .tryWord => tryStatement self
    | .debuggerWord => debuggerStatement
    | _ => expressionStatement self
  | _ => expressionStatement self

/-- A statement in a list, which may be the declaration of a function. -/
def listItem (self : Nonterminals) : Parse Statement := do
  if ← sees Keyword.functionWord then functionDeclaration self else statement self

end EcmaScript.Grammar
