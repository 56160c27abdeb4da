import EcmaScript.Grammar.Function

/-!
# Expressions

The productions of expressions, from the tightest to the loosest: literals and enclosed expressions,
property accesses and calls, unary and update operators, binary operators by their tiers,
conditional and assignment expressions, and sequences.
-/

namespace EcmaScript

/-- The literal that a lexeme is. -/
def Lexeme.literal? : Lexeme → Option Literal
  | .number value => some (.number value)
  | .string value => some (.string value)
  | .regularExpression pattern flags => some (.regularExpression pattern flags)
  | .symbol (.keyword .trueWord) => some (.boolean true)
  | .symbol (.keyword .falseWord) => some (.boolean false)
  | .symbol (.keyword .nullWord) => some .null
  | _ => none

namespace Grammar

open Parse

/-- Consumes the token of a literal, and answers its text and its place. Octal escapes and the two
useless ones are refused in strict code. -/
def literalToken : Parse (String × Span) := do
  let token ← lookahead
  consume
  if (← isStrict) && token.flags.hasLegacyEscape then
    fail .strictOctalEscape token.span.start
  return (token.text, token.span)

/-- A literal with a known value. -/
def literal (value : Literal) : Parse Expression := do
  let (raw, span) ← literalToken
  return .literal value raw span

/-- A regular expression whose slash, with some characters of the pattern in it, is the token of
lookahead. -/
def regularExpression (front : List Char) : Parse Expression := do
  reread front
  match (← lookahead).lexeme.literal? with
  | some value => literal value
  | none => unexpected

/-- Strict code may not assign to `eval` and `arguments`. -/
def checkTarget (target : Expression) : Parse Unit := do
  if (← isStrict) && target.name?.any isEvalOrArguments then
    fail .strictEvalOrArguments target.span.start

/-- Arguments in parentheses. -/
def arguments (self : Nonterminals) : Parse (List Expression) := do
  require Punctuator.leftParen
  withIn do
    let items ←
      if ← sees Punctuator.rightParen then pure []
      else separated self.assignment self.turns
    require Punctuator.rightParen
    return items

/-- An expression in parentheses. -/
def parenthesized (self : Nonterminals) : Parse Expression := do
  require Punctuator.leftParen
  let expression ← withIn self.expression
  require Punctuator.rightParen
  return expression

/-- An item of a list in brackets or braces, with the comma that must follow it unless the list
ends. -/
def itemWithComma {α : Type} (closing : Punctuator) (item : Parse α) : Parse α := do
  let value ← item
  unless ← sees closing do
    require Punctuator.comma
  return value

/-- An element of an array. A comma alone stands for an element that is left out. -/
def element (self : Nonterminals) : Parse (Option Expression) := do
  if ← consumeIf Punctuator.comma then return none
  else some <$> itemWithComma .rightBracket self.assignment

/-- An array in brackets. -/
def arrayLiteral (self : Nonterminals) : Parse Expression := do
  let start ← nodeStart
  require Punctuator.leftBracket
  let elements ← withIn <|
    itemsUntil (· == .symbol Punctuator.rightBracket) (element self) self.turns
  require Punctuator.rightBracket
  return .array elements (← spanFrom start)

/-- A literal with a known value, as the name of a property. -/
def literalKey (value : Literal) : Parse PropertyKey := do
  let (raw, span) ← literalToken
  return .literal value raw span

/-- The name of a property. -/
def propertyKey : Parse PropertyKey := do
  match (← lookahead).lexeme with
  | .string value => literalKey (.string value)
  | .number value => literalKey (.number value)
  | _ => .identifier <$> identifierName

/-- A token at which the name of a property can begin. -/
def startsPropertyKey (kind : Kind) : Bool :=
  kind.isIdentifierName || kind == .stringLiteral || kind == .numericLiteral

/-- What the word at the beginning of a property makes of it, when it is not the name itself. -/
def accessorKind? : Lexeme → Option PropertyKind
  | .identifier "get" => some .get
  | .identifier "set" => some .set
  | _ => none

/-- The number of parameters of an accessor is fixed. -/
def checkAccessor (kind : PropertyKind) (parameters : List Identifier) (position : Position) :
    Parse Unit :=
  match kind, parameters with
  | .get, _ :: _ => fail .getterParameters position
  | .set, [_] => return ()
  | .set, _ => fail .setterParameters position
  | _, _ => return ()

/-- The function of an accessor, after its name. -/
def accessorFunction (self : Nonterminals) (kind : PropertyKind) : Parse Expression := do
  let start ← nodeStart
  let parameters ← formalParameters self
  checkAccessor kind parameters start
  let body ← functionBody self
  return .function none parameters body (← spanFrom start)

/-- The value of a property, after its name. -/
def propertyValue (self : Nonterminals) (start : Position) (key : PropertyKey) :
    Parse Property := do
  require Punctuator.colon
  let value ← self.assignment
  return ⟨key, value, .init, ← spanFrom start⟩

/-- A property of an object: a name with a value, or an accessor. The words of accessors are names
too when no other name follows them. -/
def property (self : Nonterminals) : Parse Property := do
  let opening ← lookahead
  let start := opening.span.start
  match accessorKind? opening.lexeme with
  | some kind =>
    consume
    if startsPropertyKey (← Parse.kind) then
      let key ← propertyKey
      let value ← accessorFunction self kind
      return ⟨key, value, kind, ← spanFrom start⟩
    else
      propertyValue self start (.identifier ⟨opening.name?.getD "", opening.span⟩)
  | none =>
    let key ← propertyKey
    propertyValue self start key

/-- An object in braces. -/
def objectLiteral (self : Nonterminals) : Parse Expression := do
  let start ← nodeStart
  require Punctuator.leftBrace
  let properties ← withIn <|
    itemsUntil (· == .symbol Punctuator.rightBrace)
      (itemWithComma .rightBrace (property self)) self.turns
  require Punctuator.rightBrace
  return .object properties (← spanFrom start)

/-- A name, a literal, or an enclosed expression. -/
def primary (self : Nonterminals) : Parse Expression := do
  let token ← lookahead
  match token.lexeme with
  | .symbol (.keyword .thisWord) =>
    consume
    return .thisValue token.span
  | .identifier _ => .identifier <$> identifierReference
  | .symbol (.punctuator .leftParen) => parenthesized self
  | .symbol (.punctuator .leftBracket) => arrayLiteral self
  | .symbol (.punctuator .leftBrace) => objectLiteral self
  | .symbol (.keyword .functionWord) => functionExpression self
  | lexeme =>
    match Scan.slash? lexeme, lexeme.literal? with
    | some front, _ => regularExpression front
    | none, some value => literal value
    | none, none => unexpected

/-- A construction with `new`, with or without arguments. -/
def newExpression (self : Nonterminals) : Parse Expression := do
  let start ← nodeStart
  require Keyword.newWord
  let callee ← self.callee
  let items ←
    if ← sees Punctuator.leftParen then arguments self else pure []
  return .new callee items (← spanFrom start)

/-- Property accesses, and calls where they are allowed, after an expression that began at a
position. -/
def suffixes (self : Nonterminals) (withCalls : Bool) (start : Position) :
    Nat → Expression → Parse Expression
  | 0, _ => exhausted
  | turns + 1, expression => do
    match (← lookahead).lexeme with
    | .symbol (.punctuator .period) =>
      consume
      let name ← identifierName
      suffixes self withCalls start turns (.dot expression name (← spanFrom start))
    | .symbol (.punctuator .leftBracket) =>
      consume
      let name ← withIn self.expression
      require Punctuator.rightBracket
      suffixes self withCalls start turns (.index expression name (← spanFrom start))
    | .symbol (.punctuator .leftParen) =>
      if withCalls then
        let items ← arguments self
        suffixes self withCalls start turns (.call expression items (← spanFrom start))
      else return expression
    | _ => return expression

/-- An expression that may be assigned to or called. Without calls it ends at a parenthesis, which
then belongs to an enclosing `new`. -/
def leftHandSide (self : Nonterminals) (withCalls : Bool) : Parse Expression := do
  let start ← nodeStart
  let expression ←
    if ← sees Keyword.newWord then newExpression self else primary self
  suffixes self withCalls start self.turns expression

/-- An operand with `++` or `--` before or after it. A line break before the operator ends the
operand. -/
def update (self : Nonterminals) : Parse Expression := do
  let start ← nodeStart
  match (← kind).updateOperator? with
  | some operator =>
    consume
    let target ← self.unary
    unless target.isReference do fail .invalidTargetAfterUpdate target.span.start
    checkTarget target
    return .update operator .before target (← spanFrom start)
  | none =>
    let target ← leftHandSide self true
    let token ← lookahead
    match token.kind.updateOperator?, token.flags.lineBreak with
    | some operator, false =>
      unless target.isReference do fail .invalidTargetBeforeUpdate target.span.start
      checkTarget target
      consume
      return .update operator .after target (← spanFrom start)
    | _, _ => return target

/-- The operand of an operator `delete` in strict code may not be a name. -/
def checkDelete (operator : UnaryOperator) (argument : Expression) (start : Position) :
    Parse Unit := do
  if operator == .delete && (← isStrict) && argument.name?.isSome then fail .strictDelete start

/-- An operand of a binary operator. -/
def unary (self : Nonterminals) : Parse Expression := do
  let start ← nodeStart
  match (← kind).unaryOperator? with
  | some operator =>
    consume
    let argument ← self.unary
    checkDelete operator argument start
    return .unary operator argument (← spanFrom start)
  | none => update self

/-- The binary operator that is the token of lookahead. In the head of a `for` statement `in` is
none. -/
def binaryOperator? : Parse (Option BinaryOperator) := do
  let operator := (← kind).binaryOperator?
  if operator == some .isIn && (← get).context.withoutIn then return none
  return operator

/-- Extends the right operand of an operator of some tier by the operators that bind it tighter. -/
def rightOperand (self : Nonterminals) (start : Position) (tier : Nat) :
    Nat → Expression → Parse Expression
  | 0, _ => exhausted
  | turns + 1, right => do
    match ← binaryOperator? with
    | none => return right
    | some next =>
      if tier < next.precedence then
        rightOperand self start tier turns (← self.operators start (tier + 1) right)
      else if tier = next.precedence ∧ next.isRightAssociative then
        rightOperand self start tier turns (← self.operators start tier right)
      else return right

/-- Binary operators of some tier or a higher one, and their right operands, after a left operand
that began at a position. -/
def operators (self : Nonterminals) (start : Position) (tier : Nat) :
    Nat → Expression → Parse Expression
  | 0, _ => exhausted
  | turns + 1, left => do
    match ← binaryOperator? with
    | none => return left
    | some operator =>
      if operator.precedence < tier then return left
      else
        consume
        let rightStart ← nodeStart
        let operand ← self.unary
        let right ← rightOperand self rightStart operator.precedence self.turns operand
        operators self start tier turns (.binary operator left right (← spanFrom start))

/-- Operands with binary operators between them. -/
def binary (self : Nonterminals) : Parse Expression := do
  let start ← nodeStart
  let left ← unary self
  operators self start 0 self.turns left

/-- An expression without commas at the outermost level: an assignment, a conditional expression, or
operands with binary operators. -/
def assignment (self : Nonterminals) : Parse Expression := do
  let start ← nodeStart
  let expression ← binary self
  match (← kind).assignmentOperator? with
  | some operator =>
    unless expression.isReference do fail .invalidAssignmentTarget expression.span.start
    checkTarget expression
    consume
    let value ← self.assignment
    return .assignment operator expression value (← spanFrom start)
  | none =>
    if ← consumeIf Punctuator.questionMark then
      let consequent ← withIn self.assignment
      require Punctuator.colon
      let alternate ← self.assignment
      return .conditional expression consequent alternate (← spanFrom start)
    else return expression

/-- An expression, which is a sequence when there are commas at the outermost level. -/
def expression (self : Nonterminals) : Parse Expression := do
  let start ← nodeStart
  let first ← assignment self
  if ← consumeIf Punctuator.comma then
    let others ← separated self.assignment self.turns
    return .sequence (first :: others) (← spanFrom start)
  else return first

end Grammar

end EcmaScript
