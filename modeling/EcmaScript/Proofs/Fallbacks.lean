import EcmaScript.Proofs.CheckedLexemes
import EcmaScript.Proofs.Completion
import EcmaScript.Proofs.Recursion
import EcmaScript.Proofs.Slices

/-!
# Fallbacks

A grammar that knows a token by its kind, with a value beside it, has to give up where the two do
not agree, or where its tables do not: a kind is classified as an operator, and no operator is found
for it; a literal or a name has no value; something is to be read again as a regular expression, and
is no slash.

The productions at which this may happen are written here over kinds and values, with a fault that
is given and with which they end there. Whatever the fault is, they are the productions of the
grammar, so none of them ever gives up.
-/

namespace EcmaScript

namespace Kind

/-- A kind is in the range from one kind to another one. -/
def isBetween (first last kind : Kind) : Bool :=
  first.ordinal ≤ kind.ordinal && kind.ordinal ≤ last.ordinal

/-- The kinds in the range of the binary operators. -/
def isBinaryOperator : Kind → Bool :=
  isBetween BinaryOperator.logicalOr BinaryOperator.exponentiate

/-- The kinds in the range of the assignment operators. -/
def isAssignmentOperator : Kind → Bool :=
  isBetween AssignmentOperator.assign AssignmentOperator.bitwiseXorAssign

/-- The kinds that are operators before an operand. -/
def isUnaryOperator (kind : Kind) : Bool :=
  [.symbol Keyword.typeofWord, .symbol Keyword.voidWord, .symbol Keyword.deleteWord,
    .symbol Punctuator.negate, .symbol Punctuator.complement, .symbol BinaryOperator.add,
    .symbol BinaryOperator.subtract].contains kind

/-- The kinds of `++` and `--`. -/
def isUpdateOperator (kind : Kind) : Bool :=
  kind == .symbol UpdateOperator.increment || kind == .symbol UpdateOperator.decrement

/-- The kinds of the reserved words: those from the first keyword on, and two operators. -/
def isKeyword (kind : Kind) : Bool :=
  ordinal Keyword.breakWord ≤ kind.ordinal || kind == .symbol BinaryOperator.isIn ||
    kind == .symbol BinaryOperator.instanceOf

/-- The tier of a binary operator. -/
def precedence? (kind : Kind) : Option Nat :=
  if !kind.isBinaryOperator then none
  else
    match kind with
    | .symbol (.binary .logicalOr) => some 1
    | .symbol (.binary .logicalAnd) => some 2
    | .symbol (.binary .bitwiseOr) => some 3
    | .symbol (.binary .bitwiseXor) => some 4
    | .symbol (.binary .bitwiseAnd) => some 5
    | .symbol (.binary .looseEqual) | .symbol (.binary .looseNotEqual)
    | .symbol (.binary .strictEqual) | .symbol (.binary .strictNotEqual) => some 6
    | .symbol (.binary .lessThan) | .symbol (.binary .greaterThan)
    | .symbol (.binary .lessThanOrEqual) | .symbol (.binary .greaterThanOrEqual)
    | .symbol (.binary .instanceOf) | .symbol (.binary .isIn) => some 7
    | .symbol (.binary .shiftLeft) | .symbol (.binary .shiftRight)
    | .symbol (.binary .logicalShiftRight) => some 8
    | .symbol (.binary .add) | .symbol (.binary .subtract) => some 9
    | .symbol (.binary .multiply) | .symbol (.binary .divide)
    | .symbol (.binary .modulo) => some 10
    | .symbol (.binary .exponentiate) => some 11
    | _ => none

/-- The operator in the table of logical operators. -/
def logicalOperator? : Kind → Option BinaryOperator
  | .symbol (.binary .logicalAnd) => some .logicalAnd
  | .symbol (.binary .logicalOr) => some .logicalOr
  | _ => none

/-- The operator in the table of binary operators that are not logical. -/
def plainOperator? : Kind → Option BinaryOperator
  | .symbol (.binary .bitwiseOr) => some .bitwiseOr
  | .symbol (.binary .bitwiseXor) => some .bitwiseXor
  | .symbol (.binary .bitwiseAnd) => some .bitwiseAnd
  | .symbol (.binary .looseEqual) => some .looseEqual
  | .symbol (.binary .looseNotEqual) => some .looseNotEqual
  | .symbol (.binary .strictEqual) => some .strictEqual
  | .symbol (.binary .strictNotEqual) => some .strictNotEqual
  | .symbol (.binary .lessThan) => some .lessThan
  | .symbol (.binary .greaterThan) => some .greaterThan
  | .symbol (.binary .lessThanOrEqual) => some .lessThanOrEqual
  | .symbol (.binary .greaterThanOrEqual) => some .greaterThanOrEqual
  | .symbol (.binary .instanceOf) => some .instanceOf
  | .symbol (.binary .isIn) => some .isIn
  | .symbol (.binary .shiftLeft) => some .shiftLeft
  | .symbol (.binary .shiftRight) => some .shiftRight
  | .symbol (.binary .logicalShiftRight) => some .logicalShiftRight
  | .symbol (.binary .add) => some .add
  | .symbol (.binary .subtract) => some .subtract
  | .symbol (.binary .multiply) => some .multiply
  | .symbol (.binary .divide) => some .divide
  | .symbol (.binary .modulo) => some .modulo
  | .symbol (.binary .exponentiate) => some .exponentiate
  | _ => none

/-- The range of the binary operators, their tiers and the two tables of them agree. -/
theorem binaryOperator_tables (kind : Kind) :
    kind.isBinaryOperator = kind.binaryOperator?.isSome ∧
      kind.precedence? = kind.binaryOperator?.map BinaryOperator.precedence ∧
      (kind.logicalOperator?.or kind.plainOperator?) = kind.binaryOperator? := by
  have all : ∀ kind ∈ Kind.all, kind.isBinaryOperator = kind.binaryOperator?.isSome ∧
      kind.precedence? = kind.binaryOperator?.map BinaryOperator.precedence ∧
      (kind.logicalOperator?.or kind.plainOperator?) = kind.binaryOperator? := by
    decide +kernel
  exact all kind kind.mem_all

/-- The other classes of operators are those in their tables, and the keywords are the reserved
words. -/
theorem operator_tables (kind : Kind) :
    kind.isAssignmentOperator = kind.assignmentOperator?.isSome ∧
      kind.isUnaryOperator = kind.unaryOperator?.isSome ∧
      kind.isUpdateOperator = kind.updateOperator?.isSome ∧
      kind.isKeyword = kind.isReservedWord := by
  have all : ∀ kind ∈ Kind.all, kind.isAssignmentOperator = kind.assignmentOperator?.isSome ∧
      kind.isUnaryOperator = kind.unaryOperator?.isSome ∧
      kind.isUpdateOperator = kind.updateOperator?.isSome ∧
      kind.isKeyword = kind.isReservedWord := by
    decide +kernel
  exact all kind kind.mem_all

end Kind

/-- The literal that a kind is with a value beside it. -/
def Content.literal? (content : Content) : Option Literal :=
  match content.kind, content.payload with
  | .symbol (.keyword .trueWord), _ => some (.boolean true)
  | .symbol (.keyword .falseWord), _ => some (.boolean false)
  | .symbol (.keyword .nullWord), _ => some .null
  | _, some (.number value) => some (.number value)
  | .stringLiteral, some (.text value) => some (.string value)
  | _, some (.regularExpression pattern flags) => some (.regularExpression pattern flags)
  | _, _ => none

/-- The name, or the text of a string, in the value beside a kind. -/
def Content.name? (content : Content) : Option String :=
  match content.payload with
  | some (.text name) => some name
  | _ => none

/-- What is kept of the content of a token. -/
def Token.content (token : Token) : Content :=
  token.lexeme.content token.flags

/-- What is kept of a token names it. -/
theorem Token.name?_content (token : Token) : token.content.name? = token.name? := by
  change (token.lexeme.content token.flags).name? = token.lexeme.name?
  cases token.lexeme with
  | symbol item =>
    rw [Content.name?, Lexeme.content, Lexeme.payload, Lexeme.name?]
    cases item.isWord <;> rfl
  | _ => rfl

/-- What is kept of a token tells the literal that it is. -/
theorem Token.literal?_content (token : Token) :
    token.content.literal? = token.lexeme.literal? := by
  change (token.lexeme.content token.flags).literal? = token.lexeme.literal?
  cases token.lexeme with
  | symbol item =>
    cases item with
    | keyword word => cases word <;> rfl
    | binary operator => cases operator <;> rfl
    | _ => rfl
  | _ => rfl

/-- The text of a directive, sliced out of the source text. -/
def directiveText? (source : String) (token : Token) : Option String :=
  (slicedText? source token.start token.stop).bind sliceInside?

/-- Statements are read in front of strings only that can be sliced out of the source text. -/
def SlicesStrings (source : String) (statement : Parse Statement) : Prop :=
  ∀ {state first after}, statement state = .ok first after →
    state.lookahead.kind = .stringLiteral →
    directiveText? source state.lookahead = some (Grammar.insideQuotes state.lookahead.text)

namespace Fallback

open Parse

variable (source : String) (fallback : Fault) (self : Nonterminals)

/-- What has been found, or else the fault. -/
def orElse {α : Type} (found? : Option α) : Parse α :=
  match found? with
  | some value => return value
  | none => throw fallback

/-! ### Names -/

/-- An identifier where an expression may stand. -/
def identifierReference : Parse Identifier := do
  let token ← lookahead
  if token.content.kind == .identifier then
    consume
    let name ← orElse fallback token.content.name?
    if (← isStrict) && isStrictReservedWord name then
      fail .strictReservedWord token.span.start
    return ⟨name, token.span⟩
  else unexpected

/-- An identifier that is bound. -/
def bindingIdentifier : Parse Identifier := do
  let identifier ← identifierReference fallback
  if (← isStrict) && isEvalOrArguments identifier.name then
    fail .strictEvalOrArguments identifier.span.start
  return identifier

/-- An identifier or a reserved word, as the name of a property. -/
def identifierName : Parse Identifier := do
  let token ← lookahead
  if token.content.kind == .identifier || token.content.kind.isKeyword then
    consume
    let name ← orElse fallback token.content.name?
    return ⟨name, token.span⟩
  else unexpected

/-! ### Functions -/

/-- The directives at the beginning of a script or a function body. -/
def directives (statement : Parse Statement) : Nat → Parse (List Statement)
  | 0 => exhausted
  | turns + 1 => do
    let opening ← lookahead
    if opening.content.kind != .stringLiteral then return []
    let first ← statement
    match Grammar.directive? opening first with
    | some (expression, span) =>
      let text ← orElse fallback (directiveText? source opening)
      if text == "use strict" then enableStrict
      let others ← directives statement turns
      return .expression expression (some text) span :: others
    | none => return [first]

/-- Parameters in parentheses. -/
def formalParameters : Parse (List Identifier) := do
  require Punctuator.leftParen
  let parameters ←
    if ← sees Punctuator.rightParen then pure []
    else separated (bindingIdentifier fallback) self.turns
  require Punctuator.rightParen
  return parameters

/-- The body of a function, in braces. -/
def functionBody : Parse Block := do
  let start ← nodeStart
  require Punctuator.leftBrace
  let body ← inFunction do
    let opening ← directives source fallback self.statement self.turns
    let others ← Grammar.statementList self
    require Punctuator.rightBrace
    return opening ++ others
  return ⟨body, ← spanFrom start⟩

/-- A function in an expression. -/
def functionExpression : Parse Expression := do
  let start ← nodeStart
  require Keyword.functionWord
  let name ←
    if ← sees .identifier then some <$> bindingIdentifier fallback else pure none
  let parameters ← formalParameters fallback self
  let body ← functionBody source fallback self
  return .function name parameters body (← spanFrom start)

/-- The declaration of a function. -/
def functionDeclaration : Parse Statement := do
  let start ← nodeStart
  require Keyword.functionWord
  let name ← bindingIdentifier fallback
  let parameters ← formalParameters fallback self
  let body ← functionBody source fallback self
  return .function name parameters body (← spanFrom start)

/-- A statement, or the declaration of a function. -/
def listItem : Parse Statement := do
  if ← sees Keyword.functionWord then functionDeclaration source fallback self
  else Grammar.statement self

/-! ### Literals and properties -/

/-- The literal that the token of lookahead is. -/
def literal : Parse Expression := do
  let token ← lookahead
  let (raw, span) ← Grammar.literalToken
  let value ← orElse fallback token.content.literal?
  return .literal value raw span

/-- A literal, as the name of a property. -/
def literalKey : Parse PropertyKey := do
  match ← literal fallback with
  | .literal value raw span => return .literal value raw span
  | _ => throw fallback

/-- The name of a property. -/
def propertyKey : Parse PropertyKey := do
  match (← lookahead).content.kind with
  | .stringLiteral | .numericLiteral => literalKey fallback
  | _ => .identifier <$> identifierName fallback

/-- What the word at the beginning of a property makes of it, when it is not the name itself. -/
def accessorKind? (content : Content) : Option PropertyKind :=
  if content.kind == .identifier then
    match content.name? with
    | some "get" => some .get
    | some "set" => some .set
    | _ => none
  else none

/-- The function of an accessor, after its name. -/
def accessorFunction (kind : PropertyKind) : Parse Expression := do
  let start ← nodeStart
  let parameters ← formalParameters fallback self
  Grammar.checkAccessor kind parameters start
  let body ← functionBody source fallback self
  return .function none parameters body (← spanFrom start)

/-- A property of an object: a name with a value, or an accessor. -/
def property : Parse Property := do
  let opening ← lookahead
  let start := opening.span.start
  match accessorKind? opening.content with
  | some kind =>
    consume
    if Grammar.startsPropertyKey (← Parse.kind) then
      let key ← propertyKey fallback
      let value ← accessorFunction source fallback self kind
      return ⟨key, value, kind, ← spanFrom start⟩
    else
      let name ← orElse fallback opening.content.name?
      Grammar.propertyValue self start (.identifier ⟨name, opening.span⟩)
  | none =>
    let key ← propertyKey fallback
    Grammar.propertyValue self start key

/-- An object in braces. -/
def objectLiteral : Parse Expression := do
  let start ← nodeStart
  require Punctuator.leftBrace
  let properties ← withIn <|
    itemsUntil (· == .symbol Punctuator.rightBrace)
      (Grammar.itemWithComma .rightBrace (property source fallback self)) self.turns
  require Punctuator.rightBrace
  return .object properties (← spanFrom start)

/-- A regular expression. The token of lookahead, which must be a slash, is read again. -/
def regularExpression : Parse Expression := do
  let front ← orElse fallback (Scan.slash? (← lookahead).lexeme)
  reread front
  literal fallback

/-- A name, a literal, or an enclosed expression. -/
def primary : Parse Expression := do
  let token ← lookahead
  match token.content.kind with
  | .symbol (.keyword .thisWord) =>
    consume
    return .thisValue token.span
  | .identifier => .identifier <$> identifierReference fallback
  | .numericLiteral | .stringLiteral | .regularExpressionLiteral
  | .symbol (.keyword .trueWord) | .symbol (.keyword .falseWord)
  | .symbol (.keyword .nullWord) => literal fallback
  | .symbol (.binary .divide) | .symbol (.assignment .divideAssign) => regularExpression fallback
  | .symbol (.punctuator .leftParen) => Grammar.parenthesized self
  | .symbol (.punctuator .leftBracket) => Grammar.arrayLiteral self
  | .symbol (.punctuator .leftBrace) => objectLiteral source fallback self
  | .symbol (.keyword .functionWord) => functionExpression source fallback self
  | .symbol (.keyword .newWord) => Grammar.newExpression self
  | _ => unexpected

/-- An expression that may be assigned to or called. -/
def leftHandSide (withCalls : Bool) : Parse Expression := do
  let start ← nodeStart
  let expression ←
    if ← sees Keyword.newWord then Grammar.newExpression self else primary source fallback self
  Grammar.suffixes self withCalls start self.turns expression

/-! ### Operators -/

/-- An operand with `++` or `--` before or after it. -/
def update : Parse Expression := do
  let start ← nodeStart
  let kind ← Parse.kind
  if kind.isUpdateOperator then
    consume
    let operator ← orElse fallback kind.updateOperator?
    let target ← self.unary
    unless target.isReference do fail .invalidTargetAfterUpdate target.span.start
    Grammar.checkTarget target
    return .update operator .before target (← spanFrom start)
  else
    let target ← leftHandSide source fallback self true
    let token ← lookahead
    if token.flags.lineBreak || !token.content.kind.isUpdateOperator then return target
    else
      let operator ← orElse fallback token.content.kind.updateOperator?
      unless target.isReference do fail .invalidTargetBeforeUpdate target.span.start
      Grammar.checkTarget target
      consume
      return .update operator .after target (← spanFrom start)

/-- An operand of a binary operator. -/
def unary : Parse Expression := do
  let kind ← Parse.kind
  if kind.isUnaryOperator then
    let operator ← orElse fallback kind.unaryOperator?
    let start ← nodeStart
    consume
    let argument ← self.unary
    Grammar.checkDelete operator argument start
    return .unary operator argument (← spanFrom start)
  else update source fallback self

/-- The tier of the token of lookahead, if it goes on with operators here. -/
def currentTier : Parse (Option Nat) := do
  let kind ← Parse.kind
  if !kind.isBinaryOperator || kind == .symbol BinaryOperator.isIn && (← get).context.withoutIn then
    return none
  return kind.precedence?

/-- Two operands with an operator between them that is a kind. -/
def combine (start : Position) (left : Expression) (kind : Kind) (right : Expression) :
    Parse Expression := do
  let operator ← orElse fallback (kind.logicalOperator?.or kind.plainOperator?)
  return .binary operator left right (← spanFrom start)

/-- Extends the right operand of an operator of some tier by the operators that bind it tighter. -/
def rightOperand (start : Position) (tier : Nat) : Nat → Expression → Parse Expression
  | 0, _ => exhausted
  | turns + 1, right => do
    match ← currentTier with
    | none => return right
    | some next =>
      let toTheRight := (← Parse.kind) == .symbol BinaryOperator.exponentiate
      if tier < next then
        rightOperand start tier turns (← self.operators start (tier + 1) right)
      else if next = tier ∧ toTheRight then
        rightOperand start tier turns (← self.operators start tier right)
      else return right

/-- Binary operators of some tier or a higher one, and their right operands, after a left operand
that began at a position. -/
def operators (start : Position) (tier : Nat) : Nat → Expression → Parse Expression
  | 0, _ => exhausted
  | turns + 1, left => do
    match ← currentTier with
    | none => return left
    | some current =>
      if current < tier then return left
      else
        let kind ← Parse.kind
        consume
        let rightStart ← nodeStart
        let operand ← self.unary
        let right ← rightOperand self rightStart current self.turns operand
        operators start tier turns (← combine fallback start left kind right)

/-- Operands with binary operators between them. -/
def binary : Parse Expression := do
  let start ← nodeStart
  let left ← unary source fallback self
  operators fallback self start 0 self.turns left

/-- An expression without commas at the outermost level. -/
def assignment : Parse Expression := do
  let start ← nodeStart
  let expression ← binary source fallback self
  let kind ← Parse.kind
  if kind.isAssignmentOperator then
    let operator ← orElse fallback kind.assignmentOperator?
    unless expression.isReference do fail .invalidAssignmentTarget expression.span.start
    Grammar.checkTarget expression
    consume
    let value ← self.assignment
    return .assignment operator expression value (← spanFrom start)
  else if ← consumeIf Punctuator.questionMark then
    let consequent ← withIn self.assignment
    require Punctuator.colon
    let alternate ← self.assignment
    return .conditional expression consequent alternate (← spanFrom start)
  else return expression

/-- An expression, which is a sequence when there are commas at the outermost level. -/
def expression : Parse Expression := do
  let start ← nodeStart
  let first ← assignment source fallback self
  if ← consumeIf Punctuator.comma then
    let others ← separated self.assignment self.turns
    return .sequence (first :: others) (← spanFrom start)
  else return first

section Equal

variable {source fallback self} {state : State}

theorem orElse_some_bind {α β : Type} {rest : α → Parse β} (value : α) :
    (orElse fallback (some value) >>= rest) = rest value :=
  pure_bind value rest

/-- An identifier has a name. -/
theorem identifierReference_eq : identifierReference fallback = Parse.identifierReference := by
  funext state
  rw [identifierReference, Parse.identifierReference, lookahead_bind, lookahead_bind,
    Token.name?_content]
  change (if (state.lookahead.lexeme.kind == .identifier) = true then _ else _ :
    Parse Identifier) state = _
  rw [Token.name?]
  cases state.lookahead.lexeme <;> rfl

theorem bindingIdentifier_eq : bindingIdentifier fallback = Parse.bindingIdentifier := by
  rw [bindingIdentifier, identifierReference_eq]
  rfl

/-- Identifiers and reserved words have a name. -/
theorem exists_name {token : Token} (named : token.kind.isIdentifierName = true) :
    ∃ name, token.name? = some name := by
  rw [Token.kind] at named
  rw [Token.name?]
  cases found : token.lexeme with
  | identifier name => exact ⟨name, rfl⟩
  | string value => exact ⟨value, rfl⟩
  | symbol item =>
    rw [found] at named
    have isWord : item.isWord = true := named
    exact ⟨item.text, if_pos isWord⟩
  | endOfFile | number | regularExpression =>
    rw [found] at named
    cases named

theorem identifierName_eq : identifierName fallback = Parse.identifierName := by
  funext state
  rw [identifierName, Parse.identifierName, lookahead_bind, lookahead_bind, Token.name?_content]
  have kind :
      (state.lookahead.content.kind == .identifier || state.lookahead.content.kind.isKeyword) =
        state.lookahead.kind.isIdentifierName := by
    rw [(Kind.operator_tables _).2.2.2]
    rfl
  rw [kind]
  split
  · rename_i named
    obtain ⟨name, found⟩ := exists_name named
    rw [found]
    rfl
  · rfl

/-! Where statements are read only in front of strings that can be sliced, so are directives. -/

theorem directives_eq {statement : Parse Statement} (slices : SlicesStrings source statement)
    (turns : Nat) :
    directives source fallback statement turns = Grammar.directives statement turns := by
  induction turns with
  | zero => rfl
  | succ turns ih =>
    funext state
    rw [directives, Grammar.directives, lookahead_bind, lookahead_bind]
    change (if (state.lookahead.kind != .stringLiteral) = true then _ else _ :
      Parse (List Statement)) state = _
    split
    · rfl
    · rename_i string
      have string : state.lookahead.kind = .stringLiteral := by simpa using string
      change EStateM.bind _ _ state = EStateM.bind _ _ state
      rw [EStateM.bind, EStateM.bind]
      cases run : statement state with
      | error fault after => rfl
      | ok first after =>
        dsimp only
        cases Grammar.directive? state.lookahead first with
        | none => rfl
        | some found =>
          dsimp only
          rw [slices run string, orElse_some_bind, ih]

theorem formalParameters_eq : formalParameters fallback self = Grammar.formalParameters self := by
  rw [formalParameters, bindingIdentifier_eq]
  rfl

section Slices

variable (slices : SlicesStrings source self.statement)

include slices

theorem functionBody_eq : functionBody source fallback self = Grammar.functionBody self := by
  rw [functionBody, directives_eq slices]
  rfl

theorem functionExpression_eq :
    functionExpression source fallback self = Grammar.functionExpression self := by
  rw [functionExpression, bindingIdentifier_eq, formalParameters_eq, functionBody_eq slices]
  rfl

theorem accessorFunction_eq (kind : PropertyKind) :
    accessorFunction source fallback self kind = Grammar.accessorFunction self kind := by
  rw [accessorFunction, formalParameters_eq, functionBody_eq slices]
  rfl

end Slices

/-! A literal has a value. -/

theorem literal_eq {value : Literal} (found : state.lookahead.lexeme.literal? = some value) :
    literal fallback state = Grammar.literal value state := by
  rw [literal, lookahead_bind, Token.literal?_content, found]
  rfl

/-- The literal at the place of a key is a literal. -/
theorem literalKey_eq {value : Literal} (found : state.lookahead.lexeme.literal? = some value) :
    literalKey fallback state = Grammar.literalKey value state := by
  change EStateM.bind _ _ state = EStateM.bind _ _ state
  rw [EStateM.bind, EStateM.bind, literal_eq found, Grammar.literal]
  simp only [bind, EStateM.bind]
  cases Grammar.literalToken state with
  | ok => rfl
  | error => rfl

theorem propertyKey_eq : propertyKey fallback = Grammar.propertyKey := by
  funext state
  rw [propertyKey, Grammar.propertyKey, lookahead_bind, lookahead_bind, identifierName_eq]
  have kind : state.lookahead.content.kind = state.lookahead.lexeme.kind := rfl
  rw [kind]
  cases found : state.lookahead.lexeme with
  | string value => exact literalKey_eq (by rw [found]; rfl)
  | number value => exact literalKey_eq (by rw [found]; rfl)
  | _ => rfl

theorem accessorKind?_content (token : Token) :
    accessorKind? token.content = Grammar.accessorKind? token.lexeme := by
  have kind : token.content.kind = token.lexeme.kind := rfl
  rw [accessorKind?, Token.name?_content, Token.name?, kind]
  cases token.lexeme with
  | identifier name =>
    by_cases get : name = "get"
    · subst get
      rfl
    · by_cases set : name = "set"
      · subst set
        rfl
      · simp [Lexeme.kind, Lexeme.name?, Grammar.accessorKind?, get, set]
  | _ => rfl

/-- What begins with a slash is a literal when it is read again. -/
theorem regularExpression_eq {front : List Char}
    (slash : Scan.slash? state.lookahead.lexeme = some front) :
    regularExpression fallback state = Grammar.regularExpression front state := by
  rw [regularExpression, lookahead_bind, slash, orElse_some_bind, Grammar.regularExpression]
  simp only [bind, EStateM.bind]
  cases run : reread front state with
  | error => rfl
  | ok value after =>
    obtain ⟨token, cursor, scanned, rfl⟩ := reread_eq_ok.mp run
    obtain ⟨length, rereads⟩ := Scan.rereadsAs_of_regularExpression scanned
    obtain ⟨pattern, flags, same⟩ := RegularExpression.eq_of_read rereads.expression
    have found : token.lexeme.literal? = some (.regularExpression pattern flags) := by
      rw [same]
      rfl
    refine (literal_eq found).trans ?_
    have seen : ∀ state : State, lookahead state = .ok state.lookahead state := fun _ => rfl
    simp only [seen, found]

section Slices

variable (slices : SlicesStrings source self.statement)

include slices

theorem property_eq : property source fallback self = Grammar.property self := by
  funext state
  rw [property, Grammar.property, lookahead_bind, lookahead_bind, accessorKind?_content,
    propertyKey_eq, Token.name?_content]
  simp only [accessorFunction_eq slices]
  cases accessor : Grammar.accessorKind? state.lookahead.lexeme with
  | none => rfl
  | some kind =>
    have name : ∃ name, state.lookahead.name? = some name := by
      rw [Token.name?]
      cases lexeme : state.lookahead.lexeme with
      | identifier name => exact ⟨name, rfl⟩
      | _ =>
        rw [lexeme] at accessor
        cases accessor
    obtain ⟨name, found⟩ := name
    rw [found]
    rfl

theorem objectLiteral_eq : objectLiteral source fallback self = Grammar.objectLiteral self := by
  rw [objectLiteral, property_eq slices]
  rfl

theorem primary_eq (other : state.lookahead.kind ≠ .symbol Keyword.newWord) :
    primary source fallback self state = Grammar.primary self state := by
  have kind : state.lookahead.content.kind = state.lookahead.lexeme.kind := rfl
  rw [primary, Grammar.primary, lookahead_bind, lookahead_bind, identifierReference_eq,
    objectLiteral_eq slices, functionExpression_eq slices, kind]
  rw [Token.kind] at other
  cases found : state.lookahead.lexeme with
  | endOfFile => rfl
  | identifier name => rfl
  | number value => exact literal_eq (by rw [found]; rfl)
  | string value => exact literal_eq (by rw [found]; rfl)
  | regularExpression pattern flags => exact literal_eq (by rw [found]; rfl)
  | symbol item =>
    rw [found] at other
    cases item with
    | keyword word =>
      cases word with
      | newWord => exact absurd rfl other
      | trueWord | falseWord | nullWord => exact literal_eq (by rw [found]; rfl)
      | _ => rfl
    | binary operator =>
      cases operator with
      | divide => exact regularExpression_eq (by rw [found]; rfl)
      | _ => rfl
    | assignment operator =>
      cases operator with
      | divideAssign => exact regularExpression_eq (by rw [found]; rfl)
      | _ => rfl
    | punctuator mark => cases mark <;> rfl
    | update => rfl

theorem leftHandSide_eq (withCalls : Bool) :
    leftHandSide source fallback self withCalls = Grammar.leftHandSide self withCalls := by
  funext state
  rw [leftHandSide, Grammar.leftHandSide, nodeStart_bind, nodeStart_bind, sees_bind, sees_bind]
  split
  · rfl
  · rename_i other
    have other : state.lookahead.kind ≠ .symbol Keyword.newWord := by simpa using other
    simp only [bind, EStateM.bind, primary_eq slices other]

theorem update_eq : update source fallback self = Grammar.update self := by
  funext state
  rw [update, Grammar.update, nodeStart_bind, nodeStart_bind, kind_bind, kind_bind,
    leftHandSide_eq slices, (Kind.operator_tables _).2.2.1]
  cases state.lookahead.kind.updateOperator? with
  | some operator => rfl
  | none =>
    refine congrFun (bind_congr fun target => ?_) state
    funext after
    have kind : after.lookahead.content.kind = after.lookahead.kind := rfl
    rw [lookahead_bind, lookahead_bind, kind, (Kind.operator_tables _).2.2.1]
    cases after.lookahead.kind.updateOperator? with
    | some operator => cases after.lookahead.flags.lineBreak <;> rfl
    | none => cases after.lookahead.flags.lineBreak <;> rfl

theorem unary_eq : unary source fallback self = Grammar.unary self := by
  funext state
  rw [unary, Grammar.unary, kind_bind, nodeStart_bind, kind_bind, update_eq slices,
    (Kind.operator_tables _).2.1]
  cases state.lookahead.kind.unaryOperator? with
  | some operator => rfl
  | none => rfl

end Slices

/-! A tier is that of an operator. -/

theorem kind_of_binaryOperator? {kind : Kind} {operator : BinaryOperator}
    (found : kind.binaryOperator? = some operator) : kind = .symbol operator := by
  rw [Kind.binaryOperator?.eq_def] at found
  split at found
  · cases found
    rfl
  · cases found

theorem kind_of_operator? {operator : BinaryOperator} (found : state.operator? = some operator) :
    state.lookahead.kind = .symbol operator := by
  rw [State.operator?] at found
  split at found
  · cases found
  · exact kind_of_binaryOperator? found

theorem currentTier_bind {α : Type} {rest : Option Nat → Parse α} :
    (currentTier >>= rest) state = rest (state.operator?.map BinaryOperator.precedence) state := by
  have found : currentTier state =
      .ok (state.operator?.map BinaryOperator.precedence) state := by
    obtain ⟨range, tier, -⟩ := Kind.binaryOperator_tables state.lookahead.kind
    rw [currentTier, kind_bind, range, tier, State.operator?]
    change (if (_ || _ && state.context.withoutIn) = true then _ else _ :
      Parse (Option Nat)) state = _
    cases binary : state.lookahead.kind.binaryOperator? with
    | none => rfl
    | some operator =>
      have isIn : (state.lookahead.kind == .symbol BinaryOperator.isIn) =
          decide (some operator = some BinaryOperator.isIn) := by
        rw [kind_of_binaryOperator? binary]
        cases operator <;> rfl
      rw [isIn, Option.isSome_some, Bool.not_true, Bool.false_or]
      split
      · rename_i hidden
        rw [Bool.and_eq_true, decide_eq_true_iff] at hidden
        rw [if_pos hidden]
        rfl
      · rename_i plain
        rw [Bool.and_eq_true, decide_eq_true_iff] at plain
        rw [if_neg plain]
        rfl
  change EStateM.bind _ _ state = _
  rw [EStateM.bind, found]

/-- An operator is in one of the tables. -/
theorem combine_eq (start : Position) (left right : Expression) (operator : BinaryOperator) :
    combine fallback start left (.symbol operator) right =
      (do return .binary operator left right (← spanFrom start)) := by
  rw [combine, (Kind.binaryOperator_tables _).2.2]
  rfl

theorem rightOperand_eq (start : Position) (tier turns : Nat) (right : Expression) :
    rightOperand self start tier turns right = Grammar.rightOperand self start tier turns right := by
  induction turns generalizing right with
  | zero => rfl
  | succ turns ih =>
    funext state
    rw [rightOperand, Grammar.rightOperand, currentTier_bind, Grammar.binaryOperator?_bind]
    cases found : state.operator? with
    | none => rfl
    | some next =>
      rw [Option.map_some]
      dsimp only
      have toTheRight : (Kind.symbol next == .symbol BinaryOperator.exponentiate) =
          next.isRightAssociative := by
        cases next <;> rfl
      rw [kind_bind, kind_of_operator? found, toTheRight]
      simp only [ih, @eq_comm _ next.precedence tier]

theorem operators_eq (start : Position) (tier turns : Nat) (left : Expression) :
    operators fallback self start tier turns left =
      Grammar.operators self start tier turns left := by
  induction turns generalizing left with
  | zero => rfl
  | succ turns ih =>
    funext state
    rw [operators, Grammar.operators, currentTier_bind, Grammar.binaryOperator?_bind]
    cases found : state.operator? with
    | none => rfl
    | some operator =>
      rw [Option.map_some]
      dsimp only
      split
      · rfl
      · rw [kind_bind, kind_of_operator? found]
        simp only [ih, rightOperand_eq, combine_eq, bind_assoc, pure_bind]

section Slices

variable (slices : SlicesStrings source self.statement)

include slices

theorem binary_eq : binary source fallback self = Grammar.binary self := by
  rw [binary, unary_eq slices]
  simp only [operators_eq]
  rfl

theorem assignment_eq : assignment source fallback self = Grammar.assignment self := by
  rw [assignment, binary_eq slices]
  refine bind_congr fun start => bind_congr fun expression => ?_
  funext state
  rw [kind_bind, kind_bind, (Kind.operator_tables _).1]
  cases state.lookahead.kind.assignmentOperator? with
  | some operator => rfl
  | none => rfl

theorem expression_eq : expression source fallback self = Grammar.expression self := by
  rw [expression, assignment_eq slices]
  rfl

end Slices

end Equal

end Fallback

end EcmaScript
