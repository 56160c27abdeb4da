import EcmaScript.Grammar.Statement

/-!
# The rules of the grammar

The grammar as a relation between tokens and trees, without a state and without an order of work.
`Reads scope phrase tokens next` says that the tokens, with one more token after them, can be read
as a phrase inside some scope. A slash that was read again stands among the tokens as the regular
expression it began, but the token after a phrase is as it was first read.

Binary operators have the usual rules of a grammar with tiers: an operand of an operator belongs to
a tier that is high enough for its side.
-/

namespace EcmaScript

/-- What surrounds a phrase: context, labels and options. -/
structure Scope where
  context : Context
  labels : Labels
  options : Options

namespace Scope

/-- The scope of brackets, where `in` is an operator. -/
def withIn (scope : Scope) : Scope :=
  { scope with context := { scope.context with withoutIn := false } }

/-- The scope of the head of a `for` statement. -/
def withoutIn (scope : Scope) : Scope :=
  { scope with context := { scope.context with withoutIn := true } }

/-- The scope of the body of a loop. -/
def inLoop (scope : Scope) : Scope :=
  { scope with context := { scope.context with inLoop := true } }

/-- The scope of the clauses of a `switch` statement. -/
def inSwitch (scope : Scope) : Scope :=
  { scope with context := { scope.context with inSwitch := true } }

/-- The scope at the start of the body of a function. -/
def inFunction (scope : Scope) : Scope :=
  { scope with context := scope.context.forFunctionBody, labels := {} }

/-- The scope of a statement with a label. -/
def withLabel (scope : Scope) (label : String) : Scope :=
  { scope with labels := scope.labels.push label }

/-- The scope after a directive. -/
def afterDirective (scope : Scope) (text : String) : Scope :=
  if text = "use strict" then { scope with context := { scope.context with strict := true } }
  else scope

@[simp] theorem options_afterDirective (scope : Scope) (text : String) :
    (scope.afterDirective text).options = scope.options := by
  unfold afterDirective
  split <;> rfl

/-- An identifier token refers to a name. -/
def Refers (scope : Scope) (token : Token) (name : Identifier) : Prop :=
  token.lexeme = .identifier name.name ∧ name.span = token.span ∧
    (scope.context.strict = true → isStrictReservedWord name.name = false)

/-- An identifier token binds a name. -/
def Binds (scope : Scope) (token : Token) (name : Identifier) : Prop :=
  scope.Refers token name ∧
    (scope.context.strict = true → Parse.isEvalOrArguments name.name = false)

/-- The token of a literal is written in a way that the scope allows. -/
def AllowsLiteral (scope : Scope) (token : Token) : Prop :=
  scope.context.strict = true → token.flags.hasLegacyEscape = false

/-- An expression that may be assigned to. -/
def AllowsTarget (scope : Scope) (target : Expression) : Prop :=
  target.isReference = true ∧
    (scope.context.strict = true → target.name?.any Parse.isEvalOrArguments = false)

/-- The operand of a unary operator is no bare name if strict code deletes it. -/
def AllowsOperand (scope : Scope) (operator : UnaryOperator) (argument : Expression) : Prop :=
  operator = .delete → scope.context.strict = true → argument.name? = none

/-- What a loop over the properties of an object may assign to. -/
def AllowsForIn (scope : Scope) : ForHead → Prop
  | .declaration declaration => declaration.declarators.length = 1
  | .expression target => scope.AllowsTarget target

/-- A binary operator that is an operator in the scope. -/
def HasOperator (scope : Scope) (operator : BinaryOperator) : Prop :=
  operator = .isIn → scope.context.withoutIn = false

/-- A token is the name of a property in an object. -/
inductive HasKey (scope : Scope) (token : Token) : PropertyKey → Prop where
  | literal (value : Literal) :
      token.kind = .stringLiteral ∨ token.kind = .numericLiteral →
      token.lexeme.literal? = some value → scope.AllowsLiteral token →
      HasKey scope token (.literal value token.text token.span)
  | name : token.kind.isIdentifierName = true →
      HasKey scope token (.identifier ⟨token.name?.getD "", token.span⟩)

/-- Tokens are some names that are bound, with commas between them. -/
inductive HasBindings (scope : Scope) : List Identifier → List Token → Prop where
  | one {token : Token} {name : Identifier} :
      scope.Binds token name → HasBindings scope [name] [token]
  | more {token comma : Token} {name : Identifier} {names : List Identifier}
      {tokens : List Token} :
      scope.Binds token name → comma.kind = .symbol Punctuator.comma →
      HasBindings scope names tokens →
      HasBindings scope (name :: names) (token :: comma :: tokens)

/-- Tokens are the parameters of a function in parentheses. -/
inductive HasParameters (scope : Scope) : List Identifier → List Token → Prop where
  | none {opening closing : Token} :
      opening.kind = .symbol Punctuator.leftParen →
      closing.kind = .symbol Punctuator.rightParen →
      HasParameters scope [] [opening, closing]
  | some {opening closing : Token} {names : List Identifier} {tokens : List Token} :
      opening.kind = .symbol Punctuator.leftParen → scope.HasBindings names tokens →
      closing.kind = .symbol Punctuator.rightParen →
      HasParameters scope names (opening :: (tokens ++ [closing]))

/-- Tokens are the name of a function expression, which may be left out. -/
inductive HasFunctionName (scope : Scope) : Option Identifier → List Token → Prop where
  | none : HasFunctionName scope none []
  | some {token : Token} {name : Identifier} :
      scope.Binds token name → HasFunctionName scope (some name) [token]

end Scope

namespace Token

/-- A regular expression token is a slash that was read again. -/
def Rereads (token slash : Token) : Prop :=
  (∃ pattern flags, token.lexeme = .regularExpression pattern flags) ∧
    (Scan.slash? slash.lexeme).isSome = true ∧ token.flags.lineBreak = slash.flags.lineBreak ∧
    token.span.start = slash.span.start

/-- A token is the first of some tokens, as it was first read, or the next one if there are none.
-/
def Opens (token : Token) : List Token → Token → Prop
  | [], next => token = next
  | first :: _, _ => first = token ∨ first.Rereads token

namespace Opens

variable {token follower first next : Token} {tokens others : List Token}

/-- A token opens what begins with it. -/
theorem self (token : Token) (tokens : List Token) (next : Token) :
    token.Opens (token :: tokens) next :=
  .inl rfl

theorem append (opens : token.Opens tokens follower) (more : follower.Opens others next) :
    token.Opens (tokens ++ others) next := by
  cases tokens with
  | nil =>
    cases opens
    exact more
  | cons => exact opens

theorem lineBreak (opens : token.Opens (first :: others) next) :
    first.flags.lineBreak = token.flags.lineBreak := by
  rcases opens with rfl | ⟨_, _, same, _⟩
  · rfl
  · exact same

theorem start (opens : token.Opens (first :: others) next) :
    first.span.start = token.span.start := by
  rcases opens with rfl | ⟨_, _, _, same⟩
  · rfl
  · exact same

/-- A token that is no symbol is the first of those that it opens. -/
theorem eq_first (opens : token.Opens (first :: others) next)
    (plain : ∀ symbol, token.kind ≠ .symbol symbol) : first = token := by
  rcases opens with same | ⟨_, isSlash, _⟩
  · exact same
  · unfold Scan.slash? at isSlash
    split at isSlash
    · rename_i slash
      exact absurd (congrArg Lexeme.kind slash) (plain _)
    · rename_i slash
      exact absurd (congrArg Lexeme.kind slash) (plain _)
    · cases isSlash

end Opens

/-- The span from the start of the first token to the end of the last one. -/
def cover (tokens : List Token) : Span where
  start := (tokens.head?.map (·.span.start)).getD .first
  stop := (tokens.getLast?.map (·.span.stop)).getD .first

/-- Tokens end a statement: a semicolon, or none in front of a closing brace, of the end of the
text, and of a token on a later line. The token in front of them comes first, and the token after
them last. -/
inductive Terminates : Token → List Token → Token → Prop where
  | semicolon {mark next : Token} : mark.kind = .symbol Punctuator.semicolon →
      Terminates mark [mark] next
  | inserted {next : Token} : next.kind ≠ .symbol Punctuator.semicolon →
      (next.flags.lineBreak = true ∨ next.kind = .symbol Punctuator.rightBrace ∨
        next.kind = .endOfFile) →
      Terminates next [] next

/-- Tokens are a semicolon, or none in front of anything else. -/
inductive MayTerminate : Token → List Token → Token → Prop where
  | semicolon {mark next : Token} : mark.kind = .symbol Punctuator.semicolon →
      MayTerminate mark [mark] next
  | none {next : Token} : next.kind ≠ .symbol Punctuator.semicolon → MayTerminate next [] next

end Token

/-- Tokens are the label that a jump names, if it names one. -/
inductive Scope.HasJumpLabel (scope : Scope) :
    Option Identifier → List Token → Token → Prop where
  | none {next : Token} : next.kind ≠ .identifier ∨ next.flags.lineBreak = true →
      HasJumpLabel scope none [] next
  | some {token next : Token} {label : Identifier} :
      scope.Refers token label → token.flags.lineBreak = false →
      scope.labels.contains label.name = true → HasJumpLabel scope (some label) [token] next

namespace BinaryOperator

/-- The lowest tier of a left operand. -/
def leftTier (operator : BinaryOperator) : Nat :=
  if operator.isRightAssociative then operator.precedence + 1 else operator.precedence

/-- The lowest tier of a right operand. -/
def rightTier (operator : BinaryOperator) : Nat :=
  if operator.isRightAssociative then operator.precedence else operator.precedence + 1

theorem precedence_le (operator : BinaryOperator) : operator.precedence ≤ 11 := by
  cases operator <;> decide

/-- The operators that group to the right are those of the highest tier. -/
theorem isRightAssociative_iff (operator : BinaryOperator) :
    operator.isRightAssociative = true ↔ operator.precedence = 11 := by
  cases operator <;> decide

/-- A left operand of some tier is extended by the operators of a higher tier, and by those of the
same tier that group to the right. -/
theorem leftTier_le_iff (operator : BinaryOperator) (tier : Nat) :
    operator.leftTier ≤ tier ↔
      ¬tier < operator.precedence ∧
        ¬(tier = operator.precedence ∧ operator.isRightAssociative = true) := by
  unfold leftTier
  split
  · rename_i groups
    simp only [groups, and_true]
    omega
  · rename_i groups
    simp [groups]

end BinaryOperator

/-- How tightly the parts of an expression hold together, from names and literals to sequences. -/
inductive Level where
  | primary
  /-- Property accesses, and calls if they are allowed. -/
  | member (withCalls : Bool)
  | unary
  /-- Binary operators of a tier or a higher one. -/
  | operators (tier : Nat)
  | assignment
  | expression
  /-- The function of an accessor, which has no word before its parameters. -/
  | accessor

/-- What tokens can be read as. -/
inductive Phrase where
  /-- An expression that may stand where some level is expected. -/
  | fits (level : Level) (expression : Expression)
  /-- An expression of some level without parentheses around it. -/
  | makes (level : Level) (expression : Expression)
  /-- Expressions with commas between them. -/
  | separated (expressions : List Expression)
  /-- Arguments in parentheses. -/
  | arguments (expressions : List Expression)
  | elements (elements : List (Option Expression))
  | property (property : Property)
  | properties (properties : List Property)
  /-- The parameters and the body of a function. -/
  | function (parameters : List Identifier) (body : Block)
  | functionBody (body : Block)
  /-- Statements with directives before them. -/
  | body (statements : List Statement)
  /-- A statement that is nothing but a string, at the beginning of a body. -/
  | directive (text : String) (value : Expression) (span : Span)
  | statements (statements : List Statement)
  /-- A statement in a list of statements. -/
  | item (statement : Statement)
  | statement (statement : Statement)
  | block (block : Block)
  | declarator (declarator : VariableDeclarator)
  | declarators (declarators : List VariableDeclarator)
  | declaration (declaration : VariableDeclaration)
  | head (head : ForHead)
  /-- The head of a loop with three clauses up to the first semicolon. -/
  | init (head : Option ForHead)
  /-- An expression that may be left out. -/
  | optional (expression : Option Expression)
  /-- An expression in parentheses. -/
  | condition (expression : Expression)
  | clause (clause : SwitchCase)
  /-- Clauses, after a default clause or not. -/
  | clauses (seenDefault : Bool) (clauses : List SwitchCase)
  | handler (handler : Option CatchClause)
  | finalizer (finalizer : Option Block)

open Token (cover)

/-- The rules of the grammar: inside a scope, some tokens with one more token after them can be read
as a phrase. -/
inductive Reads : Scope → Phrase → List Token → Token → Prop where
  | made {scope : Scope} {level : Level} {tokens : List Token} {next : Token}
      {value : Expression} :
      Reads scope (.makes level value) tokens next → Reads scope (.fits level value) tokens next
  | this {scope : Scope} {word next : Token} :
      word.kind = .symbol Keyword.thisWord →
      Reads scope (.makes .primary (.thisValue word.span)) [word] next
  | reference {scope : Scope} {token next : Token} {name : Identifier} :
      scope.Refers token name → Reads scope (.makes .primary (.identifier name)) [token] next
  | literal {scope : Scope} {token next : Token} {value : Literal} :
      token.lexeme.literal? = some value → scope.AllowsLiteral token →
      Reads scope (.makes .primary (.literal value token.text token.span)) [token] next
  | parenthesized {scope : Scope} {opening closing next : Token} {tokens : List Token}
      {value : Expression} :
      opening.kind = .symbol Punctuator.leftParen →
      Reads scope.withIn (.fits .expression value) tokens closing →
      closing.kind = .symbol Punctuator.rightParen →
      Reads scope (.fits .primary value) (opening :: (tokens ++ [closing])) next
  | array {scope : Scope} {opening closing next : Token} {tokens : List Token}
      {elements : List (Option Expression)} :
      opening.kind = .symbol Punctuator.leftBracket →
      Reads scope.withIn (.elements elements) tokens closing →
      closing.kind = .symbol Punctuator.rightBracket →
      Reads scope (.makes .primary (.array elements (cover (opening :: (tokens ++ [closing])))))
        (opening :: (tokens ++ [closing])) next
  | object {scope : Scope} {opening closing next : Token} {tokens : List Token}
      {properties : List Property} :
      opening.kind = .symbol Punctuator.leftBrace →
      Reads scope.withIn (.properties properties) tokens closing →
      closing.kind = .symbol Punctuator.rightBrace →
      Reads scope (.makes .primary (.object properties (cover (opening :: (tokens ++ [closing])))))
        (opening :: (tokens ++ [closing])) next
  | functionExpression {scope : Scope} {word next : Token} {nameTokens tokens : List Token}
      {name : Option Identifier} {parameters : List Identifier} {body : Block} :
      word.kind = .symbol Keyword.functionWord → scope.HasFunctionName name nameTokens →
      Reads scope (.function parameters body) tokens next →
      Reads scope
        (.makes .primary
          (.function name parameters body (cover (word :: (nameTokens ++ tokens)))))
        (word :: (nameTokens ++ tokens)) next
  | newWithout {scope : Scope} {word next : Token} {tokens : List Token} {callee : Expression} :
      word.kind = .symbol Keyword.newWord → Reads scope (.fits (.member false) callee) tokens next →
      next.kind ≠ .symbol Punctuator.leftParen →
      Reads scope (.makes .primary (.new callee [] (cover (word :: tokens)))) (word :: tokens) next
  | newWith {scope : Scope} {word follower next : Token} {tokens argumentTokens : List Token}
      {callee : Expression} {arguments : List Expression} :
      word.kind = .symbol Keyword.newWord →
      Reads scope (.fits (.member false) callee) tokens follower →
      follower.Opens argumentTokens next → Reads scope (.arguments arguments) argumentTokens next →
      Reads scope
        (.makes .primary (.new callee arguments (cover (word :: (tokens ++ argumentTokens)))))
        (word :: (tokens ++ argumentTokens)) next
  | head {scope : Scope} {tokens : List Token} {next : Token} {value : Expression}
      (withCalls : Bool) :
      Reads scope (.fits .primary value) tokens next →
      Reads scope (.fits (.member withCalls) value) tokens next
  | dot {scope : Scope} {tokens : List Token} {point token next : Token} {value : Expression}
      {withCalls : Bool} :
      Reads scope (.fits (.member withCalls) value) tokens point →
      point.kind = .symbol Punctuator.period → token.kind.isIdentifierName = true →
      Reads scope
        (.makes (.member withCalls)
          (.dot value ⟨token.name?.getD "", token.span⟩ (cover (tokens ++ [point, token]))))
        (tokens ++ [point, token]) next
  | index {scope : Scope} {tokens inner : List Token} {opening closing next : Token}
      {value property : Expression} {withCalls : Bool} :
      Reads scope (.fits (.member withCalls) value) tokens opening →
      opening.kind = .symbol Punctuator.leftBracket →
      Reads scope.withIn (.fits .expression property) inner closing →
      closing.kind = .symbol Punctuator.rightBracket →
      Reads scope
        (.makes (.member withCalls)
          (.index value property (cover (tokens ++ opening :: (inner ++ [closing])))))
        (tokens ++ opening :: (inner ++ [closing])) next
  | call {scope : Scope} {tokens argumentTokens : List Token} {follower next : Token}
      {value : Expression} {arguments : List Expression} :
      Reads scope (.fits (.member true) value) tokens follower →
      follower.Opens argumentTokens next → Reads scope (.arguments arguments) argumentTokens next →
      Reads scope (.makes (.member true) (.call value arguments (cover (tokens ++ argumentTokens))))
        (tokens ++ argumentTokens) next
  | noArguments {scope : Scope} {opening closing next : Token} :
      opening.kind = .symbol Punctuator.leftParen → closing.kind = .symbol Punctuator.rightParen →
      Reads scope (.arguments []) [opening, closing] next
  | arguments {scope : Scope} {opening closing next : Token} {tokens : List Token}
      {values : List Expression} :
      opening.kind = .symbol Punctuator.leftParen →
      Reads scope.withIn (.separated values) tokens closing →
      closing.kind = .symbol Punctuator.rightParen →
      Reads scope (.arguments values) (opening :: (tokens ++ [closing])) next
  | operand {scope : Scope} {tokens : List Token} {next : Token} {value : Expression} :
      Reads scope (.fits (.member true) value) tokens next →
      Reads scope (.fits .unary value) tokens next
  | updateBefore {scope : Scope} {mark next : Token} {tokens : List Token} {target : Expression}
      {operator : UpdateOperator} :
      mark.kind.updateOperator? = some operator → Reads scope (.fits .unary target) tokens next →
      scope.AllowsTarget target →
      Reads scope (.makes .unary (.update operator .before target (cover (mark :: tokens))))
        (mark :: tokens) next
  | updateAfter {scope : Scope} {mark next : Token} {tokens : List Token} {target : Expression}
      {operator : UpdateOperator} :
      Reads scope (.fits (.member true) target) tokens mark →
      mark.kind.updateOperator? = some operator → mark.flags.lineBreak = false →
      scope.AllowsTarget target →
      Reads scope (.makes .unary (.update operator .after target (cover (tokens ++ [mark]))))
        (tokens ++ [mark]) next
  | unary {scope : Scope} {mark next : Token} {tokens : List Token} {argument : Expression}
      {operator : UnaryOperator} :
      mark.kind.unaryOperator? = some operator → Reads scope (.fits .unary argument) tokens next →
      scope.AllowsOperand operator argument →
      Reads scope (.makes .unary (.unary operator argument (cover (mark :: tokens))))
        (mark :: tokens) next
  | single {scope : Scope} {tokens : List Token} {next : Token} {value : Expression}
      (tier : Nat) :
      Reads scope (.fits .unary value) tokens next →
      Reads scope (.fits (.operators tier) value) tokens next
  | binary {scope : Scope} {mark next : Token} {leftTokens rightTokens : List Token}
      {left right : Expression} {operator : BinaryOperator} {tier : Nat} :
      Reads scope (.fits (.operators operator.leftTier) left) leftTokens mark →
      mark.kind.binaryOperator? = some operator → scope.HasOperator operator →
      Reads scope (.fits (.operators operator.rightTier) right) rightTokens next →
      tier ≤ operator.precedence →
      Reads scope
        (.makes (.operators tier)
          (.binary operator left right (cover (leftTokens ++ mark :: rightTokens))))
        (leftTokens ++ mark :: rightTokens) next
  | operators {scope : Scope} {tokens : List Token} {next : Token} {value : Expression} :
      Reads scope (.fits (.operators 0) value) tokens next →
      Reads scope (.fits .assignment value) tokens next
  | assignment {scope : Scope} {mark next : Token} {targetTokens valueTokens : List Token}
      {target value : Expression} {operator : AssignmentOperator} :
      Reads scope (.fits (.operators 0) target) targetTokens mark →
      mark.kind.assignmentOperator? = some operator → scope.AllowsTarget target →
      Reads scope (.fits .assignment value) valueTokens next →
      Reads scope
        (.makes .assignment
          (.assignment operator target value (cover (targetTokens ++ mark :: valueTokens))))
        (targetTokens ++ mark :: valueTokens) next
  | conditional {scope : Scope} {question colon next : Token}
      {testTokens consequentTokens alternateTokens : List Token}
      {test consequent alternate : Expression} :
      Reads scope (.fits (.operators 0) test) testTokens question →
      question.kind = .symbol Punctuator.questionMark →
      Reads scope.withIn (.fits .assignment consequent) consequentTokens colon →
      colon.kind = .symbol Punctuator.colon →
      Reads scope (.fits .assignment alternate) alternateTokens next →
      Reads scope
        (.makes .assignment
          (.conditional test consequent alternate
            (cover
              (testTokens ++ question :: (consequentTokens ++ colon :: alternateTokens)))))
        (testTokens ++ question :: (consequentTokens ++ colon :: alternateTokens)) next
  | alone {scope : Scope} {tokens : List Token} {next : Token} {value : Expression} :
      Reads scope (.fits .assignment value) tokens next →
      Reads scope (.fits .expression value) tokens next
  | sequence {scope : Scope} {comma next : Token} {tokens others : List Token}
      {value : Expression} {values : List Expression} :
      Reads scope (.fits .assignment value) tokens comma →
      comma.kind = .symbol Punctuator.comma → Reads scope (.separated values) others next →
      Reads scope
        (.makes .expression (.sequence (value :: values) (cover (tokens ++ comma :: others))))
        (tokens ++ comma :: others) next
  | separatedOne {scope : Scope} {tokens : List Token} {next : Token} {value : Expression} :
      Reads scope (.fits .assignment value) tokens next → next.kind ≠ .symbol Punctuator.comma →
      Reads scope (.separated [value]) tokens next
  | separatedMore {scope : Scope} {comma next : Token} {tokens others : List Token}
      {value : Expression} {values : List Expression} :
      Reads scope (.fits .assignment value) tokens comma → comma.kind = .symbol Punctuator.comma →
      Reads scope (.separated values) others next →
      Reads scope (.separated (value :: values)) (tokens ++ comma :: others) next
  | elementsNone {scope : Scope} {next : Token} :
      next.kind = .symbol Punctuator.rightBracket → Reads scope (.elements []) [] next
  | elementsHole {scope : Scope} {comma next : Token} {tokens : List Token}
      {elements : List (Option Expression)} :
      comma.kind = .symbol Punctuator.comma → Reads scope (.elements elements) tokens next →
      Reads scope (.elements (none :: elements)) (comma :: tokens) next
  | elementsLast {scope : Scope} {tokens : List Token} {next : Token} {value : Expression} :
      Reads scope (.fits .assignment value) tokens next →
      next.kind = .symbol Punctuator.rightBracket → Reads scope (.elements [some value]) tokens next
  | elementsMore {scope : Scope} {comma next : Token} {tokens others : List Token}
      {value : Expression} {elements : List (Option Expression)} :
      Reads scope (.fits .assignment value) tokens comma → comma.kind = .symbol Punctuator.comma →
      Reads scope (.elements elements) others next →
      Reads scope (.elements (some value :: elements)) (tokens ++ comma :: others) next
  | value {scope : Scope} {token colon next : Token} {tokens : List Token} {key : PropertyKey}
      {value : Expression} :
      scope.HasKey token key → colon.kind = .symbol Punctuator.colon →
      Reads scope (.fits .assignment value) tokens next →
      Reads scope (.property ⟨key, value, .init, cover (token :: colon :: tokens)⟩)
        (token :: colon :: tokens) next
  | accessorFunction {scope : Scope} {tokens : List Token} {next : Token}
      {parameters : List Identifier} {body : Block} :
      Reads scope (.function parameters body) tokens next →
      Reads scope (.makes .accessor (.function none parameters body (cover tokens))) tokens next
  | accessor {scope : Scope} {word token next : Token} {tokens : List Token} {key : PropertyKey}
      {kind : PropertyKind} {parameters : List Identifier} {body : Block} {span : Span} :
      Grammar.accessorKind? word.lexeme = some kind → scope.HasKey token key →
      Reads scope (.makes .accessor (.function none parameters body span)) tokens next →
      parameters.length = (if kind = .get then 0 else 1) →
      Reads scope
        (.property
          ⟨key, .function none parameters body span, kind, cover (word :: token :: tokens)⟩)
        (word :: token :: tokens) next
  | propertiesNone {scope : Scope} {next : Token} :
      next.kind = .symbol Punctuator.rightBrace → Reads scope (.properties []) [] next
  | propertiesLast {scope : Scope} {tokens : List Token} {next : Token} {property : Property} :
      Reads scope (.property property) tokens next → next.kind = .symbol Punctuator.rightBrace →
      Reads scope (.properties [property]) tokens next
  | propertiesMore {scope : Scope} {comma next : Token} {tokens others : List Token}
      {property : Property} {properties : List Property} :
      Reads scope (.property property) tokens comma → comma.kind = .symbol Punctuator.comma →
      Reads scope (.properties properties) others next →
      Reads scope (.properties (property :: properties)) (tokens ++ comma :: others) next
  | function {scope : Scope} {next : Token} {parameterTokens tokens : List Token}
      {parameters : List Identifier} {body : Block} :
      scope.HasParameters parameters parameterTokens →
      Reads scope.inFunction (.functionBody body) tokens next →
      Reads scope (.function parameters body) (parameterTokens ++ tokens) next
  | functionBody {scope : Scope} {opening closing next : Token} {tokens : List Token}
      {statements : List Statement} :
      opening.kind = .symbol Punctuator.leftBrace →
      Reads scope (.body statements) tokens closing →
      closing.kind = .symbol Punctuator.rightBrace →
      Reads scope (.functionBody ⟨statements, cover (opening :: (tokens ++ [closing]))⟩)
        (opening :: (tokens ++ [closing])) next
  | directive {scope : Scope} {opening next : Token} {tokens : List Token}
      {value raw : String} {span : Span} :
      opening.kind = .stringLiteral → opening.Opens tokens next →
      Reads scope (.statement (.expression (.literal (.string value) raw opening.span) none span))
        tokens next →
      Reads scope
        (.directive (Grammar.insideQuotes opening.text)
          (.literal (.string value) raw opening.span) span)
        tokens next
  | directed {scope : Scope} {follower next : Token} {tokens others : List Token}
      {text : String} {value : Expression} {span : Span} {statements : List Statement} :
      Reads scope (.directive text value span) tokens follower → follower.Opens others next →
      Reads (scope.afterDirective text) (.body statements) others next →
      Reads scope (.body (.expression value (some text) span :: statements)) (tokens ++ others) next
  | undirected {scope : Scope} {opening next : Token} {tokens : List Token}
      {statements : List Statement} :
      opening.Opens tokens next →
      (opening.kind = .stringLiteral →
        ∀ first ∈ statements.head?, Grammar.directive? opening first = none) →
      Reads scope (.statements statements) tokens next → Reads scope (.body statements) tokens next
  | statementsNone {scope : Scope} {next : Token} :
      Grammar.endsStatements next.kind = true → Reads scope (.statements []) [] next
  | statementsMore {scope : Scope} {follower next : Token} {tokens others : List Token}
      {first : Statement} {statements : List Statement} :
      Reads scope (.item first) tokens follower → follower.Opens others next →
      Reads scope (.statements statements) others next →
      Reads scope (.statements (first :: statements)) (tokens ++ others) next
  | functionDeclaration {scope : Scope} {word token next : Token} {tokens : List Token}
      {name : Identifier} {parameters : List Identifier} {body : Block} :
      word.kind = .symbol Keyword.functionWord → scope.Binds token name →
      Reads scope (.function parameters body) tokens next →
      Reads scope (.item (.function name parameters body (cover (word :: token :: tokens))))
        (word :: token :: tokens) next
  | item {scope : Scope} {opening next : Token} {tokens : List Token} {inner : Statement} :
      opening.Opens tokens next → opening.kind ≠ .symbol Keyword.functionWord →
      Reads scope (.statement inner) tokens next → Reads scope (.item inner) tokens next
  | empty {scope : Scope} {mark next : Token} : mark.kind = .symbol Punctuator.semicolon →
      Reads scope (.statement (.empty mark.span)) [mark] next
  | blockStatement {scope : Scope} {tokens : List Token} {next : Token} {inner : Block} :
      Reads scope (.block inner) tokens next → Reads scope (.statement (.block inner)) tokens next
  | block {scope : Scope} {opening closing next : Token} {tokens : List Token}
      {statements : List Statement} :
      opening.kind = .symbol Punctuator.leftBrace →
      Reads scope (.statements statements) tokens closing →
      closing.kind = .symbol Punctuator.rightBrace →
      Reads scope (.block ⟨statements, cover (opening :: (tokens ++ [closing]))⟩)
        (opening :: (tokens ++ [closing])) next
  | expressionStatement {scope : Scope} {opening follower next : Token}
      {tokens ending : List Token} {value : Expression} :
      opening.Opens tokens follower → opening.kind ≠ .symbol Punctuator.leftBrace →
      Reads scope (.fits .expression value) tokens follower → follower.Terminates ending next →
      Reads scope (.statement (.expression value none (cover (tokens ++ ending))))
        (tokens ++ ending) next
  | variableStatement {scope : Scope} {follower next : Token} {tokens ending : List Token}
      {declaration : VariableDeclaration} :
      Reads scope (.declaration declaration) tokens follower → follower.Terminates ending next →
      Reads scope (.statement (.variables ⟨declaration.declarators, cover (tokens ++ ending)⟩))
        (tokens ++ ending) next
  | declaration {scope : Scope} {word next : Token} {tokens : List Token}
      {declarators : List VariableDeclarator} :
      word.kind = .symbol Keyword.varWord → Reads scope (.declarators declarators) tokens next →
      Reads scope (.declaration ⟨declarators, cover (word :: tokens)⟩) (word :: tokens) next
  | declaratorsOne {scope : Scope} {tokens : List Token} {next : Token}
      {declarator : VariableDeclarator} :
      Reads scope (.declarator declarator) tokens next → next.kind ≠ .symbol Punctuator.comma →
      Reads scope (.declarators [declarator]) tokens next
  | declaratorsMore {scope : Scope} {comma next : Token} {tokens others : List Token}
      {declarator : VariableDeclarator} {declarators : List VariableDeclarator} :
      Reads scope (.declarator declarator) tokens comma → comma.kind = .symbol Punctuator.comma →
      Reads scope (.declarators declarators) others next →
      Reads scope (.declarators (declarator :: declarators)) (tokens ++ comma :: others) next
  | declared {scope : Scope} {token next : Token} {name : Identifier} :
      scope.Binds token name → next.kind ≠ .symbol AssignmentOperator.assign →
      Reads scope (.declarator ⟨name, none, cover [token]⟩) [token] next
  | initialized {scope : Scope} {token mark next : Token} {tokens : List Token}
      {name : Identifier} {value : Expression} :
      scope.Binds token name → mark.kind = .symbol AssignmentOperator.assign →
      Reads scope (.fits .assignment value) tokens next →
      Reads scope (.declarator ⟨name, some value, cover (token :: mark :: tokens)⟩)
        (token :: mark :: tokens) next
  | condition {scope : Scope} {opening closing next : Token} {tokens : List Token}
      {test : Expression} :
      opening.kind = .symbol Punctuator.leftParen →
      Reads scope (.fits .expression test) tokens closing →
      closing.kind = .symbol Punctuator.rightParen →
      Reads scope (.condition test) (opening :: (tokens ++ [closing])) next
  | ifWithout {scope : Scope} {word follower next : Token} {testTokens tokens : List Token}
      {test : Expression} {consequent : Statement} :
      word.kind = .symbol Keyword.ifWord → Reads scope (.condition test) testTokens follower →
      follower.Opens tokens next → Reads scope (.statement consequent) tokens next →
      next.kind ≠ .symbol Keyword.elseWord →
      Reads scope
        (.statement (.ifElse test consequent none (cover (word :: (testTokens ++ tokens)))))
        (word :: (testTokens ++ tokens)) next
  | ifWith {scope : Scope} {word follower elseWord next : Token}
      {testTokens tokens others : List Token} {test : Expression}
      {consequent alternate : Statement} :
      word.kind = .symbol Keyword.ifWord → Reads scope (.condition test) testTokens follower →
      follower.Opens tokens elseWord → Reads scope (.statement consequent) tokens elseWord →
      elseWord.kind = .symbol Keyword.elseWord → Reads scope (.statement alternate) others next →
      Reads scope
        (.statement
          (.ifElse test consequent (some alternate)
            (cover (word :: (testTokens ++ (tokens ++ elseWord :: others))))))
        (word :: (testTokens ++ (tokens ++ elseWord :: others))) next
  | whileLoop {scope : Scope} {word follower next : Token} {testTokens tokens : List Token}
      {test : Expression} {body : Statement} :
      word.kind = .symbol Keyword.whileWord → Reads scope (.condition test) testTokens follower →
      follower.Opens tokens next → Reads scope.inLoop (.statement body) tokens next →
      Reads scope (.statement (.whileLoop test body (cover (word :: (testTokens ++ tokens)))))
        (word :: (testTokens ++ tokens)) next
  | doWhileLoop {scope : Scope} {word whileWord follower next : Token}
      {tokens testTokens ending : List Token} {test : Expression} {body : Statement} :
      word.kind = .symbol Keyword.doWord → Reads scope.inLoop (.statement body) tokens whileWord →
      whileWord.kind = .symbol Keyword.whileWord →
      Reads scope (.condition test) testTokens follower → follower.MayTerminate ending next →
      Reads scope
        (.statement
          (.doWhileLoop body test
            (cover (word :: (tokens ++ whileWord :: (testTokens ++ ending))))))
        (word :: (tokens ++ whileWord :: (testTokens ++ ending))) next
  | headDeclaration {scope : Scope} {tokens : List Token} {next : Token}
      {declaration : VariableDeclaration} :
      Reads scope (.declaration declaration) tokens next →
      Reads scope (.head (.declaration declaration)) tokens next
  | headExpression {scope : Scope} {tokens : List Token} {next : Token} {value : Expression} :
      Reads scope (.fits .expression value) tokens next →
      Reads scope (.head (.expression value)) tokens next
  | initNone {scope : Scope} {next : Token} : Reads scope (.init none) [] next
  | initSome {scope : Scope} {tokens : List Token} {next : Token} {head : ForHead} :
      Reads scope.withoutIn (.head head) tokens next → Reads scope (.init (some head)) tokens next
  | optionalNone {scope : Scope} {next : Token} : Reads scope (.optional none) [] next
  | optionalSome {scope : Scope} {tokens : List Token} {next : Token} {value : Expression} :
      Reads scope (.fits .expression value) tokens next →
      Reads scope (.optional (some value)) tokens next
  | forLoop {scope : Scope} {word opening first second closing next : Token}
      {initTokens testTokens updateTokens tokens : List Token} {init : Option ForHead}
      {test update : Option Expression} {body : Statement} :
      word.kind = .symbol Keyword.forWord → opening.kind = .symbol Punctuator.leftParen →
      Reads scope (.init init) initTokens first → first.kind = .symbol Punctuator.semicolon →
      Reads scope (.optional test) testTokens second →
      second.kind = .symbol Punctuator.semicolon →
      Reads scope (.optional update) updateTokens closing →
      closing.kind = .symbol Punctuator.rightParen →
      Reads scope.inLoop (.statement body) tokens next →
      Reads scope
        (.statement
          (.forLoop init test update body
            (cover
              (word :: opening :: (initTokens ++ first :: (testTokens ++ second ::
                (updateTokens ++ closing :: tokens)))))))
        (word :: opening :: (initTokens ++ first :: (testTokens ++ second ::
          (updateTokens ++ closing :: tokens)))) next
  | forInLoop {scope : Scope} {word opening inWord closing next : Token}
      {headTokens rightTokens tokens : List Token} {head : ForHead} {right : Expression}
      {body : Statement} :
      word.kind = .symbol Keyword.forWord → opening.kind = .symbol Punctuator.leftParen →
      Reads scope.withoutIn (.head head) headTokens inWord →
      inWord.kind = .symbol BinaryOperator.isIn → scope.AllowsForIn head →
      Reads scope (.fits .expression right) rightTokens closing →
      closing.kind = .symbol Punctuator.rightParen →
      Reads scope.inLoop (.statement body) tokens next →
      Reads scope
        (.statement
          (.forInLoop head right body
            (cover
              (word :: opening :: (headTokens ++ inWord :: (rightTokens ++ closing :: tokens))))))
        (word :: opening :: (headTokens ++ inWord :: (rightTokens ++ closing :: tokens))) next
  | continueTo {scope : Scope} {word follower next : Token} {labelTokens ending : List Token}
      {label : Option Identifier} :
      word.kind = .symbol Keyword.continueWord → scope.context.inLoop = true →
      scope.HasJumpLabel label labelTokens follower → follower.Terminates ending next →
      Reads scope (.statement (.continueTo label (cover (word :: (labelTokens ++ ending)))))
        (word :: (labelTokens ++ ending)) next
  | breakTo {scope : Scope} {word follower next : Token} {labelTokens ending : List Token}
      {label : Option Identifier} :
      word.kind = .symbol Keyword.breakWord →
      scope.context.inLoop = true ∨ scope.context.inSwitch = true →
      scope.HasJumpLabel label labelTokens follower → follower.Terminates ending next →
      Reads scope (.statement (.breakTo label (cover (word :: (labelTokens ++ ending)))))
        (word :: (labelTokens ++ ending)) next
  | returnNothing {scope : Scope} {word follower next : Token} {ending : List Token} :
      word.kind = .symbol Keyword.returnWord →
      scope.context.inFunction = true ∨ scope.options.allowReturnOutsideFunction = true →
      Grammar.endsReturn follower = true → follower.Terminates ending next →
      Reads scope (.statement (.returnValue none (cover (word :: ending)))) (word :: ending) next
  | returnValue {scope : Scope} {word opening follower next : Token} {tokens ending : List Token}
      {value : Expression} :
      word.kind = .symbol Keyword.returnWord →
      scope.context.inFunction = true ∨ scope.options.allowReturnOutsideFunction = true →
      opening.Opens tokens follower → Grammar.endsReturn opening = false →
      Reads scope (.fits .expression value) tokens follower → follower.Terminates ending next →
      Reads scope (.statement (.returnValue (some value) (cover (word :: (tokens ++ ending)))))
        (word :: (tokens ++ ending)) next
  | withObject {scope : Scope} {word follower next : Token} {objectTokens tokens : List Token}
      {object : Expression} {body : Statement} :
      word.kind = .symbol Keyword.withWord → scope.context.strict = false →
      Reads scope (.condition object) objectTokens follower → follower.Opens tokens next →
      Reads scope (.statement body) tokens next →
      Reads scope (.statement (.withObject object body (cover (word :: (objectTokens ++ tokens)))))
        (word :: (objectTokens ++ tokens)) next
  | switch {scope : Scope} {word opening closing next : Token} {testTokens tokens : List Token}
      {discriminant : Expression} {clauses : List SwitchCase} :
      word.kind = .symbol Keyword.switchWord →
      Reads scope (.condition discriminant) testTokens opening →
      opening.kind = .symbol Punctuator.leftBrace →
      Reads scope.inSwitch (.clauses false clauses) tokens closing →
      closing.kind = .symbol Punctuator.rightBrace →
      Reads scope
        (.statement
          (.switch discriminant clauses
            (cover (word :: (testTokens ++ opening :: (tokens ++ [closing]))))))
        (word :: (testTokens ++ opening :: (tokens ++ [closing]))) next
  | clausesNone {scope : Scope} {next : Token} {seenDefault : Bool} :
      next.kind = .symbol Punctuator.rightBrace → Reads scope (.clauses seenDefault []) [] next
  | clausesMore {scope : Scope} {follower next : Token} {tokens others : List Token}
      {clause : SwitchCase} {clauses : List SwitchCase} {seenDefault : Bool} :
      Reads scope (.clause clause) tokens follower →
      (clause.test = none → seenDefault = false) → follower.Opens others next →
      Reads scope (.clauses (seenDefault || clause.test.isNone) clauses) others next →
      Reads scope (.clauses seenDefault (clause :: clauses)) (tokens ++ others) next
  | caseClause {scope : Scope} {word colon next : Token} {testTokens tokens : List Token}
      {test : Expression} {statements : List Statement} :
      word.kind = .symbol Keyword.caseWord → Reads scope (.fits .expression test) testTokens colon →
      colon.kind = .symbol Punctuator.colon → Reads scope (.statements statements) tokens next →
      Reads scope
        (.clause ⟨some test, statements, cover (word :: (testTokens ++ colon :: tokens))⟩)
        (word :: (testTokens ++ colon :: tokens)) next
  | defaultClause {scope : Scope} {word colon next : Token} {tokens : List Token}
      {statements : List Statement} :
      word.kind = .symbol Keyword.defaultWord → colon.kind = .symbol Punctuator.colon →
      Reads scope (.statements statements) tokens next →
      Reads scope (.clause ⟨none, statements, cover (word :: colon :: tokens)⟩)
        (word :: colon :: tokens) next
  | throwValue {scope : Scope} {word opening follower next : Token} {tokens ending : List Token}
      {value : Expression} :
      word.kind = .symbol Keyword.throwWord → opening.Opens tokens follower →
      opening.flags.lineBreak = false → Reads scope (.fits .expression value) tokens follower →
      follower.Terminates ending next →
      Reads scope (.statement (.throwValue value (cover (word :: (tokens ++ ending)))))
        (word :: (tokens ++ ending)) next
  | tryBlock {scope : Scope} {word first second next : Token}
      {tokens handlerTokens finalizerTokens : List Token} {inner : Block}
      {handler : Option CatchClause} {finalizer : Option Block} :
      word.kind = .symbol Keyword.tryWord → Reads scope (.block inner) tokens first →
      first.Opens handlerTokens second → Reads scope (.handler handler) handlerTokens second →
      second.Opens finalizerTokens next → Reads scope (.finalizer finalizer) finalizerTokens next →
      handler.isSome = true ∨ finalizer.isSome = true →
      Reads scope
        (.statement
          (.tryBlock inner handler finalizer
            (cover (word :: (tokens ++ (handlerTokens ++ finalizerTokens))))))
        (word :: (tokens ++ (handlerTokens ++ finalizerTokens))) next
  | handlerNone {scope : Scope} {next : Token} : next.kind ≠ .symbol Keyword.catchWord →
      Reads scope (.handler none) [] next
  | handlerSome {scope : Scope} {word opening token closing next : Token} {tokens : List Token}
      {parameter : Identifier} {body : Block} :
      word.kind = .symbol Keyword.catchWord → opening.kind = .symbol Punctuator.leftParen →
      scope.Binds token parameter → closing.kind = .symbol Punctuator.rightParen →
      Reads scope (.block body) tokens next →
      Reads scope
        (.handler
          (some ⟨parameter, body, cover (word :: opening :: token :: closing :: tokens)⟩))
        (word :: opening :: token :: closing :: tokens) next
  | finalizerNone {scope : Scope} {next : Token} : next.kind ≠ .symbol Keyword.finallyWord →
      Reads scope (.finalizer none) [] next
  | finalizerSome {scope : Scope} {word next : Token} {tokens : List Token} {body : Block} :
      word.kind = .symbol Keyword.finallyWord → Reads scope (.block body) tokens next →
      Reads scope (.finalizer (some body)) (word :: tokens) next
  | debugger {scope : Scope} {word follower next : Token} {ending : List Token} :
      word.kind = .symbol Keyword.debuggerWord → follower.Terminates ending next →
      Reads scope (.statement (.debugger (cover (word :: ending)))) (word :: ending) next
  | labelled {scope : Scope} {token colon next : Token} {tokens : List Token} {label : Identifier}
      {body : Statement} :
      scope.Refers token label → colon.kind = .symbol Punctuator.colon →
      scope.labels.contains label.name = false →
      Reads (scope.withLabel label.name) (.statement body) tokens next →
      Reads scope (.statement (.labelled label body (cover (token :: colon :: tokens))))
        (token :: colon :: tokens) next

/-- Phrases that cannot be read from no token at all. -/
def Phrase.isSolid : Phrase → Bool
  | .elements _ | .properties _ | .body _ | .statements _ | .init _ | .optional _ | .clauses ..
  | .handler _ | .finalizer _ => false
  | _ => true

theorem Reads.ne_nil {scope : Scope} {phrase : Phrase} {tokens : List Token} {next : Token}
    (reads : Reads scope phrase tokens next) (solid : phrase.isSolid = true) : tokens ≠ [] := by
  induction reads <;> simp_all [Phrase.isSolid]

/-- An expression is read by a rule of its own, or stands in parentheses. -/
theorem Reads.cases_fits {scope : Scope} {level : Level} {value : Expression} {tokens : List Token}
    {next : Token} (reads : Reads scope (.fits level value) tokens next) :
    (∃ inner, Reads scope (.makes inner value) tokens next) ∨
      ∃ opening inside closing, tokens = opening :: (inside ++ [closing]) ∧
        opening.kind = .symbol Punctuator.leftParen ∧
        closing.kind = .symbol Punctuator.rightParen ∧
        Reads scope.withIn (.fits .expression value) inside closing := by
  generalize same : Phrase.fits level value = phrase at reads
  induction reads generalizing level with
  | made reads =>
    cases same
    exact .inl ⟨_, reads⟩
  | parenthesized opening reads closing =>
    cases same
    exact .inr ⟨_, _, _, rfl, opening, closing, reads⟩
  | head _ _ ih | operand _ ih | single _ _ ih | operators _ ih | alone _ ih =>
    cases same
    exact ih rfl
  | _ => cases same

end EcmaScript
