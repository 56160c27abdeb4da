import EcmaScript.Grammar.Context
import EcmaScript.Lexical.Scan
import EcmaScript.Options
import EcmaScript.Tree.Basic

/-!
# The state of a parse

A parse has one token of lookahead, taken from the cursor; the cursor stands behind it. The state
also holds where the last consumed token ended, what encloses the construct at hand, and the events
so far. A fault ends a parse and leaves its state as it was at that moment, so that another parse
may go on from there; what a construct changes of the context and the labels is put back when the
construct ends, by a fault too.
-/

namespace EcmaScript

/-- What can be observed of a parse while it runs. -/
inductive Event where
  /-- A parse begins, of a text with some number of characters. -/
  | began (length : Nat)
  | scanned (token : Token)
  /-- A slash has been read again as a regular expression. -/
  | reread (token : Token)
  /-- A directive has made the code strict. -/
  | strictDirective
  /-- A parse is complete, with some number of statements. -/
  | ended (statements : Nat)
  deriving DecidableEq, Repr

/-- The report of an event. -/
def Event.message : Event → String
  | .began length => s!"parsing {length} chars"
  | .scanned token =>
    token.kind.name ++ s!" at ({token.span.start.line}, {token.span.start.column})"
  | .reread token => "re-lexed regex " ++ token.text
  | .strictDirective => "strict mode enabled by directive"
  | .ended statements => s!"parsed {statements} top-level statements"

/-- The state of a parse. -/
structure State where
  cursor : Cursor
  /-- The token of lookahead. -/
  lookahead : Token := .unread
  /-- The end of the token that was consumed last. -/
  consumedEnd : Position := .first
  context : Context := {}
  labels : Labels := {}
  options : Options := {}
  /-- The events so far, the latest first. -/
  events : List Event := []
  deriving DecidableEq, Repr

/-- The state before the first parse of a text. -/
def State.ofSource (source : String) (options : Options) : State where
  cursor := .atStart source
  context := { strict := options.strict }
  options := options

/-- An action of a parse. -/
abbrev Parse := EStateM Fault State

namespace Parse

variable {α β : Type}

/-- Ends the parse with a fault. -/
def fail (cause : Cause) (position : Position) : Parse α :=
  throw ⟨cause, position⟩

/-- Records an event. -/
def record (event : Event) : Parse Unit :=
  modify fun state => { state with events := event :: state.events }

/-- Moves the cursor. -/
def scan (action : Scan Token) : Parse Token := fun state =>
  match action state.cursor with
  | .ok token cursor => .ok token { state with cursor }
  | .error fault cursor => .error fault { state with cursor }

/-- Takes the next token from the cursor. -/
def fetch : Parse Token := do
  let token ← scan Scan.token
  record (.scanned token)
  return token

/-- The token of lookahead. -/
def lookahead : Parse Token :=
  return (← get).lookahead

/-- The kind of the token of lookahead. -/
def kind : Parse Kind :=
  return (← lookahead).kind

/-- The start of the token of lookahead, where the node at hand begins. -/
def nodeStart : Parse Position :=
  return (← lookahead).span.start

/-- The token of lookahead does not fit the grammar. -/
def unexpected : Parse α := do
  let token ← lookahead
  fail token.unexpected token.span.start

/-- Consumes the token of lookahead: the next one takes its place. -/
def consume : Parse Unit := do
  let next ← fetch
  modify fun state =>
    { state with lookahead := next, consumedEnd := state.lookahead.span.stop }

/-- Reads the slash that is the token of lookahead again as a regular expression, whose pattern has
some characters in the slash. -/
def reread (front : List Char) : Parse Unit := do
  let token ← scan (Scan.regularExpression (← lookahead) front)
  record (.reread token)
  modify fun state => { state with lookahead := token }

/-- The token of lookahead is of a kind. -/
def sees (expected : Kind) : Parse Bool :=
  return (← kind) == expected

/-- Consumes the token of lookahead if it is of a kind. -/
def consumeIf (expected : Kind) : Parse Bool := do
  if ← sees expected then
    consume
    return true
  else return false

/-- Consumes the token of lookahead, which must be of a kind. -/
def require (expected : Kind) : Parse Unit := do
  if ← sees expected then consume else unexpected

/-- Ends a statement: with a semicolon, or with nothing in front of a closing brace, of the end of
the text, and of a token on a later line. -/
def semicolon : Parse Unit := do
  unless ← consumeIf Punctuator.semicolon do
    let token ← lookahead
    unless token.flags.lineBreak || token.kind == .symbol Punctuator.rightBrace ||
        token.kind == .endOfFile do
      unexpected

/-- The span from a position to the end of the last consumed token. -/
def spanFrom (start : Position) : Parse Span :=
  return ⟨start, (← get).consumedEnd⟩

/-- The code at hand is strict. -/
def isStrict : Parse Bool :=
  return (← get).context.strict

/-- Makes the code at hand strict, if it was not. -/
def enableStrict : Parse Unit := do
  unless ← isStrict do
    record .strictDirective
    modify fun state => { state with context := { state.context with strict := true } }

/-- Runs an action in other surroundings. Whether it succeeds or fails, they are left afterwards with
the state before them in view. -/
def within (enter : State → State) (leave : State → State → State) (action : Parse α) : Parse α :=
  fun state =>
    match action (enter state) with
    | .ok value after => .ok value (leave state after)
    | .error fault after => .error fault (leave state after)

/-- Runs an action in a changed context, and puts the old one back. -/
def inContext (change : Context → Context) (action : Parse α) : Parse α :=
  within (fun state => { state with context := change state.context })
    (fun before after => { after with context := before.context }) action

/-- Runs an action where `in` is an operator. -/
def withIn (action : Parse α) : Parse α :=
  inContext (fun context => { context with withoutIn := false }) action

/-- Runs an action where `in` is not an operator. -/
def withoutIn (action : Parse α) : Parse α :=
  inContext (fun context => { context with withoutIn := true }) action

/-- Runs an action in the body of a loop. -/
def inLoop (action : Parse α) : Parse α :=
  inContext (fun context => { context with inLoop := true }) action

/-- Runs an action in the clauses of a `switch` statement. -/
def inSwitch (action : Parse α) : Parse α :=
  inContext (fun context => { context with inSwitch := true }) action

/-- Runs an action in the body of a function, which has its own labels, and puts context and labels
back. -/
def inFunction (action : Parse α) : Parse α :=
  within (fun state => { state with context := state.context.forFunctionBody, labels := {} })
    (fun before after => { after with context := before.context, labels := before.labels }) action

/-- Runs an action inside a statement with a label, and takes the innermost label away again. -/
def withLabel (label : String) (action : Parse α) : Parse α :=
  within (fun state => { state with labels := state.labels.push label })
    (fun _ after => { after with labels := after.labels.pop }) action

/-- The construct at hand is deeper, or longer, than there are tokens for. -/
def exhausted : Parse α := do
  fail .exhausted (← nodeStart)

/-- Items up to a token that ends them. The number bounds how many there can be. -/
def itemsUntil (ends : Kind → Bool) (item : Parse α) : Nat → Parse (List α)
  | 0 => exhausted
  | turns + 1 => do
    if ends (← kind) then return []
    let first ← item
    let others ← itemsUntil ends item turns
    return first :: others

/-- One item or more, with commas between them. -/
def separated (item : Parse α) : Nat → Parse (List α)
  | 0 => exhausted
  | turns + 1 => do
    let first ← item
    if ← consumeIf Punctuator.comma then
      let others ← separated item turns
      return first :: others
    else return [first]

/-- An identifier where an expression may stand. Words that strict code reserves are refused there.
-/
def identifierReference : Parse Identifier := do
  let token ← lookahead
  match token.lexeme with
  | .identifier name =>
    consume
    if (← isStrict) && isStrictReservedWord name then
      fail .strictReservedWord token.span.start
    return ⟨name, token.span⟩
  | _ => unexpected

/-- The two names that strict code can neither bind nor assign. -/
def isEvalOrArguments (name : String) : Bool :=
  name == "eval" || name == "arguments"

/-- An identifier that is bound: a variable, a parameter, or the name of a function. -/
def bindingIdentifier : Parse Identifier := do
  let identifier ← identifierReference
  if (← isStrict) && isEvalOrArguments identifier.name then
    fail .strictEvalOrArguments identifier.span.start
  return identifier

/-- An identifier or a reserved word, as the name of a property. -/
def identifierName : Parse Identifier := do
  let token ← lookahead
  if token.kind.isIdentifierName then
    consume
    return ⟨token.name?.getD "", token.span⟩
  else unexpected

end Parse

end EcmaScript
