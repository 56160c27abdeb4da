import EcmaScript.Proofs.Surroundings

/-!
# Reading the nodes of a tree

A node that was read from some tokens has children that were read from pieces of these tokens, one
piece after the other, each in the scope that the step down to it leads to. `Node.IsRead` says how a
node of any sort is read, `Node.IsRead.children` takes one step down, and `Node.IsRead.occurs` goes
all the way to any node in the tree.
-/

namespace EcmaScript

/-- A node is read from some tokens, with one more token after them. -/
def Node.IsRead (scope : Scope) (tokens : List Token) (next : Token) : Node → Prop
  | .expression item => ∃ level, Reads scope (.makes level item) tokens next
  | .name item => ∃ token, tokens = [token] ∧ token.kind.isIdentifierName = true ∧
      item = ⟨token.name?.getD "", token.span⟩
  | .key item => ∃ token, tokens = [token] ∧ scope.HasKey token item
  | .property item => Reads scope (.property item) tokens next
  | .binding item => ∃ token, tokens = [token] ∧ scope.Binds token item
  | .label item => ∃ token, tokens = [token] ∧ scope.Refers token item
  | .block item =>
    Reads scope (.block item) tokens next ∨ Reads scope (.functionBody item) tokens next
  | .declarator item => Reads scope (.declarator item) tokens next
  | .declaration item => Reads scope (.declaration item) tokens next
  | .clause item => Reads scope (.clause item) tokens next
  | .handler item => Reads scope (.handler (some item)) tokens next
  | .statement item =>
    Reads scope (.statement item) tokens next ∨ Reads scope (.item item) tokens next ∨
      ∃ text value span, item = .expression value (some text) span ∧
        Reads scope (.directive text value span) tokens next

/-- Nodes are read from pieces of some tokens, each piece after the one before it, and each node in
a scope that agrees with the one that is given for it. -/
inductive ReadsNodes (scopes : Node → Scope) : List Node → List Token → Prop where
  | nil {tokens : List Token} : ReadsNodes scopes [] tokens
  | cons {scope : Scope} {node : Node} {nodes : List Node} {piece rest : List Token} {next : Token}
      (gap : List Token) :
      (scopes node).Agrees scope → node.IsRead scope piece next → ReadsNodes scopes nodes rest →
      ReadsNodes scopes (node :: nodes) (gap ++ (piece ++ rest))

namespace ReadsNodes

variable {scopes : Node → Scope} {scope : Scope} {node : Node} {nodes others : List Node}
  {tokens more : List Token} {next : Token}

theorem single (agrees : (scopes node).Agrees scope) (read : node.IsRead scope tokens next) :
    ReadsNodes scopes [node] tokens := by
  have whole : ReadsNodes scopes [node] ([] ++ (tokens ++ [])) := .cons [] agrees read .nil
  simpa using whole

/-- Tokens in front of some nodes. -/
theorem before (gap : List Token) (reads : ReadsNodes scopes nodes tokens) :
    ReadsNodes scopes nodes (gap ++ tokens) := by
  cases reads with
  | nil => exact .nil
  | cons inner agrees read rest =>
    rw [← List.append_assoc]
    exact .cons (gap ++ inner) agrees read rest

theorem append (left : ReadsNodes scopes nodes tokens) (right : ReadsNodes scopes others more) :
    ReadsNodes scopes (nodes ++ others) (tokens ++ more) := by
  induction left with
  | nil => exact right.before _
  | cons gap agrees read _ ih =>
    rw [List.append_assoc, List.append_assoc]
    exact .cons gap agrees read ih

/-- Tokens behind some nodes. -/
theorem after (more : List Token) (reads : ReadsNodes scopes nodes tokens) :
    ReadsNodes scopes nodes (tokens ++ more) := by
  have whole : ReadsNodes scopes (nodes ++ []) (tokens ++ more) := reads.append .nil
  rw [List.append_nil] at whole
  exact whole

theorem binding {token : Token} {name : Identifier} (agrees : (scopes (.binding name)).Agrees scope)
    (binds : scope.Binds token name) : ReadsNodes scopes [.binding name] [token] := by
  have read : (Node.binding name).IsRead scope [token] token := ⟨token, rfl, binds⟩
  exact .single agrees read

theorem label {token : Token} {name : Identifier} (agrees : (scopes (.label name)).Agrees scope)
    (refers : scope.Refers token name) : ReadsNodes scopes [.label name] [token] := by
  have read : (Node.label name).IsRead scope [token] token := ⟨token, rfl, refers⟩
  exact .single agrees read

theorem key {token : Token} {name : PropertyKey} (agrees : (scopes (.key name)).Agrees scope)
    (hasKey : scope.HasKey token name) : ReadsNodes scopes [.key name] [token] := by
  have read : (Node.key name).IsRead scope [token] token := ⟨token, rfl, hasKey⟩
  exact .single agrees read

theorem enclosed (opening closing : Token) (reads : ReadsNodes scopes nodes tokens) :
    ReadsNodes scopes nodes (opening :: (tokens ++ [closing])) :=
  (reads.after [closing]).before [opening]

/-- Each of the nodes is read from a piece of the tokens. -/
theorem exists_of_mem (reads : ReadsNodes scopes nodes tokens) (member : node ∈ nodes) :
    ∃ scope piece next, (scopes node).Agrees scope ∧ node.IsRead scope piece next ∧
      piece <:+: tokens := by
  induction reads with
  | nil => contradiction
  | @cons scope first nodes piece rest next gap agrees read _ ih =>
    rcases List.mem_cons.mp member with rfl | later
    · exact ⟨scope, piece, next, agrees, read, gap, rest, by simp⟩
    · obtain ⟨scope, inner, next, agrees, read, front, back, rfl⟩ := ih later
      exact ⟨scope, inner, next, agrees, read, gap ++ piece ++ front, back, by simp⟩

end ReadsNodes

section Phrases

variable {scope : Scope} {scopes : Node → Scope} {tokens : List Token} {next : Token}

theorem Reads.nodes_makes {level : Level} {value : Expression}
    (reads : Reads scope (.makes level value) tokens next)
    (agrees : (scopes (.expression value)).Agrees scope) :
    ReadsNodes scopes [.expression value] tokens :=
  .single agrees ⟨level, reads⟩

/-- An expression that stands where some level is expected may have parentheses around it. -/
theorem Reads.nodes_fits {level : Level} {value : Expression}
    (reads : Reads scope (.fits level value) tokens next)
    (agrees : (scopes (.expression value)).Agrees scope) :
    ReadsNodes scopes [.expression value] tokens := by
  generalize same : Phrase.fits level value = phrase at reads
  induction reads generalizing level with
  | made made =>
    cases same
    exact made.nodes_makes agrees
  | parenthesized opening _ closing ih =>
    cases same
    exact (ih (agrees.trans (.withIn _)) rfl).enclosed _ _
  | head | operand | single | operators | alone =>
    rename_i ih
    cases same
    exact ih agrees rfl
  | _ => cases same

theorem Reads.nodes_separated {values : List Expression}
    (reads : Reads scope (.separated values) tokens next)
    (agrees : ∀ value, (scopes (.expression value)).Agrees scope) :
    ReadsNodes scopes (values.map .expression) tokens := by
  generalize same : Phrase.separated values = phrase at reads
  induction reads generalizing values with
  | separatedOne value =>
    cases same
    exact value.nodes_fits (agrees _)
  | separatedMore value _ _ _ ih =>
    cases same
    exact (value.nodes_fits (agrees _)).append ((ih agrees rfl).before [_])
  | _ => cases same

theorem Reads.nodes_arguments {values : List Expression}
    (reads : Reads scope (.arguments values) tokens next)
    (agrees : ∀ value, (scopes (.expression value)).Agrees scope) :
    ReadsNodes scopes (values.map .expression) tokens := by
  cases reads with
  | noArguments => exact .nil
  | arguments _ values =>
    exact (values.nodes_separated fun value => (agrees value).trans (.withIn scope)).enclosed _ _

theorem Reads.nodes_elements {elements : List (Option Expression)}
    (reads : Reads scope (.elements elements) tokens next)
    (agrees : ∀ value, (scopes (.expression value)).Agrees scope) :
    ReadsNodes scopes ((elements.filterMap id).map .expression) tokens := by
  generalize same : Phrase.elements elements = phrase at reads
  induction reads generalizing elements with
  | elementsNone =>
    cases same
    exact .nil
  | elementsHole _ _ ih =>
    cases same
    exact (ih agrees rfl).before [_]
  | elementsLast value =>
    cases same
    exact value.nodes_fits (agrees _)
  | elementsMore value _ _ _ ih =>
    cases same
    exact (value.nodes_fits (agrees _)).append ((ih agrees rfl).before [_])
  | _ => cases same

theorem Reads.nodes_properties {properties : List Property}
    (reads : Reads scope (.properties properties) tokens next)
    (agrees : ∀ value, (scopes (.property value)).Agrees scope) :
    ReadsNodes scopes (properties.map .property) tokens := by
  generalize same : Phrase.properties properties = phrase at reads
  induction reads generalizing properties with
  | propertiesNone =>
    cases same
    exact .nil
  | propertiesLast value =>
    cases same
    exact .single (agrees _) value
  | propertiesMore value _ _ _ ih =>
    cases same
    exact (ReadsNodes.single (agrees _) value).append ((ih agrees rfl).before [_])
  | _ => cases same

theorem Scope.HasBindings.nodes {names : List Identifier}
    (bindings : scope.HasBindings names tokens)
    (agrees : ∀ name, (scopes (.binding name)).Agrees scope) :
    ReadsNodes scopes (names.map .binding) tokens := by
  induction bindings with
  | one binds => exact .binding (agrees _) binds
  | more binds _ _ ih => exact (ReadsNodes.binding (agrees _) binds).append (ih.before [_])

theorem Scope.HasParameters.nodes {names : List Identifier}
    (hasParameters : scope.HasParameters names tokens)
    (agrees : ∀ name, (scopes (.binding name)).Agrees scope) :
    ReadsNodes scopes (names.map .binding) tokens := by
  cases hasParameters with
  | none => exact .nil
  | some _ bindings => exact (bindings.nodes agrees).enclosed _ _

theorem Scope.HasFunctionName.nodes {name : Option Identifier}
    (hasName : scope.HasFunctionName name tokens)
    (agrees : ∀ name, (scopes (.binding name)).Agrees scope) :
    ReadsNodes scopes (name.toList.map .binding) tokens := by
  cases hasName with
  | none => exact .nil
  | some binds => exact .binding (agrees _) binds

theorem Scope.HasJumpLabel.nodes {label : Option Identifier}
    (hasLabel : scope.HasJumpLabel label tokens next)
    (agrees : ∀ label, (scopes (.label label)).Agrees scope) :
    ReadsNodes scopes (label.toList.map .label) tokens := by
  cases hasLabel with
  | none => exact .nil
  | some refers => exact .label (agrees _) refers

theorem Reads.nodes_function {parameters : List Identifier} {body : Block}
    (reads : Reads scope (.function parameters body) tokens next)
    (agrees : ∀ name, (scopes (.binding name)).Agrees scope)
    (agreesBody : (scopes (.block body)).Agrees scope.inFunction) :
    ReadsNodes scopes (parameters.map .binding ++ [.block body]) tokens := by
  cases reads with
  | function hasParameters body =>
    exact (hasParameters.nodes agrees).append (.single agreesBody (.inr body))

theorem Reads.nodes_statements {statements : List Statement}
    (reads : Reads scope (.statements statements) tokens next)
    (agrees : ∀ item, (scopes (.statement item)).Agrees scope) :
    ReadsNodes scopes (statements.map .statement) tokens := by
  generalize same : Phrase.statements statements = phrase at reads
  induction reads generalizing statements with
  | statementsNone =>
    cases same
    exact .nil
  | statementsMore item _ _ _ ih =>
    cases same
    exact (ReadsNodes.single (agrees _) (.inr (.inl item))).append (ih agrees rfl)
  | _ => cases same

theorem Reads.nodes_statement {item : Statement} (reads : Reads scope (.statement item) tokens next)
    (agrees : (scopes (.statement item)).Agrees scope) :
    ReadsNodes scopes [.statement item] tokens :=
  .single agrees (.inl reads)

theorem Reads.nodes_body {statements : List Statement}
    (reads : Reads scope (.body statements) tokens next)
    (agrees : ∀ item, (scopes (.statement item)).Agrees scope) :
    ReadsNodes scopes (statements.map .statement) tokens := by
  generalize same : Phrase.body statements = phrase at reads
  induction reads generalizing statements with
  | directed directive _ _ _ ih =>
    cases same
    have first := ReadsNodes.single (agrees _) (.inr (.inr ⟨_, _, _, rfl, directive⟩))
    exact first.append (ih (fun item => (agrees item).trans (.afterDirective _ _)) rfl)
  | undirected _ _ statements =>
    cases same
    exact statements.nodes_statements agrees
  | _ => cases same

theorem Reads.nodes_declarators {declarators : List VariableDeclarator}
    (reads : Reads scope (.declarators declarators) tokens next)
    (agrees : ∀ item, (scopes (.declarator item)).Agrees scope) :
    ReadsNodes scopes (declarators.map .declarator) tokens := by
  generalize same : Phrase.declarators declarators = phrase at reads
  induction reads generalizing declarators with
  | declaratorsOne item =>
    cases same
    exact .single (agrees _) item
  | declaratorsMore item _ _ _ ih =>
    cases same
    exact (ReadsNodes.single (agrees _) item).append ((ih agrees rfl).before [_])
  | _ => cases same

theorem Reads.nodes_clauses {seenDefault : Bool} {clauses : List SwitchCase}
    (reads : Reads scope (.clauses seenDefault clauses) tokens next)
    (agrees : ∀ item, (scopes (.clause item)).Agrees scope) :
    ReadsNodes scopes (clauses.map .clause) tokens := by
  generalize same : Phrase.clauses seenDefault clauses = phrase at reads
  induction reads generalizing seenDefault clauses with
  | clausesNone =>
    cases same
    exact .nil
  | clausesMore item _ _ _ _ ih =>
    cases same
    exact (ReadsNodes.single (agrees _) item).append (ih agrees rfl)
  | _ => cases same

theorem Reads.nodes_condition {test : Expression}
    (reads : Reads scope (.condition test) tokens next)
    (agrees : (scopes (.expression test)).Agrees scope) :
    ReadsNodes scopes [.expression test] tokens := by
  cases reads with
  | condition _ test => exact (test.nodes_fits agrees).enclosed _ _

theorem Reads.nodes_head {head : ForHead} (reads : Reads scope (.head head) tokens next)
    (agrees : (scopes head.node).Agrees scope) : ReadsNodes scopes [head.node] tokens := by
  cases reads with
  | headDeclaration declaration => exact .single agrees declaration
  | headExpression value => exact value.nodes_fits agrees

theorem Reads.nodes_init {head : Option ForHead} (reads : Reads scope (.init head) tokens next)
    (agrees : ∀ head : ForHead, (scopes head.node).Agrees scope) :
    ReadsNodes scopes (head.toList.map ForHead.node) tokens := by
  cases reads with
  | initNone => exact .nil
  | initSome head => exact head.nodes_head ((agrees _).trans (.withoutIn scope))

theorem Reads.nodes_optional {value : Option Expression}
    (reads : Reads scope (.optional value) tokens next)
    (agrees : ∀ value, (scopes (.expression value)).Agrees scope) :
    ReadsNodes scopes (value.toList.map .expression) tokens := by
  cases reads with
  | optionalNone => exact .nil
  | optionalSome value => exact value.nodes_fits (agrees _)

theorem Reads.nodes_handler {handler : Option CatchClause}
    (reads : Reads scope (.handler handler) tokens next)
    (agrees : ∀ item, (scopes (.handler item)).Agrees scope) :
    ReadsNodes scopes (handler.toList.map .handler) tokens := by
  cases handler with
  | none => exact .nil
  | some item => exact .single (agrees _) reads

theorem Reads.nodes_block {inner : Block} (reads : Reads scope (.block inner) tokens next)
    (agrees : (scopes (.block inner)).Agrees scope) : ReadsNodes scopes [.block inner] tokens :=
  .single agrees (.inl reads)

theorem Reads.nodes_finalizer {finalizer : Option Block}
    (reads : Reads scope (.finalizer finalizer) tokens next)
    (agrees : ∀ item, (scopes (.block item)).Agrees scope) :
    ReadsNodes scopes (finalizer.toList.map .block) tokens := by
  cases reads with
  | finalizerNone => exact .nil
  | finalizerSome _ inner => exact (inner.nodes_block (agrees _)).before [_]

end Phrases

/-- The scopes of the children of a node. -/
def Node.scopes (node : Node) (scope : Scope) (child : Node) : Scope :=
  (⟨node, child⟩ : Step).enter scope

section Children

variable {scope : Scope} {tokens : List Token} {next : Token}

theorem Reads.children_makes {level : Level} {value : Expression}
    (reads : Reads scope (.makes level value) tokens next) :
    ReadsNodes ((Node.expression value).scopes scope) value.children tokens := by
  cases reads with
  | this | reference | literal => exact .nil
  | array _ elements =>
    exact (elements.nodes_elements fun _ => .withIn scope).enclosed _ _
  | object _ properties =>
    exact (properties.nodes_properties fun _ => .withIn scope).enclosed _ _
  | functionExpression _ name function =>
    refine ((name.nodes fun _ => .refl scope).append ?_).before [_]
    exact function.nodes_function (fun _ => .refl scope) (.refl scope.inFunction)
  | newWithout _ callee => exact (callee.nodes_fits (.refl scope)).before [_]
  | newWith _ callee _ arguments =>
    exact ((callee.nodes_fits (.refl scope)).append
      (arguments.nodes_arguments fun _ => .refl scope)).before [_]
  | @dot scope tokens point token next value withCalls reads _ named =>
    have read : (Node.name ⟨token.name?.getD "", token.span⟩).IsRead scope [token] next :=
      ⟨token, rfl, named, rfl⟩
    exact (reads.nodes_fits (.refl scope)).append
      ((ReadsNodes.single (.refl scope) read).before [_])
  | index value _ property =>
    exact (value.nodes_fits (.refl scope)).append
      ((property.nodes_fits (.withIn scope)).enclosed _ _)
  | call value _ arguments =>
    exact (value.nodes_fits (.refl scope)).append
      (arguments.nodes_arguments fun _ => .refl scope)
  | updateBefore _ target => exact (target.nodes_fits (.refl scope)).before [_]
  | updateAfter target => exact (target.nodes_fits (.refl scope)).after [_]
  | unary _ argument => exact (argument.nodes_fits (.refl scope)).before [_]
  | binary left _ _ right =>
    exact (left.nodes_fits (.refl scope)).append ((right.nodes_fits (.refl scope)).before [_])
  | assignment target _ _ value =>
    exact (target.nodes_fits (.refl scope)).append ((value.nodes_fits (.refl scope)).before [_])
  | conditional test _ consequent _ alternate =>
    exact (test.nodes_fits (.refl scope)).append
      (((consequent.nodes_fits (.withIn scope)).append
        ((alternate.nodes_fits (.refl scope)).before [_])).before [_])
  | sequence value _ values =>
    exact (value.nodes_fits (.refl scope)).append
      ((values.nodes_separated fun _ => .refl scope).before [_])
  | accessorFunction function =>
    exact function.nodes_function (fun _ => .refl scope) (.refl scope.inFunction)

theorem Reads.children_statement {item : Statement}
    (reads : Reads scope (.statement item) tokens next) :
    ReadsNodes ((Node.statement item).scopes scope) item.children tokens := by
  cases reads with
  | empty | debugger => exact .nil
  | blockStatement inner =>
    cases inner with
    | block _ statements => exact (statements.nodes_statements fun _ => .refl scope).enclosed _ _
  | expressionStatement _ _ value => exact (value.nodes_fits (.refl scope)).after _
  | variableStatement declaration =>
    cases declaration with
    | declaration _ declarators =>
      exact ((declarators.nodes_declarators fun _ => .refl scope).before [_]).after _
  | ifWithout _ test _ consequent =>
    exact ((test.nodes_condition (.refl scope)).append
      (consequent.nodes_statement (.refl scope))).before [_]
  | ifWith _ test _ consequent _ alternate =>
    exact ((test.nodes_condition (.refl scope)).append
      ((consequent.nodes_statement (.refl scope)).append
        ((alternate.nodes_statement (.refl scope)).before [_]))).before [_]
  | whileLoop _ test _ body =>
    exact ((test.nodes_condition (.refl scope)).append
      (body.nodes_statement (.refl scope.inLoop))).before [_]
  | doWhileLoop _ body _ test =>
    exact ((body.nodes_statement (.refl scope.inLoop)).append
      (((test.nodes_condition (.refl scope)).after _).before [_])).before [_]
  | forLoop _ _ init _ test _ update _ body =>
    refine ((init.nodes_init ?_).append ?_).before [_, _]
    · intro head
      cases head <;> exact .refl scope
    · exact ((test.nodes_optional fun _ => .refl scope).append
        (((update.nodes_optional fun _ => .refl scope).append
          ((body.nodes_statement (.refl scope.inLoop)).before [_])).before [_])).before [_]
  | @forInLoop scope _ _ _ _ _ _ _ _ head _ _ _ _ readsHead _ _ right _ body =>
    refine ((readsHead.nodes_head ?_).append ?_).before [_, _]
    · cases head <;> exact .withoutIn scope
    · exact ((right.nodes_fits (.refl scope)).append
        ((body.nodes_statement (.refl scope.inLoop)).before [_])).before [_]
  | continueTo _ _ label => exact ((label.nodes fun _ => .refl scope).after _).before [_]
  | breakTo _ _ label => exact ((label.nodes fun _ => .refl scope).after _).before [_]
  | returnNothing => exact .nil
  | returnValue _ _ _ _ value => exact ((value.nodes_fits (.refl scope)).after _).before [_]
  | withObject _ _ object _ body =>
    exact ((object.nodes_condition (.refl scope)).append
      (body.nodes_statement (.refl scope))).before [_]
  | switch _ discriminant _ clauses =>
    exact ((discriminant.nodes_condition (.refl scope)).append
      ((clauses.nodes_clauses fun _ => .refl scope.inSwitch).enclosed _ _)).before [_]
  | throwValue _ _ _ value => exact ((value.nodes_fits (.refl scope)).after _).before [_]
  | tryBlock _ inner _ handler _ finalizer =>
    exact ((inner.nodes_block (.refl scope)).append
      ((handler.nodes_handler fun _ => .refl scope).append
        (finalizer.nodes_finalizer fun _ => .refl scope))).before [_]
  | labelled label _ _ body =>
    exact (ReadsNodes.label (.refl scope) label).append
      ((body.nodes_statement (.refl _)).before [_])

theorem Reads.children_item {item : Statement} (reads : Reads scope (.item item) tokens next) :
    ReadsNodes ((Node.statement item).scopes scope) item.children tokens := by
  cases reads with
  | functionDeclaration _ binds function =>
    exact ((ReadsNodes.binding (.refl scope) binds).append
      (function.nodes_function (fun _ => .refl scope) (.refl scope.inFunction))).before [_]
  | item _ _ statement => exact statement.children_statement

theorem Reads.children_directive {text : String} {value : Expression} {span : Span}
    (reads : Reads scope (.directive text value span) tokens next) :
    ReadsNodes ((Node.statement (.expression value (some text) span)).scopes scope)
      [.expression value] tokens := by
  cases reads with
  | directive _ _ statement =>
    cases statement with
    | expressionStatement _ _ value => exact (value.nodes_fits (.refl scope)).after _

/-- The children of a node are read one after the other, each in the scope after the step to it. -/
theorem Node.IsRead.children {node : Node} (read : node.IsRead scope tokens next) :
    ReadsNodes (node.scopes scope) node.children tokens := by
  cases node with
  | name | key | binding | label => exact .nil
  | expression item =>
    obtain ⟨level, reads⟩ := read
    exact reads.children_makes
  | statement item =>
    rcases read with reads | reads | ⟨text, value, span, rfl, reads⟩
    · exact reads.children_statement
    · exact reads.children_item
    · exact reads.children_directive
  | property item =>
    cases read with
    | value hasKey _ value =>
      exact (ReadsNodes.key (.refl scope) hasKey).append
        ((value.nodes_fits (.refl scope)).before [_])
    | accessor _ hasKey function =>
      exact ((ReadsNodes.key (.refl scope) hasKey).append
        (function.nodes_makes (.refl scope))).before [_]
  | block item =>
    rcases read with read | read
    · cases read with
      | block _ statements => exact (statements.nodes_statements fun _ => .refl scope).enclosed _ _
    · cases read with
      | functionBody _ body => exact (body.nodes_body fun _ => .refl scope).enclosed _ _
  | declarator item =>
    cases read with
    | declared binds => exact .binding (.refl scope) binds
    | initialized binds _ value =>
      exact (ReadsNodes.binding (.refl scope) binds).append
        ((value.nodes_fits (.refl scope)).before [_])
  | declaration item =>
    cases read with
    | declaration _ declarators =>
      exact (declarators.nodes_declarators fun _ => .refl scope).before [_]
  | clause item =>
    cases read with
    | caseClause _ test _ statements =>
      exact ((test.nodes_fits (.refl scope)).append
        ((statements.nodes_statements fun _ => .refl scope).before [_])).before [_]
    | defaultClause _ _ statements =>
      exact (statements.nodes_statements fun _ => .refl scope).before [_, _]
  | handler item =>
    cases read with
    | handlerSome _ _ binds _ body =>
      exact ((ReadsNodes.binding (.refl scope) binds).append
        ((body.nodes_block (.refl scope)).before [_])).before [_, _]

/-- A child of a node is read in the scope after the step to it. -/
theorem Node.IsRead.child {node child : Node} (read : node.IsRead scope tokens next)
    (member : child ∈ node.children) :
    ∃ inner piece follower, ((⟨node, child⟩ : Step).enter scope).Agrees inner ∧
      child.IsRead inner piece follower ∧ piece <:+: tokens :=
  read.children.exists_of_mem member

/-- Every node in the tree of a root is read in the scope at the end of the path to it. -/
theorem Node.IsRead.occurs {root node : Node} {path : List Step}
    (read : root.IsRead scope tokens next) (occurs : root.Occurs path node) :
    ∃ inner piece follower, (scope.along path).Agrees inner ∧
      node.IsRead inner piece follower ∧ piece <:+: tokens := by
  induction occurs with
  | root => exact ⟨scope, tokens, next, .refl scope, read, List.infix_rfl⟩
  | @child path parent child _ member ih =>
    obtain ⟨middle, piece, follower, agrees, readParent, inside⟩ := ih
    obtain ⟨inner, smaller, last, agreesChild, readChild, deeper⟩ := readParent.child member
    have agreesWhole := (agrees.enter ⟨parent, child⟩).trans agreesChild
    exact ⟨inner, smaller, last, agreesWhole, readChild, deeper.trans inside⟩

/-- Every node below the statements of a body is read in the scope at the end of the path to it. -/
theorem Reads.occurs_body {statements : List Statement}
    (reads : Reads scope (.body statements) tokens next) {statement : Statement}
    (member : statement ∈ statements) {path : List Step} {node : Node}
    (occurs : (Node.statement statement).Occurs path node) :
    ∃ inner piece follower, (scope.along path).Agrees inner ∧
      node.IsRead inner piece follower ∧ piece <:+: tokens := by
  have nodes : ReadsNodes (fun _ => scope) (statements.map .statement) tokens :=
    reads.nodes_body fun _ => .refl scope
  obtain ⟨inner, piece, follower, agrees, read, inside⟩ :=
    nodes.exists_of_mem (List.mem_map_of_mem member)
  obtain ⟨innermost, smaller, last, agreesBelow, readNode, deeper⟩ := read.occurs occurs
  exact ⟨innermost, smaller, last, (agrees.along path).trans agreesBelow, readNode,
    deeper.trans inside⟩

end Children

end EcmaScript
