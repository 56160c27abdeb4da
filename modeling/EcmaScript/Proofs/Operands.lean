import EcmaScript.Proofs.Leaves
import EcmaScript.Proofs.Spans
import EcmaScript.Proofs.TokenText
import Mathlib.Data.List.Nodup

/-!
# Operands are neither lost nor doubled

The leaves of a tree are the operands among the tokens it was read from. `Accounts` goes through
both from the left: a token either is the place of the next leaf, or opens an accessor, or is a mark
or a word that no leaf is made of. Whatever is read by the rules of the grammar is accounted for in
this way.
-/

namespace EcmaScript

/-- The kinds of tokens that are an operand wherever they stand. -/
def Kind.isOperand : Kind → Bool
  | .identifier | .numericLiteral | .stringLiteral | .regularExpressionLiteral => true
  | .symbol (.keyword .thisWord) | .symbol (.keyword .trueWord) | .symbol (.keyword .falseWord)
  | .symbol (.keyword .nullWord) => true
  | _ => false

/-- A leaf stands where a token does, and is what the token means: a name, a value with the text of
the token, or `this`. Only the name of a property may be a reserved word. -/
def Node.Carries (token : Token) : Node → Prop
  | .expression (.identifier item) | .binding item | .label item =>
    token.lexeme = .identifier item.name ∧ item.span = token.span
  | .name item | .key (.identifier item) =>
    token.kind.isIdentifierName = true ∧ token.name? = some item.name ∧ item.span = token.span
  | .expression (.literal value raw span) | .key (.literal value raw span) =>
    token.lexeme.literal? = some value ∧ raw = token.text ∧ span = token.span
  | .expression (.thisValue span) => token.kind = .symbol Keyword.thisWord ∧ span = token.span
  | _ => False

/-- A token is the word `get` or `set` in front of the name of an accessor. -/
def Property.IsOpenedBy (token : Token) (property : Property) : Prop :=
  Grammar.accessorKind? token.lexeme = some property.kind ∧
    token.span.start = property.span.start

/-- A token that is no operand. -/
def Token.IsSilent (token : Token) : Prop :=
  token.kind.isOperand = false

namespace Token.IsSilent

variable {token : Token}

theorem of_kind {symbol : Symbol} (seen : token.kind = .symbol symbol)
    (silent : (Kind.symbol symbol).isOperand = false) : token.IsSilent := by
  rw [IsSilent, seen]
  exact silent

theorem of_unaryOperator {operator : UnaryOperator}
    (seen : token.kind.unaryOperator? = some operator) : token.IsSilent := by
  rw [IsSilent]
  cases kind : token.kind with
  | symbol symbol =>
    rw [kind] at seen
    change symbol.unaryOperator? = some operator at seen
    unfold Symbol.unaryOperator? at seen
    split at seen <;> first | rfl | contradiction
  | _ => simp [kind, Kind.unaryOperator?] at seen

theorem of_terminates {follower next : Token} {ending : List Token}
    (ends : follower.Terminates ending next) : ∀ token ∈ ending, token.IsSilent := by
  cases ends with
  | semicolon mark => simpa using of_kind mark rfl
  | inserted => simp

theorem of_mayTerminate {follower next : Token} {ending : List Token}
    (ends : follower.MayTerminate ending next) : ∀ token ∈ ending, token.IsSilent := by
  cases ends with
  | semicolon mark => simpa using of_kind mark rfl
  | none => simp

end Token.IsSilent

/-- Tokens account for the trees of some nodes, which are gone through from the left. -/
inductive Accounts : List Node → List Token → Prop where
  | nil : Accounts [] []
  | skip {token : Token} {nodes : List Node} {tokens : List Token} : token.IsSilent →
      Accounts nodes tokens → Accounts nodes (token :: tokens)
  | leaf {node : Node} {token : Token} {nodes : List Node} {tokens : List Token} :
      node.isLeaf = true → node.Carries token → Accounts nodes tokens →
      Accounts (node :: nodes) (token :: tokens)
  | accessor {property : Property} {word : Token} {nodes : List Node} {tokens : List Token} :
      property.IsOpenedBy word → Accounts ((Node.property property).children ++ nodes) tokens →
      Accounts (.property property :: nodes) (word :: tokens)
  | inner {node : Node} {nodes : List Node} {tokens : List Token} : node.isLeaf = false →
      Accounts (node.children ++ nodes) tokens → Accounts (node :: nodes) tokens

namespace Accounts

variable {node : Node} {nodes others : List Node} {token : Token} {tokens more : List Token}

theorem append (left : Accounts nodes tokens) (right : Accounts others more) :
    Accounts (nodes ++ others) (tokens ++ more) := by
  induction left with
  | nil => exact right
  | skip silent _ ih => exact .skip silent ih
  | leaf isLeaf carries _ ih => exact .leaf isLeaf carries ih
  | accessor opened _ ih =>
    rw [List.append_assoc] at ih
    exact .accessor opened ih
  | inner isInner _ ih =>
    rw [List.append_assoc] at ih
    exact .inner isInner ih

/-- A leaf is the place of one token. -/
theorem single (isLeaf : node.isLeaf = true) (carries : node.Carries token) :
    Accounts [node] [token] :=
  .leaf isLeaf carries .nil

/-- The children of a node account for it. -/
theorem parent (isInner : node.isLeaf = false) (children : Accounts node.children tokens) :
    Accounts [node] tokens := by
  apply inner isInner
  rwa [List.append_nil]

theorem directive {value : Expression} {text : String} {span : Span}
    (child : Accounts [.expression value] tokens) :
    Accounts [.statement (.expression value (some text) span)] tokens :=
  parent rfl child

theorem statement {item : Statement} (children : Accounts item.children tokens) :
    Accounts [.statement item] tokens :=
  parent rfl children

theorem block {inner : Block} (statements : Accounts (inner.body.map .statement) tokens) :
    Accounts [.block inner] tokens :=
  parent rfl statements

/-- Silent tokens behind some nodes. -/
theorem after (accounts : Accounts nodes tokens) (silent : ∀ token ∈ more, token.IsSilent) :
    Accounts nodes (tokens ++ more) := by
  have nothing : Accounts [] more := by
    induction more with
    | nil => exact .nil
    | cons token more ih =>
      obtain ⟨first, others⟩ := List.forall_mem_cons.mp silent
      exact .skip first (ih others)
  have whole := accounts.append nothing
  rwa [List.append_nil] at whole

/-- Silent tokens on both sides of some nodes. -/
theorem enclosed {opening closing : Token} (accounts : Accounts nodes tokens)
    (before : opening.IsSilent) (behind : closing.IsSilent) :
    Accounts nodes (opening :: (tokens ++ [closing])) :=
  .skip before (accounts.after (by simpa using behind))

end Accounts

/-- The nodes of a phrase. A statement, a block or a declaration is given by its children, whatever
node it becomes. -/
def Phrase.nodes : Phrase → List Node
  | .fits _ value | .makes _ value | .condition value | .directive _ value _ =>
    [.expression value]
  | .separated values | .arguments values => values.map .expression
  | .elements parts => (parts.filterMap id).map .expression
  | .property part => [.property part]
  | .properties parts => parts.map .property
  | .function names inner => names.map .binding ++ [.block inner]
  | .functionBody inner | .block inner => inner.body.map .statement
  | .body parts | .statements parts => parts.map .statement
  | .item part => [.statement part]
  | .statement part => part.children
  | .declarator part => [.declarator part]
  | .declarators parts => parts.map .declarator
  | .declaration part => part.declarators.map .declarator
  | .head part => [part.node]
  | .init part => part.toList.map ForHead.node
  | .optional value => value.toList.map .expression
  | .clause part => [.clause part]
  | .clauses _ parts => parts.map .clause
  | .handler part => part.toList.map .handler
  | .finalizer part => part.toList.map .block

section Parts

open Token.IsSilent

variable {scope : Scope} {token next : Token} {tokens : List Token}

theorem Scope.Refers.carries {name : Identifier} (refers : scope.Refers token name) :
    token.lexeme = .identifier name.name ∧ name.span = token.span :=
  ⟨refers.1, refers.2.1⟩

theorem Scope.Binds.accounts {name : Identifier} (binds : scope.Binds token name) :
    Accounts [.binding name] [token] :=
  .single rfl binds.1.carries

theorem Token.carries_name (named : token.kind.isIdentifierName = true) :
    token.name? = some (token.name?.getD "") := by
  have isName : token.name?.isSome = true := by
    unfold Token.kind at named
    unfold Token.name?
    cases lexeme : token.lexeme with
    | identifier => rfl
    | symbol symbol =>
      rw [lexeme] at named
      have word : symbol.isWord = true := by
        simpa [Lexeme.kind, Kind.isIdentifierName, Kind.isReservedWord] using named
      simp [Lexeme.name?, word]
    | _ => simp [lexeme, Lexeme.kind, Kind.isIdentifierName, Kind.isReservedWord] at named
  obtain ⟨name, same⟩ := Option.isSome_iff_exists.mp isName
  rw [same]
  rfl

theorem Scope.HasKey.accounts {key : PropertyKey} (hasKey : scope.HasKey token key) :
    Accounts [.key key] [token] := by
  cases hasKey with
  | literal value _ literal => exact .single rfl ⟨literal, rfl, rfl⟩
  | name named => exact .single rfl ⟨named, token.carries_name named, rfl⟩

theorem Scope.HasBindings.accounts {names : List Identifier}
    (bindings : scope.HasBindings names tokens) : Accounts (names.map .binding) tokens := by
  induction bindings with
  | one binds => exact binds.accounts
  | more binds comma _ ih => exact binds.accounts.append (.skip (of_kind comma rfl) ih)

theorem Scope.HasParameters.accounts {names : List Identifier}
    (hasParameters : scope.HasParameters names tokens) : Accounts (names.map .binding) tokens := by
  cases hasParameters with
  | none opening closing => exact .skip (of_kind opening rfl) (.skip (of_kind closing rfl) .nil)
  | some opening bindings closing =>
    exact bindings.accounts.enclosed (of_kind opening rfl) (of_kind closing rfl)

theorem Scope.HasFunctionName.accounts {name : Option Identifier}
    (hasName : scope.HasFunctionName name tokens) :
    Accounts (name.toList.map .binding) tokens := by
  cases hasName with
  | none => exact .nil
  | some binds => exact binds.accounts

theorem Scope.HasJumpLabel.accounts {label : Option Identifier}
    (hasLabel : scope.HasJumpLabel label tokens next) :
    Accounts (label.toList.map .label) tokens := by
  cases hasLabel with
  | none => exact .nil
  | some refers => exact .single rfl refers.carries

end Parts

open Token.IsSilent in
/-- Whatever is read by the rules is accounted for by its tokens. -/
theorem Reads.accounts {scope : Scope} {phrase : Phrase} {tokens : List Token} {next : Token}
    (reads : Reads scope phrase tokens next) : Accounts phrase.nodes tokens := by
  induction reads with
  | made _ ih => exact ih
  | this word => exact .single rfl ⟨word, rfl⟩
  | reference refers => exact .single rfl refers.carries
  | literal literal => exact .single rfl ⟨literal, rfl, rfl⟩
  | parenthesized opening _ closing ih =>
    exact ih.enclosed (of_kind opening rfl) (of_kind closing rfl)
  | array opening _ closing ih =>
    exact .parent rfl (ih.enclosed (of_kind opening rfl) (of_kind closing rfl))
  | object opening _ closing ih =>
    exact .parent rfl (ih.enclosed (of_kind opening rfl) (of_kind closing rfl))
  | functionExpression word name _ ih =>
    exact .parent rfl (.skip (of_kind word rfl) (name.accounts.append ih))
  | newWithout word _ _ ih => exact .parent rfl (.skip (of_kind word rfl) ih)
  | newWith word _ _ _ callee arguments =>
    exact .parent rfl (.skip (of_kind word rfl) (callee.append arguments))
  | head _ _ ih => exact ih
  | @dot scope tokens point token next value withCalls _ isPoint named ih =>
    have name : Accounts [.name ⟨token.name?.getD "", token.span⟩] [token] :=
      .single rfl ⟨named, token.carries_name named, rfl⟩
    exact .parent rfl (ih.append (.skip (of_kind isPoint rfl) name))
  | index _ opening _ closing value property =>
    exact .parent rfl
      (value.append (property.enclosed (of_kind opening rfl) (of_kind closing rfl)))
  | call _ _ _ callee arguments => exact .parent rfl (callee.append arguments)
  | noArguments opening closing =>
    exact .skip (of_kind opening rfl) (.skip (of_kind closing rfl) .nil)
  | arguments opening _ closing ih => exact ih.enclosed (of_kind opening rfl) (of_kind closing rfl)
  | operand _ ih => exact ih
  | updateBefore mark _ _ ih =>
    exact .parent rfl (.skip (of_kind (Grammar.kind_of_updateOperator? mark) rfl) ih)
  | updateAfter _ mark _ _ ih =>
    have silent := of_kind (Grammar.kind_of_updateOperator? mark) rfl
    exact .parent rfl (ih.after (by simpa using silent))
  | unary mark _ _ ih => exact .parent rfl (.skip (of_unaryOperator mark) ih)
  | single _ _ ih => exact ih
  | binary _ mark _ _ _ left right =>
    exact .parent rfl
      (left.append (.skip (of_kind (Grammar.kind_of_binaryOperator? mark) rfl) right))
  | operators _ ih => exact ih
  | assignment _ mark _ _ target value =>
    exact .parent rfl
      (target.append (.skip (of_kind (Grammar.kind_of_assignmentOperator? mark) rfl) value))
  | conditional _ question _ colon _ test consequent alternate =>
    exact .parent rfl
      (test.append (.skip (of_kind question rfl)
        (consequent.append (.skip (of_kind colon rfl) alternate))))
  | alone _ ih => exact ih
  | sequence _ comma _ value values =>
    exact .parent rfl (value.append (.skip (of_kind comma rfl) values))
  | separatedOne _ _ ih => exact ih
  | separatedMore _ comma _ value values => exact value.append (.skip (of_kind comma rfl) values)
  | elementsNone => exact .nil
  | elementsHole comma _ ih => exact .skip (of_kind comma rfl) ih
  | elementsLast _ _ ih => exact ih
  | elementsMore _ comma _ value elements =>
    exact value.append (.skip (of_kind comma rfl) elements)
  | value hasKey colon _ ih =>
    exact .parent rfl (hasKey.accounts.append (.skip (of_kind colon rfl) ih))
  | accessorFunction _ ih => exact .parent rfl ih
  | accessor word hasKey _ _ ih =>
    exact .accessor ⟨word, rfl⟩ (hasKey.accounts.append ih)
  | propertiesNone => exact .nil
  | propertiesLast _ _ ih => exact ih
  | propertiesMore _ comma _ property properties =>
    exact property.append (.skip (of_kind comma rfl) properties)
  | function hasParameters _ ih => exact hasParameters.accounts.append ih.block
  | functionBody opening _ closing ih =>
    exact ih.enclosed (of_kind opening rfl) (of_kind closing rfl)
  | directive _ _ _ ih => exact ih
  | directed _ _ _ directive statements => exact (directive.directive).append statements
  | undirected _ _ _ ih => exact ih
  | statementsNone => exact .nil
  | statementsMore _ _ _ item statements => exact item.append statements
  | functionDeclaration word binds _ ih =>
    exact .parent rfl (.skip (of_kind word rfl) (binds.accounts.append ih))
  | item _ _ _ ih => exact ih.statement
  | empty mark => exact .skip (of_kind mark rfl) .nil
  | blockStatement _ ih => exact ih
  | block opening _ closing ih => exact ih.enclosed (of_kind opening rfl) (of_kind closing rfl)
  | expressionStatement _ _ _ ends ih => exact ih.after (of_terminates ends)
  | variableStatement _ ends ih => exact ih.after (of_terminates ends)
  | declaration word _ ih => exact .skip (of_kind word rfl) ih
  | declaratorsOne _ _ ih => exact ih
  | declaratorsMore _ comma _ item items => exact item.append (.skip (of_kind comma rfl) items)
  | declared binds => exact .parent rfl binds.accounts
  | initialized binds mark _ ih =>
    exact .parent rfl (binds.accounts.append (.skip (of_kind mark rfl) ih))
  | condition opening _ closing ih => exact ih.enclosed (of_kind opening rfl) (of_kind closing rfl)
  | ifWithout word _ _ _ _ test consequent =>
    exact .skip (of_kind word rfl) (test.append consequent.statement)
  | ifWith word _ _ _ elseWord _ test consequent alternate =>
    exact .skip (of_kind word rfl)
      (test.append (consequent.statement.append
        (.skip (of_kind elseWord rfl) alternate.statement)))
  | whileLoop word _ _ _ test body =>
    exact .skip (of_kind word rfl) (test.append body.statement)
  | doWhileLoop word _ whileWord _ ends body test =>
    exact .skip (of_kind word rfl)
      (body.statement.append
        (.skip (of_kind whileWord rfl) (test.after (of_mayTerminate ends))))
  | headDeclaration _ ih => exact .parent rfl ih
  | headExpression _ ih => exact ih
  | initNone => exact .nil
  | initSome _ ih => exact ih
  | optionalNone => exact .nil
  | optionalSome _ ih => exact ih
  | forLoop word opening _ first _ second _ closing _ init test update body =>
    exact .skip (of_kind word rfl) (.skip (of_kind opening rfl)
      (init.append (.skip (of_kind first rfl)
        (test.append (.skip (of_kind second rfl)
          (update.append (.skip (of_kind closing rfl) body.statement)))))))
  | forInLoop word opening _ inWord _ _ closing _ head right body =>
    exact .skip (of_kind word rfl) (.skip (of_kind opening rfl)
      (head.append (.skip (of_kind inWord rfl)
        (right.append (.skip (of_kind closing rfl) body.statement)))))
  | continueTo word _ label ends | breakTo word _ label ends =>
    exact .skip (of_kind word rfl) (label.accounts.after (of_terminates ends))
  | returnNothing word _ _ ends =>
    exact .skip (of_kind word rfl) (Accounts.nil.after (of_terminates ends))
  | returnValue word _ _ _ _ ends ih | throwValue word _ _ _ ends ih =>
    exact .skip (of_kind word rfl) (ih.after (of_terminates ends))
  | withObject word _ _ _ _ object body =>
    exact .skip (of_kind word rfl) (object.append body.statement)
  | switch word _ opening _ closing discriminant clauses =>
    exact .skip (of_kind word rfl)
      (discriminant.append (clauses.enclosed (of_kind opening rfl) (of_kind closing rfl)))
  | clausesNone => exact .nil
  | clausesMore _ _ _ _ clause clauses => exact clause.append clauses
  | caseClause word _ colon _ test statements =>
    exact .parent rfl
      (.skip (of_kind word rfl) (test.append (.skip (of_kind colon rfl) statements)))
  | defaultClause word colon _ ih =>
    exact .parent rfl (.skip (of_kind word rfl) (.skip (of_kind colon rfl) ih))
  | tryBlock word _ _ _ _ _ _ inner handler finalizer =>
    exact .skip (of_kind word rfl)
      (inner.block.append (handler.append finalizer))
  | handlerNone => exact .nil
  | handlerSome word opening binds closing _ ih =>
    exact .parent rfl
      (.skip (of_kind word rfl) (.skip (of_kind opening rfl)
        (binds.accounts.append (.skip (of_kind closing rfl) ih.block))))
  | finalizerNone => exact .nil
  | finalizerSome word _ ih => exact .skip (of_kind word rfl) ih.block
  | debugger word ends => exact .skip (of_kind word rfl) (Accounts.nil.after (of_terminates ends))
  | labelled refers colon _ _ ih =>
    have label : Accounts [.label _] [_] := .single rfl refers.carries
    exact label.append (.skip (of_kind colon rfl) ih.statement)

theorem Node.Carries.span {node : Node} {token : Token} (carries : node.Carries token) :
    node.span = token.span := by
  unfold Node.Carries at carries
  split at carries
  · exact carries.2
  · exact carries.2
  · exact carries.2
  · exact carries.2.2
  · exact carries.2.2
  · exact carries.2.2
  · exact carries.2.2
  · exact carries.2
  · contradiction

namespace Accounts

variable {nodes : List Node} {tokens : List Token}

/-- The leaves stand where some of the tokens do, in the same order. -/
theorem sublist (accounts : Accounts nodes tokens) :
    ((nodes.flatMap Node.leaves).map Node.span).Sublist (tokens.map Token.span) := by
  induction accounts with
  | nil => exact .slnil
  | skip _ _ ih => exact .cons _ ih
  | leaf isLeaf carries _ ih =>
    rw [List.flatMap_cons, Node.leaves_of_isLeaf isLeaf, List.singleton_append, List.map_cons,
      List.map_cons, carries.span]
    exact .cons_cons _ ih
  | accessor _ _ ih =>
    rw [List.flatMap_cons, Node.leaves_of_inner rfl, ← List.flatMap_append]
    exact .cons _ ih
  | inner isInner _ ih =>
    rw [List.flatMap_cons, Node.leaves_of_inner isInner, ← List.flatMap_append]
    exact ih

/-- Every leaf is made of a token. -/
theorem exists_token (accounts : Accounts nodes tokens) :
    ∀ leaf ∈ nodes.flatMap Node.leaves, ∃ token ∈ tokens, leaf.Carries token := by
  induction accounts with
  | nil => simp
  | skip _ _ ih =>
    intro leaf member
    obtain ⟨token, inside, carries⟩ := ih leaf member
    exact ⟨token, List.mem_cons_of_mem _ inside, carries⟩
  | @leaf node token nodes tokens isLeaf carries _ ih =>
    intro leaf member
    rw [List.flatMap_cons, Node.leaves_of_isLeaf isLeaf, List.singleton_append] at member
    rcases List.mem_cons.mp member with rfl | later
    · exact ⟨token, List.mem_cons_self, carries⟩
    · obtain ⟨other, inside, carriesOther⟩ := ih leaf later
      exact ⟨other, List.mem_cons_of_mem _ inside, carriesOther⟩
  | accessor _ _ ih =>
    intro leaf member
    rw [List.flatMap_cons, Node.leaves_of_inner rfl, ← List.flatMap_append] at member
    obtain ⟨token, inside, carries⟩ := ih leaf member
    exact ⟨token, List.mem_cons_of_mem _ inside, carries⟩
  | inner isInner _ ih =>
    intro leaf member
    rw [List.flatMap_cons, Node.leaves_of_inner isInner, ← List.flatMap_append] at member
    exact ih leaf member

/-- Every operand is a leaf, or it is the word in front of an accessor. -/
theorem exists_leaf (accounts : Accounts nodes tokens) {token : Token} (member : token ∈ tokens)
    (isOperand : token.kind.isOperand = true) :
    (∃ leaf ∈ nodes.flatMap Node.leaves, leaf.Carries token) ∨
      ∃ property, .property property ∈ nodes.flatMap Node.preorder ∧
        property.IsOpenedBy token := by
  induction accounts with
  | nil => contradiction
  | skip silent _ ih =>
    rcases List.mem_cons.mp member with rfl | later
    · rw [Token.IsSilent, isOperand] at silent
      contradiction
    · exact ih later
  | @leaf node first nodes tokens isLeaf carries _ ih =>
    rw [List.flatMap_cons, Node.leaves_of_isLeaf isLeaf, List.flatMap_cons]
    rcases List.mem_cons.mp member with rfl | later
    · exact .inl ⟨node, by simp, carries⟩
    · rcases ih later with ⟨leaf, inside, carriesLater⟩ | ⟨property, inside, opened⟩
      · exact .inl ⟨leaf, List.mem_append_right _ inside, carriesLater⟩
      · exact .inr ⟨property, List.mem_append_right _ inside, opened⟩
  | @accessor property word nodes tokens opened _ ih =>
    rw [List.flatMap_append, List.flatMap_append, ← Node.leaves_of_inner rfl] at ih
    rw [List.flatMap_cons, List.flatMap_cons, Node.preorder_eq]
    rcases List.mem_cons.mp member with rfl | later
    · exact .inr ⟨property, by simp, opened⟩
    · rcases ih later with found | ⟨other, inside, openedLater⟩
      · exact .inl found
      · exact .inr ⟨other, List.mem_cons_of_mem _ inside, openedLater⟩
  | inner isInner _ ih =>
    rw [List.flatMap_append, List.flatMap_append, ← Node.leaves_of_inner isInner] at ih
    rw [List.flatMap_cons, List.flatMap_cons, Node.preorder_eq]
    rcases ih member with found | ⟨other, inside, opened⟩
    · exact .inl found
    · exact .inr ⟨other, List.mem_cons_of_mem _ inside, opened⟩

end Accounts

theorem Token.Between.le_of_mem {low high : Position} {tokens : List Token} {token : Token}
    (between : Between low tokens high) (member : token ∈ tokens) : low ≤ token.span.start := by
  induction between with
  | nil => contradiction
  | cons start wide _ ih =>
    rcases List.mem_cons.mp member with rfl | later
    · exact start
    · exact Position.le_trans start (Position.le_trans (Position.le_of_lt wide) (ih later))

/-- The spans of tokens that lie one after the other do not overlap. -/
theorem Token.Between.pairwise {low high : Position} {tokens : List Token}
    (between : Between low tokens high) :
    (tokens.map Token.span).Pairwise fun left right =>
      left.start < left.stop ∧ left.stop ≤ right.start := by
  induction between with
  | nil => exact .nil
  | cons _ wide rest ih =>
    refine .cons ?_ ih
    intro span member
    obtain ⟨token, inside, rfl⟩ := List.mem_map.mp member
    exact ⟨wide, rest.le_of_mem inside⟩

/-- A script begins with a token of its text, with the cursor at its end. -/
theorem Grammar.Begins.isIn {source : String} {options : Options} {first : State}
    (begins : Begins (.ofSource source options) first) : first.point.IsIn source := by
  have start : (Cursor.atStart source).IsIn source := .atStart source
  have scanned : ∀ {cursor : Cursor}, cursor.IsIn source →
      Scan.token cursor = .ok first.lookahead first.cursor → first.point.IsIn source := by
    intro cursor inSource found
    obtain ⟨gap, length, reads⟩ := Scan.reads_of_token found
    obtain ⟨token, _, _, after⟩ := reads.isIn inSource
    exact ⟨token, after, reads.stop.symm⟩
  rcases begins.scanned with found | found
  · exact scanned start found
  · exact scanned start.passHashbang found

/-- A token is the word `get` or `set` that opens an accessor in a program. -/
def Program.OpensAccessor (program : Program) (token : Token) : Prop :=
  ∃ path property, program.Occurs path (.property property) ∧ property.IsOpenedBy token

/-- The leaves of a program are the operands among some tokens of a source text. -/
structure Program.HasOperands (source : String) (program : Program) (tokens : List Token) :
    Prop where
  /-- Every operand stands for one leaf, and it is the only one at this place. -/
  operands : ∀ token ∈ tokens, token.kind.isOperand = true → ¬program.OpensAccessor token →
    ∃ leaf ∈ program.leaves, leaf.Carries token ∧
      (program.leaves.map Node.span).count token.span = 1
  /-- Every leaf is made of one token, and it is the only one at this place. -/
  leaves : ∀ leaf ∈ program.leaves, ∃ token ∈ tokens, leaf.Carries token ∧
    (tokens.map Token.span).count leaf.span = 1
  /-- Leaves and tokens are in the same order. -/
  order : (program.leaves.map Node.span).Sublist (tokens.map Token.span)
  /-- The leaves do not overlap. -/
  apart : program.leaves.Pairwise fun left right => left.span.stop ≤ right.span.start
  /-- Every token has the text at its place. -/
  texts : ∀ token ∈ tokens, token.text = sourceText source token.start token.stop

namespace State

variable {source : String} {options : Options} {program : Program} {after : State}

/-- No operand of an accepted text is lost, doubled, put in another place or given another value. -/
theorem operands_of_parse (accepted : (ofSource source options).parse = (.ok program, after)) :
    program.HasOperands source after.consumed := by
  obtain ⟨first, begins, isScript⟩ := isScript_of_parse accepted
  obtain ⟨between, _⟩ := between_of_parse accepted
  have accounts : Accounts (program.body.map .statement) after.consumed :=
    (reads_of_parse accepted).accounts
  have sameLeaves : (program.body.map Node.statement).flatMap Node.leaves = program.leaves :=
    List.flatMap_map _ _ _
  have order := accounts.sublist
  have leafToken := accounts.exists_token
  rw [sameLeaves] at order leafToken
  have ordered := between.pairwise
  have distinct : (after.consumed.map Token.span).Nodup := by
    refine ordered.imp ?_
    rintro left right ⟨wide, behind⟩ rfl
    exact Position.lt_irrefl _ (Position.lt_of_lt_of_le wide behind)
  constructor
  · intro token member isOperand notWord
    rcases accounts.exists_leaf member isOperand with ⟨leaf, inside, carries⟩ | opened
    · rw [sameLeaves] at inside
      have place : token.span ∈ program.leaves.map Node.span :=
        List.mem_map.mpr ⟨leaf, inside, carries.span⟩
      exact ⟨leaf, inside, carries, List.count_eq_one_of_mem (distinct.sublist order) place⟩
    · obtain ⟨property, inside, opened⟩ := opened
      rw [List.flatMap_map] at inside
      obtain ⟨statement, isStatement, below⟩ := List.mem_flatMap.mp inside
      obtain ⟨path, occurs⟩ := Node.mem_preorder.mp below
      exact absurd ⟨path, property, ⟨statement, isStatement, occurs⟩, opened⟩ notWord
  · intro leaf member
    obtain ⟨token, inside, carries⟩ := leafToken leaf member
    refine ⟨token, inside, carries, ?_⟩
    rw [carries.span]
    exact List.count_eq_one_of_mem distinct (List.mem_map_of_mem inside)
  · exact order
  · exact List.pairwise_map.mp ((ordered.sublist order).imp And.right)
  · intro token member
    exact ((isScript.passes.isIn begins.isIn).2 token member).text

/-- A labelled loop, an accessor with a reserved word for its name, and literals. -/
theorem operands_of_accessor :
    ∃ program after,
      (ofSource "a: for (;;) b = [\x7b get if() \x7b this \x7d \x7d, /c/, 'd']" {}).parse =
        (.ok program, after) ∧
      program.leaves.length = 6 ∧
      program.HasOperands "a: for (;;) b = [\x7b get if() \x7b this \x7d \x7d, /c/, 'd']"
        after.consumed := by
  have computed :
      (EcmaScript.parse "a: for (;;) b = [\x7b get if() \x7b this \x7d \x7d, /c/, 'd']"
        {}).toOption.any (fun program => program.leaves.length == 6) = true := by decide +kernel
  generalize found : EcmaScript.parse _ _ = result at computed
  cases result with
  | error => contradiction
  | ok program =>
    obtain ⟨after, accepted⟩ := exists_of_parse found
    have length : program.leaves.length = 6 := by simpa [Except.toOption] using computed
    exact ⟨program, after, accepted, length, operands_of_parse accepted⟩

end State

end EcmaScript
