import EcmaScript.Proofs.Depth
import EcmaScript.Proofs.Operands

/-!
# What the word `in` is read as

Every word `in` among the tokens of a phrase has its place in the tree: it is the operator between
two operands, the name of a property, or the word that divides the head of a `for` statement. The
last two stand inside brackets, unless the name comes after a period.
-/

namespace EcmaScript

/-- A node is one of some nodes or occurs below one of them. -/
def OccursBelow (nodes : List Node) (node : Node) : Prop :=
  ∃ root ∈ nodes, ∃ path, root.Occurs path node

/-- What a word `in` is in the trees of some nodes, with some tokens in front of it and others behind
it, and inside some number of brackets. -/
inductive UsesIn (brackets : Nat) (nodes : List Node) (front : List Token) (token : Token)
    (back : List Token) : Prop where
  /-- The operator between the two operands that are read directly in front of it and behind it. -/
  | operator {left right : Expression} {span : Span} {scope : Scope}
      {leftTokens rightTokens : List Token} {next : Token} :
      OccursBelow nodes (.expression (.binary .isIn left right span)) →
      leftTokens <:+ front → rightTokens <+: back →
      Reads scope (.fits (.operators BinaryOperator.isIn.leftTier) left) leftTokens token →
      Reads scope (.fits (.operators BinaryOperator.isIn.rightTier) right) rightTokens next →
      UsesIn brackets nodes front token back
  /-- The name of a property, after a period. -/
  | name {point : Token} : front.getLast? = some point → point.kind = .symbol Punctuator.period →
      OccursBelow nodes (.name ⟨"in", token.span⟩) → UsesIn brackets nodes front token back
  /-- The name of a property of an object. -/
  | key : 0 < brackets → OccursBelow nodes (.key (.identifier ⟨"in", token.span⟩)) →
      UsesIn brackets nodes front token back
  /-- The word between the parts of the head of a `for` statement. -/
  | loop {left : ForHead} {right : Expression} {body : Statement} {span : Span} {scope : Scope}
      {leftTokens rightTokens : List Token} {next : Token} : 0 < brackets →
      OccursBelow nodes (.statement (.forInLoop left right body span)) →
      leftTokens <:+ front → rightTokens <+: back →
      Reads scope.withoutIn (.head left) leftTokens token →
      Reads scope (.fits .expression right) rightTokens next →
      UsesIn brackets nodes front token back

/-- The brackets among some tokens are balanced, and every word `in` has its place in the trees of
some nodes. -/
structure Explains (brackets : Nat) (nodes : List Node) (tokens : List Token) : Prop where
  balanced : Balanced tokens
  uses : ∀ front token back, tokens = front ++ token :: back →
    token.kind = .symbol BinaryOperator.isIn →
    UsesIn (bracketsAfter brackets front) nodes front token back

/-- The kinds that are neither brackets nor the word `in`. -/
def Kind.isQuiet : Kind → Bool
  | .symbol (.binary .isIn) => false
  | kind => !kind.opens && !kind.closes

namespace Token

/-- A token that is neither a bracket nor the word `in`. -/
def IsQuiet (token : Token) : Prop :=
  token.kind.isQuiet = true

variable {token : Token}

namespace IsQuiet

theorem of_kind {kind : Kind} (seen : token.kind = kind) (quiet : kind.isQuiet = true) :
    token.IsQuiet := by
  rwa [IsQuiet, seen]

theorem ne_isIn (quiet : token.IsQuiet) : token.kind ≠ .symbol BinaryOperator.isIn := by
  intro seen
  rw [IsQuiet, seen] at quiet
  cases quiet

theorem level (quiet : token.IsQuiet) : token.kind.opens = false ∧ token.kind.closes = false :=
  (by decide +kernel : ∀ kind ∈ Kind.all, kind.isQuiet = true →
    kind.opens = false ∧ kind.closes = false) _ (Kind.mem_all _) quiet

theorem of_lexeme {lexeme : Lexeme} (seen : token.lexeme = lexeme)
    (quiet : lexeme.kind.isQuiet = true) : token.IsQuiet :=
  of_kind (congrArg Lexeme.kind seen) quiet

theorem of_literal {value : Literal} (literal : token.lexeme.literal? = some value) :
    token.IsQuiet := by
  unfold Lexeme.literal? at literal
  split at literal
  any_goals contradiction
  all_goals
    rename_i seen
    exact of_lexeme seen rfl

theorem of_unaryOperator {operator : UnaryOperator}
    (seen : token.kind.unaryOperator? = some operator) : token.IsQuiet :=
  (by decide +kernel : ∀ kind ∈ Kind.all, kind.unaryOperator?.isSome = true →
    kind.isQuiet = true) _ (Kind.mem_all _) (by rw [seen]; rfl)

theorem of_accessorKind {kind : PropertyKind}
    (seen : Grammar.accessorKind? token.lexeme = some kind) : token.IsQuiet := by
  unfold Grammar.accessorKind? at seen
  split at seen
  any_goals contradiction
  all_goals
    rename_i word
    exact of_lexeme word rfl

theorem of_terminates {follower next : Token} {ending : List Token}
    (ends : follower.Terminates ending next) : ∀ token ∈ ending, token.IsQuiet := by
  cases ends with
  | semicolon mark => simpa using of_kind mark rfl
  | inserted => simp

theorem of_mayTerminate {follower next : Token} {ending : List Token}
    (ends : follower.MayTerminate ending next) : ∀ token ∈ ending, token.IsQuiet := by
  cases ends with
  | semicolon mark => simpa using of_kind mark rfl
  | none => simp

end IsQuiet

theorem level_of_isIdentifierName (named : token.kind.isIdentifierName = true) :
    token.kind.opens = false ∧ token.kind.closes = false :=
  (by decide +kernel : ∀ kind ∈ Kind.all, kind.isIdentifierName = true →
    kind.opens = false ∧ kind.closes = false) _ (Kind.mem_all _) named

theorem name?_of_isIn (seen : token.kind = .symbol BinaryOperator.isIn) : token.name? = some "in" := by
  unfold kind at seen
  unfold name?
  cases lexeme : token.lexeme with
  | symbol symbol =>
    rw [lexeme] at seen
    cases seen
    rfl
  | _ => simp [lexeme, Lexeme.kind] at seen

end Token

section Occurrences

variable {nodes others : List Node} {node : Node}

theorem OccursBelow.root : OccursBelow [node] node :=
  ⟨node, List.mem_singleton_self node, [], .root⟩

theorem OccursBelow.mono (within : nodes ⊆ others) (occurs : OccursBelow nodes node) :
    OccursBelow others node := by
  obtain ⟨root, member, path, occurs⟩ := occurs
  exact ⟨root, within member, path, occurs⟩

theorem OccursBelow.child {root child : Node} (occurs : OccursBelow [child] node)
    (member : child ∈ root.children) : OccursBelow [root] node := by
  obtain ⟨_, only, path, occurs⟩ := occurs
  rw [List.mem_singleton.mp only] at occurs
  exact ⟨root, List.mem_singleton_self root, _, occurs.of_child member⟩

theorem OccursBelow.parent {root : Node} (occurs : OccursBelow root.children node) :
    OccursBelow [root] node := by
  obtain ⟨child, member, path, occurs⟩ := occurs
  exact ⟨root, List.mem_singleton_self root, _, occurs.of_child member⟩

end Occurrences

/-- A word has its place among more nodes and more tokens too. -/
theorem UsesIn.widen {brackets : Nat} {nodes others : List Node} {front back : List Token}
    {token : Token} (uses : UsesIn brackets nodes front token back)
    (lifts : ∀ {node}, OccursBelow nodes node → OccursBelow others node)
    (before behind : List Token) :
    UsesIn brackets others (before ++ front) token (back ++ behind) := by
  cases uses with
  | operator occurs left right readsLeft readsRight =>
    exact .operator (lifts occurs) (left.trans (List.suffix_append _ _))
      (right.trans (List.prefix_append _ _)) readsLeft readsRight
  | name last period occurs =>
    refine .name ?_ period (lifts occurs)
    rw [List.getLast?_append, last, Option.some_or]
  | key inside occurs => exact .key inside (lifts occurs)
  | loop inside occurs left right readsLeft readsRight =>
    exact .loop inside (lifts occurs) (left.trans (List.suffix_append _ _))
      (right.trans (List.prefix_append _ _)) readsLeft readsRight

namespace Explains

variable {brackets : Nat} {nodes others : List Node} {node : Node} {token mark : Token}
  {tokens more left right : List Token}

theorem nil : Explains brackets nodes [] where
  balanced := .nil
  uses front token back whole := by simp at whole

theorem lift (explains : Explains brackets nodes tokens)
    (lifts : ∀ {node}, OccursBelow nodes node → OccursBelow others node) :
    Explains brackets others tokens where
  balanced := explains.balanced
  uses front token back whole seen := by
    have wider := (explains.uses front token back whole seen).widen lifts [] []
    rwa [List.nil_append, List.append_nil] at wider

/-- The children of a node explain its tokens. -/
theorem parent (explains : Explains brackets node.children tokens) :
    Explains brackets [node] tokens :=
  explains.lift OccursBelow.parent

/-- A child of a node explains tokens of the node. -/
theorem child {child : Node} (explains : Explains brackets [child] tokens)
    (member : child ∈ node.children) : Explains brackets [node] tokens :=
  explains.lift fun occurs => occurs.child member

theorem block {inner : Block}
    (explains : Explains brackets (inner.body.map .statement) tokens) :
    Explains brackets [.block inner] tokens :=
  .parent (show Explains brackets (Node.block inner).children tokens from explains)

/-- The words `in` on both sides of a token that is no bracket. -/
theorem beside (first : Explains brackets nodes left) (second : Explains brackets nodes right)
    (level : mark.kind.opens = false ∧ mark.kind.closes = false) {front back : List Token}
    (whole : left ++ mark :: right = front ++ token :: back)
    (seen : token.kind = .symbol BinaryOperator.isIn) (apart : front ≠ left) :
    UsesIn (bracketsAfter brackets front) nodes front token back := by
  rcases split_append whole with ⟨rest, rfl, rfl⟩ | ⟨others, rfl, same⟩
  · exact (first.uses front token rest rfl seen).widen id [] _
  rw [bracketsAfter_append, first.balanced.bracketsAfter_eq]
  rcases List.cons_eq_append_iff.mp same with ⟨rfl, _⟩ | ⟨others, rfl, behind⟩
  · exact absurd (List.append_nil left) apart
  · rw [bracketsAfter_cons, Token.nesting_of_level level.1 level.2, List.append_cons]
    have wider := (second.uses others token back behind seen).widen id (left ++ [mark]) []
    rwa [List.append_nil] at wider

/-- Tokens around one that is no bracket. -/
theorem joined (first : Explains brackets nodes left) (second : Explains brackets nodes right)
    (level : mark.kind.opens = false ∧ mark.kind.closes = false)
    (uses : mark.kind = .symbol BinaryOperator.isIn → UsesIn brackets nodes left mark right) :
    Explains brackets nodes (left ++ mark :: right) where
  balanced := first.balanced.append (.level level.1 level.2 second.balanced)
  uses front token back whole seen := by
    by_cases here : front = left
    · subst here
      obtain ⟨rfl, rfl⟩ := List.cons.inj (List.append_cancel_left whole)
      rw [first.balanced.bracketsAfter_eq]
      exact uses seen
    · exact first.beside second level whole seen here

/-- A token that is no bracket and not the word `in`. -/
theorem skip (quiet : token.IsQuiet) (rest : Explains brackets nodes tokens) :
    Explains brackets nodes (token :: tokens) :=
  nil.joined rest quiet.level fun seen => absurd seen quiet.ne_isIn

theorem append (first : Explains brackets nodes left) (second : Explains brackets others right) :
    Explains brackets (nodes ++ others) (left ++ right) where
  balanced := first.balanced.append second.balanced
  uses front token back whole seen := by
    rcases split_append whole with ⟨rest, rfl, rfl⟩ | ⟨more, rfl, rfl⟩
    · exact (first.uses front token rest rfl seen).widen
        (OccursBelow.mono (List.subset_append_left _ _)) [] _
    · rw [bracketsAfter_append, first.balanced.bracketsAfter_eq]
      have wider := (second.uses more token back rfl seen).widen
        (OccursBelow.mono (List.subset_append_right nodes _)) left []
      rwa [List.append_nil] at wider

/-- Tokens that are no brackets, behind others. -/
theorem after (explains : Explains brackets nodes tokens)
    (quiet : ∀ token ∈ more, token.IsQuiet) : Explains brackets nodes (tokens ++ more) := by
  have rest : Explains brackets [] more := by
    induction more with
    | nil => exact nil
    | cons token more ih =>
      obtain ⟨first, others⟩ := List.forall_mem_cons.mp quiet
      exact skip first (ih others)
  have whole := explains.append rest
  rwa [List.append_nil] at whole

/-- Tokens in brackets, and more behind them. -/
theorem enclosed_append {opening closing : Token} (pair : opening.Pair closing)
    (first : Explains (brackets + 1) nodes left) (second : Explains brackets others right) :
    Explains brackets (nodes ++ others) (opening :: (left ++ closing :: right)) where
  balanced := .enclosed pair first.balanced second.balanced
  uses front token back whole seen := by
    have notOpening : opening ≠ token := by
      rintro rfl
      have opens := pair.opens
      rw [seen] at opens
      cases opens
    have notClosing : closing ≠ token := by
      rintro rfl
      have closes := pair.closes
      rw [seen] at closes
      cases closes
    rcases List.cons_eq_append_iff.mp whole with ⟨rfl, same⟩ | ⟨front, rfl, same⟩
    · exact absurd (List.cons.inj same).1.symm notOpening
    rw [bracketsAfter_cons, Token.nesting_of_opens pair.opens]
    rcases split_append same with ⟨rest, rfl, rfl⟩ | ⟨more, rfl, same'⟩
    · exact (first.uses front token rest rfl seen).widen
        (OccursBelow.mono (List.subset_append_left _ _)) [opening] _
    rcases List.cons_eq_append_iff.mp same' with ⟨rfl, last⟩ | ⟨more, rfl, rfl⟩
    · exact absurd (List.cons.inj last).1.symm notClosing
    rw [bracketsAfter_append, first.balanced.bracketsAfter_eq, bracketsAfter_cons,
      Token.nesting_of_closes pair.closes, Nat.add_sub_cancel]
    have wider := (second.uses more token back rfl seen).widen
      (OccursBelow.mono (List.subset_append_right nodes _)) (opening :: (left ++ [closing])) []
    rw [List.append_nil, List.cons_append, List.append_assoc] at wider
    exact wider

theorem enclosed {opening closing : Token} (pair : opening.Pair closing)
    (inner : Explains (brackets + 1) nodes tokens) :
    Explains brackets nodes (opening :: (tokens ++ [closing])) := by
  have whole := inner.enclosed_append pair (nil : Explains brackets [] [])
  rwa [List.append_nil] at whole

end Explains

/-- The nodes of a phrase, a statement among them unless it may become a directive. -/
def Phrase.roots : Phrase → List Node
  | .statement (.expression value _ _) => [.expression value]
  | .statement part => [.statement part]
  | phrase => phrase.nodes

/-- The phrases that stand inside the braces of an object only. -/
def Phrase.isOfObject : Phrase → Bool
  | .property _ | .properties _ => true
  | _ => false

section Parts

open Token.IsQuiet

variable {brackets : Nat} {scope : Scope} {token next : Token} {tokens : List Token}

theorem Explains.statement {item : Statement}
    (explains : Explains brackets (Phrase.statement item).roots tokens) :
    Explains brackets [.statement item] tokens := by
  cases item with
  | expression => exact explains.parent
  | _ => exact explains

theorem Scope.Refers.isQuiet {name : Identifier} (refers : scope.Refers token name) :
    token.IsQuiet :=
  of_lexeme refers.1 rfl

theorem Scope.Refers.explains {name : Identifier} {node : Node} (refers : scope.Refers token name) :
    Explains brackets [node] [token] :=
  .skip refers.isQuiet .nil

theorem Scope.Binds.explains {name : Identifier} (binds : scope.Binds token name) :
    Explains brackets [.binding name] [token] :=
  binds.1.explains

theorem Scope.HasKey.explains {key : PropertyKey} (hasKey : scope.HasKey token key)
    (inside : 0 < brackets) : Explains brackets [.key key] [token] := by
  cases hasKey with
  | literal value kind =>
    rcases kind with seen | seen <;> exact .skip (of_kind seen rfl) .nil
  | name named =>
    refine Explains.nil.joined .nil (Token.level_of_isIdentifierName named) fun seen => ?_
    rw [Token.name?_of_isIn seen]
    exact .key inside .root

theorem Scope.HasBindings.explains {names : List Identifier}
    (bindings : scope.HasBindings names tokens) :
    Explains brackets (names.map .binding) tokens := by
  induction bindings with
  | one binds => exact binds.explains
  | more binds comma _ ih => exact binds.explains.append (.skip (of_kind comma rfl) ih)

theorem Scope.HasParameters.explains {names : List Identifier}
    (hasParameters : scope.HasParameters names tokens) :
    Explains brackets (names.map .binding) tokens := by
  cases hasParameters with
  | none opening closing => exact .enclosed (.parens opening closing) .nil
  | some opening bindings closing => exact .enclosed (.parens opening closing) bindings.explains

theorem Scope.HasFunctionName.explains {name : Option Identifier}
    (hasName : scope.HasFunctionName name tokens) :
    Explains brackets (name.toList.map .binding) tokens := by
  cases hasName with
  | none => exact .nil
  | some binds => exact binds.explains

theorem Scope.HasJumpLabel.explains {label : Option Identifier} {nodes : List Node}
    (hasLabel : scope.HasJumpLabel label tokens next) : Explains brackets nodes tokens := by
  cases hasLabel with
  | none => exact .nil
  | some refers => exact .skip refers.isQuiet .nil

end Parts

open Token.IsQuiet Grammar in
/-- Every word `in` in the tokens of a phrase has its place in the trees of its nodes. -/
theorem Reads.explains {scope : Scope} {phrase : Phrase} {tokens : List Token} {next : Token}
    (reads : Reads scope phrase tokens next) :
    ∀ brackets, (phrase.isOfObject = true → 0 < brackets) →
      Explains brackets phrase.roots tokens := by
  induction reads with
  | made _ ih => exact ih
  | this word => exact fun _ _ => .skip (of_kind word rfl) .nil
  | reference refers => exact fun _ _ => refers.explains
  | literal literal => exact fun _ _ => .skip (of_literal literal) .nil
  | parenthesized opening _ closing ih =>
    exact fun _ _ => .enclosed (.parens opening closing) (ih _ nofun)
  | array opening _ closing ih =>
    exact fun _ _ => .parent (.enclosed (.brackets opening closing) (ih _ nofun))
  | object opening _ closing ih =>
    exact fun _ _ => .parent (.enclosed (.braces opening closing) (ih _ fun _ => Nat.succ_pos _))
  | functionExpression word name _ ih =>
    exact fun _ _ => .parent (.skip (of_kind word rfl) (name.explains.append (ih _ nofun)))
  | newWithout word _ _ ih => exact fun _ _ => .parent (.skip (of_kind word rfl) (ih _ nofun))
  | newWith word _ _ _ callee arguments =>
    exact fun _ _ =>
      .parent (.skip (of_kind word rfl) ((callee _ nofun).append (arguments _ nofun)))
  | head _ _ ih => exact ih
  | @dot scope tokens point token next value withCalls _ isPoint named ih =>
    intro brackets _
    rw [List.append_cons]
    have quiet := of_kind isPoint rfl
    have holder : Explains brackets _ (_ ++ [point]) :=
      (ih brackets nofun).after (by simpa using quiet)
    refine (holder.child (.head _)).joined .nil (Token.level_of_isIdentifierName named) fun seen => ?_
    refine .name List.getLast?_concat isPoint ?_
    rw [Token.name?_of_isIn seen]
    exact OccursBelow.root.child (.tail _ (.head _))
  | index _ opening _ closing value property =>
    exact fun _ _ =>
      .parent ((value _ nofun).append (.enclosed (.brackets opening closing) (property _ nofun)))
  | call _ _ _ callee arguments =>
    exact fun _ _ => .parent ((callee _ nofun).append (arguments _ nofun))
  | noArguments opening closing => exact fun _ _ => .enclosed (.parens opening closing) .nil
  | arguments opening _ closing ih =>
    exact fun _ _ => .enclosed (.parens opening closing) (ih _ nofun)
  | operand _ ih => exact ih
  | updateBefore mark _ _ ih =>
    exact fun _ _ => .parent (.skip (of_kind (kind_of_updateOperator? mark) rfl) (ih _ nofun))
  | updateAfter _ mark _ _ ih =>
    have quiet := of_kind (kind_of_updateOperator? mark) rfl
    exact fun _ _ => .parent ((ih _ nofun).after (by simpa using quiet))
  | unary mark _ _ ih =>
    exact fun _ _ => .parent (.skip (of_unaryOperator mark) (ih _ nofun))
  | single _ _ ih => exact ih
  | @binary scope mark next leftTokens rightTokens left right operator tier readsLeft found _
      readsRight _ ihLeft ihRight =>
    intro brackets _
    have seen := kind_of_binaryOperator? found
    refine ((ihLeft brackets nofun).child (.head _)).joined
      ((ihRight brackets nofun).child (.tail _ (.head _))) (by rw [seen]; exact ⟨rfl, rfl⟩) ?_
    intro isIn
    rw [seen] at isIn
    cases isIn
    exact .operator .root (List.suffix_refl _) (List.prefix_refl _) readsLeft readsRight
  | operators _ ih => exact ih
  | assignment _ mark _ _ target value =>
    exact fun _ _ => .parent ((target _ nofun).append
      (.skip (of_kind (kind_of_assignmentOperator? mark) rfl) (value _ nofun)))
  | conditional _ question _ colon _ test consequent alternate =>
    exact fun _ _ => .parent ((test _ nofun).append (.skip (of_kind question rfl)
      ((consequent _ nofun).append (.skip (of_kind colon rfl) (alternate _ nofun)))))
  | alone _ ih => exact ih
  | sequence _ comma _ value values =>
    exact fun _ _ =>
      .parent ((value _ nofun).append (.skip (of_kind comma rfl) (values _ nofun)))
  | separatedOne _ _ ih => exact ih
  | separatedMore _ comma _ value values =>
    exact fun _ _ => (value _ nofun).append (.skip (of_kind comma rfl) (values _ nofun))
  | elementsNone => exact fun _ _ => .nil
  | elementsHole comma _ ih => exact fun _ _ => .skip (of_kind comma rfl) (ih _ nofun)
  | elementsLast _ _ ih => exact ih
  | elementsMore _ comma _ value elements =>
    exact fun _ _ => (value _ nofun).append (.skip (of_kind comma rfl) (elements _ nofun))
  | value hasKey colon _ ih =>
    exact fun _ inside =>
      .parent ((hasKey.explains (inside rfl)).append (.skip (of_kind colon rfl) (ih _ nofun)))
  | accessorFunction _ ih => exact fun _ _ => .parent (ih _ nofun)
  | accessor word hasKey _ _ ih =>
    exact fun _ inside =>
      .parent (.skip (of_accessorKind word) ((hasKey.explains (inside rfl)).append (ih _ nofun)))
  | propertiesNone => exact fun _ _ => .nil
  | propertiesLast _ _ ih => exact ih
  | propertiesMore _ comma _ property properties =>
    exact fun _ inside =>
      (property _ inside).append (.skip (of_kind comma rfl) (properties _ inside))
  | function hasParameters _ ih =>
    exact fun _ _ => hasParameters.explains.append (ih _ nofun).block
  | functionBody opening _ closing ih =>
    exact fun _ _ => .enclosed (.braces opening closing) (ih _ nofun)
  | directive _ _ _ ih => exact ih
  | @directed _ _ _ _ _ text value span _ _ _ _ directive statements =>
    intro brackets _
    have first : Explains brackets [.statement (.expression value (some text) span)] _ :=
      .parent (directive _ nofun)
    exact first.append (statements _ nofun)
  | undirected _ _ _ ih => exact ih
  | statementsNone => exact fun _ _ => .nil
  | statementsMore _ _ _ item statements =>
    exact fun _ _ => (item _ nofun).append (statements _ nofun)
  | functionDeclaration word binds _ ih =>
    exact fun _ _ => .parent (.skip (of_kind word rfl) (binds.explains.append (ih _ nofun)))
  | item _ _ _ ih => exact fun _ _ => (ih _ nofun).statement
  | empty mark => exact fun _ _ => .skip (of_kind mark rfl) .nil
  | blockStatement _ ih => exact fun _ _ => .parent (ih _ nofun)
  | block opening _ closing ih =>
    exact fun _ _ => .enclosed (.braces opening closing) (ih _ nofun)
  | expressionStatement _ _ _ ends ih => exact fun _ _ => (ih _ nofun).after (of_terminates ends)
  | variableStatement _ ends ih =>
    exact fun _ _ => .parent ((ih _ nofun).after (of_terminates ends))
  | declaration word _ ih => exact fun _ _ => .skip (of_kind word rfl) (ih _ nofun)
  | declaratorsOne _ _ ih => exact ih
  | declaratorsMore _ comma _ item items =>
    exact fun _ _ => (item _ nofun).append (.skip (of_kind comma rfl) (items _ nofun))
  | declared binds => exact fun _ _ => .parent binds.explains
  | initialized binds mark _ ih =>
    exact fun _ _ => .parent (binds.explains.append (.skip (of_kind mark rfl) (ih _ nofun)))
  | condition opening _ closing ih =>
    exact fun _ _ => .enclosed (.parens opening closing) (ih _ nofun)
  | ifWithout word _ _ _ _ test consequent =>
    exact fun _ _ =>
      .parent (.skip (of_kind word rfl) ((test _ nofun).append (consequent _ nofun).statement))
  | ifWith word _ _ _ elseWord _ test consequent alternate =>
    exact fun _ _ => .parent (.skip (of_kind word rfl) ((test _ nofun).append
      ((consequent _ nofun).statement.append
        (.skip (of_kind elseWord rfl) (alternate _ nofun).statement))))
  | whileLoop word _ _ _ test body =>
    exact fun _ _ =>
      .parent (.skip (of_kind word rfl) ((test _ nofun).append (body _ nofun).statement))
  | doWhileLoop word _ whileWord _ ends body test =>
    exact fun _ _ => .parent (.skip (of_kind word rfl) ((body _ nofun).statement.append
      (.skip (of_kind whileWord rfl) ((test _ nofun).after (of_mayTerminate ends)))))
  | headDeclaration _ ih => exact fun _ _ => .parent (ih _ nofun)
  | headExpression _ ih => exact ih
  | initNone => exact fun _ _ => .nil
  | initSome _ ih => exact ih
  | optionalNone => exact fun _ _ => .nil
  | optionalSome _ ih => exact ih
  | @forLoop scope word opening first second closing next initTokens testTokens updateTokens tokens
      init test update body isWord isOpening _ isFirst _ isSecond _ isClosing _ ihInit ihTest
      ihUpdate ihBody =>
    intro brackets _
    have inside := (ihInit (brackets + 1) nofun).append (.skip (of_kind isFirst rfl)
      ((ihTest _ nofun).append (.skip (of_kind isSecond rfl) (ihUpdate _ nofun))))
    have whole := inside.enclosed_append (.parens isOpening isClosing) (ihBody _ nofun).statement
    simp only [List.append_assoc, List.cons_append] at whole
    exact .parent (.skip (of_kind isWord rfl) whole)
  | @forInLoop scope word opening inWord closing next headTokens rightTokens tokens head right body
      isWord isOpening readsHead isIn _ readsRight isClosing _ ihHead ihRight ihBody =>
    intro brackets _
    let item : Statement := .forInLoop head right body (Token.cover
      (word :: opening :: (headTokens ++ inWord :: (rightTokens ++ closing :: tokens))))
    have left : Explains (brackets + 1) [.statement item] headTokens :=
      (ihHead _ nofun).child (.head _)
    have inside : Explains (brackets + 1) [.statement item] (headTokens ++ inWord :: rightTokens) :=
      left.joined ((ihRight _ nofun).child (.tail _ (.head _))) (by rw [isIn]; exact ⟨rfl, rfl⟩)
        fun _ => .loop (Nat.succ_pos _) .root (List.suffix_refl _) (List.prefix_refl _) readsHead
          readsRight
    have behind : Explains brackets [.statement item] tokens :=
      (ihBody _ nofun).statement.child (.tail _ (.tail _ (.head _)))
    have whole : Explains brackets [.statement item] _ :=
      (inside.enclosed_append (.parens isOpening isClosing) behind).lift (OccursBelow.mono (by simp))
    rw [List.append_assoc, List.cons_append] at whole
    exact .skip (of_kind isWord rfl) whole
  | continueTo word _ label ends | breakTo word _ label ends =>
    exact fun _ _ => .skip (of_kind word rfl) (label.explains.after (of_terminates ends))
  | returnNothing word _ _ ends =>
    exact fun _ _ => .skip (of_kind word rfl) (Explains.nil.after (of_terminates ends))
  | returnValue word _ _ _ _ ends ih | throwValue word _ _ _ ends ih =>
    exact fun _ _ => .parent (.skip (of_kind word rfl) ((ih _ nofun).after (of_terminates ends)))
  | withObject word _ _ _ _ object body =>
    exact fun _ _ =>
      .parent (.skip (of_kind word rfl) ((object _ nofun).append (body _ nofun).statement))
  | switch word _ opening _ closing discriminant clauses =>
    exact fun _ _ => .parent (.skip (of_kind word rfl) ((discriminant _ nofun).append
      (.enclosed (.braces opening closing) (clauses _ nofun))))
  | clausesNone => exact fun _ _ => .nil
  | clausesMore _ _ _ _ clause clauses =>
    exact fun _ _ => (clause _ nofun).append (clauses _ nofun)
  | caseClause word _ colon _ test statements =>
    exact fun _ _ => .parent (.skip (of_kind word rfl)
      ((test _ nofun).append (.skip (of_kind colon rfl) (statements _ nofun))))
  | defaultClause word colon _ ih =>
    exact fun _ _ =>
      .parent (.skip (of_kind word rfl) (.skip (of_kind colon rfl) (ih _ nofun)))
  | tryBlock word _ _ _ _ _ _ inner handler finalizer =>
    exact fun _ _ => .parent (.skip (of_kind word rfl)
      ((inner _ nofun).block.append ((handler _ nofun).append (finalizer _ nofun))))
  | handlerNone => exact fun _ _ => .nil
  | handlerSome word opening binds closing _ ih =>
    exact fun _ _ => .parent (.skip (of_kind word rfl)
      (.enclosed_append (.parens opening closing) binds.explains (ih _ nofun).block))
  | finalizerNone => exact fun _ _ => .nil
  | finalizerSome word _ ih => exact fun _ _ => .skip (of_kind word rfl) (ih _ nofun).block
  | debugger word ends =>
    exact fun _ _ => .skip (of_kind word rfl) (Explains.nil.after (of_terminates ends))
  | @labelled scope token colon next tokens label body refers isColon _ _ ih =>
    intro brackets _
    have name : Explains brackets [.label label] [token] := refers.explains
    exact .parent (name.append (.skip (of_kind isColon rfl) (ih _ nofun).statement))

end EcmaScript
