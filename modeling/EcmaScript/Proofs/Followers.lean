import EcmaScript.Proofs.InOperator

/-!
# What is behind the text of a node

A node that is read from a piece of some tokens sees one more token, and that is the one behind the
piece: as it was first read, if it is a slash that begins a regular expression. So what a rule asks
of the token after a phrase is known of the text behind the phrase, however deep in a tree it is.
-/

namespace EcmaScript

namespace Token

variable {follower next : Token} {ending : List Token}

theorem Terminates.opens (ends : follower.Terminates ending next) :
    follower.Opens ending next := by
  cases ends with
  | semicolon => exact .self ..
  | inserted => exact rfl

theorem MayTerminate.opens (ends : follower.MayTerminate ending next) :
    follower.Opens ending next := by
  cases ends with
  | semicolon => exact .self ..
  | none => exact rfl

/-- Something is next in front of any tokens. -/
theorem exists_opens (tokens : List Token) (next : Token) :
    ∃ follower : Token, follower.Opens tokens next := by
  cases tokens with
  | nil => exact ⟨next, rfl⟩
  | cons first => exact ⟨first, .self ..⟩

end Token

/-- A node is read from a piece of some tokens, and the token that is next there is the first of
those behind the piece, or the one after all of them. -/
def Node.IsReadAmong (tokens : List Token) (next : Token) (node : Node) : Prop :=
  ∃ scope front piece back follower, tokens = front ++ (piece ++ back) ∧
    node.IsRead scope piece follower ∧ follower.Opens back next

/-- Whatever occurs below some nodes is read from a piece of some tokens. -/
def Locates (nodes : List Node) (tokens : List Token) (next : Token) : Prop :=
  ∀ node, OccursBelow nodes node → node.IsReadAmong tokens next

namespace Locates

variable {scope : Scope} {node : Node} {nodes others : List Node} {tokens more : List Token}
  {follower next : Token}

theorem nil : Locates [] tokens next := by
  rintro node ⟨_, member, _⟩
  cases member

/-- Tokens in front of some nodes. -/
theorem before (gap : List Token) (locates : Locates nodes tokens next) :
    Locates nodes (gap ++ tokens) next := by
  intro node occurs
  obtain ⟨scope, front, piece, back, last, rfl, read, opens⟩ := locates node occurs
  exact ⟨scope, gap ++ front, piece, back, last, (List.append_assoc ..).symm, read, opens⟩

theorem skip (token : Token) (locates : Locates nodes tokens next) :
    Locates nodes (token :: tokens) next :=
  locates.before [token]

/-- Tokens behind some nodes. -/
theorem after (locates : Locates nodes tokens follower) (opens : follower.Opens more next) :
    Locates nodes (tokens ++ more) next := by
  intro node occurs
  obtain ⟨scope, front, piece, back, last, rfl, read, behind⟩ := locates node occurs
  refine ⟨scope, front, piece, back ++ more, last, ?_, read, behind.append opens⟩
  rw [List.append_assoc, List.append_assoc]

theorem append (left : Locates nodes tokens follower) (opens : follower.Opens more next)
    (right : Locates others more next) : Locates (nodes ++ others) (tokens ++ more) next := by
  rintro node ⟨root, member, occurs⟩
  rcases List.mem_append.mp member with member | member
  · exact left.after opens node ⟨root, member, occurs⟩
  · exact right.before tokens node ⟨root, member, occurs⟩

/-- A token that is next for the nodes in front of it. -/
theorem joined {mark : Token} (left : Locates nodes tokens mark)
    (right : Locates others more next) :
    Locates (nodes ++ others) (tokens ++ mark :: more) next :=
  left.append (.self ..) (right.skip mark)

/-- Nodes that are read in the same way in front of anything. -/
theorem beside (left : ∀ follower, Locates nodes tokens follower)
    (right : Locates others more next) : Locates (nodes ++ others) (tokens ++ more) next := by
  -- Names ask for nothing of the token after them, so that any one that is next there will do.
  obtain ⟨follower, opens⟩ := Token.exists_opens more next
  exact (left follower).append opens right

theorem enclosed {closing : Token} (opening next : Token) (locates : Locates nodes tokens closing) :
    Locates nodes (opening :: (tokens ++ [closing])) next :=
  (locates.after (.self ..)).skip opening

/-- A node is read from all of the tokens, and what is below it from pieces of them. -/
theorem parent (read : node.IsRead scope tokens next)
    (children : Locates node.children tokens next) : Locates [node] tokens next := by
  rintro other ⟨root, member, path, occurs⟩
  obtain rfl := List.mem_singleton.mp member
  rcases occurs.cases_root with ⟨_, rfl⟩ | ⟨child, isChild, below, deeper, _⟩
  · exact ⟨scope, [], tokens, [], next, (List.append_nil tokens).symm, read, rfl⟩
  · exact children other ⟨child, isChild, below, deeper⟩

theorem statement {item : Statement} (reads : Reads scope (.statement item) tokens next)
    (children : Locates item.children tokens next) : Locates [.statement item] tokens next :=
  .parent (.inl reads) children

theorem directive {text : String} {value : Expression} {span : Span}
    (reads : Reads scope (.directive text value span) tokens next)
    (child : Locates [.expression value] tokens next) :
    Locates [.statement (.expression value (some text) span)] tokens next :=
  .parent (.inr (.inr ⟨text, value, span, rfl, reads⟩)) child

theorem block {inner : Block} (reads : Reads scope (.block inner) tokens next)
    (statements : Locates (inner.body.map .statement) tokens next) :
    Locates [.block inner] tokens next :=
  .parent (.inl reads) statements

theorem functionBody {inner : Block} (reads : Reads scope (.functionBody inner) tokens next)
    (statements : Locates (inner.body.map .statement) tokens next) :
    Locates [.block inner] tokens next :=
  .parent (.inr reads) statements

end Locates

section Parts

variable {scope : Scope} {token : Token} {tokens : List Token}

theorem Scope.Binds.locates {name : Identifier} (binds : scope.Binds token name) (next : Token) :
    Locates [.binding name] [token] next := by
  have read : (Node.binding name).IsRead scope [token] next := ⟨token, rfl, binds⟩
  exact .parent read .nil

theorem Scope.Refers.locates_label {name : Identifier} (refers : scope.Refers token name)
    (next : Token) : Locates [.label name] [token] next := by
  have read : (Node.label name).IsRead scope [token] next := ⟨token, rfl, refers⟩
  exact .parent read .nil

theorem Scope.HasKey.locates {key : PropertyKey} (hasKey : scope.HasKey token key) (next : Token) :
    Locates [.key key] [token] next := by
  have read : (Node.key key).IsRead scope [token] next := ⟨token, rfl, hasKey⟩
  exact .parent read .nil

theorem Scope.HasBindings.locates {names : List Identifier}
    (bindings : scope.HasBindings names tokens) (next : Token) :
    Locates (names.map .binding) tokens next := by
  induction bindings with
  | one binds => exact binds.locates next
  | more binds _ _ ih => exact (binds.locates _).joined ih

theorem Scope.HasParameters.locates {names : List Identifier}
    (hasParameters : scope.HasParameters names tokens) (next : Token) :
    Locates (names.map .binding) tokens next := by
  cases hasParameters with
  | none => exact .nil
  | some _ bindings => exact (bindings.locates _).enclosed _ _

theorem Scope.HasFunctionName.locates {name : Option Identifier}
    (hasName : scope.HasFunctionName name tokens) (next : Token) :
    Locates (name.toList.map .binding) tokens next := by
  cases hasName with
  | none => exact .nil
  | some binds => exact binds.locates next

theorem Scope.HasJumpLabel.locates {label : Option Identifier} {next : Token}
    (hasLabel : scope.HasJumpLabel label tokens next) :
    Locates (label.toList.map .label) tokens next := by
  cases hasLabel with
  | none => exact .nil
  | some refers => exact refers.locates_label next

end Parts

open Locates in
/-- Whatever occurs below what is read by the rules is read from a piece of its tokens, and sees
what is behind the piece. -/
theorem Reads.locates {scope : Scope} {phrase : Phrase} {tokens : List Token} {next : Token}
    (reads : Reads scope phrase tokens next) : Locates phrase.nodes tokens next := by
  induction reads with
  | made _ ih => exact ih
  | @this scope word next isThis =>
    have read : (Node.expression (.thisValue word.span)).IsRead scope [word] next :=
      ⟨_, .this isThis⟩
    exact .parent read .nil
  | reference refers => exact .parent ⟨_, .reference refers⟩ .nil
  | literal literal allowed => exact .parent ⟨_, .literal literal allowed⟩ .nil
  | parenthesized _ _ _ ih => exact ih.enclosed _ _
  | array opening reads closing ih =>
    exact .parent ⟨_, .array opening reads closing⟩ (ih.enclosed _ _)
  | object opening reads closing ih =>
    exact .parent ⟨_, .object opening reads closing⟩ (ih.enclosed _ _)
  | functionExpression word name reads ih =>
    exact .parent ⟨_, .functionExpression word name reads⟩ ((beside name.locates ih).skip _)
  | newWithout word reads noArguments ih =>
    exact .parent ⟨_, .newWithout word reads noArguments⟩ (ih.skip _)
  | newWith word reads opens readsArguments callee arguments =>
    exact .parent ⟨_, .newWith word reads opens readsArguments⟩
      ((callee.append opens arguments).skip _)
  | head _ _ ih => exact ih
  | @dot scope tokens point token next value withCalls reads isPoint named ih =>
    have read : (Node.name ⟨token.name?.getD "", token.span⟩).IsRead scope [token] next :=
      ⟨token, rfl, named, rfl⟩
    exact .parent ⟨_, .dot reads isPoint named⟩ (ih.joined (.parent read .nil))
  | index reads opening readsProperty closing value property =>
    exact .parent ⟨_, .index reads opening readsProperty closing⟩
      (value.append (.self ..) (property.enclosed _ _))
  | call reads opens readsArguments callee arguments =>
    exact .parent ⟨_, .call reads opens readsArguments⟩ (callee.append opens arguments)
  | noArguments => exact .nil
  | arguments _ _ _ ih => exact ih.enclosed _ _
  | operand _ ih => exact ih
  | updateBefore mark reads allowed ih =>
    exact .parent ⟨_, .updateBefore mark reads allowed⟩ (ih.skip _)
  | updateAfter reads mark sameLine allowed ih =>
    exact .parent ⟨_, .updateAfter reads mark sameLine allowed⟩ (ih.after (.self ..))
  | unary mark reads allowed ih => exact .parent ⟨_, .unary mark reads allowed⟩ (ih.skip _)
  | single _ _ ih => exact ih
  | binary readsLeft mark allowed readsRight tier left right =>
    exact .parent ⟨_, .binary readsLeft mark allowed readsRight tier⟩ (left.joined right)
  | operators _ ih => exact ih
  | assignment readsTarget mark allowed readsValue target value =>
    exact .parent ⟨_, .assignment readsTarget mark allowed readsValue⟩ (target.joined value)
  | conditional readsTest question readsConsequent colon readsAlternate test consequent alternate =>
    exact .parent ⟨_, .conditional readsTest question readsConsequent colon readsAlternate⟩
      (test.joined (consequent.joined alternate))
  | alone _ ih => exact ih
  | sequence reads comma readsOthers value values =>
    exact .parent ⟨_, .sequence reads comma readsOthers⟩ (value.joined values)
  | separatedOne _ _ ih => exact ih
  | separatedMore _ _ _ value values => exact value.joined values
  | elementsNone => exact .nil
  | elementsHole _ _ ih => exact ih.skip _
  | elementsLast _ _ ih => exact ih
  | elementsMore _ _ _ value elements => exact value.joined elements
  | value hasKey colon reads ih =>
    exact .parent (.value hasKey colon reads) ((hasKey.locates _).joined ih)
  | accessorFunction reads ih => exact .parent ⟨_, .accessorFunction reads⟩ ih
  | accessor word hasKey reads length ih =>
    exact .parent (.accessor word hasKey reads length) ((beside hasKey.locates ih).skip _)
  | propertiesNone => exact .nil
  | propertiesLast _ _ ih => exact ih
  | propertiesMore _ _ _ property properties => exact property.joined properties
  | function hasParameters reads ih => exact beside hasParameters.locates (.functionBody reads ih)
  | functionBody _ _ _ ih => exact ih.enclosed _ _
  | directive _ _ _ ih => exact ih
  | directed reads opens _ directive statements =>
    exact (Locates.directive reads directive).append opens statements
  | undirected _ _ _ ih => exact ih
  | statementsNone => exact .nil
  | statementsMore _ opens _ item statements => exact item.append opens statements
  | functionDeclaration word binds reads ih =>
    exact .parent (.inr (.inl (.functionDeclaration word binds reads)))
      ((beside binds.locates ih).skip _)
  | item _ _ reads ih => exact .statement reads ih
  | empty => exact .nil
  | blockStatement _ ih => exact ih
  | block _ _ _ ih => exact ih.enclosed _ _
  | expressionStatement _ _ _ ends ih => exact ih.after ends.opens
  | variableStatement _ ends ih => exact ih.after ends.opens
  | declaration _ _ ih => exact ih.skip _
  | declaratorsOne _ _ ih => exact ih
  | declaratorsMore _ _ _ item items => exact item.joined items
  | declared binds notValue => exact .parent (.declared binds notValue) (binds.locates _)
  | initialized binds mark reads ih =>
    exact .parent (.initialized binds mark reads) ((binds.locates _).joined ih)
  | condition _ _ _ ih => exact ih.enclosed _ _
  | ifWithout _ _ opens reads _ test consequent =>
    exact (test.append opens (.statement reads consequent)).skip _
  | ifWith _ _ opens reads _ readsOther test consequent alternate =>
    have others := (consequent.statement reads).joined (.statement readsOther alternate)
    exact (test.append (opens.append (.self ..)) others).skip _
  | whileLoop _ _ opens reads test body => exact (test.append opens (.statement reads body)).skip _
  | doWhileLoop _ reads _ _ ends body test =>
    exact ((body.statement reads).joined (test.after ends.opens)).skip _
  | headDeclaration reads ih => exact .parent reads ih
  | headExpression _ ih => exact ih
  | initNone => exact .nil
  | initSome _ ih => exact ih
  | optionalNone => exact .nil
  | optionalSome _ ih => exact ih
  | forLoop _ _ _ _ _ _ _ _ reads init test update body =>
    exact (init.joined (test.joined (update.joined (body.statement reads)))).before [_, _]
  | forInLoop _ _ _ _ _ _ _ reads head right body =>
    exact (head.joined (right.joined (body.statement reads))).before [_, _]
  | continueTo _ _ label ends | breakTo _ _ label ends =>
    exact (label.locates.after ends.opens).skip _
  | returnNothing | debugger => exact .nil
  | returnValue _ _ _ _ _ ends ih | throwValue _ _ _ _ ends ih =>
    exact (ih.after ends.opens).skip _
  | withObject _ _ _ opens reads object body =>
    exact (object.append opens (.statement reads body)).skip _
  | switch _ _ _ _ _ discriminant clauses =>
    exact (discriminant.append (.self ..) (clauses.enclosed _ _)).skip _
  | clausesNone => exact .nil
  | clausesMore _ _ opens _ clause clauses => exact clause.append opens clauses
  | caseClause word readsTest colon reads test statements =>
    exact .parent (.caseClause word readsTest colon reads) ((test.joined statements).skip _)
  | defaultClause word colon reads ih =>
    exact .parent (.defaultClause word colon reads) (ih.before [_, _])
  | tryBlock _ reads first _ second _ _ inner handler finalizer =>
    have others := handler.append second finalizer
    exact ((Locates.block reads inner).append (first.append second) others).skip _
  | handlerNone => exact .nil
  | handlerSome word opening binds closing reads ih =>
    exact .parent (.handlerSome word opening binds closing reads)
      (((binds.locates _).joined (.block reads ih)).before [_, _])
  | finalizerNone => exact .nil
  | finalizerSome _ reads ih => exact (Locates.block reads ih).skip _
  | labelled refers _ _ reads ih =>
    exact (refers.locates_label _).joined (.statement reads ih)

end EcmaScript
