import EcmaScript.Proofs.ForHeads
import EcmaScript.Proofs.Shape

/-!
# The first tokens of statements

No expression statement begins with a brace, and none of those in a list of statements begins with
the word `function`, which begins a declaration there. A statement that stands alone, as a branch of
a condition or as the body of a loop, a `with` statement or a label, is another matter: it may begin
with `function`, and then it is an expression statement.
-/

namespace EcmaScript

/-- A node starts at a token of a kind. -/
def Node.StartsAt (node : Node) (kind : Kind) (tokens : List Token) : Prop :=
  ∃ token ∈ tokens, token.span.start = node.span.start ∧ token.kind = kind

/-- A statement is made of an expression. -/
def Statement.IsExpression (item : Statement) : Prop :=
  ∃ value text span, item = .expression value text span

/-- A statement at the end of a path stands alone inside another one: it is a branch of a condition,
or the body of a loop, a `with` statement or a label. -/
def Statement.StandsAlone (path : List Step) (item : Statement) : Prop :=
  ∃ outer above, path = ⟨.statement outer, .statement item⟩ :: above ∧ item ∈ outer.bodies

/-! ### First tokens -/

namespace Token

variable {opening first : Token} {tokens : List Token} {next : Token}

/-- Only a slash is read again, so what begins with no symbol of some kind is opened by none. -/
theorem Opens.kind_ne {symbol : Symbol} (opens : opening.Opens tokens next)
    (isFirst : first ∈ tokens.head?) (ne : opening.kind ≠ .symbol symbol) :
    first.kind ≠ .symbol symbol := by
  obtain ⟨others, rfl⟩ := List.head?_eq_some_iff.mp isFirst
  rcases opens with rfl | ⟨⟨_, _, isPattern⟩, _⟩
  · exact ne
  · rw [Token.kind, isPattern]
    nofun

theorem Between.eq_of_start {low high : Position} {other : Token}
    (between : Between low tokens high) (member : first ∈ tokens) (memberToo : other ∈ tokens)
    (same : first.span.start = other.span.start) : first = other := by
  induction between with
  | nil => contradiction
  | @cons low high token tokens _ wide rest ih =>
    have later {token : Token} (inside : token ∈ tokens) := (rest.of_mem inside).1
    rcases List.mem_cons.mp member with rfl | inside
    · rcases List.mem_cons.mp memberToo with rfl | insideToo
      · rfl
      · exact absurd (same ▸ later insideToo) (Position.not_le_of_lt wide)
    · rcases List.mem_cons.mp memberToo with rfl | insideToo
      · exact absurd (same ▸ later inside) (Position.not_le_of_lt wide)
      · exact ih inside insideToo

end Token

section Phrases

variable {scope : Scope} {item : Statement} {tokens : List Token} {first next : Token}

/-- An expression statement does not begin with a brace. -/
theorem Reads.head_ne_brace (reads : Reads scope (.statement item) tokens next)
    (isExpression : item.IsExpression) (isFirst : first ∈ tokens.head?) :
    first.kind ≠ .symbol Punctuator.leftBrace := by
  obtain ⟨value, text, span, rfl⟩ := isExpression
  cases reads with
  | expressionStatement opens notBrace inner _ =>
    rw [List.head?_append_of_ne_nil _ (inner.ne_nil rfl)] at isFirst
    exact opens.kind_ne isFirst notBrace

/-- What begins with `function` and is no item of a list is an expression statement. -/
theorem Reads.isExpression_of_function (reads : Reads scope (.statement item) tokens next)
    (isFirst : first ∈ tokens.head?) (word : first.kind = .symbol Keyword.functionWord) :
    item.IsExpression := by
  have other {token : Token} {rest : List Token} {kind : Kind}
      (isFirst : first ∈ (token :: rest).head?) (isOther : token.kind = kind)
      (ne : kind ≠ .symbol Keyword.functionWord) : item.IsExpression := by
    obtain rfl : token = first := Option.some.inj isFirst
    exact absurd (isOther.symm.trans word) ne
  cases reads with
  | expressionStatement => exact ⟨_, _, _, rfl⟩
  | blockStatement inner =>
    cases inner with
    | block brace => exact other isFirst brace nofun
  | variableStatement declaration =>
    cases declaration with
    | declaration isVar => exact other isFirst isVar nofun
  | labelled refers =>
    exact other isFirst (congrArg Lexeme.kind refers.1) nofun
  | empty word | ifWithout word | ifWith word | whileLoop word | doWhileLoop word | forLoop word
  | forInLoop word | continueTo word | breakTo word | returnNothing word | returnValue word
  | withObject word | switch word | throwValue word | tryBlock word | debugger word =>
    exact other isFirst word nofun

/-- An expression statement in a list does not begin with `function`. -/
theorem Reads.not_isExpression_of_function (reads : Reads scope (.item item) tokens next)
    (isFirst : first ∈ tokens.head?) (word : first.kind = .symbol Keyword.functionWord) :
    ¬item.IsExpression := by
  rintro ⟨value, text, span, rfl⟩
  cases reads with
  | item opens notFunction _ => exact opens.kind_ne isFirst notFunction word

/-- A directive is a statement that begins with a string. -/
theorem Reads.head_directive {text : String} {value : Expression} {span : Span}
    (reads : Reads scope (.directive text value span) tokens next)
    (isFirst : first ∈ tokens.head?) : first.kind = .stringLiteral := by
  obtain ⟨others, rfl⟩ := List.head?_eq_some_iff.mp isFirst
  cases reads with
  | directive isString opens _ =>
    have same := opens.eq_first fun symbol isSymbol => nomatch isString.symm.trans isSymbol
    rw [same]
    exact isString

/-- A statement is read as one of a list: as an item, or as a directive. -/
def Statement.IsListed (item : Statement) (scope : Scope) (tokens : List Token) (next : Token) :
    Prop :=
  Reads scope (.item item) tokens next ∨
    ∃ text value span, item = .expression value (some text) span ∧
      Reads scope (.directive text value span) tokens next

theorem Statement.IsListed.head_ne_brace (listed : item.IsListed scope tokens next)
    (isExpression : item.IsExpression) (isFirst : first ∈ tokens.head?) :
    first.kind ≠ .symbol Punctuator.leftBrace := by
  rcases listed with reads | ⟨text, value, span, rfl, reads⟩
  · obtain ⟨value, text, span, rfl⟩ := isExpression
    cases reads with
    | item _ _ reads => exact reads.head_ne_brace ⟨_, _, _, rfl⟩ isFirst
  · rw [reads.head_directive isFirst]
    nofun

theorem Statement.IsListed.not_isExpression (listed : item.IsListed scope tokens next)
    (isFirst : first ∈ tokens.head?) (word : first.kind = .symbol Keyword.functionWord) :
    ¬item.IsExpression := by
  rcases listed with reads | ⟨text, value, span, rfl, reads⟩
  · exact reads.not_isExpression_of_function isFirst word
  · rw [reads.head_directive isFirst] at word
    cases word

end Phrases

/-! ### Where a statement stands -/

section Positions

variable {scope : Scope} {tokens : List Token} {next : Token} {item : Statement}

theorem Reads.listed_of_statements {statements : List Statement}
    (reads : Reads scope (.statements statements) tokens next) (member : item ∈ statements) :
    ∃ scope piece follower, item.IsListed scope piece follower ∧ piece <:+: tokens := by
  generalize same : Phrase.statements statements = phrase at reads
  induction reads generalizing statements with
  | statementsNone =>
    cases same
    contradiction
  | statementsMore first _ _ _ ih =>
    cases same
    rcases List.mem_cons.mp member with rfl | later
    · exact ⟨_, _, _, .inl first, List.infix_append [] _ _⟩
    · obtain ⟨scope, piece, follower, listed, inside⟩ := ih later rfl
      exact ⟨scope, piece, follower, listed, inside.trans (List.suffix_append _ _).isInfix⟩
  | _ => cases same

theorem Reads.listed_of_body {statements : List Statement}
    (reads : Reads scope (.body statements) tokens next) (member : item ∈ statements) :
    ∃ scope piece follower, item.IsListed scope piece follower ∧ piece <:+: tokens := by
  generalize same : Phrase.body statements = phrase at reads
  induction reads generalizing statements with
  | directed directive _ _ _ ih =>
    cases same
    rcases List.mem_cons.mp member with rfl | later
    · exact ⟨_, _, _, .inr ⟨_, _, _, rfl, directive⟩, List.infix_append [] _ _⟩
    · obtain ⟨scope, piece, follower, listed, inside⟩ := ih later rfl
      exact ⟨scope, piece, follower, listed, inside.trans (List.suffix_append _ _).isInfix⟩
  | undirected _ _ statements =>
    cases same
    exact statements.listed_of_statements member
  | _ => cases same

/-- A statement inside another node stands alone, or it is one of a list. -/
theorem Node.IsRead.statement {parent : Node} (read : parent.IsRead scope tokens next)
    (member : .statement item ∈ parent.children) :
    ((∃ outer, parent = .statement outer ∧ item ∈ outer.bodies) ∧
        ∃ scope piece follower, Reads scope (.statement item) piece follower ∧ piece <:+: tokens) ∨
      ((¬∃ outer, parent = .statement outer ∧ item ∈ outer.bodies) ∧
        ∃ scope piece follower, item.IsListed scope piece follower ∧ piece <:+: tokens) := by
  have within {opening closing : Token} {inside : List Token}
      (listed : ∃ scope piece follower, item.IsListed scope piece follower ∧ piece <:+: inside) :
      ∃ scope piece follower, item.IsListed scope piece follower ∧
        piece <:+: opening :: (inside ++ [closing]) := by
    obtain ⟨scope, piece, follower, listed, part⟩ := listed
    exact ⟨scope, piece, follower, listed,
      List.infix_cons (part.trans (List.prefix_append _ _).isInfix)⟩
  cases parent with
  | statement outer =>
    rcases Statement.mem_children member with ⟨inner, rfl⟩ | alone
    · obtain ⟨item, listed, ⟨⟩⟩ := List.mem_map.mp member
      refine .inr ⟨?_, ?_⟩
      · rintro ⟨_, ⟨⟩, inside⟩
        exact List.not_mem_nil inside
      · have reads := Node.IsRead.reads_statement read nofun nofun
        cases reads with
        | blockStatement reads =>
          cases reads with
          | block _ statements => exact within (statements.listed_of_statements listed)
    · exact .inl ⟨⟨outer, rfl, alone⟩, read.statement_of_mem_bodies alone⟩
  | block inner =>
    obtain ⟨item, listed, ⟨⟩⟩ := List.mem_map.mp member
    refine .inr ⟨by rintro ⟨_, ⟨⟩, _⟩, ?_⟩
    rcases read with reads | reads
    · cases reads with
      | block _ statements => exact within (statements.listed_of_statements listed)
    · cases reads with
      | functionBody _ body => exact within (body.listed_of_body listed)
  | clause clause =>
    have listed : item ∈ clause.consequent := by simpa [Node.children] using member
    refine .inr ⟨by rintro ⟨_, ⟨⟩, _⟩, ?_⟩
    cases read with
    | caseClause _ _ _ statements =>
      obtain ⟨scope, piece, follower, listed, part⟩ := statements.listed_of_statements listed
      exact ⟨scope, piece, follower, listed, List.infix_cons
        ((List.infix_cons part).trans (List.suffix_append _ _).isInfix)⟩
    | defaultClause _ _ statements =>
      obtain ⟨scope, piece, follower, listed, part⟩ := statements.listed_of_statements listed
      exact ⟨scope, piece, follower, listed, List.infix_cons (List.infix_cons part)⟩
  | expression value => cases value <;> simp [Node.children, Expression.children] at member
  | _ => simp [Node.children] at member

end Positions

section Parse

variable {source : String} {options : Options} {program : Program} {after : State}
  {path : List Step} {item : Statement}

/-- A statement of an accepted text is read as one that stands alone, or as one of a list. -/
theorem State.exists_statement_of_parse
    (accepted : (ofSource source options).parse = (.ok program, after))
    (occurs : program.Occurs path (.statement item)) :
    (item.StandsAlone path ∧ ∃ scope piece follower,
        Reads scope (.statement item) piece follower ∧ piece <:+: after.consumed) ∨
      (¬item.StandsAlone path ∧ ∃ scope piece follower,
        item.IsListed scope piece follower ∧ piece <:+: after.consumed) := by
  obtain ⟨first, inBody, occurs⟩ := occurs
  cases occurs with
  | root =>
    right
    refine ⟨?_, (reads_of_parse accepted).listed_of_body inBody⟩
    rintro ⟨_, _, ⟨⟩, _⟩
  | @child above parent _ occursParent member =>
    obtain ⟨scope, tokens, next, _, _, read, part, _⟩ :=
      exists_read_of_parse accepted ⟨first, inBody, occursParent⟩
    rcases read.statement member with ⟨⟨outer, rfl, inside⟩, found⟩ | ⟨listed, found⟩
    · obtain ⟨scope, piece, follower, reads, partToo⟩ := found
      exact .inl ⟨⟨outer, above, rfl, inside⟩, scope, piece, follower, reads, partToo.trans part⟩
    · obtain ⟨scope, piece, follower, reads, partToo⟩ := found
      refine .inr ⟨?_, scope, piece, follower, reads, partToo.trans part⟩
      rintro ⟨outer, _, same, inside⟩
      exact listed ⟨outer, congrArg Step.parent (List.cons.inj same).1, inside⟩

/-- A statement of an accepted text starts at the first of its tokens and at no other token. -/
theorem State.head_of_startsAt (accepted : (ofSource source options).parse = (.ok program, after))
    {kind : Kind} (starts : (Node.statement item).StartsAt kind after.consumed) {scope : Scope}
    {piece : List Token} {follower : Token}
    (read : (Node.statement item).IsRead scope piece follower) (part : piece <:+: after.consumed) :
    ∃ first ∈ piece.head?, first.kind = kind := by
  obtain ⟨token, member, start, isKind⟩ := starts
  obtain ⟨first, others, rfl⟩ := List.exists_cons_of_ne_nil read.ne_nil
  have same : token.span.start = first.span.start := by
    rw [start, read.span]
    rfl
  have inside : first ∈ after.consumed := part.subset List.mem_cons_self
  obtain ⟨between, _⟩ := between_of_parse accepted
  obtain rfl := between.eq_of_start member inside same
  exact ⟨token, rfl, isKind⟩

/-- A statement that starts at a brace is no expression statement. -/
theorem State.not_isExpression_of_brace
    (accepted : (ofSource source options).parse = (.ok program, after))
    (occurs : program.Occurs path (.statement item))
    (starts : (Node.statement item).StartsAt (.symbol Punctuator.leftBrace) after.consumed) :
    ¬item.IsExpression := by
  intro isExpression
  rcases exists_statement_of_parse accepted occurs with
    ⟨_, _, _, _, reads, part⟩ | ⟨_, _, _, _, listed, part⟩
  · obtain ⟨first, isFirst, isBrace⟩ := head_of_startsAt accepted starts (.inl reads) part
    exact reads.head_ne_brace isExpression isFirst isBrace
  · obtain ⟨first, isFirst, isBrace⟩ := head_of_startsAt accepted starts (.inr listed) part
    exact listed.head_ne_brace isExpression isFirst isBrace

/-- A statement that starts at the word `function` is an expression statement where it stands alone,
and a declaration in a list. -/
theorem State.isExpression_iff_of_function
    (accepted : (ofSource source options).parse = (.ok program, after))
    (occurs : program.Occurs path (.statement item))
    (starts : (Node.statement item).StartsAt (.symbol Keyword.functionWord) after.consumed) :
    item.IsExpression ↔ item.StandsAlone path := by
  rcases exists_statement_of_parse accepted occurs with
    ⟨alone, _, _, _, reads, part⟩ | ⟨notAlone, _, _, _, listed, part⟩
  · obtain ⟨first, isFirst, isWord⟩ := head_of_startsAt accepted starts (.inl reads) part
    exact iff_of_true (reads.isExpression_of_function isFirst isWord) alone
  · obtain ⟨first, isFirst, isWord⟩ := head_of_startsAt accepted starts (.inr listed) part
    exact iff_of_false (listed.not_isExpression isFirst isWord) notAlone

/-- Where expression statements start. No expression statement of an accepted text starts at a
brace. A statement that starts at the word `function` is an expression statement just if it stands
alone, as a branch of a condition or as the body of a loop, a `with` statement or a label; one in a
list of statements is a declaration. -/
theorem State.starts_of_parse (accepted : (ofSource source options).parse = (.ok program, after)) :
    (∀ path item, program.Occurs path (.statement item) → item.IsExpression →
      ¬(Node.statement item).StartsAt (.symbol Punctuator.leftBrace) after.consumed) ∧
    ∀ path item, program.Occurs path (.statement item) →
      (Node.statement item).StartsAt (.symbol Keyword.functionWord) after.consumed →
      (item.IsExpression ↔ item.StandsAlone path) :=
  ⟨fun _ _ occurs isExpression starts =>
      not_isExpression_of_brace accepted occurs starts isExpression,
    fun _ _ occurs starts => isExpression_iff_of_function accepted occurs starts⟩

/-- A declaration starts at the word `function`, and is no expression statement. -/
theorem starts_of_declaration :
    ∃ program after item, (State.ofSource "function f() {}" {}).parse = (.ok program, after) ∧
      program.Occurs [] (.statement item) ∧
      (Node.statement item).StartsAt (.symbol Keyword.functionWord) after.consumed ∧
      ¬item.IsExpression := by
  obtain ⟨program, accepted⟩ :=
    exists_of_toBool (by decide +kernel : (parse "function f() {}" {}).toBool = true)
  obtain ⟨after, accepted⟩ := exists_of_parse accepted
  have check : ((State.ofSource "function f() {}" {}).parse.1.toOption.bind
      fun program => program.body.head?).any (fun item =>
        (State.ofSource "function f() {}" {}).parse.2.consumed.any fun token =>
          token.span.start = item.span.start ∧ token.kind = .symbol Keyword.functionWord) =
      true := by
    decide +kernel
  rw [accepted, Option.any_eq_true] at check
  obtain ⟨item, first, found⟩ := check
  obtain ⟨token, member, same⟩ := List.any_eq_true.mp found
  obtain ⟨others, body⟩ : ∃ others, program.body = item :: others :=
    List.head?_eq_some_iff.mp first
  have occurs : program.Occurs [] (.statement item) := ⟨item, body ▸ List.mem_cons_self, .root⟩
  have starts : (Node.statement item).StartsAt (.symbol Keyword.functionWord) after.consumed :=
    ⟨token, member, of_decide_eq_true same⟩
  refine ⟨program, after, item, accepted, occurs, starts, fun isExpression => ?_⟩
  obtain ⟨_, _, ⟨⟩, _⟩ := ((State.starts_of_parse accepted).2 [] item occurs starts).mp isExpression

/-- An expression statement that starts at the word `function`, as the branch of a condition. -/
theorem isExpression_of_branch :
    ∃ program after path item,
      (State.ofSource "if (a) function f() {}" {}).parse = (.ok program, after) ∧
        program.Occurs path (.statement item) ∧ item.IsExpression ∧
        (Node.statement item).StartsAt (.symbol Keyword.functionWord) after.consumed := by
  obtain ⟨program, accepted⟩ :=
    exists_of_toBool (by decide +kernel : (parse "if (a) function f() {}" {}).toBool = true)
  obtain ⟨after, accepted⟩ := exists_of_parse accepted
  have check : ((State.ofSource "if (a) function f() {}" {}).parse.1.toOption.bind
      fun program => program.body.head?).any (fun outer =>
        outer.bodies.any fun item =>
          (State.ofSource "if (a) function f() {}" {}).parse.2.consumed.any fun token =>
            token.span.start = item.span.start ∧ token.kind = .symbol Keyword.functionWord) =
      true := by
    decide +kernel
  rw [accepted, Option.any_eq_true] at check
  obtain ⟨outer, first, found⟩ := check
  obtain ⟨item, alone, found⟩ := List.any_eq_true.mp found
  obtain ⟨token, member, same⟩ := List.any_eq_true.mp found
  obtain ⟨others, body⟩ : ∃ others, program.body = outer :: others :=
    List.head?_eq_some_iff.mp first
  have inside : Node.statement item ∈ (Node.statement outer).children :=
    Statement.mem_children_of_bodies alone
  have occurs : program.Occurs [⟨.statement outer, .statement item⟩] (.statement item) :=
    ⟨outer, body ▸ List.mem_cons_self, .child .root inside⟩
  have starts : (Node.statement item).StartsAt (.symbol Keyword.functionWord) after.consumed :=
    ⟨token, member, of_decide_eq_true same⟩
  have isExpression := (State.isExpression_iff_of_function accepted occurs starts).mpr
    ⟨outer, [], rfl, alone⟩
  exact ⟨program, after, _, item, accepted, occurs, isExpression, starts⟩

end Parse

end EcmaScript
