import EcmaScript.Proofs.Precedence
import EcmaScript.Proofs.Sessions
import EcmaScript.Proofs.Shape

/-!
# Directives

The directives of a body are the statements at its beginning that are strings and nothing else. A
string in parentheses is none: it begins behind its statement. So the tree of a body, with the
places of its nodes, tells which of its statements are directives, and what they say.

A body is that of the script or of a function. The statements of other blocks are read by a rule
that marks none of them as a directive.
-/

namespace EcmaScript

/-- The source text of the string that a statement is, if the string is not in parentheses. -/
def Statement.rawString? : Statement → Option String
  | .expression (.literal (.string _) raw place) _ span =>
    if place.start = span.start then some raw else none
  | _ => none

/-- How many statements at the beginning of a body are strings. -/
def Statement.countStrings (body : List Statement) : Nat :=
  (body.takeWhile (·.rawString?.isSome)).length

/-- The directives of a body are the strings at its beginning, each with the text between its
quotes. -/
def Statement.HaveDirectives (body : List Statement) : Prop :=
  ∀ index statement, body[index]? = some statement →
    statement.directive? =
      if index < countStrings body then statement.rawString?.map Grammar.insideQuotes else none

namespace Statement.HaveDirectives

variable {first : Statement} {body : List Statement}

/-- There are no directives in a body that does not begin with a string. -/
theorem of_head (other : ∀ first ∈ body.head?, first.rawString? = none)
    (unmarked : ∀ statement ∈ body, statement.directive? = none) : HaveDirectives body := by
  have count : countStrings body = 0 := by
    cases body with
    | nil => rfl
    | cons first body => simp [countStrings, other first rfl]
  intro index statement found
  rw [count, if_neg (Nat.not_lt_zero index)]
  exact unmarked statement (List.mem_of_getElem? found)

/-- One more string in front of a body is one more directive. -/
theorem cons {raw : String} (string : first.rawString? = some raw)
    (marked : first.directive? = some (Grammar.insideQuotes raw)) (others : HaveDirectives body) :
    HaveDirectives (first :: body) := by
  have count : countStrings (first :: body) = countStrings body + 1 := by
    simp [countStrings, string]
  intro index statement found
  rw [count]
  cases index with
  | zero =>
    cases found
    rw [if_pos (Nat.zero_lt_succ _), string, marked]
    rfl
  | succ index => simpa using others index statement found

end Statement.HaveDirectives

variable {scope : Scope} {tokens : List Token} {next : Token}

/-! ### Strings and their tokens -/

/-- A string that is a literal has the value of that literal. -/
theorem Lexeme.eq_string_of_literal {lexeme : Lexeme} {value : String}
    (isLiteral : lexeme.literal? = some (.string value)) : lexeme = .string value := by
  unfold literal? at isLiteral
  split at isLiteral <;> simp_all

/-- A string is the first of the tokens that it begins. -/
theorem Token.Opens.exists_cons {opening : Token} (opens : opening.Opens tokens next)
    (some : tokens ≠ []) (string : opening.kind = .stringLiteral) :
    ∃ others, tokens = opening :: others := by
  cases tokens with
  | nil => exact absurd rfl some
  | cons first others => exact ⟨others, by rw [opens.eq_first (by simp [string])]⟩

/-- Tokens that begin with a string are opened by that string. -/
theorem Token.Opens.eq_of_string {opening first : Token} {others : List Token}
    (opens : opening.Opens (first :: others) next) (string : first.kind = .stringLiteral) :
    first = opening := by
  rcases opens with same | ⟨⟨pattern, flags, isPattern⟩, -⟩
  · exact same
  · rw [Token.kind, isPattern] at string
    cases string

/-- A literal that begins with the token of a string is that token. -/
theorem Reads.literal_of_string {opening : Token} {value : Literal} {raw : String} {span : Span}
    (reads : Reads scope (.fits .expression (.literal value raw span)) tokens next)
    (opens : tokens.head? = some opening) (string : opening.kind = .stringLiteral) :
    opening.lexeme.literal? = some value ∧ raw = opening.text ∧ scope.AllowsLiteral opening := by
  rcases reads.cases_fits with ⟨_, made⟩ | ⟨paren, inside, closing, rfl, isParen, -⟩
  · cases made with
    | literal isLiteral allowed =>
      cases opens
      exact ⟨isLiteral, rfl, allowed⟩
  · cases opens
    rw [string] at isParen
    cases isParen

/-- The literal of a directive is the string that the directive begins with. -/
theorem Reads.literal_of_directive {opening : Token} {value : Literal} {raw : String}
    {span whole : Span}
    (reads : Reads scope (.statement (.expression (.literal value raw span) none whole)) tokens
      next)
    (string : opening.kind = .stringLiteral) (opens : opening.Opens tokens next) :
    opening ∈ tokens ∧ opening.lexeme.literal? = some value ∧ raw = opening.text ∧
      scope.AllowsLiteral opening := by
  obtain ⟨others, first⟩ := opens.exists_cons (reads.ne_nil rfl) string
  refine ⟨first ▸ List.mem_cons_self, ?_⟩
  cases reads with
  | expressionStatement _ _ inner _ =>
    refine inner.literal_of_string ?_ string
    rw [← List.head?_append_of_ne_nil _ (inner.ne_nil rfl), first]
    rfl

/-- A literal that begins where its tokens do is the only one of them. -/
theorem Reads.exists_token_of_literal {value : Literal} {raw : String} {place : Span}
    {low high : Position}
    (reads : Reads scope (.fits .expression (.literal value raw place)) tokens next)
    (between : Token.Between low tokens high) (first : place.start = (Token.cover tokens).start) :
    ∃ token, tokens = [token] ∧ token.lexeme.literal? = some value ∧ place = token.span := by
  rcases reads.cases_fits with ⟨_, made⟩ | ⟨opening, inside, closing, rfl, -, -, inner⟩
  · cases made with
    | @literal _ token _ _ isLiteral => exact ⟨token, rfl, isLiteral, rfl⟩
  · obtain ⟨behind, -⟩ := inner.within_parentheses between
    exact absurd first (Position.ne_of_gt behind)

/-! ### Bodies -/

/-- What is read as a directive is a string. -/
theorem Reads.rawString_of_directive {text : String} {value : Expression} {span : Span}
    (reads : Reads scope (.directive text value span) tokens next) :
    ∃ raw, (Statement.expression value (some text) span).rawString? = some raw ∧
      text = Grammar.insideQuotes raw := by
  cases reads with
  | @directive _ opening _ _ _ raw _ string opens reads =>
    obtain ⟨-, -, rfl, -⟩ := reads.literal_of_directive string opens
    obtain ⟨others, rfl⟩ := opens.exists_cons (reads.ne_nil rfl) string
    refine ⟨opening.text, if_pos ?_, rfl⟩
    exact (congrArg Span.start reads.span_statement).symm

/-- A statement that is a string is a directive when the statements before it are. -/
theorem Reads.directive_of_rawString {item : Statement} {raw : String} {low high : Position}
    (reads : Reads scope (.statement item) tokens next) (between : Token.Between low tokens high)
    (string : item.rawString? = some raw) :
    ∃ first others, tokens = first :: others ∧ first.kind = .stringLiteral ∧
      Grammar.directive? first item ≠ none := by
  unfold Statement.rawString? at string
  split at string
  · rename_i value raw place text span
    split at string
    · rename_i begins
      cases reads with
      | @expressionStatement _ _ _ _ tokens ending _ _ _ inner =>
        obtain ⟨_, front, _⟩ := between.split
        rw [Token.start_cover_append (inner.ne_nil rfl)] at begins
        obtain ⟨first, rfl, isLiteral, rfl⟩ := inner.exists_token_of_literal front begins
        refine ⟨first, ending, rfl, ?_, ?_⟩
        · rw [Token.kind, Lexeme.eq_string_of_literal isLiteral]
          rfl
        · rw [Grammar.directive?, if_pos rfl]
          exact Option.some_ne_none _
    · cases string
  · cases string

/-- The same of the first statement of a list. -/
theorem Reads.directive_of_head {statements : List Statement} {first : Statement} {raw : String}
    {low high : Position} (reads : Reads scope (.statements statements) tokens next)
    (between : Token.Between low tokens high) (isFirst : first ∈ statements.head?)
    (string : first.rawString? = some raw) :
    ∃ token others, tokens = token :: others ∧ token.kind = .stringLiteral ∧
      Grammar.directive? token first ≠ none := by
  cases reads with
  | statementsNone => cases isFirst
  | statementsMore item =>
    cases isFirst
    obtain ⟨_, front, _⟩ := between.split
    cases item with
    | functionDeclaration => cases string
    | item _ _ reads =>
      obtain ⟨token, others, rfl, isString, found⟩ := reads.directive_of_rawString front string
      exact ⟨token, _, rfl, isString, found⟩

/-- Statements that do not begin a body are not marked as directives. -/
theorem Reads.unmarked {statements : List Statement}
    (reads : Reads scope (.statements statements) tokens next) :
    ∀ statement ∈ statements, statement.directive? = none :=
  List.filterMap_eq_nil_iff.mp (Grammar.directives_of_reads reads)

/-- The strings at the beginning of a body are its directives. -/
theorem Reads.haveDirectives {statements : List Statement} {low high : Position}
    (reads : Reads scope (.body statements) tokens next)
    (between : Token.Between low tokens high) : Statement.HaveDirectives statements := by
  generalize same : Phrase.body statements = phrase at reads
  induction reads generalizing statements low with
  | directed directive _ _ _ ih =>
    cases same
    obtain ⟨middle, _, others⟩ := between.split
    obtain ⟨raw, string, rfl⟩ := directive.rawString_of_directive
    exact .cons string rfl (ih others rfl)
  | undirected opens other statements _ =>
    cases same
    refine .of_head (fun first isFirst => ?_) statements.unmarked
    rw [Option.eq_none_iff_forall_ne_some]
    intro raw string
    obtain ⟨token, others, rfl, isString, found⟩ :=
      statements.directive_of_head between isFirst string
    obtain rfl := opens.eq_of_string isString
    exact found (other isString first isFirst)
  | _ => cases same

/-! ### Blocks -/

/-- A function has a body among its tokens. -/
theorem Reads.exists_body {parameters : List Identifier} {body : Block}
    (reads : Reads scope (.function parameters body) tokens next) :
    ∃ scope piece follower, Reads scope (.body body.body) piece follower ∧ piece <:+: tokens := by
  cases reads with
  | @function _ _ parameterTokens _ _ _ _ inner =>
    cases inner with
    | @functionBody _ opening closing _ piece _ _ body =>
      exact ⟨_, _, _, body, parameterTokens ++ [opening], [closing], by simp⟩

theorem Reads.exists_statements {body : Block} (reads : Reads scope (.block body) tokens next) :
    ∃ scope piece follower, Reads scope (.statements body.body) piece follower := by
  cases reads with
  | block _ statements => exact ⟨_, _, _, statements⟩

theorem ForHead.node_ne_block (head : ForHead) (body : Block) : head.node ≠ .block body := by
  cases head <;> exact nofun

/-- A block directly in a statement that is no declaration begins no body. -/
theorem Reads.exists_statements_of_mem {item : Statement} {body : Block}
    (reads : Reads scope (.statement item) tokens next) (member : .block body ∈ item.children) :
    (⟨.statement item, .block body⟩ : Step).entersFunction = false ∧
      ∃ scope piece follower, Reads scope (.statements body.body) piece follower := by
  cases reads with
  | tryBlock _ inner _ handler _ finalizer =>
    refine ⟨rfl, ?_⟩
    simp only [Statement.children, List.mem_cons, List.mem_append, List.mem_map,
      Option.mem_toList, Node.block.injEq, reduceCtorEq, and_false, exists_false, false_or,
      exists_eq_right] at member
    rcases member with rfl | isFinal
    · exact inner.exists_statements
    · cases finalizer with
      | finalizerNone => cases isFinal
      | finalizerSome _ last =>
        cases isFinal
        exact last.exists_statements
  | forLoop =>
    simp [Statement.children, ForHead.node_ne_block] at member
  | forInLoop =>
    simp [Statement.children, (ForHead.node_ne_block _ _).symm] at member
  | _ => simp [Statement.children] at member

/-- A block in a node is the body of a function, or it is read as statements that begin no body. -/
theorem Node.IsRead.cases_block {node : Node} {body : Block} (read : node.IsRead scope tokens next)
    (member : .block body ∈ node.children) :
    ((⟨node, .block body⟩ : Step).entersFunction = true ∧
      ∃ scope piece follower, Reads scope (.body body.body) piece follower ∧ piece <:+: tokens) ∨
    (⟨node, .block body⟩ : Step).entersFunction = false ∧
      ∃ scope piece follower, Reads scope (.statements body.body) piece follower := by
  cases node with
  | expression item =>
    obtain ⟨level, reads⟩ := read
    cases reads with
    | functionExpression _ _ function =>
      obtain rfl : body = _ := by simpa [Node.children, Expression.children] using member
      obtain ⟨scope, piece, follower, reads, inside⟩ := function.exists_body
      refine .inl ⟨rfl, scope, piece, follower, reads, inside.trans ?_⟩
      exact ((List.suffix_append _ _).trans (List.suffix_cons _ _)).isInfix
    | accessorFunction function =>
      obtain rfl : body = _ := by simpa [Node.children, Expression.children] using member
      exact .inl ⟨rfl, function.exists_body⟩
    | _ => simp [Node.children, Expression.children] at member
  | statement item =>
    rcases read with reads | reads | ⟨_, _, _, rfl, _⟩
    · exact .inr (reads.exists_statements_of_mem member)
    · cases reads with
      | functionDeclaration _ _ function =>
        obtain rfl : body = _ := by simpa [Node.children, Statement.children] using member
        obtain ⟨scope, piece, follower, reads, inside⟩ := function.exists_body
        refine .inl ⟨rfl, scope, piece, follower, reads, inside.trans ?_⟩
        exact ((List.suffix_cons _ _).trans (List.suffix_cons _ _)).isInfix
      | item _ _ reads => exact .inr (reads.exists_statements_of_mem member)
    · simp [Node.children, Statement.children] at member
  | handler item =>
    cases read with
    | handlerSome _ _ _ _ inner =>
      obtain rfl : body = _ := by simpa [Node.children] using member
      exact .inr ⟨rfl, inner.exists_statements⟩
  | _ => simp [Node.children] at member

/-- A node with a directive directly in it is a block. -/
theorem Node.IsRead.exists_block {node : Node} {item : Statement}
    (read : node.IsRead scope tokens next) (member : .statement item ∈ node.children)
    (marked : item.directive? ≠ none) : ∃ body, node = .block body ∧ item ∈ body.body := by
  cases node with
  | statement outer =>
    rcases Statement.mem_children member with ⟨body, rfl⟩ | inside
    · cases read.reads_statement nofun nofun with
      | blockStatement inner =>
        obtain ⟨_, _, _, statements⟩ := inner.exists_statements
        have inner : item ∈ body.body := by simpa [Node.children, Statement.children] using member
        exact absurd (statements.unmarked item inner) marked
    · obtain ⟨_, _, _, alone, _⟩ := read.statement_of_mem_bodies inside
      exact absurd (Grammar.directive_of_reads alone) marked
  | block body => exact ⟨body, rfl, by simpa [Node.children] using member⟩
  | clause item =>
    cases read with
    | caseClause _ _ _ statements | defaultClause _ _ statements =>
      exact absurd (statements.unmarked _ (by simpa [Node.children] using member)) marked
  | expression outer => cases outer <;> simp [Node.children, Expression.children] at member
  | _ => simp [Node.children] at member

/-- A path to a statement ends in a body: that of the script, or that of a function. -/
def Step.endInBody : List Step → Bool
  | [] => true
  | [_] => false
  | _ :: outer :: _ => outer.entersFunction

section Parse

variable {source : String} {options : Options} {program : Program}

/-- Every directive of an accepted text is directly in a body. -/
theorem endInBody_of_directive (accepted : parse source options = .ok program) {path : List Step}
    {item : Statement} (occurs : program.Occurs path (.statement item))
    (marked : item.directive? ≠ none) : Step.endInBody path = true := by
  obtain ⟨root, isRoot, occurs⟩ := occurs
  cases occurs with
  | root => rfl
  | child above member =>
    obtain ⟨scope, tokens, next, read⟩ := exists_read_of_parse accepted ⟨root, isRoot, above⟩
    obtain ⟨body, rfl, inside⟩ := read.exists_block member marked
    cases above with
    | child above member =>
      obtain ⟨scope, tokens, next, read⟩ := exists_read_of_parse accepted ⟨root, isRoot, above⟩
      rcases read.cases_block member with ⟨enters, -⟩ | ⟨-, _, _, _, statements⟩
      · exact enters
      · exact absurd (statements.unmarked item inside) marked

/-- The strings at the beginning of every body of an accepted text are its directives. -/
theorem haveDirectives_of_parse (accepted : parse source options = .ok program)
    {body : List Statement} (isBody : program.HasBody body) : Statement.HaveDirectives body := by
  obtain ⟨after, run⟩ := exists_of_parse accepted
  cases isBody with
  | script => exact (State.reads_of_parse run).haveDirectives (State.between_of_parse run).1
  | function occurs enters =>
    obtain ⟨root, isRoot, occurs⟩ := occurs
    cases occurs with
    | child above member =>
      obtain ⟨scope, tokens, next, low, high, read, -, between⟩ :=
        State.exists_read_of_parse run ⟨root, isRoot, above⟩
      rcases read.cases_block member with ⟨-, _, piece, _, reads, inside⟩ | ⟨other, -⟩
      · obtain ⟨_, _, own⟩ := between.of_infix inside
        exact reads.haveDirectives own
      · rw [enters] at other
        cases other

/-- Directives of an accepted text. In the script and in every function they are the statements at
the beginning of the body that are strings without parentheses, each with the text of its string
between the quotes, and no other statement of the text is a directive. -/
theorem directives_of_parse (accepted : parse source options = .ok program) :
    (∀ body, program.HasBody body → Statement.HaveDirectives body) ∧
      ∀ path item, program.Occurs path (.statement item) → item.directive? ≠ none →
        Step.endInBody path = true :=
  ⟨fun _ isBody => haveDirectives_of_parse accepted isBody,
    fun _ _ occurs marked => endInBody_of_directive accepted occurs marked⟩

/-- A string in parentheses ends the directives. -/
theorem directives_of_parenthesized :
    ∃ program, parse "'a'; ('b'); 'c'" {} = .ok program ∧
      program.body.map Statement.directive? = [some "a", none, none] ∧
      Statement.countStrings program.body = 1 ∧ Statement.HaveDirectives program.body := by
  have check : (parse "'a'; ('b'); 'c'" {}).toOption.any (fun program =>
      program.body.map Statement.directive? == [some "a", none, none] &&
        Statement.countStrings program.body == 1) = true := by
    decide +kernel
  obtain ⟨program, accepted⟩ :=
    exists_of_toBool (by decide +kernel : (parse "'a'; ('b'); 'c'" {}).toBool = true)
  rw [accepted] at check
  obtain ⟨marks, count⟩ : program.body.map Statement.directive? = [some "a", none, none] ∧
      Statement.countStrings program.body = 1 := by
    simpa [Except.toOption] using check
  exact ⟨program, accepted, marks, count, (directives_of_parse accepted).1 _ .script⟩

end Parse

end EcmaScript
