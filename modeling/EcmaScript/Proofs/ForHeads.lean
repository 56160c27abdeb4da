import EcmaScript.Proofs.Enclosures
import EcmaScript.Proofs.InOperator
import EcmaScript.Proofs.Jumps

/-!
# The two sorts of `for` statements

The head of a `for` statement is divided by its first `in` or semicolon at the outermost level. If it
is an `in`, the statement goes through the properties of an object, and otherwise it has three
clauses. This is read off the tokens alone, without the tree.
-/

namespace EcmaScript

/-- The phrases that the head of a `for` statement is made of. -/
def Phrase.isOfHead : Phrase → Bool
  | .fits .. | .makes .. | .separated _ | .arguments _ | .function .. | .functionBody _
  | .declarator _ | .declarators _ | .declaration _ | .head _ => true
  | _ => false

theorem Reads.balanced {scope : Scope} {phrase : Phrase} {tokens : List Token} {next : Token}
    (reads : Reads scope phrase tokens next) : Balanced tokens :=
  (reads.explains 1 fun _ => Nat.one_pos).balanced

namespace HeadPart

variable {withIn : Bool} {token : Token} {tokens : List Token}

theorem of_kind {kind : Kind} (seen : token.kind = kind) (plain : kind.isPlain = true) :
    HeadPart withIn [token] :=
  .plain (by rw [seen]; exact plain)

theorem of_unaryOperator {operator : UnaryOperator}
    (seen : token.kind.unaryOperator? = some operator) : HeadPart withIn [token] :=
  .plain ((by decide +kernel : ∀ kind ∈ Kind.all, kind.unaryOperator?.isSome = true →
    kind.isPlain = true) _ (Kind.mem_all _) (by rw [seen]; rfl))

theorem of_literal {value : Literal} (literal : token.lexeme.literal? = some value) :
    HeadPart withIn [token] := by
  unfold Lexeme.literal? at literal
  split at literal
  any_goals contradiction
  all_goals
    rename_i seen
    exact of_kind (congrArg Lexeme.kind seen) rfl

theorem of_binaryOperator {scope : Scope} {operator : BinaryOperator}
    (seen : token.kind.binaryOperator? = some operator) (allowed : scope.HasOperator operator) :
    HeadPart (!scope.context.withoutIn) [token] := by
  have kind := Grammar.kind_of_binaryOperator? seen
  by_cases isIn : operator = .isIn
  · rw [allowed isIn]
    exact .isIn (isIn ▸ kind)
  · refine .of_kind kind ?_
    cases operator <;> first | rfl | contradiction

theorem cons (first : HeadPart withIn [token]) (rest : HeadPart withIn tokens) :
    HeadPart withIn (token :: tokens) :=
  first.append rest

/-- Between a question mark and its colon `in` may stand. -/
theorem chosen {question colon : Token} {inner : List Token}
    (opens : question.kind = .symbol Punctuator.questionMark) (consequent : HeadPart true inner)
    (closes : colon.kind = .symbol Punctuator.colon) (alternate : HeadPart withIn tokens) :
    HeadPart withIn (question :: (inner ++ colon :: tokens)) := by
  have whole := (HeadPart.choice opens consequent closes).append alternate
  rwa [List.cons_append, List.append_assoc] at whole

end HeadPart

section Parts

variable {withIn : Bool} {scope : Scope} {token : Token} {tokens : List Token}

theorem Scope.Refers.headPart {name : Identifier} (refers : scope.Refers token name) :
    HeadPart withIn [token] :=
  .of_kind (congrArg Lexeme.kind refers.1) rfl

theorem Scope.HasFunctionName.headPart {name : Option Identifier}
    (hasName : scope.HasFunctionName name tokens) : HeadPart withIn tokens := by
  cases hasName with
  | none => exact .nil
  | some binds => exact binds.1.headPart

theorem Scope.HasParameters.headPart {names : List Identifier}
    (hasParameters : scope.HasParameters names tokens) : HeadPart withIn tokens := by
  cases hasParameters with
  | none opening closing => exact .enclosed (.parens opening closing) .nil
  | some opening bindings closing =>
    exact .enclosed (.parens opening closing) (bindings.explains : Explains 0 _ _).balanced

end Parts

open Grammar in
/-- The tokens of an expression or a declaration may be part of a head, and no `in` shows in them at
the outermost level where it is no operator. -/
theorem Reads.headPart {scope : Scope} {phrase : Phrase} {tokens : List Token} {next : Token}
    (reads : Reads scope phrase tokens next) (ofHead : phrase.isOfHead = true) :
    HeadPart (!scope.context.withoutIn) tokens := by
  induction reads with
  | made _ ih | head _ _ ih | operand _ ih | single _ _ ih | operators _ ih | alone _ ih
  | separatedOne _ _ ih | accessorFunction _ ih | declaratorsOne _ _ ih | headDeclaration _ ih
  | headExpression _ ih => exact ih rfl
  | this word => exact .of_kind word rfl
  | reference refers => exact refers.headPart
  | literal literal => exact .of_literal literal
  | parenthesized opening inner closing | arguments opening inner closing =>
    exact .enclosed (.parens opening closing) inner.balanced
  | array opening inner closing => exact .enclosed (.brackets opening closing) inner.balanced
  | object opening inner closing | functionBody opening inner closing =>
    exact .enclosed (.braces opening closing) inner.balanced
  | noArguments opening closing => exact .enclosed (.parens opening closing) .nil
  | functionExpression word name _ ih =>
    exact .cons (.of_kind word rfl) (name.headPart.append (ih rfl))
  | function hasParameters body =>
    refine hasParameters.headPart.append ?_
    cases body with
    | functionBody opening inner closing =>
      exact .enclosed (.braces opening closing) inner.balanced
  | newWithout word _ _ ih => exact .cons (.of_kind word rfl) (ih rfl)
  | newWith word _ _ _ callee arguments =>
    exact .cons (.of_kind word rfl) ((callee rfl).append (arguments rfl))
  | dot _ period named ih => exact (ih rfl).append (.name period named)
  | index _ opening inner closing ih =>
    exact (ih rfl).append (.enclosed (.brackets opening closing) inner.balanced)
  | call _ _ _ callee arguments => exact (callee rfl).append (arguments rfl)
  | updateBefore mark _ _ ih => exact .cons (.of_kind (kind_of_updateOperator? mark) rfl) (ih rfl)
  | updateAfter _ mark _ _ ih =>
    exact (ih rfl).append (.of_kind (kind_of_updateOperator? mark) rfl)
  | unary mark _ _ ih => exact .cons (.of_unaryOperator mark) (ih rfl)
  | binary _ mark allowed _ _ left right =>
    exact (left rfl).append (.cons (.of_binaryOperator mark allowed) (right rfl))
  | assignment _ mark _ _ target value =>
    exact (target rfl).append (.cons (.of_kind (kind_of_assignmentOperator? mark) rfl) (value rfl))
  | conditional _ question _ colon _ test consequent alternate =>
    exact (test rfl).append (.chosen question (consequent rfl) colon (alternate rfl))
  | sequence _ comma _ value values | separatedMore _ comma _ value values
  | declaratorsMore _ comma _ value values =>
    exact (value rfl).append (.cons (.of_kind comma rfl) (values rfl))
  | declaration word _ ih => exact .cons (.of_kind word rfl) (ih rfl)
  | declared binds => exact binds.1.headPart
  | initialized binds mark _ ih =>
    exact .cons binds.1.headPart (.cons (.of_kind mark rfl) (ih rfl))
  | _ => cases ofHead

/-- What stands before the first semicolon of a head may be part of it, and no `in` shows there. -/
theorem Reads.headPart_init {scope : Scope} {init : Option ForHead} {tokens : List Token}
    {next : Token} (reads : Reads scope (.init init) tokens next) : HeadPart false tokens := by
  cases reads with
  | initNone => exact .nil
  | initSome head => exact head.headPart rfl

/-! ### The first word of a statement -/

/-- The first of some tokens is the word `for`. -/
def BeginsWithFor (tokens : List Token) : Prop :=
  ∃ word ∈ tokens.head?, word.kind = .symbol Keyword.forWord

theorem BeginsWithFor.kind {token : Token} {tokens : List Token}
    (begins : BeginsWithFor (token :: tokens)) : token.kind = .symbol Keyword.forWord := by
  obtain ⟨word, first, isFor⟩ := begins
  obtain rfl : token = word := Option.some.inj first
  exact isFor

theorem BeginsWithFor.of_append {front back : List Token} (begins : BeginsWithFor (front ++ back))
    (nonempty : front ≠ []) : BeginsWithFor front := by
  obtain ⟨word, first, isFor⟩ := begins
  rw [List.head?_append_of_ne_nil _ nonempty] at first
  exact ⟨word, first, isFor⟩

/-- The phrases that begin as an expression does. -/
def Phrase.beginsExpression : Phrase → Bool
  | .fits .. | .makes .. | .function .. => true
  | _ => false

/-- No expression begins with the word `for`. -/
theorem Reads.not_beginsWithFor {scope : Scope} {phrase : Phrase} {tokens : List Token}
    {next : Token} (reads : Reads scope phrase tokens next)
    (expression : phrase.beginsExpression = true) : ¬BeginsWithFor tokens := by
  intro begins
  induction reads with
  | made _ ih | head _ _ ih | operand _ ih | single _ _ ih | operators _ ih | alone _ ih
  | accessorFunction _ ih => exact ih rfl begins
  | this seen | parenthesized seen | array seen | object seen | functionExpression seen
  | newWithout seen | newWith seen => cases seen.symm.trans begins.kind
  | reference refers => cases (congrArg Lexeme.kind refers.1).symm.trans begins.kind
  | literal literal =>
    rw [Grammar.lexeme_of_kind begins.kind] at literal
    cases literal
  | dot inner _ _ ih | index inner _ _ _ ih | call inner _ _ ih | updateAfter inner _ _ _ ih
  | binary inner _ _ _ _ ih | assignment inner _ _ _ ih | conditional inner _ _ _ _ ih
  | sequence inner _ _ ih => exact ih rfl (begins.of_append (inner.ne_nil rfl))
  | updateBefore mark | unary mark =>
    rw [begins.kind] at mark
    cases mark
  | function hasParameters =>
    cases hasParameters with
    | none opening | some opening => cases opening.symm.trans begins.kind
  | _ => cases expression

/-- What begins with the word `for` is a statement with one of two rules. -/
theorem Node.IsRead.statement_of_for {scope : Scope} {item : Statement} {tokens : List Token}
    {next : Token} (read : (Node.statement item).IsRead scope tokens next)
    (begins : BeginsWithFor tokens) : Reads scope (.statement item) tokens next := by
  rcases read with reads | reads | ⟨text, value, span, rfl, reads⟩
  · exact reads
  · cases reads with
    | functionDeclaration word => cases word.symm.trans begins.kind
    | item _ _ reads => exact reads
  · cases reads with
    | directive _ _ reads =>
      cases reads with
      | expressionStatement _ _ value =>
        exact absurd (begins.of_append (value.ne_nil rfl)) (value.not_beginsWithFor rfl)

/-! ### The division of a head -/

/-- The tokens of a text that lie inside a span. -/
def State.tokensIn (after : State) (span : Span) : List Token :=
  after.consumed.filter fun token => span.contains token.span

theorem Token.Between.of_mem {low high : Position} {tokens : List Token} {token : Token}
    (between : Token.Between low tokens high) (member : token ∈ tokens) :
    low ≤ token.span.start ∧ token.span.start < token.span.stop ∧ token.span.stop ≤ high := by
  induction between with
  | nil => contradiction
  | cons start wide rest ih =>
    rcases List.mem_cons.mp member with rfl | later
    · exact ⟨start, wide, rest.le⟩
    · obtain ⟨below, wideToo, above⟩ := ih later
      exact ⟨Position.le_trans start (Position.le_trans (Position.le_of_lt wide) below), wideToo,
        above⟩

/-- The tokens of a part of a text are those inside the span that they cover. -/
theorem Token.Between.filter_cover {low high : Position} {front piece back : List Token}
    (between : Token.Between low (front ++ (piece ++ back)) high) (nonempty : piece ≠ []) :
    (front ++ (piece ++ back)).filter (fun token => (Token.cover piece).contains token.span) =
      piece := by
  obtain ⟨first, before, rest⟩ := between.split
  obtain ⟨second, own, behind⟩ := rest.split
  obtain ⟨start, _, stop, inside⟩ := own.cover nonempty
  have noneBefore : ∀ token ∈ front, ¬(Token.cover piece).contains token.span = true := by
    intro token member contained
    obtain ⟨_, wide, above⟩ := before.of_mem member
    have later := (Span.contains_iff.mp contained).1
    exact Position.not_le_of_lt
      (Position.lt_of_lt_of_le wide (Position.le_trans above start)) later
  have noneBehind : ∀ token ∈ back, ¬(Token.cover piece).contains token.span = true := by
    intro token member contained
    obtain ⟨below, wide, _⟩ := behind.of_mem member
    have earlier := (Span.contains_iff.mp contained).2
    exact Position.not_le_of_lt
      (Position.lt_of_le_of_lt (Position.le_trans stop below) wide) earlier
  have all : ∀ token ∈ piece, (Token.cover piece).contains token.span = true := by
    intro token member
    obtain ⟨below, _, above⟩ := inside.of_mem member
    exact Span.contains_iff.mpr ⟨below, above⟩
  rw [List.filter_append, List.filter_append, List.filter_eq_nil_iff.mpr noneBefore,
    List.filter_eq_nil_iff.mpr noneBehind, List.filter_eq_self.mpr all, List.nil_append,
    List.append_nil]

/-- What a `for` statement is made of when its head is divided by a mark. -/
inductive Statement.IsDividedBy (scope : Scope) (before : List Token) (mark : Token)
    (behind : List Token) (closing : Token) : Statement → Prop where
  /-- The word `in` stands between what is assigned to and the object. -/
  | isIn {left : ForHead} {right : Expression} {body : Statement} {span : Span} :
      mark.kind = .symbol BinaryOperator.isIn →
      Reads scope.withoutIn (.head left) before mark →
      Reads scope (.fits .expression right) behind closing →
      IsDividedBy scope before mark behind closing (.forInLoop left right body span)
  /-- A semicolon stands behind the first of three clauses. -/
  | semicolon {init : Option ForHead} {test update : Option Expression} {body : Statement}
      {span : Span} {second : Token} {testTokens updateTokens : List Token} :
      mark.kind = .symbol Punctuator.semicolon →
      Reads scope (.init init) before mark → behind = testTokens ++ second :: updateTokens →
      second.kind = .symbol Punctuator.semicolon →
      Reads scope (.optional test) testTokens second →
      Reads scope (.optional update) updateTokens closing →
      IsDividedBy scope before mark behind closing (.forLoop init test update body span)

/-- Some tokens are those of a `for` statement: its head is divided by the first mark, which says what
sort of statement it is, and every other word `in` of the head has its place below the statement. -/
def Statement.HasDividedHead (item : Statement) (tokens : List Token) : Prop :=
  ∃ scope word opening head closing rest before mark behind,
    tokens = word :: opening :: (head ++ closing :: rest) ∧
    opening.kind = .symbol Punctuator.leftParen ∧ Balanced head ∧
    closing.kind = .symbol Punctuator.rightParen ∧
    IsFirstMark head before mark behind ∧ item.IsDividedBy scope before mark behind closing ∧
    ∀ front token back, head = front ++ token :: back →
      token.kind = .symbol BinaryOperator.isIn → front ≠ before →
      UsesIn (bracketsAfter 0 front) item.children front token back

/-- What stands before the mark and behind it makes up the head. -/
theorem Statement.hasDividedHead {item : Statement} {scope : Scope}
    {word opening mark closing : Token} {before behind rest : List Token}
    (isOpening : opening.kind = .symbol Punctuator.leftParen)
    (isClosing : closing.kind = .symbol Punctuator.rightParen) (isMark : mark.IsHeadMark)
    (part : HeadPart false before) (left : Explains 0 item.children before)
    (right : Explains 0 item.children behind)
    (divided : item.IsDividedBy scope before mark behind closing) :
    item.HasDividedHead (word :: opening :: (before ++ mark :: (behind ++ closing :: rest))) := by
  have level : mark.kind.opens = false ∧ mark.kind.closes = false := by
    rcases isMark with seen | seen <;> rw [seen] <;> exact ⟨rfl, rfl⟩
  exact ⟨scope, word, opening, before ++ mark :: behind, closing, rest, before, mark, behind,
    by rw [List.append_assoc, List.cons_append], isOpening,
    left.balanced.append (.level level.1 level.2 right.balanced), isClosing,
    part.isFirstMark isMark, divided,
    fun _ _ _ whole seen apart => left.beside right level whole seen apart⟩

/-- A statement that begins with the word `for` has a divided head. -/
theorem Reads.hasDividedHead {scope : Scope} {item : Statement} {tokens : List Token} {next : Token}
    (reads : Reads scope (.statement item) tokens next) (begins : BeginsWithFor tokens) :
    item.HasDividedHead tokens := by
  cases reads with
  | forLoop _ isOpening readsInit isFirst readsTest isSecond readsUpdate isClosing =>
    rename_i word opening first second closing initTokens testTokens updateTokens tokens _ _ _ _ _ _
    have clauses := (readsTest.explains 0 nofun).append
      (.skip (Token.IsQuiet.of_kind isSecond rfl) (readsUpdate.explains 0 nofun))
    have regroup : testTokens ++ second :: (updateTokens ++ closing :: tokens) =
        (testTokens ++ second :: updateTokens) ++ closing :: tokens := by simp
    rw [regroup]
    refine Statement.hasDividedHead isOpening isClosing (.inr isFirst) readsInit.headPart_init
      ((readsInit.explains 0 nofun).lift (OccursBelow.mono (List.subset_append_left _ _)))
      (clauses.lift (OccursBelow.mono ?_))
      (.semicolon isFirst readsInit rfl isSecond readsTest readsUpdate)
    intro node member
    rcases List.mem_append.mp member with member | member
    · exact List.mem_append_right _ (List.mem_append_left _ member)
    · exact List.mem_append_right _ (List.mem_append_right _ (List.mem_append_left _ member))
  | forInLoop _ isOpening readsHead isIn _ readsRight isClosing =>
    exact Statement.hasDividedHead isOpening isClosing (.inl isIn) (readsHead.headPart rfl)
      ((readsHead.explains 0 nofun).lift
        (OccursBelow.mono (List.cons_subset.mpr ⟨.head _, List.nil_subset _⟩)))
      ((readsRight.explains 0 nofun).lift
        (OccursBelow.mono (List.cons_subset.mpr ⟨.tail _ (.head _), List.nil_subset _⟩)))
      (.isIn isIn readsHead readsRight)
  | expressionStatement _ _ value =>
    exact absurd (begins.of_append (value.ne_nil rfl)) (value.not_beginsWithFor rfl)
  | blockStatement inner =>
    cases inner with
    | block seen => cases seen.symm.trans begins.kind
  | variableStatement declaration =>
    cases declaration with
    | declaration seen => cases seen.symm.trans begins.kind
  | labelled refers => cases (congrArg Lexeme.kind refers.1).symm.trans begins.kind
  | empty seen | ifWithout seen | ifWith seen | whileLoop seen | doWhileLoop seen | continueTo seen
  | breakTo seen | returnNothing seen | returnValue seen | withObject seen | switch seen
  | throwValue seen | tryBlock seen | debugger seen => cases seen.symm.trans begins.kind

/-- In every accepted text, a statement that begins with the word `for` is what the first `in` or
semicolon at the outermost level of its head says: with an `in` it goes through the properties of an
object, and with a semicolon it has three clauses. What stands before the mark is read as the first
part of the head. Every other `in` of the head is an operator, unless it is the name of a property or
belongs to a loop in a function inside the head; and an operand with all its brackets is read in a
head as it is read where `in` is an operator. -/
theorem hasDividedHead_of_parse {source : String} {options : Options} {program : Program}
    {after : State} (accepted : (State.ofSource source options).parse = (.ok program, after))
    {path : List Step} {item : Statement} (occurs : program.Occurs path (.statement item))
    (begins : BeginsWithFor (after.tokensIn item.span)) :
    item.HasDividedHead (after.tokensIn item.span) ∧
      ∀ budget withCalls,
        Parse.withoutIn (Grammar.leftHandSide (.ofBudget budget) withCalls) =
          Parse.withIn (Grammar.leftHandSide (.ofBudget budget) withCalls) := by
  obtain ⟨scope, piece, follower, low, high, read, ⟨front, back, same⟩, _⟩ :=
    State.exists_read_of_parse accepted occurs
  obtain ⟨between, _⟩ := State.between_of_parse accepted
  rw [← same, List.append_assoc] at between
  have own : after.tokensIn item.span = piece := by
    have span : item.span = Token.cover piece := read.span
    rw [State.tokensIn, span, ← same, List.append_assoc]
    exact between.filter_cover read.ne_nil
  rw [own] at begins ⊢
  exact ⟨(read.statement_of_for begins).hasDividedHead begins, Grammar.withoutIn_leftHandSide⟩

/-- A loop over properties, with the word `in` as an operator before the one that divides its head
and behind it. -/
theorem hasDividedHead_of_nested_in :
    ∃ program after item,
      (State.ofSource "for (var x = a ? b in c : [d in e] in f in g) h;" {}).parse =
        (.ok program, after) ∧
      program.Occurs [] (.statement item) ∧ BeginsWithFor (after.tokensIn item.span) ∧
      item.HasDividedHead (after.tokensIn item.span) := by
  have check : ((State.ofSource "for (var x = a ? b in c : [d in e] in f in g) h;"
      {}).parse.1.toOption.bind fun program => program.body.head?).any (fun item =>
        ((State.ofSource "for (var x = a ? b in c : [d in e] in f in g) h;" {}).parse.2.tokensIn
          item.span).head?.any (·.kind == .symbol Keyword.forWord)) = true := by
    decide +kernel
  obtain ⟨program, accepted⟩ := exists_of_toBool
    (by decide +kernel :
      (parse "for (var x = a ? b in c : [d in e] in f in g) h;" {}).toBool = true)
  obtain ⟨after, accepted⟩ := exists_of_parse accepted
  rw [accepted, Option.any_eq_true] at check
  obtain ⟨item, first, check⟩ := check
  rw [Option.any_eq_true] at check
  obtain ⟨word, isFirst, isFor⟩ := check
  obtain ⟨others, body⟩ : ∃ others, program.body = item :: others :=
    List.head?_eq_some_iff.mp first
  have occurs : program.Occurs [] (.statement item) :=
    ⟨item, body ▸ List.mem_cons_self, .root⟩
  have begins : BeginsWithFor (after.tokensIn item.span) := ⟨word, isFirst, by simpa using isFor⟩
  exact ⟨program, after, item, accepted, occurs, begins,
    (hasDividedHead_of_parse accepted occurs begins).1⟩

end EcmaScript
