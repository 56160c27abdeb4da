import EcmaScript.Proofs.CanonicalFunctions

/-!
# Statements as words

One lemma for each sort of statement: when its parts are parsed as themselves, so are the words of
the whole. A statement that may end with an `if` is not followed by `else` unless the statement that
it was read from is.
-/

namespace EcmaScript

open Parse Grammar

variable {scope : Scope} {rest : List Word} {self : Nonterminals} {next : Token}

/-- A token goes on with a statement only as the token after the statement did. -/
def Token.MayResume (next token : Token) : Prop :=
  token.kind ∈ continuers → next.kind = token.kind

/-- The words of a statement are read as that statement, wherever one may stand. The token after the
statement that it was read from tells what may go on with it. -/
structure Statement.ReparsesBefore (next : Token) (scope : Scope) (statement : Statement) :
    Prop where
  legible : Word.AreLegible statement.words
  front : ∀ others, Word.Show (statement.words ++ others)
    (·.kind ∉ .symbol Keyword.functionWord :: .stringLiteral :: (continuers ++ enders))
  taken : Nonterminals.Eventually fun self => ∀ rest, Word.Show rest next.MayResume →
    (Grammar.statement self).Takes scope statement.words (Located.Resembles · statement) scope rest

namespace Statement.ReparsesBefore

/-- A statement is one in a list. -/
theorem reparses {statement : Statement} (reparses : statement.ReparsesBefore next scope) :
    statement.Reparses scope := by
  refine ⟨reparses.legible, fun others => (reparses.front others).mono fun token plain others =>
    plain (.tail _ others), ?_⟩
  filter_upwards [reparses.taken] with budget taken rest ends
  refine .sees_not ((reparses.front rest).mono fun token plain isFunction => plain ?_)
    (.ite_neg Bool.false_ne_true (taken rest (ends.mono fun _ ends goesOn => absurd goesOn ends)))
  rw [isFunction]
  exact .head _

/-- Where a statement is reached again. -/
theorem inner {statement : Statement} (reparses : statement.ReparsesBefore next scope) :
    Nonterminals.Eventually fun self => ∀ rest, Word.Show rest next.MayResume →
      self.statement.Takes scope statement.words (Located.Resembles · statement) scope rest :=
  reparses.taken.succ fun _ taken => taken

end Statement.ReparsesBefore

/-- A statement that begins with a symbol of its own. -/
theorem Statement.reparsesBefore_of_symbol {statement : Statement} {item : Symbol}
    {words : List Word} (spelled : statement.words = .symbol item :: words)
    (legible : Word.AreLegible words)
    (plain : Kind.symbol item ∉
      .symbol Keyword.functionWord :: .stringLiteral :: (continuers ++ enders))
    (taken : Nonterminals.Eventually fun self => ∀ rest, Word.Show rest next.MayResume →
      (Grammar.statement self).Takes scope (.symbol item :: words)
        (Located.Resembles · statement) scope rest) :
    statement.ReparsesBefore next scope := by
  refine ⟨by simp [spelled, legible], fun others => ?_, by rw [spelled]; exact taken⟩
  rw [spelled]
  exact (Word.Show.kind_symbol _).mono fun token kind => by rwa [kind]

/-- A token that goes on with nothing comes after every statement. -/
theorem Word.Show.mayResume {words : List Word} {item : Symbol}
    (ends : Kind.symbol item ∉ continuers) : Show (.symbol item :: words) next.MayResume :=
  (kind_symbol item).mono fun token kind goesOn => by
    rw [kind] at goesOn
    exact absurd goesOn ends

/-- An expression in parentheses of its own, in those of a statement. -/
theorem takes_condition {test : Expression} (reparses : test.Reparses scope) :
    Nonterminals.Eventually fun self => ∀ rest,
      (condition self).Takes scope (Word.enclosed (Word.enclosed test.words))
        (Located.Resembles · test) scope rest := by
  filter_upwards [reparses.expression] with budget taken rest
  exact .require_bind (.bind (taken _ (.ends (by decide)) (.kind_not (by decide)))
    fun _ same => .require_bind (.pure same))

namespace Statement

theorem reparses_empty (span : Span) : (Statement.empty span).ReparsesBefore next scope := by
  refine reparsesBefore_of_symbol rfl (by simp) (by decide)
    (Filter.Eventually.of_forall fun budget rest _ => ?_)
  refine .lookahead_bind (.lexeme_symbol _) fun token found => ?_
  rw [found]
  exact .consume_symbol_bind (.pure rfl)

theorem reparses_debugger (span : Span) : (Statement.debugger span).ReparsesBefore next scope := by
  refine reparsesBefore_of_symbol rfl (by simp) (by decide)
    (Filter.Eventually.of_forall fun budget rest _ => ?_)
  refine .lookahead_bind (.lexeme_symbol _) fun token found => ?_
  rw [found]
  exact .nodeStart_bind fun start => .consume_symbol_bind (.semicolon_bind
    (.spanFrom_bind fun span => .pure rfl))

theorem reparses_throw {argument : Expression} (reparses : argument.Reparses scope) (span : Span) :
    (Statement.throwValue argument span).ReparsesBefore next scope := by
  refine reparsesBefore_of_symbol rfl (by simp [reparses.legible]) (by decide) ?_
  filter_upwards [reparses.expression] with budget taken rest _
  refine .lookahead_bind (.lexeme_symbol _) fun token found => ?_
  rw [found]
  refine .nodeStart_bind fun start => .require_bind ?_
  refine .lookahead_bind (.symbol fun token _ lineBreak => lineBreak) fun token lineBreak => ?_
  refine .ite_neg (by rw [lineBreak]; decide) ?_
  exact .bind (taken _ (.ends (by decide)) (.kind_not (by decide))) fun _ same =>
    .semicolon_bind (.spanFrom_bind fun span => .pure (congrArg (Statement.throwValue · _) same))

theorem reparses_return {argument : Option Expression}
    (reparse : ∀ value ∈ argument, value.Reparses scope)
    (allowed : scope.context.inFunction = true ∨ scope.options.allowReturnOutsideFunction = true)
    (span : Span) : (Statement.returnValue argument span).ReparsesBefore next scope := by
  have permitted : ∀ state : State, state.scope = scope →
      (state.context.inFunction || state.options.allowReturnOutsideFunction) = true := by
    rintro state rfl
    exact Bool.or_eq_true_iff.mpr allowed
  cases argument with
  | none =>
    refine reparsesBefore_of_symbol rfl (by simp [Expression.words?]) (by decide)
      (Filter.Eventually.of_forall fun budget rest _ => ?_)
    refine .lookahead_bind (.lexeme_symbol _) fun token found => ?_
    rw [found]
    refine .nodeStart_bind fun start => .get_bind fun state here =>
      .ite_pos (permitted state here) (.require_bind ?_)
    refine .lookahead_bind (.kind_symbol _) fun token kind => .ite_pos ?_ ?_
    · rw [endsReturn, kind]
      simp
    · exact .pure_bind (.semicolon_bind (.spanFrom_bind fun span => .pure rfl))
  | some value =>
    refine reparsesBefore_of_symbol rfl (by simp [Expression.words?, (reparse value rfl).legible])
      (by decide) ?_
    filter_upwards [(reparse value rfl).expression] with budget taken rest _
    refine .lookahead_bind (.lexeme_symbol _) fun token found => ?_
    rw [found]
    refine .nodeStart_bind fun start => .get_bind fun state here =>
      .ite_pos (permitted state here) (.require_bind ?_)
    refine .lookahead_bind
      (.symbol fun token found lineBreak => ⟨congrArg Lexeme.kind found, lineBreak⟩)
      fun token (found : token.kind = .symbol Punctuator.leftParen ∧
        token.flags.lineBreak = false) => .ite_neg ?_ ?_
    · rw [endsReturn, found.1, found.2]
      decide
    · exact .map_bind (.bind (taken _ (.ends (by decide)) (.kind_not (by decide))) fun _ same =>
        .semicolon_bind (.spanFrom_bind fun span =>
          .pure (congrArg (fun value => Statement.returnValue (some value) _) same)))

/-- The label of a jump is one of those around it. -/
theorem takes_jumpLabel {label : Option Identifier} {tokens : List Token}
    (hasLabel : scope.HasJumpLabel label tokens next)
    (writable : ∀ token ∈ tokens, token.IsWritable) :
    Word.AreLegible (Word.ofName? label) ∧ ∀ rest,
      jumpLabel.Takes scope (Word.ofName? label) (Located.Resembles · label) scope
        (.symbol Punctuator.semicolon :: rest) := by
  cases hasLabel with
  | none =>
    refine ⟨by simp [Word.ofName?], fun rest => ?_⟩
    refine .lookahead_bind (.kind_symbol _) fun token kind => .ite_pos ?_ (.pure rfl)
    rw [kind]
    rfl
  | @some token _ label refers _ known =>
    have writable := writable token (.head _)
    have is := writable.is_named refers.1
    refine ⟨by simp [Word.ofName?, is.isLegible], fun rest => ?_⟩
    refine .lookahead_bind (.of_is is) fun other found => .ite_neg ?_ ?_
    · simp [Token.kind, found.1, found.2.1, Lexeme.kind]
    refine .last (.identifierReference writable refers) fun name same =>
      .get_bind fun state here => ?_
    have named : (name.relocate _).name = (label.relocate _).name := congrArg Identifier.name same
    change name.name = label.name at named
    refine .ite_pos ?_ (.pure (congrArg some same))
    rw [named, ← known, ← here]
    rfl

theorem reparses_break {label : Option Identifier} {tokens : List Token} {follower : Token}
    (hasLabel : scope.HasJumpLabel label tokens follower)
    (writable : ∀ token ∈ tokens, token.IsWritable)
    (allowed : scope.context.inLoop = true ∨ scope.context.inSwitch = true) (span : Span) :
    (Statement.breakTo label span).ReparsesBefore next scope := by
  obtain ⟨legible, taken⟩ := takes_jumpLabel hasLabel writable
  refine reparsesBefore_of_symbol rfl (by simp [legible]) (by decide)
    (Filter.Eventually.of_forall fun budget rest _ => ?_)
  refine .lookahead_bind (.lexeme_symbol _) fun token found => ?_
  rw [found]
  refine .nodeStart_bind fun start => .require_bind (.get_bind fun state here => .ite_pos ?_ ?_)
  · subst here
    exact Bool.or_eq_true_iff.mpr allowed
  · refine .bind (taken rest) fun _ same => .semicolon_bind (.spanFrom_bind fun span => .pure ?_)
    simp_all [Located.Resembles, Located.relocate, relocate, Span.relocate]

theorem reparses_continue {label : Option Identifier} {tokens : List Token} {follower : Token}
    (hasLabel : scope.HasJumpLabel label tokens follower)
    (writable : ∀ token ∈ tokens, token.IsWritable) (allowed : scope.context.inLoop = true)
    (span : Span) : (Statement.continueTo label span).ReparsesBefore next scope := by
  obtain ⟨legible, taken⟩ := takes_jumpLabel hasLabel writable
  refine reparsesBefore_of_symbol rfl (by simp [legible]) (by decide)
    (Filter.Eventually.of_forall fun budget rest _ => ?_)
  refine .lookahead_bind (.lexeme_symbol _) fun token found => ?_
  rw [found]
  refine .nodeStart_bind fun start => .require_bind (.get_bind fun state here => .ite_pos ?_ ?_)
  · subst here
    exact allowed
  · refine .bind (taken rest) fun _ same => .semicolon_bind (.spanFrom_bind fun span => .pure ?_)
    simp_all [Located.Resembles, Located.relocate, relocate, Span.relocate]

theorem reparses_while {test : Expression} {body : Statement} (reparses : test.Reparses scope)
    (reparsesBody : body.ReparsesBefore next scope.inLoop) (span : Span) :
    (Statement.whileLoop test body span).ReparsesBefore next scope := by
  refine reparsesBefore_of_symbol rfl (by simp [reparses.legible, reparsesBody.legible])
    (by decide) ?_
  filter_upwards [takes_condition reparses, reparsesBody.inner]
    with budget taken takenBody rest follows
  refine .lookahead_bind (.lexeme_symbol _) fun token found => ?_
  rw [found]
  refine .nodeStart_bind fun start => .require_bind (.bind (taken _) fun _ same => ?_)
  exact .last (.inLoop (takenBody _ follows)) fun _ sameBody => .spanFrom_bind fun span =>
    .pure (congrArg₂ (Statement.whileLoop · · _) same sameBody)

theorem reparses_doWhile {test : Expression} {body : Statement} {follower : Token}
    (reparses : test.Reparses scope) (reparsesBody : body.ReparsesBefore follower scope.inLoop)
    (span : Span) : (Statement.doWhileLoop body test span).ReparsesBefore next scope := by
  refine reparsesBefore_of_symbol rfl (by simp [reparses.legible, reparsesBody.legible])
    (by decide) ?_
  filter_upwards [takes_condition reparses, reparsesBody.inner] with budget taken takenBody rest _
  refine .lookahead_bind (.lexeme_symbol _) fun token found => ?_
  rw [found]
  refine .nodeStart_bind fun start => .require_bind (.bind
    (.inLoop (takenBody _ (.mayResume (by decide)))) fun _ sameBody => .require_bind ?_)
  exact .bind (taken _) fun _ same => .consumeIf_bind (.spanFrom_bind fun span =>
    .pure (congrArg₂ (Statement.doWhileLoop · · _) sameBody same))

theorem reparses_with {object : Expression} {body : Statement} (reparses : object.Reparses scope)
    (reparsesBody : body.ReparsesBefore next scope) (allowed : scope.context.strict = false)
    (span : Span) : (Statement.withObject object body span).ReparsesBefore next scope := by
  refine reparsesBefore_of_symbol rfl (by simp [reparses.legible, reparsesBody.legible])
    (by decide) ?_
  filter_upwards [takes_condition reparses, reparsesBody.inner]
    with budget taken takenBody rest follows
  refine .lookahead_bind (.lexeme_symbol _) fun token found => ?_
  rw [found]
  refine .nodeStart_bind fun start => .isStrict_bind (.ite_neg (by rw [allowed]; decide) ?_)
  refine .require_bind (.bind (taken _) fun _ same => ?_)
  exact .last (takenBody _ follows) fun _ sameBody => .spanFrom_bind fun span =>
    .pure (congrArg₂ (Statement.withObject · · _) same sameBody)

/-- A choice without `else`, which is not followed by one either. -/
theorem reparses_if {test : Expression} {consequent : Statement} (reparses : test.Reparses scope)
    (reparsesThen : consequent.ReparsesBefore next scope)
    (notElse : next.kind ≠ .symbol Keyword.elseWord) (span : Span) :
    (Statement.ifElse test consequent none span).ReparsesBefore next scope := by
  refine reparsesBefore_of_symbol rfl
    (by simp [reparses.legible, reparsesThen.legible, elseWords?]) (by decide) ?_
  filter_upwards [takes_condition reparses, reparsesThen.inner]
    with budget taken takenThen rest follows
  refine .lookahead_bind (.lexeme_symbol _) fun token found => ?_
  rw [found]
  refine .nodeStart_bind fun start => .require_bind (.bind (taken _) fun _ same => ?_)
  refine .bind (takenThen _ follows) fun _ sameThen => .consumeIf_not ?_ ?_
  · refine follows.mono fun token mayResume isElse => notElse ?_
    rw [mayResume (by rw [isElse]; decide), isElse]
  · refine .ite_neg Bool.false_ne_true (.pure_bind (.spanFrom_bind fun span => .pure ?_))
    exact congrArg₂ (Statement.ifElse · · none _) same sameThen

theorem reparses_ifElse {test : Expression} {consequent alternate : Statement} {follower : Token}
    (reparses : test.Reparses scope) (reparsesThen : consequent.ReparsesBefore follower scope)
    (isElse : follower.kind = .symbol Keyword.elseWord)
    (reparsesElse : alternate.ReparsesBefore next scope) (span : Span) :
    (Statement.ifElse test consequent (some alternate) span).ReparsesBefore next scope := by
  refine reparsesBefore_of_symbol rfl
    (by simp [reparses.legible, reparsesThen.legible, reparsesElse.legible, elseWords?])
    (by decide) ?_
  filter_upwards [takes_condition reparses, reparsesThen.inner, reparsesElse.inner]
    with budget taken takenThen takenElse rest follows
  refine .lookahead_bind (.lexeme_symbol _) fun token found => ?_
  rw [found]
  refine .nodeStart_bind fun start => .require_bind (.bind (taken _) fun _ same => ?_)
  have resumes : Word.Show (elseWords? (some alternate) ++ rest) follower.MayResume :=
    (Word.Show.kind_symbol _).mono fun token kind _ => isElse.trans kind.symm
  refine .bind (takenThen _ resumes) fun _ sameThen => .consumeIf_bind ?_
  refine .ite_pos rfl (.map_bind (.last (takenElse _ follows) fun _ sameElse =>
    .spanFrom_bind fun span => .pure ?_))
  simp_all [Located.Resembles, Located.relocate, relocate, relocate?, Span.relocate]

end Statement

/-! ### Blocks -/

/-- The words of a block are read as that block. -/
structure Block.Reparses (scope : Scope) (body : Block) : Prop where
  legible : Word.AreLegible body.words
  taken : Nonterminals.Eventually fun self => ∀ rest,
    (Grammar.block self).Takes scope body.words (Located.Resembles · body) scope rest

theorem Block.reparses {statements : List Statement}
    (reparse : ∀ statement ∈ statements, statement.Reparses scope) (span : Span) :
    (Block.mk statements span).Reparses scope := by
  refine ⟨by simp [words, Statement.legible_of_reparses reparse], ?_⟩
  filter_upwards [takes_statements reparse] with budget taken rest
  refine .nodeStart_bind fun start => .require_bind (.bind (taken endsStatements _ ?_ ?_)
    fun _ same => .require_bind (.spanFrom_bind fun span => .pure (.block same)))
  · intro kind ends
    simpa [endsStatements, enders, or_assoc] using ends
  · exact (Word.Show.kind_symbol _).mono fun token kind => by rw [kind]; rfl

theorem Statement.reparses_block {body : Block} (reparses : body.Reparses scope) :
    (Statement.block body).ReparsesBefore next scope := by
  obtain ⟨statements, span⟩ := body
  have legible := reparses.legible
  rw [Block.words, Word.areLegible_cons] at legible
  refine reparsesBefore_of_symbol rfl legible.2 (by decide) ?_
  filter_upwards [reparses.taken] with budget taken rest _
  refine .lookahead_bind (.lexeme_symbol _) fun token found => ?_
  rw [found]
  exact .map (taken _) fun _ same => congrArg Statement.block same

/-- The words of a handler, or none, are read as that handler. -/
def CatchClause.Reparse (scope : Scope) : Option CatchClause → Prop
  | none => True
  | some ⟨parameter, body, _⟩ =>
    (∃ token : Token, token.IsWritable ∧ scope.Binds token parameter) ∧ body.Reparses scope

theorem CatchClause.legible {handler : Option CatchClause} (reparse : Reparse scope handler) :
    Word.AreLegible (words? handler) := by
  rcases handler with _ | ⟨parameter, body, span⟩
  · simp [words?]
  · obtain ⟨⟨token, writable, binds⟩, reparses⟩ := reparse
    simp [words?, (writable.is_named binds.1.1).isLegible, reparses.legible]

/-- A handler, or none in front of anything but the word of one. -/
theorem takes_catchClause {handler : Option CatchClause}
    (reparse : CatchClause.Reparse scope handler) :
    Nonterminals.Eventually fun self => ∀ rest,
      (handler = none → Word.Show rest (·.kind ≠ .symbol Keyword.catchWord)) →
        (catchClause? self).Takes scope (CatchClause.words? handler)
          (Located.Resembles · handler) scope rest := by
  rcases handler with _ | ⟨parameter, body, span⟩
  · refine Filter.Eventually.of_forall fun budget rest notCatch => ?_
    exact .nodeStart_bind fun start => .consumeIf_not (notCatch rfl)
      (.ite_neg Bool.false_ne_true (.pure rfl))
  · obtain ⟨⟨token, writable, binds⟩, reparses⟩ := reparse
    have spelled : CatchClause.words? (some ⟨parameter, body, span⟩) =
        .symbol Keyword.catchWord :: .symbol Punctuator.leftParen ::
          ([.named parameter.name] ++ .symbol Punctuator.rightParen :: body.words) := rfl
    filter_upwards [reparses.taken] with budget taken rest _
    rw [spelled]
    refine .nodeStart_bind fun start => .consumeIf_bind (.ite_pos rfl (.require_bind ?_))
    refine .bind (.bindingIdentifier writable binds) fun _ sameName => .require_bind
      (.last (taken _) fun _ same => .spanFrom_bind fun span => .pure ?_)
    exact congrArg some (congrArg₂ (CatchClause.mk · · _) sameName same)

/-- A block with a handler or with another block that always comes after it. -/
theorem Statement.reparses_try {body : Block} {handler : Option CatchClause}
    {finalizer : Option Block} (reparses : body.Reparses scope)
    (reparse : CatchClause.Reparse scope handler)
    (reparseLast : ∀ last ∈ finalizer, last.Reparses scope)
    (some : handler.isSome = true ∨ finalizer.isSome = true)
    (alone : finalizer = none → next.kind ≠ .symbol Keyword.finallyWord) (span : Span) :
    (Statement.tryBlock body handler finalizer span).ReparsesBefore next scope := by
  have handled : ∀ result : Option CatchClause, Located.Resembles result handler →
      result.isNone = handler.isNone := by
    rintro (_ | _) same <;> cases handler <;> first | rfl | cases same
  have legible : Word.AreLegible (Block.finalWords? finalizer) := by
    cases finalizer with
    | none => simp [Block.finalWords?]
    | some last => simp [Block.finalWords?, (reparseLast last rfl).legible]
  refine reparsesBefore_of_symbol rfl
    (by simp [reparses.legible, CatchClause.legible reparse, legible]) (by decide) ?_
  cases finalizer with
  | none =>
    obtain ⟨clause, rfl⟩ := Option.isSome_iff_exists.mp (some.resolve_right Bool.false_ne_true)
    filter_upwards [reparses.taken, takes_catchClause reparse] with budget taken takenHandler rest
      follows
    refine .lookahead_bind (.lexeme_symbol _) fun token found => ?_
    rw [found]
    refine .nodeStart_bind fun start => .require_bind (.bind (taken _) fun _ same => ?_)
    rw [Block.finalWords?, List.append_nil]
    refine .last (takenHandler _ nofun) fun result sameHandler => .consumeIf_not ?_ ?_
    · refine follows.mono fun token mayResume isFinally => alone rfl ?_
      rw [mayResume (by rw [isFinally]; decide), isFinally]
    · refine .ite_neg Bool.false_ne_true (.pure_bind (.ite_neg ?_ (.spanFrom_bind fun span =>
        .pure ?_)))
      · rw [handled result sameHandler]
        exact Bool.false_ne_true
      · simp_all [Located.Resembles, Located.relocate, relocate, CatchClause.relocate?_eq,
          Block.relocate?_eq, Span.relocate]
  | some last =>
    filter_upwards [reparses.taken, takes_catchClause reparse, (reparseLast last rfl).taken]
      with budget taken takenHandler takenLast rest _
    refine .lookahead_bind (.lexeme_symbol _) fun token found => ?_
    rw [found]
    refine .nodeStart_bind fun start => .require_bind (.bind (taken _) fun _ same => ?_)
    refine .bind (takenHandler _ fun _ => .kind_not (by decide)) fun _ sameHandler => ?_
    refine .consumeIf_bind (.ite_pos rfl (.map_bind (.last (takenLast _) fun _ sameLast => ?_)))
    refine .ite_neg (by simp) (.spanFrom_bind fun span => .pure ?_)
    simp_all [Located.Resembles, Located.relocate, relocate, CatchClause.relocate?_eq,
      Block.relocate?_eq, Span.relocate]

/-! ### Choices by value -/

/-- The words of a clause are read as that clause. -/
structure SwitchCase.Reparses (scope : Scope) (clause : SwitchCase) : Prop where
  test : ∀ test ∈ clause.test, test.Reparses scope
  consequent : ∀ statement ∈ clause.consequent, statement.Reparses scope

/-- There is only one clause without a test, or none after another one. -/
def SwitchCase.AllowsDefaults : Bool → List SwitchCase → Prop
  | _, [] => True
  | seenDefault, clause :: clauses =>
    (clause.test = none → seenDefault = false) ∧
      AllowsDefaults (seenDefault || clause.test.isNone) clauses

theorem SwitchCase.listWords_eq (clauses : List SwitchCase) :
    listWords clauses = clauses.flatMap words := by
  induction clauses with
  | nil => rfl
  | cons first clauses ih => rw [listWords, ih, List.flatMap_cons]

theorem SwitchCase.Reparses.legible {clause : SwitchCase} (reparses : clause.Reparses scope) :
    Word.AreLegible clause.words := by
  have consequent := Statement.legible_of_reparses reparses.consequent
  obtain ⟨_ | test, statements, span⟩ := clause
  · simpa [words] using consequent
  · simpa [words, (reparses.test test rfl).legible] using consequent

/-- What a clause begins with, up to its colon. -/
def SwitchCase.testWords : Option Expression → List Word
  | none => [.symbol Keyword.defaultWord]
  | some test => .symbol Keyword.caseWord :: Word.enclosed test.words

theorem SwitchCase.words_eq (clause : SwitchCase) :
    clause.words = testWords clause.test ++
      .symbol Punctuator.colon :: Statement.listWords clause.consequent := by
  obtain ⟨_ | test, statements, span⟩ := clause <;> rfl

theorem SwitchCase.exists_words (clause : SwitchCase) :
    ∃ word ∈ [Keyword.caseWord, Keyword.defaultWord], ∃ others,
      clause.words = .symbol word :: others := by
  obtain ⟨_ | test, statements, span⟩ := clause
  · exact ⟨_, .tail _ (.head _), _, rfl⟩
  · exact ⟨_, .head _, _, rfl⟩

theorem takes_caseTest {test : Option Expression} (reparse : ∀ value ∈ test, value.Reparses scope) :
    Nonterminals.Eventually fun self => ∀ seenDefault rest,
      (test = none → seenDefault = false) →
        (caseTest self seenDefault).Takes scope (SwitchCase.testWords test)
          (Located.Resembles · test) scope (.symbol Punctuator.colon :: rest) := by
  cases test with
  | none =>
    refine Filter.Eventually.of_forall fun budget seenDefault rest only => ?_
    refine .lookahead_bind (.lexeme_symbol _) fun token found => ?_
    rw [found, only rfl]
    exact .ite_neg Bool.false_ne_true (.consume_symbol_bind (.pure rfl))
  | some value =>
    filter_upwards [(reparse value rfl).expression] with budget taken seenDefault rest _
    refine .lookahead_bind (.lexeme_symbol _) fun token found => ?_
    rw [found]
    exact .consume_symbol_bind (.map (taken _ (.ends (by decide)) (.kind_not (by decide)))
      fun _ same => congrArg some same)

theorem Located.Resembles.isNone {α : Type} [Located α] {first second : Option α}
    (same : Resembles first second) : first.isNone = second.isNone := by
  cases first <;> cases second <;> first | rfl | cases same

/-- Clauses, or the brace behind them, end the statements of the clause before them. -/
theorem SwitchCase.shows_listWords (clauses : List SwitchCase) (rest : List Word) :
    Word.Show (listWords clauses ++ .symbol Punctuator.rightBrace :: rest)
      (endsStatements ·.kind = true) := by
  cases clauses with
  | nil => exact (Word.Show.kind_symbol _).mono fun token kind => by rw [kind]; rfl
  | cons clause clauses =>
    obtain ⟨word, known, others, spelled⟩ := clause.exists_words
    have ends : ∀ word ∈ [Keyword.caseWord, Keyword.defaultWord],
        endsStatements (.symbol (.keyword word)) = true := by decide
    rw [listWords, spelled]
    exact (Word.Show.kind_symbol _).mono fun token kind => by rw [kind, ends word known]

theorem Located.Resembles.clause {clause : SwitchCase} {test : Option Expression}
    {statements : List Statement} {span : Span} (same : Resembles test clause.test)
    (sameBody : Resembles statements clause.consequent) :
    Resembles (SwitchCase.mk test statements span) clause := by
  obtain ⟨testToo, others, spanToo⟩ := clause
  simp_all [Resembles, relocate, SwitchCase.relocate, Expression.relocate?_eq,
    Statement.relocateAll_eq, Span.relocate]

theorem takes_switchCases {clauses : List SwitchCase}
    (reparse : ∀ clause ∈ clauses, clause.Reparses scope) :
    Nonterminals.Eventually fun self => ∀ turns seenDefault rest, clauses.length < turns →
      SwitchCase.AllowsDefaults seenDefault clauses →
        (switchCases self seenDefault turns).Takes scope (SwitchCase.listWords clauses)
          (Located.Resembles · clauses) scope (.symbol Punctuator.rightBrace :: rest) := by
  induction clauses with
  | nil =>
    refine Filter.Eventually.of_forall fun budget turns seenDefault rest enough _ => ?_
    obtain ⟨turns, rfl⟩ := Nat.exists_eq_add_one.mpr enough
    rw [switchCases]
    exact .sees_bind (.kind_symbol _) (.ite_pos (by decide) (.pure rfl))
  | cons clause clauses ih =>
    have here := reparse clause (.head _)
    filter_upwards [ih fun clause member => reparse clause (.tail _ member),
      takes_caseTest here.test, takes_statements here.consequent]
      with budget takenMore takenTest taken turns seenDefault rest enough defaults
    obtain ⟨turns, rfl⟩ := Nat.exists_eq_add_one.mpr (Nat.zero_lt_of_lt enough)
    obtain ⟨word, known, others, spelled⟩ := clause.exists_words
    have goesOn : Word.Show (SwitchCase.listWords (clause :: clauses) ++
        .symbol Punctuator.rightBrace :: rest) (·.kind ≠ .symbol Punctuator.rightBrace) := by
      rw [SwitchCase.listWords, spelled]
      refine .kind_not fun same => ?_
      cases same
    rw [switchCases]
    refine .sees_not goesOn (.ite_neg Bool.false_ne_true (.nodeStart_bind fun start => ?_))
    rw [SwitchCase.listWords, SwitchCase.words_eq, List.append_assoc]
    refine .bind (takenTest _ _ defaults.1) fun test sameTest => .require_bind ?_
    refine .bind (taken endsStatements _ (fun kind ends => ?_) (SwitchCase.shows_listWords _ _))
      fun statements same => .spanFrom_bind fun span => ?_
    · simpa [endsStatements, enders, or_assoc] using ends
    · rw [sameTest.isNone]
      exact .last (takenMore turns _ rest (Nat.lt_of_succ_lt_succ enough) defaults.2)
        fun more sameMore => .pure ((sameTest.clause same).cons sameMore)

/-- A choice by the value of an expression. -/
theorem Statement.reparses_switch {discriminant : Expression} {clauses : List SwitchCase}
    (reparses : discriminant.Reparses scope)
    (reparse : ∀ clause ∈ clauses, clause.Reparses scope.inSwitch)
    (defaults : SwitchCase.AllowsDefaults false clauses) (span : Span) :
    (Statement.switch discriminant clauses span).ReparsesBefore next scope := by
  have legible : Word.AreLegible (SwitchCase.listWords clauses) := by
    rw [SwitchCase.listWords_eq, Word.areLegible_flatMap]
    exact fun clause member => (reparse clause member).legible
  refine reparsesBefore_of_symbol rfl (by simp [reparses.legible, legible]) (by decide) ?_
  filter_upwards [takes_condition reparses, takes_switchCases reparse,
    Nonterminals.eventually_turns clauses.length] with budget taken takenClauses turns rest _
  refine .lookahead_bind (.lexeme_symbol _) fun token found => ?_
  rw [found]
  refine .nodeStart_bind fun start => .require_bind (.bind (taken _) fun _ same => ?_)
  refine .require_bind
    (.bind (.inSwitch (takenClauses _ _ _ turns defaults)) fun _ sameClauses => ?_)
  refine .require_bind (.spanFrom_bind fun span => .pure ?_)
  simp_all [Located.Resembles, Located.relocate, relocate, SwitchCase.relocateAll_eq, Span.relocate]

/-! ### Declarations -/

/-- The words of a declared variable are read as that variable. -/
structure VariableDeclarator.Reparses (scope : Scope) (declarator : VariableDeclarator) : Prop where
  binds : ∃ token : Token, token.IsWritable ∧ scope.Binds token declarator.name
  value : ∀ value ∈ declarator.value, value.Reparses scope

theorem VariableDeclarator.Reparses.legible {declarator : VariableDeclarator}
    (reparses : declarator.Reparses scope) : Word.AreLegible declarator.words := by
  obtain ⟨⟨token, writable, binds⟩, reparse⟩ := reparses
  have is := (writable.is_named binds.1.1).isLegible
  obtain ⟨name, _ | value, span⟩ := declarator
  · simp [words, is]
  · simp [words, is, (reparse value rfl).legible]

theorem takes_variableDeclarator {declarator : VariableDeclarator}
    (reparses : declarator.Reparses scope) :
    Nonterminals.Eventually fun self => ∀ rest, Word.Show rest scope.Ends →
      (variableDeclarator self).Takes scope declarator.words (Located.Resembles · declarator) scope
        rest := by
  obtain ⟨⟨token, writable, binds⟩, reparse⟩ := reparses
  obtain ⟨name, _ | value, span⟩ := declarator
  · refine Filter.Eventually.of_forall fun budget rest ends => .nodeStart_bind fun start => ?_
    refine .last (.bindingIdentifier writable binds) fun _ same => .consumeIf_not ?_ ?_
    · refine ends.mono fun token ends isAssign => ?_
      have assignment := ends.assignment
      rw [isAssign] at assignment
      contradiction
    · refine .ite_neg Bool.false_ne_true (.pure_bind (.spanFrom_bind fun span => .pure ?_))
      exact congrArg (VariableDeclarator.mk · none _) same
  · filter_upwards [(reparse value rfl).innerAssignment] with budget taken rest ends
    have spelled : (VariableDeclarator.mk name (some value) span).words =
        [.named name.name] ++ .symbol AssignmentOperator.assign :: Word.enclosed value.words := rfl
    rw [spelled]
    refine .nodeStart_bind fun start => .bind (.bindingIdentifier writable binds) fun _ same => ?_
    refine .consumeIf_bind (.ite_pos rfl (.map_bind (.last (taken _ ends) fun _ sameValue =>
      .spanFrom_bind fun span => .pure ?_)))
    exact congrArg₂ (fun name value => VariableDeclarator.mk name (some value) _) same sameValue

theorem VariableDeclarator.listWords_eq (declarators : List VariableDeclarator) :
    listWords declarators = Word.separated words declarators := by
  induction declarators with
  | nil => rfl
  | cons first declarators ih =>
    cases declarators with
    | nil => rfl
    | cons second declarators => exact congrArg (_ ++ _ :: ·) ih

theorem VariableDeclaration.words_eq (declaration : VariableDeclaration) :
    declaration.words = .symbol Keyword.varWord ::
      Word.separated VariableDeclarator.words declaration.declarators := by
  obtain ⟨declarators, span⟩ := declaration
  rw [← VariableDeclarator.listWords_eq]
  rfl

/-- The words of a declaration are read as that declaration. -/
structure VariableDeclaration.Reparses (scope : Scope) (declaration : VariableDeclaration) :
    Prop where
  some : declaration.declarators ≠ []
  declarators : ∀ declarator ∈ declaration.declarators, declarator.Reparses scope

theorem VariableDeclaration.Reparses.legible {declaration : VariableDeclaration}
    (reparses : declaration.Reparses scope) : Word.AreLegible declaration.words := by
  simp only [words_eq, Word.areLegible_cons, Word.isLegible_symbol_iff, Word.areLegible_separated,
    true_and]
  exact fun declarator member => (reparses.declarators declarator member).legible

theorem Located.Resembles.declaration {declaration : VariableDeclaration}
    {declarators : List VariableDeclarator} {span : Span}
    (same : Resembles declarators declaration.declarators) :
    Resembles (VariableDeclaration.mk declarators span) declaration := by
  obtain ⟨others, spanToo⟩ := declaration
  simp_all [Resembles, relocate, VariableDeclaration.relocate, VariableDeclarator.relocateAll_eq,
    Span.relocate]

theorem takes_variableDeclaration {declaration : VariableDeclaration}
    (reparses : declaration.Reparses scope) :
    Nonterminals.Eventually fun self => ∀ rest, Word.Show rest scope.Ends →
      Word.Show rest (·.kind ≠ .symbol Punctuator.comma) →
        (variableDeclaration self).Takes scope declaration.words (Located.Resembles · declaration)
          scope rest := by
  filter_upwards [Nonterminals.Eventually.all fun declarator member =>
      takes_variableDeclarator (reparses.declarators declarator member),
    Nonterminals.eventually_turns declaration.declarators.length]
    with budget taken turns rest ends notComma
  rw [VariableDeclaration.words_eq]
  refine .nodeStart_bind fun start => .require_bind (.last (.separated (Word.Show · scope.Ends) ends
    (fun _ => .ends (by decide)) taken notComma reparses.some (Nat.le_of_lt turns)) fun _ same =>
      .spanFrom_bind fun span => .pure same.declaration)

theorem Located.Resembles.declarators {first second : VariableDeclaration}
    (same : Resembles first second) : Resembles first.declarators second.declarators := by
  obtain ⟨declarators, span⟩ := first
  obtain ⟨others, spanToo⟩ := second
  simp_all [Resembles, relocate, VariableDeclaration.relocate, VariableDeclarator.relocateAll_eq]

theorem Statement.reparses_variables {declaration : VariableDeclaration}
    (reparses : declaration.Reparses scope) :
    (Statement.variables declaration).ReparsesBefore next scope := by
  have legible := reparses.legible
  have spelled : (Statement.variables declaration).words = .symbol Keyword.varWord ::
      (Word.separated VariableDeclarator.words declaration.declarators ++
        [.symbol Punctuator.semicolon]) := by
    rw [words, VariableDeclaration.words_eq]
    rfl
  rw [VariableDeclaration.words_eq, Word.areLegible_cons] at legible
  refine reparsesBefore_of_symbol spelled (by simp [legible.2]) (by decide) ?_
  filter_upwards [takes_variableDeclaration reparses] with budget taken rest _
  refine .lookahead_bind (.lexeme_symbol _) fun token found => ?_
  rw [found, ← List.cons_append, ← VariableDeclaration.words_eq]
  refine .nodeStart_bind fun start => .bind (taken _ (.ends (by decide)) (.kind_not (by decide)))
    fun result same => .semicolon_bind (.spanFrom_bind fun span => .pure ?_)
  have same : Located.Resembles (VariableDeclaration.mk result.declarators span) declaration :=
    same.declarators.declaration
  exact congrArg Statement.variables same

/-! ### Loops with a head -/

/-- The words of the head of a loop are read as that head. -/
def ForHead.Reparses (scope : Scope) : ForHead → Prop
  | .declaration declared => declared.Reparses scope
  | .expression value => value.Reparses scope

theorem ForHead.Reparses.legible {head : ForHead} (reparses : head.Reparses scope) :
    Word.AreLegible head.words := by
  cases head with
  | declaration declaration => exact VariableDeclaration.Reparses.legible reparses
  | expression value => exact Expression.Reparses.legible_enclosed reparses

theorem takes_forHead {head : ForHead} (reparses : head.Reparses scope.withoutIn) :
    Nonterminals.Eventually fun self => ∀ rest, Word.Show rest scope.withoutIn.Ends →
      Word.Show rest (·.kind ≠ .symbol Punctuator.comma) →
        (forHead? self).Takes scope head.words (Located.Resembles · (some head)) scope rest := by
  cases head with
  | declaration declaration =>
    filter_upwards [takes_variableDeclaration reparses] with budget taken rest ends notComma
    have spelled : (ForHead.declaration declaration).words = declaration.words := rfl
    rw [spelled]
    have opens : Word.Show (declaration.words ++ rest) (·.lexeme = .symbol Keyword.varWord) := by
      rw [VariableDeclaration.words_eq]
      exact .lexeme_symbol _
    refine .lookahead_bind opens fun token found => ?_
    rw [found]
    exact .last (.withoutIn (taken rest ends notComma)) fun _ same =>
      .pure (congrArg (fun declaration => some (ForHead.declaration declaration)) same)
  | expression value =>
    filter_upwards [Expression.Reparses.expression reparses] with budget taken rest ends notComma
    refine .lookahead_bind (.lexeme_symbol _) fun token found => ?_
    rw [found]
    exact .last (.withoutIn (taken rest ends notComma)) fun _ same =>
      .pure (congrArg (fun value => some (ForHead.expression value)) same)

/-- An expression that may be left out, in front of what ends it. -/
theorem takes_optionalExpression {value : Option Expression} {ending : Punctuator}
    (reparse : ∀ expression ∈ value, expression.Reparses scope)
    (closes : Symbol.punctuator ending ∈ closers) (notComma : ending ≠ .comma) :
    Word.AreLegible (Expression.words? value) ∧ Nonterminals.Eventually fun self => ∀ rest,
      (optionalExpression self ending).Takes scope (Expression.words? value)
        (Located.Resembles · value) scope (.symbol ending :: rest) := by
  cases value with
  | none =>
    refine ⟨by simp [Expression.words?], Filter.Eventually.of_forall fun budget rest => ?_⟩
    exact .sees_bind (.kind_symbol _) (.ite_pos (by simp) (.pure rfl))
  | some value =>
    refine ⟨by simp [Expression.words?, (reparse value rfl).legible], ?_⟩
    filter_upwards [(reparse value rfl).expression] with budget taken rest
    refine .sees_not (.kind_not ?_) (.ite_neg Bool.false_ne_true (.map (taken _ (.ends closes)
      (.kind_not ?_)) fun _ same => congrArg some same))
    · rintro same
      cases same
      exact absurd closes (by decide)
    · exact fun same => notComma (Symbol.punctuator.inj (Kind.symbol.inj same))

/-- What a loop with three clauses begins with, up to its first semicolon. -/
theorem takes_init {init : Option ForHead}
    (reparse : ∀ head ∈ init, head.Reparses scope.withoutIn) :
    Word.AreLegible (ForHead.words? init) ∧ Nonterminals.Eventually fun self => ∀ rest,
      (forHead? self).Takes scope (ForHead.words? init) (Located.Resembles · init) scope
        (.symbol Punctuator.semicolon :: rest) := by
  cases init with
  | none =>
    refine ⟨by simp [ForHead.words?], Filter.Eventually.of_forall fun budget rest => ?_⟩
    refine .lookahead_bind (.lexeme_symbol _) fun token found => ?_
    rw [found]
    exact .pure rfl
  | some head =>
    refine ⟨(reparse head rfl).legible, ?_⟩
    filter_upwards [takes_forHead (reparse head rfl)] with budget taken rest
    exact taken _ (.ends (by decide)) (.kind_not (by decide))

/-- A loop with three clauses, each of which may be left out. -/
theorem Statement.reparses_for {init : Option ForHead} {test update : Option Expression}
    {body : Statement} (reparseInit : ∀ head ∈ init, head.Reparses scope.withoutIn)
    (reparseTest : ∀ value ∈ test, value.Reparses scope)
    (reparseUpdate : ∀ value ∈ update, value.Reparses scope)
    (reparses : body.ReparsesBefore next scope.inLoop) (span : Span) :
    (Statement.forLoop init test update body span).ReparsesBefore next scope := by
  obtain ⟨legibleInit, takenInit⟩ := takes_init reparseInit
  obtain ⟨legibleTest, takenTest⟩ :=
    takes_optionalExpression reparseTest (show Symbol.punctuator .semicolon ∈ closers by decide)
      (by decide)
  obtain ⟨legibleUpdate, takenUpdate⟩ :=
    takes_optionalExpression reparseUpdate (show Symbol.punctuator .rightParen ∈ closers by decide)
      (by decide)
  refine reparsesBefore_of_symbol rfl
    (by simp [legibleInit, legibleTest, legibleUpdate, reparses.legible]) (by decide) ?_
  filter_upwards [takenInit, takenTest, takenUpdate, reparses.inner]
    with budget takenInit takenTest takenUpdate taken rest follows
  refine .lookahead_bind (.lexeme_symbol _) fun token found => ?_
  rw [found]
  refine .nodeStart_bind fun start => .require_bind (.require_bind ?_)
  refine .bind (takenInit _) fun initToo sameInit => .sees_not (.kind_not (by decide)) ?_
  have others : (forRest (.ofBudget budget) start initToo).Takes scope
      (.symbol Punctuator.semicolon :: (Expression.words? test ++ .symbol Punctuator.semicolon ::
        (Expression.words? update ++ .symbol Punctuator.rightParen :: body.words)))
      (Located.Resembles · (.forLoop init test update body span)) scope rest := by
    refine .require_bind (.bind (takenTest _) fun _ sameTest => .require_bind ?_)
    refine .bind (takenUpdate _) fun _ sameUpdate => .require_bind ?_
    refine .last (.inLoop (taken _ follows)) fun _ same => .spanFrom_bind fun span => .pure ?_
    simp_all [Located.Resembles, Located.relocate, relocate, ForHead.relocate?_eq,
      Expression.relocate?_eq, Span.relocate]
  cases initToo <;> exact others

/-- The word `in` ends what stands before it in the head of a loop. -/
theorem Word.Show.ends_in {words : List Word} :
    Show (.symbol BinaryOperator.isIn :: words) scope.withoutIn.Ends :=
  symbol fun token found _ => by
    have kind : token.kind = .symbol BinaryOperator.isIn := congrArg Lexeme.kind found
    refine ⟨⟨by rw [found]; rfl, by rw [endsOperand, kind]; rfl, fun operator isBinary => ?_⟩,
      by rw [kind]; rfl, by rw [kind]; decide⟩
    rw [kind] at isBinary
    cases isBinary
    exact ⟨rfl, rfl⟩

/-- What a loop over properties may assign to. -/
theorem takes_checkForInTarget {head result : ForHead} (allowed : scope.AllowsForIn head)
    (same : Located.Resembles result head) :
    (checkForInTarget result).Takes scope [] (fun _ => True) scope rest := by
  cases head with
  | declaration declaration =>
    cases result with
    | expression => cases same
    | declaration result =>
      have same : Located.Resembles result declaration := ForHead.declaration.inj same
      have count : result.declarators.length = declaration.declarators.length := by
        simpa [Located.Resembles, Located.relocate] using congrArg List.length same.declarators
      have one : declaration.declarators.length = 1 := allowed
      exact .ite_pos (by rw [count, one]; rfl) (.pure trivial)
  | expression target =>
    cases result with
    | declaration => cases same
    | expression result =>
      have same : Located.Resembles result target := ForHead.expression.inj same
      have allowed : scope.AllowsTarget target := allowed
      exact .ite_pos (by rw [same.isReference, allowed.1])
        (Expression.Reparses.checkTarget_of_allowsTarget allowed same)

/-- A loop over the properties of an object. -/
theorem Statement.reparses_forIn {head : ForHead} {right : Expression} {body : Statement}
    (reparsesHead : head.Reparses scope.withoutIn) (allowed : scope.AllowsForIn head)
    (reparsesRight : right.Reparses scope) (reparses : body.ReparsesBefore next scope.inLoop)
    (span : Span) : (Statement.forInLoop head right body span).ReparsesBefore next scope := by
  refine reparsesBefore_of_symbol rfl
    (by simp [reparsesHead.legible, reparsesRight.legible, reparses.legible]) (by decide) ?_
  filter_upwards [takes_forHead reparsesHead, reparsesRight.expression, reparses.inner]
    with budget takenHead takenRight taken rest follows
  refine .lookahead_bind (.lexeme_symbol _) fun token found => ?_
  rw [found]
  refine .nodeStart_bind fun start => .require_bind (.require_bind ?_)
  refine .bind (takenHead _ .ends_in (.kind_not (by decide))) fun headToo same => ?_
  cases headToo with
  | none => cases same
  | some headToo =>
    have same : Located.Resembles headToo head := Option.some.inj same
    refine .sees_bind (.kind_symbol _) ?_
    rw [beq_self_eq_true]
    refine .silent (takes_checkForInTarget allowed same) fun _ _ => .consume_symbol_bind ?_
    refine .bind (takenRight _ (.ends (by decide)) (.kind_not (by decide))) fun _ sameRight => ?_
    refine .require_bind (.last (.inLoop (taken _ follows)) fun _ sameBody =>
      .spanFrom_bind fun span => .pure ?_)
    simp_all [Located.Resembles, Located.relocate, relocate, Span.relocate]

/-! ### Expressions as statements -/

/-- An expression in parentheses. -/
theorem Statement.reparses_expression {value : Expression} (reparses : value.Reparses scope)
    (span : Span) : (Statement.expression value none span).ReparsesBefore next scope := by
  refine reparsesBefore_of_symbol rfl (by simp [reparses.legible]) (by decide) ?_
  filter_upwards [reparses.expression] with budget taken rest _
  refine .lookahead_bind (.lexeme_symbol _) fun token found => ?_
  rw [found]
  refine .lookahead_bind (.kind_symbol _) fun opening kind => ?_
  rw [kind]
  refine .bind (taken _ (.ends (by decide)) (.kind_not (by decide))) fun result same => ?_
  refine .kind_bind (.kind_symbol _) ?_
  have others : ∀ start, (do
      semicolon
      return .expression result none (← spanFrom start) : Parse Statement).Takes scope
        [.symbol Punctuator.semicolon] (Located.Resembles · (.expression value none span)) scope
        rest := fun start => .semicolon_bind (.spanFrom_bind fun span =>
          .pure (congrArg (Statement.expression · none _) same))
  cases result <;> exact others _

/-- A statement with a label that is new. -/
theorem Statement.reparses_labelled {token : Token} {label : Identifier} {body : Statement}
    (writable : token.IsWritable) (refers : scope.Refers token label)
    (fresh : scope.labels.contains label.name = false)
    (reparses : body.ReparsesBefore next (scope.withLabel label.name)) (span : Span) :
    (Statement.labelled label body span).ReparsesBefore next scope := by
  have is := writable.is_named refers.1
  refine ⟨by simp [words, is.isLegible, reparses.legible], fun others => ?_, ?_⟩
  · refine (Word.Show.kind_of_is is).mono fun token kind => ?_
    rw [kind]
    exact (by decide : Kind.identifier ∉
      .symbol Keyword.functionWord :: .stringLiteral :: (continuers ++ enders))
  · filter_upwards [reparses.inner, Nonterminals.eventually_turns 0] with budget taken turns rest
      follows
    have named : ∀ others, (Grammar.expression (.ofBudget budget)).Takes scope [.named label.name]
        (Located.Resembles · (.identifier label)) scope (.symbol Punctuator.colon :: others) :=
      fun others => takes_expression_of_primary turns (Expression.takes_reference writable refers)
        (.beginsPrimary_of_is is ⟨nofun, rfl, rfl⟩) (.ends (by decide)) (.kind_not (by decide))
    have spelled : (Statement.labelled label body span).words =
        [.named label.name] ++ .symbol Punctuator.colon :: body.words := rfl
    rw [spelled]
    refine .lookahead_bind (.of_is is) fun opening found => ?_
    rw [found.1]
    refine .lookahead_bind (.kind_of_is is) fun opening kind => ?_
    rw [kind]
    refine .bind (named _) fun result same => .kind_bind (.kind_symbol _) ?_
    cases result with
    | identifier name =>
      have same : Located.Resembles name label := Expression.identifier.inj same
      have sameName : (name.relocate _).name = (label.relocate _).name :=
        congrArg Identifier.name same
      change name.name = label.name at sameName
      refine .get_bind fun state here => .ite_neg ?_ (.consume_symbol_bind ?_)
      · subst here
        rw [sameName]
        exact Bool.eq_false_iff.mp fresh
      · rw [sameName]
        exact .last (.withLabel (taken _ follows)) fun _ sameBody => .spanFrom_bind fun span =>
          .pure (congrArg₂ (Statement.labelled · · _) same sameBody)
    | _ => cases same

end EcmaScript
