import EcmaScript.Proofs.ExpressionFollowing

/-!
# Statements that follow others

There is one lemma for each production of statements. A statement may end at an edge only where
statements come as far as that; there the token that the second parse sees ends whatever could still
be going on, an `else` or `catch` that might follow, or the list of statements.
-/

namespace EcmaScript

variable {σ : Alignment} {exit : Extent}

namespace Alignment.Follows

open Parse

variable {α : Type} [Located α] {known : Prop}

/-- A statement with the same parts that is ended by a semicolon. -/
theorem madeTerminated {value result : Statement} {span : Span} (terminated : value.isTerminated)
    (spanned : value.span = span) (same : σ.Same value result)
    (found : known ↔ Node.AnyTerminated σ.Ends value.children) :
    σ.Follows exit exit (known ∨ σ.Ends span.stop) (Pure.pure value) (Pure.pure result)
      σ.Marks := by
  refine .pure same ?_
  simp only [Marks, Located.nodes, Node.anyTerminated_cons, Node.anyTerminated_nil]
  rw [Node.hasTerminated_iff, found, ← spanned]
  simp [Node.IsTerminatedAt, terminated, Node.children, or_comm]

/-- A fault of both parses at the next token. -/
theorem failHere {enter : Extent} {γ : Type} {cause : Cause} {rest others : γ → Parse α}
    {after : α → Prop} (grammatical : cause.category ≠ .lexical) :
    σ.Follows enter exit known
      (Parse.nodeStart >>= fun position => Parse.fail cause position >>= rest)
      (Parse.nodeStart >>= fun position => Parse.fail cause position >>= others) after := by
  constructor
  · rintro state value last _ ⟨⟩
  · rintro phase state mate value last _ ⟨⟩
  · rintro state fault last reached ⟨⟩ _
    exact ⟨_, reached, .here grammatical, fun ahead _ => ahead_of_inside ahead⟩
  · rintro phase state mate fault last related ⟨⟩ _ doomed
    exact ⟨_, mate, rfl, rfl, (matches_of_states (related.level_of_doomed (.here grammatical) doomed)).start⟩

end Alignment.Follows

namespace Grammar

open Parse EcmaScript.Alignment

variable {self other : Nonterminals}

/-- Statements up to a token of the construct that encloses them. -/
theorem follows_enclosedStatements (nested : self.Follows σ other) :
    σ.Follows .inside .inside False (statementList self) (statementList other) σ.Marks :=
  follows_statementList nested (by simp)

theorem follows_block (nested : self.Follows σ other) :
    σ.Follows .inside exit False (block self) (block other) σ.Marks := by
  rw [block, block]
  apply Follows.nodeStart
  intro start opening sameStart
  apply Follows.skip .require
  apply Follows.step (follows_enclosedStatements nested)
  intro body bodyToo same
  apply Follows.skip .require
  apply Follows.spanFrom sameStart
  intro span cover sameSpan
  refine .made rfl id ?_ ?_
  · simp_all [Alignment.Same, Located.relocate, Block.relocate, Statement.relocateAll_eq]
  · simp [Marks, Located.nodes, Node.children, ← List.map_eq_flatMap]

theorem follows_variableDeclarator (nested : self.Follows σ other) :
    σ.Follows .inside exit False (variableDeclarator self) (variableDeclarator other) σ.Marks := by
  have rest : ∀ {start opening : Position} {name front : Identifier}
      {value result : Option Expression}, σ.Same start opening → σ.Same name front →
      σ.Same value result →
      σ.Follows exit exit (σ.Marks value)
        (spanFrom start >>= fun span => pure (VariableDeclarator.mk name value span))
        (spanFrom opening >>= fun span => pure (VariableDeclarator.mk front result span))
        σ.Marks := by
    intro start opening name front value result sameStart sameName same
    apply Follows.spanFrom sameStart
    intro span cover sameSpan
    refine .made rfl id ?_ ?_
    · simp_all [Alignment.Same, Located.relocate, VariableDeclarator.relocate,
        Expression.relocate?_eq]
    · cases value <;> simp [Marks, Located.nodes, Node.children]
  rw [variableDeclarator, variableDeclarator]
  apply Follows.nodeStart
  intro start opening sameStart
  apply Follows.step Follows.bindingIdentifier
  intro name front sameName
  apply Follows.consumeIf Follows.kind_ne_of_edge
  · rw [if_pos rfl, if_pos rfl, bind_map_left, bind_map_left]
    apply Follows.step nested.assignment
    intro value result same
    refine (rest sameStart sameName ?_).congr ?_ fun _ => Iff.rfl
    · simp_all [Alignment.Same, Located.relocate]
    · simp [Marks, Located.nodes]
  · rw [if_neg Bool.false_ne_true, if_neg Bool.false_ne_true, pure_bind, pure_bind]
    have none : σ.Same (none : Option Expression) none := rfl
    exact (rest sameStart sameName none).congr (by simp [Marks, Located.nodes]) fun _ => Iff.rfl

theorem follows_variableDeclaration (nested : self.Follows σ other) :
    σ.Follows .inside exit False (variableDeclaration self) (variableDeclaration other)
      σ.Marks := by
  rw [variableDeclaration, variableDeclaration]
  apply Follows.nodeStart
  intro start opening sameStart
  apply Follows.skip .require
  apply Follows.step (.separated (follows_variableDeclarator nested) nested.turns)
  intro declarators results same
  apply Follows.spanFrom sameStart
  intro span cover sameSpan
  refine .made rfl id ?_ ?_
  · simp_all [Alignment.Same, Located.relocate, VariableDeclaration.relocate,
      VariableDeclarator.relocateAll_eq]
  · simp [Marks, Located.nodes, Node.children, ← List.map_eq_flatMap]

theorem follows_variableStatement (nested : self.Follows σ other) :
    σ.Follows .inside σ.extent False (variableStatement self) (variableStatement other)
      σ.Marks := by
  rw [variableStatement, variableStatement]
  apply Follows.nodeStart
  intro start opening sameStart
  apply Follows.step (follows_variableDeclaration nested)
  rintro ⟨declarators, inner⟩ ⟨results, innerToo⟩ same
  apply Follows.ended sameStart
  intro span cover sameSpan
  refine .madeTerminated rfl rfl ?_ ?_
  · simp_all [Alignment.Same, Located.relocate, Statement.relocate, VariableDeclaration.relocate]
  · simp [Marks, Located.nodes, Statement.children, Node.hasTerminated_iff (.declaration _),
      Node.IsTerminatedAt, Node.children]

theorem follows_condition (nested : self.Follows σ other) :
    σ.Follows .inside exit False (condition self) (condition other) σ.Marks := by
  rw [condition, condition]
  apply Follows.skip .require
  apply Follows.step (follows_expression nested)
  intro test front same
  apply Follows.skip .require
  exact .pure same (by simp)

theorem follows_loopBody (nested : self.Follows σ other) :
    σ.Follows .inside σ.extent False (loopBody self) (loopBody other) σ.Marks :=
  .inLoop nested.statement

theorem follows_ifStatement (nested : self.Follows σ other) :
    σ.Follows .inside σ.extent False (ifStatement self) (ifStatement other) σ.Marks := by
  have rest : ∀ {start opening : Position} {test front : Expression}
      {consequent consequentToo : Statement} {alternate alternateToo : Option Statement},
      σ.Same start opening → σ.Same test front → σ.Same consequent consequentToo →
      σ.Same alternate alternateToo →
      σ.Follows σ.extent σ.extent ((σ.Marks test ∨ σ.Marks consequent) ∨ σ.Marks alternate)
        (spanFrom start >>= fun span => pure (Statement.ifElse test consequent alternate span))
        (spanFrom opening >>= fun span =>
          pure (Statement.ifElse front consequentToo alternateToo span))
        σ.Marks := by
    intro start opening test front consequent consequentToo alternate alternateToo sameStart
      sameTest sameConsequent sameAlternate
    apply Follows.spanFrom sameStart
    intro span cover sameSpan
    refine .made rfl (fun terminated => by cases terminated.1) ?_ ?_
    · simp_all [Alignment.Same, Located.relocate, Statement.relocate, Statement.relocate?_eq]
    · cases alternate <;>
        simp [Marks, Located.nodes, Node.children, Statement.children, or_assoc]
  rw [ifStatement, ifStatement]
  apply Follows.nodeStart
  intro start opening sameStart
  apply Follows.skip .require
  apply Follows.step (follows_condition nested)
  intro test front sameTest
  apply Follows.step nested.statement
  intro consequent consequentToo sameConsequent
  apply Follows.consumeIf Follows.kind_ne_of_edge
  · rw [if_pos rfl, if_pos rfl, bind_map_left, bind_map_left]
    apply Follows.step nested.statement
    intro alternate alternateToo sameAlternate
    refine (rest sameStart sameTest sameConsequent ?_).congr ?_ fun _ => Iff.rfl
    · simp_all [Alignment.Same, Located.relocate]
    · simp [Marks, Located.nodes]
  · rw [if_neg Bool.false_ne_true, if_neg Bool.false_ne_true, pure_bind, pure_bind]
    have none : σ.Same (none : Option Statement) none := rfl
    refine (rest sameStart sameTest sameConsequent none).congr ?_ fun _ => Iff.rfl
    simp [Marks, Located.nodes]

theorem follows_whileStatement (nested : self.Follows σ other) :
    σ.Follows .inside σ.extent False (whileStatement self) (whileStatement other) σ.Marks := by
  rw [whileStatement, whileStatement]
  apply Follows.nodeStart
  intro start opening sameStart
  apply Follows.skip .require
  apply Follows.step (follows_condition nested)
  intro test front sameTest
  apply Follows.step (follows_loopBody nested)
  intro body bodyToo sameBody
  apply Follows.spanFrom sameStart
  intro span cover sameSpan
  refine .made rfl (fun terminated => by cases terminated.1) ?_ ?_
  · simp_all [Alignment.Same, Located.relocate, Statement.relocate]
  · simp [Marks, Located.nodes, Node.children, Statement.children]

theorem follows_doWhileStatement (nested : self.Follows σ other) :
    σ.Follows .inside σ.extent False (doWhileStatement self) (doWhileStatement other)
      σ.Marks := by
  have rest : ∀ {start opening : Position} {body bodyToo : Statement} {test front : Expression},
      σ.Same start opening → σ.Same body bodyToo → σ.Same test front →
      σ.Follows σ.extent σ.extent (σ.Marks body ∨ σ.Marks test)
        (spanFrom start >>= fun span => pure (Statement.doWhileLoop body test span))
        (spanFrom opening >>= fun span => pure (Statement.doWhileLoop bodyToo front span))
        σ.Marks := by
    intro start opening body bodyToo test front sameStart sameBody sameTest
    apply Follows.spanFrom sameStart
    intro span cover sameSpan
    refine .made rfl (fun terminated => by cases terminated.1) ?_ ?_
    · simp_all [Alignment.Same, Located.relocate, Statement.relocate]
    · simp [Marks, Located.nodes, Node.children, Statement.children]
  rw [doWhileStatement, doWhileStatement]
  apply Follows.nodeStart
  intro start opening sameStart
  apply Follows.skip .require
  apply Follows.step (follows_loopBody nested).narrow
  intro body bodyToo sameBody
  apply Follows.skip .require
  apply Follows.step (follows_condition nested)
  intro test front sameTest
  apply Follows.consumeIf
  · intro first second atEdge edge
    rw [(σ.ended_of_edge atEdge edge).2]
    decide
  · exact (rest sameStart sameBody sameTest).congr (by simp) fun _ => Iff.rfl
  · exact (rest sameStart sameBody sameTest).congr (by simp) fun _ => Iff.rfl

theorem follows_forHead? (nested : self.Follows σ other) :
    σ.Follows .inside .inside False (forHead? self) (forHead? other) σ.Marks := by
  rw [forHead?, forHead?]
  apply Follows.lookahead
  intro token mate same
  rw [same.lexeme]
  apply Follows.upon
  split
  · exact .pure rfl (by simp [Marks, Located.nodes])
  · apply Follows.step (.withoutIn (follows_variableDeclaration nested))
    intro declaration front sameDeclaration
    refine .pure ?_ ?_
    · simp_all [Alignment.Same, Located.relocate, ForHead.relocate]
    · simp [Marks, Located.nodes, ForHead.node]
  · apply Follows.step (.withoutIn (follows_expression nested))
    intro target front sameTarget
    refine .pure ?_ ?_
    · simp_all [Alignment.Same, Located.relocate, ForHead.relocate]
    · simp [Marks, Located.nodes, ForHead.node]

theorem follows_checkForInTarget {head front : ForHead} (same : σ.Same head front) :
    σ.Follows .inside .inside False (checkForInTarget head) (checkForInTarget front)
      fun _ => False := by
  rcases head with ⟨declarators, span⟩ | target <;>
    rcases front with ⟨results, cover⟩ | targetToo <;>
    simp only [Alignment.Same, Located.relocate, ForHead.relocate, ForHead.declaration.injEq,
      ForHead.expression.injEq, reduceCtorEq, VariableDeclaration.relocate,
      VariableDeclaration.mk.injEq, VariableDeclarator.relocateAll_eq] at same
  · have length : results.length = declarators.length := by
      simpa using (congrArg List.length same.1).symm
    rw [checkForInTarget, checkForInTarget]
    dsimp only
    rw [length]
    split
    · exact .pure rfl Iff.rfl
    · exact .fail (by rintro ⟨⟩) (congrArg Span.start same.2)
  · have same : σ.Same target targetToo := same
    obtain ⟨reference, _, sameOpening⟩ := same_reference same
    rw [checkForInTarget, checkForInTarget]
    dsimp only
    rw [reference]
    exact .need (by rintro ⟨⟩) sameOpening (follows_checkTarget same)

theorem lookahead_of_checkForInTarget {head : ForHead} {state next : State}
    (run : checkForInTarget head state = .ok () next) : next.lookahead = state.lookahead := by
  cases head with
  | declaration declaration =>
    change (if _ then _ else _ : Parse Unit) state = _ at run
    split at run <;> cases run
    rfl
  | expression target =>
    change (if _ then _ else _ : Parse Unit) state = _ at run
    split at run
    · exact lookahead_of_checkTarget run
    · cases run

theorem follows_forInRest (nested : self.Follows σ other) {token : Token}
    (inside : token.lexeme ≠ .endOfFile) {start opening : Position} {left front : ForHead}
    (sameStart : σ.Same start opening) (sameLeft : σ.Same left front) :
    σ.Follows .inside σ.extent (σ.Marks left) (upon token (forInRest self start left))
      (forInRest other opening front) σ.Marks := by
  rw [forInRest, forInRest]
  apply Follows.consumes inside
  apply Follows.step (follows_expression nested)
  intro right rightToo sameRight
  apply Follows.skip .require
  apply Follows.step (follows_loopBody nested)
  intro body bodyToo sameBody
  apply Follows.spanFrom sameStart
  intro span cover sameSpan
  refine .made rfl (fun terminated => by cases terminated.1) ?_ ?_
  · simp_all [Alignment.Same, Located.relocate, Statement.relocate]
  · simp [Marks, Located.nodes, Node.children, Statement.children, or_assoc]

theorem follows_optionalExpression (nested : self.Follows σ other) {ending : Punctuator} :
    σ.Follows .inside .inside False (optionalExpression self ending)
      (optionalExpression other ending) σ.Marks := by
  rw [optionalExpression, optionalExpression]
  apply Follows.sees
  intro absent
  split
  · exact .pure rfl (by simp [Marks, Located.nodes])
  · refine .map (follows_expression nested) ?_ ?_
    · intro value front same
      simp_all [Alignment.Same, Located.relocate]
    · simp [Marks, Located.nodes]

theorem follows_forRest (nested : self.Follows σ other) {start opening : Position}
    {init front : Option ForHead} (sameStart : σ.Same start opening) (same : σ.Same init front) :
    σ.Follows .inside σ.extent (σ.Marks init) (forRest self start init)
      (forRest other opening front) σ.Marks := by
  rw [forRest, forRest]
  apply Follows.skip .require
  apply Follows.step (follows_optionalExpression nested)
  intro test testToo sameTest
  apply Follows.skip .require
  apply Follows.step (follows_optionalExpression nested)
  intro step stepToo sameStep
  apply Follows.skip .require
  apply Follows.step (follows_loopBody nested)
  intro body bodyToo sameBody
  apply Follows.spanFrom sameStart
  intro span cover sameSpan
  refine .made rfl (fun terminated => by cases terminated.1) ?_ ?_
  · simp_all [Alignment.Same, Located.relocate, Statement.relocate, Expression.relocate?_eq,
      ForHead.relocate?_eq]
  · cases init <;> cases test <;> cases step <;>
      simp [Marks, Located.nodes, Node.children, Statement.children, or_assoc]

theorem follows_forStatement (nested : self.Follows σ other) :
    σ.Follows .inside σ.extent False (forStatement self) (forStatement other) σ.Marks := by
  rw [forStatement, forStatement]
  apply Follows.nodeStart
  intro start opening sameStart
  apply Follows.skip .require
  apply Follows.skip .require
  apply Follows.step (follows_forHead? nested)
  intro init front same
  rw [sees, Parse.kind, bind_assoc, bind_assoc, bind_assoc, bind_assoc]
  apply Follows.lookahead
  intro token mate sameToken
  simp only [pure_bind]
  rw [sameToken.kind]
  cases init with
  | none =>
    cases front with
    | none =>
      refine .upon ((follows_forRest nested sameStart same).congr ?_ fun _ => Iff.rfl)
      simp
    | some => cases same
  | some head =>
    cases front with
    | none => cases same
    | some headToo =>
      have sameHead : σ.Same head headToo := Option.some.inj same
      cases seen : token.kind == Kind.symbol (Symbol.binary .isIn) with
      | true =>
        have inside : token.lexeme ≠ .endOfFile := lexeme_ne_endOfFile (by simpa using seen)
        apply Follows.holding lookahead_of_checkForInTarget (follows_checkForInTarget sameHead)
        refine (follows_forInRest nested inside sameStart sameHead).congr ?_ fun _ => Iff.rfl
        simp [Marks, Located.nodes]
      | false =>
        refine .upon ((follows_forRest nested sameStart same).congr ?_ fun _ => Iff.rfl)
        simp

theorem follows_jumpLabel :
    σ.Follows .edge .edge False jumpLabel jumpLabel fun _ => False := by
  rw [jumpLabel]
  apply Follows.look fun token => (token.kind != .identifier || token.flags.lineBreak) = true
  · intro token mate same
    rw [same.kind, same.flags]
  · intro first second _ edge
    rcases σ.closing_of_edge edge with closing | closing <;> rw [closing] <;> rfl
  · intro token mate same goes
    rw [same.kind, same.flags, if_neg goes]
    apply Follows.upon
    apply Follows.step Follows.identifierReference
    intro label result sameLabel
    apply Follows.get
    intro first second _ labels _
    rw [labels, Follows.same_name sameLabel]
    have grammatical : (Cause.undefinedLabel label.name).category ≠ .lexical := by rintro ⟨⟩
    apply Follows.need grammatical (Follows.same_start sameLabel)
    refine .pure ?_ (by simp)
    simp_all [Alignment.Same, Located.relocate]
  · intro token mate stops stopsToo
    rw [if_pos stops, if_pos stopsToo]
    exact .pure rfl Iff.rfl

/-- The rest of a jump, from the name of a label to the end of the statement. -/
theorem follows_jump {start opening : Position} {jump : Option Identifier → Span → Statement}
    (terminated : ∀ label span, (jump label span).isTerminated = true)
    (spanned : ∀ label span, (jump label span).span = span)
    (named : ∀ label span, (jump label span).children = label.toList.map .label)
    (relocated : ∀ (move : Position → Position) label span,
      (jump label span).relocate move =
        jump (Located.relocate move label) (Located.relocate move span))
    (sameStart : σ.Same start opening) :
    σ.Follows .edge σ.extent False
      (jumpLabel >>= fun label => semicolon >>= fun _ => spanFrom start >>= fun span =>
        pure (jump label span))
      (jumpLabel >>= fun label => semicolon >>= fun _ => spanFrom opening >>= fun span =>
        pure (jump label span))
      σ.Marks := by
  apply Follows.step follows_jumpLabel
  intro label result same
  apply Follows.ended sameStart
  intro span cover sameSpan
  refine .madeTerminated (terminated _ _) (spanned _ _) ?_ ?_
  · change (jump label span).relocate _ = (jump result cover).relocate _
    rw [relocated, relocated, show Located.relocate _ label = _ from same,
      show Located.relocate _ span = _ from sameSpan]
  · rw [named]
    simp

theorem follows_continueStatement :
    σ.Follows .inside σ.extent False continueStatement continueStatement σ.Marks := by
  rw [continueStatement]
  apply Follows.nodeStart
  intro start opening sameStart
  apply Follows.skip .require
  apply Follows.get
  intro first second context _ _
  have inLoop : second.context.inLoop = first.context.inLoop := by rw [← context]
  rw [inLoop]
  exact .need (by rintro ⟨⟩) sameStart (follows_jump (fun _ _ => rfl) (fun _ _ => rfl) (fun _ _ => rfl)
    (fun _ label _ => by cases label <;> rfl) sameStart)

theorem follows_breakStatement :
    σ.Follows .inside σ.extent False breakStatement breakStatement σ.Marks := by
  rw [breakStatement]
  apply Follows.nodeStart
  intro start opening sameStart
  apply Follows.skip .require
  apply Follows.get
  intro first second context _ _
  have inLoop : second.context.inLoop = first.context.inLoop := by rw [← context]
  have inSwitch : second.context.inSwitch = first.context.inSwitch := by rw [← context]
  dsimp only
  rw [inLoop, inSwitch]
  exact .need (by rintro ⟨⟩) sameStart (follows_jump (fun _ _ => rfl) (fun _ _ => rfl) (fun _ _ => rfl)
    (fun _ label _ => by cases label <;> rfl) sameStart)

theorem follows_returnStatement (nested : self.Follows σ other) :
    σ.Follows .inside σ.extent False (returnStatement self) (returnStatement other) σ.Marks := by
  have rest : ∀ {start opening : Position} {argument result : Option Expression},
      σ.Same start opening → σ.Same argument result →
      σ.Follows .edge σ.extent (σ.Marks argument)
        (semicolon >>= fun _ => spanFrom start >>= fun span =>
          pure (Statement.returnValue argument span))
        (semicolon >>= fun _ => spanFrom opening >>= fun span =>
          pure (Statement.returnValue result span))
        σ.Marks := by
    intro start opening argument result sameStart same
    apply Follows.ended sameStart
    intro span cover sameSpan
    refine .madeTerminated rfl rfl ?_ ?_
    · simp_all [Alignment.Same, Located.relocate, Statement.relocate, Expression.relocate?_eq]
    · cases argument <;> simp [Marks, Located.nodes, Statement.children]
  rw [returnStatement, returnStatement]
  apply Follows.nodeStart
  intro start opening sameStart
  apply Follows.get
  intro first second _ _ returns
  dsimp only
  rw [returns]
  refine .need (by rintro ⟨⟩) sameStart ?_
  apply Follows.skip .require
  apply Follows.look fun token => endsReturn token = true
  · intro token mate same
    rw [endsReturn, endsReturn, same.kind, same.flags]
  · intro first second _ edge
    rcases σ.closing_of_edge edge with closing | closing <;> simp [endsReturn, closing]
  · intro token mate same goes
    have goesToo : ¬endsReturn mate = true := by
      rwa [endsReturn, same.kind, same.flags]
    rw [if_neg goes, if_neg goesToo, bind_map_left, bind_map_left]
    apply Follows.upon
    apply Follows.step (follows_expression nested)
    intro argument result sameArgument
    refine (rest sameStart ?_).congr ?_ fun _ => Iff.rfl
    · simp_all [Alignment.Same, Located.relocate]
    · simp [Marks, Located.nodes]
  · intro token mate stops stopsToo
    have none : σ.Same (none : Option Expression) none := rfl
    rw [if_pos stops, if_pos stopsToo, pure_bind, pure_bind]
    exact (rest sameStart none).congr (by simp [Marks, Located.nodes]) fun _ => Iff.rfl

theorem follows_withStatement (nested : self.Follows σ other) :
    σ.Follows .inside σ.extent False (withStatement self) (withStatement other) σ.Marks := by
  rw [withStatement, withStatement]
  apply Follows.nodeStart
  intro start opening sameStart
  apply Follows.isStrict
  intro strict
  refine .refuse (by rintro ⟨⟩) sameStart ?_
  apply Follows.skip .require
  apply Follows.step (follows_condition nested)
  intro object front sameObject
  apply Follows.step nested.statement
  intro body bodyToo sameBody
  apply Follows.spanFrom sameStart
  intro span cover sameSpan
  refine .made rfl (fun terminated => by cases terminated.1) ?_ ?_
  · simp_all [Alignment.Same, Located.relocate, Statement.relocate]
  · simp [Marks, Located.nodes, Node.children, Statement.children]

theorem follows_caseTest (nested : self.Follows σ other) {seenDefault : Bool} :
    σ.Follows .inside exit False (caseTest self seenDefault) (caseTest other seenDefault)
      σ.Marks := by
  rw [caseTest, caseTest]
  apply Follows.lookahead
  intro token mate same
  rw [same.lexeme]
  split
  · rename_i found
    apply Follows.consumes (by simp [found])
    refine .map (follows_expression nested) ?_ ?_
    · intro value front same
      simp_all [Alignment.Same, Located.relocate]
    · simp [Marks, Located.nodes]
  · rename_i found
    split
    · exact .upon (.fail_bind (by rintro ⟨⟩) same.start)
    · apply Follows.consumes (by simp [found])
      exact .pure rfl (by simp [Marks, Located.nodes])
  · exact .upon .unexpected

theorem follows_switchCases (nested : self.Follows σ other) {seenDefault : Bool}
    {turns turnsToo : Nat} (enough : turns ≤ turnsToo) :
    σ.Follows .inside .inside False (switchCases self seenDefault turns)
      (switchCases other seenDefault turnsToo) σ.Marks := by
  induction turns generalizing turnsToo seenDefault with
  | zero => exact .exhausted
  | succ turns ih =>
    obtain ⟨turnsToo, rfl⟩ := Nat.exists_eq_add_of_lt enough
    rw [switchCases, switchCases]
    apply Follows.sees
    intro ended
    split
    · exact .pure rfl (iff_of_false Follows.not_marks_nil id)
    · apply Follows.nodeStart
      intro start opening sameStart
      apply Follows.step (follows_caseTest nested)
      intro test testToo sameTest
      apply Follows.skip .require
      apply Follows.step (follows_enclosedStatements nested)
      intro consequent consequentToo sameConsequent
      apply Follows.spanFrom sameStart
      intro span cover sameSpan
      have default : testToo.isNone = test.isNone := by
        cases test <;> cases testToo <;> simp_all [Alignment.Same, Located.relocate]
      rw [default]
      apply Follows.step (ih (by omega))
      intro others results sameOthers
      refine .pure (Follows.same_cons ?_ sameOthers) ?_
      · simp_all [Alignment.Same, Located.relocate, SwitchCase.relocate, Expression.relocate?_eq,
          Statement.relocateAll_eq]
      · rw [Follows.marks_cons]
        cases test <;>
          simp [Marks, Located.nodes, Node.hasTerminated_iff (.clause _),
            Node.IsTerminatedAt, Node.children, ← List.map_eq_flatMap]

theorem follows_switchStatement (nested : self.Follows σ other) :
    σ.Follows .inside exit False (switchStatement self) (switchStatement other) σ.Marks := by
  rw [switchStatement, switchStatement]
  apply Follows.nodeStart
  intro start opening sameStart
  apply Follows.skip .require
  apply Follows.step (follows_condition nested)
  intro discriminant front sameDiscriminant
  apply Follows.skip .require
  apply Follows.step (.inSwitch (follows_switchCases nested nested.turns))
  intro cases_ results same
  apply Follows.skip .require
  apply Follows.spanFrom sameStart
  intro span cover sameSpan
  refine .made rfl (fun terminated => by cases terminated.1) ?_ ?_
  · simp_all [Alignment.Same, Located.relocate, Statement.relocate, SwitchCase.relocateAll_eq]
  · simp [Marks, Located.nodes, Node.children, Statement.children, ← List.map_eq_flatMap]

theorem follows_throwStatement (nested : self.Follows σ other) :
    σ.Follows .inside σ.extent False (throwStatement self) (throwStatement other) σ.Marks := by
  rw [throwStatement, throwStatement]
  apply Follows.nodeStart
  intro start opening sameStart
  apply Follows.skip .require
  apply Follows.lookahead
  intro token mate same
  rw [same.flags]
  refine .upon (.refuse (by rintro ⟨⟩) same.start ?_)
  apply Follows.step (follows_expression nested)
  intro argument front sameArgument
  apply Follows.ended sameStart
  intro span cover sameSpan
  refine .madeTerminated rfl rfl ?_ ?_
  · simp_all [Alignment.Same, Located.relocate, Statement.relocate]
  · simp [Marks, Located.nodes, Statement.children]

/-- What is done in front of a token of some kind, with the start of the token in view. -/
theorem nodeStart_consumeIf {α : Type} {expected : Kind} {rest : Position → Bool → Parse α} :
    (nodeStart >>= fun start => consumeIf expected >>= rest start) =
      lookahead >>= fun token =>
        if token.kind = expected then consume >>= fun _ => rest token.span.start true
        else rest token.span.start false := by
  simp only [consumeIf_bind]
  rfl

theorem follows_catchClause? {enter : Extent} (nested : self.Follows σ other) :
    σ.Follows enter enter False (catchClause? self) (catchClause? other) σ.Marks := by
  rw [catchClause?, catchClause?, nodeStart_consumeIf, nodeStart_consumeIf]
  apply Follows.look fun token => token.kind ≠ .symbol Keyword.catchWord
  · intro token mate same
    rw [same.kind]
  · exact Follows.kind_ne_of_edge
  · intro token mate same found
    have found : token.kind = .symbol Keyword.catchWord := Decidable.not_not.mp found
    rw [if_pos found, if_pos (same.kind.trans found)]
    apply Follows.consumes (lexeme_ne_endOfFile found)
    apply Follows.skip .require
    apply Follows.step Follows.bindingIdentifier
    intro parameter front sameParameter
    apply Follows.skip .require
    apply Follows.step (follows_block nested)
    intro body bodyToo sameBody
    apply Follows.spanFrom same.start
    intro span cover sameSpan
    refine .made rfl id ?_ ?_
    · simp_all [Alignment.Same, Located.relocate, CatchClause.relocate]
    · simp [Marks, Located.nodes, Node.children]
  · intro token mate stops stopsToo
    rw [if_neg stops, if_neg stopsToo]
    exact .pure rfl (by simp [Marks, Located.nodes])

theorem follows_tryStatement (nested : self.Follows σ other) :
    σ.Follows .inside σ.extent False (tryStatement self) (tryStatement other) σ.Marks := by
  have rest : ∀ {start opening : Position} {body bodyToo : Block}
      {handler handlerToo : Option CatchClause} {finalizer finalizerToo : Option Block},
      σ.Same start opening → σ.Same body bodyToo → σ.Same handler handlerToo →
      σ.Same finalizer finalizerToo →
      σ.Follows σ.extent σ.extent ((σ.Marks body ∨ σ.Marks handler) ∨ σ.Marks finalizer)
        (do
          if handler.isNone && finalizer.isNone then fail .tryAlone (← nodeStart)
          return Statement.tryBlock body handler finalizer (← spanFrom start))
        (do
          if handlerToo.isNone && finalizerToo.isNone then fail .tryAlone (← nodeStart)
          return Statement.tryBlock bodyToo handlerToo finalizerToo (← spanFrom opening))
        σ.Marks := by
    intro start opening body bodyToo handler handlerToo finalizer finalizerToo sameStart
      sameBody sameHandler sameFinalizer
    have noHandler : handlerToo.isNone = handler.isNone := by
      cases handler <;> cases handlerToo <;> simp_all [Alignment.Same, Located.relocate]
    have noFinalizer : finalizerToo.isNone = finalizer.isNone := by
      cases finalizer <;> cases finalizerToo <;> simp_all [Alignment.Same, Located.relocate]
    rw [noHandler, noFinalizer]
    split
    · exact .failHere (by rintro ⟨⟩)
    · apply Follows.spanFrom sameStart
      intro span cover sameSpan
      refine .made rfl (fun terminated => by cases terminated.1) ?_ ?_
      · simp_all [Alignment.Same, Located.relocate, Statement.relocate, Block.relocate?_eq,
          CatchClause.relocate?_eq]
      · cases handler <;> cases finalizer <;>
          simp [Marks, Located.nodes, Node.children, Statement.children, or_assoc]
  rw [tryStatement, tryStatement]
  apply Follows.nodeStart
  intro start opening sameStart
  apply Follows.skip .require
  apply Follows.step (follows_block nested)
  intro body bodyToo sameBody
  apply Follows.step (follows_catchClause? nested)
  intro handler handlerToo sameHandler
  apply Follows.consumeIf Follows.kind_ne_of_edge
  · rw [if_pos rfl, if_pos rfl, bind_map_left, bind_map_left]
    apply Follows.step (follows_block nested)
    intro finalizer finalizerToo sameFinalizer
    refine (rest sameStart sameBody sameHandler ?_).congr ?_ fun _ => Iff.rfl
    · simp_all [Alignment.Same, Located.relocate]
    · simp [Marks, Located.nodes]
  · rw [if_neg Bool.false_ne_true, if_neg Bool.false_ne_true, pure_bind, pure_bind]
    have none : σ.Same (none : Option Block) none := rfl
    refine (rest sameStart sameBody sameHandler none).congr ?_ fun _ => Iff.rfl
    simp [Marks, Located.nodes]

theorem follows_debuggerStatement {token : Token} (inside : token.lexeme ≠ .endOfFile) :
    σ.Follows .inside σ.extent False (upon token debuggerStatement) debuggerStatement
      σ.Marks := by
  rw [debuggerStatement, nodeStart, bind_assoc]
  apply Follows.lookahead_again
  intro mate same
  simp only [pure_bind]
  apply Follows.consumes inside
  apply Follows.ended same.start
  intro span cover sameSpan
  refine .madeTerminated rfl rfl ?_ ?_
  · simp_all [Alignment.Same, Located.relocate, Statement.relocate]
  · simp [Statement.children]

theorem upon_get {α : Type} {token : Token} {rest : State → Parse α} :
    upon token (get >>= rest) = get >>= fun state => upon token (rest state) := by
  funext state
  by_cases here : state.lookahead = token
  · rw [upon_eq here]
    exact (upon_eq here).symm
  · exact (if_neg here).trans (if_neg here : upon token (rest state) state = _).symm

theorem follows_labelledStatement (nested : self.Follows σ other) {token : Token}
    (inside : token.lexeme ≠ .endOfFile) {start opening : Position} {label front : Identifier}
    (sameStart : σ.Same start opening) (same : σ.Same label front) :
    σ.Follows .inside σ.extent False (upon token (labelledStatement self start label))
      (labelledStatement other opening front) σ.Marks := by
  rw [labelledStatement, labelledStatement, upon_get]
  apply Follows.get
  intro first second _ labels _
  rw [labels, Follows.same_name same]
  split
  · exact .upon (.fail_bind (by rintro ⟨⟩) (Follows.same_start same))
  · apply Follows.consumes inside
    apply Follows.step (.withLabel nested.statement)
    intro body bodyToo sameBody
    apply Follows.spanFrom sameStart
    intro span cover sameSpan
    refine .made rfl (fun terminated => by cases terminated.1) ?_ ?_
    · simp_all [Alignment.Same, Located.relocate, Statement.relocate]
    · simp [Marks, Located.nodes, Node.children, Statement.children]

theorem follows_expressionStatement (nested : self.Follows σ other) :
    σ.Follows .inside σ.extent False (expressionStatement self) (expressionStatement other)
      σ.Marks := by
  rw [expressionStatement, expressionStatement]
  apply Follows.lookahead
  intro token mate same
  apply Follows.upon
  have values : σ.Follows .inside .edge False (expression self) (expression other) σ.Marks :=
    follows_expression nested
  apply Follows.step values
  intro value front sameValue
  obtain ⟨_, named, _⟩ := same_reference sameValue
  rw [Parse.kind, bind_assoc, bind_assoc]
  simp only [pure_bind]
  rw [same.kind]
  -- Only behind a name of its own does a colon keep the statement from its end.
  apply Follows.look fun next =>
    (value.name?.isSome && token.kind == .identifier &&
      next.kind == .symbol Punctuator.colon) = false
  · intro next other sameNext
    rw [sameNext.kind]
  · intro first second _ edge
    rcases σ.closing_of_edge edge with closing | closing <;> rw [closing] <;> simp
  · intro next other sameNext goes
    simp only [Bool.not_eq_false, Bool.and_eq_true, beq_iff_eq] at goes
    obtain ⟨⟨isName, isIdentifier⟩, isColon⟩ := goes
    rw [sameNext.kind, isIdentifier, isColon]
    cases value with
    | identifier label =>
      cases front with
      | identifier labelToo =>
        have sameLabel : σ.Same label labelToo := Expression.identifier.inj sameValue
        refine (follows_labelledStatement nested (lexeme_ne_endOfFile isColon) same.start
          sameLabel).congr ?_ fun _ => Iff.rfl
        simp [Marks, Located.nodes, Node.hasTerminated_iff, Node.IsTerminatedAt, Node.children,
          Expression.children]
      | _ => cases named
    | _ => cases isName
  · intro next other stops stopsToo
    have rest : σ.Follows .edge σ.extent (False ∨ σ.Marks value)
        (semicolon >>= fun _ => spanFrom token.span.start >>= fun span =>
          pure (Statement.expression value none span))
        (semicolon >>= fun _ => spanFrom mate.span.start >>= fun span =>
          pure (Statement.expression front none span))
        σ.Marks := by
      apply Follows.ended same.start
      intro span cover sameSpan
      refine .madeTerminated rfl rfl ?_ ?_
      · simp_all [Alignment.Same, Located.relocate, Statement.relocate]
      · simp [Marks, Located.nodes, Statement.children]
    have returns : ∀ {action mate_ : Parse Statement},
        action = (semicolon >>= fun _ => spanFrom token.span.start >>= fun span =>
          pure (Statement.expression value none span)) →
        mate_ = (semicolon >>= fun _ => spanFrom mate.span.start >>= fun span =>
          pure (Statement.expression front none span)) →
        σ.Follows .edge σ.extent (False ∨ σ.Marks value) action mate_ σ.Marks := by
      rintro _ _ rfl rfl
      exact rest
    rw [← named] at stopsToo
    apply returns <;> split <;> simp_all [Expression.name?]

theorem follows_statement (nested : self.Follows σ other) :
    σ.Follows .inside σ.extent False (statement self) (statement other) σ.Marks := by
  rw [statement, statement]
  apply Follows.lookahead
  intro token mate same
  rw [same.lexeme]
  split
  · refine .upon (.map (follows_block nested) ?_ ?_)
    · intro block front sameBlock
      simp_all [Alignment.Same, Located.relocate, Statement.relocate]
    · intro block
      simp [Marks, Located.nodes, Node.hasTerminated_iff (.statement _),
        Node.hasTerminated_iff (.block _), Node.IsTerminatedAt, Statement.isTerminated,
        Node.children, Statement.children]
  · rename_i found
    apply Follows.consumes (by simp [found])
    refine .made rfl (fun terminated => by cases terminated.1) ?_ ?_
    · have span := same.span
      simp_all [Alignment.Same, Located.relocate, Statement.relocate]
    · simp [Node.children, Statement.children]
  · rename_i word found
    split
    · exact .upon (follows_variableStatement nested)
    · exact .upon (follows_ifStatement nested)
    · exact .upon (follows_whileStatement nested)
    · exact .upon (follows_doWhileStatement nested)
    · exact .upon (follows_forStatement nested)
    · exact .upon follows_continueStatement
    · exact .upon follows_breakStatement
    · exact .upon (follows_returnStatement nested)
    · exact .upon (follows_withStatement nested)
    · exact .upon (follows_switchStatement nested)
    · exact .upon (follows_throwStatement nested)
    · exact .upon (follows_tryStatement nested)
    · exact follows_debuggerStatement (by simp [found])
    · exact .upon (follows_expressionStatement nested)
  · exact .upon (follows_expressionStatement nested)

theorem follows_listItem (nested : self.Follows σ other) :
    σ.Follows .inside σ.extent False (listItem self) (listItem other) σ.Marks := by
  rw [listItem, listItem]
  apply Follows.sees
  intro declared
  split
  · exact follows_functionDeclaration nested
  · exact follows_statement nested

end Grammar

end EcmaScript
