import EcmaScript.Proofs.Following
import EcmaScript.Proofs.ExpressionSoundness

/-!
# Expressions that follow others

Two parses that are level read the same expressions, but for the positions in them. There is one
lemma for each production of functions and expressions, over constructs of the grammar for which the
same is known. The loops of suffixes and operators may begin and end at an edge, where the first
parse returns what it has just as the second one does.
-/

namespace EcmaScript

variable {σ : Alignment} {exit : Extent}

section Relocation

variable {move : Position → Position}

theorem Expression.isReference_relocate (value : Expression) :
    (value.relocate move).isReference = value.isReference := by
  cases value <;> rfl

theorem Expression.name?_relocate (value : Expression) :
    (value.relocate move).name? = value.name? := by
  cases value <;> rfl

theorem Expression.span_relocate (value : Expression) :
    (value.relocate move).span = value.span.relocate move := by
  cases value <;> rfl

end Relocation

/-- An action that is only ever run in front of a binary operator. -/
def Parse.before {α : Type} (operator : BinaryOperator) (action : Parse α) : Parse α := fun state =>
  if state.operator? = some operator then action state else Parse.exhausted state

/-- The constructs by which the grammar is recursive read the same in both parses.

The parse that follows may be allowed more turns than the other. -/
structure Nonterminals.Follows (σ : Alignment) (first second : Nonterminals) : Prop where
  turns : first.turns ≤ second.turns
  sound : first.Sound
  soundToo : second.Sound
  expression : ∀ {exit}, σ.Follows .inside exit False first.expression second.expression σ.Marks
  assignment : ∀ {exit}, σ.Follows .inside exit False first.assignment second.assignment σ.Marks
  unary : ∀ {exit}, σ.Follows .inside exit False first.unary second.unary σ.Marks
  operators : ∀ {exit start opening left front operator tier}, tier ≤ operator.precedence →
    σ.Same start opening → σ.Same left front →
    σ.Follows .inside exit (σ.Marks left)
      (Parse.before operator (first.operators start tier left))
      (second.operators opening tier front) σ.Marks
  callee : ∀ {exit}, σ.Follows .inside exit False first.callee second.callee σ.Marks
  statement : σ.Follows .inside σ.extent False first.statement second.statement σ.Marks
  listItem : σ.Follows .inside σ.extent False first.listItem second.listItem σ.Marks

namespace Alignment.Follows

open Parse

variable {α : Type} [Located α] {known : Prop}

/-- A node with the same parts, in which an edge lies behind if it does in its parts. -/
theorem made {value result : α} {node : Node} (nodes : Located.nodes value = [node])
    (plain : ¬node.IsTerminatedAt σ.Ends) (same : σ.Same value result)
    (found : known ↔ Node.AnyTerminated σ.Ends node.children) :
    σ.Follows exit exit known (Pure.pure value) (Pure.pure result) σ.Marks := by
  refine .pure same ?_
  rw [Marks, nodes, Node.anyTerminated_cons, Node.hasTerminated_iff, found]
  simp [plain]

theorem not_marks_identifier {identifier : Identifier} : ¬σ.Marks identifier := by
  simp [Marks, Located.nodes]

theorem not_marks_identifiers {identifiers : List Identifier} : ¬σ.Marks identifiers := by
  induction identifiers with
  | nil => exact not_marks_nil
  | cons identifier identifiers ih => simp [marks_cons, not_marks_identifier, ih]

theorem identifierReference :
    σ.Follows .inside exit False Parse.identifierReference Parse.identifierReference
      fun _ => False := by
  rw [Parse.identifierReference]
  apply Follows.lookahead
  intro token other same
  rw [same.lexeme]
  split
  · rename_i name found
    apply Follows.consumes (by simp [found])
    apply Follows.isStrict
    intro strict
    dsimp only
    refine .refuse (by rintro ⟨⟩) same.start (.pure ?_ Iff.rfl)
    have span := same.span
    simp_all [Alignment.Same, Located.relocate, Identifier.relocate]
  · exact .upon .unexpected

theorem same_name {identifier other : Identifier} (same : σ.Same identifier other) :
    other.name = identifier.name :=
  (congrArg Identifier.name same).symm

theorem same_start {identifier other : Identifier} (same : σ.Same identifier other) :
    σ.Same identifier.span.start other.span.start :=
  congrArg (Span.start ∘ Identifier.span) same

theorem bindingIdentifier :
    σ.Follows .inside exit False Parse.bindingIdentifier Parse.bindingIdentifier
      fun _ => False := by
  rw [Parse.bindingIdentifier]
  apply Follows.step identifierReference
  intro name other same
  apply Follows.isStrict
  intro strict
  dsimp only
  rw [same_name same]
  exact .refuse (by rintro ⟨⟩) (same_start same) (.pure same (by simp))

theorem identifierName :
    σ.Follows .inside exit False Parse.identifierName Parse.identifierName fun _ => False := by
  rw [Parse.identifierName]
  apply Follows.lookahead
  intro token other same
  rw [same.kind, same.name?]
  split
  · rename_i isName
    apply Follows.consumes
    · intro ended
      simp [Token.kind, ended, Lexeme.kind, Kind.isIdentifierName, Kind.isReservedWord] at isName
    · refine .pure ?_ Iff.rfl
      have span := same.span
      simp_all [Alignment.Same, Located.relocate, Identifier.relocate]
  · exact .upon .unexpected

end Alignment.Follows

namespace Grammar

open Parse EcmaScript.Alignment

variable {self other : Nonterminals}

theorem follows_formalParameters (nested : self.Follows σ other) :
    σ.Follows .inside exit False (formalParameters self) (formalParameters other)
      fun _ => False := by
  have names : σ.Follows .inside .inside False (separated bindingIdentifier self.turns)
      (separated bindingIdentifier other.turns) fun _ => False := by
    refine (Follows.separated (Follows.bindingIdentifier.congr Iff.rfl ?_) nested.turns).congr
      Iff.rfl ?_
    · exact fun _ => iff_of_false Follows.not_marks_identifier id
    · exact fun _ => iff_of_false id Follows.not_marks_identifiers
  rw [formalParameters, formalParameters]
  apply Follows.skip .require
  apply Follows.sees
  intro closed
  dsimp only
  split
  · rw [pure_bind]
    apply Follows.skip .require
    exact .pure rfl Iff.rfl
  · apply Follows.step names
    intro names results same
    apply Follows.skip .require
    exact .pure same (by simp)

/-- The string that a statement is, with the place of the statement. -/
def bareString? : Statement → Option (Expression × Span)
  | .expression (.literal (.string value) raw literalSpan) none span =>
    some (.literal (.string value) raw literalSpan, span)
  | _ => none

theorem bareString?_relocate {move : Position → Position} (statement : Statement) :
    bareString? (statement.relocate move) = Located.relocate move (bareString? statement) := by
  cases statement with
  | expression value directive span =>
    cases value with
    | literal value raw span => cases directive <;> cases value <;> rfl
    | _ => rfl
  | _ => rfl

/-- A statement that begins with a string and is a literal is that string. -/
theorem directive?_eq {statement : Parse Statement}
    (sound : statement.Sound fun scope value => Reads scope (.statement value))
    {state after : State} {first : Statement} (string : state.lookahead.kind = .stringLiteral)
    (run : statement state = .ok first after) :
    directive? state.lookahead first = bareString? first := by
  unfold directive?
  split
  · rename_i value raw span whole
    refine if_pos ?_
    obtain ⟨tokens, consumed, reads⟩ := (sound state).of_ok run
    have opens := consumed.opens
    cases reads with
    | expressionStatement _ _ readsValue =>
      have noSymbol : ∀ symbol, state.lookahead.kind ≠ .symbol symbol := by simp [string]
      rcases readsValue.cases_fits with ⟨_, made⟩ | ⟨opening, inside, closing, rfl, paren, _⟩
      · cases made
        rw [opens.eq_first noSymbol]
      · rw [opens.eq_first noSymbol, string] at paren
        cases paren
  · rename_i other
    unfold bareString?
    split
    · exact absurd rfl (other _ _ _ _)
    · rfl

/-- The directives at the beginning of a body, by the statements that they are. -/
theorem directives_succ {statement : Parse Statement}
    (sound : statement.Sound fun scope value => Reads scope (.statement value)) (turns : Nat) :
    directives statement (turns + 1) = (do
      let opening ← lookahead
      if opening.kind != .stringLiteral then return []
      let first ← statement
      match bareString? first with
      | some (expression, span) =>
        let text := insideQuotes opening.text
        if text == "use strict" then enableStrict
        let others ← directives statement turns
        return .expression expression (some text) span :: others
      | none => return [first]) := by
  funext state
  rw [directives]
  change (if _ then _ else _ : Parse (List Statement)) state =
    (if _ then _ else _ : Parse (List Statement)) state
  split
  · rfl
  · rename_i string
    have string : state.lookahead.kind = .stringLiteral := by simpa using string
    change EStateM.bind _ _ state = EStateM.bind _ _ state
    unfold EStateM.bind
    cases run : statement state with
    | error => rfl
    | ok first after =>
      have same := directive?_eq sound string run
      dsimp only
      generalize directive? state.lookahead first = found at same ⊢
      subst same
      cases bareString? first <;> rfl

/-- A directive is an end of a statement as much as the string that it is. -/
theorem marks_directive {first : Statement} {value : Expression} {span : Span} (text : String)
    (found : bareString? first = some (value, span)) :
    σ.Marks (Statement.expression value (some text) span) ↔ σ.Marks first := by
  unfold bareString? at found
  split at found
  · cases found
    simp only [Marks, Located.nodes, Node.anyTerminated_cons]
    rw [Node.hasTerminated_iff, Node.hasTerminated_iff (.statement (.expression _ none _))]
    rfl
  · cases found

theorem follows_directives {statement other : Parse Statement}
    (sound : statement.Sound fun scope value => Reads scope (.statement value))
    (soundToo : other.Sound fun scope value => Reads scope (.statement value))
    (follows : σ.Follows .inside σ.extent False statement other σ.Marks) {turns turnsToo : Nat}
    (enough : turns ≤ turnsToo) :
    σ.Follows σ.extent σ.extent False (directives statement turns) (directives other turnsToo)
      σ.Marks := by
  induction turns generalizing turnsToo with
  | zero => exact .exhausted
  | succ turns ih =>
    obtain ⟨turnsToo, rfl⟩ := Nat.exists_eq_add_of_lt enough
    rw [directives_succ sound, directives_succ soundToo]
    apply Follows.look fun token => token.kind ≠ .stringLiteral
    · intro token mate same
      rw [same.kind]
    · intro first second _ edge
      rcases σ.closing_of_edge edge with closing | closing <;> rw [closing] <;> decide
    · intro token mate same string
      have string : token.kind = .stringLiteral := Decidable.not_not.mp string
      rw [same.kind, same.text, string]
      refine .upon (.step follows fun first result sameFirst => ?_)
      have alike : Located.relocate σ.left (bareString? first) =
          Located.relocate σ.right (bareString? result) := by
        rw [← bareString?_relocate, ← bareString?_relocate]
        exact congrArg bareString? sameFirst
      cases found : bareString? first with
      | none =>
        cases foundToo : bareString? result with
        | none =>
          refine .pure (Follows.same_cons sameFirst rfl) ?_
          simp [Follows.marks_cons, Follows.not_marks_nil]
        | some => simp [found, foundToo, Located.relocate] at alike
      | some directive =>
        cases foundToo : bareString? result with
        | none => simp [found, foundToo, Located.relocate] at alike
        | some directiveToo =>
          obtain ⟨value, span⟩ := directive
          obtain ⟨front, cover⟩ := directiveToo
          rw [found, foundToo] at alike
          have rest : σ.Follows σ.extent σ.extent (False ∨ σ.Marks first)
              (directives statement turns >>= fun others =>
                pure (.expression value (some (insideQuotes token.text)) span :: others))
              (directives other (turns + turnsToo) >>= fun others =>
                pure (.expression front (some (insideQuotes token.text)) cover :: others))
              σ.Marks := by
            apply Follows.step (ih (by omega))
            intro others results sameOthers
            refine .pure (Follows.same_cons ?_ sameOthers) ?_
            · simp_all [Alignment.Same, Located.relocate, Statement.relocate]
            · rw [Follows.marks_cons, marks_directive _ found, false_or]
          dsimp only
          split
          · exact .bind Follows.enableStrict fun _ _ _ => rest
          · exact rest
    · intro token mate stops stopsToo
      rw [if_pos (by simpa using stops), if_pos (by simpa using stopsToo)]
      exact .pure rfl (iff_of_false Follows.not_marks_nil id)

/-- Statements up to a token that ends them. Where statements may come up to an edge, it ends them
in both parses. -/
theorem follows_statementList {enter : Extent} (nested : self.Follows σ other)
    (allowed : enter = .edge → σ.extent = .edge) :
    σ.Follows enter enter False (statementList self) (statementList other) σ.Marks := by
  refine .itemsUntil (fun atEdge => ⟨allowed atEdge, rfl, rfl⟩) ?_ nested.turns
  cases enter with
  | inside => exact nested.listItem.narrow
  | edge => exact allowed rfl ▸ nested.listItem

theorem follows_functionBody (nested : self.Follows σ other) :
    σ.Follows .inside exit False (functionBody self) (functionBody other) σ.Marks := by
  rw [functionBody, functionBody]
  apply Follows.nodeStart
  intro start opening sameStart
  apply Follows.skip .require
  have inside : σ.Follows σ.extent exit False
      (do
        let opening ← directives self.statement self.turns
        let others ← statementList self
        require Punctuator.rightBrace
        return opening ++ others)
      (do
        let opening ← directives other.statement other.turns
        let others ← statementList other
        require Punctuator.rightBrace
        return opening ++ others)
      σ.Marks := by
    refine .step (follows_directives nested.sound.statement nested.soundToo.statement
      nested.statement nested.turns).narrow ?_
    intro front frontToo sameFront
    apply Follows.step (follows_statementList nested (by simp))
    intro back backToo sameBack
    apply Follows.skip .require
    exact .pure (Follows.same_append sameFront sameBack) (by rw [Follows.marks_append, false_or])
  apply Follows.step (.inFunction inside)
  intro body bodyToo sameBody
  apply Follows.spanFrom sameStart
  intro span cover sameSpan
  refine .made rfl id ?_ ?_
  · simp_all [Alignment.Same, Located.relocate, Block.relocate, Statement.relocateAll_eq]
  · simp [Marks, Located.nodes, Node.children, ← List.map_eq_flatMap]

theorem follows_functionExpression (nested : self.Follows σ other) :
    σ.Follows .inside exit False (functionExpression self) (functionExpression other) σ.Marks := by
  have rest : ∀ {start opening : Position} {name result : Option Identifier},
      σ.Same start opening → σ.Same name result →
      σ.Follows .inside exit False
        (do
          let parameters ← formalParameters self
          let body ← functionBody self
          return Expression.function name parameters body (← spanFrom start))
        (do
          let parameters ← formalParameters other
          let body ← functionBody other
          return Expression.function result parameters body (← spanFrom opening))
        σ.Marks := by
    intro start opening name result sameStart sameName
    apply Follows.step (follows_formalParameters nested)
    intro parameters results sameParameters
    apply Follows.step (follows_functionBody nested)
    intro body block sameBody
    apply Follows.spanFrom sameStart
    intro span cover sameSpan
    refine .made rfl id ?_ ?_
    · simp_all [Alignment.Same, Located.relocate, Expression.relocate]
    · simp [Marks, Located.nodes, Node.children, Expression.children]
  rw [functionExpression, functionExpression]
  apply Follows.nodeStart
  intro start opening sameStart
  apply Follows.skip .require
  apply Follows.sees
  intro named
  dsimp only
  split
  · rw [bind_map_left, bind_map_left]
    apply Follows.step Follows.bindingIdentifier
    intro name result sameName
    refine (rest sameStart ?_).congr (by simp) fun _ => Iff.rfl
    simp_all [Alignment.Same, Located.relocate]
  · rw [pure_bind, pure_bind]
    exact rest sameStart rfl

theorem follows_functionDeclaration (nested : self.Follows σ other) :
    σ.Follows .inside exit False (functionDeclaration self) (functionDeclaration other)
      σ.Marks := by
  rw [functionDeclaration, functionDeclaration]
  apply Follows.nodeStart
  intro start opening sameStart
  apply Follows.skip .require
  apply Follows.step Follows.bindingIdentifier
  intro name result sameName
  apply Follows.step (follows_formalParameters nested)
  intro parameters results sameParameters
  apply Follows.step (follows_functionBody nested)
  intro body block sameBody
  apply Follows.spanFrom sameStart
  intro span cover sameSpan
  refine .made rfl (fun terminated => by cases terminated.1) ?_ ?_
  · simp_all [Alignment.Same, Located.relocate, Statement.relocate]
  · simp [Marks, Located.nodes, Node.children, Statement.children]

theorem follows_literalToken {token : Token} (inside : token.lexeme ≠ .endOfFile) :
    σ.Follows .inside exit False (upon token literalToken) literalToken fun _ => False := by
  rw [literalToken]
  apply Follows.lookahead_again
  intro other same
  rw [same.flags]
  apply Follows.consumes inside
  apply Follows.isStrict
  intro strict
  dsimp only
  refine .refuse (by rintro ⟨⟩) same.start (.pure ?_ Iff.rfl)
  have span := same.span
  have text := same.text
  simp_all [Alignment.Same, Located.relocate]

theorem follows_literal {token : Token} {value : Literal} (inside : token.lexeme ≠ .endOfFile) :
    σ.Follows .inside exit False (upon token (literal value)) (literal value) σ.Marks := by
  rw [literal, upon_bind]
  apply Follows.step (follows_literalToken inside)
  rintro ⟨raw, span⟩ ⟨rawToo, cover⟩ same
  refine .made rfl id ?_ ?_
  · simp_all [Alignment.Same, Located.relocate, Expression.relocate]
  · simp [Node.children, Expression.children]

theorem lexeme_ne_endOfFile_of_literal? {token : Token} {value : Literal}
    (found : token.lexeme.literal? = some value) : token.lexeme ≠ .endOfFile := by
  intro ended
  simp [ended, Lexeme.literal?] at found

theorem follows_regularExpression {token : Token} {front : List Char}
    (slash : Scan.slash? token.lexeme = some front) :
    σ.Follows .inside exit False (upon token (regularExpression front)) (regularExpression front)
      σ.Marks := by
  rw [regularExpression, upon_bind]
  apply Follows.bind (.reread slash)
  intro _ _ _
  apply Follows.lookahead
  intro token other same
  rw [same.lexeme]
  split
  · rename_i value found
    exact follows_literal (lexeme_ne_endOfFile_of_literal? found)
  · exact .upon .unexpected

theorem same_reference {target front : Expression} (same : σ.Same target front) :
    front.isReference = target.isReference ∧ front.name? = target.name? ∧
      σ.Same target.span.start front.span.start := by
  refine ⟨?_, ?_, ?_⟩
  · rw [← front.isReference_relocate, ← target.isReference_relocate]
    exact congrArg Expression.isReference (Eq.symm same)
  · rw [← front.name?_relocate, ← target.name?_relocate]
    exact congrArg Expression.name? (Eq.symm same)
  · have spans := congrArg Expression.span same
    change (target.relocate _).span = (front.relocate _).span at spans
    rw [Expression.span_relocate, Expression.span_relocate] at spans
    exact congrArg Span.start spans

theorem follows_checkTarget {enter : Extent} {target front : Expression}
    (same : σ.Same target front) :
    σ.Follows enter enter False (checkTarget target) (checkTarget front) fun _ => False := by
  obtain ⟨_, name, start⟩ := same_reference same
  rw [checkTarget, checkTarget, name]
  apply Follows.isStrict
  intro strict
  split
  · exact .fail (by rintro ⟨⟩) start
  · exact .pure rfl Iff.rfl

theorem follows_arguments (nested : self.Follows σ other) :
    σ.Follows .inside exit False (arguments self) (arguments other) σ.Marks := by
  rw [arguments, arguments]
  apply Follows.skip .require
  apply Follows.withIn
  apply Follows.sees
  intro closed
  dsimp only
  split
  · rw [pure_bind]
    apply Follows.skip .require
    exact .pure rfl (by simp [Follows.not_marks_nil])
  · apply Follows.step (.separated nested.assignment nested.turns)
    intro items results same
    apply Follows.skip .require
    exact .pure same (by simp)

theorem follows_parenthesized (nested : self.Follows σ other) :
    σ.Follows .inside exit False (parenthesized self) (parenthesized other) σ.Marks := by
  rw [parenthesized, parenthesized]
  apply Follows.skip .require
  apply Follows.step (.withIn nested.expression)
  intro value front same
  apply Follows.skip .require
  exact .pure same (by simp)

theorem follows_itemWithComma {α : Type} [Located α] {closing : Punctuator} {item items : Parse α}
    (follows : σ.Follows .inside .inside False item items σ.Marks) :
    σ.Follows .inside .inside False (itemWithComma closing item) (itemWithComma closing items)
      σ.Marks := by
  rw [itemWithComma, itemWithComma]
  apply Follows.step follows
  intro value result same
  apply Follows.sees
  intro closed
  dsimp only
  split
  · exact .pure same (by simp)
  · apply Follows.skip .require
    exact .pure same (by simp)

theorem follows_element (nested : self.Follows σ other) :
    σ.Follows .inside .inside False (element self) (element other) σ.Marks := by
  rw [element, element]
  apply Follows.consumeIf (by simp)
  · rw [if_pos rfl, if_pos rfl]
    exact .pure rfl (by simp [Marks, Located.nodes])
  · rw [if_neg Bool.false_ne_true, if_neg Bool.false_ne_true]
    refine .map (follows_itemWithComma nested.assignment) ?_ ?_
    · intro value result same
      simp_all [Alignment.Same, Located.relocate]
    · simp [Marks, Located.nodes]

theorem follows_arrayLiteral (nested : self.Follows σ other) :
    σ.Follows .inside exit False (arrayLiteral self) (arrayLiteral other) σ.Marks := by
  rw [arrayLiteral, arrayLiteral]
  apply Follows.nodeStart
  intro start opening sameStart
  apply Follows.skip .require
  apply Follows.step (.withIn (.itemsUntil (by simp) (follows_element nested) nested.turns))
  intro elements results same
  apply Follows.skip .require
  apply Follows.spanFrom sameStart
  intro span cover sameSpan
  refine .made rfl id ?_ ?_
  · simp_all [Alignment.Same, Located.relocate, Expression.relocate,
      Expression.relocateElements_eq]
  · have flat : ∀ elements : List (Option Expression),
        Located.nodes elements = (elements.filterMap id).map .expression := by
      intro elements
      induction elements with
      | nil => rfl
      | cons element elements ih => cases element <;> simp_all [Located.nodes]
    simp [Marks, flat, Node.children, Expression.children]

theorem follows_literalKey {token : Token} {value : Literal} (inside : token.lexeme ≠ .endOfFile) :
    σ.Follows .inside exit False (upon token (literalKey value)) (literalKey value)
      fun _ => False := by
  rw [literalKey, upon_bind]
  apply Follows.step (follows_literalToken inside)
  rintro ⟨raw, span⟩ ⟨rawToo, cover⟩ same
  refine .pure ?_ (by simp)
  simp_all [Alignment.Same, Located.relocate, PropertyKey.relocate]

theorem follows_propertyKey :
    σ.Follows .inside exit False propertyKey propertyKey fun _ => False := by
  rw [propertyKey]
  apply Follows.lookahead
  intro token other same
  rw [same.lexeme]
  split
  · rename_i found
    exact follows_literalKey (by simp [found])
  · rename_i found
    exact follows_literalKey (by simp [found])
  · refine .upon (.map Follows.identifierName ?_ fun _ => Iff.rfl)
    intro name result same
    exact congrArg PropertyKey.identifier same

theorem follows_checkAccessor {kind : PropertyKind} {parameters names : List Identifier}
    {position opening : Position} (same : σ.Same parameters names)
    (samePosition : σ.Same position opening) :
    σ.Follows .inside .inside False (checkAccessor kind parameters position)
      (checkAccessor kind names opening) fun _ => False := by
  have length : parameters.length = names.length := by
    have lengths := congrArg List.length same
    simpa [Located.relocate] using lengths
  rcases parameters with - | ⟨first, - | ⟨second, others⟩⟩ <;>
    rcases names with - | ⟨front, - | ⟨next, rest⟩⟩ <;>
    simp only [List.length_cons, List.length_nil] at length <;>
    first
    | omega
    | cases kind <;> first | exact .fail (by rintro ⟨⟩) samePosition | exact .pure rfl Iff.rfl

theorem follows_accessorFunction (nested : self.Follows σ other) {kind : PropertyKind} :
    σ.Follows .inside exit False (accessorFunction self kind) (accessorFunction other kind)
      σ.Marks := by
  rw [accessorFunction, accessorFunction]
  apply Follows.nodeStart
  intro start opening sameStart
  apply Follows.step (follows_formalParameters nested)
  intro parameters names same
  apply Follows.skip (follows_checkAccessor same sameStart)
  apply Follows.step (follows_functionBody nested)
  intro body block sameBody
  apply Follows.spanFrom sameStart
  intro span cover sameSpan
  refine .made rfl id ?_ ?_
  · simp_all [Alignment.Same, Located.relocate, Expression.relocate]
  · simp [Marks, Located.nodes, Node.children, Expression.children]

theorem follows_propertyValue (nested : self.Follows σ other) {start opening : Position}
    {key keyToo : PropertyKey} (sameStart : σ.Same start opening) (sameKey : σ.Same key keyToo) :
    σ.Follows .inside exit False (propertyValue self start key)
      (propertyValue other opening keyToo) σ.Marks := by
  rw [propertyValue, propertyValue]
  apply Follows.skip .require
  apply Follows.step nested.assignment
  intro value front sameValue
  apply Follows.spanFrom sameStart
  intro span cover sameSpan
  refine .made rfl id ?_ ?_
  · simp_all [Alignment.Same, Located.relocate, Property.relocate]
  · simp [Marks, Located.nodes, Node.children]

theorem follows_property (nested : self.Follows σ other) :
    σ.Follows .inside exit False (property self) (property other) σ.Marks := by
  rw [property, property]
  apply Follows.lookahead
  intro token mate same
  have start := same.start
  dsimp only
  rw [same.lexeme, same.name?]
  split
  · rename_i kind found
    apply Follows.consumes (by intro ended; simp [ended, accessorKind?] at found)
    apply Follows.kind
    intro next
    split
    · apply Follows.step follows_propertyKey
      intro key keyToo sameKey
      apply Follows.step (follows_accessorFunction nested)
      intro value front sameValue
      apply Follows.spanFrom start
      intro span cover sameSpan
      refine .made rfl id ?_ ?_
      · simp_all [Alignment.Same, Located.relocate, Property.relocate]
      · simp [Marks, Located.nodes, Node.children]
    · refine follows_propertyValue nested start ?_
      have span := same.span
      simp_all [Alignment.Same, Located.relocate, PropertyKey.relocate, Identifier.relocate]
  · apply Follows.upon
    apply Follows.step follows_propertyKey
    intro key keyToo sameKey
    exact (follows_propertyValue nested start sameKey).congr (by simp) fun _ => Iff.rfl

theorem follows_objectLiteral (nested : self.Follows σ other) :
    σ.Follows .inside exit False (objectLiteral self) (objectLiteral other) σ.Marks := by
  rw [objectLiteral, objectLiteral]
  apply Follows.nodeStart
  intro start opening sameStart
  apply Follows.skip .require
  apply Follows.step (.withIn (.itemsUntil (by simp)
    (follows_itemWithComma (follows_property nested)) nested.turns))
  intro properties results same
  apply Follows.skip .require
  apply Follows.spanFrom sameStart
  intro span cover sameSpan
  refine .made rfl id ?_ ?_
  · simp_all [Alignment.Same, Located.relocate, Expression.relocate, Property.relocateAll_eq]
  · simp [Marks, Located.nodes, Node.children, Expression.children, ← List.map_eq_flatMap]

theorem follows_primary (nested : self.Follows σ other) :
    σ.Follows .inside exit False (primary self) (primary other) σ.Marks := by
  rw [primary, primary]
  apply Follows.lookahead
  intro token mate same
  rw [same.lexeme]
  split
  · rename_i found
    apply Follows.consumes (by simp [found])
    refine .made rfl id ?_ ?_
    · have span := same.span
      simp_all [Alignment.Same, Located.relocate, Expression.relocate]
    · simp [Node.children, Expression.children]
  · refine .upon (.map Follows.identifierReference ?_ ?_)
    · intro name result same
      exact congrArg Expression.identifier same
    · intro name
      simp [Marks, Located.nodes, Node.hasTerminated_iff, Node.IsTerminatedAt, Node.children,
        Expression.children]
  · exact .upon (follows_parenthesized nested)
  · exact .upon (follows_arrayLiteral nested)
  · exact .upon (follows_objectLiteral nested)
  · exact .upon (follows_functionExpression nested)
  · split
    · rename_i slash
      exact follows_regularExpression slash
    · rename_i found
      exact follows_literal (lexeme_ne_endOfFile_of_literal? found)
    · exact .upon .unexpected

theorem follows_newExpression (nested : self.Follows σ other) :
    σ.Follows .inside exit False (newExpression self) (newExpression other) σ.Marks := by
  have rest : ∀ {start opening : Position} {callee front : Expression}
      {items results : List Expression}, σ.Same start opening → σ.Same callee front →
      σ.Same items results →
      σ.Follows exit exit (σ.Marks callee ∨ σ.Marks items)
        (spanFrom start >>= fun span => pure (Expression.new callee items span))
        (spanFrom opening >>= fun span => pure (Expression.new front results span)) σ.Marks := by
    intro start opening callee front items results sameStart sameCallee same
    apply Follows.spanFrom sameStart
    intro span cover sameSpan
    refine .made rfl id ?_ ?_
    · simp_all [Alignment.Same, Located.relocate, Expression.relocate, Expression.relocateAll_eq]
    · simp [Marks, Located.nodes, Node.children, Expression.children, ← List.map_eq_flatMap]
  rw [newExpression, newExpression]
  apply Follows.nodeStart
  intro start opening sameStart
  apply Follows.skip .require
  apply Follows.bind nested.callee
  intro callee front sameCallee
  apply Follows.ifSees Follows.kind_ne_of_edge
  · rw [if_pos rfl, if_pos rfl]
    apply Follows.step (follows_arguments nested)
    intro items results same
    exact rest sameStart sameCallee same
  · rw [if_neg Bool.false_ne_true, if_neg Bool.false_ne_true, pure_bind, pure_bind]
    have none : σ.Same ([] : List Expression) [] := rfl
    exact (rest sameStart sameCallee none).congr (by simp [Follows.not_marks_nil]) fun _ => Iff.rfl

/-- A token with which an expression goes on, after a part that may be called or not. -/
def startsSuffix (withCalls : Bool) : Lexeme → Bool
  | .symbol (.punctuator .period) | .symbol (.punctuator .leftBracket) => true
  | .symbol (.punctuator .leftParen) => withCalls
  | _ => false

theorem follows_suffixes (nested : self.Follows σ other) {withCalls : Bool}
    {start opening : Position} (sameStart : σ.Same start opening) {turns turnsToo : Nat}
    (enough : turns ≤ turnsToo) {value front : Expression} (same : σ.Same value front) :
    σ.Follows exit exit (σ.Marks value) (suffixes self withCalls start turns value)
      (suffixes other withCalls opening turnsToo front) σ.Marks := by
  induction turns generalizing turnsToo value front with
  | zero => exact .exhausted
  | succ turns ih =>
    obtain ⟨turnsToo, rfl⟩ := Nat.exists_eq_add_of_lt enough
    have enough : turns ≤ turns + turnsToo := by omega
    rw [suffixes, suffixes]
    apply Follows.look fun token => startsSuffix withCalls token.lexeme = false
    · intro token mate same
      rw [same.lexeme]
    · intro first second _ edge
      rcases σ.closing_of_edge edge with closing | closing <;>
        cases lexeme : second.lookahead.lexeme <;>
        simp_all [Token.kind, Lexeme.kind, startsSuffix]
    · intro token mate sameToken goes
      rw [sameToken.lexeme]
      split
      · rename_i found
        apply Follows.consumes (by simp [found])
        apply Follows.step .identifierName
        intro name result sameName
        apply Follows.spanFrom sameStart
        intro span cover sameSpan
        refine (ih enough ?_).congr ?_ fun _ => Iff.rfl
        · simp_all [Alignment.Same, Located.relocate, Expression.relocate]
        · simp [Marks, Located.nodes, Node.hasTerminated_iff (.expression (.dot ..)),
            Node.IsTerminatedAt, Node.children, Expression.children]
      · rename_i found
        apply Follows.consumes (by simp [found])
        apply Follows.step (.withIn nested.expression)
        intro name result sameName
        apply Follows.skip .require
        apply Follows.spanFrom sameStart
        intro span cover sameSpan
        refine (ih enough ?_).congr ?_ fun _ => Iff.rfl
        · simp_all [Alignment.Same, Located.relocate, Expression.relocate]
        · simp [Marks, Located.nodes, Node.hasTerminated_iff (.expression (.index ..)),
            Node.IsTerminatedAt, Node.children, Expression.children]
      · rename_i found
        rw [if_pos (by simpa [found, startsSuffix] using goes),
          if_pos (by simpa [found, startsSuffix] using goes)]
        apply Follows.upon
        apply Follows.step (follows_arguments nested)
        intro items results sameItems
        apply Follows.spanFrom sameStart
        intro span cover sameSpan
        refine (ih enough ?_).congr ?_ fun _ => Iff.rfl
        · simp_all [Alignment.Same, Located.relocate, Expression.relocate,
            Expression.relocateAll_eq]
        · simp [Marks, Located.nodes, Node.hasTerminated_iff (.expression (.call ..)),
            Node.IsTerminatedAt, Node.children, Expression.children, ← List.map_eq_flatMap]
      · rename_i noPeriod noBracket noParen
        refine absurd ?_ goes
        unfold startsSuffix
        split <;> simp_all
    · intro token mate stops stopsToo
      have returns : ∀ {action mate : Parse Expression}, action = pure value → mate = pure front →
          σ.Follows exit exit (σ.Marks value) action mate σ.Marks := by
        rintro _ _ rfl rfl
        exact .pure same Iff.rfl
      apply returns <;> split <;> simp_all [startsSuffix]

theorem follows_leftHandSide (nested : self.Follows σ other) {withCalls : Bool} :
    σ.Follows .inside exit False (leftHandSide self withCalls) (leftHandSide other withCalls)
      σ.Marks := by
  rw [leftHandSide, leftHandSide]
  apply Follows.nodeStart
  intro start opening sameStart
  apply Follows.sees
  intro constructed
  dsimp only
  split
  · exact .bind (follows_newExpression nested) fun value front same =>
      follows_suffixes nested sameStart nested.turns same
  · exact .bind (follows_primary nested) fun value front same =>
      follows_suffixes nested sameStart nested.turns same

theorem lookahead_of_checkTarget {target : Expression} {state next : State}
    (run : checkTarget target state = .ok () next) : next.lookahead = state.lookahead := by
  change (if _ then _ else _ : Parse Unit) state = _ at run
  split at run <;> cases run
  rfl

/-- A token that ends the operand in front of it, because it is no operator behind an operand. -/
def endsOperand (token : Token) : Bool :=
  token.kind.updateOperator?.isNone || token.flags.lineBreak

theorem follows_update (nested : self.Follows σ other) :
    σ.Follows .inside exit False (update self) (update other) σ.Marks := by
  have made : ∀ {start opening : Position} {operator : UpdateOperator} {placement : Placement}
      {target front : Expression}, σ.Same start opening → σ.Same target front →
      σ.Follows exit exit (σ.Marks target)
        (spanFrom start >>= fun span => pure (Expression.update operator placement target span))
        (spanFrom opening >>= fun span => pure (Expression.update operator placement front span))
        σ.Marks := by
    intro start opening operator placement target front sameStart sameTarget
    apply Follows.spanFrom sameStart
    intro span cover sameSpan
    refine .made rfl id ?_ ?_
    · simp_all [Alignment.Same, Located.relocate, Expression.relocate]
    · simp [Marks, Located.nodes, Node.children, Expression.children]
  rw [update, update]
  apply Follows.nodeStart
  intro start opening sameStart
  rw [Parse.kind, bind_assoc, bind_assoc]
  apply Follows.lookahead
  intro token mate same
  rw [pure_bind, pure_bind, same.kind]
  split
  · rename_i found
    apply Follows.consumes (lexeme_ne_endOfFile_of_view rfl found)
    apply Follows.step nested.unary
    intro target front sameTarget
    obtain ⟨reference, _, sameOpening⟩ := same_reference sameTarget
    dsimp only
    rw [reference]
    have grammatical : Cause.invalidTargetAfterUpdate.category ≠ .lexical := by rintro ⟨⟩
    apply Follows.need grammatical sameOpening
    apply Follows.skip (follows_checkTarget sameTarget)
    exact (made sameStart sameTarget).congr (by simp) fun _ => Iff.rfl
  · apply Follows.upon
    apply Follows.bind (follows_leftHandSide nested)
    intro target front sameTarget
    obtain ⟨reference, _, sameOpening⟩ := same_reference sameTarget
    dsimp only
    apply Follows.look fun token => endsOperand token = true
    · intro token mate same
      rw [endsOperand, endsOperand, same.kind, same.flags]
    · intro first second _ edge
      rcases σ.closing_of_edge edge with closing | closing <;> rw [endsOperand, closing] <;> rfl
    · intro token mate same goes
      rw [same.kind, same.flags]
      split
      · rename_i found _
        rw [reference]
        split
        · apply Follows.holding lookahead_of_checkTarget (follows_checkTarget sameTarget)
          apply Follows.consumes (lexeme_ne_endOfFile_of_view rfl found)
          exact made sameStart sameTarget
        · exact .upon (.fail_bind (by rintro ⟨⟩) sameOpening)
      · rename_i other
        refine absurd ?_ goes
        cases found : token.kind.updateOperator? <;> cases broken : token.flags.lineBreak <;>
          simp_all [endsOperand]
    · intro token mate stops stopsToo
      have returns : ∀ {action mate : Parse Expression}, action = pure target → mate = pure front →
          σ.Follows exit exit (σ.Marks target) action mate σ.Marks := by
        rintro _ _ rfl rfl
        exact .pure sameTarget Iff.rfl
      apply returns <;> split <;> simp_all [endsOperand]

theorem follows_checkDelete {enter : Extent} {operator : UnaryOperator}
    {argument front : Expression} {start opening : Position} (same : σ.Same argument front)
    (sameStart : σ.Same start opening) :
    σ.Follows enter enter False (checkDelete operator argument start)
      (checkDelete operator front opening) fun _ => False := by
  obtain ⟨_, name, _⟩ := same_reference same
  rw [checkDelete, checkDelete, name]
  apply Follows.isStrict
  intro strict
  split
  · exact .fail (by rintro ⟨⟩) sameStart
  · exact .pure rfl Iff.rfl

theorem follows_unary (nested : self.Follows σ other) :
    σ.Follows .inside exit False (unary self) (unary other) σ.Marks := by
  rw [unary, unary]
  apply Follows.nodeStart
  intro start opening sameStart
  rw [Parse.kind, bind_assoc, bind_assoc]
  apply Follows.lookahead
  intro token mate same
  rw [pure_bind, pure_bind, same.kind]
  split
  · rename_i found
    apply Follows.consumes (lexeme_ne_endOfFile_of_view rfl found)
    apply Follows.step nested.unary
    intro argument front sameArgument
    apply Follows.skip (follows_checkDelete sameArgument sameStart)
    apply Follows.spanFrom sameStart
    intro span cover sameSpan
    refine .made rfl id ?_ ?_
    · simp_all [Alignment.Same, Located.relocate, Expression.relocate]
    · simp [Marks, Located.nodes, Node.children, Expression.children]
  · exact .upon (follows_update nested)

/-- Parses that are level see the same operator. -/
theorem operator?_of_level {phase : Prop} {first second : State}
    (related : σ.Related phase first second) (level : σ.Level phase first.point second.point) :
    second.operator? = first.operator? := by
  have without : second.context.withoutIn = first.context.withoutIn := by
    rw [← related.context]
  rw [State.operator?, State.operator?, (matches_of_states level).kind, without]

/-- There is no operator at an edge. -/
theorem operator?_of_edge {first second : State} (edge : σ.Edge first.point second.point) :
    second.operator? = none := by
  have closing : second.lookahead.IsClosing := σ.closing_of_edge edge
  have none : second.lookahead.kind.binaryOperator? = none := by
    rcases closing with closing | closing <;> rw [closing] <;> rfl
  rw [State.operator?, none, ite_self]

/-- A binary operator that a parse goes on with lies in front of any edge. -/
theorem follows_binaryOperator? {α : Type} [Located α] {enter : Extent} {known : Prop}
    {after : α → Prop} {rest others : Option BinaryOperator → Parse α}
    (accepts : BinaryOperator → Prop)
    (goes : ∀ operator, accepts operator →
      σ.Follows .inside exit known (Parse.before operator (rest (some operator)))
        (others (some operator)) after)
    (stays : ∀ found foundToo : Option BinaryOperator, (∀ operator ∈ found, ¬accepts operator) →
      (∀ operator ∈ foundToo, ¬accepts operator) →
      σ.Follows enter exit known (rest found) (others foundToo) after) :
    σ.Follows enter exit known (binaryOperator? >>= rest) (binaryOperator? >>= others) after := by
  have split_ : ∀ found : Option BinaryOperator, (∀ operator ∈ found, ¬accepts operator) ∨
      ∃ operator, found = some operator ∧ accepts operator := by
    rintro (_ | operator)
    · exact .inl (by simp)
    · by_cases accepted : accepts operator
      · exact .inr ⟨operator, rfl, accepted⟩
      · exact .inl (by simpa using accepted)
  have none : ∀ operator ∈ (none : Option BinaryOperator), ¬accepts operator := by simp
  have refusedToo : ∀ {phase : Prop} {state mate : State}, σ.Related phase state mate →
      (∀ operator ∈ state.operator?, ¬accepts operator) →
      ∀ operator ∈ mate.operator?, ¬accepts operator := by
    intro phase state mate related refused
    rcases related.points with level | ⟨_, edge⟩
    · rwa [operator?_of_level related level]
    · rwa [operator?_of_edge edge]
  have before : ∀ {operator : BinaryOperator} {state : State},
      state.operator? = some operator →
      Parse.before operator (rest (some operator)) state = rest state.operator? state :=
    fun here => (if_pos here).trans (here ▸ rfl)
  constructor
  · intro state value last reached run
    rw [binaryOperator?_bind] at run
    rcases split_ state.operator? with refused | ⟨operator, here, accepted⟩
    · exact (stays _ _ refused none).heeds reached run
    · obtain ⟨reached, exists_, back⟩ :=
        (goes operator accepted).heeds reached ((before here).trans run)
      exact ⟨reached, exists_, fun ahead => ahead_of_inside (back ahead)⟩
  · intro phase state mate value last related run ahead
    rw [binaryOperator?_bind] at run ⊢
    rcases split_ state.operator? with refused | ⟨operator, here, accepted⟩
    · exact (stays _ _ refused (refusedToo related refused)).ok related run ahead
    · have run := (before here).trans run
      obtain ⟨_, _, back⟩ := (goes operator accepted).heeds related.reached run
      rw [operator?_of_level related (related.level (back ahead)), here]
      exact (goes operator accepted).ok related run ahead
  · intro state fault last reached run possible
    rw [binaryOperator?_bind] at run
    rcases split_ state.operator? with refused | ⟨operator, here, accepted⟩
    · exact (stays _ _ refused none).fails reached run possible
    · obtain ⟨point, reached, fails, back⟩ :=
        (goes operator accepted).fails reached ((before here).trans run) possible
      exact ⟨point, reached, fails, fun ahead _ => ahead_of_inside (back ahead)⟩
  · intro phase state mate fault last related run possible doomed
    rw [binaryOperator?_bind] at run ⊢
    rcases split_ state.operator? with refused | ⟨operator, here, accepted⟩
    · exact (stays _ _ refused (refusedToo related refused)).error related run possible doomed
    · have run := (before here).trans run
      have ahead := (goes operator accepted).ahead related.reached run possible doomed phase
      rw [operator?_of_level related (related.level ahead), here]
      exact (goes operator accepted).error related run possible doomed

theorem before_bind {α β : Type} {operator : BinaryOperator} {action : Parse α}
    {rest : α → Parse β} :
    Parse.before operator (action >>= rest) = Parse.before operator action >>= rest := by
  funext state
  change (if _ then EStateM.bind _ _ state else _) = EStateM.bind _ _ state
  by_cases here : state.operator? = some operator
  · rw [if_pos here, EStateM.bind, EStateM.bind, Parse.before, if_pos here]
  · rw [if_neg here, EStateM.bind, Parse.before, if_neg here]
    rfl

/-- Actions that follow each other in front of the tokens that are an operator do so in front of the
operator. -/
theorem follows_before {α : Type} [Located α] {enter : Extent} {known : Prop} {after : α → Prop}
    {operator : BinaryOperator} {action other : Parse α}
    (each : ∀ token : Token, token.lexeme ≠ .endOfFile →
      σ.Follows enter exit known (upon token action) other after) :
    σ.Follows enter exit known (Parse.before operator action) other after := by
  have inside : ∀ {state : State}, state.operator? = some operator →
      state.lookahead.lexeme ≠ .endOfFile := by
    intro state here ended
    rw [State.operator?, Token.kind, ended] at here
    simp [Lexeme.kind, Kind.binaryOperator?] at here
  have seen : ∀ {state : State}, state.operator? = some operator →
      Parse.before operator action state = upon state.lookahead action state :=
    fun here => (if_pos here).trans (upon_eq rfl).symm
  have missed : ∀ {state : State}, state.operator? ≠ some operator →
      Parse.before operator action state = Parse.exhausted state :=
    fun elsewhere => if_neg elsewhere
  constructor
  · intro state value last reached run
    by_cases here : state.operator? = some operator
    · exact (each _ (inside here)).heeds reached (seen here ▸ run)
    · cases (missed here).symm.trans run
  · intro phase state mate value last related run ahead
    by_cases here : state.operator? = some operator
    · exact (each _ (inside here)).ok related (seen here ▸ run) ahead
    · cases (missed here).symm.trans run
  · intro state fault last reached run possible
    by_cases here : state.operator? = some operator
    · exact (each _ (inside here)).fails reached (seen here ▸ run) possible
    · cases (missed here).symm.trans run
      exact absurd rfl possible
  · intro phase state mate fault last related run possible doomed
    by_cases here : state.operator? = some operator
    · exact (each _ (inside here)).error related (seen here ▸ run) possible doomed
    · cases (missed here).symm.trans run
      exact absurd rfl possible

theorem before_binaryOperator? {α : Type} {operator : BinaryOperator}
    {rest : Option BinaryOperator → Parse α} :
    Parse.before operator (binaryOperator? >>= rest) = binaryOperator? >>= fun found =>
      if found = some operator then rest found else Parse.exhausted := by
  funext state
  rw [Parse.before, binaryOperator?_bind, binaryOperator?_bind]
  split <;> rfl

theorem follows_rightOperand (nested : self.Follows σ other) {start opening : Position}
    (sameStart : σ.Same start opening) {tier turns turnsToo : Nat} (enough : turns ≤ turnsToo)
    {right front : Expression} (same : σ.Same right front) :
    σ.Follows exit exit (σ.Marks right) (rightOperand self start tier turns right)
      (rightOperand other opening tier turnsToo front) σ.Marks := by
  induction turns generalizing turnsToo right front with
  | zero => exact .exhausted
  | succ turns ih =>
    obtain ⟨turnsToo, rfl⟩ := Nat.exists_eq_add_of_lt enough
    have enough : turns ≤ turns + turnsToo := by omega
    rw [rightOperand, rightOperand]
    apply follows_binaryOperator? fun next =>
      tier < next.precedence ∨ tier = next.precedence ∧ next.isRightAssociative = true
    · intro next accepted
      dsimp only
      split
      · rename_i higher
        rw [before_bind]
        exact .bind (nested.operators higher sameStart same) fun _ _ same => ih enough same
      · rename_i notHigher
        have equal := accepted.resolve_left notHigher
        rw [if_pos equal, if_pos equal, before_bind]
        exact .bind (nested.operators (Nat.le_of_eq equal.1) sameStart same) fun _ _ same =>
          ih enough same
    · intro found foundToo refused refusedToo
      have returns : ∀ {action mate : Parse Expression}, action = pure right → mate = pure front →
          σ.Follows exit exit (σ.Marks right) action mate σ.Marks := by
        rintro _ _ rfl rfl
        exact .pure same Iff.rfl
      have stays : ∀ {next : BinaryOperator} {tighter equal : Parse Expression}
          {value : Expression},
          ¬(tier < next.precedence ∨ tier = next.precedence ∧ next.isRightAssociative = true) →
          (if tier < next.precedence then tighter
            else if tier = next.precedence ∧ next.isRightAssociative then equal
            else return value) = pure value := by
        intro next tighter equal value refused
        rw [if_neg fun higher => refused (.inl higher), if_neg fun equal => refused (.inr equal)]
      apply returns
      · cases found with
        | none => rfl
        | some next => exact stays (refused next rfl)
      · cases foundToo with
        | none => rfl
        | some next => exact stays (refusedToo next rfl)

theorem follows_operators (nested : self.Follows σ other) {start opening : Position}
    (sameStart : σ.Same start opening) {tier turns turnsToo : Nat} (enough : turns ≤ turnsToo)
    {left front : Expression} (same : σ.Same left front) :
    σ.Follows exit exit (σ.Marks left) (operators self start tier turns left)
        (operators other opening tier turnsToo front) σ.Marks ∧
      ∀ operator : BinaryOperator, tier ≤ operator.precedence →
        σ.Follows .inside exit (σ.Marks left)
          (Parse.before operator (operators self start tier turns left))
          (operators other opening tier turnsToo front) σ.Marks := by
  induction turns generalizing turnsToo left front with
  | zero =>
    refine ⟨.exhausted, fun operator _ => follows_before fun _ _ => ?_⟩
    exact .upon .exhausted
  | succ turns ih =>
    obtain ⟨turnsToo, rfl⟩ := Nat.exists_eq_add_of_lt enough
    have enough : turns ≤ turns + turnsToo := by omega
    rw [operators, operators]
    have goes : ∀ operator : BinaryOperator, tier ≤ operator.precedence →
        σ.Follows .inside exit (σ.Marks left)
          (Parse.before operator
            (if operator.precedence < tier then return left
            else do
              consume
              let rightStart ← nodeStart
              let operand ← self.unary
              let right ← rightOperand self rightStart operator.precedence self.turns operand
              operators self start tier turns (.binary operator left right (← spanFrom start))))
          (if operator.precedence < tier then return front
            else do
              consume
              let rightStart ← nodeStart
              let operand ← other.unary
              let right ← rightOperand other rightStart operator.precedence other.turns operand
              operators other opening tier (turns + turnsToo)
                (.binary operator front right (← spanFrom opening)))
          σ.Marks := by
      intro operator higher
      rw [if_neg (Nat.not_lt.mpr higher), if_neg (Nat.not_lt.mpr higher)]
      apply follows_before
      intro token inside
      apply Follows.consumes inside
      apply Follows.nodeStart
      intro rightStart rightOpening sameRightStart
      apply Follows.step nested.unary
      intro operand operandToo sameOperand
      apply Follows.bind ((follows_rightOperand nested sameRightStart nested.turns
        sameOperand).frame (σ.Marks left))
      intro right rightToo sameRight
      apply Follows.spanFrom sameStart
      intro span cover sameSpan
      refine (ih enough ?_).1.congr ?_ fun _ => Iff.rfl
      · simp_all [Alignment.Same, Located.relocate, Expression.relocate]
      · simp [Marks, Located.nodes, Node.hasTerminated_iff (.expression (.binary ..)),
          Node.IsTerminatedAt, Node.children, Expression.children]
    constructor
    · refine follows_binaryOperator? (fun operator => tier ≤ operator.precedence) goes ?_
      intro found foundToo refused refusedToo
      have returns : ∀ {action mate : Parse Expression}, action = pure left → mate = pure front →
          σ.Follows exit exit (σ.Marks left) action mate σ.Marks := by
        rintro _ _ rfl rfl
        exact .pure same Iff.rfl
      apply returns
      · cases found with
        | none => rfl
        | some next => exact if_pos (Nat.not_le.mp (refused next rfl))
      · cases foundToo with
        | none => rfl
        | some next => exact if_pos (Nat.not_le.mp (refusedToo next rfl))
    · intro operator higher
      rw [before_binaryOperator?]
      apply follows_binaryOperator? (· = operator)
      · rintro _ rfl
        rw [if_pos rfl]
        exact goes _ higher
      · intro found _ refused _
        have elsewhere : ¬found = some operator := fun here => refused operator here rfl
        rw [if_neg elsewhere]
        exact .exhausted

theorem follows_binary (nested : self.Follows σ other) :
    σ.Follows .inside exit False (binary self) (binary other) σ.Marks := by
  rw [binary, binary]
  apply Follows.nodeStart
  intro start opening sameStart
  apply Follows.bind (follows_unary nested)
  intro left front same
  exact (follows_operators nested sameStart nested.turns same).1

theorem follows_assignment (nested : self.Follows σ other) :
    σ.Follows .inside exit False (assignment self) (assignment other) σ.Marks := by
  rw [assignment, assignment]
  apply Follows.nodeStart
  intro start opening sameStart
  apply Follows.bind (follows_binary nested)
  intro target front same
  rw [Parse.kind, bind_assoc, bind_assoc]
  simp only [pure_bind]
  apply Follows.look fun token => token.kind.assignmentOperator? = none
  · intro token mate same
    rw [same.kind]
  · intro first second _ edge
    rcases σ.closing_of_edge edge with closing | closing <;> rw [closing] <;> rfl
  · intro token mate sameToken goes
    rw [sameToken.kind]
    split
    · rename_i operator found
      obtain ⟨reference, _, sameOpening⟩ := same_reference same
      rw [reference]
      split
      · apply Follows.holding lookahead_of_checkTarget (follows_checkTarget same)
        apply Follows.consumes (lexeme_ne_endOfFile_of_view rfl found)
        apply Follows.step nested.assignment
        intro value result sameValue
        apply Follows.spanFrom sameStart
        intro span cover sameSpan
        refine .made rfl id ?_ ?_
        · simp_all [Alignment.Same, Located.relocate, Expression.relocate]
        · simp [Marks, Located.nodes, Node.children, Expression.children]
      · exact .upon (.fail_bind (by rintro ⟨⟩) sameOpening)
    · exact absurd ‹_› goes
  · intro token mate stops stopsToo
    rw [stops, stopsToo]
    apply Follows.consumeIf Follows.kind_ne_of_edge
    · rw [if_pos rfl, if_pos rfl]
      apply Follows.step (.withIn nested.assignment)
      intro consequent result sameConsequent
      apply Follows.skip .require
      apply Follows.step nested.assignment
      intro alternate otherwise sameAlternate
      apply Follows.spanFrom sameStart
      intro span cover sameSpan
      refine .made rfl id ?_ ?_
      · simp_all [Alignment.Same, Located.relocate, Expression.relocate]
      · simp [Marks, Located.nodes, Node.children, Expression.children, or_assoc]
    · exact .pure same Iff.rfl

theorem follows_expression (nested : self.Follows σ other) :
    σ.Follows .inside exit False (expression self) (expression other) σ.Marks := by
  rw [expression, expression]
  apply Follows.nodeStart
  intro start opening sameStart
  apply Follows.bind (follows_assignment nested)
  intro first front same
  apply Follows.consumeIf Follows.kind_ne_of_edge
  · rw [if_pos rfl, if_pos rfl]
    apply Follows.step (.separated nested.assignment nested.turns)
    intro others results sameOthers
    apply Follows.spanFrom sameStart
    intro span cover sameSpan
    refine .made rfl id ?_ ?_
    · simp_all [Alignment.Same, Located.relocate, Expression.relocate, Expression.relocateAll_eq]
    · simp [Marks, Located.nodes, Node.children, Expression.children, ← List.map_eq_flatMap]
  · exact .pure same Iff.rfl

end Grammar

end EcmaScript
