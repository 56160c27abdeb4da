import EcmaScript.Proofs.FunctionSoundness

/-!
# Expressions follow the rules

Every production of an expression is sound when the constructs by which the grammar is recursive
are. Binary operators take the place of two loops in one another, and of each loop the invariant is
how the operator in the lookahead stands to the tier of what has been read so far.
-/

namespace EcmaScript

/-- Operators of a tier can stand where a lower tier may. -/
theorem Reads.operators_mono {scope : Scope} {value : Expression} {tokens : List Token}
    {next : Token} {tier lower : Nat}
    (reads : Reads scope (.fits (.operators tier) value) tokens next)
    (below : lower ≤ tier) : Reads scope (.fits (.operators lower) value) tokens next := by
  cases reads with
  | single _ unary => exact .single lower unary
  | made made =>
    cases made with
    | binary left mark allowed right high =>
      exact .made (.binary left mark allowed right (Nat.le_trans below high))

namespace Grammar

open Parse

variable {self : Nonterminals}

section Literals

variable {α : Type} {start state : State} {front : List Token} {property : α → State → Prop}

theorem ensures_literalToken {rest : String × Span → Parse α} (so : start.Consumes front state)
    (inside : state.lookahead.lexeme ≠ .endOfFile)
    (next : ∀ after, start.Consumes (front ++ [state.lookahead]) after →
      start.scope.AllowsLiteral state.lookahead →
      (rest (state.lookahead.text, state.lookahead.span)).Ensures after property) :
    (literalToken >>= rest).Ensures state property := by
  rw [literalToken, bind_assoc, ensures_lookahead]
  rw [bind_assoc]
  apply ensures_consume so inside
  intro after consumed
  rw [bind_assoc, ensures_isStrict]
  split
  · rw [bind_assoc]
    exact ensures_fail_bind
  · rename_i allowed
    rw [pure_bind]
    apply next after consumed
    intro strict
    have strictAfter : after.context.strict = true := by rw [consumed.context]; exact strict
    simpa [strictAfter] using allowed

/-- A lexeme with the value of a literal is not the end of the text. -/
theorem ne_endOfFile_of_literal? {lexeme : Lexeme} {value : Literal}
    (found : lexeme.literal? = some value) : lexeme ≠ .endOfFile := by
  rintro rfl
  contradiction

theorem ensures_literal {value : Literal} (found : state.lookahead.lexeme.literal? = some value) :
    (literal value).Ensures state fun result after =>
      state.Consumes [state.lookahead] after ∧
        Reads state.scope (.fits .primary result) [state.lookahead] after.lookahead := by
  rw [literal]
  apply ensures_literalToken (.refl state) (ne_endOfFile_of_literal? found)
  intro after consumed allowed
  rw [ensures_pure]
  exact ⟨consumed, .made (.literal found allowed)⟩

/-- A slash that is read again leaves a regular expression in the lookahead. -/
theorem ensures_reread {characters : List Char} {rest : Unit → Parse α}
    (slash : Scan.slash? state.lookahead.lexeme = some characters)
    (next : ∀ between, state.point.Rereads between.point → between.scope = state.scope →
      (rest ()).Ensures between property) :
    (reread characters >>= rest).Ensures state property := by
  rw [reread, bind_assoc, ensures_lookahead, bind_assoc]
  apply ensures_scan
  intro token cursor scanned
  rw [bind_assoc, ensures_record, ensures_modify]
  exact next _ ⟨characters, token, cursor, slash, scanned, rfl⟩ rfl

theorem ensures_regularExpression {characters : List Char}
    (slash : Scan.slash? state.lookahead.lexeme = some characters) :
    (regularExpression characters).Ensures state fun result after =>
      ∃ tokens, state.Consumes tokens after ∧
        Reads state.scope (.fits .primary result) tokens after.lookahead := by
  rw [regularExpression]
  apply ensures_reread slash
  intro between again scope
  rw [ensures_lookahead]
  split
  · rename_i value found
    constructor
    intro result after run
    obtain ⟨consumed, reads⟩ := (ensures_literal found).of_ok run
    rw [scope] at reads
    refine ⟨_, ⟨consumed.scope.trans scope, ?_⟩, reads⟩
    exact .of_rereads again consumed.passes (by simp)
  · exact ensures_unexpected

end Literals

theorem sound_separated (sound : self.Sound) :
    (separated self.assignment self.turns).Sound
      fun scope values => Reads scope (.separated values) := by
  apply sound.assignment.separated
  · intro scope first tokens next reads other
    exact .separatedOne reads other
  · intro scope first comma others next tokens rest reads mark readsOthers
    exact .separatedMore reads mark readsOthers

/-- Arguments up to the closing parenthesis. -/
theorem sound_argumentsRest (sound : self.Sound) :
    (do
      let items ←
        if ← sees Punctuator.rightParen then pure []
        else separated self.assignment self.turns
      require Punctuator.rightParen
      return items : Parse (List Expression)).Sound fun scope values tokens _ =>
        ∃ inner closing, tokens = inner ++ [closing] ∧
          closing.kind = .symbol Punctuator.rightParen ∧
          (values = [] ∧ inner = [] ∨ Reads scope (.separated values) inner closing) := by
  intro state
  rw [ensures_sees]
  dsimp only
  split
  · rw [pure_bind]
    apply ensures_require (.refl state)
    intro after closing consumed
    rw [ensures_pure]
    exact ⟨_, consumed, [], _, rfl, closing, .inl ⟨rfl, rfl⟩⟩
  · apply (sound_separated sound).step (.refl state)
    intro values tokens between consumed _ reads
    apply ensures_require consumed
    intro after closing consumed
    rw [ensures_pure]
    exact ⟨_, consumed, tokens, _, rfl, closing, .inr reads⟩

theorem sound_arguments (sound : self.Sound) :
    (arguments self).Sound fun scope values => Reads scope (.arguments values) := by
  intro state
  rw [arguments]
  apply ensures_require (.refl state)
  intro between opening consumed
  apply (sound_argumentsRest sound).withIn.last consumed
  rintro values _ after consumed _ ⟨inner, closing, rfl, closes, none | some⟩
  · obtain ⟨rfl, rfl⟩ := none
    exact ⟨_, consumed, .noArguments opening closes⟩
  · exact ⟨_, consumed, .arguments opening some closes⟩

theorem sound_parenthesized (sound : self.Sound) :
    (parenthesized self).Sound fun scope value => Reads scope (.fits .primary value) := by
  intro state
  rw [parenthesized]
  apply ensures_require (.refl state)
  intro between opening consumed
  apply sound.expression.withIn.step consumed
  intro value tokens last consumed _ reads
  apply ensures_require consumed
  intro after closing consumed
  rw [ensures_pure]
  exact ⟨_, consumed, by simpa using Reads.parenthesized opening reads closing⟩

/-- An item with the comma after it, which only the closing symbol makes needless. -/
theorem sound_itemWithComma {α : Type} {item : Parse α} {closing : Punctuator}
    {reads : Scope → α → List Token → Token → Prop} (sound : item.Sound reads) :
    (itemWithComma closing item).Sound fun scope value tokens next =>
      (reads scope value tokens next ∧ next.kind = .symbol closing) ∨
        ∃ inner comma, tokens = inner ++ [comma] ∧ reads scope value inner comma ∧
          comma.kind = .symbol Punctuator.comma := by
  intro state
  rw [itemWithComma]
  apply sound.step (.refl state)
  intro value tokens between consumed _ related
  rw [ensures_sees]
  dsimp only
  split
  · rename_i closes
    rw [ensures_pure]
    exact ⟨_, consumed, .inl ⟨related, by simpa using closes⟩⟩
  · apply ensures_require consumed
    intro after comma consumed
    rw [ensures_pure]
    exact ⟨_, consumed, .inr ⟨tokens, _, rfl, related, comma⟩⟩

/-- What the tokens of an element are: a comma, a last value, or a value with a comma. -/
inductive IsElement (scope : Scope) : Option Expression → List Token → Token → Prop where
  | hole {comma next : Token} : comma.kind = .symbol Punctuator.comma →
      IsElement scope none [comma] next
  | last {value : Expression} {tokens : List Token} {next : Token} :
      Reads scope (.fits .assignment value) tokens next →
      next.kind = .symbol Punctuator.rightBracket → IsElement scope (some value) tokens next
  | more {value : Expression} {tokens : List Token} {comma next : Token} :
      Reads scope (.fits .assignment value) tokens comma → comma.kind = .symbol Punctuator.comma →
      IsElement scope (some value) (tokens ++ [comma]) next

theorem sound_element (sound : self.Sound) : (element self).Sound IsElement := by
  intro state
  rw [element]
  apply ensures_consumeIf (.refl state)
  · intro after comma consumed
    rw [if_pos rfl, ensures_pure]
    exact ⟨_, consumed, .hole comma⟩
  · intro _
    rw [if_neg (by simp), ensures_map]
    apply (sound_itemWithComma sound.assignment).last (.refl state)
    rintro value _ after consumed _ (⟨reads, closes⟩ | ⟨tokens, comma, rfl, reads, mark⟩)
    · exact ⟨_, consumed, .last reads closes⟩
    · exact ⟨_, consumed, .more reads mark⟩

theorem sound_elements (sound : self.Sound) :
    (itemsUntil (· == .symbol Punctuator.rightBracket) (element self) self.turns).Sound
      fun scope elements => Reads scope (.elements elements) := by
  apply (sound_element sound).itemsUntil
  · intro scope next ended
    exact .elementsNone (by simpa using ended)
  · intro scope first follower others next tokens rest item opens ends reads
    cases item with
    | hole comma => exact .elementsHole comma reads
    | last readsFirst closes =>
      obtain ⟨rfl, rfl⟩ := ends (by simp [closes])
      cases opens
      simpa using Reads.elementsLast readsFirst closes
    | more readsFirst comma =>
      simpa using Reads.elementsMore readsFirst comma reads

theorem sound_arrayLiteral (sound : self.Sound) :
    (arrayLiteral self).Sound fun scope value => Reads scope (.fits .primary value) := by
  intro state
  rw [arrayLiteral, ensures_nodeStart]
  apply ensures_require (.refl state)
  intro between opening consumed
  apply (sound_elements sound).withIn.step consumed
  intro elements tokens last consumed _ reads
  apply ensures_require consumed
  intro after closing consumed
  rw [ensures_spanFrom, ensures_pure, consumed.span (by simp)]
  exact ⟨_, consumed, by simpa using Reads.made (.array opening reads closing)⟩

theorem ensures_literalKey {state : State} {value : Literal}
    (kind : state.lookahead.kind = .stringLiteral ∨ state.lookahead.kind = .numericLiteral)
    (found : state.lookahead.lexeme.literal? = some value) :
    (literalKey value).Ensures state fun key after =>
      ∃ tokens, state.Consumes tokens after ∧
        ∃ token, tokens = [token] ∧ state.scope.HasKey token key := by
  rw [literalKey]
  apply ensures_literalToken (.refl state) (ne_endOfFile_of_literal? found)
  intro after consumed allowed
  rw [ensures_pure]
  exact ⟨_, consumed, _, rfl, .literal value kind found allowed⟩

theorem sound_propertyKey : propertyKey.Sound fun scope key tokens _ =>
    ∃ token, tokens = [token] ∧ scope.HasKey token key := by
  intro state
  rw [propertyKey, ensures_lookahead]
  split
  · rename_i value lexeme
    apply ensures_literalKey
    · exact .inl (by rw [Token.kind, lexeme, Lexeme.kind])
    · rw [lexeme, Lexeme.literal?]
  · rename_i value lexeme
    apply ensures_literalKey
    · exact .inr (by rw [Token.kind, lexeme, Lexeme.kind])
    · rw [lexeme, Lexeme.literal?]
  · rw [ensures_map]
    apply sound_identifierName.last (.refl state)
    rintro name _ after consumed _ ⟨token, rfl, named, rfl⟩
    exact ⟨_, consumed, token, rfl, .name named⟩

theorem ensures_checkAccessor {α : Type} {rest : Unit → Parse α} {state : State}
    {property : α → State → Prop} {kind : PropertyKind} {parameters : List Identifier}
    {position : Position} (accessor : kind ≠ .init)
    (next : parameters.length = (if kind = .get then 0 else 1) →
      (rest ()).Ensures state property) :
    (checkAccessor kind parameters position >>= rest).Ensures state property := by
  cases kind with
  | init => contradiction
  | get =>
    cases parameters with
    | nil => exact next rfl
    | cons => exact ensures_fail_bind
  | set =>
    match parameters with
    | [] => exact ensures_fail_bind
    | [_] => exact next rfl
    | _ :: _ :: _ => exact ensures_fail_bind

theorem sound_accessorFunction (sound : self.Sound) {kind : PropertyKind}
    (accessor : kind ≠ .init) :
    (accessorFunction self kind).Sound fun scope value tokens next =>
      ∃ parameters body span, value = .function none parameters body span ∧
        Reads scope (.makes .accessor value) tokens next ∧
        parameters.length = (if kind = .get then 0 else 1) := by
  intro state
  rw [accessorFunction, ensures_nodeStart]
  apply sound_formalParameters.step (.refl state)
  intro parameters parameterTokens between consumed _ hasParameters
  apply ensures_checkAccessor accessor
  intro number
  apply (sound_functionBody sound).step consumed
  intro body bodyTokens after consumed _ reads
  rw [ensures_spanFrom, ensures_pure, consumed.span (by simp [reads.ne_nil rfl])]
  refine ⟨_, consumed, parameters, body, _, rfl, ?_, number⟩
  exact .accessorFunction (.function hasParameters reads)

theorem ensures_propertyValue (sound : self.Sound) {start state : State} {token : Token}
    {key : PropertyKey} (so : start.Consumes [token] state)
    (hasKey : start.scope.HasKey token key) :
    (propertyValue self start.lookahead.span.start key).Ensures state fun result after =>
      ∃ tokens, start.Consumes tokens after ∧
        Reads start.scope (.property result) tokens after.lookahead := by
  rw [propertyValue]
  apply ensures_require so
  intro between colon consumed
  apply sound.assignment.step consumed
  intro value tokens after consumed _ reads
  rw [ensures_spanFrom, ensures_pure, consumed.span (by simp)]
  exact ⟨_, consumed, by simpa using Reads.value hasKey colon reads⟩

theorem accessorKind?_eq_some {lexeme : Lexeme} {kind : PropertyKind}
    (found : accessorKind? lexeme = some kind) :
    kind ≠ .init ∧ ∃ name, lexeme = .identifier name := by
  unfold accessorKind? at found
  split at found
  · cases found
    exact ⟨by simp, _, rfl⟩
  · cases found
    exact ⟨by simp, _, rfl⟩
  · contradiction

theorem sound_property (sound : self.Sound) :
    (property self).Sound fun scope value => Reads scope (.property value) := by
  intro state
  rw [property, ensures_lookahead]
  dsimp only
  split
  · rename_i kind found
    obtain ⟨accessor, name, lexeme⟩ := accessorKind?_eq_some found
    apply ensures_consume (.refl state) (by simp [lexeme])
    intro between consumed
    rw [ensures_kind]
    split
    · apply sound_propertyKey.step consumed
      rintro key _ between consumed _ ⟨token, rfl, hasKey⟩
      apply (sound_accessorFunction sound accessor).step consumed
      rintro _ tokens after consumed _ ⟨parameters, body, span, rfl, reads, number⟩
      rw [ensures_spanFrom, ensures_pure, consumed.span (by simp)]
      exact ⟨_, consumed, by simpa using Reads.accessor found hasKey reads number⟩
    · apply ensures_propertyValue sound consumed
      exact .name (by simp [Token.kind, lexeme, Lexeme.kind, Kind.isIdentifierName])
  · apply sound_propertyKey.step (.refl state)
    rintro key _ between consumed _ ⟨token, rfl, hasKey⟩
    exact ensures_propertyValue sound consumed hasKey

theorem sound_properties (sound : self.Sound) :
    (itemsUntil (· == .symbol Punctuator.rightBrace)
      (itemWithComma .rightBrace (property self)) self.turns).Sound
      fun scope properties => Reads scope (.properties properties) := by
  apply (sound_itemWithComma (sound_property sound)).itemsUntil
  · intro scope next ended
    exact .propertiesNone (by simpa using ended)
  · rintro scope first follower others next tokens rest
      (⟨readsFirst, closes⟩ | ⟨inner, comma, rfl, readsFirst, mark⟩) opens ends reads
    · obtain ⟨rfl, rfl⟩ := ends (by simp [closes])
      cases opens
      simpa using Reads.propertiesLast readsFirst closes
    · simpa using Reads.propertiesMore readsFirst mark reads

theorem sound_objectLiteral (sound : self.Sound) :
    (objectLiteral self).Sound fun scope value => Reads scope (.fits .primary value) := by
  intro state
  rw [objectLiteral, ensures_nodeStart]
  apply ensures_require (.refl state)
  intro between opening consumed
  apply (sound_properties sound).withIn.step consumed
  intro properties tokens last consumed _ reads
  apply ensures_require consumed
  intro after closing consumed
  rw [ensures_spanFrom, ensures_pure, consumed.span (by simp)]
  exact ⟨_, consumed, by simpa using Reads.made (.object opening reads closing)⟩

theorem sound_primary (sound : self.Sound) :
    (primary self).Sound fun scope value => Reads scope (.fits .primary value) := by
  intro state
  rw [primary, ensures_lookahead]
  split
  · rename_i lexeme
    apply ensures_consume (.refl state) (by simp [lexeme])
    intro after consumed
    rw [ensures_pure]
    exact ⟨_, consumed, .made (.this (by rw [Token.kind, lexeme]; rfl))⟩
  · rw [ensures_map]
    apply sound_identifierReference.last (.refl state)
    rintro name _ after consumed _ ⟨token, rfl, refers⟩
    exact ⟨_, consumed, .made (.reference refers)⟩
  · exact sound_parenthesized sound state
  · exact sound_arrayLiteral sound state
  · exact sound_objectLiteral sound state
  · exact sound_functionExpression sound state
  · split
    · rename_i slash
      exact ensures_regularExpression slash
    · rename_i found
      constructor
      intro result after run
      exact ⟨_, (ensures_literal found).of_ok run⟩
    · exact ensures_unexpected

theorem sound_newExpression (sound : self.Sound) :
    (newExpression self).Sound fun scope value => Reads scope (.fits .primary value) := by
  intro state
  rw [newExpression, ensures_nodeStart]
  apply ensures_require (.refl state)
  intro between word consumed
  apply sound.callee.step consumed
  intro callee tokens between consumed _ reads
  rw [ensures_sees]
  dsimp only
  split
  · apply (sound_arguments sound).step consumed
    intro arguments argumentTokens after consumed opens readsArguments
    rw [ensures_spanFrom, ensures_pure, consumed.span (by simp)]
    exact ⟨_, consumed, by simpa using Reads.made (.newWith word reads opens readsArguments)⟩
  · rename_i other
    rw [pure_bind, ensures_spanFrom, ensures_pure, consumed.span (by simp)]
    exact ⟨_, consumed, .made (.newWithout word reads (by simpa using other))⟩

/-- Whatever follows an expression extends the tokens that it is read from. -/
theorem ensures_suffixes (sound : self.Sound) {start : State} (withCalls : Bool) (turns : Nat)
    {value : Expression} {state : State} {front : List Token} (so : start.Consumes front state)
    (reads : Reads start.scope (.fits (.member withCalls) value) front state.lookahead) :
    (suffixes self withCalls start.lookahead.span.start turns value).Ensures state
      fun result after => ∃ tokens, start.Consumes tokens after ∧
        Reads start.scope (.fits (.member withCalls) result) tokens after.lookahead := by
  induction turns generalizing value state front with
  | zero => exact ensures_exhausted
  | succ turns ih =>
    rw [suffixes, ensures_lookahead]
    split
    · rename_i lexeme
      apply ensures_consume so (by simp [lexeme])
      intro between consumed
      apply sound_identifierName.step consumed
      rintro name _ after consumed _ ⟨token, rfl, named, rfl⟩
      rw [ensures_spanFrom, consumed.span (by simp)]
      have point : state.lookahead.kind = .symbol Punctuator.period := by
        rw [Token.kind, lexeme]
        rfl
      apply ih consumed
      simpa using Reads.made (.dot reads point named)
    · rename_i lexeme
      apply ensures_consume so (by simp [lexeme])
      intro between consumed
      apply sound.expression.withIn.step consumed
      intro property inner last consumed _ readsProperty
      apply ensures_require consumed
      intro after closing consumed
      rw [ensures_spanFrom, consumed.span (by simp)]
      have opening : state.lookahead.kind = .symbol Punctuator.leftBracket := by
        rw [Token.kind, lexeme]
        rfl
      apply ih consumed
      simpa using Reads.made (.index reads opening readsProperty closing)
    · split
      · rename_i calls
        subst calls
        apply (sound_arguments sound).step so
        intro arguments argumentTokens after consumed opens readsArguments
        rw [ensures_spanFrom, consumed.span (by simp [readsArguments.ne_nil rfl])]
        apply ih consumed
        exact .made (.call reads opens readsArguments)
      · rw [ensures_pure]
        exact ⟨front, so, reads⟩
    · rw [ensures_pure]
      exact ⟨front, so, reads⟩

theorem sound_leftHandSide (sound : self.Sound) (withCalls : Bool) :
    (leftHandSide self withCalls).Sound fun scope value =>
      Reads scope (.fits (.member withCalls) value) := by
  intro state
  rw [leftHandSide, ensures_nodeStart, ensures_sees]
  have continued : ∀ {head : Parse Expression},
      head.Sound (fun scope value => Reads scope (.fits .primary value)) →
      (head >>= suffixes self withCalls state.lookahead.span.start self.turns).Ensures state
        fun value after => ∃ tokens, state.Consumes tokens after ∧
          Reads state.scope (.fits (.member withCalls) value) tokens after.lookahead := by
    intro head soundHead
    apply soundHead.step (.refl state)
    intro value tokens between consumed _ reads
    exact ensures_suffixes sound withCalls self.turns consumed (.head withCalls reads)
  dsimp only
  split
  · exact continued (sound_newExpression sound)
  · exact continued (sound_primary sound)

/-- A reference that passes the check may be assigned to. -/
theorem ensures_checkTarget {α : Type} {rest : Unit → Parse α} {start state : State}
    {front : List Token} {property : α → State → Prop} {target : Expression}
    (so : start.Consumes front state) (isReference : target.isReference = true)
    (next : start.scope.AllowsTarget target → (rest ()).Ensures state property) :
    (checkTarget target >>= rest).Ensures state property := by
  rw [checkTarget, bind_assoc, ensures_isStrict]
  split
  · exact ensures_fail_bind
  · rename_i allowed
    rw [pure_bind]
    refine next ⟨isReference, ?_⟩
    intro strict
    have strictNow : state.context.strict = true := by rw [so.context]; exact strict
    simpa [strictNow] using allowed

/-- An operand that passes the check is no name that strict code deletes. -/
theorem ensures_checkDelete {α : Type} {rest : Unit → Parse α} {start state : State}
    {front : List Token} {property : α → State → Prop} {operator : UnaryOperator}
    {argument : Expression} {position : Position} (so : start.Consumes front state)
    (next : start.scope.AllowsOperand operator argument → (rest ()).Ensures state property) :
    (checkDelete operator argument position >>= rest).Ensures state property := by
  rw [checkDelete, bind_assoc, ensures_isStrict]
  split
  · exact ensures_fail_bind
  · rename_i allowed
    rw [pure_bind]
    apply next
    intro delete strict
    have strictNow : state.context.strict = true := by rw [so.context]; exact strict
    simpa [strictNow, delete] using allowed

/-- A symbol is known by its kind. -/
theorem lexeme_of_kind {token : Token} {symbol : Symbol} (kind : token.kind = .symbol symbol) :
    token.lexeme = .symbol symbol := by
  rw [Token.kind] at kind
  unfold Lexeme.kind at kind
  split at kind <;> cases kind
  assumption

theorem lexeme_of_ended {token : Token} (ended : token.kind = .endOfFile) :
    token.lexeme = .endOfFile := by
  rw [Token.kind] at ended
  unfold Lexeme.kind at ended
  split at ended <;> cases ended
  assumption

theorem ne_endOfFile_of_kind {token : Token} {symbol : Symbol}
    (kind : token.kind = .symbol symbol) :
    token.lexeme ≠ .endOfFile := by
  rw [lexeme_of_kind kind]
  simp

theorem kind_of_updateOperator? {kind : Kind} {operator : UpdateOperator}
    (found : kind.updateOperator? = some operator) : kind = .symbol (.update operator) := by
  unfold Kind.updateOperator? at found
  split at found
  · cases found
    rfl
  · contradiction

theorem kind_of_assignmentOperator? {kind : Kind} {operator : AssignmentOperator}
    (found : kind.assignmentOperator? = some operator) : kind = .symbol (.assignment operator) := by
  unfold Kind.assignmentOperator? at found
  split at found
  · cases found
    rfl
  · contradiction

theorem kind_of_binaryOperator? {kind : Kind} {operator : BinaryOperator}
    (found : kind.binaryOperator? = some operator) : kind = .symbol (.binary operator) := by
  unfold Kind.binaryOperator? at found
  split at found
  · cases found
    rfl
  · contradiction

theorem kind_of_unaryOperator? {kind : Kind} {operator : UnaryOperator}
    (found : kind.unaryOperator? = some operator) : ∃ symbol, kind = .symbol symbol := by
  cases kind with
  | symbol symbol => exact ⟨symbol, rfl⟩
  | _ => contradiction

theorem sound_update (sound : self.Sound) :
    (update self).Sound fun scope value => Reads scope (.fits .unary value) := by
  intro state
  rw [update, ensures_nodeStart, ensures_kind]
  split
  · rename_i operator found
    apply ensures_consume (.refl state) (ne_endOfFile_of_kind (kind_of_updateOperator? found))
    intro between consumed
    apply sound.unary.step consumed
    intro target tokens after consumed _ reads
    dsimp only
    split
    · rename_i isReference
      apply ensures_checkTarget consumed isReference
      intro allowed
      rw [ensures_spanFrom, ensures_pure, consumed.span (by simp)]
      exact ⟨_, consumed, .made (.updateBefore found reads allowed)⟩
    · exact ensures_fail_bind
  · apply (sound_leftHandSide sound true).step (.refl state)
    intro target tokens between consumed _ reads
    rw [ensures_lookahead]
    split
    · rename_i operator found sameLine
      dsimp only
      split
      · rename_i isReference
        apply ensures_checkTarget consumed isReference
        intro allowed
        apply ensures_consume consumed (ne_endOfFile_of_kind (kind_of_updateOperator? found))
        intro after consumed
        rw [ensures_spanFrom, ensures_pure, consumed.span (by simp)]
        exact ⟨_, consumed, .made (.updateAfter reads found sameLine allowed)⟩
      · exact ensures_fail_bind
    · rw [ensures_pure]
      exact ⟨_, consumed, .operand reads⟩

theorem sound_unary (sound : self.Sound) :
    (unary self).Sound fun scope value => Reads scope (.fits .unary value) := by
  intro state
  rw [unary, ensures_nodeStart, ensures_kind]
  split
  · rename_i operator found
    obtain ⟨symbol, kind⟩ := kind_of_unaryOperator? found
    apply ensures_consume (.refl state) (ne_endOfFile_of_kind kind)
    intro between consumed
    apply sound.unary.step consumed
    intro argument tokens after consumed _ reads
    apply ensures_checkDelete consumed
    intro allowed
    rw [ensures_spanFrom, ensures_pure, consumed.span (by simp)]
    exact ⟨_, consumed, .made (.unary found reads allowed)⟩
  · exact sound_update sound state

section Operators

/-- To look for an operator reads nothing. -/
theorem binaryOperator?_bind {α : Type} {rest : Option BinaryOperator → Parse α} (state : State) :
    (binaryOperator? >>= rest) state = rest state.operator? state := by
  have found : binaryOperator? state = .ok state.operator? state := by
    change (if _ then _ else _ : Parse (Option BinaryOperator)) state = _
    simp only [State.operator?, Bool.and_eq_true, beq_iff_eq]
    split <;> rfl
  change EStateM.bind _ _ state = _
  rw [EStateM.bind, found]

theorem ensures_binaryOperator? {α : Type} {state : State} {property : α → State → Prop}
    {rest : Option BinaryOperator → Parse α} :
    (binaryOperator? >>= rest).Ensures state property ↔
      (rest state.operator?).Ensures state property :=
  ensures_of_eq (binaryOperator?_bind state)

/-- The operator in the lookahead is one in the scope at hand. -/
theorem eq_of_operator? {start state : State} {front : List Token} {operator : BinaryOperator}
    (so : start.Consumes front state) (found : state.operator? = some operator) :
    state.lookahead.kind.binaryOperator? = some operator ∧ start.scope.HasOperator operator := by
  unfold State.operator? at found
  split at found
  · contradiction
  · rename_i included
    refine ⟨found, ?_⟩
    rintro rfl
    have sloppy : state.context.withoutIn = false := by simpa [found] using included
    rw [so.context] at sloppy
    exact sloppy

/-- The right operand of an operator is complete: the operator in the lookahead does not extend it.
-/
def Completes (scope : Scope) (operator : BinaryOperator) (right : Expression)
    (tokens : List Token) (state : State) : Prop :=
  Reads scope (.fits (.operators operator.rightTier) right) tokens state.lookahead ∧
    ∀ next, state.operator? = some next → next.leftTier ≤ operator.precedence

/-- Operators of a higher tier complete the right operand of an operator. -/
theorem completes_tighter {scope : Scope} {operator next : BinaryOperator} {right : Expression}
    {tokens : List Token} {state : State} (tighter : operator.precedence < next.precedence)
    (reads :
      Reads scope (.fits (.operators (operator.precedence + 1)) right) tokens state.lookahead)
    (lower : ∀ next, state.operator? = some next → next.precedence < operator.precedence + 1) :
    Completes scope operator right tokens state := by
  have most := next.precedence_le
  have left : operator.isRightAssociative = false := by
    rw [← Bool.not_eq_true, BinaryOperator.isRightAssociative_iff]
    omega
  refine ⟨by simpa [BinaryOperator.rightTier, left] using reads, ?_⟩
  intro follower found
  have below := lower follower found
  rw [BinaryOperator.leftTier_le_iff, BinaryOperator.isRightAssociative_iff]
  omega

/-- Operators of its own tier complete the right operand of an operator that groups to the right. -/
theorem completes_right {scope : Scope} {operator next : BinaryOperator} {right : Expression}
    {tokens : List Token} {state : State} (same : operator.precedence = next.precedence)
    (groups : next.isRightAssociative = true)
    (reads : Reads scope (.fits (.operators operator.precedence) right) tokens state.lookahead)
    (lower : ∀ next, state.operator? = some next → next.precedence < operator.precedence) :
    Completes scope operator right tokens state := by
  have highest := next.isRightAssociative_iff.mp groups
  have groupsToo : operator.isRightAssociative = true := by
    rw [BinaryOperator.isRightAssociative_iff, same, highest]
  refine ⟨by simpa [BinaryOperator.rightTier, groupsToo] using reads, ?_⟩
  intro follower found
  have below := lower follower found
  rw [BinaryOperator.leftTier_le_iff]
  omega

/-- Until the right operand is complete it is a single one, and that is the invariant of the loop.
-/
theorem ensures_rightOperand (sound : self.Sound) {start : State} (operator : BinaryOperator)
    (turns : Nat) {right : Expression} {state : State} {front : List Token}
    (so : start.Consumes front state)
    (reads : Reads start.scope (.fits .unary right) front state.lookahead ∨
      Completes start.scope operator right front state) :
    (rightOperand self start.lookahead.span.start operator.precedence turns right).Ensures state
      fun value after => ∃ tokens, start.Consumes tokens after ∧
        Completes start.scope operator value tokens after := by
  induction turns generalizing right state front with
  | zero => exact ensures_exhausted
  | succ turns ih =>
    rw [rightOperand, ensures_binaryOperator?]
    have done (ended : ∀ next, state.operator? = some next → next.leftTier ≤ operator.precedence) :
        Completes start.scope operator right front state := by
      rcases reads with single | complete
      · exact ⟨.single _ single, ended⟩
      · exact complete
    split
    · rename_i ended
      rw [ensures_pure]
      exact ⟨front, so, done (by simp [ended])⟩
    · rename_i next found
      -- an operator that extends the operand finds a single one, which is of every tier
      have extended (tier : Nat) (higher : operator.precedence < next.leftTier) :
          state.Extends start.scope tier right front := by
        rcases reads with single | ⟨_, complete⟩
        · refine ⟨tier + next.leftTier, by omega, .single _ single, ?_⟩
          intro other same
          rw [found] at same
          cases same
          omega
        · exact absurd (complete next found) (by omega)
      have higher := not_congr (next.leftTier_le_iff operator.precedence)
      split
      · rename_i tighter
        rw [ensures_bind]
        constructor
        intro value after run
        obtain ⟨tokens, consumed, readsMore, lower⟩ :=
          (sound.operators _ _ _ _ _ so (extended _ (by omega))).of_ok run
        exact ih consumed (.inr (completes_tighter tighter readsMore lower))
      · split
        · rename_i groups
          rw [ensures_bind]
          constructor
          intro value after run
          obtain ⟨tokens, consumed, readsMore, lower⟩ :=
            (sound.operators _ _ _ _ _ so (extended _ (by simp [*] at higher; omega))).of_ok run
          exact ih consumed (.inr (completes_right groups.1 groups.2 readsMore lower))
        · rename_i looser apart
          rw [ensures_pure]
          refine ⟨front, so, done ?_⟩
          intro other same
          rw [found] at same
          cases same
          exact (BinaryOperator.leftTier_le_iff _ _).mpr ⟨looser, apart⟩

/-- The invariant is that what was read so far can be a left operand of the next operator. -/
theorem ensures_operators (sound : self.Sound) {start : State} (tier turns : Nat)
    {left : Expression} {state : State} {front : List Token} (so : start.Consumes front state)
    (reads : state.Extends start.scope tier left front) :
    (operators self start.lookahead.span.start tier turns left).Ensures state fun value after =>
      ∃ tokens, start.Consumes tokens after ∧
        Reads start.scope (.fits (.operators tier) value) tokens after.lookahead ∧
        ∀ operator, after.operator? = some operator → operator.precedence < tier := by
  induction turns generalizing left state front with
  | zero => exact ensures_exhausted
  | succ turns ih =>
    obtain ⟨own, atLeast, reads, suits⟩ := reads
    rw [operators, ensures_binaryOperator?]
    split
    · rename_i ended
      rw [ensures_pure]
      exact ⟨front, so, reads.operators_mono atLeast, by simp [ended]⟩
    · rename_i operator found
      split
      · rename_i lower
        rw [ensures_pure]
        refine ⟨front, so, reads.operators_mono atLeast, ?_⟩
        intro other same
        rw [found] at same
        cases same
        exact lower
      · rename_i notLower
        obtain ⟨kind, allowed⟩ := eq_of_operator? so found
        apply ensures_consume so (ne_endOfFile_of_kind (kind_of_binaryOperator? kind))
        intro between consumed
        rw [ensures_nodeStart, ensures_bind]
        constructor
        intro operand last run
        obtain ⟨tokens, taken, single⟩ := (sound.unary between).of_ok run
        rw [ensures_bind]
        constructor
        intro right after run
        obtain ⟨rightTokens, taken, complete, ended⟩ :=
          (ensures_rightOperand sound operator self.turns taken (.inl single)).of_ok run
        rw [consumed.scope] at complete
        have whole := consumed.trans taken
        rw [ensures_spanFrom, whole.span (by simp)]
        refine ih whole ⟨operator.precedence, by omega, ?_, ended⟩
        have left := reads.operators_mono (suits operator found)
        simpa using Reads.made (.binary left kind allowed complete (Nat.le_refl _))

end Operators

/-- An operand that ends with all its suffixes can be the left operand of any operator. -/
theorem sound_binary (sound : self.Sound) :
    (binary self).Sound fun scope value => Reads scope (.fits (.operators 0) value) := by
  intro state
  rw [binary, ensures_nodeStart]
  apply (sound_unary sound).step (.refl state)
  intro left tokens between consumed _ reads
  constructor
  intro value after run
  have suitable : between.Extends state.scope 0 left tokens := by
    refine ⟨12, by omega, .single _ reads, ?_⟩
    intro operator _
    have most := operator.precedence_le
    rw [BinaryOperator.leftTier_le_iff]
    omega
  obtain ⟨whole, consumed, readsWhole, _⟩ :=
    (ensures_operators sound 0 self.turns consumed suitable).of_ok run
  exact ⟨whole, consumed, readsWhole⟩

theorem sound_assignment (sound : self.Sound) :
    (assignment self).Sound fun scope value => Reads scope (.fits .assignment value) := by
  intro state
  rw [assignment, ensures_nodeStart]
  apply (sound_binary sound).step (.refl state)
  intro target tokens between consumed _ reads
  rw [ensures_kind]
  split
  · rename_i operator found
    dsimp only
    split
    · rename_i isReference
      apply ensures_checkTarget consumed isReference
      intro allowed
      apply ensures_consume consumed (ne_endOfFile_of_kind (kind_of_assignmentOperator? found))
      intro last consumed
      apply sound.assignment.step consumed
      intro value valueTokens after consumed _ readsValue
      rw [ensures_spanFrom, ensures_pure, consumed.span (by simp)]
      exact ⟨_, consumed, by simpa using Reads.made (.assignment reads found allowed readsValue)⟩
    · exact ensures_fail_bind
  · apply ensures_consumeIf consumed
    · intro last question consumed
      rw [if_pos rfl]
      apply sound.assignment.withIn.step consumed
      intro consequent consequentTokens last consumed _ readsConsequent
      apply ensures_require consumed
      intro last colon consumed
      apply sound.assignment.step consumed
      intro alternate alternateTokens after consumed _ readsAlternate
      rw [ensures_spanFrom, ensures_pure, consumed.span (by simp)]
      refine ⟨_, consumed, ?_⟩
      simpa using
        Reads.made (.conditional reads question readsConsequent colon readsAlternate)
    · intro _
      rw [if_neg (by simp), ensures_pure]
      exact ⟨_, consumed, .operators reads⟩

theorem sound_expression (sound : self.Sound) :
    (expression self).Sound fun scope value => Reads scope (.fits .expression value) := by
  intro state
  rw [expression, ensures_nodeStart]
  apply (sound_assignment sound).step (.refl state)
  intro value tokens between consumed _ reads
  apply ensures_consumeIf consumed
  · intro last comma consumed
    rw [if_pos rfl]
    apply (sound_separated sound).step consumed
    intro values others after consumed _ readsOthers
    rw [ensures_spanFrom, ensures_pure, consumed.span (by simp)]
    exact ⟨_, consumed, by simpa using Reads.made (.sequence reads comma readsOthers)⟩
  · intro _
    rw [if_neg (by simp), ensures_pure]
    exact ⟨_, consumed, .alone reads⟩

end Grammar

end EcmaScript
