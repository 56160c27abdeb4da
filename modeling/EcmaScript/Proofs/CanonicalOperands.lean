import EcmaScript.Proofs.CanonicalExpressions

/-!
# The levels of expressions as words

One lemma for each sort of expression that can be in parentheses: when its parts are parsed as
themselves, so is the whole.
-/

namespace EcmaScript

open Parse Grammar

namespace Located.Resembles

variable {start stop : Span}

theorem array {elements others : List (Option Expression)} (same : Resembles elements others) :
    Resembles (Expression.array elements start) (.array others stop) := by
  simp_all [Resembles, relocate, Expression.relocate, Expression.relocateElements_eq, Span.relocate]

theorem object {properties others : List Property} (same : Resembles properties others) :
    Resembles (Expression.object properties start) (.object others stop) := by
  simp_all [Resembles, relocate, Expression.relocate, Property.relocateAll_eq, Span.relocate]

theorem function {name nameToo : Option Identifier} {parameters others : List Identifier}
    {body bodyToo : Block} (sameName : Resembles name nameToo)
    (sameParameters : Resembles parameters others) (sameBody : Resembles body bodyToo) :
    Resembles (Expression.function name parameters body start)
      (.function nameToo others bodyToo stop) := by
  simp_all [Resembles, relocate, Expression.relocate, Span.relocate]

theorem call {callee other : Expression} {items others : List Expression}
    (same : Resembles callee other) (sameItems : Resembles items others) :
    Resembles (Expression.call callee items start) (.call other others stop) := by
  simp_all [Resembles, relocate, Expression.relocate, Expression.relocateAll_eq, Span.relocate]

theorem new {callee other : Expression} {items others : List Expression}
    (same : Resembles callee other) (sameItems : Resembles items others) :
    Resembles (Expression.new callee items start) (.new other others stop) := by
  simp_all [Resembles, relocate, Expression.relocate, Expression.relocateAll_eq, Span.relocate]

theorem sequence {values others : List Expression} (same : Resembles values others) :
    Resembles (Expression.sequence values start) (.sequence others stop) := by
  simp_all [Resembles, relocate, Expression.relocate, Expression.relocateAll_eq, Span.relocate]

theorem isReference {value other : Expression} (same : Resembles value other) :
    value.isReference = other.isReference := by
  rw [← value.isReference_relocate, ← other.isReference_relocate]
  exact congrArg Expression.isReference same

theorem name? {value other : Expression} (same : Resembles value other) :
    value.name? = other.name? := by
  rw [← value.name?_relocate, ← other.name?_relocate]
  exact congrArg Expression.name? same

end Located.Resembles

variable {scope : Scope} {rest : List Word} {self : Nonterminals}

/-! ### Lists of expressions -/

theorem Expression.listWords_eq (values : List Expression) :
    listWords values = Word.separated (fun value => Word.enclosed value.words) values := by
  induction values with
  | nil => rfl
  | cons first values ih =>
    cases values with
    | nil => rfl
    | cons second values => exact congrArg (_ ++ _ :: ·) ih

theorem Expression.exists_listWords_cons (first : Expression) (values : List Expression) :
    ∃ others, listWords (first :: values) = .symbol Punctuator.leftParen :: others := by
  cases values with
  | nil => exact ⟨_, rfl⟩
  | cons second values => exact ⟨_, rfl⟩

theorem Word.areLegible_separated {α : Type} {spell : α → List Word} {values : List α} :
    AreLegible (separated spell values) ↔ ∀ value ∈ values, AreLegible (spell value) := by
  induction values with
  | nil => simp [separated]
  | cons first values ih =>
    cases values with
    | nil => simp [separated]
    | cons second values => simp_all [separated]

theorem Word.areLegible_flatMap {α : Type} {spell : α → List Word} {values : List α} :
    AreLegible (values.flatMap spell) ↔ ∀ value ∈ values, AreLegible (spell value) := by
  induction values with
  | nil => simp
  | cons first values ih => simp [ih]

theorem Expression.legible_of_reparses {values : List Expression}
    (reparse : ∀ value ∈ values, value.Reparses scope) :
    Word.AreLegible (Expression.listWords values) := by
  rw [listWords_eq, Word.areLegible_separated]
  exact fun value member => (reparse value member).legible_enclosed

/-- Expressions with commas between them, up to another closer. -/
theorem takes_separated {values : List Expression} (some : values ≠ [])
    (reparse : ∀ value ∈ values, value.Reparses scope) :
    Nonterminals.Eventually fun self => ∀ rest, Word.Show rest scope.Ends →
      Word.Show rest (·.kind ≠ .symbol Punctuator.comma) →
        (separated self.assignment self.turns).Takes scope (Expression.listWords values)
          (Located.Resembles · values) scope rest := by
  filter_upwards [Nonterminals.Eventually.all fun value member =>
      (reparse value member).innerAssignment, Nonterminals.eventually_turns values.length]
    with budget taken turns rest ends notComma
  rw [Expression.listWords_eq]
  exact Takes.separated (Word.Show · scope.Ends) ends (fun _ => .ends (by decide)) taken notComma
    some (Nat.le_of_lt turns)

/-- Arguments in parentheses. -/
theorem takes_arguments {values : List Expression}
    (reparse : ∀ value ∈ values, value.Reparses scope) :
    Nonterminals.Eventually fun self => ∀ rest,
      (arguments self).Takes scope (Word.enclosed (Expression.listWords values))
        (Located.Resembles · values) scope rest := by
  cases values with
  | nil =>
    refine Filter.Eventually.of_forall fun budget rest => .require_bind (.withIn ?_)
    refine .sees_bind (.kind_symbol _) (.ite_pos rfl ?_)
    exact .pure_bind (.require_bind (.pure rfl))
  | cons first values =>
    have reparseIn : ∀ value ∈ first :: values, value.Reparses scope.withIn :=
      fun value member => (reparse value member).of_withIn rfl
    filter_upwards [takes_separated (List.cons_ne_nil first values) reparseIn]
      with budget taken rest
    obtain ⟨others, opening⟩ := Expression.exists_listWords_cons first values
    refine .require_bind (.withIn (.sees_not ?_ (.ite_neg Bool.false_ne_true ?_)))
    · rw [opening]
      exact .kind_not (by decide)
    · exact .bind (taken _ (.ends (by decide)) (.kind_not (by decide))) fun items same =>
        .require_bind (.pure same)

/-! ### Leaves -/

theorem Word.Show.beginsPrimary {words : List Word} {item : Symbol}
    (plain : item ≠ Keyword.newWord ∧ (Kind.symbol item).updateOperator? = none ∧
      (Kind.symbol item).unaryOperator? = none) :
    Show (.symbol item :: words) BeginsPrimary :=
  (kind_symbol item).mono fun token kind => by
    obtain ⟨construction, update, unary⟩ := plain
    exact ⟨by rw [kind]; exact fun same => construction (Kind.symbol.inj same),
      by rw [kind, update], by rw [kind, unary]⟩

/-- A lexeme that begins nothing but a primary expression. -/
def Lexeme.IsPlain (lexeme : Lexeme) : Prop :=
  lexeme.kind ≠ .symbol Keyword.newWord ∧ lexeme.kind.updateOperator? = none ∧
    lexeme.kind.unaryOperator? = none

theorem Word.Show.beginsPrimary_of_is {word : Word} {words : List Word} {lexeme : Lexeme}
    {flags : Flags} (is : word.Is lexeme flags) (plain : lexeme.IsPlain) :
    Show (word :: words) BeginsPrimary :=
  (of_is is).mono fun token found => by
    obtain ⟨construction, update, unary⟩ := plain
    constructor <;> rwa [Token.kind, found.1]

/-- A literal begins a primary expression, the slash of a regular expression too. -/
theorem Token.IsWritable.beginsPrimary {token : Token} {value : Literal} {words : List Word}
    (writable : token.IsWritable) (isLiteral : token.lexeme.literal? = some value) :
    Word.Show (.literal token.text :: words) BeginsPrimary := by
  rcases writable.text with ⟨flags, is, -⟩ | ⟨length, slash, front, ⟨flags, opens⟩, isSlash, -⟩
  · refine .beginsPrimary_of_is is ?_
    unfold Lexeme.literal? at isLiteral
    split at isLiteral <;> try cases isLiteral
    all_goals
      rename_i found
      rw [found]
      exact ⟨by simp [Lexeme.kind], rfl, rfl⟩
  · intro other text begins
    cases begins with
    | some opensToo =>
      obtain ⟨-, found, -⟩ := opens.unique opensToo
      have plain : slash.IsPlain := by
        unfold Scan.slash? at isSlash
        split at isSlash
        · exact ⟨by decide, rfl, rfl⟩
        · exact ⟨by decide, rfl, rfl⟩
        · cases isSlash
      rw [found] at plain
      exact ⟨plain.1, plain.2.1, plain.2.2⟩

namespace Expression

theorem reparses_this (span : Span) : (Expression.thisValue span).Reparses scope := by
  refine reparses_of_primary (by simp) (fun others => .beginsPrimary (by decide)) ?_
  refine Filter.Eventually.of_forall fun budget rest => ?_
  refine .lookahead_bind (.lexeme_symbol _) fun token found => ?_
  rw [found]
  exact .consume_symbol_bind (.pure rfl)

theorem takes_reference {token : Token} {name : Identifier} (writable : token.IsWritable)
    (refers : scope.Refers token name) :
    (primary self).Takes scope [.named name.name] (Located.Resembles · (.identifier name)) scope
      rest := by
  refine .lookahead_bind (.of_is (writable.is_named refers.1)) fun token found => ?_
  rw [found.1]
  exact .map (.identifierReference writable refers) fun value same =>
    congrArg Expression.identifier same

theorem reparses_reference {token : Token} {name : Identifier} (writable : token.IsWritable)
    (refers : scope.Refers token name) : (Expression.identifier name).Reparses scope := by
  have is := writable.is_named refers.1
  have refersIn : scope.withIn.Refers token name := refers
  exact reparses_of_primary (by simp [is.isLegible])
    (fun others => .beginsPrimary_of_is is ⟨nofun, rfl, rfl⟩)
    (Filter.Eventually.of_forall fun budget rest => takes_reference writable refersIn)

theorem reparses_literal {token : Token} {value : Literal} (writable : token.IsWritable)
    (isLiteral : token.lexeme.literal? = some value) (allowed : scope.AllowsLiteral token) :
    (Expression.literal value token.text token.span).Reparses scope := by
  have allowed : scope.withIn.AllowsLiteral token := allowed
  exact reparses_of_primary (by simp [writable.isLegible_literal])
    (fun others => writable.beginsPrimary isLiteral)
    (Filter.Eventually.of_forall fun budget rest =>
      .literal writable isLiteral allowed _ token.span)

end Expression

/-! ### Suffixes -/

/-- Suffixes end in front of a token that is none. -/
theorem takes_suffixes_of_end {withCalls : Bool} {start : Position} {turns : Nat}
    {value other : Expression} (some : 0 < turns) (same : Located.Resembles value other)
    (ends : Word.Show rest (startsSuffix withCalls ·.lexeme = false)) :
    (suffixes self withCalls start turns value).Takes scope [] (Located.Resembles · other) scope
      rest := fun state stands => by
  obtain ⟨text, -, begins⟩ := stands.begins
  exact ⟨value, state, suffixes_of_end some (ends _ _ begins), same, stands⟩

namespace Expression.Reparses

variable {value : Expression}

/-- An expression in parentheses with a suffix behind it. -/
theorem suffixed {whole : Expression} {suffix : List Word} (reparses : value.Reparses scope)
    (spelled : whole.words = Word.enclosed value.words ++ suffix)
    (legible : Word.AreLegible suffix)
    (taken : Nonterminals.Eventually fun self => ∀ start turns result rest, 0 < turns →
      Located.Resembles result value → Word.Show rest (startsSuffix true ·.lexeme = false) →
        (suffixes self true start (turns + 1) result).Takes scope.withIn suffix
          (Located.Resembles · whole) scope.withIn rest) :
    whole.Reparses scope := by
  have reparsesIn : value.Reparses scope.withIn := reparses.of_withIn rfl
  refine reparses_of_leftHandSide ?_ (fun others => ?_) ?_
  · rw [spelled]
    exact Word.areLegible_append.mpr ⟨reparses.legible_enclosed, legible⟩
  · rw [spelled]
    exact .beginsOperand
  · filter_upwards [reparsesIn.parenthesized, taken, Nonterminals.eventually_turns 1]
      with budget taken takenSuffix turns rest
    obtain ⟨turn, some⟩ := Nat.exists_eq_add_of_lt turns
    rw [spelled, Grammar.leftHandSide]
    refine .nodeStart_bind fun start => .sees_bind (.kind_symbol _) ?_
    refine .ite_neg (by decide) (.bind (taken _) fun result same => ?_)
    rw [some, Nat.add_comm 1 turn]
    exact takenSuffix start _ result _ (Nat.succ_pos _) same
      ((Word.Show.ends (by decide)).mono fun _ (ends : scope.Ends _) => ends.suffix)

theorem dot {token : Token} (reparses : value.Reparses scope) (writable : token.IsWritable)
    (isName : token.kind.isIdentifierName = true) (span : Span) :
    (Expression.dot value ⟨token.name?.getD "", token.span⟩ span).Reparses scope := by
  obtain ⟨lexeme, flags, is, -⟩ := writable.is_property isName
  refine reparses.suffixed rfl (by simp [is.isLegible]) ?_
  refine Filter.Eventually.of_forall fun budget start turns result rest some same ends => ?_
  rw [suffixes]
  refine .lookahead_bind (.lexeme_symbol _) fun other found => ?_
  rw [found]
  refine .consume_symbol_bind (.last (.identifierName writable isName token.span)
    fun name sameName => .spanFrom_bind fun span => takes_suffixes_of_end some ?_ ends)
  exact congrArg₂ (Expression.dot · · _) same sameName

theorem index {property : Expression} (reparses : value.Reparses scope)
    (reparsesToo : property.Reparses scope) (span : Span) :
    (Expression.index value property span).Reparses scope := by
  have reparsesIn : property.Reparses scope.withIn := reparsesToo.of_withIn rfl
  refine reparses.suffixed rfl (by simp [reparsesToo.legible]) ?_
  filter_upwards [reparsesIn.innerExpression]
    with budget taken start turns result rest some same ends
  rw [suffixes]
  refine .lookahead_bind (.lexeme_symbol _) fun other found => ?_
  rw [found]
  refine .consume_symbol_bind (.bind (.withIn (taken _ (.ends (by decide)) (.kind_not (by decide))))
    fun name sameName => .require_bind (.spanFrom_bind fun span =>
      takes_suffixes_of_end some ?_ ends))
  exact congrArg₂ (Expression.index · · _) same sameName

theorem call {items : List Expression} (reparses : value.Reparses scope)
    (reparseToo : ∀ item ∈ items, item.Reparses scope) (span : Span) :
    (Expression.call value items span).Reparses scope := by
  have reparseIn : ∀ item ∈ items, item.Reparses scope.withIn :=
    fun item member => (reparseToo item member).of_withIn rfl
  refine reparses.suffixed rfl (by simp [legible_of_reparses reparseToo]) ?_
  filter_upwards [takes_arguments reparseIn]
    with budget taken start turns result rest some same ends
  rw [suffixes]
  refine .lookahead_bind (.lexeme_symbol _) fun other found => ?_
  rw [found]
  refine .ite_pos rfl (.last (taken _) fun _ sameItems => .spanFrom_bind fun span =>
    takes_suffixes_of_end some (same.call sameItems) ends)

/-- The arguments of `new` are always written. -/
theorem takes_newExpression {items : List Expression} (reparses : value.Reparses scope)
    (reparseToo : ∀ item ∈ items, item.Reparses scope) (span : Span) :
    Nonterminals.Eventually fun self => ∀ rest,
      (newExpression self).Takes scope (Expression.new value items span).words
        (Located.Resembles · (.new value items span)) scope rest := by
  filter_upwards [reparses.callee, takes_arguments reparseToo] with budget taken takenItems rest
  refine .nodeStart_bind fun start => .require_bind (.bind (taken _ ?_) fun callee same => ?_)
  · exact .symbol fun token found _ => by rw [found]; rfl
  · refine .sees_bind (.kind_symbol _) (.ite_pos (by decide) ?_)
    exact .last (takenItems _) fun _ sameItems => .spanFrom_bind fun span =>
      .pure (same.new sameItems)

theorem new {items : List Expression} (reparses : value.Reparses scope)
    (reparseToo : ∀ item ∈ items, item.Reparses scope) (span : Span) :
    (Expression.new value items span).Reparses scope := by
  have reparsesIn : value.Reparses scope.withIn := reparses.of_withIn rfl
  have reparseIn : ∀ item ∈ items, item.Reparses scope.withIn :=
    fun item member => (reparseToo item member).of_withIn rfl
  refine reparses_of_leftHandSide
    (by simp [reparses.legible, legible_of_reparses reparseToo])
    (fun others => (Word.Show.kind_symbol _).mono fun token kind => ?_) ?_
  · exact ⟨by rw [kind]; rfl, by rw [kind]; rfl⟩
  · filter_upwards [reparsesIn.takes_newExpression reparseIn span, Nonterminals.eventually_turns 0]
      with budget taken turns rest
    refine .nodeStart_bind fun start => .sees_bind (.kind_symbol _) (.ite_pos (by decide) ?_)
    exact .last (taken _) fun result same => takes_suffixes_of_end turns same
      ((Word.Show.ends (by decide)).mono fun _ (ends : scope.Ends _) => ends.suffix)

/-! ### Operators -/

theorem unaryOperator {operator : UnaryOperator} (reparses : value.Reparses scope)
    (allowed : scope.AllowsOperand operator value) (span : Span) :
    (Expression.unary operator value span).Reparses scope := by
  have reparsesIn : value.Reparses scope.withIn := reparses.of_withIn rfl
  have known : (Kind.symbol operator.symbol).unaryOperator? = some operator := by
    cases operator <;> rfl
  refine reparses_of_unary (by simp [reparses.legible]) ?_
  filter_upwards [reparsesIn.innerUnary] with budget taken rest
  refine .nodeStart_bind fun start => .kind_bind (.kind_symbol _) ?_
  rw [known]
  refine .consume_symbol_bind (.last (taken _ ?_) fun result same => ?_)
  · exact (Word.Show.ends (by decide)).mono fun _ (ends : scope.Ends _) =>
      ⟨ends.suffix, ends.operand⟩
  · have unchecked : (checkDelete operator result start).Takes scope.withIn [] (fun _ => True)
        scope.withIn (.symbol Punctuator.rightParen :: rest) := by
      refine .isStrict_bind (.ite_neg ?_ (.pure trivial))
      rw [same.name?, Bool.and_eq_true, Bool.and_eq_true, beq_iff_eq]
      rintro ⟨⟨deletes, strict⟩, named⟩
      rw [allowed deletes strict] at named
      contradiction
    exact .silent unchecked fun _ _ => .spanFrom_bind fun span =>
      .pure (congrArg (Expression.unary operator · _) same)

/-- Strict code may assign to the target. -/
theorem checkTarget_of_allowsTarget {target result : Expression}
    (allowed : scope.AllowsTarget target) (same : Located.Resembles result target) :
    (checkTarget result).Takes scope [] (fun _ => True) scope rest := by
  refine .isStrict_bind (.ite_neg ?_ (.pure trivial))
  rw [same.name?, Bool.and_eq_true]
  rintro ⟨strict, refused⟩
  rw [allowed.2 strict] at refused
  contradiction

theorem updateBefore {operator : UpdateOperator} (reparses : value.Reparses scope)
    (allowed : scope.AllowsTarget value) (span : Span) :
    (Expression.update operator .before value span).Reparses scope := by
  have reparsesIn : value.Reparses scope.withIn := reparses.of_withIn rfl
  have allowedIn : scope.withIn.AllowsTarget value := allowed
  refine reparses_of_unary (by simp [reparses.legible]) ?_
  filter_upwards [reparsesIn.innerUnary] with budget taken rest
  have noUnary : (Kind.symbol (Symbol.update operator)).unaryOperator? = none := rfl
  refine .nodeStart_bind fun start => .kind_bind (.kind_symbol _) ?_
  rw [noUnary]
  refine .nodeStart_bind fun start => .kind_bind (.kind_symbol _) ?_
  refine .consume_symbol_bind (.last (taken _ ?_) fun result same => ?_)
  · exact (Word.Show.ends (by decide)).mono fun _ (ends : scope.Ends _) =>
      ⟨ends.suffix, ends.operand⟩
  · refine .ite_pos (by rw [same.isReference, allowed.1]) ?_
    exact .silent (checkTarget_of_allowsTarget allowedIn same) fun _ _ => .spanFrom_bind fun span =>
      .pure (congrArg (Expression.update operator .before · _) same)

theorem updateAfter {operator : UpdateOperator} (reparses : value.Reparses scope)
    (allowed : scope.AllowsTarget value) (span : Span) :
    (Expression.update operator .after value span).Reparses scope := by
  have reparsesIn : value.Reparses scope.withIn := reparses.of_withIn rfl
  have allowedIn : scope.withIn.AllowsTarget value := allowed
  refine reparses_of_unary (by simp [reparses.legible]) ?_
  filter_upwards [reparsesIn.leftHandSide true] with budget taken rest
  refine .nodeStart_bind fun start => .kind_bind (.kind_symbol _) ?_
  refine .nodeStart_bind fun start => .kind_bind (.kind_symbol _) ?_
  refine .bind (taken _ ?_) fun result same => ?_
  · exact .symbol fun token found _ => by rw [found]; rfl
  have shows : Word.Show (.symbol operator :: .symbol Punctuator.rightParen :: rest)
      fun token => token.kind = .symbol operator ∧ token.flags.lineBreak = false :=
    .symbol fun token found lineBreak => ⟨congrArg Lexeme.kind found, lineBreak⟩
  refine .lookahead_bind shows fun token found => ?_
  rw [found.1, found.2]
  refine .ite_pos (by rw [same.isReference, allowed.1]) ?_
  refine .silent (checkTarget_of_allowsTarget allowedIn same) fun _ _ => ?_
  exact .consume_symbol_bind (.spanFrom_bind fun span =>
    .pure (congrArg (Expression.update operator .after · _) same))

end Expression.Reparses

/-- Where `in` may be an operator every binary operator is one. -/
theorem Parse.Takes.binaryOperator?_bind {α : Type} {exit : Scope} {words : List Word}
    {answer : α → Prop} {operator : BinaryOperator} {next : Option BinaryOperator → Parse α}
    (takes : (next (some operator)).Takes scope.withIn (.symbol operator :: words) answer exit
      rest) :
    (binaryOperator? >>= next).Takes scope.withIn (.symbol operator :: words) answer exit rest :=
  fun state stands => by
    obtain ⟨text, -, begins⟩ := stands.begins
    have withIn : state.context.withoutIn = false := congrArg (·.context.withoutIn) stands.scope
    have found : state.operator? = some operator := by
      rw [State.operator?, withIn, Token.kind, begins.of_symbol]
      exact if_neg fun both => Bool.false_ne_true both.2
    obtain ⟨value, after, run, holds, standsAfter⟩ := takes state stands
    refine ⟨value, after, ?_, holds, standsAfter⟩
    rw [Grammar.binaryOperator?_bind, found, run]

theorem takes_operators_of_end {start : Position} {tier turns : Nat} {value other : Expression}
    (some : 0 < turns) (same : Located.Resembles value other)
    (ends : Word.Show rest scope.EndsOperators) :
    (operators self start tier turns value).Takes scope [] (Located.Resembles · other) scope
      rest := fun state stands => by
  obtain ⟨text, -, begins⟩ := stands.begins
  have here := stands.scope
  subst here
  exact ⟨value, state, operators_of_end some (ends _ _ begins).operator?, same, stands⟩

theorem takes_rightOperand_of_end {start : Position} {tier turns : Nat} {value other : Expression}
    (some : 0 < turns) (same : Located.Resembles value other)
    (ends : Word.Show rest scope.EndsOperators) :
    (rightOperand self start tier turns value).Takes scope [] (Located.Resembles · other) scope
      rest := fun state stands => by
  obtain ⟨text, -, begins⟩ := stands.begins
  have here := stands.scope
  subst here
  refine ⟨value, state, ?_, same, stands⟩
  obtain ⟨turns, rfl⟩ := Nat.exists_eq_add_of_lt some
  rw [rightOperand, binaryOperator?_bind, (ends _ _ begins).operator?]
  rfl

/-- A binary operator between expressions in parentheses. -/
theorem Expression.reparses_binary {operator : BinaryOperator} {left right : Expression}
    (reparses : left.Reparses scope) (reparsesToo : right.Reparses scope) (span : Span) :
    (Expression.binary operator left right span).Reparses scope := by
  have leftIn : left.Reparses scope.withIn := reparses.of_withIn rfl
  have rightIn : right.Reparses scope.withIn := reparsesToo.of_withIn rfl
  refine reparses_of_binary (by simp [reparses.legible, reparsesToo.legible]) ?_
  filter_upwards [leftIn.unary, rightIn.innerUnary, Nonterminals.eventually_turns 1]
    with budget takenLeft takenRight turns rest
  have ends : Word.Show (.symbol Punctuator.rightParen :: rest) scope.withIn.EndsOperators :=
    (Word.Show.ends (by decide)).mono fun _ ends => ends.toEndsOperators
  obtain ⟨turn, some⟩ := Nat.exists_eq_add_of_lt turns
  refine .nodeStart_bind fun start => .bind (takenLeft _ ?_) fun leftToo same => ?_
  · exact .symbol fun token found _ =>
      ⟨by rw [found]; rfl, by rw [endsOperand, Token.kind, found]; rfl⟩
  rw [some, operators]
  refine .binaryOperator?_bind (.ite_neg (Nat.not_lt_zero _) (.consume_symbol_bind ?_))
  refine .nodeStart_bind fun start => .last (takenRight _ (ends.mono fun _ ends =>
    ⟨ends.suffix, ends.operand⟩)) fun rightToo sameToo => ?_
  refine .silent (takes_rightOperand_of_end (Nat.zero_lt_of_lt turns) sameToo ends)
    fun operand sameToo => .spanFrom_bind fun span => ?_
  exact takes_operators_of_end (by omega)
    (congrArg₂ (Expression.binary operator · · _) same sameToo) ends

/-- An assignment to a target in parentheses. -/
theorem Expression.reparses_assignment {operator : AssignmentOperator} {target value : Expression}
    (reparses : target.Reparses scope) (allowed : scope.AllowsTarget target)
    (reparsesToo : value.Reparses scope) (span : Span) :
    (Expression.assignment operator target value span).Reparses scope := by
  have targetIn : target.Reparses scope.withIn := reparses.of_withIn rfl
  have valueIn : value.Reparses scope.withIn := reparsesToo.of_withIn rfl
  have allowedIn : scope.withIn.AllowsTarget target := allowed
  refine reparses_of_assignment (by simp [reparses.legible, reparsesToo.legible]) ?_
  filter_upwards [targetIn.binary, valueIn.innerAssignment] with budget takenTarget takenValue rest
  refine .nodeStart_bind fun start => .bind (takenTarget _ ?_) fun result same => ?_
  · exact .symbol fun token found _ =>
      ⟨by rw [found]; rfl, by rw [endsOperand, Token.kind, found]; rfl,
        by rw [Token.kind, found]; exact fun _ none => absurd none (Option.some_ne_none _).symm⟩
  refine .kind_bind (.kind_symbol _) (.ite_pos (by rw [same.isReference, allowed.1]) ?_)
  refine .silent (Reparses.checkTarget_of_allowsTarget allowedIn same) fun _ _ => ?_
  exact .consume_symbol_bind (.last (takenValue _ (.ends (by decide))) fun _ sameToo =>
    .spanFrom_bind fun span =>
      .pure (congrArg₂ (Expression.assignment operator · · _) same sameToo))

/-- A choice between expressions in parentheses. -/
theorem Expression.reparses_conditional {test consequent alternate : Expression}
    (reparses : test.Reparses scope) (reparsesThen : consequent.Reparses scope)
    (reparsesElse : alternate.Reparses scope) (span : Span) :
    (Expression.conditional test consequent alternate span).Reparses scope := by
  have testIn : test.Reparses scope.withIn := reparses.of_withIn rfl
  have thenIn : consequent.Reparses scope.withIn.withIn := reparsesThen.of_withIn rfl
  have elseIn : alternate.Reparses scope.withIn := reparsesElse.of_withIn rfl
  refine reparses_of_assignment
    (by simp [reparses.legible, reparsesThen.legible, reparsesElse.legible]) ?_
  filter_upwards [testIn.binary, thenIn.innerAssignment, elseIn.innerAssignment]
    with budget takenTest takenThen takenElse rest
  refine .nodeStart_bind fun start => .bind (takenTest _ ?_) fun result same => ?_
  · exact .symbol fun token found _ =>
      ⟨by rw [found]; rfl, by rw [endsOperand, Token.kind, found]; rfl,
        by rw [Token.kind, found]; exact fun _ none => absurd none (Option.some_ne_none _).symm⟩
  refine .kind_bind (.kind_symbol _) (.consumeIf_bind (.ite_pos rfl ?_))
  refine .bind (.withIn (takenThen _ (.ends (by decide)))) fun resultThen sameThen => ?_
  refine .require_bind (.last (takenElse _ (.ends (by decide))) fun resultElse sameElse =>
    .spanFrom_bind fun span => .pure ?_)
  simp_all [Located.Resembles, Located.relocate, relocate, Span.relocate]

theorem Expression.reparses_sequence {first : Expression} {values : List Expression}
    (reparses : first.Reparses scope) (some : values ≠ [])
    (reparse : ∀ value ∈ values, value.Reparses scope) (span : Span) :
    (Expression.sequence (first :: values) span).Reparses scope := by
  have firstIn : first.Reparses scope.withIn := reparses.of_withIn rfl
  have valuesIn : ∀ value ∈ values, value.Reparses scope.withIn :=
    fun value member => (reparse value member).of_withIn rfl
  obtain ⟨second, values, rfl⟩ := List.exists_cons_of_ne_nil some
  refine ⟨?_, ?_⟩
  · simp [listWords, reparses.legible, legible_of_reparses reparse]
  · filter_upwards [firstIn.assignment, takes_separated some valuesIn]
      with budget taken takenMore rest
    refine .nodeStart_bind fun start => .bind (taken _ (.ends (by decide))) fun result same => ?_
    refine .consumeIf_bind (.ite_pos rfl ?_)
    exact .last (takenMore _ (.ends (by decide)) (.kind_not (by decide))) fun _ sameMore =>
      .spanFrom_bind fun span => .pure (Located.Resembles.sequence (same.cons sameMore))

end EcmaScript
