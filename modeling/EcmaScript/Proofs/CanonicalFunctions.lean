import EcmaScript.Proofs.CanonicalOperands

/-!
# Arrays, objects and functions as words

The words of an array, an object or a function are parsed as itself when those of its parts are.
Every element and every property has a comma behind it, the last one too.
-/

namespace EcmaScript

open Parse Grammar

variable {scope : Scope} {rest : List Word} {self : Nonterminals}

/-! ### Arrays -/

/-- An item with its comma. -/
theorem Parse.Takes.itemWithComma {α : Type} {item : Parse α} {words : List Word}
    {answer : α → Prop} {closing : Punctuator} (notComma : closing ≠ .comma)
    (takes : item.Takes scope words answer scope (.symbol Punctuator.comma :: rest)) :
    (itemWithComma closing item).Takes scope (words ++ [.symbol Punctuator.comma]) answer scope
      rest := by
  refine .bind takes fun value holds => .sees_not (.kind_not ?_) (.ite_neg Bool.false_ne_true ?_)
  · exact fun same => notComma (Symbol.punctuator.inj (Kind.symbol.inj same)).symm
  · exact .require_bind (.pure holds)

/-- An element of an array with the comma behind it. -/
def Expression.elementSpelling : Option Expression → List Word
  | none => [.symbol Punctuator.comma]
  | some value => Word.enclosed value.words ++ [.symbol Punctuator.comma]

theorem Expression.elementWords_eq (elements : List (Option Expression)) :
    elementWords elements = elements.flatMap elementSpelling := by
  induction elements with
  | nil => rfl
  | cons element elements ih =>
    cases element with
    | none => simp [elementWords, elementSpelling, ih]
    | some value => simp [elementWords, elementSpelling, ih]

theorem takes_element {elements : List (Option Expression)}
    (reparse : ∀ element ∈ elements, ∀ value ∈ element, value.Reparses scope) :
    Nonterminals.Eventually fun self => ∀ element ∈ elements, ∀ rest,
      (Grammar.element self).Takes scope (Expression.elementSpelling element)
        (Located.Resembles · element) scope rest := by
  refine .all fun item member => ?_
  cases item with
  | none =>
    exact Filter.Eventually.of_forall fun budget rest =>
      .consumeIf_bind (.ite_pos rfl (.pure rfl))
  | some value =>
    filter_upwards [(reparse _ member value rfl).innerAssignment] with budget taken rest
    refine .consumeIf_not (.kind_not (by decide)) (.ite_neg Bool.false_ne_true ?_)
    exact .map (.itemWithComma (by decide) (taken _ (.ends (by decide)))) fun _ same =>
      congrArg some same

/-- An array of expressions in parentheses. -/
theorem Expression.reparses_array {elements : List (Option Expression)}
    (reparse : ∀ element ∈ elements, ∀ value ∈ element, value.Reparses scope) (span : Span) :
    (Expression.array elements span).Reparses scope := by
  have reparseIn : ∀ element ∈ elements, ∀ value ∈ element, value.Reparses scope.withIn.withIn :=
    fun element member value inside => (reparse element member value inside).of_withIn rfl
  refine reparses_of_primary ?_ (fun others => .beginsPrimary (by decide)) ?_
  · simp only [words, elementWords_eq, Word.areLegible_cons, Word.areLegible_append,
      Word.areLegible_flatMap, Word.isLegible_symbol_iff, Word.areLegible_nil, and_true, true_and]
    rintro (_ | value) member
    · simp [elementSpelling]
    · simp [elementSpelling, (reparse _ member value rfl).legible]
  · filter_upwards [takes_element reparseIn, Nonterminals.eventually_turns elements.length]
      with budget taken turns rest
    refine .lookahead_bind (.lexeme_symbol _) fun token found => ?_
    rw [found]
    refine .nodeStart_bind fun start => .require_bind ?_
    rw [elementWords_eq]
    refine .bind (.withIn (.itemsUntil (fun _ => True) trivial (fun _ _ _ => trivial) ?_
      (fun element member others _ => taken element member others) ?_ turns)) fun _ same => ?_
    · rintro (_ | value) - others
      · exact (Word.Show.kind_symbol _).mono fun token kind => by rw [kind]; rfl
      · exact (Word.Show.kind_symbol _).mono fun token kind => by rw [kind]; rfl
    · exact (Word.Show.kind_symbol _).mono fun token kind => by rw [kind]; rfl
    · exact .require_bind (.spanFrom_bind fun span => .pure (Located.Resembles.array same))

/-! ### Lists of statements -/

theorem Located.Resembles.block {statements others : List Statement} {start stop : Span}
    (same : Resembles statements others) :
    Resembles (Block.mk statements start) (Block.mk others stop) := by
  simp_all [Resembles, relocate, Block.relocate, Statement.relocateAll_eq, Span.relocate]

/-- The kinds that end a list of statements. -/
def enders : List Kind :=
  [.symbol Punctuator.rightBrace, .endOfFile, .symbol Keyword.caseWord, .symbol Keyword.defaultWord]

/-- The kinds that go on with a statement. -/
def continuers : List Kind :=
  [.symbol Keyword.elseWord, .symbol Keyword.finallyWord]

/-- The words of a statement in a list are read as that statement. -/
structure Statement.Reparses (scope : Scope) (statement : Statement) : Prop where
  legible : Word.AreLegible statement.words
  front : ∀ others, Word.Show (statement.words ++ others)
    (·.kind ∉ .stringLiteral :: (continuers ++ enders))
  taken : Nonterminals.Eventually fun self => ∀ rest, Word.Show rest (·.kind ∉ continuers) →
    (listItem self).Takes scope statement.words (Located.Resembles · statement) scope rest

theorem Statement.listWords_eq (statements : List Statement) :
    listWords statements = statements.flatMap words := by
  induction statements with
  | nil => rfl
  | cons first statements ih => rw [listWords, ih, List.flatMap_cons]

theorem Statement.legible_of_reparses {statements : List Statement}
    (reparse : ∀ statement ∈ statements, statement.Reparses scope) :
    Word.AreLegible (listWords statements) := by
  rw [listWords_eq, Word.areLegible_flatMap]
  exact fun statement member => (reparse statement member).legible

/-- Statements up to the end of their list. -/
theorem takes_statements {statements : List Statement}
    (reparse : ∀ statement ∈ statements, statement.Reparses scope) :
    Nonterminals.Eventually fun self => ∀ (ends : Kind → Bool) rest,
      (∀ kind, ends kind = true → kind ∈ enders) → Word.Show rest (ends ·.kind = true) →
        (itemsUntil ends self.listItem self.turns).Takes scope (Statement.listWords statements)
          (Located.Resembles · statements) scope rest := by
  have inner : ∀ statement ∈ statements, Nonterminals.Eventually fun self => ∀ rest,
      Word.Show rest (·.kind ∉ continuers) →
        self.listItem.Takes scope statement.words (Located.Resembles · statement) scope rest :=
    fun statement member => (reparse statement member).taken.succ fun _ taken => taken
  filter_upwards [Nonterminals.Eventually.all inner,
    Nonterminals.eventually_turns statements.length] with budget taken turns ends rest isEnd ended
  rw [Statement.listWords_eq]
  refine .itemsUntil (Word.Show · (·.kind ∉ continuers)) ?_ ?_ ?_ taken ended turns
  · have apart : ∀ kind ∈ enders, kind ∉ continuers := by decide
    exact ended.mono fun token ends => apart _ (isEnd _ ends)
  · intro statement member others
    exact ((reparse statement member).front others).mono fun token plain goesOn =>
      plain (.tail _ (List.mem_append_left _ goesOn))
  · intro statement member others
    refine ((reparse statement member).front others).mono fun token plain => ?_
    rw [← Bool.not_eq_true]
    exact fun ends => plain (.tail _ (List.mem_append_right _ (isEnd _ ends)))

/-! ### Bodies -/

/-- The words of directives are read as those, in front of anything but another string, and end in a
scope that may have become strict. -/
structure Statement.Direct (scope last : Scope) (statements : List Statement) : Prop where
  options : last.options = scope.options
  legible : Word.AreLegible (listWords statements)
  taken : Nonterminals.Eventually fun self => ∀ turns rest, statements.length < turns →
    Word.Show rest (·.kind ≠ .stringLiteral) →
      (directives self.statement turns).Takes scope (listWords statements)
        (Located.Resembles · statements) last rest

/-- Directives, and statements in the scope after them. -/
def Statement.ReparseAsBody (scope : Scope) (statements : List Statement) : Prop :=
  ∃ opening others last, statements = opening ++ others ∧ Direct scope last opening ∧
    ∀ statement ∈ others, statement.Reparses last

/-- A body up to its end, and what is done after it. -/
theorem Statement.ReparseAsBody.taken {statements : List Statement}
    (reparse : ReparseAsBody scope statements) :
    Word.AreLegible (listWords statements) ∧ ∃ last, last.options = scope.options ∧
      Nonterminals.Eventually fun self => ∀ {β : Type} (next : List Statement → Parse β)
        {answer : β → Prop} {exit : Scope} {back rest : List Word} (ends : Kind → Bool),
        (∀ kind, ends kind = true → kind ∈ enders) → Word.Show (back ++ rest) (ends ·.kind = true) →
          (∀ result, Located.Resembles result statements →
            (next result).Takes last back answer exit rest) →
          (do
            let opening ← directives self.statement self.turns
            let others ← itemsUntil ends self.listItem self.turns
            next (opening ++ others) : Parse β).Takes scope (listWords statements ++ back) answer
              exit rest := by
  obtain ⟨opening, others, last, rfl, direct, reparse⟩ := reparse
  have spelled : listWords (opening ++ others) = listWords opening ++ listWords others := by
    rw [listWords_eq, listWords_eq, listWords_eq, List.flatMap_append]
  rw [spelled]
  refine ⟨Word.areLegible_append.mpr ⟨direct.legible, legible_of_reparses reparse⟩, last,
    direct.options, ?_⟩
  filter_upwards [direct.taken, takes_statements reparse,
    Nonterminals.eventually_turns opening.length] with budget takenFront taken turns β next answer
      exit back rest ends isEnd ended goesOn
  rw [List.append_assoc]
  refine .bind (takenFront _ _ turns ?_) fun front same => ?_
  · cases others with
    | nil =>
      refine ended.mono fun token ends isString => ?_
      have isEnd := isEnd _ ends
      rw [isString] at isEnd
      exact absurd isEnd (by decide)
    | cons first others =>
      rw [listWords, List.append_assoc, List.append_assoc]
      refine ((reparse first (.head _)).front _).mono fun token plain isString => plain ?_
      rw [isString]
      exact .head _
  · refine .bind (taken ends _ isEnd ended) fun behind sameBehind => goesOn _ ?_
    exact (List.map_append ..).trans ((congrArg₂ (· ++ ·) same sameBehind).trans
      (List.map_append ..).symm)

/-! ### Functions -/

/-- The words of the parameters and of the body of a function are read as these. -/
structure Block.ReparsesAsFunction (scope : Scope) (parameters : List Identifier) (body : Block) :
    Prop where
  legibleNames : Word.AreLegible (Word.ofNames parameters)
  legible : Word.AreLegible body.words
  takenNames : Nonterminals.Eventually fun self => ∀ rest,
    (formalParameters self).Takes scope (Word.enclosed (Word.ofNames parameters))
      (Located.Resembles · parameters) scope rest
  taken : Nonterminals.Eventually fun self => ∀ rest,
    (functionBody self).Takes scope body.words (Located.Resembles · body) scope rest

theorem Word.ofNames_eq (names : List Identifier) :
    ofNames names = separated (fun name => [.named name.name]) names := by
  induction names with
  | nil => rfl
  | cons first names ih =>
    cases names with
    | nil => rfl
    | cons second names => exact congrArg (_ :: _ :: ·) ih

/-- The tokens of bindings are found among those that the bindings were read from. -/
theorem Scope.HasBindings.exists_binds {names : List Identifier} {tokens : List Token}
    (bindings : scope.HasBindings names tokens) :
    names ≠ [] ∧ ∀ name ∈ names, ∃ token ∈ tokens, scope.Binds token name := by
  induction bindings with
  | one binds => simpa using binds
  | more binds _ _ ih =>
    refine ⟨List.cons_ne_nil _ _,
      List.forall_mem_cons.mpr ⟨⟨_, .head _, binds⟩, fun name member => ?_⟩⟩
    obtain ⟨token, inside, binds⟩ := ih.2 name member
    exact ⟨token, .tail _ (.tail _ inside), binds⟩

theorem Scope.HasParameters.exists_binds {names : List Identifier} {tokens : List Token}
    (parameters : scope.HasParameters names tokens) :
    ∀ name ∈ names, ∃ token ∈ tokens, scope.Binds token name := by
  cases parameters with
  | none => simp
  | some _ bindings _ =>
    intro name member
    obtain ⟨token, inside, binds⟩ := bindings.exists_binds.2 name member
    exact ⟨token, by simp [inside], binds⟩

/-- Names in parentheses, with commas between them, that the scope lets bind. -/
theorem takes_formalParameters {names : List Identifier}
    (binds : ∀ name ∈ names, ∃ token : Token, token.IsWritable ∧ scope.Binds token name) :
    Word.AreLegible (Word.ofNames names) ∧ Nonterminals.Eventually fun self => ∀ rest,
      (formalParameters self).Takes scope (Word.enclosed (Word.ofNames names))
        (Located.Resembles · names) scope rest := by
  have is : ∀ name ∈ names, (Word.named name.name).Is (.identifier name.name) {} :=
    fun name member =>
      have ⟨_, writable, binds⟩ := binds name member
      writable.is_named binds.1.1
  rw [Word.ofNames_eq, Word.areLegible_separated]
  refine ⟨fun name member => by simp [(is name member).isLegible], ?_⟩
  filter_upwards [Nonterminals.eventually_turns names.length] with budget turns rest
  refine .require_bind ?_
  cases names with
  | nil =>
    exact .sees_bind (.kind_symbol _) (.ite_pos rfl (.pure_bind (.require_bind (.pure rfl))))
  | cons first names =>
    have opens : ∀ others, Word.Show (Word.separated (fun name => [.named name.name])
        (first :: names) ++ others) (·.kind ≠ .symbol Punctuator.rightParen) := by
      intro others
      have named : ∀ words, Word.Show (.named first.name :: words)
          (·.kind ≠ .symbol Punctuator.rightParen) := fun words =>
        (Word.Show.kind_of_is (is first (.head _))).mono fun token kind => by
          rw [kind]
          simp [Lexeme.kind]
      cases names with
      | nil => exact named _
      | cons second names => exact named _
    refine .sees_not (by simpa using opens _) (.ite_neg Bool.false_ne_true (.bind ?_
      fun result same => .require_bind (.pure same)))
    refine .separated (fun _ => True) trivial (fun _ => trivial) (fun name member others _ => ?_)
      (.kind_not (by decide)) (List.cons_ne_nil _ _) (Nat.le_of_lt turns)
    obtain ⟨token, writable, binds⟩ := binds name member
    exact .bindingIdentifier writable binds

/-- The body of a function in braces. -/
theorem takes_functionBody {body : Block}
    (reparse : Statement.ReparseAsBody scope.inFunction body.body) :
    Word.AreLegible body.words ∧ Nonterminals.Eventually fun self => ∀ rest,
      (functionBody self).Takes scope body.words (Located.Resembles · body) scope rest := by
  obtain ⟨statements, span⟩ := body
  obtain ⟨legible, last, options, taken⟩ := reparse.taken
  refine ⟨by simp [Block.words, legible], ?_⟩
  filter_upwards [taken] with budget taken rest
  refine .nodeStart_bind fun start => .require_bind (.last (.inFunction (taken
    (fun body => do require Punctuator.rightBrace; return body) endsStatements ?_ ?_
    fun result same => .require_bind (.pure same)) options) fun result same =>
      .spanFrom_bind fun span => .pure ?_)
  · intro kind ends
    simpa [endsStatements, enders, or_assoc] using ends
  · exact (Word.Show.kind_symbol _).mono fun token kind => by rw [kind]; rfl
  · exact .block same

/-- A function whose names are bound by tokens that can be written again. -/
theorem Block.ReparsesAsFunction.of_body {parameters : List Identifier} {body : Block}
    (binds : ∀ name ∈ parameters, ∃ token : Token, token.IsWritable ∧ scope.Binds token name)
    (reparse : Statement.ReparseAsBody scope.inFunction body.body) :
    body.ReparsesAsFunction scope parameters :=
  have ⟨legibleNames, takenNames⟩ := takes_formalParameters binds
  have ⟨legible, taken⟩ := takes_functionBody reparse
  ⟨legibleNames, legible, takenNames, taken⟩

/-- A function in an expression, with a name or without one. -/
theorem Expression.reparses_function {name : Option Identifier} {parameters : List Identifier}
    {body : Block}
    (binds : ∀ identifier ∈ name, ∃ token : Token, token.IsWritable ∧ scope.Binds token identifier)
    (reparses : body.ReparsesAsFunction scope.withIn parameters) (span : Span) :
    (Expression.function name parameters body span).Reparses scope := by
  have legible : Word.AreLegible (Word.ofName? name) := by
    cases name with
    | none => simp [Word.ofName?]
    | some identifier =>
      obtain ⟨token, writable, binds⟩ := binds identifier rfl
      simp [Word.ofName?, (writable.is_named binds.1.1).isLegible]
  refine reparses_of_primary (by simp [legible, reparses.legibleNames, reparses.legible])
    (fun others => .beginsPrimary (by decide)) ?_
  filter_upwards [reparses.takenNames, reparses.taken] with budget takenNames taken rest
  refine .lookahead_bind (.lexeme_symbol _) fun token found => ?_
  rw [found]
  refine .nodeStart_bind fun start => .require_bind ?_
  have others : ∀ nameToo : Option Identifier, Located.Resembles nameToo name →
      (do
        let parameters ← formalParameters (.ofBudget budget)
        let body ← functionBody (.ofBudget budget)
        return .function nameToo parameters body (← spanFrom start) : Parse Expression).Takes
          scope.withIn (Word.enclosed (Word.ofNames parameters) ++ body.words)
          (Located.Resembles · (.function name parameters body span)) scope.withIn rest :=
    fun nameToo sameName => .bind (takenNames _) fun names sameNames =>
      .last (taken _) fun body same => .spanFrom_bind fun span => .pure
        (sameName.function sameNames same)
  cases name with
  | none =>
    refine .sees_not (.kind_not (by decide)) (.ite_neg Bool.false_ne_true ?_)
    exact .pure_bind (others none rfl)
  | some identifier =>
    obtain ⟨token, writable, binds⟩ := binds identifier rfl
    refine .sees_bind (.kind_of_is (writable.is_named binds.1.1)) (.ite_pos rfl ?_)
    have bindsIn : scope.withIn.Binds token identifier := binds
    exact .map_bind (.bind (.bindingIdentifier writable bindsIn) fun _ same =>
      others _ (congrArg some same))

/-! ### Objects -/

/-- The words of a property are read as that property where a list of them may go on or end. -/
structure Property.Reparses (scope : Scope) (property : Property) : Prop where
  legible : Word.AreLegible property.words
  front : ∀ others, Word.Show (property.words ++ others)
    (·.kind ≠ .symbol Punctuator.rightBrace)
  taken : Nonterminals.Eventually fun self => ∀ rest, Word.Show rest scope.Ends →
    (Grammar.property self).Takes scope property.words (Located.Resembles · property) scope rest

theorem not_closing_of_startsPropertyKey {token : Token}
    (starts : startsPropertyKey token.kind = true) :
    token.kind ≠ .symbol Punctuator.rightBrace := by
  intro closes
  rw [closes] at starts
  exact absurd starts (by decide)

theorem Located.Resembles.property {key keyToo : PropertyKey} {value other : Expression}
    {kind : PropertyKind} {start stop : Span} (sameKey : Resembles key keyToo)
    (same : Resembles value other) :
    Resembles (Property.mk key value kind start) (Property.mk keyToo other kind stop) := by
  simp_all [Resembles, relocate, Property.relocate, Span.relocate]

/-- The value of a property behind its name. -/
theorem takes_propertyValue (key : PropertyKey) {value : Expression}
    (reparses : value.Reparses scope) (span : Span) :
    Nonterminals.Eventually fun self => ∀ (start : Position) (keyToo : PropertyKey) rest,
      Located.Resembles keyToo key → Word.Show rest scope.Ends →
        (propertyValue self start keyToo).Takes scope
          (.symbol Punctuator.colon :: Word.enclosed value.words)
          (Located.Resembles · ⟨key, value, .init, span⟩) scope rest := by
  filter_upwards [reparses.innerAssignment] with budget taken start keyToo rest sameKey ends
  exact .require_bind (.last (taken _ ends) fun _ same => .spanFrom_bind fun span =>
    .pure (sameKey.property same))

/-- A property with a value. The words of accessors may be its name. -/
theorem Property.reparses_value {token : Token} {key : PropertyKey} {value : Expression}
    (writable : token.IsWritable) (hasKey : scope.HasKey token key)
    (reparses : value.Reparses scope) (span : Span) :
    (Property.mk key value .init span).Reparses scope := by
  refine ⟨?_, fun others => ?_, ?_⟩
  · simp [words, PropertyKind.words, hasKey.isLegible writable, reparses.legible]
  · exact (hasKey.shows writable).mono fun _ => not_closing_of_startsPropertyKey
  · filter_upwards [takes_propertyValue key reparses span] with budget taken rest ends
    have named : ∀ start, (propertyKey >>= propertyValue (.ofBudget budget) start).Takes scope
        (key.word :: .symbol Punctuator.colon :: Word.enclosed value.words)
        (Located.Resembles · (Property.mk key value .init span)) scope rest := fun start => by
      have key : propertyKey.Takes scope [key.word] (Located.Resembles · key) scope
        (.symbol Punctuator.colon :: Word.enclosed value.words ++ rest) :=
        .propertyKey writable hasKey
      exact .bind key fun keyToo same => taken start keyToo rest same ends
    cases hasKey with
    | literal literal kind _ _ =>
      obtain ⟨flags, is, -⟩ := writable.is_literal (by rcases kind with kind | kind <;> simp [kind])
      refine .lookahead_bind (.of_is is) fun opening found => ?_
      have none : accessorKind? opening.lexeme = none := by
        rw [found.1]
        cases lexeme : token.lexeme with
        | identifier => simp [Token.kind, lexeme, Lexeme.kind] at kind
        | _ => rfl
      rw [none]
      exact named _
    | name isName =>
      obtain ⟨lexeme, flags, is, -, known⟩ := writable.is_property isName
      refine .lookahead_bind (.of_is is) fun opening found => ?_
      cases accessorKind? opening.lexeme with
      | none => exact named _
      | some kind =>
        refine .consume_bind is (.kind_bind (.kind_symbol _) (.ite_neg (by decide) ?_))
        refine taken _ _ rest ?_ ends
        rw [Token.name?, found.1, known]
        rfl

/-- The function of an accessor behind its name. -/
theorem takes_accessorFunction {kind : PropertyKind} {parameters : List Identifier} {body : Block}
    (reparses : body.ReparsesAsFunction scope parameters) (isAccessor : kind ≠ .init)
    (count : parameters.length = if kind = .get then 0 else 1) (span : Span) :
    Nonterminals.Eventually fun self => ∀ rest,
      (accessorFunction self kind).Takes scope
        (Word.enclosed (Word.ofNames parameters) ++ body.words)
        (Located.Resembles · (.function none parameters body span)) scope rest := by
  filter_upwards [reparses.takenNames, reparses.taken] with budget takenNames taken rest
  refine .nodeStart_bind fun start => .bind (takenNames _) fun names sameNames => ?_
  have same : names.length = parameters.length := by
    simpa [Located.Resembles, Located.relocate] using congrArg List.length sameNames
  have checked : ∀ others, (checkAccessor kind names start).Takes scope [] (fun _ => True) scope
      others := fun others => by
    rw [← same] at count
    cases kind with
    | init => contradiction
    | get =>
      obtain rfl := List.length_eq_zero_iff.mp count
      exact .pure trivial
    | set =>
      obtain ⟨name, rfl⟩ := List.length_eq_one_iff.mp count
      exact .pure trivial
  refine .silent (checked _) fun _ _ => .last (taken _) fun _ sameBody => .spanFrom_bind fun span =>
    .pure ?_
  exact Located.Resembles.function rfl sameNames sameBody

/-- An accessor. -/
theorem Property.reparses_accessor {word token : Token} {key : PropertyKey} {kind : PropertyKind}
    {parameters : List Identifier} {body : Block} (writableWord : word.IsWritable)
    (known : accessorKind? word.lexeme = some kind) (writable : token.IsWritable)
    (hasKey : scope.HasKey token key) (reparses : body.ReparsesAsFunction scope parameters)
    (count : parameters.length = if kind = .get then 0 else 1) (span stop : Span) :
    (Property.mk key (.function none parameters body span) kind stop).Reparses scope := by
  have isWord : ∃ name, kind ≠ .init ∧ kind.words = [.named name] ∧
      word.lexeme = .identifier name := by
    unfold accessorKind? at known
    split at known
    · rename_i found
      cases known
      exact ⟨"get", nofun, rfl, found⟩
    · rename_i found
      cases known
      exact ⟨"set", nofun, rfl, found⟩
    · cases known
  obtain ⟨name, isAccessor, spelled, named⟩ := isWord
  have is := writableWord.is_named named
  have whole : (Property.mk key (.function none parameters body span) kind stop).words =
      .named name :: key.word :: (Word.enclosed (Word.ofNames parameters) ++ body.words) := by
    cases kind with
    | init => contradiction
    | _ => exact congrArg (· ++ _) spelled
  constructor
  · simp [whole, is.isLegible, hasKey.isLegible writable, reparses.legibleNames, reparses.legible]
  · intro others
    rw [whole]
    exact (Word.Show.kind_of_is is).mono fun token kind => by simp [kind, Lexeme.kind]
  · filter_upwards [takes_accessorFunction reparses isAccessor count span]
      with budget taken rest ends
    rw [whole]
    refine .lookahead_bind (.of_is is) fun opening found => ?_
    rw [found.1, ← named, known]
    refine .consume_bind is (.kind_bind_of (startsPropertyKey · = true) (hasKey.shows writable)
      fun kind starts => .ite_pos starts ?_)
    have takesKey : ∀ others, propertyKey.Takes scope [key.word] (Located.Resembles · key) scope
      others := fun _ => .propertyKey writable hasKey
    exact .bind (takesKey _) fun keyToo sameKey => .last (taken _) fun value same =>
      .spanFrom_bind fun span => .pure (sameKey.property same)

/-- A property of an object with the comma behind it. -/
def Property.spelling (property : Property) : List Word :=
  property.words ++ [.symbol Punctuator.comma]

theorem Property.listWords_eq (properties : List Property) :
    listWords properties = properties.flatMap spelling := by
  induction properties with
  | nil => rfl
  | cons first properties ih => simp [listWords, spelling, ih]

/-- An object of properties. -/
theorem Expression.reparses_object {properties : List Property}
    (reparse : ∀ property ∈ properties, property.Reparses scope.withIn) (span : Span) :
    (Expression.object properties span).Reparses scope := by
  refine reparses_of_primary ?_ (fun others => .beginsPrimary (by decide)) ?_
  · simp only [words, Property.listWords_eq, Word.areLegible_cons, Word.areLegible_append,
      Word.areLegible_flatMap, Word.isLegible_symbol_iff, Word.areLegible_nil, and_true, true_and]
    intro property member
    simp [Property.spelling, (reparse property member).legible]
  · filter_upwards [Nonterminals.Eventually.all fun property member =>
        (reparse property member).taken, Nonterminals.eventually_turns properties.length]
      with budget taken turns rest
    refine .lookahead_bind (.lexeme_symbol _) fun token found => ?_
    rw [found]
    refine .nodeStart_bind fun start => .require_bind ?_
    rw [Property.listWords_eq]
    refine .bind (.withIn (.itemsUntil (fun _ => True) trivial (fun _ _ _ => trivial) ?_
      (fun property member others _ => ?_) ?_ turns)) fun _ same => ?_
    · intro property member others
      rw [Property.spelling, List.append_assoc]
      refine ((reparse property member).front _).mono fun token notClosing => ?_
      exact beq_eq_false_iff_ne.mpr notClosing
    · exact .itemWithComma (by decide) (taken property member _ (.ends (by decide)))
    · exact (Word.Show.kind_symbol _).mono fun token kind => by rw [kind]; rfl
    · exact .require_bind (.spanFrom_bind fun span => .pure (Located.Resembles.object same))

end EcmaScript
