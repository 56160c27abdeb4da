import EcmaScript.Proofs.CanonicalStatements

/-!
# Directives and functions as words

A directive is written as its string alone, and read as a directive again. The statements after
those that make code strict are parsed as strict code.
-/

namespace EcmaScript

open Parse Grammar

variable {scope : Scope} {rest : List Word}

/-- The declaration of a function. -/
theorem Statement.reparses_function {token : Token} {name : Identifier}
    {parameters : List Identifier} {body : Block} (writable : token.IsWritable)
    (binds : scope.Binds token name) (reparses : body.ReparsesAsFunction scope parameters)
    (span : Span) : (Statement.function name parameters body span).Reparses scope := by
  have is := writable.is_named binds.1.1
  refine ⟨by simp [words, is.isLegible, reparses.legibleNames, reparses.legible],
    fun others => ?_, ?_⟩
  · exact (Word.Show.kind_symbol Keyword.functionWord).mono fun token kind => by rw [kind]; decide
  · filter_upwards [reparses.takenNames, reparses.taken] with budget takenNames taken rest _
    have spelled : (Statement.function name parameters body span).words =
        .symbol Keyword.functionWord :: ([.named name.name] ++
          (Word.enclosed (Word.ofNames parameters) ++ body.words)) := rfl
    rw [spelled]
    refine .sees_bind (.kind_symbol _) (.ite_pos (by decide) (.nodeStart_bind fun start => ?_))
    refine .require_bind (.bind (.bindingIdentifier writable binds) fun _ sameName => ?_)
    refine .bind (takenNames _) fun _ sameNames => .last (taken _) fun _ same =>
      .spanFrom_bind fun span => .pure ?_
    simp_all [Located.Resembles, Located.relocate, relocate, Span.relocate]

/-! ### Directives -/

/-- A string and a semicolon are a statement whose literal stands where the string does. -/
theorem Grammar.statement_of_directive {self : Nonterminals} {state : State} {raw value : String}
    {flags : Flags} (turns : 0 < self.turns) (is : (Word.literal raw).Is (.string value) flags)
    (allowed : scope.context.strict = true → flags.hasLegacyEscape = false)
    (stands : state.Stands scope (.literal raw :: .symbol Punctuator.semicolon :: rest)) :
    ∃ span after, statement self state =
      .ok (.expression (.literal (.string value) raw state.lookahead.span) none span) after ∧
        after.Stands scope rest := by
  obtain ⟨text, -, begins⟩ := stands.begins
  have found := (begins.of_is is).1
  obtain ⟨between, run, standsBetween⟩ := Takes.literal_of_is is rfl allowed stands self
  have run : Grammar.expression self state =
      .ok (.literal (.string value) raw state.lookahead.span) between := by
    obtain ⟨text, -, ends⟩ := standsBetween.begins
    have closes : between.lookahead.kind = .symbol Punctuator.semicolon :=
      congrArg Lexeme.kind ends.of_symbol
    refine expression_of_primary turns
      (Word.Show.beginsPrimary_of_is is ⟨by simp [Lexeme.kind], rfl, rfl⟩ _ _ begins) run ?_
    exact ⟨by rw [ends.of_symbol]; rfl, by rw [endsOperand, closes]; rfl, by rw [closes]; rfl,
      by rw [closes]; rfl, by rw [closes]; decide, by rw [closes]; decide⟩
  have ended : ∀ start, (do
      semicolon
      return .expression (.literal (.string value) raw state.lookahead.span) none
        (← spanFrom start) : Parse Statement).Takes scope [.symbol Punctuator.semicolon]
          (fun statement => ∃ span, statement =
            .expression (.literal (.string value) raw state.lookahead.span) none span) scope rest :=
    fun start => .semicolon_bind (.spanFrom_bind fun span => .pure ⟨span, rfl⟩)
  obtain ⟨_, after, runEnd, ⟨span, rfl⟩, standsAfter⟩ :=
    ended state.lookahead.span.start between standsBetween
  refine ⟨span, after, ?_, standsAfter⟩
  rw [statement, Parse.lookahead_bind, found]
  change expressionStatement self state = _
  rw [expressionStatement, Parse.lookahead_bind]
  exact bind_eq_ok.mpr ⟨_, between, run, runEnd⟩

/-- The code after the directive `use strict` is strict. -/
theorem Parse.Takes.enableStrict :
    enableStrict.Takes scope [] (fun _ => True) (scope.afterDirective "use strict") rest := by
  refine .isStrict_bind ?_
  rw [Scope.afterDirective, if_pos rfl]
  cases strict : scope.context.strict with
  | true =>
    have same : { scope with context := { scope.context with strict := true } } = scope := by
      rw [← strict]
    rw [same]
    exact .ite_pos rfl (.pure trivial)
  | false =>
    refine .ite_neg Bool.false_ne_true fun state stands => ⟨(), _, rfl, trivial, ?_⟩
    obtain ⟨rfl⟩ := stands.scope
    exact ⟨rfl, stands.legible, stands.begins⟩

theorem Parse.Takes.afterDirective {β : Type} {exit : Scope} {words : List Word}
    {answer : β → Prop} {text : String} (next : Unit → Parse β)
    (takes : (next ()).Takes (scope.afterDirective text) words answer exit rest) :
    (if (text == "use strict") = true then Parse.enableStrict >>= next else next ()).Takes scope
      words answer exit rest := by
  by_cases isStrict : text = "use strict"
  · subst isStrict
    exact .ite_pos rfl (.silent .enableStrict fun _ _ => takes)
  · rw [Scope.afterDirective, if_neg isStrict] at takes
    exact .ite_neg (by simpa using isStrict) takes

theorem Statement.Direct.nil : Direct scope scope [] := by
  refine ⟨rfl, by simp [listWords],
    Filter.Eventually.of_forall fun budget turns rest enough plain => ?_⟩
  obtain ⟨turns, rfl⟩ := Nat.exists_eq_add_one.mpr enough
  rw [directives]
  refine .lookahead_bind plain fun token plain => .ite_pos ?_ (.pure rfl)
  exact bne_iff_ne.mpr plain

/-- One more directive in front of others. -/
theorem Statement.Direct.cons {last : Scope} {raw value : String} {flags : Flags}
    {statements : List Statement} (is : (Word.literal raw).Is (.string value) flags)
    (allowed : scope.context.strict = true → flags.hasLegacyEscape = false)
    (direct : Direct (scope.afterDirective (insideQuotes raw)) last statements)
    (literalSpan span : Span) :
    Direct scope last (.expression (.literal (.string value) raw literalSpan)
      (some (insideQuotes raw)) span :: statements) := by
  refine ⟨direct.options.trans (Scope.options_afterDirective ..), ?_, ?_⟩
  · simp [listWords, words, is.isLegible, direct.legible]
  · have first : Nonterminals.Eventually fun self => ∀ {state : State} {words : List Word},
        state.Stands scope (.literal raw :: .symbol Punctuator.semicolon :: words) →
          ∃ span after, self.statement state =
            .ok (.expression (.literal (.string value) raw state.lookahead.span) none span) after ∧
              after.Stands scope words :=
      (Nonterminals.eventually_turns 0).succ fun budget some _ _ stands =>
        statement_of_directive some is allowed stands
    filter_upwards [direct.taken, first] with budget taken first turns rest enough plain
    obtain ⟨turns, rfl⟩ := Nat.exists_eq_add_one.mpr (Nat.zero_lt_of_lt enough)
    rw [directives]
    refine fun state stands => ?_
    obtain ⟨text, -, begins⟩ := stands.begins
    obtain ⟨found, -, textToo, -⟩ := begins.of_is is
    obtain ⟨spanToo, between, run, standsBetween⟩ := first stands
    have others : (directives (.ofBudget budget : Nonterminals).statement turns >>= fun others =>
        pure (.expression (.literal (.string value) raw state.lookahead.span)
          (some (insideQuotes raw)) spanToo :: others)).Takes
            (scope.afterDirective (insideQuotes raw)) (listWords statements)
            (Located.Resembles · (.expression (.literal (.string value) raw literalSpan)
              (some (insideQuotes raw)) span :: statements)) last rest :=
      .last (taken turns rest (Nat.lt_of_succ_lt_succ enough) plain) fun _ same =>
        .pure (Located.Resembles.cons rfl same)
    obtain ⟨result, after, runOthers, same, standsAfter⟩ :=
      Takes.afterDirective (fun _ => _) others between standsBetween
    refine ⟨result, after, ?_, same, standsAfter⟩
    rw [Parse.lookahead_bind, if_neg (by simp [Token.kind, found, Lexeme.kind])]
    refine bind_eq_ok.mpr ⟨_, between, run, ?_⟩
    have isDirective : Grammar.directive? state.lookahead
        (.expression (.literal (.string value) raw state.lookahead.span) none spanToo) =
          some (.literal (.string value) raw state.lookahead.span, spanToo) := if_pos rfl
    rw [isDirective]
    have text : state.lookahead.text = raw := textToo
    rw [text]
    exact runOthers

end EcmaScript
