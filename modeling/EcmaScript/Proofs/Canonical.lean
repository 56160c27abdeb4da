import EcmaScript.Proofs.CanonicalBodies
import EcmaScript.Proofs.Directives
import EcmaScript.Proofs.ScriptSoundness
import EcmaScript.Proofs.Sufficiency

/-!
# Programs as words

The tree of a program is written out from its nodes alone, and the text is parsed as the same tree.
Each rule of the grammar is taken by one lemma about words, so the tree that a parse answers has
words that are parsed as that tree, and the scopes are those of the first parse.
-/

namespace EcmaScript

open Parse Grammar

namespace Token

/-- All of some tokens can be written again. -/
def AreWritable (tokens : List Token) : Prop :=
  ∀ token ∈ tokens, token.IsWritable

theorem areWritable_cons {token : Token} {tokens : List Token} :
    AreWritable (token :: tokens) ↔ token.IsWritable ∧ AreWritable tokens :=
  List.forall_mem_cons

theorem areWritable_append {front back : List Token} :
    AreWritable (front ++ back) ↔ AreWritable front ∧ AreWritable back :=
  List.forall_mem_append

end Token

/-- What a level says of the words of an expression. -/
def Level.Respells (scope : Scope) (value : Expression) : Level → Prop
  | .accessor => ∀ name parameters body span, value = .function name parameters body span →
      body.ReparsesAsFunction scope parameters
  | _ => value.Reparses scope

/-- The words of a phrase are read as that phrase. -/
def Phrase.Respells (scope : Scope) (next : Token) : Phrase → Prop
  | .fits level value | .makes level value => level.Respells scope value
  | .separated values => values ≠ [] ∧ ∀ value ∈ values, value.Reparses scope
  | .arguments values => ∀ value ∈ values, value.Reparses scope
  | .elements parts => ∀ part ∈ parts, ∀ value ∈ part, value.Reparses scope
  | .property inner => inner.Reparses scope
  | .properties parts => ∀ part ∈ parts, part.Reparses scope
  | .function parameters inner =>
    inner.ReparsesAsFunction scope parameters ∧ inner.ReparsesAsFunction scope.withIn parameters
  | .functionBody inner => Statement.ReparseAsBody scope inner.body
  | .body parts => Statement.ReparseAsBody scope parts
  | .directive text value _ => ∃ content raw span flags,
      value = .literal (.string content) raw span ∧ text = insideQuotes raw ∧
      (Word.literal raw).Is (.string content) flags ∧
      (scope.context.strict = true → flags.hasLegacyEscape = false)
  | .statements parts => ∀ part ∈ parts, part.Reparses scope
  | .item inner => inner.Reparses scope
  | .statement inner => inner.ReparsesBefore next scope
  | .block inner => inner.Reparses scope
  | .declarator inner => inner.Reparses scope
  | .declarators parts => parts ≠ [] ∧ ∀ part ∈ parts, part.Reparses scope
  | .declaration inner => inner.Reparses scope
  | .head inner => inner.Reparses scope
  | .init inner => ∀ part ∈ inner, part.Reparses scope.withoutIn
  | .optional inner => ∀ value ∈ inner, value.Reparses scope
  | .condition value => value.Reparses scope
  | .clause inner => inner.Reparses scope
  | .clauses seenDefault parts => (∀ part ∈ parts, part.Reparses scope) ∧
      SwitchCase.AllowsDefaults seenDefault parts
  | .handler inner => CatchClause.Reparse scope inner
  | .finalizer inner => (∀ part ∈ inner, part.Reparses scope) ∧
      (inner = none → next.kind ≠ .symbol Keyword.finallyWord)

/-- The name of a function expression is bound by a token of its own. -/
theorem Scope.HasFunctionName.exists_binds {scope : Scope} {name : Option Identifier}
    {tokens : List Token} (hasName : scope.HasFunctionName name tokens)
    (writable : Token.AreWritable tokens) :
    ∀ identifier ∈ name, ∃ token : Token, token.IsWritable ∧ scope.Binds token identifier := by
  cases hasName with
  | none => exact nofun
  | @some token name binds =>
    rintro _ ⟨⟩
    exact ⟨token, writable token (.head _), binds⟩

/-- What is read as a phrase has words that are read as that phrase. -/
theorem Reads.respells {scope : Scope} {phrase : Phrase} {tokens : List Token} {next : Token}
    (reads : Reads scope phrase tokens next) (writable : Token.AreWritable tokens) :
    phrase.Respells scope next := by
  induction reads with
  | made _ ih => exact ih writable
  | this => exact Expression.reparses_this _
  | reference refers => exact Expression.reparses_reference (writable _ (.head _)) refers
  | literal isLiteral allowed =>
    exact Expression.reparses_literal (writable _ (.head _)) isLiteral allowed
  | parenthesized _ _ _ ih =>
    simp only [Token.areWritable_cons, Token.areWritable_append] at writable
    exact (ih writable.2.1).of_withIn rfl
  | array _ _ _ ih =>
    simp only [Token.areWritable_cons, Token.areWritable_append] at writable
    refine Expression.reparses_array (fun part member value inside => ?_) _
    exact (ih writable.2.1 part member value inside).of_withIn rfl
  | object _ _ _ ih =>
    simp only [Token.areWritable_cons, Token.areWritable_append] at writable
    exact Expression.reparses_object (ih writable.2.1) _
  | functionExpression _ hasName _ ih =>
    simp only [Token.areWritable_cons, Token.areWritable_append] at writable
    exact Expression.reparses_function (hasName.exists_binds writable.2.1) (ih writable.2.2).2 _
  | newWithout _ _ _ ih =>
    simp only [Token.areWritable_cons] at writable
    exact Expression.Reparses.new (ih writable.2) (by simp) _
  | newWith _ _ _ _ ih ihArguments =>
    simp only [Token.areWritable_cons, Token.areWritable_append] at writable
    exact Expression.Reparses.new (ih writable.2.1) (ihArguments writable.2.2) _
  | head _ _ ih | operand _ ih | single _ _ ih | operators _ ih | alone _ ih => exact ih writable
  | dot _ _ isName ih =>
    simp only [Token.areWritable_cons, Token.areWritable_append] at writable
    exact Expression.Reparses.dot (ih writable.1) writable.2.2.1 isName _
  | index _ _ _ _ ih ihProperty =>
    simp only [Token.areWritable_cons, Token.areWritable_append] at writable
    have property : Expression.Reparses _ _ := ihProperty writable.2.2.1
    exact Expression.Reparses.index (ih writable.1) (property.of_withIn rfl) _
  | call _ _ _ ih ihArguments =>
    rw [Token.areWritable_append] at writable
    exact Expression.Reparses.call (ih writable.1) (ihArguments writable.2) _
  | noArguments => exact nofun
  | arguments _ _ _ ih =>
    simp only [Token.areWritable_cons, Token.areWritable_append] at writable
    exact fun value member => ((ih writable.2.1).2 value member).of_withIn rfl
  | updateBefore isOperator _ allowed ih =>
    exact Expression.Reparses.updateBefore (ih (Token.areWritable_cons.mp writable).2) allowed _
  | updateAfter _ isOperator _ allowed ih =>
    exact Expression.Reparses.updateAfter (ih (Token.areWritable_append.mp writable).1) allowed _
  | unary _ _ allowed ih =>
    exact Expression.Reparses.unaryOperator (ih (Token.areWritable_cons.mp writable).2) allowed _
  | binary _ _ _ _ _ ihLeft ihRight =>
    simp only [Token.areWritable_cons, Token.areWritable_append] at writable
    exact Expression.reparses_binary (ihLeft writable.1) (ihRight writable.2.2) _
  | assignment _ _ allowed _ ihTarget ihValue =>
    simp only [Token.areWritable_cons, Token.areWritable_append] at writable
    exact Expression.reparses_assignment (ihTarget writable.1) allowed (ihValue writable.2.2) _
  | conditional _ _ _ _ _ ihTest ihThen ihElse =>
    simp only [Token.areWritable_cons, Token.areWritable_append] at writable
    have consequent : Expression.Reparses _ _ := ihThen writable.2.2.1
    exact Expression.reparses_conditional (ihTest writable.1) (consequent.of_withIn rfl)
      (ihElse writable.2.2.2.2) _
  | sequence _ _ _ ih ihOthers =>
    simp only [Token.areWritable_cons, Token.areWritable_append] at writable
    obtain ⟨some, others⟩ := ihOthers writable.2.2
    exact Expression.reparses_sequence (ih writable.1) some others _
  | separatedOne _ _ ih =>
    exact ⟨List.cons_ne_nil _ _, List.forall_mem_singleton.mpr (ih writable)⟩
  | separatedMore _ _ _ ih ihOthers =>
    simp only [Token.areWritable_cons, Token.areWritable_append] at writable
    exact ⟨List.cons_ne_nil _ _,
      List.forall_mem_cons.mpr ⟨ih writable.1, (ihOthers writable.2.2).2⟩⟩
  | elementsNone => exact nofun
  | elementsHole _ _ ih =>
    exact List.forall_mem_cons.mpr ⟨nofun, ih (Token.areWritable_cons.mp writable).2⟩
  | elementsLast _ _ ih =>
    exact List.forall_mem_singleton.mpr fun _ inside => Option.mem_some_iff.mp inside ▸ ih writable
  | elementsMore _ _ _ ih ihOthers =>
    simp only [Token.areWritable_cons, Token.areWritable_append] at writable
    exact List.forall_mem_cons.mpr
      ⟨fun _ inside => Option.mem_some_iff.mp inside ▸ ih writable.1, ihOthers writable.2.2⟩
  | value hasKey _ _ ih =>
    simp only [Token.areWritable_cons] at writable
    exact Property.reparses_value writable.1 hasKey (ih writable.2.2) _
  | accessorFunction _ ih =>
    rintro name parameters body span ⟨⟩
    exact (ih writable).1
  | accessor known hasKey _ count ih =>
    simp only [Token.areWritable_cons] at writable
    exact Property.reparses_accessor writable.1 known writable.2.1 hasKey
      (ih writable.2.2 _ _ _ _ rfl) count _ _
  | propertiesNone => exact nofun
  | propertiesLast _ _ ih => exact List.forall_mem_singleton.mpr (ih writable)
  | propertiesMore _ _ _ ih ihOthers =>
    simp only [Token.areWritable_cons, Token.areWritable_append] at writable
    exact List.forall_mem_cons.mpr ⟨ih writable.1, ihOthers writable.2.2⟩
  | function hasParameters _ ih =>
    rw [Token.areWritable_append] at writable
    have binds : ∀ name ∈ _, ∃ token : Token, token.IsWritable ∧ Scope.Binds _ token name :=
      fun name member =>
        have ⟨token, inside, binds⟩ := hasParameters.exists_binds name member
        ⟨token, writable.1 token inside, binds⟩
    exact ⟨.of_body binds (ih writable.2), .of_body binds (ih writable.2)⟩
  | functionBody _ _ _ ih =>
    simp only [Token.areWritable_cons, Token.areWritable_append] at writable
    exact ih writable.2.1
  | directive isString opens reads =>
    obtain ⟨member, isLiteral, rfl, allowed⟩ := reads.literal_of_directive isString opens
    have plain := isString.trans_ne (show Kind.stringLiteral ≠ .regularExpressionLiteral by decide)
    obtain ⟨flags, is, same⟩ := (writable _ member).is_literal plain
    rw [Lexeme.eq_string_of_literal isLiteral] at is
    exact ⟨_, _, _, flags, rfl, rfl, is, fun strict => same.trans (allowed strict)⟩
  | directed _ _ _ ih ihOthers =>
    rw [Token.areWritable_append] at writable
    obtain ⟨content, raw, span, flags, rfl, rfl, is, allowed⟩ := ih writable.1
    obtain ⟨directives, others, last, rfl, direct, reparse⟩ := ihOthers writable.2
    exact ⟨_ :: directives, others, last, rfl, direct.cons is allowed _ _, reparse⟩
  | undirected _ _ _ ih => exact ⟨[], _, _, rfl, .nil, ih writable⟩
  | statementsNone => exact nofun
  | statementsMore _ _ _ ih ihOthers =>
    rw [Token.areWritable_append] at writable
    exact List.forall_mem_cons.mpr ⟨ih writable.1, ihOthers writable.2⟩
  | functionDeclaration _ binds _ ih =>
    simp only [Token.areWritable_cons] at writable
    exact Statement.reparses_function writable.2.1 binds (ih writable.2.2).1 _
  | item _ _ _ ih => exact Statement.ReparsesBefore.reparses (ih writable)
  | empty => exact Statement.reparses_empty _
  | blockStatement _ ih => exact Statement.reparses_block (ih writable)
  | block _ _ _ ih =>
    simp only [Token.areWritable_cons, Token.areWritable_append] at writable
    exact Block.reparses (ih writable.2.1) _
  | expressionStatement _ _ _ _ ih =>
    exact Statement.reparses_expression (ih (Token.areWritable_append.mp writable).1) _
  | variableStatement _ _ ih =>
    have reparses : VariableDeclaration.Reparses _ _ := ih (Token.areWritable_append.mp writable).1
    exact Statement.reparses_variables ⟨reparses.some, reparses.declarators⟩
  | declaration _ _ ih =>
    obtain ⟨some, reparse⟩ := ih (Token.areWritable_cons.mp writable).2
    exact ⟨some, reparse⟩
  | declaratorsOne _ _ ih =>
    exact ⟨List.cons_ne_nil _ _, List.forall_mem_singleton.mpr (ih writable)⟩
  | declaratorsMore _ _ _ ih ihOthers =>
    simp only [Token.areWritable_cons, Token.areWritable_append] at writable
    exact ⟨List.cons_ne_nil _ _,
      List.forall_mem_cons.mpr ⟨ih writable.1, (ihOthers writable.2.2).2⟩⟩
  | declared binds _ => exact ⟨⟨_, writable _ (.head _), binds⟩, nofun⟩
  | initialized binds _ _ ih =>
    simp only [Token.areWritable_cons] at writable
    refine ⟨⟨_, writable.1, binds⟩, ?_⟩
    rintro _ ⟨⟩
    exact ih writable.2.2
  | condition _ _ _ ih =>
    simp only [Token.areWritable_cons, Token.areWritable_append] at writable
    exact ih writable.2.1
  | ifWithout _ _ _ _ notElse ihTest ihThen =>
    simp only [Token.areWritable_cons, Token.areWritable_append] at writable
    exact Statement.reparses_if (ihTest writable.2.1) (ihThen writable.2.2) notElse _
  | ifWith _ _ _ _ isElse _ ihTest ihThen ihElse =>
    simp only [Token.areWritable_cons, Token.areWritable_append] at writable
    exact Statement.reparses_ifElse (ihTest writable.2.1) (ihThen writable.2.2.1) isElse
      (ihElse writable.2.2.2.2) _
  | whileLoop _ _ _ _ ihTest ih =>
    simp only [Token.areWritable_cons, Token.areWritable_append] at writable
    exact Statement.reparses_while (ihTest writable.2.1) (ih writable.2.2) _
  | doWhileLoop _ _ _ _ _ ih ihTest =>
    simp only [Token.areWritable_cons, Token.areWritable_append] at writable
    exact Statement.reparses_doWhile (ihTest writable.2.2.2.1) (ih writable.2.1) _
  | headDeclaration _ ih | headExpression _ ih => exact ih writable
  | initNone => exact nofun
  | initSome _ ih =>
    rintro _ ⟨⟩
    exact ih writable
  | optionalNone => exact nofun
  | optionalSome _ ih =>
    rintro _ ⟨⟩
    exact ih writable
  | forLoop _ _ _ _ _ _ _ _ _ ihInit ihTest ihUpdate ih =>
    simp only [Token.areWritable_cons, Token.areWritable_append] at writable
    exact Statement.reparses_for (ihInit writable.2.2.1) (ihTest writable.2.2.2.2.1)
      (ihUpdate writable.2.2.2.2.2.2.1) (ih writable.2.2.2.2.2.2.2.2) _
  | forInLoop _ _ _ _ allowed _ _ _ ihHead ihRight ih =>
    simp only [Token.areWritable_cons, Token.areWritable_append] at writable
    exact Statement.reparses_forIn (ihHead writable.2.2.1) allowed (ihRight writable.2.2.2.2.1)
      (ih writable.2.2.2.2.2.2) _
  | continueTo _ allowed hasLabel _ =>
    simp only [Token.areWritable_cons, Token.areWritable_append] at writable
    exact Statement.reparses_continue hasLabel writable.2.1 allowed _
  | breakTo _ allowed hasLabel _ =>
    simp only [Token.areWritable_cons, Token.areWritable_append] at writable
    exact Statement.reparses_break hasLabel writable.2.1 allowed _
  | returnNothing _ allowed _ _ => exact Statement.reparses_return (by simp) allowed _
  | returnValue _ allowed _ _ _ _ ih =>
    simp only [Token.areWritable_cons, Token.areWritable_append] at writable
    refine Statement.reparses_return ?_ allowed _
    rintro _ ⟨⟩
    exact ih writable.2.1
  | withObject _ sloppy _ _ _ ihObject ih =>
    simp only [Token.areWritable_cons, Token.areWritable_append] at writable
    exact Statement.reparses_with (ihObject writable.2.1) (ih writable.2.2) sloppy _
  | switch _ _ _ _ _ ih ihClauses =>
    simp only [Token.areWritable_cons, Token.areWritable_append] at writable
    obtain ⟨reparse, defaults⟩ := ihClauses writable.2.2.2.1
    exact Statement.reparses_switch (ih writable.2.1) reparse defaults _
  | clausesNone => exact ⟨nofun, trivial⟩
  | clausesMore _ only _ _ ih ihOthers =>
    rw [Token.areWritable_append] at writable
    obtain ⟨reparse, defaults⟩ := ihOthers writable.2
    exact ⟨List.forall_mem_cons.mpr ⟨ih writable.1, reparse⟩, only, defaults⟩
  | caseClause _ _ _ _ ihTest ih =>
    simp only [Token.areWritable_cons, Token.areWritable_append] at writable
    refine ⟨?_, ih writable.2.2.2⟩
    rintro _ ⟨⟩
    exact ihTest writable.2.1
  | defaultClause _ _ _ ih =>
    simp only [Token.areWritable_cons] at writable
    exact ⟨nofun, ih writable.2.2⟩
  | throwValue _ _ _ _ _ ih =>
    simp only [Token.areWritable_cons, Token.areWritable_append] at writable
    exact Statement.reparses_throw (ih writable.2.1) _
  | tryBlock _ _ _ _ _ _ some ih ihHandler ihFinalizer =>
    simp only [Token.areWritable_cons, Token.areWritable_append] at writable
    obtain ⟨reparse, alone⟩ := ihFinalizer writable.2.2.2
    exact Statement.reparses_try (ih writable.2.1) (ihHandler writable.2.2.1) reparse some alone _
  | handlerNone => exact trivial
  | handlerSome _ _ binds _ _ ih =>
    simp only [Token.areWritable_cons] at writable
    exact ⟨⟨_, writable.2.2.1, binds⟩, ih writable.2.2.2.2⟩
  | finalizerNone notFinally => exact ⟨nofun, fun _ => notFinally⟩
  | finalizerSome _ _ ih =>
    refine ⟨?_, nofun⟩
    rintro _ ⟨⟩
    exact ih (Token.areWritable_cons.mp writable).2
  | debugger => exact Statement.reparses_debugger _
  | labelled refers _ fresh _ ih =>
    simp only [Token.areWritable_cons] at writable
    exact Statement.reparses_labelled writable.1 refers fresh (ih writable.2.2) _

/-! ### Texts of words -/

/-- No token begins with a hash. -/
theorem Lexeme.read_hash (rest : List Char) :
    read ('#' :: rest) = .failure 1 .unexpectedCharacter 0 := by
  have notNumber : NumericLiteral.starts ('#' :: rest) = false := rfl
  have notName : ¬('#' = '\\' ∨ isIdentifierStart '#') := by decide +kernel
  have notMark : Symbol.leadingMark? ('#' :: rest) = none := rfl
  rw [read, if_neg (by decide), notNumber, if_neg Bool.false_ne_true, if_neg notName, notMark]

namespace Word

theorem toList_join_cons (word : Word) (words : List Word) :
    (join (word :: words)).toList = word.text.toList ++ spaced words := by
  rw [join, String.toList_intercalate]
  induction words generalizing word with
  | nil => simp [spaced]
  | cons second words ih =>
    have others := ih second
    simp only [List.map_cons] at others ⊢
    rw [List.intercalate_cons_cons, others]
    simp [spaced]

/-- A text of words has no hashbang, since no word begins with a hash. -/
theorem plain_join {words : List Word} (legible : AreLegible words) :
    ¬['#', '!'] <+: (join words).toList := by
  cases words with
  | nil => decide
  | cons word words =>
    obtain ⟨length, lexeme, flags, opens⟩ := legible word (.head _)
    rintro ⟨rest, hashbang⟩
    have read := opens.read _ (separated_spaced words)
    rw [← toList_join_cons, ← hashbang] at read
    exact absurd ((Lexeme.read_hash _).symm.trans read) nofun

/-- The first word of a text is scanned at its start. -/
theorem begins_join {words : List Word} (legible : AreLegible words) :
    ∃ token after, Scan.token (.atStart (join words)) = .ok token after ∧
      token.Begins words after.rest := by
  cases words with
  | nil => exact Scan.token_of_spaced rfl nofun
  | cons word words =>
    have first := legible word (.head _)
    have whole : (Cursor.atStart (join (word :: words))).rest = word.text.toList ++ spaced words :=
      toList_join_cons word words
    obtain ⟨length, lexeme, flags, opens⟩ := legible word (.head _)
    refine Scan.token_of_gap 0 first whole ?_
    rw [whole]
    exact opens.trivia _ (separated_spaced words)

end Word

/-! ### Programs -/

/-- The statements of a script are parsed from their words, with any budget that is large enough. -/
theorem Statement.ReparseAsBody.topLevel {scope : Scope} {statements : List Statement}
    (reparse : ReparseAsBody scope statements) :
    ∃ last, Nonterminals.Eventually fun self =>
      (topLevel self self.turns).Takes scope (listWords statements)
        (Located.Resembles · statements) last [] := by
  obtain ⟨-, last, -, taken⟩ := reparse.taken
  refine ⟨last, taken.mono fun budget taken => ?_⟩
  have whole : (Grammar.topLevel (.ofBudget budget) _).Takes scope (listWords statements ++ [])
      (Located.Resembles · statements) last [] :=
    taken pure (· == .endOfFile) ?_ ?_ fun result same => .pure same
  · rwa [List.append_nil] at whole
  · intro kind ends
    rw [beq_iff_eq.mp ends]
    decide
  · rintro token text ⟨⟩
    simp_all [Token.kind, Lexeme.kind]

/-- A program is written from its nodes alone, and the text is parsed as the same program. -/
theorem parse_canonical {source : String} {options : Options} {program : Program}
    (accepted : parse source options = .ok program) :
    ∃ other, parse program.canonical options = .ok other ∧ other.unplaced = program.unplaced := by
  obtain ⟨after, run⟩ := exists_of_parse accepted
  obtain ⟨first, begins, isScript⟩ := State.isScript_of_parse run
  have firstScanned : ∃ cursor, Scan.token cursor = .ok first.lookahead first.cursor :=
    begins.scanned.elim (⟨_, ·⟩) (⟨_, ·⟩)
  have reparse : Statement.ReparseAsBody (.ofOptions options) program.body :=
    (State.reads_of_parse run).respells (isScript.passes.isWritable firstScanned)
  have legible : Word.AreLegible program.words := reparse.taken.1
  obtain ⟨last, taken⟩ := reparse.topLevel
  obtain ⟨budget, taken, enough⟩ :=
    (taken.and (Filter.eventually_ge_atTop (program.canonical.length + 2))).exists
  obtain ⟨token, cursor, opening, beginsToken⟩ := Word.begins_join legible
  have plain : ¬['#', '!'] <+: program.canonical.toList := Word.plain_join legible
  rw [Nonterminals.turns_ofBudget] at taken
  obtain ⟨body, stopped, runBody, same, -⟩ :=
    taken ((State.ofSource program.canonical options).begun token cursor)
      ⟨rfl, (List.append_nil _).symm ▸ legible, _, rfl, (List.append_nil _).symm ▸ beginsToken⟩
  refine ⟨⟨body, .first, stopped.lookahead.span.stop⟩, ?_, ?_⟩
  · have scanned : Scan.token (State.ofSource program.canonical options).opening =
        .ok token cursor := by
      rw [State.opening_of_plain plain]
      exact opening
    rw [parse_eq_of_budget enough, scanned]
    dsimp only
    rw [runBody]
  · exact Program.unplaced_eq same _ _

/-- A directive stays one and a string that is no directive stays none, and the operator in the head
of a loop is written in parentheses again. -/
theorem parse_canonical_of_loop :
    ∃ program other,
      parse "\"a\"; for (b = (c in d) / /e/;;) [, f]; (\"g\")" {} = .ok program ∧
      program.canonical = "\"a\" ; for ( ( ( b ) = ( ( ( c ) in ( d ) ) / ( /e/ ) ) ) ; ; ) " ++
        "( [ , ( f ) , ] ) ; ( \"g\" ) ;" ∧
      parse program.canonical {} = .ok other ∧ other.unplaced = program.unplaced := by
  obtain ⟨program, accepted⟩ := exists_of_toBool (by decide +kernel :
    (parse "\"a\"; for (b = (c in d) / /e/;;) [, f]; (\"g\")" {}).toBool = true)
  have written : (parse "\"a\"; for (b = (c in d) / /e/;;) [, f]; (\"g\")" {}).map
      Program.canonical = .ok
        ("\"a\" ; for ( ( ( b ) = ( ( ( c ) in ( d ) ) / ( /e/ ) ) ) ; ; ) " ++
          "( [ , ( f ) , ] ) ; ( \"g\" ) ;") := by
    decide +kernel
  rw [accepted] at written
  obtain ⟨other, acceptedToo, same⟩ := parse_canonical accepted
  exact ⟨program, other, accepted, Except.ok.inj written, acceptedToo, same⟩

end EcmaScript
