import EcmaScript.Proofs.Completion
import EcmaScript.Proofs.FirstLine
import EcmaScript.Proofs.Neighbours
import EcmaScript.Proofs.ScriptBudget

/-!
# The option of strict code is a directive

A text that is read as strict code from the start is read like the text with a directive in front.
The parse of the longer text reads the directive, whose semicolon is the last of its tokens, and
switches to strict code when the first token of the shorter text is already scanned; from there on
the two parses stand at the same place and follow each other to the end.
-/

namespace EcmaScript

/-- A string without escapes and line breaks is its characters. -/
theorem StringLiteral.readFrom_plain {quote : Char} {index : Nat} {value rest : List Char}
    {flags : Flags} (inside : List Char)
    (plain : ∀ char ∈ inside, char ≠ quote ∧ char ≠ '\\' ∧ char ≠ '\n' ∧ char ≠ '\r')
    (notEscape : quote ≠ '\\') :
    readFrom quote index value flags (inside ++ quote :: rest) =
      .success (index + inside.length + 1) (String.ofList (value.reverse ++ inside), flags) := by
  induction inside generalizing index value with
  | nil =>
    rw [List.nil_append, readFrom]
    · simp
    · simp [notEscape]
    · simp [notEscape]
  | cons char inside ih =>
    obtain ⟨⟨notQuote, notSlash, notFeed, notReturn⟩, others⟩ := List.forall_mem_cons.mp plain
    rw [List.cons_append, readFrom]
    · rw [if_neg notQuote, if_neg (by simp [notFeed, notReturn]), ih others]
      simp [Nat.add_comm, Nat.add_left_comm]
    · simp [notSlash]
    · simp [notSlash]

namespace Grammar

open Parse

variable {self : Nonterminals} {state next : State} {value text : String}

/-- A string literal without escapes is an expression in front of a semicolon. -/
theorem expression_of_string (turns : 0 < self.turns)
    (string : state.lookahead.lexeme = .string value)
    (plain : state.lookahead.flags.hasLegacyEscape = false) (run : consume state = .ok () next)
    (ends : next.lookahead.kind = .symbol Punctuator.semicolon) :
    expression self state =
      .ok (.literal (.string value) state.lookahead.text state.lookahead.span) next := by
  have kind : state.lookahead.kind = .stringLiteral := by rw [Token.kind, string]; rfl
  have token : literalToken state = .ok (state.lookahead.text, state.lookahead.span) next := by
    rw [literalToken, lookahead_bind]
    refine bind_eq_ok.mpr ⟨(), next, run, ?_⟩
    change (if (_ && state.lookahead.flags.hasLegacyEscape) = true then _ else _ :
      Parse (String × Span)) next = _
    rw [plain, Bool.and_false]
    rfl
  have head : primary self state =
      .ok (.literal (.string value) state.lookahead.text state.lookahead.span) next := by
    rw [primary, lookahead_bind, string]
    exact bind_eq_ok.mpr ⟨_, next, token, rfl⟩
  have lexeme : next.lookahead.lexeme = .symbol (.punctuator .semicolon) := by
    cases found : next.lookahead.lexeme <;> simp_all [Token.kind, Lexeme.kind]
  refine expression_of_primary turns ?_ head ?_
  · constructor <;> rw [kind] <;> first | rfl | rintro ⟨⟩
  · constructor
    · rw [lexeme]; rfl
    · rw [endsOperand, ends]; rfl
    · rw [ends]; rfl
    · rw [ends]; rfl
    · rw [ends]; decide
    · rw [ends]; decide

/-- A string literal with a semicolon after it is a statement, and the semicolon is consumed. -/
theorem statement_of_string (turns : 0 < self.turns)
    (string : state.lookahead.lexeme = .string value)
    (plain : state.lookahead.flags.hasLegacyEscape = false) (run : consume state = .ok () next)
    (ends : next.lookahead.kind = .symbol Punctuator.semicolon) :
    statement self state =
      (do
        consume
        let span ← spanFrom state.lookahead.span.start
        return Statement.expression
          (.literal (.string value) state.lookahead.text state.lookahead.span) none span) next := by
  have inner := expression_of_string turns string plain run ends
  rw [statement, lookahead_bind, string]
  dsimp only
  rw [expressionStatement, lookahead_bind]
  change EStateM.bind _ _ state = _
  rw [EStateM.bind, inner]
  dsimp only
  rw [kind_bind]
  change EStateM.bind _ _ next = EStateM.bind _ _ next
  rw [EStateM.bind, EStateM.bind, semicolon_eq, if_pos ends]

/-- A directive in front of the statements of a script makes them strict code. -/
theorem topLevel_of_directive {turns : Nat} {raw : String} {span : Span}
    (inside : insideQuotes raw = "use strict") (text : state.lookahead.text = raw)
    (string : state.lookahead.kind = .stringLiteral)
    (run : self.statement state =
      .ok (.expression (.literal (.string value) raw state.lookahead.span) none span) next) :
    topLevel self (turns + 1) state =
      (enableStrict >>= fun _ => topLevel self turns >>= fun body =>
        pure (.expression (.literal (.string value) raw state.lookahead.span)
          (some "use strict") span :: body)) next := by
  have opening : ∀ {rest : List Statement → Parse (List Statement)},
      (directives self.statement (turns + 1) >>= rest) state =
        (enableStrict >>= fun _ => directives self.statement turns >>= fun others =>
          rest (.expression (.literal (.string value) raw state.lookahead.span)
            (some "use strict") span :: others)) next := by
    intro rest
    rw [directives, bind_assoc, lookahead_bind]
    dsimp only
    rw [if_neg (by simp [string]), bind_assoc]
    change EStateM.bind _ _ state = _
    rw [EStateM.bind, run]
    dsimp only
    rw [directive?, if_pos rfl, text, inside]
    dsimp only
    rw [if_pos (beq_self_eq_true _)]
    simp only [bind_assoc, pure_bind]
  rw [topLevel, opening]
  simp only [topLevel, bind_assoc, pure_bind, List.cons_append]

theorem topLevel_of_fault {turns : Nat} {fault : Fault}
    (string : state.lookahead.kind = .stringLiteral)
    (run : self.statement state = .error fault next) :
    topLevel self (turns + 1) state = .error fault next := by
  refine bind_eq_error.mpr (.inl ?_)
  rw [directives, lookahead_bind]
  dsimp only
  rw [if_neg (by simp [string])]
  exact bind_eq_error.mpr (.inl run)

end Grammar

/-- The directive that makes code strict. -/
def useStrict : String := "'use strict';"

/-- The statement that the directive is at the beginning of a text. -/
def useStrictStatement : Statement :=
  .expression (.literal (.string "use strict") "'use strict'" ⟨⟨1, 0⟩, ⟨1, 12⟩⟩)
    (some "use strict") ⟨⟨1, 0⟩, ⟨1, 13⟩⟩

/-- The string token of the directive. -/
def useStrictToken : Token where
  lexeme := .string "use strict"
  flags := {}
  span := ⟨⟨1, 0⟩, ⟨1, 12⟩⟩
  start := 0
  stop := 12
  text := "'use strict'"

/-- The semicolon of the directive. -/
def useStrictSemicolon : Token where
  lexeme := .symbol (.punctuator .semicolon)
  flags := {}
  span := ⟨⟨1, 12⟩, ⟨1, 13⟩⟩
  start := 12
  stop := 13
  text := ";"

namespace Scan

theorem token_of_useStrict (rest : List Char) :
    token ⟨useStrict.toList ++ rest, 0, .first⟩ =
      .ok useStrictToken ⟨';' :: rest, 12, ⟨1, 12⟩⟩ := by
  have between : Trivia.read (useStrict.toList ++ rest) = .success 0 false := by
    simp [useStrict, Trivia.read, Trivia.readFrom, isLineTerminator, isWhiteSpace]
  have inside : Lexeme.read (useStrict.toList ++ rest) =
      .success 12 (.string "use strict", {}) := by
    have string : StringLiteral.read '\'' ("use strict".toList ++ '\'' :: (';' :: rest)) =
        .success 12 ("use strict", {}) :=
      StringLiteral.readFrom_plain "use strict".toList (by simp) (by decide)
    have whole : useStrict.toList ++ rest =
        '\'' :: ("use strict".toList ++ '\'' :: (';' :: rest)) := by
      have own : useStrict.toList = '\'' :: ("use strict".toList ++ ['\'', ';']) := by
        decide +kernel
      rw [own, List.cons_append, List.append_assoc]
      rfl
    rw [whole, Lexeme.read, if_pos (.inr rfl), string]
    rfl
  simp only [token, bind, EStateM.bind, trivia, between, lexeme, Cursor.pass_zero, inside]
  rfl

theorem token_of_semicolon (rest : List Char) :
    token ⟨';' :: rest, 12, ⟨1, 12⟩⟩ = .ok useStrictSemicolon ⟨rest, 13, ⟨1, 13⟩⟩ := by
  have between : Trivia.read (';' :: rest) = .success 0 false := by
    simp [Trivia.read, Trivia.readFrom, isLineTerminator, isWhiteSpace]
  simp only [token, bind, EStateM.bind, trivia, between, lexeme, Cursor.pass_zero,
    Lexeme.read_alone Symbol.semicolon_standsAlone]
  rfl

end Scan

open Parse Grammar EcmaScript.Alignment

/-- Statements that are brought together with moved ones are moved. -/
theorem eq_of_same {count : Nat} {firstReturns secondReturns : Bool} {body moved : List Statement}
    (same : (Alignment.inFront count firstReturns secondReturns).Same body moved) :
    moved = body.map (Statement.relocate (·.inFront count)) := by
  have same : body.map (Statement.relocate (·.inFront count)) = moved.map (Statement.relocate id) :=
    same
  rw [same]
  exact (List.map_id'' Statement.relocate_id moved).symm

/-- The state when the string of the directive has been consumed. -/
def afterUseStrict (source : String) : State where
  cursor := ⟨source.toList, 13, ⟨1, 13⟩⟩
  lookahead := useStrictSemicolon
  consumedEnd := ⟨1, 12⟩
  events :=
    [.scanned useStrictSemicolon, .scanned useStrictToken, .began (useStrict ++ source).length]

/-- The state when the directive has been read, and the token behind it. -/
def behindUseStrict (source : String) (token : Token) (cursor : Cursor) : State :=
  { afterUseStrict source with
    cursor, lookahead := token, consumedEnd := ⟨1, 13⟩
    events := .scanned token :: (afterUseStrict source).events }

/-- The directive is the first statement, unless the token after it is faulty. -/
theorem statement_useStrict (self : Nonterminals) (turns : 0 < self.turns) (source : String) :
    Grammar.statement self ((State.ofSource (useStrict ++ source) {}).begun useStrictToken
        ⟨';' :: source.toList, 12, ⟨1, 12⟩⟩) =
      (consume >>= fun _ => spanFrom ⟨1, 0⟩ >>= fun span => pure (Statement.expression
        (.literal (.string "use strict") "'use strict'" ⟨⟨1, 0⟩, ⟨1, 12⟩⟩) none span))
      (afterUseStrict source) := by
  refine statement_of_string turns rfl rfl ?_ rfl
  have length : (State.ofSource (useStrict ++ source) {}).cursor.sourceLength =
      (useStrict ++ source).length := by
    rw [← String.length_toList]
    exact Nat.zero_add _
  refine consume_eq_ok.mpr ⟨_, _, Scan.token_of_semicolon source.toList, ?_⟩
  rw [State.begun, length]
  rfl

/-- A fault of the token behind the directive is that of the script. -/
theorem topLevel_useStrict_fault (source : String) {fault : Fault} {cursor : Cursor}
    (scanned : Scan.token ⟨source.toList, 13, ⟨1, 13⟩⟩ = .error fault cursor) :
    ∃ after, topLevel (.ofBudget (source.length + 15)) (source.length + 15)
      ((State.ofSource (useStrict ++ source) {}).begun useStrictToken
        ⟨';' :: source.toList, 12, ⟨1, 12⟩⟩) = .error fault after := by
  have directive := statement_useStrict (Nonterminals.ofBudget (source.length + 14))
    (Nat.succ_pos _) source
  have run : consume (afterUseStrict source) = .error fault _ :=
    consume_eq_error.mpr ⟨cursor, scanned, rfl⟩
  exact ⟨_, topLevel_of_fault rfl (directive.trans (bind_eq_error.mpr (.inl run)))⟩

/-- Behind the directive the statements of a script are strict code. -/
theorem topLevel_useStrict (source : String) {token : Token} {cursor : Cursor}
    (scanned : Scan.token ⟨source.toList, 13, ⟨1, 13⟩⟩ = .ok token cursor) :
    ∃ events, topLevel (.ofBudget (source.length + 15)) (source.length + 15)
        ((State.ofSource (useStrict ++ source) {}).begun useStrictToken
          ⟨';' :: source.toList, 12, ⟨1, 12⟩⟩) =
      (topLevel (.ofBudget (source.length + 15)) (source.length + 14) >>= fun body =>
        pure (useStrictStatement :: body))
        { cursor, lookahead := token, consumedEnd := ⟨1, 13⟩, context := { strict := true },
          events } := by
  have directive := statement_useStrict (Nonterminals.ofBudget (source.length + 14))
    (Nat.succ_pos _) source
  have consumed : consume (afterUseStrict source) = .ok () (behindUseStrict source token cursor) :=
    consume_eq_ok.mpr ⟨token, cursor, scanned, rfl⟩
  obtain ⟨events, -, strict⟩ := enableStrict_ok (behindUseStrict source token cursor)
  refine ⟨events, ?_⟩
  have inside : insideQuotes "'use strict'" = "use strict" := by decide +kernel
  have statement : (Nonterminals.ofBudget (source.length + 15)).statement _ = _ :=
    directive.trans (bind_eq_ok.mpr ⟨(), _, consumed, rfl⟩)
  refine (topLevel_of_directive inside rfl rfl statement).trans ?_
  change EStateM.bind _ _ _ = _
  rw [EStateM.bind, strict]
  rfl

/-- A text is read as strict code just as the text with a directive in front: the statements of the
second program are the directive and those of the first program, moved along the first line, and the
fault of the second text is that of the first, moved along too. -/
theorem parse_strict (source : String) (plain : ¬['#', '!'] <+: source.toList) :
    parse (useStrict ++ source) {} =
      match parse source { strict := true } with
      | .ok program =>
        .ok ⟨useStrictStatement :: program.body.map (Statement.relocate (·.inFront 13)), .first,
          program.span.stop.inFront 13⟩
      | .error fault => .error ⟨fault.cause, fault.position.inFront 13⟩ := by
  have longer : (useStrict ++ source).length + 2 = (source.length + 14) + 1 := by
    rw [String.length_append]
    have own : useStrict.length = 13 := rfl
    omega
  have opening : (State.ofSource (useStrict ++ source) {}).opening =
      ⟨useStrict.toList ++ source.toList, 0, .first⟩ := by
    rw [State.opening_of_plain]
    · rw [Cursor.atStart, String.toList_append]
    · rw [String.toList_append]
      rintro ⟨rest, same⟩
      exact absurd (List.cons.inj same).1 (by decide)
  have possible : ∀ {fault}, parse source { strict := true } = .error fault →
      fault.cause ≠ .exhausted := possible_of_parse
  rw [parse_eq source, State.opening_of_plain plain] at possible ⊢
  rw [parse_eq, opening, Scan.token_of_useStrict, longer]
  have level : (Cursor.atStart source).InFront 13 ⟨source.toList, 13, ⟨1, 13⟩⟩ :=
    ⟨Nat.le_refl 1, rfl, rfl⟩
  have results := Scan.results_token level
  dsimp only
  cases scanned : Scan.token (Cursor.atStart source) with
  | error fault cursor =>
    obtain ⟨other, last, scannedToo, cause, position⟩ := results.exists_error scanned
    obtain ⟨after, run⟩ := topLevel_useStrict_fault source scannedToo
    rw [run]
    exact congrArg Except.error (by rw [← cause, position])
  | ok token cursor =>
    obtain ⟨other, last, scannedToo, same, related⟩ := results.exists_ok scanned
    obtain ⟨events, begins⟩ := topLevel_useStrict source scannedToo
    rw [begins]
    have follows := follows_topLevel (σ := .inFront 13 false false)
      (Nonterminals.follows_ofBudget (by omega : source.length + 2 ≤ source.length + 15)) rfl
      (by omega : source.length + 2 ≤ source.length + 14)
    have related : (Alignment.inFront 13 false false).Related (True ∨ False)
        ((State.ofSource source { strict := true }).begun token cursor)
        { cursor := last, lookahead := other, consumedEnd := ⟨1, 13⟩
          context := { strict := true }, events } :=
      { reached := trivial
        points := .inl ⟨related, same, rfl⟩
        context := rfl
        labels := rfl
        returns := rfl
        firstReturns := rfl
        secondReturns := rfl }
    dsimp only at possible ⊢
    rw [scanned] at possible
    dsimp only at possible
    cases run : topLevel (.ofBudget (source.length + 2)) (source.length + 2)
      ((State.ofSource source { strict := true }).begun token cursor) with
    | error fault after =>
      rw [run] at possible
      obtain ⟨result, final, runToo, cause, position⟩ :=
        follows.error related run (possible rfl) trivial
      rw [bind_eq_error.mpr (.inl runToo)]
      have position : result.position = fault.position.inFront 13 := position.symm
      exact congrArg Except.error (by rw [← cause, ← position])
    | ok body after =>
      obtain ⟨moved, final, runToo, sameBody, points⟩ := follows.ok related run trivial
      have stop : final.lookahead.span.stop = after.lookahead.span.stop.inFront 13 :=
        (congrArg Span.stop (matches_of_states (points.level trivial)).span).symm
      have whole : (do
          let body ← topLevel (.ofBudget (source.length + 15)) (source.length + 14)
          return useStrictStatement :: body) _ = .ok (useStrictStatement :: moved) final :=
        bind_eq_ok.mpr ⟨moved, final, runToo, rfl⟩
      rw [whole]
      dsimp only
      rw [eq_of_same sameBody, stop]

/-- A name alone is a script, and the directive goes in front of it. -/
theorem parse_strict_of_name :
    ¬['#', '!'] <+: "name".toList ∧
      ∃ program, parse "name" { strict := true } = .ok program ∧
        parse (useStrict ++ "name") {} =
          .ok ⟨useStrictStatement :: program.body.map (Statement.relocate (·.inFront 13)), .first,
            program.span.stop.inFront 13⟩ := by
  have plain : ¬['#', '!'] <+: "name".toList := by decide
  obtain ⟨program, accepted⟩ :=
    exists_of_toBool (by decide +kernel : (parse "name" { strict := true }).toBool = true)
  have same := parse_strict "name" plain
  rw [accepted] at same
  exact ⟨plain, program, accepted, same⟩

end EcmaScript
