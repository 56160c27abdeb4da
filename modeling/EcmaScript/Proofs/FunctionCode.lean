import EcmaScript.Proofs.Completion
import EcmaScript.Proofs.Neighbours
import EcmaScript.Proofs.ScriptFollowing
import EcmaScript.Proofs.Sessions

/-!
# Scripts as bodies of functions

A script that may return is read as the body of a function just as it is read alone. The parse of
the function follows that of the script up to the end of the script, where it stands in front of the
closing brace: the brace ends every statement that the end of a text ends.
-/

namespace EcmaScript

/-- What is behind a script that is made the body of a function. -/
def bodyEnd : List Char := ['\n', '}']

theorem separated_bodyEnd : Separated bodyEnd :=
  separated_cons (by decide +kernel)

theorem Symbol.rightBrace_standsAlone : StandsAlone (.punctuator .rightBrace) '}' := by
  constructor <;> decide +kernel

/-- Trivia at the end of a script goes on to the closing brace. -/
theorem Trivia.readFrom_bodyEnd {region : Region} {index length : Nat} {before lineBreak : Bool}
    {text : List Char} (read : readFrom region index before text = .success length lineBreak)
    (whole : length = index + text.length) :
    readFrom region index before (text ++ bodyEnd) = .success (length + 1) true := by
  have apart : ∀ {mark : Char} {text : List Char} {condition : Prop},
      mark = '/' ∨ mark = '*' → (∀ rest, condition → text = mark :: rest → False) →
      ∀ rest, condition → text ++ bodyEnd = mark :: rest → False := by
    intro mark text condition isMark none
    rw [← List.append_nil text] at none
    exact notBegins_append separated_bodyEnd isMark none
  fun_induction readFrom region index before text with
  | case1 index before rest ih =>
    simp only [List.length_cons] at whole
    rw [List.cons_append, List.cons_append, readFrom]
    exact ih read (by omega)
  | case2 index before rest ih =>
    simp only [List.length_cons] at whole
    rw [List.cons_append, List.cons_append, readFrom]
    exact ih read (by omega)
  | case3 index before char rest notLine notBlock terminator ih =>
    rw [List.length_cons] at whole
    rw [List.cons_append, readFrom, if_pos terminator]
    · exact ih read (by omega)
    · exact apart (.inl rfl) notLine
    · exact apart (.inr rfl) notBlock
  | case4 index before char rest notLine notBlock terminator blank ih =>
    rw [List.length_cons] at whole
    rw [List.cons_append, readFrom, if_neg terminator, if_pos blank]
    · exact ih read (by omega)
    · exact apart (.inl rfl) notLine
    · exact apart (.inr rfl) notBlock
  | case5 =>
    cases read
    rw [List.length_cons] at whole
    omega
  | case6 index before char rest terminator ih =>
    rw [List.length_cons] at whole
    rw [List.cons_append, readFrom, if_pos terminator]
    exact ih read (by omega)
  | case7 index before char rest inLine ih =>
    rw [List.length_cons] at whole
    rw [List.cons_append, readFrom, if_neg inLine]
    exact ih read (by omega)
  | case8 index before start rest ih =>
    simp only [List.length_cons] at whole
    rw [List.cons_append, List.cons_append, readFrom]
    exact ih read (by omega)
  | case9 index before start char rest notClosing ih =>
    rw [List.length_cons] at whole
    rw [List.cons_append, readFrom]
    · exact ih read (by omega)
    · exact apart (.inl rfl) notClosing
  | case10 => cases read
  | case11 region index before notBlock =>
    cases read
    have brace := Trivia.read_alone Symbol.rightBrace_standsAlone []
    cases region with
    | between => simp [bodyEnd, readFrom, isLineTerminator, isWhiteSpace]
    | lineComment => simp [bodyEnd, readFrom, isLineTerminator, isWhiteSpace]
    | blockComment start => exact absurd rfl (notBlock start)

namespace Scan

/-- Where a script ends, the closing brace behind it is scanned, and then the text has ended. -/
theorem token_bodyEnd {first second after : Cursor} {next : Token}
    (scanned : token first = .ok next after) (here : second.rest = first.rest ++ bodyEnd) :
    ∃ mate last, token second = .ok mate last ∧
      (next.lexeme ≠ .endOfFile ∧ next.Alike mate ∧ last.rest = after.rest ++ bodyEnd ∨
        next.lexeme = .endOfFile ∧ mate.lexeme = .symbol Punctuator.rightBrace ∧
          last.rest = []) := by
  by_cases ended : next.lexeme = .endOfFile
  · obtain ⟨gap, lineBreak, length, lexeme, flags, before, found, rfl, rfl⟩ :=
      token_eq_ok.mp scanned
    dsimp only at ended
    rw [ended] at found
    have all := (Lexeme.eq_nil_of_read found).1
    have gapLe := Trivia.length_read_le first.rest
    rw [before] at gapLe
    have whole : gap = first.rest.length :=
      Nat.le_antisymm gapLe (List.drop_eq_nil_iff.mp all)
    have beforeToo : Trivia.read (first.rest ++ bodyEnd) = .success (gap + 1) true :=
      Trivia.readFrom_bodyEnd before (by rw [whole, Nat.zero_add])
    have brace : (first.rest ++ bodyEnd).drop (gap + 1) = ['}'] := by
      rw [whole, List.drop_append, List.drop_eq_nil_of_le (Nat.le_succ _), Nat.add_sub_cancel_left]
      rfl
    refine ⟨_, _, token_eq_ok.mpr ⟨gap + 1, true, 1, .symbol Punctuator.rightBrace, {},
      by rw [here, beforeToo], ?_, rfl, rfl⟩, .inr ⟨ended, rfl, ?_⟩⟩
    · rw [here, brace]
      exact Lexeme.read_alone Symbol.rightBrace_standsAlone []
    · simp only [Cursor.moveBy, Cursor.rest_pass, here, brace]
      rfl
  · have rest : first.rest = first.rest ++ [] := (List.append_nil _).symm
    obtain ⟨mate, last, passed, scannedToo, alike, afterRest, lastRest⟩ :=
      token_append scanned ended rest here (Nat.zero_le _) separated_bodyEnd
    rw [List.append_nil] at afterRest
    exact ⟨mate, last, scannedToo, .inl ⟨ended, alike, afterRest ▸ lastRest⟩⟩

end Scan

/-- The parse of a script, and that of a function with the script as its body. -/
def Alignment.body : Alignment where
  left _ := .first
  right _ := .first
  mate := id
  right_mate _ := rfl
  firstReturns := true
  secondReturns := false
  extent := .edge
  Ends _ := False
  Reached _ := True
  Ahead extent _ point := extent = .edge ∨ point.lookahead.lexeme ≠ .endOfFile
  Doomed _ _ := False
  Level phase first second :=
    ¬phase ∧ first.lookahead.lexeme ≠ .endOfFile ∧ first.lookahead.Alike second.lookahead ∧
      second.cursor.rest = first.cursor.rest ++ bodyEnd
  Edge first second :=
    first.lookahead.lexeme = .endOfFile ∧
      second.lookahead.lexeme = .symbol Punctuator.rightBrace ∧ second.cursor.rest = []
  reached_of_advances _ _ := trivial
  reached_of_rereads _ _ := trivial
  ahead_weaken _ := .inl rfl
  ahead_of_advances _ step _ := .inr step.1
  ahead_of_rereads := by
    rintro phase before after - ⟨front, token, cursor, slash, -⟩ -
    refine .inr fun ended => ?_
    rw [ended] at slash
    cases slash
  ahead_of_ends _ _ := .inl rfl
  ahead_of_doomed _ _ := False.elim
  matches_of_level level := level.2.2.1
  consumedEnd_of_level _ := rfl
  ends_of_level _ := False.elim
  advances := by
    rintro phase first second _ ⟨before, inside, alike, here⟩ - ⟨-, next, cursor, scanned, rfl⟩ -
    obtain ⟨mate, last, scannedToo, level | edge⟩ := Scan.token_bodyEnd scanned here
    · refine ⟨_, ⟨alike.lexeme ▸ inside, mate, last, scannedToo, rfl⟩, .inl ⟨before, level⟩⟩
    · refine ⟨_, ⟨alike.lexeme ▸ inside, mate, last, scannedToo, rfl⟩,
        .inr ⟨before, edge, False.elim⟩⟩
  fault_of_token _ _ _ _ := False.elim
  rereads := by
    rintro phase first second _ ⟨before, inside, alike, here⟩ -
      ⟨front, next, cursor, slash, scanned, rfl⟩ -
    have rest : first.cursor.rest = first.cursor.rest ++ [] := (List.append_nil _).symm
    obtain ⟨mate, last, passed, scannedToo, alikeToo, afterRest, lastRest⟩ :=
      Scan.regularExpression_append scanned alike rest here (Nat.zero_le _) separated_bodyEnd
    rw [List.append_nil] at afterRest
    refine ⟨_, ⟨front, mate, last, alike.lexeme ▸ slash, scannedToo, rfl⟩, before, ?_, alikeToo,
      afterRest ▸ lastRest⟩
    obtain ⟨length, lexeme, read, rfl, rfl⟩ := Scan.regularExpression_eq_ok.mp scanned
    obtain ⟨_, _, rfl⟩ := RegularExpression.eq_of_read read
    rintro ⟨⟩
  fault_of_regularExpression _ _ _ _ := False.elim
  closing_of_edge := by
    rintro first second ⟨-, brace, -⟩
    exact .inr (by rw [Token.kind, brace]; rfl)
  phase_of_edge := by
    rintro phase first second ⟨ended, -⟩ (⟨⟨⟩⟩ | inside)
    exact absurd ended inside
  consumedEnd_of_edge _ := rfl
  ended_of_edge := by
    rintro first second - ⟨ended, brace, -⟩
    exact ⟨ended, by rw [Token.kind, brace]; rfl⟩
  semicolon_of_edge := by
    rintro first second ⟨-, brace, -⟩ -
    exact .inl ⟨by rw [Token.kind, brace]; rfl, id⟩

open Parse Grammar EcmaScript.Alignment

namespace Grammar

variable {self other : Nonterminals} {state after : State} {body : List Statement}

/-- A list of statements that goes on to the end of the text could not end earlier. -/
theorem itemsUntil_endsStatements {turns : Nat}
    (run : itemsUntil (· == .endOfFile) (listItem self) turns state = .ok body after) :
    itemsUntil endsStatements (listItem self) turns state = .ok body after ∧
      after.lookahead.kind = .endOfFile := by
  induction turns generalizing state body with
  | zero => cases run
  | succ turns ih =>
    rw [itemsUntil, kind_bind] at run ⊢
    split at run
    · rename_i ended
      cases run
      have ended : after.lookahead.kind = .endOfFile := by simpa using ended
      rw [ended]
      exact ⟨rfl, rfl⟩
    · rename_i notEnded
      obtain ⟨first, between, runFirst, rest⟩ := bind_eq_ok.mp run
      obtain ⟨others, last, runOthers, rest⟩ := bind_eq_ok.mp rest
      cases rest
      obtain ⟨runToo, ended⟩ := ih runOthers
      have goesOn : endsStatements state.lookahead.kind = false := by
        rw [← Bool.not_eq_true]
        intro ends
        simp only [endsStatements, Bool.or_eq_true, beq_iff_eq] at ends
        rcases ends with ((brace | ended) | clause) | clause
        · exact not_ok_of_listItem (.inl rfl) (lexeme_of_kind brace) runFirst
        · exact notEnded (by simpa using ended)
        · exact not_ok_of_listItem (.inr (.inl rfl)) (lexeme_of_kind clause) runFirst
        · exact not_ok_of_listItem (.inr (.inr rfl)) (lexeme_of_kind clause) runFirst
      rw [goesOn, if_neg Bool.false_ne_true]
      exact ⟨bind_eq_ok.mpr ⟨first, between, runFirst, bind_eq_ok.mpr ⟨others, _, runToo, rfl⟩⟩,
        ended⟩

/-- The statements of a function body. -/
def bodyStatements (self : Nonterminals) : Parse (List Statement) := do
  let opening ← directives self.statement self.turns
  let others ← statementList self
  return opening ++ others

/-- The statements of a script are those of the body, which comes to its closing brace. -/
theorem bodyStatements_of_topLevel {budget larger : Nat} (enough : budget ≤ larger)
    {second : State} (related : Alignment.body.Related False state second)
    (run : topLevel (.ofBudget (budget + 1)) (budget + 1) state = .ok body after) :
    ∃ result last, bodyStatements (.ofBudget (larger + 1)) second = .ok result last ∧
      Alignment.body.Same body result ∧
      last.lookahead.lexeme = .symbol Punctuator.rightBrace ∧ last.cursor.rest = [] := by
  obtain ⟨opening, between, runOpening, rest⟩ := bind_eq_ok.mp run
  obtain ⟨others, last, runOthers, rest⟩ := bind_eq_ok.mp rest
  cases rest
  obtain ⟨runOthers, ended⟩ := itemsUntil_endsStatements runOthers
  have nested : (Nonterminals.ofBudget (budget + 1)).Follows Alignment.body _ :=
    Nonterminals.follows_ofBudget (Nat.succ_le_succ enough)
  have follows : Alignment.body.Follows .edge .edge False
      (bodyStatements (.ofBudget (budget + 1))) (bodyStatements (.ofBudget (larger + 1)))
      Alignment.body.Marks := by
    rw [bodyStatements, bodyStatements]
    apply Follows.step (follows_directives nested.sound.statement nested.soundToo.statement
      nested.statement nested.turns)
    intro front frontToo sameFront
    apply Follows.step (follows_statementList nested fun _ => rfl)
    intro back backToo sameBack
    exact .pure (Follows.same_append sameFront sameBack) (by rw [Follows.marks_append, false_or])
  have run : bodyStatements (.ofBudget (budget + 1)) state = .ok (opening ++ others) after :=
    bind_eq_ok.mpr ⟨opening, between, runOpening,
      bind_eq_ok.mpr ⟨others, after, runOthers, rfl⟩⟩
  have related : Alignment.body.Related (False ∨ False) state second :=
    related.congr or_self_iff.symm
  obtain ⟨result, last, runToo, same, relatedToo⟩ := follows.ok related run (.inl rfl)
  rcases relatedToo.points with ⟨_, inside, _⟩ | ⟨_, _, edge⟩
  · exact absurd (lexeme_of_ended ended) inside
  · exact ⟨result, last, runToo, same, edge⟩

/-- A state stands in front of a lexeme, with some text behind it. -/
structure StandsAt (state : State) (scope : Scope) (lexeme : Lexeme) (rest : List Char) : Prop where
  scope : state.scope = scope
  lexeme : state.lookahead.lexeme = lexeme
  rest : state.cursor.rest = rest

theorem StandsAt.kind {scope : Scope} {symbol : Symbol} {rest : List Char}
    (here : StandsAt state scope (.symbol symbol) rest) :
    state.lookahead.kind = .symbol symbol := by
  rw [Token.kind, here.lexeme]
  rfl

/-- The token of lookahead is consumed when the next one can be scanned. -/
theorem consume_of_token {token : Token} {cursor : Cursor}
    (scanned : Scan.token state.cursor = .ok token cursor) :
    ∃ next, consume state = .ok () next ∧
      StandsAt next state.scope token.lexeme cursor.rest :=
  ⟨_, consume_eq_ok.mpr ⟨token, cursor, scanned, rfl⟩, rfl, rfl, rfl⟩

theorem StandsAt.consume {scope : Scope} {lexeme follower : Lexeme} {text tail : List Char}
    (scans : Scan.scansAs text follower = true) (inside : follower ≠ .endOfFile)
    (separated : Separated tail) (here : StandsAt state scope lexeme (text ++ tail)) :
    ∃ next, Parse.consume state = .ok () next ∧ StandsAt next scope follower tail := by
  obtain ⟨token, cursor, scanned, rfl, rfl⟩ :=
    Scan.token_of_scansAs scans inside separated here.rest
  obtain ⟨next, run, same⟩ := consume_of_token scanned
  exact ⟨next, run, here.scope ▸ same⟩

/-- What comes before the statements of a function without parameters. -/
theorem functionDeclaration_of_header (self : Nonterminals) {scope : Scope} {tail : List Char}
    (here : StandsAt state scope (.symbol Keyword.functionWord)
      ([' ', 'f', '(', ')', '{'] ++ tail)) :
    ∃ (start : Position) (name : Identifier) (between : State), name.name = "f" ∧
      StandsAt between scope (.symbol Punctuator.leftBrace) tail ∧
      functionDeclaration self state =
        (do
          let body ← functionBody self
          return Statement.function name [] body (← spanFrom start)) between := by
  obtain ⟨first, runFirst, hereFirst⟩ :=
    StandsAt.consume (by decide +kernel : Scan.scansAs [' ', 'f'] (.identifier "f") = true) (by rintro ⟨⟩)
      (separated_cons (by decide +kernel) : Separated (['(', ')', '{'] ++ tail)) here
  obtain ⟨second, runSecond, hereSecond⟩ :=
    StandsAt.consume (by decide +kernel :
        Scan.scansAs ['('] (.symbol Punctuator.leftParen) = true) (by rintro ⟨⟩)
      (separated_cons (by decide +kernel) : Separated ([')', '{'] ++ tail)) hereFirst
  obtain ⟨third, runThird, hereThird⟩ :=
    StandsAt.consume (by decide +kernel :
        Scan.scansAs [')'] (.symbol Punctuator.rightParen) = true) (by rintro ⟨⟩)
      (separated_cons (by decide +kernel) : Separated (['{'] ++ tail)) hereSecond
  have brace := Scan.token_alone Symbol.leftBrace_standsAlone hereThird.rest
  obtain ⟨fourth, runFourth, hereFourth⟩ := consume_of_token brace
  have binding : bindingIdentifier first = .ok ⟨"f", first.lookahead.span⟩ second :=
    bindingIdentifier_of_name hereFirst.lexeme runSecond (fun _ => by decide) fun _ => by decide
  have parameters : formalParameters self second = .ok [] fourth := by
    have closes : (do
        require Punctuator.rightParen
        return ([] : List Identifier)) third = _ := require_bind hereThird.kind runFourth
    rw [formalParameters, require_bind hereSecond.kind runThird, sees_bind,
      if_pos (by simpa using hereThird.kind), pure_bind]
    exact closes
  have behind : (third.cursor.moveBy (Lexeme.walk ('{' :: tail)) 1).rest = tail := by
    rw [Cursor.moveBy, hereThird.rest]
    rfl
  refine ⟨state.lookahead.span.start, ⟨"f", first.lookahead.span⟩, fourth, rfl,
    ⟨hereFourth.scope.trans hereThird.scope, hereFourth.lexeme, hereFourth.rest.trans behind⟩, ?_⟩
  rw [functionDeclaration, nodeStart_bind, require_bind here.kind runFirst]
  change EStateM.bind bindingIdentifier _ first = _
  rw [EStateM.bind, binding]
  change EStateM.bind (formalParameters self) _ second = _
  rw [EStateM.bind, parameters]

/-- A script that stands in braces is the body of a function, and the text ends behind it. -/
theorem functionBody_of_topLevel {source : String} {strict : Bool} {larger : Nat}
    (enough : source.length + 1 ≤ larger) {token : Token} {place : Cursor}
    (scanned : Scan.token (Cursor.atStart source) = .ok token place)
    (run : topLevel (.ofBudget (source.length + 1 + 1)) (source.length + 1 + 1)
      ((State.ofSource source
        { strict, allowReturnOutsideFunction := true, allowHashbang := false }).begun token place) =
      .ok body after)
    (here : StandsAt state ⟨{ strict }, {}, { strict }⟩ (.symbol Punctuator.leftBrace)
      (source.toList ++ bodyEnd)) :
    ∃ block last, functionBody (.ofBudget (larger + 1)) state = .ok block last ∧
      Alignment.body.Same body block.body ∧ last.lookahead.lexeme = .endOfFile := by
  obtain ⟨mate, cursor, scannedToo, points⟩ := Scan.token_bodyEnd scanned here.rest
  obtain ⟨opened, opens, hereOpened⟩ :
      ∃ opened, consume state = .ok () opened ∧ opened.scope = state.scope ∧
        opened.lookahead = mate ∧ opened.cursor = cursor :=
    ⟨_, consume_eq_ok.mpr ⟨mate, cursor, scannedToo, rfl⟩, rfl, rfl, rfl⟩
  obtain ⟨scope, rfl, rfl⟩ := hereOpened
  rw [here.scope] at scope
  have context : opened.context = { strict } := congrArg Scope.context scope
  have options : opened.options = { strict } := congrArg Scope.options scope
  have related : Alignment.body.Related False
      ((State.ofSource source
        { strict, allowReturnOutsideFunction := true, allowHashbang := false }).begun token place)
      { opened with context := opened.context.forFunctionBody, labels := {} } :=
    { reached := trivial
      points := points.imp (fun level => ⟨id, level⟩) fun edge => ⟨id, edge⟩
      context := by rw [context]; rfl
      labels := rfl
      returns := by rw [context]; rfl
      firstReturns := rfl
      secondReturns := by dsimp only; rw [options]; rfl }
  obtain ⟨result, last, runToo, same, brace, ended⟩ :=
    bodyStatements_of_topLevel enough related run
  obtain ⟨opening, between, runOpening, rest⟩ := bind_eq_ok.mp runToo
  obtain ⟨others, _, runOthers, rest⟩ := bind_eq_ok.mp rest
  cases rest
  obtain ⟨token, scanned, isEnd, -⟩ := Scan.token_of_nil ended
  obtain ⟨closed, closes, hereClosed⟩ := consume_of_token scanned
  have closing : last.lookahead.kind = .symbol Punctuator.rightBrace := by
    rw [Token.kind, brace]
    rfl
  have inner : (do
      let opening ← directives (Nonterminals.ofBudget (larger + 1)).statement
        (Nonterminals.ofBudget (larger + 1)).turns
      let others ← statementList (.ofBudget (larger + 1))
      require Punctuator.rightBrace
      return opening ++ others) _ = .ok (opening ++ others) closed :=
    bind_eq_ok.mpr ⟨opening, between, runOpening,
      bind_eq_ok.mpr ⟨others, last, runOthers, require_bind closing closes⟩⟩
  have outer : inFunction _ opened = .ok (opening ++ others) _ :=
    within_eq_ok.mpr ⟨closed, inner, rfl⟩
  refine ⟨⟨opening ++ others, ⟨state.lookahead.span.start, closed.consumedEnd⟩⟩,
    { closed with context := opened.context, labels := opened.labels }, ?_, same,
    hereClosed.lexeme.trans isEnd⟩
  rw [functionBody, nodeStart_bind, require_bind here.kind opens]
  exact bind_eq_ok.mpr ⟨_, _, outer, rfl⟩

/-- A function alone is a script. -/
theorem topLevel_of_function {turns : Nat} {function : Statement}
    (begins : state.lookahead.kind = .symbol Keyword.functionWord)
    (run : self.listItem state = .ok function after) (ended : after.lookahead.kind = .endOfFile)
    (enough : self.turns = turns + 2) : topLevel self (turns + 2) state = .ok [function] after := by
  have noDirectives : directives self.statement (turns + 2) state = .ok [] state := by
    rw [directives, lookahead_bind, if_pos (by rw [begins]; rfl)]
    rfl
  have atEnd : itemsUntil (· == .endOfFile) self.listItem (turns + 1) after = .ok [] after := by
    rw [itemsUntil, kind_bind, ended]
    rfl
  have only : itemsUntil (· == .endOfFile) self.listItem (turns + 2) state =
      .ok [function] after := by
    rw [itemsUntil, kind_bind, begins]
    exact bind_eq_ok.mpr ⟨function, after, run, bind_eq_ok.mpr ⟨[], after, atEnd, rfl⟩⟩
  rw [topLevel, enough]
  exact bind_eq_ok.mpr ⟨[], state, noDirectives, bind_eq_ok.mpr ⟨[function], after, only, rfl⟩⟩

end Grammar

/-- The text of a function whose body is a script. -/
def functionText (source : String) : String :=
  "function f()\x7b" ++ source ++ "\n\x7d"

theorem toList_functionText (source : String) :
    (functionText source).toList =
      ['f', 'u', 'n', 'c', 't', 'i', 'o', 'n'] ++
        ([' ', 'f', '(', ')', '{'] ++ (source.toList ++ bodyEnd)) := by
  rw [functionText, String.toList_append, String.toList_append, List.append_assoc]
  rfl

/-- A script that may return is, without its positions, the body of a function with the script
between its braces. -/
theorem parse_functionText (source : String) (strict : Bool) (program : Program)
    (accepted : parse source
      { strict, allowReturnOutsideFunction := true, allowHashbang := false } = .ok program) :
    ∃ (name : Identifier) (body : Block) (span cover : Span), name.name = "f" ∧
      parse (functionText source) { strict } = .ok ⟨[.function name [] body span], cover⟩ ∧
      body.body.map (Statement.relocate fun _ => .first) =
        program.body.map (Statement.relocate fun _ => .first) := by
  rw [parse_eq] at accepted
  split at accepted
  · cases accepted
  rename_i first place scanned
  split at accepted
  · cases accepted
  rename_i statements after run
  cases accepted
  have separated : Separated ([' ', 'f', '(', ')', '{'] ++ (source.toList ++ bodyEnd)) :=
    separated_cons (by decide +kernel)
  have text : (Cursor.atStart (functionText source)).rest =
      "function".toList ++ ([' ', 'f', '(', ')', '{'] ++ (source.toList ++ bodyEnd)) :=
    toList_functionText source
  obtain ⟨opening, cursor, begins, lexeme, rest⟩ :=
    Scan.token_of_scansAs
      (by decide +kernel :
        Scan.scansAs "function".toList (.symbol Keyword.functionWord) = true)
      (by rintro ⟨⟩) separated text
  have length : (functionText source).length + 2 = source.length + 15 + 2 := by
    rw [← String.length_toList, toList_functionText, ← String.length_toList]
    simp only [List.length_append, List.length_cons, List.length_nil, bodyEnd]
    omega
  have plain : ¬['#', '!'] <+: (functionText source).toList := by
    rw [toList_functionText]
    rintro ⟨others, same⟩
    exact absurd (List.cons.inj same).1 (by decide)
  rw [parse_eq, State.opening_of_plain plain, begins, length]
  generalize begun : (State.ofSource (functionText source) { strict }).begun opening cursor = state
  have here : Grammar.StandsAt state ⟨{ strict }, {}, { strict }⟩ (.symbol Keyword.functionWord)
      ([' ', 'f', '(', ')', '{'] ++ (source.toList ++ bodyEnd)) := by
    subst begun
    exact ⟨rfl, lexeme, rest⟩
  obtain ⟨start, name, between, isName, hereBetween, declares⟩ :=
    functionDeclaration_of_header (.ofBudget (source.length + 15 + 1)) here
  obtain ⟨block, last, runBody, same, ended⟩ :=
    functionBody_of_topLevel (by omega : source.length + 1 ≤ source.length + 15)
      scanned run hereBetween
  have item : (Nonterminals.ofBudget (source.length + 15 + 2)).listItem state =
      .ok (.function name [] block ⟨start, last.consumedEnd⟩) last := by
    change Grammar.listItem _ _ = _
    rw [Grammar.listItem, sees_bind, here.kind, if_pos (beq_self_eq_true _), declares]
    exact bind_eq_ok.mpr ⟨block, last, runBody, rfl⟩
  have ended : last.lookahead.kind = .endOfFile := by
    rw [Token.kind, ended]
    rfl
  dsimp only
  rw [begun, topLevel_of_function here.kind item ended rfl]
  exact ⟨name, block, _, _, isName, rfl, same.symm⟩

/-- A return alone is a script that may return, and so it is the body of a function. -/
theorem parse_functionText_of_return :
    ∃ program, parse "return" { allowReturnOutsideFunction := true, allowHashbang := false } =
        .ok program ∧
      ∃ (name : Identifier) (body : Block) (span cover : Span), name.name = "f" ∧
        parse (functionText "return") {} = .ok ⟨[.function name [] body span], cover⟩ ∧
        body.body.map (Statement.relocate fun _ => .first) =
          program.body.map (Statement.relocate fun _ => .first) := by
  obtain ⟨program, accepted⟩ := exists_of_toBool (by decide +kernel :
    (parse "return" { allowReturnOutsideFunction := true, allowHashbang := false }).toBool = true)
  exact ⟨program, accepted, parse_functionText "return" false program accepted⟩

end EcmaScript
