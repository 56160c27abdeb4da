import EcmaScript.Proofs.LexemeText
import EcmaScript.Proofs.StatementBalance
import EcmaScript.Proofs.StrictCode
import EcmaScript.Proofs.TokenText

/-!
# Parses one after the other

A parse goes on where the one before it stopped, with its cursor and its surroundings. Of the
surroundings a parse changes strictness alone, and only by the directives that it recognises at the
beginning of its script; so after any number of parses, whether they succeed or fail, the context
tells no more than whether the code has become strict. A parse that succeeds has come to the end of
the text, and the parses after it find nothing but that end.
-/

namespace EcmaScript

open Parse

/-- The text of the directive that a statement is. -/
def Statement.directive? : Statement → Option String
  | .expression _ directive _ => directive
  | _ => none

/-- The texts of the directives at the beginning of a script. -/
def Program.directives (program : Program) : List String :=
  program.body.filterMap Statement.directive?

namespace State

/-- The texts of the directives that a parse recognises at the beginning of its script, even if it
fails afterwards. -/
def recognised (state : State) : List String :=
  match Grammar.beginning state with
  | .ok self first => Grammar.recognised self.statement self.turns first
  | .error _ _ => []

/-- The state after a number of parses, each of which may succeed or fail. -/
def afterParses (state : State) : Nat → State
  | 0 => state
  | calls + 1 => (state.afterParses calls).parse.2

end State

namespace Grammar

section Surroundings

theorem restores_beginning : beginning.Restores := by
  intro state
  rw [stateAfter, beginning_eq]
  refine (Restores.bind .fetch fun first => ?_ : Restores _) _
  exact .bind (fun _ => rfl) fun _ => .pure _

/-- After the directives a script restores its surroundings. -/
theorem scope_wholeBody {self : Nonterminals} (nested : self.IsBalanced) (first : State) :
    (stateAfter (wholeBody self) first).scope =
      (recognised self.statement self.turns first).foldl Scope.afterDirective first.scope := by
  rw [wholeBody, ← scope_directives nested.statement.restores]
  refine Keeps.after (fun opening => ?_) first
  refine Restores.bind (IsBalanced.itemsUntil _ nested.listItem _).restores fun others => ?_
  refine .bind (.record _) fun _ => ?_
  exact .bind .lookahead fun token => .pure _

theorem scope_script (state : State) :
    (stateAfter script state).scope =
      state.recognised.foldl Scope.afterDirective state.scope := by
  have same := restores_beginning state
  rw [script_eq, stateAfter_bind, State.recognised]
  unfold stateAfter at same
  cases run : beginning state with
  | error =>
    rw [run] at same
    exact same
  | ok self first =>
    rw [run] at same
    obtain ⟨rfl, _⟩ := (ensures_beginning state).of_ok run
    dsimp only at same ⊢
    rw [scope_wholeBody (Nonterminals.isBalanced_ofBudget _), same]

end Surroundings

section Directives

variable {scope : Scope} {tokens : List Token} {next : Token}

/-- A statement by itself is no directive. -/
theorem directive_of_reads {value : Statement}
    (reads : Reads scope (.statement value) tokens next) : value.directive? = none := by
  cases reads <;> rfl

theorem directives_of_reads {statements : List Statement}
    (reads : Reads scope (.statements statements) tokens next) :
    statements.filterMap Statement.directive? = [] := by
  rw [List.filterMap_eq_nil_iff]
  intro statement member
  cases statement with
  | expression value directive span =>
    cases directive with
    | none => rfl
    | some text => exact absurd member reads.directive_notMem
  | _ => rfl

/-- The directives that are recognised can be seen in the statements that are read. -/
theorem ensures_recognised {self : Nonterminals} (sound : self.Sound) (turns : Nat)
    (state : State) :
    (directives self.statement turns).Ensures state fun opening _ =>
      opening.filterMap Statement.directive? = recognised self.statement turns state := by
  induction turns generalizing state with
  | zero => exact ensures_exhausted
  | succ turns ih =>
    rw [directives, ensures_lookahead]
    split
    · rename_i plain
      rw [ensures_pure, recognised_of_ne (by simpa using plain)]
      rfl
    · rename_i opens
      have string : state.lookahead.kind = .stringLiteral := by simpa using opens
      rw [ensures_bind]
      constructor
      intro first between run
      obtain ⟨tokens, _, reads⟩ := (sound.statement state).of_ok run
      rw [recognised, run]
      dsimp only
      cases found : directive? state.lookahead first with
      | none =>
        rw [ensures_pure, if_neg (by simp), List.filterMap_cons_none (directive_of_reads reads)]
        rfl
      | some directive =>
        have continued : ∀ after : State,
            (directives self.statement turns >>= fun others =>
              pure (.expression directive.1 (some (insideQuotes state.lookahead.text))
                directive.2 :: others)).Ensures after fun opening _ =>
                  opening.filterMap Statement.directive? =
                    insideQuotes state.lookahead.text ::
                      recognised self.statement turns after := by
          intro after
          rw [ensures_bind]
          constructor
          intro others last rest
          rw [ensures_pure, ← (ih after).of_ok rest]
          rfl
        rw [if_pos ⟨string, rfl⟩]
        dsimp only
        by_cases strict : insideQuotes state.lookahead.text = "use strict"
        · obtain ⟨events, _, succeeds⟩ := enableStrict_ok between
          rw [if_pos (by simpa using strict), if_pos strict, ensures_bind, stateAfter, succeeds]
          constructor
          intro _ after enabled
          cases succeeds.symm.trans enabled
          exact continued _
        · rw [if_neg (by simpa using strict), if_neg strict]
          exact continued between

theorem recognised_of_script {state after : State} {program : Program}
    (run : script state = .ok program after) : state.recognised = program.directives := by
  rw [script_eq] at run
  obtain ⟨self, first, begun, run⟩ := bind_eq_ok.mp run
  obtain ⟨rfl, _⟩ := (ensures_beginning state).of_ok begun
  have sound := Nonterminals.sound_ofBudget (state.cursor.sourceLength + 2)
  rw [wholeBody] at run
  obtain ⟨opening, middle, read, run⟩ := bind_eq_ok.mp run
  obtain ⟨others, last, readOthers, run⟩ := bind_eq_ok.mp run
  obtain ⟨tokens, _, reads, _⟩ := (sound_topLevel sound middle).of_ok readOthers
  have texts := (ensures_recognised sound _ first).of_ok read
  cases run
  rw [State.recognised, begun, Program.directives, List.filterMap_append, texts,
    directives_of_reads reads, List.append_nil]

end Directives

end Grammar

namespace State

variable {state after : State} {program : Program}

theorem parse_snd (state : State) : state.parse.2 = stateAfter Grammar.script state := by
  unfold parse stateAfter
  cases Grammar.script state with
  | ok => rfl
  | error => rfl

/-- Of its surroundings a parse changes what the directives say that it recognises. -/
theorem scope_parse (state : State) :
    state.parse.2.scope = state.recognised.foldl Scope.afterDirective state.scope := by
  rw [parse_snd, Grammar.scope_script]

theorem parse_fst_eq_ok :
    state.parse.1 = .ok program ↔ ∃ after, Grammar.script state = .ok program after := by
  unfold parse
  cases run : Grammar.script state with
  | ok value last => simp
  | error => simp

end State

section EndOfText

/-- The lookahead was scanned just before the cursor. -/
def Point.IsScanned (point : Point) : Prop :=
  ∃ cursor, Scan.token cursor = .ok point.lookahead point.cursor

theorem Point.Passes.isScanned {before after : Point} {tokens : List Token}
    (passes : before.Passes tokens after) (scanned : before.IsScanned) : after.IsScanned := by
  induction passes with
  | none => exact scanned
  | advance step _ ih =>
    obtain ⟨_, next, cursor, found, rfl⟩ := step
    exact ih ⟨_, found⟩
  | reread _ step _ ih =>
    obtain ⟨_, next, cursor, found, rfl⟩ := step
    exact ih ⟨_, found⟩

/-- Nothing remains behind the end of the text. -/
theorem Scan.eq_nil_of_token {cursor after : Cursor} {token : Token}
    (scanned : Scan.token cursor = .ok token after) (ended : token.lexeme = .endOfFile) :
    after.rest = [] := by
  obtain ⟨gap, length, reads⟩ := reads_of_token scanned
  obtain ⟨flags, read⟩ := reads.lexeme
  rw [ended] at read
  obtain ⟨empty, _⟩ := Lexeme.eq_nil_of_read read
  rw [reads.moves]
  change List.drop length _ = []
  rw [empty, List.drop_nil]

/-- Where nothing remains, the end of the text is scanned again and again. -/
theorem Scan.token_of_nil {cursor : Cursor} (ended : cursor.rest = []) :
    ∃ token, Scan.token cursor = .ok token cursor ∧ token.lexeme = .endOfFile ∧
      token.span.stop = cursor.position := by
  have blank : trivia cursor = .ok false cursor := by
    have none : Trivia.read cursor.rest = .success 0 false := by
      rw [ended]
      rfl
    simp only [trivia, none, Cursor.pass_zero]
  have empty : Lexeme.read cursor.rest = .success 0 (.endOfFile, {}) := by
    rw [ended]
    rfl
  have stays : cursor.moveBy (Lexeme.walk cursor.rest) 0 = cursor := by
    rw [ended]
    exact Cursor.pass_zero cursor
  simp only [token, bind, EStateM.bind, blank, lexeme, empty, stays]
  exact ⟨_, rfl, rfl, rfl⟩

theorem Cursor.passHashbang_of_nil {cursor : Cursor} (ended : cursor.rest = []) :
    cursor.passHashbang = cursor := by
  unfold passHashbang
  split
  · rename_i same
    rw [ended] at same
    contradiction
  · rfl

namespace Grammar

variable {state after : State} {program : Program}

/-- A parse that succeeds comes to the end of the text, which is the end of the program. -/
theorem ended_of_script (run : script state = .ok program after) :
    after.cursor.rest = [] ∧ program.span = ⟨.first, after.cursor.position⟩ := by
  obtain ⟨first, tokens, begins, isScript⟩ := (ensures_script state).of_ok run
  have scannedFirst : first.point.IsScanned := by
    rcases begins.scanned with scanned | scanned
    · exact ⟨_, scanned⟩
    · exact ⟨_, scanned⟩
  obtain ⟨cursor, scanned⟩ := isScript.passes.isScanned scannedFirst
  have ended : after.lookahead.lexeme = .endOfFile := by
    have kind := isScript.ended
    unfold Token.kind at kind
    cases same : after.lookahead.lexeme <;> simp_all [Lexeme.kind]
  obtain ⟨gap, length, reads⟩ := Scan.reads_of_token scanned
  refine ⟨Scan.eq_nil_of_token scanned ended, ?_⟩
  rw [isScript.span]
  exact congrArg (Span.mk .first) reads.spanStop

/-- At the end of the text a script begins with that end. -/
theorem beginning_of_nil (ended : state.cursor.rest = []) :
    ∃ first, beginning state = .ok (.ofBudget (state.cursor.sourceLength + 2)) first ∧
      first.cursor = state.cursor ∧ first.lookahead.lexeme = .endOfFile ∧
      first.lookahead.span.stop = state.cursor.position := by
  obtain ⟨token, scanned, isEnd, stop⟩ := Scan.token_of_nil ended
  have same :
      (if state.options.allowHashbang then state.cursor.passHashbang else state.cursor) =
        state.cursor := by
    rw [Cursor.passHashbang_of_nil ended, ite_self]
  rw [beginning_eq, same]
  have fetched : ∃ between,
      fetch { state with events := .began state.cursor.sourceLength :: state.events } =
        .ok token between ∧ between.cursor = state.cursor :=
    ⟨_, fetch_eq_ok.mpr ⟨_, scanned, rfl⟩, rfl⟩
  obtain ⟨between, run, cursor⟩ := fetched
  exact ⟨_, bind_eq_ok.mpr ⟨token, between, run, rfl⟩, cursor, isEnd, stop⟩

/-- A script has no statements before the end of the text. -/
theorem wholeBody_of_end {self : Nonterminals} {turns : Nat} (many : self.turns = turns + 1)
    (ended : state.lookahead.lexeme = .endOfFile) :
    ∃ after, wholeBody self state = .ok ⟨[], .first, state.lookahead.span.stop⟩ after ∧
      after.cursor = state.cursor := by
  have kind : state.lookahead.kind = .endOfFile := by rw [Token.kind, ended, Lexeme.kind]
  have none : directives self.statement (turns + 1) state = .ok [] state := by
    rw [directives]
    exact congrFun (if_pos (by simp [kind])) state
  have empty : itemsUntil (· == .endOfFile) self.listItem (turns + 1) state = .ok [] state := by
    rw [itemsUntil]
    exact congrFun (if_pos (by simp [kind])) state
  rw [wholeBody, many]
  exact ⟨_, bind_eq_ok.mpr ⟨_, _, none, bind_eq_ok.mpr ⟨_, _, empty, rfl⟩⟩, rfl⟩

/-- At the end of the text there is an empty program that ends there. -/
theorem script_of_nil (ended : state.cursor.rest = []) :
    ∃ after, script state = .ok ⟨[], .first, state.cursor.position⟩ after ∧
      after.cursor = state.cursor := by
  obtain ⟨first, begun, cursor, isEnd, stop⟩ := beginning_of_nil ended
  have many : (Nonterminals.ofBudget (state.cursor.sourceLength + 2)).turns =
      state.cursor.sourceLength + 1 + 1 := rfl
  obtain ⟨after, run, same⟩ := wholeBody_of_end many isEnd
  rw [stop] at run
  refine ⟨after, ?_, same.trans cursor⟩
  rw [script_eq]
  exact bind_eq_ok.mpr ⟨_, first, begun, run⟩

end Grammar

end EndOfText

namespace State

/-- The state of the parser of a text after a number of calls. -/
def session (source : String) (options : Options) (calls : Nat) : State :=
  (ofSource source options).afterParses calls

variable {state : State} {program : Program}

theorem afterParses_add (state : State) (calls more : Nat) :
    state.afterParses (calls + more) = (state.afterParses calls).afterParses more := by
  induction more with
  | zero => rfl
  | succ more ih => exact congrArg (·.parse.2) ih

/-- Between calls nothing surrounds the parser. The code is strict from the beginning, or since a
call that recognised the directive. -/
theorem scope_session (source : String) (options : Options) (calls : Nat) :
    (session source options calls).scope =
        ⟨{ strict := (session source options calls).context.strict }, {}, options⟩ ∧
      ((session source options calls).context.strict = true ↔
        options.strict = true ∨
          ∃ call < calls, "use strict" ∈ (session source options call).recognised) := by
  induction calls with
  | zero =>
    refine ⟨rfl, ?_⟩
    simp [session, afterParses, ofSource]
  | succ calls ih =>
    obtain ⟨plain, strict⟩ := ih
    have scope : (session source options (calls + 1)).scope =
        (session source options calls).recognised.foldl Scope.afterDirective
          (session source options calls).scope :=
      scope_parse _
    rw [plain, Scope.foldl_afterDirective] at scope
    have context : (session source options (calls + 1)).context = _ :=
      congrArg Scope.context scope
    rw [scope, context]
    refine ⟨rfl, ?_⟩
    dsimp only
    rw [Bool.or_eq_true, strict, List.contains_iff_mem, or_assoc, Nat.exists_lt_succ_right]

/-- At the end of the text parses go no further. -/
theorem cursor_afterParses (ended : state.cursor.rest = []) (calls : Nat) :
    (state.afterParses calls).cursor = state.cursor := by
  induction calls with
  | zero => rfl
  | succ calls ih =>
    rw [← ih] at ended
    obtain ⟨last, run, same⟩ := Grammar.script_of_nil ended
    rw [afterParses, parse_snd, stateAfter, run]
    exact same.trans ih

/-- After a parse that succeeds, every other one finds an empty program with the same span. -/
theorem parse_of_parse (accepted : state.parse.1 = .ok program) (more : Nat) :
    (state.parse.2.afterParses more).parse.1 = .ok ⟨[], program.span⟩ := by
  obtain ⟨after, run⟩ := parse_fst_eq_ok.mp accepted
  obtain ⟨ended, span⟩ := Grammar.ended_of_script run
  have here : state.parse.2 = after := by rw [parse_snd, stateAfter, run]
  have stays := cursor_afterParses ended more
  rw [← stays] at ended span
  obtain ⟨last, again, _⟩ := Grammar.script_of_nil ended
  rw [here, span]
  exact parse_fst_eq_ok.mpr ⟨last, again⟩

/-- Between the calls of a parser, whether they succeed or fail, there are no labels and no context
but strictness, which the options or a recognised directive have brought about. Within a call every
production restores its surroundings, and directives change nothing but strictness. After a call
that succeeds there is nothing left to read. -/
theorem restored_of_session (source : String) (options : Options) :
    (∀ calls, (session source options calls).labels = {} ∧
      (session source options calls).context =
        { strict := (session source options calls).context.strict } ∧
      ((session source options calls).context.strict = true ↔
        options.strict = true ∨
          ∃ call < calls, "use strict" ∈ (session source options call).recognised)) ∧
      (∀ budget,
        (∀ {α : Type} (action : Parse α),
          Grammar.IsProduction (.ofBudget budget) action → action.Restores) ∧
        ∀ turns state,
          (stateAfter (Grammar.directives (Nonterminals.ofBudget budget).statement turns)
            state).scope =
          (Grammar.recognised (Nonterminals.ofBudget budget).statement turns state).foldl
            Scope.afterDirective state.scope) ∧
      ∀ call program, (session source options call).parse.1 = .ok program →
        (session source options call).recognised = program.directives ∧
        ∀ later, call < later →
          (session source options later).parse.1 = .ok ⟨[], program.span⟩ := by
  refine ⟨?_, ?_, ?_⟩
  · intro calls
    obtain ⟨scope, strict⟩ := scope_session source options calls
    exact ⟨congrArg Scope.labels scope, congrArg Scope.context scope, strict⟩
  · intro budget
    have nested := Nonterminals.isBalanced_ofBudget budget
    exact ⟨fun _ production => (production.isBalanced nested).restores,
      Grammar.scope_directives nested.statement.restores⟩
  · intro call program accepted
    obtain ⟨after, run⟩ := parse_fst_eq_ok.mp accepted
    refine ⟨Grammar.recognised_of_script run, ?_⟩
    intro later earlier
    obtain ⟨more, rfl⟩ := Nat.exists_eq_add_of_le earlier
    have apart : session source options (call + 1 + more) =
        (session source options call).parse.2.afterParses more :=
      afterParses_add _ (call + 1) more
    rw [apart]
    exact parse_of_parse accepted more

/-- A fault inside a loop with a label, and a text that is accepted. -/
theorem restored_of_fault :
    (session "'use strict'; a: while (b) + ;" {} 0).parse.1.toBool = false ∧
      (session "'use strict'; a: while (b) + ;" {} 1).labels = {} ∧
      (session "'use strict'; a: while (b) + ;" {} 1).context = { strict := true } ∧
      ∃ program, (session "a" {} 0).parse.1 = .ok program ∧
        (session "a" {} 1).parse.1 = .ok ⟨[], program.span⟩ := by
  have said : "use strict" ∈ (session "'use strict'; a: while (b) + ;" {} 0).recognised := by
    decide +kernel
  obtain ⟨between, _, _⟩ := restored_of_session "'use strict'; a: while (b) + ;" {}
  obtain ⟨labels, context, strict⟩ := between 1
  rw [strict.mpr (.inr ⟨0, Nat.zero_lt_one, said⟩)] at context
  obtain ⟨program, accepted⟩ :=
    exists_of_toBool (by decide +kernel : (EcmaScript.parse "a" {}).toBool = true)
  obtain ⟨_, _, behind⟩ := restored_of_session "a" {}
  exact ⟨by decide +kernel, labels, context, program, accepted,
    (behind 0 program accepted).2 1 Nat.zero_lt_one⟩

end State

end EcmaScript
