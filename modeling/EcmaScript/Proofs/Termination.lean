import EcmaScript.Proofs.Progress

/-!
# Every parse ends

All constructs by which the grammar is recursive go on behind the token they begin at, down from the
statements of a script. The end of the text is never consumed, no text runs out of the budget, and no
more tokens are looked for than there are characters, and the end.
-/

namespace EcmaScript

open Parse Grammar EcmaScript.Alignment

/-! ### Recursion -/

namespace Grammar

/-- The constructs of a budget are written over those of the budget below, which they run behind
their first token only. -/
structure RecursesBehind (budget : Nat) (state : State) : Prop where
  expression : (Nonterminals.ofBudget budget).RecursesBehind state expression
  assignment : (Nonterminals.ofBudget budget).RecursesBehind state assignment
  unary : (Nonterminals.ofBudget budget).RecursesBehind state unary
  operators : ∀ {operator} start tier left, state.operator? = some operator →
    tier ≤ operator.precedence →
    (Nonterminals.ofBudget budget).RecursesBehind state (operators · start tier budget left)
  callee : (Nonterminals.ofBudget budget).RecursesBehind state (leftHandSide · false)
  statement : (Nonterminals.ofBudget budget).RecursesBehind state statement
  listItem : (Nonterminals.ofBudget budget).RecursesBehind state listItem

theorem recursesBehind_of_isProper {budget : Nat} {state : State}
    (proper : state.point.IsProper) (less : state.ahead < budget) :
    RecursesBehind budget state where
  expression := recursesBehind proper (Nat.le_of_lt less)
    (fun settles => settles_expression settles (Nat.le_refl _)) follows_expression (fun _ => rfl)
    Expression.relocate_id
  assignment := recursesBehind proper (Nat.le_of_lt less)
    (fun settles => settles_assignment settles (Nat.le_refl _)) follows_assignment (fun _ => rfl)
    Expression.relocate_id
  unary := recursesBehind proper (Nat.le_of_lt less)
    (fun settles => settles_unary settles (Nat.le_refl _)) follows_unary (fun _ => rfl)
    Expression.relocate_id
  operators _ _ _ found higher := recursesBehind proper (Nat.le_of_lt less)
    (fun settles => settles_operators_of_operator settles (Nat.le_refl _) less found higher)
    (fun nested => (follows_operators nested rfl (Nat.le_refl _) rfl).2 _ higher)
    (fun _ => if_pos found) Expression.relocate_id
  callee := recursesBehind proper (Nat.le_of_lt less)
    (fun settles => settles_leftHandSide settles (Nat.le_refl _))
    (fun nested => follows_leftHandSide nested) (fun _ => rfl) Expression.relocate_id
  statement := recursesBehind proper (Nat.le_of_lt less)
    (fun settles => settles_statement settles (Nat.le_refl _)) follows_statement (fun _ => rfl)
    Statement.relocate_id
  listItem := recursesBehind proper (Nat.le_of_lt less)
    (fun settles => settles_listItem settles (Nat.le_refl _)) follows_listItem (fun _ => rfl)
    Statement.relocate_id

/-- The statements of a script are read at points that a parse can come to, and with no more text
ahead than at their beginning. -/
theorem topLevel_onlyAt {budget : Nat} {state : State} (proper : state.point.IsProper)
    (less : state.ahead < budget) :
    outcome (topLevel ((Nonterminals.ofBudget budget).onlyAt fun point =>
        point.IsProper ∧ point.ahead ≤ state.ahead) budget) state =
      outcome (topLevel (.ofBudget budget) budget) state := by
  have nested : ((Nonterminals.ofBudget budget).onlyAt fun _ => True).Follows
      (.from state.point state.options.allowReturnOutsideFunction)
      ((Nonterminals.ofBudget budget).onlyAt fun point =>
        point.IsProper ∧ point.ahead ≤ state.ahead) := by
    apply (Nonterminals.follows_ofBudget (Nat.le_refl budget)).onlyAt
    intro phase first second related _
    have level : second.point = first.point := related.level trivial
    obtain ⟨properToo, apart, bound⟩ := related.reached
    rw [level]
    refine ⟨properToo, ?_⟩
    change first.point.ahead ≤ state.point.ahead
    omega
  rw [Nonterminals.onlyAt_true] at nested
  exact outcome_of_follows (follows_topLevel nested rfl (Nat.le_refl _))
    (List.map_id'' Statement.relocate_id) (.refl proper)
    (settles_topLevel (Nonterminals.settles_ofBudget budget) less)

end Grammar

/-! ### Tokens that are looked for -/

/-- The causes for which no token is found. -/
def Cause.isOfToken (cause : Cause) : Bool :=
  cause.category == .lexical && !cause.isOfRegularExpression

/-- A token has been found. -/
def Event.isScanned : Event → Bool
  | .scanned _ => true
  | _ => false

/-- A parse ends when no token is found. -/
def endsInSearch : Except Fault Program → Bool
  | .ok _ => false
  | .error fault => fault.cause.isOfToken

/-- How often the next token is looked for when a text is read: once for each token that is found,
and once more if none is. -/
def searches (source : String) (options : Options) : Nat :=
  let (result, after) := (State.ofSource source options).parse
  after.events.countP Event.isScanned + (endsInSearch result).toNat

/-- No token is found any more. -/
theorem Point.Fails.scanned {fault : Fault} {before last : Point} (fails : before.Fails fault last) :
    last.scanned = before.scanned := by
  cases fails <;> rfl

/-- A parse that ends in the search for a token is one that its cause tells apart. -/
theorem Point.Fails.isOfToken_iff {fault : Fault} {before last : Point}
    (fails : before.Fails fault last) :
    fault.cause.isOfToken = true ↔ before.lookahead.lexeme ≠ .endOfFile ∧
      ∃ cursor, Scan.token before.cursor = .error fault cursor ∧ last = { before with cursor } := by
  have isOfToken : ∀ {cursor after : Cursor}, Scan.token cursor = .error fault after →
      fault.cause.isOfToken = true := by
    intro cursor after scanned
    obtain ⟨lexical, token⟩ := Scan.lexical_of_token scanned
    rw [Cause.isOfToken, lexical, token]
    rfl
  cases fails with
  | here grammatical =>
    refine iff_of_false ?_ fun ⟨_, _, scanned, _⟩ =>
      grammatical (Scan.lexical_of_token scanned).1
    rw [Cause.isOfToken, Bool.and_eq_true, beq_iff_eq]
    exact fun both => grammatical both.1
  | token inside scanned =>
    exact iff_of_true (isOfToken scanned) ⟨inside, _, scanned, rfl⟩
  | regularExpression slash scanned =>
    have expression := (Scan.lexical_of_regularExpression scanned).2
    refine iff_of_false ?_ fun ⟨_, _, scannedToo, _⟩ => ?_
    · rw [Cause.isOfToken, expression, Bool.not_true, Bool.and_false]
      exact Bool.false_ne_true
    · rw [(Scan.lexical_of_token scannedToo).2] at expression
      cases expression

theorem Event.countP_isScanned_le (events : List Event) :
    events.countP isScanned ≤ (tokens events).length := by
  induction events with
  | nil => exact Nat.le_refl _
  | cons event events ih =>
    cases event with
    | scanned => simpa [List.countP_cons, isScanned, tokens] using ih
    | reread =>
      simp only [List.countP_cons, isScanned, tokens, List.length_cons, List.length_tail,
        Bool.false_eq_true, if_false]
      omega
    | began | strictDirective | ended => simpa [List.countP_cons, isScanned, tokens] using ih

section Texts

variable {source : String} {options : Options}

/-- The first token is looked for in the text. -/
theorem State.isIn_opening : (ofSource source options).opening.IsIn source := by
  unfold opening
  split
  · exact (Cursor.IsIn.atStart source).passHashbang
  · exact .atStart source

theorem State.isProper_begun {token : Token} {cursor : Cursor}
    (scanned : Scan.token (ofSource source options).opening = .ok token cursor) :
    ((ofSource source options).begun token cursor).point.IsProper :=
  ⟨rfl, Point.text_ne_of_token scanned, by rintro _ ⟨⟩⟩

theorem State.ahead_begun {token : Token} {cursor : Cursor}
    (scanned : Scan.token (ofSource source options).opening = .ok token cursor) :
    ((ofSource source options).begun token cursor).ahead ≤ source.length :=
  Nat.le_trans (Scan.rest_of_token scanned) (rest_opening source options)

/-- The statements of a script are compared with themselves, for what is known of all points that a
parse of them comes to. -/
theorem follows_from (state : State) (budget : Nat) :
    (Alignment.from state.point state.options.allowReturnOutsideFunction).Follows .inside .inside
      False (topLevel (.ofBudget budget) budget) (topLevel (.ofBudget budget) budget)
      (Alignment.from state.point state.options.allowReturnOutsideFunction).Marks :=
  follows_topLevel (Nonterminals.follows_ofBudget (Nat.le_refl _)) rfl (Nat.le_refl _)

/-- When a text is read, either not even its first token is found, or the tokens are those of a point
to which a parse comes from the first one, and in front of the end if another one is looked for. -/
theorem State.comesFrom_of_parse {result : Except Fault Program} {after : State}
    (run : (ofSource source options).parse = (result, after)) :
    Event.tokens after.events = [] ∨
      ∃ token cursor point,
        Scan.token (ofSource source options).opening = .ok token cursor ∧
        ((ofSource source options).begun token cursor).point.ComesFrom point ∧
        point.scanned = after.point.scanned ∧
        (endsInSearch result = true → point.lookahead.lexeme ≠ .endOfFile) := by
  cases result with
  | ok program =>
    obtain ⟨token, cursor, last, scanned, runTop, -, -, same⟩ := exists_topLevel_of_parse run
    have reached := ((follows_from _ _).heeds (.refl (isProper_begun scanned)) runTop).1
    refine .inr ⟨token, cursor, _, scanned, reached, congrArg Point.scanned same, ?_⟩
    rintro ⟨⟩
  | error fault =>
    rcases exists_fault_of_parse run with ⟨-, none⟩ | ⟨token, cursor, scanned, runTop⟩
    · exact .inl none
    · have possible := possible_of_parse (congrArg Prod.fst run)
      obtain ⟨point, reached, fails, -⟩ :=
        (follows_from _ _).fails (.refl (isProper_begun scanned)) runTop possible
      refine .inr ⟨token, cursor, point, scanned, reached, ?_, ?_⟩
      · exact fails.scanned.symm
      · intro isOfToken
        exact (fails.isOfToken_iff.mp isOfToken).1

/-- The end of the text is not consumed. -/
theorem State.consumed_of_parse :
    ∀ token ∈ (ofSource source options).parse.2.consumed, token.lexeme ≠ .endOfFile := by
  intro token member
  rw [State.consumed, List.mem_reverse] at member
  cases run : (ofSource source options).parse with
  | mk result after =>
    rw [run] at member
    rcases comesFrom_of_parse run with none | ⟨_, _, point, _, comes, same, _⟩
    · rw [none] at member
      cases member
    · refine comes.1.2.2 token ?_
      rw [same]
      exact member

/-- For every token that is looked for there is a character, or the end. -/
theorem searches_le : searches source options ≤ source.length + 1 := by
  cases run : (State.ofSource source options).parse with
  | mk result after =>
    have counted := Event.countP_isScanned_le after.events
    have once := Bool.toNat_le (endsInSearch result)
    rw [searches, run]
    dsimp only
    rcases State.comesFrom_of_parse run with
      none | ⟨token, cursor, point, scanned, comes, same, inside⟩
    · rw [none, List.length_nil] at counted
      omega
    · have bound := comes.2.2
      have ahead : ((State.ofSource source options).begun token cursor).point.ahead ≤
          source.length := State.ahead_begun scanned
      have first : ((State.ofSource source options).begun token cursor).point.scanned.length = 1 :=
        rfl
      have tokens : (Event.tokens after.events).length = point.scanned.length :=
        congrArg List.length same.symm
      cases search : endsInSearch result with
      | false =>
        rw [Bool.toNat_false]
        omega
      | true =>
        have some := Token.width_pos (inside search)
        have width : point.lookahead.width ≤ point.ahead := Nat.le_add_left _ _
        rw [Bool.toNat_true]
        omega

/-- Reading a text ends with a result or with a fault of the text. It never consumes the end, and
looks for the next token no more often than there are characters, and once for the end. Wherever its
statements and their parts are read they progress, their lists are read turn by turn, and what is
nested in them is read behind their first token. -/
theorem progress_of_parse (source : String) (options : Options) :
    (∀ fault, parse source options = .error fault → fault.cause ≠ .exhausted) ∧
    (∀ token ∈ (State.ofSource source options).parse.2.consumed, token.lexeme ≠ .endOfFile) ∧
    searches source options ≤ source.length + 1 ∧
    (∀ token cursor, Scan.token (State.ofSource source options).opening = .ok token cursor →
      ((State.ofSource source options).begun token cursor).point.IsProper ∧
      ((State.ofSource source options).begun token cursor).ahead ≤ source.length ∧
      outcome (topLevel ((Nonterminals.ofBudget (source.length + 2)).onlyAt fun point =>
          point.IsProper ∧
            point.ahead ≤ ((State.ofSource source options).begun token cursor).ahead)
          (source.length + 2)) ((State.ofSource source options).begun token cursor) =
        outcome (topLevel (.ofBudget (source.length + 2)) (source.length + 2))
          ((State.ofSource source options).begun token cursor)) ∧
    ∀ budget state, state.point.IsProper →
      (state.ahead < budget →
        Progresses (.ofBudget budget) state ∧ Grammar.RecursesBehind budget state) ∧
      (state.ahead + 1 < budget → ListsTakeTurns (.ofBudget budget) state) := by
  refine ⟨fun _ => possible_of_parse, State.consumed_of_parse, searches_le, ?_, ?_⟩
  · intro token cursor scanned
    have proper := State.isProper_begun scanned
    have ahead := State.ahead_begun scanned
    exact ⟨proper, ahead, topLevel_onlyAt proper (by omega)⟩
  · intro budget state proper
    have nested := Nonterminals.settles_ofBudget budget
    exact ⟨fun less => ⟨progresses_of_settles nested less proper,
      recursesBehind_of_isProper proper less⟩, listsTakeTurns_of_settles nested⟩

end Texts

end EcmaScript
