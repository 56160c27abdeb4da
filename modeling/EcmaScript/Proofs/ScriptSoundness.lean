import EcmaScript.Grammar.Script
import EcmaScript.Proofs.StatementSoundness

/-!
# Scripts follow the rules

The productions are tied together by a budget, and by induction on it all constructs of the grammar
follow the rules. So does a whole script: whenever a parse succeeds, the tokens that it consumed can
be read as the statements of its program, and the end of the text comes after them.
-/

namespace EcmaScript

open Parse Grammar

/-- The constructs of the grammar, written over some constructs that are nested in them. -/
def Nonterminals.above (self : Nonterminals) (budget : Nat) : Nonterminals where
  turns := budget + 1
  expression := Grammar.expression self
  assignment := Grammar.assignment self
  unary := Grammar.unary self
  operators start tier := Grammar.operators self start tier budget
  callee := Grammar.leftHandSide self false
  statement := Grammar.statement self
  listItem := Grammar.listItem self

theorem Nonterminals.turns_ofBudget (budget : Nat) : (ofBudget budget).turns = budget := by
  cases budget with
  | zero => rfl
  | succ budget => rfl

theorem Nonterminals.Sound.above {self : Nonterminals} (sound : self.Sound) (budget : Nat) :
    (self.above budget).Sound where
  expression := sound_expression sound
  assignment := sound_assignment sound
  unary := sound_unary sound
  operators tier _ _ _ _ so reads := ensures_operators sound tier budget so reads
  callee := sound_leftHandSide sound false
  statement := sound_statement sound
  listItem := sound_listItem sound

theorem Nonterminals.sound_ofBudget (budget : Nat) : (ofBudget budget).Sound := by
  induction budget with
  | zero =>
    constructor
    · exact fun _ => ensures_exhausted
    · exact fun _ => ensures_exhausted
    · exact fun _ => ensures_exhausted
    · exact fun _ _ _ _ _ _ _ => ensures_exhausted
    · exact fun _ => ensures_exhausted
    · exact fun _ => ensures_exhausted
    · exact fun _ => ensures_exhausted
  | succ budget ih => exact ih.above budget

namespace Grammar

/-- Statements up to the end of the text. -/
theorem sound_topLevel {self : Nonterminals} (sound : self.Sound) :
    (itemsUntil (· == .endOfFile) self.listItem self.turns).Sound
      fun scope statements tokens next =>
        Reads scope (.statements statements) tokens next ∧ next.kind = .endOfFile := by
  apply sound.listItem.itemsUntil
  · intro scope next ended
    have ended : next.kind = .endOfFile := by simpa using ended
    exact ⟨.statementsNone (by simp [ended, endsStatements]), ended⟩
  · rintro scope first follower others next tokens rest reads opens _ ⟨readsOthers, ended⟩
    exact ⟨.statementsMore reads opens readsOthers, ended⟩

/-- A script begins with its first token, behind a hashbang line or not. -/
structure Begins (state first : State) : Prop where
  scope : first.scope = state.scope
  scanned : Scan.token state.cursor = .ok first.lookahead first.cursor ∨
    Scan.token state.cursor.passHashbang = .ok first.lookahead first.cursor
  events : Event.tokens first.events = first.lookahead :: Event.tokens state.events

/-- The tokens from the first one to the end of the text are those of a program. -/
structure IsScript (first : State) (tokens : List Token) (program : Program) (after : State) :
    Prop where
  passes : first.point.Passes tokens after.point
  reads : Reads first.scope (.body program.body) tokens after.lookahead
  ended : after.lookahead.kind = .endOfFile
  span : program.span = ⟨.first, after.lookahead.span.stop⟩

/-- The tokens of a script are those that have been consumed, if nothing was consumed before. -/
theorem IsScript.consumed {first after : State} {tokens : List Token} {program : Program}
    (isScript : IsScript first tokens program after)
    (latest : Event.tokens first.events = [first.lookahead]) : after.consumed = tokens := by
  have scanned := isScript.passes.scanned latest
  change Event.tokens after.events = after.lookahead :: (tokens.reverse ++ []) at scanned
  simp [State.consumed, scanned]

/-- The beginning of a script, up to its first token. -/
def beginning : Parse Nonterminals := do
  let length := (← get).cursor.sourceLength
  record (.began length)
  if (← get).options.allowHashbang then
    modify fun state => { state with cursor := state.cursor.passHashbang }
  let first ← fetch
  modify fun state => { state with lookahead := first }
  return .ofBudget (length + 2)

/-- The statements of a script, from its first token to the end of the text. -/
def wholeBody (self : Nonterminals) : Parse Program := do
  let opening ← directives self.statement self.turns
  let others ← itemsUntil (· == .endOfFile) self.listItem self.turns
  let body := opening ++ others
  record (.ended body.length)
  return ⟨body, .first, (← lookahead).span.stop⟩

theorem script_eq : script = beginning >>= wholeBody := by
  unfold script beginning wholeBody
  rw [bind_assoc]
  congr 1
  funext state
  dsimp only
  rw [bind_assoc]
  congr 1
  funext _
  rw [bind_assoc]
  congr 1
  funext between
  split <;> simp only [bind_assoc, pure_bind]

theorem beginning_eq (state : State) :
    beginning state =
      (do
        let first ← fetch
        modify fun state => { state with lookahead := first }
        return .ofBudget (state.cursor.sourceLength + 2) : Parse Nonterminals)
      { state with
        cursor := if state.options.allowHashbang then state.cursor.passHashbang else state.cursor
        events := .began state.cursor.sourceLength :: state.events } := by
  rw [beginning]
  cases hashbang : state.options.allowHashbang with
  | true => exact congrFun (if_pos hashbang) _
  | false => exact congrFun (if_neg (by simp [hashbang])) _

theorem ensures_beginning (state : State) : beginning.Ensures state fun self first =>
    self = .ofBudget (state.cursor.sourceLength + 2) ∧ Begins state first := by
  rw [ensures_of_eq (beginning_eq state)]
  apply ensures_fetch
  intro token cursor scanned
  rw [ensures_modify, ensures_pure]
  refine ⟨rfl, rfl, ?_, rfl⟩
  dsimp only at scanned
  split at scanned
  · exact .inr scanned
  · exact .inl scanned

theorem ensures_wholeBody {self : Nonterminals} (sound : self.Sound) (first : State) :
    (wholeBody self).Ensures first fun program after =>
      ∃ tokens, IsScript first tokens program after := by
  rw [wholeBody, ensures_bind]
  constructor
  intro opening middle run
  obtain ⟨_, tokens, passes, extended⟩ := (ensures_directives sound _ _).of_ok run
  apply (sound_topLevel sound).step (.refl middle)
  rintro others rest last consumed opens ⟨reads, ended⟩
  rw [ensures_record, ensures_lookahead, ensures_pure]
  exact ⟨_, passes.append consumed.passes, extended others rest _ opens reads, ended, rfl⟩

theorem ensures_script (state : State) : script.Ensures state fun program after =>
    ∃ first tokens, Begins state first ∧ IsScript first tokens program after := by
  rw [script_eq, ensures_bind]
  constructor
  intro self first run
  obtain ⟨rfl, begins⟩ := (ensures_beginning state).of_ok run
  constructor
  intro program after body
  obtain ⟨tokens, isScript⟩ :=
    (ensures_wholeBody (Nonterminals.sound_ofBudget _) first).of_ok body
  exact ⟨first, tokens, begins, isScript⟩

end Grammar

/-- The scope of the statements of a script. -/
def Scope.ofOptions (options : Options) : Scope :=
  ⟨{ strict := options.strict }, {}, options⟩

variable {source : String} {options : Options} {program : Program} {after : State}

theorem State.isScript_of_parse
    (accepted : (ofSource source options).parse = (.ok program, after)) :
    ∃ first, Begins (ofSource source options) first ∧
      IsScript first after.consumed program after := by
  have run : script (ofSource source options) = .ok program after := by
    unfold State.parse at accepted
    split at accepted
    · cases accepted
      assumption
    · cases accepted
  obtain ⟨first, tokens, begins, isScript⟩ := (ensures_script _).of_ok run
  rw [isScript.consumed begins.events]
  exact ⟨first, begins, isScript⟩

/-- The consumed tokens of a text that is accepted can be read as the statements of its program. -/
theorem State.reads_of_parse (accepted : (ofSource source options).parse = (.ok program, after)) :
    Reads (.ofOptions options) (.body program.body) after.consumed after.lookahead := by
  obtain ⟨first, begins, isScript⟩ := isScript_of_parse accepted
  have reads := isScript.reads
  rw [begins.scope] at reads
  exact reads

/-- Whether a text is accepted can be computed. -/
theorem exists_of_toBool (accepted : (parse source options).toBool = true) :
    ∃ program, parse source options = .ok program := by
  cases result : parse source options with
  | error => simp [result, Except.toBool] at accepted
  | ok program => exact ⟨program, rfl⟩

theorem exists_of_parse (accepted : parse source options = .ok program) :
    ∃ after, (State.ofSource source options).parse = (.ok program, after) :=
  ⟨_, Prod.ext accepted rfl⟩

end EcmaScript
