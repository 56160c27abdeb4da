import EcmaScript.Proofs.Relocation
import EcmaScript.Proofs.Restriction

/-!
# Parses of related texts

A second parse follows a first one when it makes the same choices on another text. Most of the time
the two are level: their tokens of lookahead match. Where the texts part for a while, the second
parse stands at an edge, in front of a semicolon or a closing brace that ends whatever the first
parse has begun; the first one sees some other token there and does not consume it. Whether it will
consume the token comes out only later, so the comparison may use what is known to lie ahead of the
first parse: an action that succeeds in front of what lies ahead began in front of it too.
-/

namespace EcmaScript

/-- The statements that end with a semicolon, or where one is inserted. -/
def Statement.isTerminated : Statement → Bool
  | .expression .. | .variables _ | .breakTo .. | .continueTo .. | .returnValue ..
  | .throwValue .. | .debugger _ => true
  | _ => false

/-- A node is a statement that ends, with its semicolon or without, at one of some positions. -/
def Node.IsTerminatedAt (ends : Position → Prop) : Node → Prop
  | .statement item => item.isTerminated = true ∧ ends item.span.stop
  | _ => False

/-- A statement in the tree of a root ends, with its semicolon or without, at one of some positions.
-/
def Node.HasTerminated (ends : Position → Prop) (root : Node) : Prop :=
  ∃ path node, root.Occurs path node ∧ node.IsTerminatedAt ends

/-- One of some nodes has such a statement. -/
def Node.AnyTerminated (ends : Position → Prop) (nodes : List Node) : Prop :=
  ∃ node ∈ nodes, node.HasTerminated ends

namespace Node

variable {ends : Position → Prop}

theorem hasTerminated_iff (root : Node) :
    root.HasTerminated ends ↔ root.IsTerminatedAt ends ∨ AnyTerminated ends root.children := by
  constructor
  · rintro ⟨path, node, occurs, terminated⟩
    rcases occurs.cases_root with ⟨rfl, rfl⟩ | ⟨child, member, below, inside, rfl⟩
    · exact .inl terminated
    · exact .inr ⟨child, member, below, node, inside, terminated⟩
  · rintro (terminated | ⟨child, member, path, node, occurs, terminated⟩)
    · exact ⟨[], root, .root, terminated⟩
    · exact ⟨_, node, occurs.of_child member, terminated⟩

@[simp] theorem anyTerminated_nil : ¬AnyTerminated ends [] := by
  simp [AnyTerminated]

@[simp] theorem anyTerminated_cons {node : Node} {nodes : List Node} :
    AnyTerminated ends (node :: nodes) ↔ node.HasTerminated ends ∨ AnyTerminated ends nodes := by
  simp [AnyTerminated]

@[simp] theorem anyTerminated_append {front back : List Node} :
    AnyTerminated ends (front ++ back) ↔ AnyTerminated ends front ∨ AnyTerminated ends back := by
  simp [AnyTerminated, or_and_right, exists_or]

/-- Names have no parts. -/
theorem not_hasTerminated_of_leaf {node : Node} (alone : node.children = [])
    (plain : ¬node.IsTerminatedAt ends) : ¬node.HasTerminated ends := by
  rw [hasTerminated_iff, alone]
  simp [plain]

@[simp] theorem not_hasTerminated_binding {name : Identifier} :
    ¬(binding name).HasTerminated ends :=
  not_hasTerminated_of_leaf rfl id

@[simp] theorem not_hasTerminated_name {identifier : Identifier} :
    ¬(name identifier).HasTerminated ends :=
  not_hasTerminated_of_leaf rfl id

@[simp] theorem not_hasTerminated_label {name : Identifier} : ¬(label name).HasTerminated ends :=
  not_hasTerminated_of_leaf rfl id

@[simp] theorem not_hasTerminated_key {item : PropertyKey} : ¬(key item).HasTerminated ends :=
  not_hasTerminated_of_leaf rfl id

@[simp] theorem not_anyTerminated_bindings {names : List Identifier} :
    ¬AnyTerminated ends (names.map binding) := by
  simp [AnyTerminated]

@[simp] theorem not_anyTerminated_labels {names : List Identifier} :
    ¬AnyTerminated ends (names.map label) := by
  simp [AnyTerminated]

end Node

/-- Tokens that mean the same, at places that are brought together by two moves. -/
structure Token.Matches (left right : Position → Position) (first second : Token) : Prop where
  lexeme : second.lexeme = first.lexeme
  flags : second.flags = first.flags
  text : second.text = first.text
  span : first.span.relocate left = second.span.relocate right

namespace Token.Matches

variable {left right : Position → Position} {first second : Token}

theorem kind (same : first.Matches left right second) : second.kind = first.kind :=
  congrArg Lexeme.kind same.lexeme

theorem name? (same : first.Matches left right second) : second.name? = first.name? :=
  congrArg Lexeme.name? same.lexeme

theorem unexpected (same : first.Matches left right second) :
    second.unexpected = first.unexpected := by
  rw [Token.unexpected, Token.unexpected, same.kind, same.name?]

theorem start (same : first.Matches left right second) :
    left first.span.start = right second.span.start :=
  congrArg Span.start same.span

end Token.Matches

/-- Two actions of the scanner end alike: both with a token, and then the tokens and the cursors
behind them are related, or both with a fault, and then the faults are. -/
inductive Scan.EndAlike (tokens : Token → Token → Prop) (cursors : Cursor → Cursor → Prop)
    (faults : Fault → Fault → Prop) :
    EStateM.Result Fault Cursor Token → EStateM.Result Fault Cursor Token → Prop where
  | ok {token other : Token} {after last : Cursor} : tokens token other → cursors after last →
      EndAlike tokens cursors faults (.ok token after) (.ok other last)
  | error {fault other : Fault} {after last : Cursor} : faults fault other →
      EndAlike tokens cursors faults (.error fault after) (.error other last)

namespace Scan.EndAlike

variable {tokens : Token → Token → Prop} {cursors : Cursor → Cursor → Prop}
  {faults : Fault → Fault → Prop} {first second : EStateM.Result Fault Cursor Token}
  {after : Cursor} (alike : EndAlike tokens cursors faults first second)
include alike

theorem exists_ok {token : Token} (scanned : first = .ok token after) :
    ∃ other last, second = .ok other last ∧ tokens token other ∧ cursors after last := by
  subst scanned
  cases alike with
  | ok same behind => exact ⟨_, _, rfl, same, behind⟩

theorem exists_error {fault : Fault} (scanned : first = .error fault after) :
    ∃ other last, second = .error other last ∧ faults fault other := by
  subst scanned
  cases alike with
  | error same => exact ⟨_, _, rfl, same⟩

end Scan.EndAlike

/-- How a parse that has come to a point ends there with a fault: at once, for its grammar, or in
the scanner. -/
inductive Point.Fails (fault : Fault) (before : Point) : Point → Prop where
  | here : fault.cause.category ≠ .lexical → Fails fault before before
  | token {cursor : Cursor} : before.lookahead.lexeme ≠ .endOfFile →
      Scan.token before.cursor = .error fault cursor → Fails fault before { before with cursor }
  | regularExpression {front : List Char} {cursor : Cursor} :
      Scan.slash? before.lookahead.lexeme = some front →
      Scan.regularExpression before.lookahead front before.cursor = .error fault cursor →
      Fails fault before { before with cursor }

/-- A token that no expression, and no statement but the empty one and a block, can go on with. -/
def Token.IsClosing (token : Token) : Prop :=
  token.kind = .symbol Punctuator.semicolon ∨ token.kind = .symbol Punctuator.rightBrace

/-- How far a parse may come: up to an edge, or only in front of it. -/
inductive Extent where
  | inside | edge
  deriving DecidableEq

/-- How two parses are compared, by the points that they pass.

A phase is a condition that holds as soon as an edge lies behind. `Ahead` is what is known of the
future of the first parse, and `Level` and `Edge` relate points of both. `Doomed` is what is known
of the point at which the first parse ends with a fault that the second one has too. -/
structure Alignment where
  /-- Where the positions of the first parse are brought to. -/
  left : Position → Position
  /-- Where the positions of the second parse are brought to. -/
  right : Position → Position
  mate : Position → Position
  right_mate : ∀ position, right (mate position) = left position
  /-- `return` may stand outside of functions, in the first parse. -/
  firstReturns : Bool
  /-- `return` may stand outside of functions, in the second parse. -/
  secondReturns : Bool
  /-- How far statements come. -/
  extent : Extent
  /-- The ends of the statements after which an edge lies behind. -/
  Ends : Position → Prop
  Reached : Point → Prop
  Ahead : Extent → Prop → Point → Prop
  Doomed : Fault → Point → Prop
  Level : Prop → Point → Point → Prop
  Edge : Point → Point → Prop
  reached_of_advances : ∀ {before after}, Reached before → before.Advances after → Reached after
  reached_of_rereads : ∀ {before after}, Reached before → before.Rereads after → Reached after
  ahead_weaken : ∀ {phase point}, Ahead .inside phase point → Ahead .edge phase point
  ahead_of_advances : ∀ {phase before after}, Reached before → before.Advances after →
    Ahead .edge phase after → Ahead .inside phase before
  ahead_of_rereads : ∀ {phase before after}, Reached before → before.Rereads after →
    Ahead .inside phase after → Ahead .inside phase before
  ahead_of_ends : ∀ {phase point}, Reached point →
    Ahead extent (phase ∨ Ends point.consumedEnd) point → Ahead .edge phase point
  ahead_of_doomed : ∀ {phase point fault last}, Reached point → point.Fails fault last →
    Doomed fault last → Ahead .inside phase point
  matches_of_level : ∀ {phase first second}, Level phase first second →
    first.lookahead.Matches left right second.lookahead
  consumedEnd_of_level : ∀ {phase first second}, Level phase first second →
    left first.consumedEnd = right second.consumedEnd
  ends_of_level : ∀ {phase first second}, Level phase first second →
    Ends first.consumedEnd → phase
  advances : ∀ {phase first second after}, Level phase first second → Reached first →
    first.Advances after → Ahead .edge phase after →
    ∃ other, second.Advances other ∧
      (Level phase after other ∨ ¬phase ∧ Edge after other ∧
        (Ends after.consumedEnd → first.lookahead.kind ≠ .symbol Punctuator.semicolon))
  fault_of_token : ∀ {phase first second fault cursor}, Level phase first second →
    Reached first → first.lookahead.lexeme ≠ .endOfFile →
    Scan.token first.cursor = .error fault cursor → Doomed fault { first with cursor } →
    ∃ other last, Scan.token second.cursor = .error other last ∧ other.cause = fault.cause ∧
      left fault.position = right other.position
  rereads : ∀ {phase first second after}, Level phase first second → Reached first →
    first.Rereads after → Ahead .inside phase after →
    ∃ other, second.Rereads other ∧ Level phase after other
  fault_of_regularExpression : ∀ {phase first second front fault cursor},
    Level phase first second → Reached first →
    Scan.slash? first.lookahead.lexeme = some front →
    Scan.regularExpression first.lookahead front first.cursor = .error fault cursor →
    Doomed fault { first with cursor } →
    ∃ other last,
      Scan.regularExpression second.lookahead front second.cursor = .error other last ∧
      other.cause = fault.cause ∧ left fault.position = right other.position
  closing_of_edge : ∀ {first second}, Edge first second → second.lookahead.IsClosing
  phase_of_edge : ∀ {phase first second}, Edge first second → Ahead .inside phase first → phase
  consumedEnd_of_edge : ∀ {first second}, Edge first second →
    left first.consumedEnd = right second.consumedEnd
  ended_of_edge : ∀ {first second}, extent = .edge → Edge first second →
    first.lookahead.lexeme = .endOfFile ∧
      second.lookahead.kind = .symbol Punctuator.rightBrace
  semicolon_of_edge : ∀ {first second}, Edge first second →
    first.lookahead.kind ≠ .symbol Punctuator.semicolon →
    second.lookahead.kind = .symbol Punctuator.rightBrace ∧ ¬Ends first.consumedEnd ∨
      second.lookahead.kind = .symbol Punctuator.semicolon ∧ Ends first.consumedEnd ∧
        ∃ other, second.Advances other ∧ Level True first other

/-- How two parses are compared that never come to an edge, so that all points they reach together
are level. -/
structure Pairing where
  left : Position → Position
  right : Position → Position
  mate : Position → Position
  right_mate : ∀ position, right (mate position) = left position
  firstReturns : Bool
  secondReturns : Bool
  Reached : Point → Prop
  Ahead : Point → Prop
  Doomed : Fault → Point → Prop
  Level : Point → Point → Prop
  reached_of_advances : ∀ {before after}, Reached before → before.Advances after → Reached after
  reached_of_rereads : ∀ {before after}, Reached before → before.Rereads after → Reached after
  ahead_of_advances : ∀ {before after}, Reached before → before.Advances after → Ahead after →
    Ahead before
  ahead_of_rereads : ∀ {before after}, Reached before → before.Rereads after → Ahead after →
    Ahead before
  ahead_of_doomed : ∀ {point fault last}, Reached point → point.Fails fault last →
    Doomed fault last → Ahead point
  matches_of_level : ∀ {first second}, Level first second →
    first.lookahead.Matches left right second.lookahead
  consumedEnd_of_level : ∀ {first second}, Level first second →
    left first.consumedEnd = right second.consumedEnd
  advances : ∀ {first second after}, Level first second → Reached first →
    first.Advances after → Ahead after → ∃ other, second.Advances other ∧ Level after other
  fault_of_token : ∀ {first second fault cursor}, Level first second → Reached first →
    Scan.token first.cursor = .error fault cursor → Doomed fault { first with cursor } →
    ∃ other last, Scan.token second.cursor = .error other last ∧ other.cause = fault.cause ∧
      left fault.position = right other.position
  rereads : ∀ {first second after}, Level first second → Reached first →
    first.Rereads after → Ahead after → ∃ other, second.Rereads other ∧ Level after other
  fault_of_regularExpression : ∀ {first second front fault cursor}, Level first second →
    Reached first → Scan.slash? first.lookahead.lexeme = some front →
    Scan.regularExpression first.lookahead front first.cursor = .error fault cursor →
    Doomed fault { first with cursor } →
    ∃ other last,
      Scan.regularExpression second.lookahead front second.cursor = .error other last ∧
      other.cause = fault.cause ∧ left fault.position = right other.position

/-- A pairing as an alignment without edges. -/
def Pairing.alignment (pairing : Pairing) : Alignment where
  left := pairing.left
  right := pairing.right
  mate := pairing.mate
  right_mate := pairing.right_mate
  firstReturns := pairing.firstReturns
  secondReturns := pairing.secondReturns
  extent := .inside
  Ends _ := False
  Reached := pairing.Reached
  Ahead _ _ := pairing.Ahead
  Doomed := pairing.Doomed
  Level _ := pairing.Level
  Edge _ _ := False
  reached_of_advances := pairing.reached_of_advances
  reached_of_rereads := pairing.reached_of_rereads
  ahead_weaken := id
  ahead_of_advances := pairing.ahead_of_advances
  ahead_of_rereads := pairing.ahead_of_rereads
  ahead_of_ends _ := id
  ahead_of_doomed := pairing.ahead_of_doomed
  matches_of_level := pairing.matches_of_level
  consumedEnd_of_level := pairing.consumedEnd_of_level
  ends_of_level _ := False.elim
  advances level reached step ahead := by
    obtain ⟨other, stepToo, level⟩ := pairing.advances level reached step ahead
    exact ⟨other, stepToo, .inl level⟩
  fault_of_token level reached _ := pairing.fault_of_token level reached
  rereads := pairing.rereads
  fault_of_regularExpression := pairing.fault_of_regularExpression
  closing_of_edge := False.elim
  phase_of_edge := False.elim
  consumedEnd_of_edge := False.elim
  ended_of_edge _ := False.elim
  semicolon_of_edge := False.elim

/-- Positions that stay where they are have mates. -/
theorem Pairing.id_mate (position : Position) : id (id position) = id position := rfl

namespace Alignment

variable {α β : Type} [Located α] [Located β] (σ : Alignment)

/-- Values that are brought together. -/
def Same (first second : α) : Prop :=
  Located.relocate σ.left first = Located.relocate σ.right second

/-- An edge lies behind a statement in the value. -/
def Marks (value : α) : Prop :=
  Node.AnyTerminated σ.Ends (Located.nodes value)

/-- States of the two parses that have come equally far. -/
structure Related (phase : Prop) (first second : State) : Prop where
  reached : σ.Reached first.point
  points : σ.Level phase first.point second.point ∨ ¬phase ∧ σ.Edge first.point second.point
  context : { second.context with inFunction := first.context.inFunction } = first.context
  labels : second.labels = first.labels
  returns :
    (second.context.inFunction || second.options.allowReturnOutsideFunction) =
      (first.context.inFunction || first.options.allowReturnOutsideFunction)
  firstReturns : first.options.allowReturnOutsideFunction = σ.firstReturns
  secondReturns : second.options.allowReturnOutsideFunction = σ.secondReturns

/-- The second of two actions follows the first one.

`known` is what was found out of the phase before, and `after` what a result tells of it. -/
structure Follows (enter exit : Extent) (known : Prop) (first second : Parse α)
    (after : α → Prop) : Prop where
  heeds : ∀ {state value next}, σ.Reached state.point → first state = .ok value next →
    σ.Reached next.point ∧ (∃ result, σ.Same value result) ∧
      ∀ {phase}, σ.Ahead exit (phase ∨ after value) next.point →
        σ.Ahead enter (phase ∨ known) state.point
  ok : ∀ {phase state other value next}, σ.Related (phase ∨ known) state other →
    first state = .ok value next → σ.Ahead exit (phase ∨ after value) next.point →
    ∃ result last, second other = .ok result last ∧ σ.Same value result ∧
      σ.Related (phase ∨ after value) next last
  fails : ∀ {state fault next}, σ.Reached state.point → first state = .error fault next →
    fault.cause ≠ .exhausted → ∃ point, σ.Reached point ∧ point.Fails fault next.point ∧
      ((∀ {phase}, σ.Ahead .inside phase point) →
        ∀ {phase}, σ.Ahead enter (phase ∨ known) state.point)
  error : ∀ {phase state other fault next}, σ.Related (phase ∨ known) state other →
    first state = .error fault next → fault.cause ≠ .exhausted → σ.Doomed fault next.point →
    ∃ result last, second other = .error result last ∧ result.cause = fault.cause ∧
      σ.left fault.position = σ.right result.position

variable {σ}

/-- Spans are brought together when their ends are. -/
theorem Same.span {start opening stop closing : Position} (same : σ.Same start opening)
    (ends : σ.left stop = σ.right closing) : σ.Same (⟨start, stop⟩ : Span) ⟨opening, closing⟩ := by
  change Span.mk _ _ = Span.mk _ _
  rw [ends, show σ.left start = σ.right opening from same]

/-- In front of an edge the parses are level. -/
theorem Related.level {phase : Prop} {first second : State} (related : σ.Related phase first second)
    (ahead : σ.Ahead .inside phase first.point) : σ.Level phase first.point second.point := by
  rcases related.points with level | ⟨before, edge⟩
  · exact level
  · exact absurd (σ.phase_of_edge edge ahead) before

/-- Where the first parse ends with a fault the parses are level. -/
theorem Related.level_of_doomed {phase : Prop} {first second : State} {fault : Fault} {last : Point}
    (related : σ.Related phase first second) (fails : first.point.Fails fault last)
    (doomed : σ.Doomed fault last) : σ.Level phase first.point second.point :=
  related.level (σ.ahead_of_doomed related.reached fails doomed)

/-- An action that ends with a fault began in front of what lies ahead. -/
theorem Follows.ahead {enter exit : Extent} {known : Prop} {action other : Parse α}
    {after : α → Prop} (follows : σ.Follows enter exit known action other after) {state next : State}
    {fault : Fault} (reached : σ.Reached state.point) (run : action state = .error fault next)
    (possible : fault.cause ≠ .exhausted) (doomed : σ.Doomed fault next.point) (phase : Prop) :
    σ.Ahead enter (phase ∨ known) state.point := by
  obtain ⟨point, reachedPoint, fails, back⟩ := follows.fails reached run possible
  exact back (σ.ahead_of_doomed reachedPoint fails doomed)

theorem Related.consumedEnd {phase : Prop} {first second : State}
    (related : σ.Related phase first second) :
    σ.left first.consumedEnd = σ.right second.consumedEnd := by
  rcases related.points with level | ⟨_, edge⟩
  · exact σ.consumedEnd_of_level level
  · exact σ.consumedEnd_of_edge edge

theorem Related.strict {phase : Prop} {first second : State}
    (related : σ.Related phase first second) : second.context.strict = first.context.strict :=
  related.context ▸ rfl

theorem Related.congr {phase other : Prop} {first second : State} (same : phase ↔ other)
    (related : σ.Related phase first second) : σ.Related other first second :=
  propext same ▸ related

/-- Parses that are level see tokens that match. -/
theorem matches_of_states {phase : Prop} {first second : State}
    (level : σ.Level phase first.point second.point) :
    first.lookahead.Matches σ.left σ.right second.lookahead :=
  σ.matches_of_level level

/-- What lies ahead in front of an edge lies ahead up to it. -/
theorem ahead_of_inside {extent : Extent} {phase : Prop} {point : Point}
    (ahead : σ.Ahead .inside phase point) : σ.Ahead extent phase point := by
  cases extent with
  | inside => exact ahead
  | edge => exact σ.ahead_weaken ahead

/-- A token has a match. -/
theorem exists_matches (token : Token) : ∃ other, token.Matches σ.left σ.right other := by
  refine ⟨{ token with span := ⟨σ.mate token.span.start, σ.mate token.span.stop⟩ },
    rfl, rfl, rfl, ?_⟩
  simp only [Span.relocate, σ.right_mate]

end Alignment

namespace Parse

variable {α β : Type}

theorem bind_eq_error {action : Parse α} {rest : α → Parse β} {state after : State}
    {fault : Fault} :
    (action >>= rest) state = .error fault after ↔
      action state = .error fault after ∨
        ∃ value between, action state = .ok value between ∧
          rest value between = .error fault after := by
  constructor
  · intro run
    change EStateM.bind action rest state = _ at run
    unfold EStateM.bind at run
    split at run
    · rename_i value between first
      exact .inr ⟨value, between, first, run⟩
    · rename_i first
      cases run
      exact .inl first
  · rintro (first | ⟨value, between, first, second⟩)
    · change EStateM.bind action rest state = _
      rw [EStateM.bind, first]
    · change EStateM.bind action rest state = _
      rw [EStateM.bind, first]
      exact second

theorem scan_eq_error {action : Scan Token} {state after : State} {fault : Fault} :
    scan action state = .error fault after ↔
      ∃ cursor, action state.cursor = .error fault cursor ∧ { state with cursor } = after := by
  unfold scan
  constructor
  · intro run
    split at run
    · contradiction
    · rename_i found
      cases run
      exact ⟨_, found, rfl⟩
  · rintro ⟨cursor, found, rfl⟩
    rw [found]

theorem consume_eq_error {state after : State} {fault : Fault} :
    consume state = .error fault after ↔
      ∃ cursor, Scan.token state.cursor = .error fault cursor ∧ { state with cursor } = after := by
  unfold consume fetch
  rw [bind_assoc, bind_eq_error, scan_eq_error]
  constructor
  · rintro (found | ⟨token, between, _, rest⟩)
    · exact found
    · cases rest
  · exact .inl

theorem reread_eq_error {front : List Char} {state after : State} {fault : Fault} :
    reread front state = .error fault after ↔
      ∃ cursor, Scan.regularExpression state.lookahead front state.cursor = .error fault cursor ∧
        { state with cursor } = after := by
  unfold reread
  rw [bind_eq_error]
  constructor
  · rintro (seen | ⟨slash, _, seen, run⟩)
    · cases seen
    · cases seen
      rcases bind_eq_error.mp run with scanned | ⟨token, between, _, rest⟩
      · exact scan_eq_error.mp scanned
      · cases rest
  · intro found
    exact .inr ⟨state.lookahead, state, rfl, bind_eq_error.mpr (.inl (scan_eq_error.mpr found))⟩

theorem within_eq_error {enter : State → State} {leave : State → State → State}
    {action : Parse α} {state after : State} {fault : Fault} :
    within enter leave action state = .error fault after ↔
      ∃ between, action (enter state) = .error fault between ∧ leave state between = after := by
  unfold within
  constructor
  · intro run
    split at run
    · contradiction
    · rename_i found
      cases run
      exact ⟨_, found, rfl⟩
  · rintro ⟨between, found, rfl⟩
    rw [found]

theorem upon_eq {token : Token} {action : Parse α} {state : State}
    (here : state.lookahead = token) :
    upon token action state = action state :=
  if_pos here

theorem upon_eq_ok {token : Token} {action : Parse α} {state after : State} {value : α} :
    upon token action state = .ok value after ↔
      state.lookahead = token ∧ action state = .ok value after := by
  constructor
  · intro run
    by_cases here : state.lookahead = token
    · exact ⟨here, (upon_eq here).symm.trans run⟩
    · rw [upon, if_neg here] at run
      cases run
  · rintro ⟨here, run⟩
    exact (upon_eq here).trans run

theorem upon_eq_error {token : Token} {action : Parse α} {state after : State} {fault : Fault}
    (possible : fault.cause ≠ .exhausted) (run : upon token action state = .error fault after) :
    state.lookahead = token ∧ action state = .error fault after := by
  by_cases here : state.lookahead = token
  · exact ⟨here, (upon_eq here).symm.trans run⟩
  · rw [upon, if_neg here] at run
    cases run
    exact absurd rfl possible

theorem consumeIf_bind {expected : Kind} {rest : Bool → Parse α} :
    (consumeIf expected >>= rest) = lookahead >>= fun token =>
      if token.kind = expected then consume >>= fun _ => rest true else rest false := by
  rw [consumeIf, sees, kind]
  simp only [bind_assoc, pure_bind]
  congr 1
  funext token
  by_cases found : token.kind = expected
  · rw [if_pos found, if_pos (by simpa using found)]
    simp only [bind_assoc, pure_bind]
  · rw [if_neg found, if_neg (by simpa using found), pure_bind]

theorem semicolon_eq (state : State) :
    semicolon state =
      if state.lookahead.kind = .symbol Punctuator.semicolon then consume state
      else if state.lookahead.flags.lineBreak ||
          state.lookahead.kind == .symbol Punctuator.rightBrace ||
          state.lookahead.kind == .endOfFile then .ok () state
      else .error ⟨state.lookahead.unexpected, state.lookahead.span.start⟩ state := by
  rw [semicolon, consumeIf_bind]
  change (if _ then _ else _ : Parse Unit) state = _
  split
  · exact congrFun (bind_pure consume) state
  · rw [if_neg Bool.false_ne_true]
    change (if _ then _ else _ : Parse Unit) state = _
    split <;> rfl

theorem advances_of_consume {state next : State} (inside : state.lookahead.lexeme ≠ .endOfFile)
    (run : consume state = .ok () next) : state.point.Advances next.point := by
  obtain ⟨found, cursor, scanned, rfl⟩ := consume_eq_ok.mp run
  exact ⟨inside, found, cursor, scanned, rfl⟩

end Parse

namespace Alignment

open Parse

variable {σ : Alignment} {phase : Prop} {first second next : State}

/-- A token that is consumed in the first text is consumed in the second. -/
theorem Related.consume (related : σ.Related phase first second)
    (inside : first.lookahead.lexeme ≠ .endOfFile) (run : Parse.consume first = .ok () next)
    (ahead : σ.Ahead .edge phase next.point) :
    ∃ last, Parse.consume second = .ok () last ∧ σ.Related phase next last ∧
      (first.lookahead.kind = .symbol Punctuator.semicolon →
        σ.Ends next.consumedEnd → phase) := by
  have advances := advances_of_consume inside run
  have level := related.level (σ.ahead_of_advances related.reached advances ahead)
  obtain ⟨other, advancesToo, points⟩ := σ.advances level related.reached advances ahead
  obtain ⟨_, found, cursor, scanned, rfl⟩ := advancesToo
  refine ⟨_, consume_eq_ok.mpr ⟨found, cursor, scanned, rfl⟩, ?_, ?_⟩
  · obtain ⟨token, place, _, rfl⟩ := consume_eq_ok.mp run
    exact { related with
      reached := σ.reached_of_advances related.reached advances
      points := points.imp id fun edge => ⟨edge.1, edge.2.1⟩ }
  · intro mark ends
    rcases points with level | ⟨_, _, apart⟩
    · exact σ.ends_of_level level ends
    · exact absurd mark (apart ends)

theorem Related.consume_error (related : σ.Related phase first second)
    (inside : first.lookahead.lexeme ≠ .endOfFile) {fault : Fault}
    (run : Parse.consume first = .error fault next) (doomed : σ.Doomed fault next.point) :
    ∃ result last, Parse.consume second = .error result last ∧ result.cause = fault.cause ∧
      σ.left fault.position = σ.right result.position := by
  obtain ⟨cursor, scanned, rfl⟩ := consume_eq_error.mp run
  have level := related.level_of_doomed (.token inside scanned) doomed
  obtain ⟨other, last, scannedToo, same⟩ :=
    σ.fault_of_token level related.reached inside scanned doomed
  exact ⟨other, _, consume_eq_error.mpr ⟨last, scannedToo, rfl⟩, same⟩

/-- A semicolon is consumed, or nothing is. -/
theorem semicolon_cases (run : Parse.semicolon first = .ok () next) :
    first.lookahead.kind = .symbol Punctuator.semicolon ∧ Parse.consume first = .ok () next ∨
      first.lookahead.kind ≠ .symbol Punctuator.semicolon ∧ next = first ∧
        (first.lookahead.flags.lineBreak || first.lookahead.kind == .symbol Punctuator.rightBrace ||
          first.lookahead.kind == .endOfFile) = true := by
  rw [semicolon_eq] at run
  split at run
  · exact .inl ⟨‹_›, run⟩
  · split at run
    · cases run
      exact .inr ⟨‹_›, rfl, ‹_›⟩
    · cases run

theorem lexeme_ne_endOfFile {token : Token} {symbol : Symbol}
    (found : token.kind = .symbol symbol) :
    token.lexeme ≠ .endOfFile := by
  intro ended
  rw [Token.kind, ended] at found
  cases found

/-- A token that means something to the grammar is not the end of the text. -/
theorem lexeme_ne_endOfFile_of_view {token : Token} {α : Type} {view : Kind → Option α} {value : α}
    (noEnd : view .endOfFile = none) (found : view token.kind = some value) :
    token.lexeme ≠ .endOfFile := by
  intro ended
  rw [Token.kind, ended] at found
  exact absurd (noEnd.symm.trans found) (by simp)

variable (phase) in
theorem heeds_semicolon (reached : σ.Reached first.point)
    (run : Parse.semicolon first = .ok () next) :
    σ.Reached next.point ∧
      (σ.Ahead σ.extent (phase ∨ σ.Ends next.consumedEnd) next.point →
        σ.Ahead .edge phase first.point) := by
  rcases semicolon_cases run with ⟨mark, run⟩ | ⟨_, rfl, _⟩
  · have advances := advances_of_consume (lexeme_ne_endOfFile mark) run
    have reachedNext := σ.reached_of_advances reached advances
    refine ⟨reachedNext, fun ahead => σ.ahead_weaken ?_⟩
    exact σ.ahead_of_advances reached advances (σ.ahead_of_ends reachedNext ahead)
  · exact ⟨reached, σ.ahead_of_ends reached⟩

theorem Related.semicolon (related : σ.Related phase first second)
    (run : Parse.semicolon first = .ok () next)
    (ahead : σ.Ahead σ.extent (phase ∨ σ.Ends next.consumedEnd) next.point) :
    ∃ last, Parse.semicolon second = .ok () last ∧
      σ.Related (phase ∨ σ.Ends next.consumedEnd) next last := by
  rcases semicolon_cases run with ⟨mark, run⟩ | ⟨missed, rfl, ends⟩
  · have inside := lexeme_ne_endOfFile mark
    have advances := advances_of_consume inside run
    have aheadNext := σ.ahead_of_ends (σ.reached_of_advances related.reached advances) ahead
    have level := related.level (σ.ahead_of_advances related.reached advances aheadNext)
    obtain ⟨last, runToo, relatedToo, apart⟩ := related.consume inside run aheadNext
    refine ⟨last, ?_, relatedToo.congr ?_⟩
    · rw [semicolon_eq, if_pos ((matches_of_states level).kind.trans mark)]
      exact runToo
    · exact (or_iff_left_of_imp (apart mark)).symm
  · rcases related.points with level | ⟨before, edge⟩
    · have same := matches_of_states level
      refine ⟨second, ?_, related.congr (or_iff_left_of_imp (σ.ends_of_level level)).symm⟩
      rw [semicolon_eq, same.kind, same.flags, if_neg missed, if_pos ends]
    · rcases σ.semicolon_of_edge edge missed with
        ⟨brace, notEnds⟩ | ⟨mark, isEnd, other, advances, level⟩
      · have brace : second.lookahead.kind = .symbol Punctuator.rightBrace := brace
        refine ⟨second, ?_, related.congr (or_iff_left notEnds).symm⟩
        rw [semicolon_eq, brace, if_neg (by decide), if_pos (by simp)]
      · have mark : second.lookahead.kind = .symbol Punctuator.semicolon := mark
        obtain ⟨_, found, cursor, scanned, rfl⟩ := advances
        have run := consume_eq_ok.mpr ⟨found, cursor, scanned, rfl⟩
        refine ⟨_, (semicolon_eq second).trans ((if_pos mark).trans run), ?_⟩
        have behind : (phase ∨ σ.Ends next.consumedEnd) = True := eq_true (.inr isEnd)
        rw [behind]
        exact { related with points := .inl level }

theorem fails_semicolon {fault : Fault} (run : Parse.semicolon first = .error fault next) :
    first.point.Fails fault next.point := by
  rw [semicolon_eq] at run
  split at run
  · obtain ⟨cursor, scanned, rfl⟩ := consume_eq_error.mp run
    exact .token (lexeme_ne_endOfFile ‹_›) scanned
  · split at run
    · cases run
    · cases run
      exact .here (by rintro ⟨⟩)

theorem Related.semicolon_error (related : σ.Related phase first second) {fault : Fault}
    (run : Parse.semicolon first = .error fault next) (doomed : σ.Doomed fault next.point) :
    ∃ result last, Parse.semicolon second = .error result last ∧ result.cause = fault.cause ∧
      σ.left fault.position = σ.right result.position := by
  have same := matches_of_states (related.level_of_doomed (fails_semicolon run) doomed)
  rw [semicolon_eq] at run ⊢
  rw [same.kind, same.flags]
  split at run
  · rename_i mark
    rw [if_pos mark]
    exact related.consume_error (lexeme_ne_endOfFile mark) run doomed
  · rename_i missed
    split at run
    · cases run
    · rename_i stays
      cases run
      rw [if_neg missed, if_neg stays]
      exact ⟨_, _, rfl, same.unexpected, same.start⟩

end Alignment

end EcmaScript
