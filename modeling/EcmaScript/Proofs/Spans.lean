import EcmaScript.Proofs.Descent
import EcmaScript.Proofs.Placement
import EcmaScript.Proofs.ScriptSoundness

/-!
# Spans of nodes

The span of every node runs from the start of the first token that it was read from to the end of
the last one. Since the children of a node are read from pieces of its tokens, one piece after the
other, spans nest in each other and those of siblings do not overlap.
-/

namespace EcmaScript

variable {scope : Scope} {tokens : List Token} {next : Token}

theorem Reads.span_makes {level : Level} {value : Expression}
    (reads : Reads scope (.makes level value) tokens next) : value.span = Token.cover tokens := by
  cases reads with
  | reference refers => exact refers.2.1
  | _ => rfl

theorem Reads.span_statement {item : Statement}
    (reads : Reads scope (.statement item) tokens next) : item.span = Token.cover tokens := by
  cases reads with
  | blockStatement reads =>
    cases reads
    rfl
  | _ => rfl

/-- The span of a node covers the tokens that it is read from. -/
theorem Node.IsRead.span {node : Node} (read : node.IsRead scope tokens next) :
    node.span = Token.cover tokens := by
  cases node with
  | expression item =>
    obtain ⟨level, reads⟩ := read
    exact reads.span_makes
  | statement item =>
    rcases read with reads | reads | ⟨text, value, span, rfl, reads⟩
    · exact reads.span_statement
    · cases reads with
      | functionDeclaration => rfl
      | item _ _ reads => exact reads.span_statement
    · cases reads with
      | directive _ _ reads => exact reads.span_statement
  | name item =>
    obtain ⟨token, rfl, _, rfl⟩ := read
    rfl
  | key item =>
    obtain ⟨token, rfl, hasKey⟩ := read
    cases hasKey <;> rfl
  | binding item =>
    obtain ⟨token, rfl, binds⟩ := read
    exact binds.1.2.1
  | label item =>
    obtain ⟨token, rfl, refers⟩ := read
    exact refers.2.1
  | block item =>
    rcases read with reads | reads <;> cases reads <;> rfl
  | property item | declarator item | declaration item | clause item | handler item =>
    cases read <;> rfl

theorem Node.IsRead.ne_nil {node : Node} (read : node.IsRead scope tokens next) : tokens ≠ [] := by
  cases node with
  | expression item =>
    obtain ⟨level, reads⟩ := read
    exact reads.ne_nil rfl
  | statement item =>
    rcases read with reads | reads | ⟨text, value, span, rfl, reads⟩
    · exact reads.ne_nil rfl
    · exact reads.ne_nil rfl
    · exact reads.ne_nil rfl
  | name item | key item | binding item | label item =>
    obtain ⟨token, rfl, _⟩ := read
    simp
  | block item =>
    rcases read with reads | reads
    · exact reads.ne_nil rfl
    · exact reads.ne_nil rfl
  | property item | declarator item | declaration item | clause item =>
    exact Reads.ne_nil read rfl
  | handler item =>
    cases read
    simp

/-- A node lies between two positions where its tokens do. -/
theorem Node.IsRead.within {node : Node} {low high : Position}
    (read : node.IsRead scope tokens next) (between : Token.Between low tokens high) :
    low ≤ node.span.start ∧ node.span.start < node.span.stop ∧ node.span.stop ≤ high ∧
      Token.Between node.span.start tokens node.span.stop := by
  rw [read.span]
  exact between.cover read.ne_nil

/-- Nodes that are read from pieces of some tokens lie one after the other. -/
theorem ReadsNodes.within {scopes : Node → Scope} {nodes : List Node} {low high : Position}
    (reads : ReadsNodes scopes nodes tokens) (between : Token.Between low tokens high) :
    (∀ node ∈ nodes, low ≤ node.span.start ∧ node.span.stop ≤ high) ∧
      nodes.Pairwise fun left right => left.span.stop ≤ right.span.start := by
  induction reads generalizing low with
  | nil => exact ⟨by simp, .nil⟩
  | cons gap _ read _ ih =>
    obtain ⟨first, before, remaining⟩ := between.split
    obtain ⟨second, inside, after⟩ := remaining.split
    obtain ⟨start, wide, stop, _⟩ := read.within inside
    obtain ⟨later, apart⟩ := ih after
    have upTo : first ≤ second := inside.le
    constructor
    · intro other member
      rcases List.mem_cons.mp member with rfl | member
      · exact ⟨Position.le_trans before.le start, Position.le_trans stop after.le⟩
      · obtain ⟨otherStart, otherStop⟩ := later other member
        exact ⟨Position.le_trans before.le (Position.le_trans upTo otherStart), otherStop⟩
    · refine .cons ?_ apart
      intro other member
      exact Position.le_trans stop (later other member).1

/-- The tokens of a tree begin and end where their nodes do. -/
theorem Token.exists_of_cover {tokens piece : List Token} (nonempty : piece ≠ [])
    (inside : piece <:+: tokens) :
    (∃ token ∈ tokens, (Token.cover piece).start = token.span.start) ∧
      ∃ token ∈ tokens, (Token.cover piece).stop = token.span.stop := by
  constructor
  · refine ⟨piece.head nonempty, inside.subset (List.head_mem nonempty), ?_⟩
    simp [Token.cover, List.head?_eq_some_head nonempty]
  · refine ⟨piece.getLast nonempty, inside.subset (List.getLast_mem nonempty), ?_⟩
    simp [Token.cover, List.getLast?_eq_some_getLast nonempty]

/-- A script begins with a token behind the place of the cursor. -/
theorem Grammar.Begins.placed {state first : State} (begins : Begins state first) :
    first.point.Placed ∧ state.cursor.position ≤ first.lookahead.span.start := by
  rcases begins.scanned with scanned | scanned
  · obtain ⟨placed, behind, stop⟩ := Scan.placed_of_token scanned
    exact ⟨⟨placed, stop⟩, behind⟩
  · obtain ⟨placed, behind, stop⟩ := Scan.placed_of_token scanned
    refine ⟨⟨placed, stop⟩, Position.le_trans ?_ behind⟩
    unfold Cursor.passHashbang
    split
    · exact Position.le_after _ _
    · exact Position.le_refl _

variable {source : String} {options : Options} {program : Program} {after : State}

/-- The tokens of a whole text lie between its start and the end of the text. -/
theorem State.between_of_parse
    (accepted : (ofSource source options).parse = (.ok program, after)) :
    Token.Between .first after.consumed after.lookahead.span.start ∧ after.lookahead.Placed := by
  obtain ⟨first, begins, isScript⟩ := isScript_of_parse accepted
  obtain ⟨placed, behind⟩ := begins.placed
  obtain ⟨placedAfter, between⟩ := isScript.passes.between placed
  exact ⟨between.of_le behind, placedAfter.token⟩

/-- Every node of an accepted text is read from some of its tokens, one after the other. -/
theorem State.exists_read_of_parse
    (accepted : (ofSource source options).parse = (.ok program, after)) {path : List Step}
    {node : Node} (occurs : program.Occurs path node) :
    ∃ scope piece follower low high, node.IsRead scope piece follower ∧
      piece <:+: after.consumed ∧ Token.Between low piece high := by
  obtain ⟨between, _⟩ := between_of_parse accepted
  obtain ⟨statement, member, occurs⟩ := occurs
  obtain ⟨inner, piece, follower, _, read, part⟩ :=
    (reads_of_parse accepted).occurs_body member occurs
  obtain ⟨_, _, own⟩ := between.of_infix part
  exact ⟨inner, piece, follower, _, _, read, part, own⟩

/-- Spans of an accepted text. Every node begins and ends with a token that was consumed, takes up
some of the text, and contains its children, which do not overlap; the program runs from the start
of the text to the end of the text and contains its statements. -/
theorem State.spans_of_parse
    (accepted : (ofSource source options).parse = (.ok program, after)) :
    (∀ path node, program.Occurs path node →
      (∃ token ∈ after.consumed, node.span.start = token.span.start) ∧
      (∃ token ∈ after.consumed, node.span.stop = token.span.stop) ∧
      node.span.start < node.span.stop ∧
      (∀ child ∈ node.children, node.span.contains child.span = true) ∧
      node.children.Pairwise fun left right => left.span.stop ≤ right.span.start) ∧
    program.span.start = ⟨1, 0⟩ ∧ after.lookahead.kind = .endOfFile ∧
    program.span.stop = after.lookahead.span.stop ∧
    (∀ statement ∈ program.body, program.span.contains statement.span = true) ∧
    program.body.Pairwise fun left right => left.span.stop ≤ right.span.start := by
  obtain ⟨between, placed⟩ := between_of_parse accepted
  obtain ⟨first, begins, isScript⟩ := isScript_of_parse accepted
  have reads := reads_of_parse accepted
  have nodes : ReadsNodes (fun _ => .ofOptions options) (program.body.map .statement)
      after.consumed := reads.nodes_body fun _ => .refl _
  obtain ⟨inside, apart⟩ := nodes.within between
  refine ⟨?_, ?_, isScript.ended, ?_, ?_, ?_⟩
  · intro path node occurs
    obtain ⟨inner, piece, follower, low, high, read, part, own⟩ :=
      exists_read_of_parse accepted occurs
    obtain ⟨_, wide, _, tight⟩ := read.within own
    obtain ⟨start, stop⟩ := Token.exists_of_cover read.ne_nil part
    rw [← read.span] at start stop
    obtain ⟨contained, siblings⟩ := read.children.within tight
    exact ⟨start, stop, wide, fun child member => Span.contains_iff.mpr (contained child member),
      siblings⟩
  · rw [isScript.span]
    rfl
  · rw [isScript.span]
  · intro statement member
    obtain ⟨start, stop⟩ := inside (.statement statement) (List.mem_map_of_mem member)
    rw [isScript.span]
    exact Span.contains_iff.mpr ⟨start, Position.le_trans stop placed.le⟩
  · exact List.pairwise_map.mp apart

/-- The spans of a product with a sum in parentheses, which the span of the sum does not include. -/
theorem spans_of_product :
    ∃ program after, (State.ofSource "(a + b) * c" {}).parse = (.ok program, after) ∧
      program.span.start = ⟨1, 0⟩ ∧ program.span.stop = after.lookahead.span.stop ∧
      ∀ path node, program.Occurs path node → node.span.start < node.span.stop := by
  obtain ⟨program, accepted⟩ :=
    exists_of_toBool (by decide +kernel : (parse "(a + b) * c" {}).toBool = true)
  obtain ⟨after, accepted⟩ := exists_of_parse accepted
  have spans := State.spans_of_parse accepted
  refine ⟨program, after, accepted, spans.2.1, spans.2.2.2.1, ?_⟩
  intro path node occurs
  exact (spans.1 path node occurs).2.2.1

end EcmaScript
