import EcmaScript.Proofs.CheckedLexer
import EcmaScript.Proofs.ClosingSlash
import EcmaScript.Proofs.FaultPlaces
import EcmaScript.Proofs.Partition
import EcmaScript.Proofs.Recursion
import EcmaScript.Proofs.ScriptFollowing
import EcmaScript.Proofs.StatementBalance

/-!
# The lookahead and the cursor

Between any two steps of a parse the cursor is at the end of the lookahead, which is the token that
was scanned last, and the end of the last consumed token is noted down: it is in front of the
lookahead, with nothing but trivia in between. The first token may have a hashbang in front of it as
well. So a slash in the lookahead can be read again, though the cursor goes back for that: no other
token has been scanned from where it goes back to. A scan that fails leaves the lookahead as it was.
-/

namespace EcmaScript

open Parse

namespace Parse

variable {α : Type} {action : Parse α} {state : State}

theorem outcome_eq_ok {value : α} :
    outcome action state = .ok value ↔ action state = .ok value (stateAfter action state) := by
  unfold outcome stateAfter
  cases action state <;> simp

theorem outcome_eq_error {fault : Fault} :
    outcome action state = .error fault ↔
      action state = .error fault (stateAfter action state) := by
  unfold outcome stateAfter
  cases action state <;> simp

theorem exists_ok_of_toBool (succeeds : (outcome action state).toBool = true) :
    ∃ value, action state = .ok value (stateAfter action state) := by
  cases run : outcome action state with
  | ok value => exact ⟨value, outcome_eq_ok.mp run⟩
  | error fault =>
    rw [run] at succeeds
    cases succeeds

end Parse

/-- The first line of a text, if it is a hashbang that a parse passes over. -/
def hashbangLine (source : String) (options : Options) : List Char :=
  if options.allowHashbang && ['#', '!'].isPrefixOf source.toList then
    source.toList.takeWhile fun char => !isLineTerminator char
  else []

theorem hashbangLine_prefix (source : String) (options : Options) :
    hashbangLine source options <+: source.toList := by
  unfold hashbangLine
  split
  · exact List.takeWhile_prefix _
  · exact List.nil_prefix

/-- The first token is scanned behind the hashbang. -/
theorem State.opening_ofSource (source : String) (options : Options) :
    (ofSource source options).opening =
      (Cursor.atStart source).pass (hashbangLine source options).length := by
  have cursor : (ofSource source options).cursor = .atStart source := rfl
  have allowed : (ofSource source options).options = options := rfl
  rw [opening, hashbangLine, cursor, allowed]
  cases options.allowHashbang with
  | false => exact (Cursor.pass_zero _).symm
  | true =>
    rw [if_pos rfl, Bool.true_and]
    by_cases begins : ['#', '!'] <+: source.toList
    · obtain ⟨rest, whole⟩ := begins
      rw [Cursor.passHashbang, Cursor.atStart, ← whole]
      rfl
    · rw [Cursor.passHashbang_of_plain begins, if_neg (by simpa using begins)]
      exact (Cursor.pass_zero _).symm

theorem sourceText_self {source : String} {offset : Nat} (inside : offset ≤ source.length) :
    sourceText source offset offset = "" := by
  rw [sourceText_eq (Nat.le_refl _) inside, Nat.sub_self, List.take_zero, String.ofList_nil]

namespace Token

/-- What is between a boundary and a token is cut in two by another boundary. -/
theorem gap_append {source : String} {token : Token} {first second : Boundary}
    (isIn : token.IsIn source) (left : first.offset ≤ second.offset)
    (right : second.offset ≤ token.start) :
    token.gap source first =
      (sourceText source first.offset second.offset).toList ++ token.gap source second := by
  have stop := Nat.le_trans isIn.le isIn.stop_le
  rw [gap, gap, ← String.toList_append, sourceText_append left right stop]

end Token

namespace Point

/-- The tokens that have been consumed, in their order. -/
def consumed (point : Point) : List Token :=
  point.scanned.tail.reverse

/-- The end of the last consumed token, or the start of the text. -/
def lastEnd (point : Point) : Boundary :=
  Token.lastClosing .first point.consumed

section Tokens

variable {point : Point} (latest : point.SeesLatest) (cursor : Cursor) (next : Token)
  (position : Position)

include latest

/-- With a token behind it, the lookahead has been consumed. -/
theorem SeesLatest.consumed_token :
    consumed ⟨cursor, next, position, next :: point.scanned⟩ =
      point.consumed ++ [point.lookahead] := by
  obtain ⟨earlier, whole⟩ := List.head?_eq_some_iff.mp latest
  rw [consumed, consumed, whole]
  exact List.reverse_cons

theorem SeesLatest.lastEnd_token :
    lastEnd ⟨cursor, next, position, next :: point.scanned⟩ = point.lookahead.closing := by
  rw [lastEnd, latest.consumed_token, Token.lastClosing, List.getLast?_concat]
  rfl

end Tokens

/-- The lookahead of a parse of a text is the latest token, and the cursor is at its end. The last
consumed token is in front of it, with trivia in between, and so are all others. -/
structure IsAligned (source : String) (options : Options) (point : Point) : Prop where
  inSource : point.IsIn source
  /-- The cursor has the offset, the line and the column of the end of the lookahead. -/
  current : point.cursor.boundary = point.lookahead.closing
  latest : point.SeesLatest
  /-- The position that is noted down is the end of the last consumed token. -/
  consumedEnd : point.consumedEnd = point.lastEnd.position
  /-- It is at the start of the lookahead or before it. -/
  order : point.lastEnd.Precedes point.lookahead.opening
  /-- In front of the first token there may be a hashbang. -/
  between : ∃ gap, IsTrivia (source.toList.drop point.lookahead.start) gap ∧
    point.lookahead.gap source point.lastEnd =
      (if point.consumed = [] then hashbangLine source options else []) ++ gap
  earlier : ∀ token ∈ point.consumed, token.stop ≤ point.lookahead.start
  /-- The cursor is on the line of a slash, behind what the slash has of a pattern. -/
  slash : ∀ front, Scan.slash? point.lookahead.lexeme = some front →
    point.lookahead.IsSlash source front point.cursor ∧
      point.cursor.position = point.lookahead.span.start.right (front.length + 1)

namespace IsAligned

variable {source : String} {options : Options} {point : Point} {next : Token} {cursor : Cursor}
  {front : List Char}

/-- The lookahead has been scanned at a cursor that has nothing between the last consumed token and
itself, but for the hashbang. -/
theorem of_token {before : Cursor} (inSource : before.IsIn source)
    (scanned : Scan.token before = .ok point.lookahead point.cursor) (latest : point.SeesLatest)
    (consumedEnd : point.consumedEnd = point.lastEnd.position)
    (order : point.lastEnd.Precedes before.boundary)
    (between : (sourceText source point.lastEnd.offset before.offset).toList =
      if point.consumed = [] then hashbangLine source options else [])
    (earlier : ∀ token ∈ point.consumed, token.stop ≤ before.offset) :
    point.IsAligned source options := by
  obtain ⟨gap, length, reads⟩ := Scan.reads_of_token scanned
  obtain ⟨follows, closing, afterIn⟩ := reads.follows inSource
  have start : before.offset ≤ point.lookahead.start := follows.after.offset_le
  constructor
  · exact ⟨follows.isIn, afterIn, reads.stop.symm⟩
  · exact closing.symm
  · exact latest
  · exact consumedEnd
  · exact order.trans follows.after
  · refine ⟨_, follows.trivia, ?_⟩
    have apart := @Token.gap_append source _ point.lastEnd before.boundary follows.isIn
      order.offset_le start
    rwa [Cursor.boundary, between] at apart
  · exact fun token member => Nat.le_trans (earlier token member) start
  · intro front slash
    exact ⟨Lexer.isSlash_of_token inSource scanned slash,
      (Scan.isSlash_of_token scanned slash).position⟩

/-- The lookahead is consumed. -/
theorem token (aligned : point.IsAligned source options)
    (scanned : Scan.token point.cursor = .ok next cursor) :
    IsAligned source options ⟨cursor, next, point.lookahead.span.stop, next :: point.scanned⟩ := by
  have consumed := aligned.latest.consumed_token cursor next point.lookahead.span.stop
  have lastEnd := aligned.latest.lastEnd_token cursor next point.lookahead.span.stop
  have stop : point.cursor.offset = point.lookahead.stop := aligned.inSource.offset
  apply of_token aligned.inSource.cursor scanned
  · exact rfl
  · rw [lastEnd]
    rfl
  · rw [lastEnd, aligned.current]
    exact .inl rfl
  · rw [lastEnd, consumed, if_neg (List.append_ne_nil_of_right_ne_nil _ (List.cons_ne_nil _ _)),
      stop]
    exact congrArg String.toList (sourceText_self aligned.inSource.token.stop_le)
  · rw [consumed]
    intro other member
    rcases List.mem_append.mp member with member | member
    · have before := aligned.earlier other member
      have le := aligned.inSource.token.le
      omega
    · cases List.mem_singleton.mp member
      exact Nat.le_of_eq stop.symm

/-- The lookahead is read again. -/
theorem regularExpression (aligned : point.IsAligned source options)
    (scanned : Scan.regularExpression point.lookahead front point.cursor = .ok next cursor) :
    IsAligned source options ⟨cursor, next, point.consumedEnd, next :: point.scanned.tail⟩ := by
  obtain ⟨length, rereads⟩ := Scan.rereadsAs_of_regularExpression scanned
  obtain ⟨token, stop, inSource⟩ := rereads.isIn aligned.inSource.cursor aligned.inSource.token
    aligned.inSource.offset
  obtain ⟨pattern, flags, expression⟩ := RegularExpression.eq_of_read rereads.expression
  constructor
  · exact ⟨token, inSource, rereads.stop.symm⟩
  · exact rereads.closing.symm
  · exact rfl
  · exact aligned.consumedEnd
  · rw [rereads.opening]
    exact aligned.order
  · dsimp only [Token.gap]
    rw [rereads.start]
    exact aligned.between
  · rw [rereads.start]
    exact aligned.earlier
  · -- A regular expression is no slash that could be read once more.
    dsimp only
    rw [expression]
    rintro front ⟨⟩

/-- Wherever the scanner goes from here, it does not get out of step. -/
theorem isKept (source : String) (options : Options) : IsKept (IsAligned source options) :=
  ⟨token, regularExpression⟩

end IsAligned

end Point

namespace State

variable {source : String} {options : Options}

/-- The first token is in the lookahead. -/
theorem isAligned_begun {token : Token} {cursor : Cursor}
    (scanned : Scan.token (ofSource source options).opening = .ok token cursor) :
    ((ofSource source options).begun token cursor).point.IsAligned source options := by
  have start : (Cursor.atStart source).IsIn source := .atStart source
  have line := hashbangLine_prefix source options
  rw [opening_ofSource] at scanned
  apply Point.IsAligned.of_token start.pass scanned
  · exact rfl
  · exact rfl
  · exact Cursor.precedes_pass (.atStart source) _
  · have behind : ((Cursor.atStart source).pass (hashbangLine source options).length).offset =
        0 + (hashbangLine source options).length :=
      Cursor.offset_moveBy line.length_le
    have text := start.text line.length_le
    rw [behind]
    exact (congrArg String.toList text.symm).trans
      (String.toList_ofList.trans (List.prefix_iff_eq_take.mp line).symm)
  · rintro other ⟨⟩

/-- A slash in the lookahead is read again from the character behind it, wherever the scanner may
be. The regular expression takes the place of the slash, and what has been consumed stays. -/
theorem reread_of_isAligned {state : State} {front : List Char}
    (aligned : state.point.IsAligned source options)
    (slash : Scan.slash? state.lookahead.lexeme = some front) :
    (∀ other : Cursor, Checked.reread state.lookahead.raw (other.machine source) =
      Scan.outcome source Token.raw (Scan.regularExpression state.lookahead front state.cursor)) ∧
    ∀ after, reread front state = .ok () after →
      after.consumed = state.consumed ∧ after.consumedEnd = state.consumedEnd ∧
        after.lookahead.opening = state.lookahead.opening ∧
        after.point.IsAligned source options := by
  refine ⟨fun other => Checked.reread_eq (aligned.slash front slash).1, ?_⟩
  intro after run
  have kept := (Scans.reread front).keeps (Point.IsAligned.isKept source options) aligned run
  obtain ⟨token, cursor, scanned, rfl⟩ := reread_eq_ok.mp run
  obtain ⟨length, rereads⟩ := Scan.rereadsAs_of_regularExpression scanned
  exact ⟨rfl, rfl, rereads.opening, kept⟩

end State

namespace Grammar

variable {source : String} {options : Options} {α : Type} {inner : Parse α} {entry : State}

/-- A parse of a text enters an action at a state, when its first token has been scanned. -/
def Enters (source : String) (options : Options) (inner : Parse α) (entry : State) : Prop :=
  ∃ self first, beginning (.ofSource source options) = .ok self first ∧
    inner.IsEntered entry (wholeBody self) first

theorem isAligned_of_beginning {self : Nonterminals} {first : State}
    (begins : beginning (.ofSource source options) = .ok self first) :
    first.point.IsAligned source options := by
  cases scanned : Scan.token (State.ofSource source options).opening with
  | error fault cursor =>
    rw [beginning_of_fault scanned] at begins
    cases begins
  | ok token cursor =>
    rw [beginning_of_token scanned] at begins
    cases begins
    exact State.isAligned_begun scanned

/-- What an entered action enters is entered by the parse. -/
theorem Enters.trans {β : Type} {deeper : Parse β} {asked : State}
    (entered : Enters source options inner entry) (within : deeper.IsEntered asked inner entry) :
    Enters source options deeper asked := by
  obtain ⟨self, first, begins, outer⟩ := entered
  exact ⟨self, first, begins, within.trans outer⟩

theorem Enters.isAligned (entered : Enters source options inner entry) :
    entry.point.IsAligned source options := by
  obtain ⟨self, first, begins, within⟩ := entered
  exact within.keeps (Point.IsAligned.isKept source options) (isAligned_of_beginning begins)

/-- A script that begins with no directive enters its first statement at once. -/
theorem isEntered_listItem {budget : Nat} {state : State}
    (plain : state.lookahead.kind ≠ .stringLiteral) (more : state.lookahead.kind ≠ .endOfFile) :
    (listItem (.ofBudget budget)).IsEntered state (wholeBody (.ofBudget (budget + 1))) state := by
  have none : directives (Nonterminals.ofBudget (budget + 1)).statement (budget + 1) state =
      .ok [] state := by
    rw [directives]
    exact congrFun (if_pos (by simpa using plain)) state
  have composed : IsFunction
      (directives (Nonterminals.ofBudget (budget + 1)).statement (budget + 1)) :=
    .directives _ _
  refine .rest composed.isComposed none (.first ?_)
  change (listItem _).IsEntered state (itemsUntil _ _ (budget + 1)) state
  rw [itemsUntil]
  refine .rest IsBalanced.kind.isComposed rfl ?_
  rw [if_neg (by simpa using more)]
  exact .first .here

/-- A parse that succeeds returns from the whole body of its script. -/
theorem enters_of_parse {program : Program} {after : State}
    (accepted : (State.ofSource source options).parse = (.ok program, after)) :
    ∃ budget first, Enters source options (wholeBody (.ofBudget budget)) first ∧
      wholeBody (.ofBudget budget) first = .ok program after := by
  have run : script (.ofSource source options) = .ok program after := by
    unfold State.parse at accepted
    split at accepted <;> cases accepted
    assumption
  rw [script_eq] at run
  obtain ⟨self, first, begins, run⟩ := bind_eq_ok.mp run
  obtain ⟨rfl, -⟩ := (ensures_beginning _).of_ok begins
  exact ⟨_, first, ⟨_, first, begins, .here⟩, run⟩

end Grammar

namespace State

open Grammar

/-- Whenever a parse enters a function of the grammar, and whenever one returns, the cursor is at
the end of the lookahead, which is the latest token, and the last consumed token ends in front of
it. So a slash can be read again. When a function fails because a token cannot be scanned, the
lookahead is what it was when that token was asked for. -/
theorem isAligned_of_parse (source : String) (options : Options) :
    (∀ program after, (ofSource source options).parse = (.ok program, after) →
      after.point.IsAligned source options) ∧
    ∀ {α : Type} (inner : Parse α) (entry : State), IsFunction inner →
      Enters source options inner entry →
      entry.point.IsAligned source options ∧
      (∀ value after, inner entry = .ok value after → after.point.IsAligned source options) ∧
      (∀ front, Scan.slash? entry.lookahead.lexeme = some front →
        (∀ other : Cursor, Checked.reread entry.lookahead.raw (other.machine source) =
          Scan.outcome source Token.raw
            (Scan.regularExpression entry.lookahead front entry.cursor)) ∧
        ∀ after, reread front entry = .ok () after →
          after.consumed = entry.consumed ∧ after.consumedEnd = entry.consumedEnd ∧
            after.lookahead.opening = entry.lookahead.opening ∧
            after.point.IsAligned source options) ∧
      (∀ fault after, inner entry = .error fault after → fault.cause.category = .lexical →
        ∃ (scan : Parse Unit) (asked stopped : State), scan.Scans ∧
          scan.IsEntered asked inner entry ∧ scan asked = .error fault stopped ∧
          asked.point.IsAligned source options ∧ after.lookahead = asked.lookahead) ∧
      ∀ (scan : Parse Unit) (asked stopped : State) (fault : Fault), scan.Scans →
        scan.IsEntered asked inner entry → scan asked = .error fault stopped →
        ∃ after, inner entry = .error fault after ∧ fault.cause.category = .lexical ∧
          after.lookahead = asked.lookahead := by
  have kept := Point.IsAligned.isKept source options
  constructor
  · intro program after accepted
    obtain ⟨budget, first, entered, run⟩ := enters_of_parse accepted
    exact (IsFunction.wholeBody budget).isComposed.keeps kept entered.isAligned run
  intro α inner entry function entered
  have aligned := entered.isAligned
  refine ⟨aligned, ?_, fun front => reread_of_isAligned aligned, ?_, ?_⟩
  · intro value after run
    exact function.isComposed.keeps kept aligned run
  · intro fault after failed lexical
    obtain ⟨scan, asked, stopped, scans, within, fails, point⟩ :=
      function.isComposed.exists_scan failed lexical
    have same : after.lookahead = stopped.lookahead := congrArg Point.lookahead point
    exact ⟨scan, asked, stopped, scans, within, fails, (entered.trans within).isAligned,
      same.trans (scans.lookahead_of_fault fails).1⟩
  · intro scan asked stopped fault scans within fails
    obtain ⟨after, failed, point⟩ := within.fails fails
    obtain ⟨same, lexical⟩ := scans.lookahead_of_fault fails
    exact ⟨after, failed, lexical, (congrArg Point.lookahead point).trans same⟩

/-- Behind a hashbang a slash is read again, and then a string without an end is found. -/
theorem isAligned_of_expression :
    ∃ first fault after,
      Enters "#!x\n /=b/ 'c" { allowHashbang := true } (listItem (.ofBudget 13)) first ∧
      first.point.IsAligned "#!x\n /=b/ 'c" { allowHashbang := true } ∧
      first.lookahead.kind = .symbol AssignmentOperator.divideAssign ∧
      listItem (.ofBudget 13) first = .error fault after ∧
      ∃ asked : State, asked.point.IsAligned "#!x\n /=b/ 'c" { allowHashbang := true } ∧
        after.lookahead = asked.lookahead ∧ asked.lookahead.text = "/=b/" := by
  obtain ⟨first, same⟩ : ∃ first, first =
      stateAfter beginning (.ofSource "#!x\n /=b/ 'c" { allowHashbang := true }) := ⟨_, rfl⟩
  obtain ⟨kind, lexical, text⟩ :
      first.lookahead.kind = .symbol AssignmentOperator.divideAssign ∧
      ((outcome (listItem (.ofBudget 13)) first).mapError (·.cause.category)).map (fun _ => ()) =
        .error .lexical ∧
      (stateAfter (listItem (.ofBudget 13)) first).lookahead.text = "/=b/" := by
    rw [same]
    decide +kernel
  obtain ⟨self, begins⟩ := exists_ok_of_toBool (by decide +kernel : (outcome beginning
    (.ofSource "#!x\n /=b/ 'c" { allowHashbang := true })).toBool = true)
  rw [← same] at begins
  obtain ⟨rfl, -⟩ := (ensures_beginning _).of_ok begins
  cases failed : outcome (listItem (.ofBudget 13)) first with
  | ok value =>
    rw [failed] at lexical
    cases lexical
  | error fault =>
    rw [failed] at lexical
    have run := outcome_eq_error.mp failed
    have entered : Enters "#!x\n /=b/ 'c" { allowHashbang := true } (listItem (.ofBudget 13))
        first :=
      ⟨_, first, begins, isEntered_listItem (by simp [kind]) (by simp [kind])⟩
    obtain ⟨-, enters⟩ := isAligned_of_parse "#!x\n /=b/ 'c" { allowHashbang := true }
    obtain ⟨aligned, -, -, fails, -⟩ := enters _ first (.production 13 .listItem) entered
    obtain ⟨-, asked, -, -, -, -, alignedToo, level⟩ :=
      fails fault _ run (Except.error.inj lexical)
    exact ⟨first, fault, _, entered, aligned, kind, run, asked, alignedToo, level, level ▸ text⟩

end State

end EcmaScript
