import EcmaScript.Proofs.Completion
import EcmaScript.Proofs.Restoration
import EcmaScript.Proofs.Sufficiency

/-!
# What suffixes and the word `new` belong to

An expression that may be assigned to or called is written as words `new`, an operand, and suffixes:
names, properties in brackets, and arguments in parentheses. Suffixes apply from the left to the
right, arguments belong to the innermost word that is still without any, and where there is no such
word they make a call. The grammar has a level for each word instead, and a level inside of another
one stops in front of arguments that it may not take.
-/

namespace EcmaScript

open Parse Grammar

/-- What may follow an operand, with the end of its last token. -/
inductive Suffix where
  | dot (name : Identifier) (stop : Position)
  | index (property : Expression) (stop : Position)
  | arguments (items : List Expression) (stop : Position)

namespace Suffix

/-- What a suffix makes of an expression that begins at a position. -/
def on (start : Position) (value : Expression) : Suffix → Expression
  | .dot name stop => .dot value name ⟨start, stop⟩
  | .index property stop => .index value property ⟨start, stop⟩
  | .arguments items stop => .call value items ⟨start, stop⟩

/-- A level of the grammar without calls stops in front of arguments. -/
def isTaken (withCalls : Bool) : Suffix → Bool
  | .dot .. | .index .. => true
  | .arguments .. => withCalls

/-- A suffix from one state to another, its parts read by a grammar. -/
inductive Stands (self : Nonterminals) : Suffix → State → State → Prop where
  | dot {state next last : State} {name : Identifier} :
      state.lookahead.kind = .symbol Punctuator.period → consume state = .ok () next →
      identifierName next = .ok name last → Stands self (.dot name last.consumedEnd) state last
  | index {state next closing last : State} {property : Expression} :
      state.lookahead.kind = .symbol Punctuator.leftBracket → consume state = .ok () next →
      withIn self.expression next = .ok property closing →
      require Punctuator.rightBracket closing = .ok () last →
      Stands self (.index property last.consumedEnd) state last
  | arguments {state last : State} {items : List Expression} :
      Grammar.arguments self state = .ok items last →
      Stands self (.arguments items last.consumedEnd) state last

/-- Suffixes one behind the other. -/
inductive Chain (self : Nonterminals) : List Suffix → State → State → Prop where
  | none {state : State} : Chain self [] state state
  | more {part : Suffix} {parts : List Suffix} {state next last : State} :
      part.Stands self state next → Chain self parts next last →
      Chain self (part :: parts) state last

end Suffix

/-- An operand that suffixes are put to, with the words `new` before it that are still without
arguments. -/
structure Operand where
  start : Position
  value : Expression
  /-- Where the words begin, the innermost first. -/
  words : List Position

namespace Operand

/-- A suffix applies to what has been built so far. Arguments are those of the innermost word. -/
def take (operand : Operand) (part : Suffix) : Operand :=
  match part, operand.words with
  | .arguments items stop, word :: words => ⟨word, .new operand.value items ⟨word, stop⟩, words⟩
  | part, _ => { operand with value := part.on operand.start operand.value }

/-- The words that are left are without arguments, and end where the operand ends. -/
def close (operand : Operand) (stop : Position) : Expression :=
  operand.words.foldl (fun callee word => .new callee [] ⟨word, stop⟩) operand.value

/-- The operand with more words outside. -/
def within (operand : Operand) (outer : List Position) : Operand :=
  { operand with words := operand.words ++ outer }

end Operand

/-- Words `new` from one state to another, by where they begin, the outermost first. -/
inductive State.NewWords : List Position → State → State → Prop where
  | none {state : State} : NewWords [] state state
  | more {state next last : State} {words : List Position} :
      state.lookahead.kind = .symbol Keyword.newWord → consume state = .ok () next →
      NewWords words next last → NewWords (state.lookahead.span.start :: words) state last

/-! ### The same text with another budget -/

/-- A parse and another one of the same text. -/
def Alignment.sameText (returns : Bool) : Alignment :=
  .unchanged returns (fun _ => True) (fun _ _ => trivial) fun _ _ => trivial

/-- States that differ in nothing that a parse looks at. -/
def State.Agrees (first second : State) : Prop :=
  (Alignment.sameText first.options.allowReturnOutsideFunction).Related True first second

namespace State.Agrees

variable {first second next : State}

theorem refl (state : State) : state.Agrees state :=
  Alignment.related_unchanged state trivial rfl

theorem point (agrees : first.Agrees second) : second.point = first.point :=
  agrees.level trivial

theorem lookahead (agrees : first.Agrees second) : second.lookahead = first.lookahead :=
  congrArg Point.lookahead agrees.point

theorem consumedEnd (agrees : first.Agrees second) : second.consumedEnd = first.consumedEnd :=
  congrArg Point.consumedEnd agrees.point

theorem of_related {returns : Bool}
    (related : (Alignment.sameText returns).Related True first second) : first.Agrees second := by
  have same : first.options.allowReturnOutsideFunction = returns := related.firstReturns
  rw [State.Agrees, same]
  exact related

/-- Actions that follow each other have the same results. -/
theorem follow {α : Type} [Located α] (agrees : first.Agrees second) {action other : Parse α}
    {after : Alignment → α → Prop} {value : α}
    (unmoved : ∀ value : α, Located.relocate id value = value)
    (follows : ∀ {σ : Alignment}, σ.Follows .inside .inside False action other (after σ))
    (run : action first = .ok value next) :
    ∃ last, other second = .ok value last ∧ next.Agrees last := by
  have begins : (Alignment.sameText first.options.allowReturnOutsideFunction).Related
      (True ∨ False) first second := Alignment.Related.congr (by simp) agrees
  obtain ⟨result, last, runToo, same, related⟩ := follows.ok begins run trivial
  have same : Located.relocate id value = Located.relocate id result := same
  rw [unmoved, unmoved] at same
  subst same
  exact ⟨last, runToo, of_related (related.congr (by simp))⟩

theorem consume (agrees : first.Agrees second) (inside : first.lookahead.lexeme ≠ .endOfFile)
    (run : Parse.consume first = .ok () next) :
    ∃ last, Parse.consume second = .ok () last ∧ next.Agrees last := by
  obtain ⟨last, runToo, related, -⟩ := Alignment.Related.consume agrees inside run trivial
  exact ⟨last, runToo, of_related related⟩

end State.Agrees

/-! ### What the levels of the grammar take -/

theorem Parse.bind_of_ok {α β : Type} {action : Parse α} {rest : α → Parse β} {value : α}
    {state next : State} (run : action state = .ok value next) :
    (action >>= rest) state = rest value next := by
  change EStateM.bind action rest state = _
  rw [EStateM.bind, run]

/-- An action that has a result comes to it, and to the state after it. -/
theorem Parse.eq_ok_of_isSome {α : Type} {action : Parse α} {state : State}
    (some : (action.run' state).isSome = true) :
    action state = .ok ((action.run' state).get some) (stateAfter action state) := by
  unfold EStateM.run' EStateM.run stateAfter at *
  revert some
  cases action state with
  | ok => exact fun _ => rfl
  | error => exact nofun

theorem Parse.kind_of_require {expected : Kind} {state next : State}
    (run : require expected state = .ok () next) : state.lookahead.kind = expected := by
  by_contra missed
  rw [require, sees_bind, if_neg (by simpa using missed)] at run
  cases run

theorem Located.relocate_id_expressions (items : List Expression) :
    Located.relocate id items = items :=
  List.map_id'' Expression.relocate_id items

namespace Suffix

variable {budget larger : Nat} {state next last mate : State}

/-- A suffix that may be taken is taken. -/
theorem Stands.suffixes {part : Suffix} (stands : part.Stands (.ofBudget budget) state next)
    (enough : budget ≤ larger) (agrees : state.Agrees mate) {withCalls : Bool}
    (taken : part.isTaken withCalls = true) :
    ∃ last, next.Agrees last ∧ ∀ start turns value,
      Grammar.suffixes (.ofBudget larger) withCalls start (turns + 1) value mate =
        Grammar.suffixes (.ofBudget larger) withCalls start turns (part.on start value) last := by
  have nested {σ : Alignment} := Nonterminals.follows_ofBudget (σ := σ) enough
  cases stands with
  | dot isPeriod consumes named =>
    have lexeme := lexeme_of_kind isPeriod
    obtain ⟨behind, consumesToo, agrees⟩ := agrees.consume (by simp [lexeme]) consumes
    obtain ⟨last, namedToo, agrees⟩ := agrees.follow Identifier.relocate_id .identifierName named
    refine ⟨last, agrees, fun start turns value => ?_⟩
    rw [Grammar.suffixes, lookahead_bind, ‹state.Agrees mate›.lookahead, lexeme,
      ← agrees.consumedEnd]
    change (Parse.consume >>= fun _ => _) mate = _
    rw [bind_of_ok consumesToo, bind_of_ok namedToo]
    rfl
  | index isOpening consumes inside closes =>
    have lexeme := lexeme_of_kind isOpening
    have here := agrees.lookahead
    obtain ⟨behind, consumesToo, agrees⟩ := agrees.consume (by simp [lexeme]) consumes
    obtain ⟨closing, insideToo, agrees⟩ :=
      agrees.follow Expression.relocate_id (.withIn nested.expression) inside
    obtain ⟨last, closesToo, agrees⟩ := agrees.follow (fun _ => rfl) .require closes
    refine ⟨last, agrees, fun start turns value => ?_⟩
    rw [Grammar.suffixes, lookahead_bind, here, lexeme, ← agrees.consumedEnd]
    change (Parse.consume >>= fun _ => _) mate = _
    rw [bind_of_ok consumesToo, bind_of_ok insideToo, bind_of_ok closesToo]
    rfl
  | arguments inside =>
    obtain rfl : withCalls = true := taken
    obtain ⟨_, _, opens, -⟩ := bind_eq_ok.mp inside
    have here := agrees.lookahead
    obtain ⟨last, insideToo, agrees⟩ :=
      agrees.follow Located.relocate_id_expressions (follows_arguments nested) inside
    refine ⟨last, agrees, fun start turns value => ?_⟩
    rw [Grammar.suffixes, lookahead_bind, here, lexeme_of_kind (kind_of_require opens),
      ← agrees.consumedEnd]
    change (Grammar.arguments _ >>= fun _ => _) mate = _
    rw [bind_of_ok insideToo]
    rfl

end Suffix

namespace Operand

variable {withCalls : Bool} {before after : Operand} {parts rest : List Suffix}

@[simp] theorem within_within (operand : Operand) (inner outer : List Position) :
    (operand.within inner).within outer = operand.within (inner ++ outer) := by
  simp [within]

/-- One word more stands outside of the others. -/
theorem within_of_cons (start : Position) (value : Expression) (word : Position)
    (words : List Position) :
    (⟨start, value, (word :: words).reverse⟩ : Operand) =
      within ⟨start, value, words.reverse⟩ [word] := by
  simp [within]

theorem close_within_singleton (operand : Operand) (word stop : Position) :
    (operand.within [word]).close stop = .new (operand.close stop) [] ⟨word, stop⟩ := by
  simp [within, close]

/-- A level of the grammar comes from one operand to another with some of the suffixes, and stops in
front of the rest. There is none unless arguments are next that belong to a word outside. -/
structure Comes (withCalls : Bool) (before after : Operand) (parts rest : List Suffix) : Prop where
  takes : ∃ front, parts = front ++ rest ∧ ∀ outer, (withCalls = true → outer = []) →
    front.foldl take (before.within outer) = after.within outer
  stops : rest = [] ∨ withCalls = false ∧ after.words = [] ∧
    ∃ items stop others, rest = .arguments items stop :: others

namespace Comes

theorem nil : Comes withCalls before before [] [] :=
  ⟨⟨[], rfl, fun _ _ => rfl⟩, .inl rfl⟩

/-- With calls every suffix is taken. -/
theorem foldl_take (comes : Comes true before after parts rest) :
    parts.foldl take before = after ∧ rest = [] := by
  obtain ⟨⟨front, rfl, takes⟩, stops⟩ := comes
  obtain rfl : rest = [] := by simpa using stops
  have all := takes [] fun _ => rfl
  simpa [within] using all

/-- A suffix that is taken where no words are left. -/
theorem cons {start : Position} {value : Expression} {part : Suffix}
    (taken : part.isTaken withCalls = true)
    (comes : Comes withCalls ⟨start, part.on start value, []⟩ after parts rest) :
    Comes withCalls ⟨start, value, []⟩ after (part :: parts) rest := by
  obtain ⟨⟨front, rfl, takes⟩, stops⟩ := comes
  refine ⟨⟨part :: front, rfl, fun outer allowed => ?_⟩, stops⟩
  rw [List.foldl_cons, ← takes outer allowed]
  cases part with
  | dot | index => rfl
  | arguments =>
    rw [allowed taken]
    rfl

/-- A level with all of the suffixes stands behind a word, which stays without arguments. -/
theorem bare (comes : Comes false before after parts []) (word : Position) :
    Comes withCalls (before.within [word]) (after.within [word]) parts [] := by
  obtain ⟨⟨front, whole, takes⟩, -⟩ := comes
  refine ⟨⟨front, whole, fun outer _ => ?_⟩, .inl rfl⟩
  rw [within_within, within_within]
  exact takes _ nofun

/-- A level stands behind a word, which has the arguments that are next. -/
theorem arguments {items : List Expression} {word stop : Position} {last : Operand}
    {others : List Suffix}
    (comes : Comes false before after parts (.arguments items stop :: others))
    (further : Comes withCalls ⟨word, .new after.value items ⟨word, stop⟩, []⟩ last others rest) :
    Comes withCalls (before.within [word]) last parts rest := by
  obtain ⟨⟨front, rfl, takes⟩, stops⟩ := comes
  obtain ⟨⟨more, rfl, takesMore⟩, stopsMore⟩ := further
  obtain ⟨-, none, -⟩ : false = false ∧ after.words = [] ∧ _ := stops.resolve_left nofun
  refine ⟨⟨front ++ .arguments items stop :: more, by simp, fun outer allowed => ?_⟩, stopsMore⟩
  rw [List.foldl_append, within_within, takes _ nofun, List.foldl_cons, ← takesMore outer allowed]
  simp [take, within, none]

end Comes

end Operand

namespace Grammar

variable {budget larger : Nat} {state next last mate operand : State} {withCalls : Bool}
  {parts : List Suffix} {value : Expression}

theorem not_startsSuffix {lexeme : Lexeme} (ends : startsSuffix true lexeme = false) :
    startsSuffix withCalls lexeme = false := by
  unfold startsSuffix at ends ⊢
  split <;> simp_all

/-- The loop over suffixes takes those that it may take. -/
theorem suffixes_of_chain (chain : Suffix.Chain (.ofBudget budget) parts state last)
    (ends : startsSuffix true last.lookahead.lexeme = false) (enough : budget ≤ larger)
    (agrees : state.Agrees mate) {turns : Nat} (room : parts.length < turns) (start : Position)
    (value : Expression) :
    ∃ after rest middle behind, Operand.Comes withCalls ⟨start, value, []⟩ after parts rest ∧
      after.words = [] ∧ Suffix.Chain (.ofBudget budget) rest middle last ∧
      middle.Agrees behind ∧
      suffixes (.ofBudget larger) withCalls start turns value mate = .ok after.value behind := by
  induction chain generalizing mate turns value with
  | none =>
    refine ⟨_, _, _, mate, .nil, rfl, .none, agrees, ?_⟩
    exact suffixes_of_end room (by rw [agrees.lookahead]; exact not_startsSuffix ends)
  | @more part parts state next last stands others ih =>
    by_cases taken : part.isTaken withCalls = true
    · obtain ⟨turns, rfl⟩ := Nat.exists_eq_add_of_lt room
      obtain ⟨behind, agrees, step⟩ := stands.suffixes enough agrees taken
      have room : parts.length < parts.length + 1 + turns := by omega
      obtain ⟨after, rest, middle, further, comes, none, chain, agrees, run⟩ :=
        ih ends agrees room (part.on start value)
      exact ⟨after, rest, middle, further, comes.cons taken, none, chain, agrees,
        (step ..).trans run⟩
    · cases stands with
      | dot | index => exact absurd rfl taken
      | arguments inside =>
        obtain rfl : withCalls = false := by simpa [Suffix.isTaken] using taken
        obtain ⟨_, _, opens, -⟩ := bind_eq_ok.mp inside
        refine ⟨⟨start, value, []⟩, _, state, mate, ⟨⟨[], rfl, fun _ _ => rfl⟩, ?_⟩, rfl,
          .more (.arguments inside) others, agrees, suffixes_of_end (by omega) ?_⟩
        · exact .inr ⟨rfl, rfl, _, _, _, rfl⟩
        · rw [agrees.lookahead, lexeme_of_kind (kind_of_require opens)]
          rfl

theorem kind_ne_of_primary {self : Nonterminals}
    (run : primary self state = .ok value next) :
    state.lookahead.kind ≠ .symbol Keyword.newWord := by
  intro isNew
  rw [primary, lookahead_bind, lexeme_of_kind isNew] at run
  cases run

theorem newExpression_bare {larger : Nat} {behind : State} {callee : Expression}
    (isNew : mate.lookahead.kind = .symbol Keyword.newWord) (consumes : consume mate = .ok () next)
    (run : leftHandSide (.ofBudget larger) false next = .ok callee behind)
    (alone : startsSuffix true behind.lookahead.lexeme = false) :
    newExpression (.ofBudget (larger + 1)) mate =
      .ok (.new callee [] ⟨mate.lookahead.span.start, behind.consumedEnd⟩) behind := by
  have noArguments : ¬(behind.lookahead.kind == .symbol Punctuator.leftParen) = true := by
    intro opens
    rw [lexeme_of_kind (eq_of_beq opens)] at alone
    cases alone
  have run : (Nonterminals.ofBudget (larger + 1)).callee next = .ok callee behind := run
  rw [newExpression, nodeStart_bind, require_bind isNew consumes, bind_of_ok run, sees_bind]
  dsimp only
  rw [if_neg noArguments, pure_bind]
  rfl

theorem newExpression_with {larger : Nat} {behind last : State} {callee : Expression}
    {items : List Expression} (isNew : mate.lookahead.kind = .symbol Keyword.newWord)
    (consumes : consume mate = .ok () next)
    (run : leftHandSide (.ofBudget larger) false next = .ok callee behind)
    (inside : arguments (.ofBudget (larger + 1)) behind = .ok items last) :
    newExpression (.ofBudget (larger + 1)) mate =
      .ok (.new callee items ⟨mate.lookahead.span.start, last.consumedEnd⟩) last := by
  obtain ⟨_, _, opens, -⟩ := bind_eq_ok.mp inside
  have run : (Nonterminals.ofBudget (larger + 1)).callee next = .ok callee behind := run
  rw [newExpression, nodeStart_bind, require_bind isNew consumes, bind_of_ok run, sees_bind]
  dsimp only
  rw [if_pos (by simpa using kind_of_require opens), bind_of_ok inside]
  rfl

theorem leftHandSide_of_new {self : Nonterminals}
    (isNew : state.lookahead.kind = .symbol Keyword.newWord)
    (run : newExpression self state = .ok value next) :
    leftHandSide self withCalls state =
      suffixes self withCalls state.lookahead.span.start self.turns value next := by
  rw [leftHandSide, nodeStart_bind, sees_bind]
  dsimp only
  rw [if_pos (by simpa using isNew), bind_of_ok run]

/-- A level without a word begins with the operand. -/
theorem leftHandSide_of_operand (read : primary (.ofBudget budget) state = .ok value next)
    (chain : Suffix.Chain (.ofBudget budget) parts next last)
    (ends : startsSuffix true last.lookahead.lexeme = false)
    (enough : budget + parts.length < larger) (agrees : state.Agrees mate) :
    ∃ after rest middle behind,
      Operand.Comes withCalls ⟨state.lookahead.span.start, value, []⟩ after parts rest ∧
      Suffix.Chain (.ofBudget budget) rest middle last ∧ middle.Agrees behind ∧
      leftHandSide (.ofBudget larger) withCalls mate =
        .ok (after.close last.consumedEnd) behind := by
  have enough : budget ≤ larger := by omega
  have plain := kind_ne_of_primary read
  rw [← agrees.lookahead] at plain ⊢
  obtain ⟨behind, run, agrees⟩ := agrees.follow Expression.relocate_id
    (follows_primary (Nonterminals.follows_ofBudget enough)) read
  have room : parts.length < (Nonterminals.ofBudget larger).turns := by
    rw [Nonterminals.turns_ofBudget]
    omega
  obtain ⟨after, rest, middle, further, comes, none, chain, agrees, runSuffixes⟩ :=
    suffixes_of_chain chain ends enough agrees room mate.lookahead.span.start value
  refine ⟨after, rest, middle, further, comes, chain, agrees, ?_⟩
  rw [leftHandSide, nodeStart_bind, sees_bind]
  dsimp only
  rw [if_neg (by simpa using plain), bind_of_ok run, runSuffixes, Operand.close, none]
  rfl

/-- Each level of the grammar takes what belongs to its operand and to its words. -/
theorem leftHandSide_of_newWords (withCalls : Bool) {words : List Position}
    (news : state.NewWords words operand) (read : primary (.ofBudget budget) operand = .ok value next)
    (chain : Suffix.Chain (.ofBudget budget) parts next last)
    (ends : startsSuffix true last.lookahead.lexeme = false)
    (enough : budget + words.length + parts.length < larger) (agrees : state.Agrees mate) :
    ∃ after rest middle behind,
      Operand.Comes withCalls ⟨operand.lookahead.span.start, value, words.reverse⟩ after parts
        rest ∧
      Suffix.Chain (.ofBudget budget) rest middle last ∧ middle.Agrees behind ∧
      leftHandSide (.ofBudget larger) withCalls mate =
        .ok (after.close last.consumedEnd) behind := by
  induction news generalizing withCalls larger mate with
  | none =>
    exact leftHandSide_of_operand read chain ends (by simpa using enough) agrees
  | @more state next operand words isNew consumes _ ih =>
    rw [List.length_cons] at enough
    obtain ⟨larger, rfl⟩ := Nat.exists_eq_add_of_lt (Nat.zero_lt_of_lt enough)
    rw [Nat.zero_add] at enough ⊢
    have here := agrees.lookahead
    obtain ⟨mate', consumesToo, agrees⟩ :=
      agrees.consume (by simp [lexeme_of_kind isNew]) consumes
    have fewer : budget + words.length + parts.length < larger := by omega
    obtain ⟨after, rest, middle, behind, comes, chain, agrees, run⟩ := ih false read fewer agrees
    have isNewToo : mate.lookahead.kind = .symbol Keyword.newWord := by rw [here, isNew]
    rw [Operand.within_of_cons]
    rcases comes.stops with rfl | ⟨-, noWords, items, stop, others, rfl⟩
    · cases chain with
      | none =>
        have alone : startsSuffix true behind.lookahead.lexeme = false := by
          rwa [agrees.lookahead]
        have whole := newExpression_bare isNewToo consumesToo run alone
        refine ⟨_, [], last, behind, comes.bare _, .none, agrees, ?_⟩
        rw [leftHandSide_of_new isNewToo whole, Operand.close_within_singleton, here,
          agrees.consumedEnd]
        refine suffixes_of_end ?_ (not_startsSuffix alone)
        rw [Nonterminals.turns_ofBudget]
        exact Nat.succ_pos _
    · cases chain with
      | more stands chain =>
        cases stands with
        | arguments inside =>
          rename_i closing
          have enough' : budget ≤ larger + 1 := by omega
          obtain ⟨closing', insideToo, agrees⟩ := agrees.follow Located.relocate_id_expressions
            (follows_arguments (Nonterminals.follows_ofBudget enough')) inside
          have room : others.length < (Nonterminals.ofBudget (larger + 1)).turns := by
            obtain ⟨⟨front, rfl, -⟩, -⟩ := comes
            rw [Nonterminals.turns_ofBudget]
            simp at enough
            omega
          obtain ⟨final, rest, middle, further, comesToo, none, chain, agreesToo, runSuffixes⟩ :=
            suffixes_of_chain chain ends enough' agrees room state.lookahead.span.start
              (.new after.value items ⟨state.lookahead.span.start, closing.consumedEnd⟩)
          refine ⟨final, rest, middle, further, comes.arguments comesToo, chain, agreesToo, ?_⟩
          have whole := newExpression_with isNewToo consumesToo run insideToo
          rw [leftHandSide_of_new isNewToo whole, here, agrees.consumedEnd,
            Operand.close, noWords, List.foldl_nil, runSuffixes, Operand.close, none]
          rfl

/-- Where calls are allowed, a left-hand side is read to its end: words `new`, an operand and
suffixes become the tree in which each suffix applies to what stands before it, arguments belong to
the innermost word that is without any, and the words that are left have none. -/
theorem leftHandSide_of_suffixes {words : List Position} (news : state.NewWords words operand)
    (read : primary (.ofBudget budget) operand = .ok value next)
    (chain : Suffix.Chain (.ofBudget budget) parts next last)
    (ends : startsSuffix true last.lookahead.lexeme = false) (enough : state.ahead ≤ larger) :
    ∃ after, leftHandSide (.ofBudget larger) true state =
        .ok ((parts.foldl Operand.take
          ⟨operand.lookahead.span.start, value, words.reverse⟩).close last.consumedEnd) after ∧
      after.point = last.point := by
  obtain ⟨most, all, many⟩ : ∃ most, larger ≤ most ∧ budget + words.length + parts.length < most :=
    ⟨max larger (budget + words.length + parts.length + 1), by omega, by omega⟩
  have level := leftHandSide_of_newWords true news read chain ends many (.refl state)
  obtain ⟨taken, rest, middle, behind, comes, chain, agrees, run⟩ := level
  obtain ⟨rfl, rfl⟩ := comes.foldl_take
  cases chain
  -- With fewer turns the result is the same, for all turns that there are suffice.
  have follows {σ : Alignment} : σ.Follows .inside .inside False
      (leftHandSide (.ofBudget larger) true) (leftHandSide (.ofBudget most) true) σ.Marks :=
    follows_leftHandSide (Nonterminals.follows_ofBudget all)
  have settles : (leftHandSide (.ofBudget larger) true).Settles state 1 :=
    settles_leftHandSide (Nonterminals.settles_ofBudget larger) enough
  cases fewer : leftHandSide (.ofBudget larger) true state with
  | ok result after =>
    obtain ⟨last, runToo, agreesToo⟩ :=
      (State.Agrees.refl state).follow Expression.relocate_id follows fewer
    rw [run] at runToo
    cases runToo
    exact ⟨after, rfl, agreesToo.point.symm.trans agrees.point⟩
  | error fault after =>
    have related : (Alignment.sameText _).Related (True ∨ False) state state :=
      Alignment.Related.congr (by simp) (State.Agrees.refl state)
    obtain ⟨_, _, runToo, -⟩ := follows.error related fewer (settles.error fewer) trivial
    cases run.symm.trans runToo

/-- The inner word has the first arguments and the outer one the second, behind an index; the third
are those of a call. -/
theorem leftHandSide_of_mixed_suffixes :
    ∃ object name first property second third after, ∃ s₁ s₂ s₃ s₄ s₅ : Span,
      leftHandSide (.ofBudget 40) true
          (stateAfter consume (.ofSource "new new a.b(c)[d](e)(f)" {})) =
        .ok (.call (.new (.index (.new (.dot object name s₁) first s₂) property s₃) second s₄) third
          s₅) after := by
  have begins : (consume.run'
      (stateAfter consume (.ofSource "new new a.b(c)[d](e)(f)" {}))).isSome = true := by
    decide +kernel
  have news := State.NewWords.more (by decide +kernel) (eq_ok_of_isSome begins)
    (.more (by decide +kernel) (eq_ok_of_isSome (by decide +kernel)) .none)
  obtain ⟨after, run, -⟩ := leftHandSide_of_suffixes news
    (eq_ok_of_isSome (by decide +kernel : ((primary (.ofBudget 3)).run' _).isSome = true))
    (.more (.dot (by decide +kernel) (eq_ok_of_isSome (by decide +kernel))
      (eq_ok_of_isSome (by decide +kernel)))
    (.more (.arguments (eq_ok_of_isSome (by decide +kernel)))
    (.more (.index (by decide +kernel) (eq_ok_of_isSome (by decide +kernel))
      (eq_ok_of_isSome (by decide +kernel)) (eq_ok_of_isSome (by decide +kernel)))
    (.more (.arguments (eq_ok_of_isSome (by decide +kernel)))
    (.more (.arguments (eq_ok_of_isSome (by decide +kernel))) .none)))))
    (by decide +kernel) (by decide +kernel : _ ≤ 40)
  exact ⟨_, _, _, _, _, _, after, _, _, _, _, _, run⟩

end Grammar

end EcmaScript
