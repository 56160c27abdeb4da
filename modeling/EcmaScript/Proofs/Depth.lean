import EcmaScript.Proofs.Rules

/-!
# How deep a token lies

Inside the parentheses of a `for` statement a token may lie deeper: in brackets that were opened
before it, or between a question mark and its colon. `Depth` counts both from the left. Tokens that
may be part of a head leave the depth as it was, and no `in` and no semicolon shows among them at the
outermost level, so that the first one that does is the mark behind them.
-/

namespace EcmaScript

namespace Kind

/-- An opening parenthesis, bracket or brace. -/
def opens : Kind → Bool
  | .symbol (.punctuator .leftParen) | .symbol (.punctuator .leftBracket)
  | .symbol (.punctuator .leftBrace) => true
  | _ => false

/-- A closing parenthesis, bracket or brace. -/
def closes : Kind → Bool
  | .symbol (.punctuator .rightParen) | .symbol (.punctuator .rightBracket)
  | .symbol (.punctuator .rightBrace) => true
  | _ => false

theorem opens_of_closes {kind : Kind} (closes : kind.closes = true) : kind.opens = false :=
  (by decide +kernel : ∀ kind ∈ all, kind.closes = true → kind.opens = false) kind (mem_all kind)
    closes

/-- The kinds that leave the depth as it was: no brackets, no question marks and no colons. -/
def isStill (kind : Kind) : Bool :=
  !kind.opens && !kind.closes && kind != .symbol Punctuator.questionMark &&
    kind != .symbol Punctuator.colon

/-- The kinds that may stand in the head of a `for` statement and mean nothing for its form. -/
def isPlain : Kind → Bool
  | .symbol (.punctuator .questionMark) | .symbol (.punctuator .colon)
  | .symbol (.punctuator .semicolon) | .symbol (.punctuator .period)
  | .symbol (.binary .isIn) => false
  | kind => !kind.opens && !kind.closes

end Kind

namespace Token

/-- The number of open brackets after a token. -/
def nesting (brackets : Nat) (token : Token) : Nat :=
  if token.kind.opens then brackets + 1
  else if token.kind.closes then brackets - 1
  else brackets

/-- An opening bracket and the closing one for it. -/
inductive Pair (opening closing : Token) : Prop where
  | parens : opening.kind = .symbol Punctuator.leftParen →
      closing.kind = .symbol Punctuator.rightParen → Pair opening closing
  | brackets : opening.kind = .symbol Punctuator.leftBracket →
      closing.kind = .symbol Punctuator.rightBracket → Pair opening closing
  | braces : opening.kind = .symbol Punctuator.leftBrace →
      closing.kind = .symbol Punctuator.rightBrace → Pair opening closing

namespace Pair

variable {opening closing : Token}

theorem opens (pair : Pair opening closing) : opening.kind.opens = true := by
  rcases pair with ⟨seen, _⟩ | ⟨seen, _⟩ | ⟨seen, _⟩ <;> rw [seen] <;> rfl

theorem closes (pair : Pair opening closing) : closing.kind.closes = true := by
  rcases pair with ⟨_, seen⟩ | ⟨_, seen⟩ | ⟨_, seen⟩ <;> rw [seen] <;> rfl

end Pair

end Token

/-- The number of open brackets after some tokens. -/
def bracketsAfter (brackets : Nat) (tokens : List Token) : Nat :=
  tokens.foldl Token.nesting brackets

section Brackets

variable {brackets : Nat} {token : Token} {tokens more : List Token}

@[simp] theorem bracketsAfter_nil : bracketsAfter brackets [] = brackets := rfl

@[simp] theorem bracketsAfter_cons :
    bracketsAfter brackets (token :: tokens) =
      bracketsAfter (token.nesting brackets) tokens := rfl

@[simp] theorem bracketsAfter_append :
    bracketsAfter brackets (tokens ++ more) =
      bracketsAfter (bracketsAfter brackets tokens) more :=
  List.foldl_append

theorem Token.nesting_of_opens (opens : token.kind.opens = true) :
    token.nesting brackets = brackets + 1 :=
  if_pos opens

theorem Token.nesting_of_closes (closes : token.kind.closes = true) :
    token.nesting brackets = brackets - 1 := by
  rw [nesting, Kind.opens_of_closes closes, if_neg Bool.false_ne_true, if_pos closes]

theorem Token.nesting_of_level (opens : token.kind.opens = false)
    (closes : token.kind.closes = false) : token.nesting brackets = brackets := by
  rw [nesting, opens, closes, if_neg Bool.false_ne_true, if_neg Bool.false_ne_true]

end Brackets

/-- Tokens in which every bracket has its partner. -/
inductive Balanced : List Token → Prop where
  | nil : Balanced []
  | level {token : Token} {tokens : List Token} : token.kind.opens = false →
      token.kind.closes = false → Balanced tokens → Balanced (token :: tokens)
  | enclosed {opening closing : Token} {inner tokens : List Token} : opening.Pair closing →
      Balanced inner → Balanced tokens → Balanced (opening :: (inner ++ closing :: tokens))

namespace Balanced

variable {tokens more front back : List Token}

theorem append (left : Balanced tokens) (right : Balanced more) : Balanced (tokens ++ more) := by
  induction left with
  | nil => exact right
  | level opens closes _ ih => exact .level opens closes ih
  | enclosed pair inner _ _ ih =>
    rw [List.cons_append, List.append_assoc]
    exact .enclosed pair inner ih

/-- Balanced tokens leave as many brackets open as there were before. -/
theorem bracketsAfter_eq (balanced : Balanced tokens) (brackets : Nat) :
    bracketsAfter brackets tokens = brackets := by
  induction balanced generalizing brackets with
  | nil => rfl
  | level opens closes _ ih => rw [bracketsAfter_cons, Token.nesting_of_level opens closes, ih]
  | enclosed pair _ _ inner rest =>
    rw [bracketsAfter_cons, bracketsAfter_append, Token.nesting_of_opens pair.opens, inner,
      bracketsAfter_cons, Token.nesting_of_closes pair.closes, Nat.add_sub_cancel, rest]

/-- Nothing that was open before is closed on the way through balanced tokens. -/
theorem le_bracketsAfter (balanced : Balanced tokens) (whole : tokens = front ++ back)
    (brackets : Nat) : brackets ≤ bracketsAfter brackets front := by
  induction balanced generalizing front back brackets with
  | nil =>
    obtain ⟨rfl, _⟩ := List.append_eq_nil_iff.mp whole.symm
    exact Nat.le_refl _
  | level opens closes _ ih =>
    rcases List.cons_eq_append_iff.mp whole with ⟨rfl, _⟩ | ⟨front, rfl, same⟩
    · exact Nat.le_refl _
    · rw [bracketsAfter_cons, Token.nesting_of_level opens closes]
      exact ih same _
  | @enclosed opening closing inner tokens pair balanced _ ihInner ihRest =>
    rcases List.cons_eq_append_iff.mp whole with ⟨rfl, _⟩ | ⟨front, rfl, same⟩
    · exact Nat.le_refl _
    rw [bracketsAfter_cons, Token.nesting_of_opens pair.opens]
    rcases List.append_eq_append_iff.mp same with ⟨last, rfl, rest⟩ | ⟨last, inside, _⟩
    · rw [bracketsAfter_append, balanced.bracketsAfter_eq]
      rcases List.cons_eq_append_iff.mp rest with ⟨rfl, _⟩ | ⟨last, rfl, later⟩
      · exact Nat.le_succ _
      · rw [bracketsAfter_cons, Token.nesting_of_closes pair.closes]
        exact ihRest later _
    · exact Nat.le_trans (Nat.le_succ _) (ihInner inside _)

end Balanced

/-- How deep a token lies: how many brackets are open, and how many question marks outside of these
wait for their colon. -/
structure Depth where
  brackets : Nat := 0
  questions : Nat := 0
  deriving DecidableEq, Repr

namespace Depth

/-- The depth after a token. -/
def after (depth : Depth) (token : Token) : Depth where
  brackets := token.nesting depth.brackets
  questions :=
    if depth.brackets ≠ 0 then depth.questions
    else if token.kind = .symbol Punctuator.questionMark then depth.questions + 1
    else if token.kind = .symbol Punctuator.colon then depth.questions - 1
    else depth.questions

/-- The depth after some tokens. -/
def through (depth : Depth) (tokens : List Token) : Depth :=
  tokens.foldl after depth

variable {depth : Depth} {token : Token} {tokens more front back : List Token}

@[simp] theorem through_nil : depth.through [] = depth := rfl

@[simp] theorem through_cons :
    depth.through (token :: tokens) = (depth.after token).through tokens := rfl

@[simp] theorem through_append :
    depth.through (tokens ++ more) = (depth.through tokens).through more :=
  List.foldl_append

@[simp] theorem brackets_through :
    (depth.through tokens).brackets = bracketsAfter depth.brackets tokens := by
  induction tokens generalizing depth with
  | nil => rfl
  | cons token tokens ih =>
    rw [through_cons, ih]
    rfl

/-- Inside brackets a token changes nothing but their number. -/
theorem after_of_pos (inside : 0 < depth.brackets) :
    depth.after token = { depth with brackets := token.nesting depth.brackets } := by
  rw [after, if_pos (Nat.ne_of_gt inside)]

theorem after_of_isStill (still : token.kind.isStill = true) : depth.after token = depth := by
  simp only [Kind.isStill, Bool.and_eq_true, Bool.not_eq_true', bne_iff_ne] at still
  obtain ⟨⟨⟨opens, closes⟩, question⟩, colon⟩ := still
  simp [after, Token.nesting_of_level opens closes, question, colon]

theorem after_of_isPlain (plain : token.kind.isPlain = true) : depth.after token = depth :=
  after_of_isStill ((by decide +kernel : ∀ kind ∈ Kind.all, kind.isPlain = true →
    kind.isStill = true) _ (Kind.mem_all _) plain)

theorem after_of_name (named : token.kind.isIdentifierName = true) : depth.after token = depth :=
  after_of_isStill ((by decide +kernel : ∀ kind ∈ Kind.all, kind.isIdentifierName = true →
    kind.isStill = true) _ (Kind.mem_all _) named)

end Depth

/-- Inside brackets, balanced tokens leave the depth as it was. -/
theorem Balanced.through_of_pos {tokens : List Token} (balanced : Balanced tokens) {depth : Depth}
    (inside : 0 < depth.brackets) : depth.through tokens = depth := by
  induction balanced generalizing depth with
  | nil => rfl
  | level opens closes _ ih =>
    rw [Depth.through_cons, Depth.after_of_pos inside, Token.nesting_of_level opens closes]
    exact ih inside
  | enclosed pair _ _ inner rest =>
    rw [Depth.through_cons, Depth.through_append, Depth.through_cons, Depth.after_of_pos inside,
      Token.nesting_of_opens pair.opens, inner (Nat.succ_pos _),
      Depth.after_of_pos (Nat.succ_pos _), Token.nesting_of_closes pair.closes,
      Nat.add_sub_cancel, rest inside]

theorem Depth.after_of_question {token : Token} {questions : Nat}
    (seen : token.kind = .symbol Punctuator.questionMark) :
    ({ questions } : Depth).after token = { questions := questions + 1 } := by
  simp [after, Token.nesting, seen, Kind.opens, Kind.closes]

theorem Depth.after_of_opens {token : Token} (opens : token.kind.opens = true) (depth : Depth) :
    depth.after token = { depth with brackets := depth.brackets + 1 } := by
  obtain ⟨noQuestion, noColon⟩ := (by decide +kernel : ∀ kind ∈ Kind.all, kind.opens = true →
    kind ≠ .symbol Punctuator.questionMark ∧ kind ≠ .symbol Punctuator.colon) _
      (Kind.mem_all _) opens
  simp [after, Token.nesting_of_opens opens, noQuestion, noColon]

/-- A group of brackets leaves the depth as it was. -/
theorem Balanced.through_enclosed {opening closing : Token} {inner : List Token}
    (balanced : Balanced inner) (pair : opening.Pair closing) (depth : Depth) :
    depth.through (opening :: (inner ++ [closing])) = depth := by
  rw [Depth.through_cons, Depth.through_append, Depth.through_cons, Depth.through_nil,
    Depth.after_of_opens pair.opens, balanced.through_of_pos (Nat.succ_pos _),
    Depth.after_of_pos (Nat.succ_pos _), Token.nesting_of_closes pair.closes, Nat.add_sub_cancel]

/-- What comes after some tokens of a head lies at its outermost level: outside of brackets, not
between a question mark and its colon, and not directly behind a period. -/
def IsOutermost (front : List Token) : Prop :=
  ({} : Depth).through front = {} ∧ ∀ last ∈ front.getLast?, last.kind ≠ .symbol Punctuator.period

/-- The tokens that tell the two sorts of `for` statements apart. -/
def Token.IsHeadMark (token : Token) : Prop :=
  token.kind = .symbol BinaryOperator.isIn ∨ token.kind = .symbol Punctuator.semicolon

/-- A mark of a head is nothing that neither `in` nor a semicolon is. -/
theorem Token.IsHeadMark.absurd {token : Token} {motive : Kind → Prop} (isMark : token.IsHeadMark)
    (holds : motive token.kind) (isIn : ¬motive (.symbol BinaryOperator.isIn))
    (semicolon : ¬motive (.symbol Punctuator.semicolon)) : False := by
  rcases isMark with seen | seen
  · exact isIn (seen ▸ holds)
  · exact semicolon (seen ▸ holds)

/-- A head is divided by its first `in` or semicolon at the outermost level. -/
structure IsFirstMark (head before : List Token) (mark : Token) (behind : List Token) : Prop where
  whole : head = before ++ mark :: behind
  isMark : mark.IsHeadMark
  outermost : IsOutermost before
  first : ∀ front other back, before = front ++ other :: back → other.IsHeadMark →
    ¬IsOutermost front

/-- Tokens that may be part of a head, where `in` may stand at the outermost level or not. -/
inductive HeadPart : Bool → List Token → Prop where
  | nil {withIn : Bool} : HeadPart withIn []
  | append {withIn : Bool} {tokens more : List Token} : HeadPart withIn tokens →
      HeadPart withIn more → HeadPart withIn (tokens ++ more)
  | plain {withIn : Bool} {token : Token} : token.kind.isPlain = true → HeadPart withIn [token]
  | isIn {token : Token} : token.kind = .symbol BinaryOperator.isIn → HeadPart true [token]
  /-- The name of a property may be the word `in`. -/
  | name {withIn : Bool} {point token : Token} : point.kind = .symbol Punctuator.period →
      token.kind.isIdentifierName = true → HeadPart withIn [point, token]
  | enclosed {withIn : Bool} {opening closing : Token} {inner : List Token} :
      opening.Pair closing → Balanced inner → HeadPart withIn (opening :: (inner ++ [closing]))
  | choice {withIn : Bool} {question colon : Token} {inner : List Token} :
      question.kind = .symbol Punctuator.questionMark → HeadPart true inner →
      colon.kind = .symbol Punctuator.colon → HeadPart withIn (question :: (inner ++ [colon]))

/-- A token of some tokens and others behind them is one of the first or one of the others. -/
theorem split_append {α : Type} {left right front back : List α} {item : α}
    (whole : left ++ right = front ++ item :: back) :
    (∃ rest, left = front ++ item :: rest ∧ back = rest ++ right) ∨
      ∃ more, front = left ++ more ∧ right = more ++ item :: back := by
  rcases List.append_eq_append_iff.mp whole with ⟨more, same, rest⟩ | ⟨rest, same, behind⟩
  · exact .inr ⟨more, same, rest⟩
  · rcases List.cons_eq_append_iff.mp behind with ⟨rfl, same'⟩ | ⟨others, rfl, same'⟩
    · exact .inr ⟨[], by rw [same, List.append_nil, List.append_nil], same'⟩
    · exact .inl ⟨others, same, same'⟩

theorem eq_of_singleton {α : Type} {one item : α} {front back : List α}
    (whole : [one] = front ++ item :: back) : front = [] ∧ one = item := by
  rcases List.cons_eq_append_iff.mp whole with ⟨rfl, same⟩ | ⟨others, rfl, same⟩
  · exact ⟨rfl, (List.cons.inj same).1.symm⟩
  · simp at same

namespace HeadPart

variable {withIn : Bool} {tokens : List Token}

theorem through_eq (part : HeadPart withIn tokens) (questions : Nat) :
    ({ questions } : Depth).through tokens = { questions } := by
  induction part generalizing questions with
  | nil => rfl
  | append _ _ left right => rw [Depth.through_append, left, right]
  | plain plain => exact Depth.after_of_isPlain plain
  | isIn seen => exact Depth.after_of_isStill (by rw [seen]; rfl)
  | @name _ point token period named =>
    rw [Depth.through_cons, Depth.after_of_isStill (by rw [period]; rfl)]
    exact Depth.after_of_name named
  | enclosed pair balanced => exact balanced.through_enclosed pair _
  | @choice _ question colon inner opens _ closes ih =>
    have behind : ({ questions := questions + 1 } : Depth).after colon = { questions } := by
      simp [Depth.after, Token.nesting, closes, Kind.opens, Kind.closes]
    rw [Depth.through_cons, Depth.through_append, Depth.after_of_question opens, ih]
    exact behind

/-- No part of a head ends with a period. -/
theorem last_ne_period (part : HeadPart withIn tokens) :
    ∀ last ∈ tokens.getLast?, last.kind ≠ .symbol Punctuator.period := by
  induction part with
  | nil => simp
  | append _ _ left right =>
    intro last member
    rw [List.getLast?_append] at member
    rcases Option.or_eq_some_iff.mp member with found | ⟨_, found⟩
    · exact right last found
    · exact left last found
  | @plain _ token plain =>
    intro last member seen
    obtain rfl : token = last := Option.some.inj member
    rw [seen] at plain
    cases plain
  | @isIn token seen =>
    intro last member
    obtain rfl : token = last := Option.some.inj member
    rw [seen]
    rintro ⟨⟩
  | @name _ point token _ named =>
    intro last member seen
    obtain rfl : token = last := Option.some.inj member
    rw [seen] at named
    cases named
  | enclosed pair =>
    intro last member
    rw [← List.cons_append, List.getLast?_concat] at member
    cases member
    intro seen
    have closes := pair.closes
    rw [seen] at closes
    cases closes
  | choice _ _ closes =>
    intro last member
    rw [← List.cons_append, List.getLast?_concat] at member
    cases member
    rw [closes]
    rintro ⟨⟩

/-- No mark shows in a part of a head, unless `in` may stand there. -/
theorem exists_period (part : HeadPart withIn tokens) {questions : Nat}
    (barred : questions = 0 → withIn = false) {front back : List Token} {mark : Token}
    (whole : tokens = front ++ mark :: back) (isMark : mark.IsHeadMark)
    (outermost : ({ questions } : Depth).through front = {}) :
    ∃ last ∈ front.getLast?, last.kind = .symbol Punctuator.period := by
  induction part generalizing questions front back with
  | nil => simp at whole
  | append left _ ihLeft ihRight =>
    rcases split_append whole with ⟨rest, same, _⟩ | ⟨more, rfl, same⟩
    · exact ihLeft barred same outermost
    · rw [Depth.through_append, left.through_eq] at outermost
      obtain ⟨last, member, period⟩ := ihRight barred same outermost
      exact ⟨last, by rw [List.getLast?_append, member, Option.some_or]; rfl, period⟩
  | plain plain =>
    obtain ⟨rfl, rfl⟩ := eq_of_singleton whole
    exact (isMark.absurd (motive := (·.isPlain = true)) plain (by decide) (by decide)).elim
  | isIn =>
    obtain ⟨rfl, rfl⟩ := eq_of_singleton whole
    cases barred (congrArg Depth.questions outermost)
  | @name _ point token period named =>
    rcases List.cons_eq_append_iff.mp whole with ⟨rfl, same⟩ | ⟨front, rfl, same⟩
    · obtain ⟨rfl, _⟩ := List.cons.inj same
      exact (isMark.absurd (motive := (· = _)) period (by decide) (by decide)).elim
    · obtain ⟨rfl, _⟩ := eq_of_singleton same
      exact ⟨point, rfl, period⟩
  | @enclosed _ opening closing inner pair balanced =>
    exfalso
    rcases List.cons_eq_append_iff.mp whole with ⟨rfl, same⟩ | ⟨front, rfl, same⟩
    · obtain ⟨rfl, _⟩ := List.cons.inj same
      exact isMark.absurd (motive := (·.opens = true)) pair.opens (by decide) (by decide)
    rcases split_append same with ⟨rest, inside, _⟩ | ⟨more, rfl, last⟩
    · have some := balanced.le_bracketsAfter inside 1
      have none := congrArg Depth.brackets outermost
      rw [Depth.brackets_through, bracketsAfter_cons, Token.nesting_of_opens pair.opens] at none
      exact absurd none (Nat.ne_of_gt some)
    · obtain ⟨_, rfl⟩ := eq_of_singleton last
      exact isMark.absurd (motive := (·.closes = true)) pair.closes (by decide) (by decide)
  | @choice _ question colon inner opens _ closes ih =>
    rcases List.cons_eq_append_iff.mp whole with ⟨rfl, same⟩ | ⟨front, rfl, same⟩
    · obtain ⟨rfl, _⟩ := List.cons.inj same
      exact (isMark.absurd (motive := (· = _)) opens (by decide) (by decide)).elim
    rcases split_append same with ⟨rest, inside, _⟩ | ⟨more, rfl, last⟩
    · rw [Depth.through_cons, Depth.after_of_question opens] at outermost
      have deeper : questions + 1 = 0 → true = false := fun none => absurd none (Nat.succ_ne_zero _)
      obtain ⟨last, member, period⟩ := ih deeper inside outermost
      exact ⟨last, by rw [List.getLast?_cons, member]; rfl, period⟩
    · obtain ⟨_, rfl⟩ := eq_of_singleton last
      exact (isMark.absurd (motive := (· = _)) closes (by decide) (by decide)).elim

/-- The first mark of a head is the one behind a part where `in` may not stand. -/
theorem isFirstMark {before behind : List Token} {mark : Token} (part : HeadPart false before)
    (isMark : mark.IsHeadMark) : IsFirstMark (before ++ mark :: behind) before mark behind where
  whole := rfl
  isMark := isMark
  outermost := ⟨part.through_eq 0, part.last_ne_period⟩
  first front other back whole isMark outermost := by
    obtain ⟨last, member, period⟩ := part.exists_period (fun _ => rfl) whole isMark outermost.1
    exact outermost.2 last member period

end HeadPart

end EcmaScript
