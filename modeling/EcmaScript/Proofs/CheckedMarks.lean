import EcmaScript.Proofs.CheckedSteps

/-!
# Marks, step by step

A mark is found by looking at one character after the other: at each of them it is known which marks
may still follow, and the longest one is taken.
-/

namespace EcmaScript

/-- The marks that begin with a character, by the rest of their texts, the longest first. -/
def marksFrom (first : Char) : List (List Char × Symbol) :=
  Symbol.marks.filterMap fun mark =>
    match mark.text.toList with
    | char :: rest => if char = first then some (rest, mark) else none
    | [] => none

namespace Checked

/-- Goes on in one way after a character, and in another way without it. -/
def follow {α : Type} (expected : Char) (next other : Checked α) : Checked α := do
  if ← accept expected then next else other

/-- The mark at hand, from its first character on, which has been moved over. -/
def markAfter (first : Char) : Checked Symbol :=
  match first with
  | '\x7b' => return Punctuator.leftBrace
  | '\x7d' => return Punctuator.rightBrace
  | '(' => return Punctuator.leftParen
  | ')' => return Punctuator.rightParen
  | '[' => return Punctuator.leftBracket
  | ']' => return Punctuator.rightBracket
  | ';' => return Punctuator.semicolon
  | ',' => return Punctuator.comma
  | ':' => return Punctuator.colon
  | '?' => return Punctuator.questionMark
  | '~' => return Punctuator.complement
  | '.' => do
    let next ← peek
    let afterNext ← peekNext
    if next = some '.' ∧ afterNext = some '.' then
      let _ ← advance
      let _ ← advance
      return Punctuator.ellipsis
    else return Punctuator.period
  | '=' =>
    follow '=' (follow '=' (return BinaryOperator.strictEqual) (return BinaryOperator.looseEqual))
      (follow '>' (return Punctuator.arrow) (return AssignmentOperator.assign))
  | '!' =>
    follow '='
      (follow '=' (return BinaryOperator.strictNotEqual) (return BinaryOperator.looseNotEqual))
      (return Punctuator.negate)
  | '+' =>
    follow '+' (return UpdateOperator.increment)
      (follow '=' (return AssignmentOperator.addAssign) (return BinaryOperator.add))
  | '-' =>
    follow '-' (return UpdateOperator.decrement)
      (follow '=' (return AssignmentOperator.subtractAssign) (return BinaryOperator.subtract))
  | '*' =>
    follow '*'
      (follow '=' (return AssignmentOperator.exponentiateAssign)
        (return BinaryOperator.exponentiate))
      (follow '=' (return AssignmentOperator.multiplyAssign) (return BinaryOperator.multiply))
  | '/' => follow '=' (return AssignmentOperator.divideAssign) (return BinaryOperator.divide)
  | '%' => follow '=' (return AssignmentOperator.moduloAssign) (return BinaryOperator.modulo)
  | '<' =>
    follow '<'
      (follow '=' (return AssignmentOperator.shiftLeftAssign) (return BinaryOperator.shiftLeft))
      (follow '=' (return BinaryOperator.lessThanOrEqual) (return BinaryOperator.lessThan))
  | '>' =>
    follow '>'
      (follow '>'
        (follow '=' (return AssignmentOperator.logicalShiftRightAssign)
          (return BinaryOperator.logicalShiftRight))
        (follow '=' (return AssignmentOperator.shiftRightAssign)
          (return BinaryOperator.shiftRight)))
      (follow '=' (return BinaryOperator.greaterThanOrEqual) (return BinaryOperator.greaterThan))
  | '&' =>
    follow '&' (return BinaryOperator.logicalAnd)
      (follow '=' (return AssignmentOperator.bitwiseAndAssign) (return BinaryOperator.bitwiseAnd))
  | '|' =>
    follow '|' (return BinaryOperator.logicalOr)
      (follow '=' (return AssignmentOperator.bitwiseOrAssign) (return BinaryOperator.bitwiseOr))
  | '^' =>
    follow '=' (return AssignmentOperator.bitwiseXorAssign) (return BinaryOperator.bitwiseXor)
  | _ => fault .unexpectedCharacter

/-- A mark, from its first character on. -/
def mark : Checked Symbol := do
  markAfter (← advance)

end Checked

/-- No text stands in front of one that it begins. -/
def IsOrdered (marks : List (List Char × Symbol)) : Prop :=
  marks.Pairwise fun early late => ¬early.1 <+: late.1

instance (marks : List (List Char × Symbol)) : Decidable (IsOrdered marks) :=
  inferInstanceAs (Decidable (marks.Pairwise _))

section Longest

variable {marks others : List (List Char × Symbol)} {text : List Char}

/-- Where no text stands in front of one that it begins, the first mark that fits is the longest. -/
theorem find?_eq_some_iff_longest (ordered : IsOrdered marks) (mark : List Char × Symbol) :
    marks.find? (·.1.isPrefixOf text) = some mark ↔
      mark ∈ marks ∧ mark.1 <+: text ∧
        ∀ other ∈ marks, other.1 <+: text → other.1 <+: mark.1 := by
  induction marks with
  | nil => simp
  | cons first marks ih =>
    obtain ⟨apart, ordered⟩ := List.pairwise_cons.mp ordered
    rw [List.find?_cons]
    cases fits : first.1.isPrefixOf text with
    | true =>
      have fits := List.isPrefixOf_iff_prefix.mp fits
      simp only [Option.some.injEq, List.mem_cons]
      constructor
      · rintro rfl
        refine ⟨.inl rfl, fits, ?_⟩
        rintro other (rfl | member) front
        · exact List.prefix_rfl
        · rcases List.prefix_or_prefix_of_prefix front fits with shorter | longer
          · exact shorter
          · exact absurd longer (apart other member)
      · rintro ⟨rfl | member, front, longest⟩
        · rfl
        · exact absurd (longest first (.inl rfl) fits) (apart mark member)
    | false =>
      have misfit : ¬first.1 <+: text := fun front => by
        rw [List.isPrefixOf_iff_prefix.mpr front] at fits
        cases fits
      dsimp only
      rw [ih ordered]
      simp only [List.mem_cons]
      constructor
      · rintro ⟨member, front, longest⟩
        refine ⟨.inr member, front, ?_⟩
        rintro other (rfl | among) frontToo
        · exact absurd frontToo misfit
        · exact longest other among frontToo
      · rintro ⟨rfl | member, front, longest⟩
        · exact absurd front misfit
        · exact ⟨member, front, fun other among => longest other (.inr among)⟩

/-- The longest mark does not depend on the order of the marks. -/
theorem find?_of_perm (same : marks.Perm others) (ordered : IsOrdered marks)
    (orderedToo : IsOrdered others) :
    marks.find? (·.1.isPrefixOf text) = others.find? (·.1.isPrefixOf text) := by
  apply Option.ext
  intro mark
  rw [find?_eq_some_iff_longest ordered, find?_eq_some_iff_longest orderedToo]
  simp only [same.mem_iff]

/-- The marks that fit a text are those that fit it behind its first character. -/
theorem leadingMark?_cons (first : Char) (text : List Char) :
    Symbol.leadingMark? (first :: text) =
      ((marksFrom first).find? fun mark => mark.1.isPrefixOf text).map Prod.snd := by
  have spelled := Symbol.length_text_pos
  rw [Symbol.leadingMark?, marksFrom]
  generalize Symbol.marks = marks at spelled ⊢
  induction marks with
  | nil => rfl
  | cons mark marks ih =>
    have ih := ih fun other member => spelled other (List.mem_cons_of_mem _ member)
    rw [List.find?_cons, List.filterMap_cons]
    cases front : mark.text.toList with
    | nil =>
      have length := spelled mark List.mem_cons_self
      rw [← String.length_toList, front] at length
      contradiction
    | cons char rest =>
      dsimp only
      by_cases same : char = first
      · subst same
        rw [if_pos rfl, List.isPrefixOf_cons_cons, beq_self_eq_true, Bool.true_and]
        dsimp only
        rw [List.find?_cons]
        cases rest.isPrefixOf text with
        | true => rfl
        | false => exact ih
      · rw [if_neg same, List.isPrefixOf_cons_cons, beq_false_of_ne same, Bool.false_and]
        exact ih

end Longest

namespace Checked

/-- An action finds the first of some marks that the text begins with. -/
def Finds (marks : List (List Char × Symbol)) (action : Checked Symbol) : Prop :=
  ∀ machine, action machine =
    match marks.find? (·.1.isPrefixOf machine.rest) with
    | some (front, symbol) => .ok symbol (machine.skip front.length)
    | none => .error (.fault .unexpectedCharacter) machine

namespace Finds

variable {marks others : List (List Char × Symbol)} {action other : Checked Symbol}

theorem here (symbol : Symbol) : Finds [([], symbol)] (return symbol) := by
  intro machine
  rfl

/-- The marks behind a character come first, and one of them always fits. -/
theorem follow {expected : Char} (next : Finds marks action) (without : Finds others other)
    (total : ∃ mark ∈ marks, mark.1 = []) :
    Finds (marks.map (fun mark => (expected :: mark.1, mark.2)) ++ others)
      (Checked.follow expected action other) := by
  intro machine
  rw [Checked.follow, List.find?_append, List.find?_map]
  by_cases expects : machine.rest.head? = some expected
  · obtain ⟨text, rest⟩ := List.head?_eq_some_iff.mp expects
    have behind : (machine.skip 1).rest = text := by
      rw [Machine.rest_skip, rest]
      rfl
    have same : ((fun mark : List Char × Symbol => mark.1.isPrefixOf machine.rest) ∘
        fun mark : List Char × Symbol => (expected :: mark.1, mark.2)) =
          fun mark => mark.1.isPrefixOf text := by
      funext mark
      rw [Function.comp_apply, rest, List.isPrefixOf_cons_cons, beq_self_eq_true, Bool.true_and]
    rw [bind_ok (accept_eq_true rest), if_pos rfl, next, behind, same]
    cases found : marks.find? (·.1.isPrefixOf text) with
    | none =>
      obtain ⟨mark, member, empty⟩ := total
      have misfit := List.find?_eq_none.mp found mark member
      rw [empty] at misfit
      exact absurd rfl misfit
    | some found =>
      rw [Option.map_some, Option.some_or]
      dsimp only
      rw [Machine.skip_skip, List.length_cons, Nat.add_comm 1]
  · have none : marks.find? ((fun mark : List Char × Symbol => mark.1.isPrefixOf machine.rest) ∘
        fun mark : List Char × Symbol => (expected :: mark.1, mark.2)) = none := by
      rw [List.find?_eq_none]
      intro mark _ fits
      obtain ⟨text, rest⟩ := List.isPrefixOf_iff_prefix.mp fits
      exact expects (by rw [← rest]; rfl)
    rw [bind_ok (accept_eq_false expects), if_neg Bool.false_ne_true, without, none]
    rfl

/-- The order of the marks makes no difference. -/
theorem perm (finds : Finds marks action)
    (same : marks.Perm others ∧ IsOrdered marks ∧ IsOrdered others) : Finds others action := by
  intro machine
  rw [finds, find?_of_perm same.1 same.2.1 same.2.2]

/-- One of two marks is found, a longer and a shorter one. -/
theorem pair (expected : Char) (longer shorter : Symbol) :
    Finds [([expected], longer), ([], shorter)]
      (Checked.follow expected (return longer) (return shorter)) :=
  (Finds.here longer).follow (.here shorter) ⟨_, List.mem_cons_self, rfl⟩

end Finds

/-- No mark begins with any other character. -/
theorem marksFrom_eq_nil {first : Char}
    (other : first ∉ ['\x7b', '\x7d', '(', ')', '[', ']', ';', ',', ':', '?', '~', '.', '=', '!',
      '+', '-', '*', '/', '%', '<', '>', '&', '|', '^']) : marksFrom first = [] := by
  have known : ∀ mark ∈ Symbol.marks, mark.text.toList.head?.all
      ['\x7b', '\x7d', '(', ')', '[', ']', ';', ',', ':', '?', '~', '.', '=', '!',
        '+', '-', '*', '/', '%', '<', '>', '&', '|', '^'].contains = true := by decide +kernel
  rw [marksFrom, List.filterMap_eq_nil_iff]
  intro mark member
  have known := known mark member
  split
  · rename_i char rest spelled
    rw [if_neg]
    rintro rfl
    rw [spelled] at known
    exact other (List.contains_iff_mem.mp known)
  · rfl

/-- The three points of an ellipsis are found at once. -/
theorem Finds.ellipsis :
    Finds [(['.', '.'], Punctuator.ellipsis), ([], Punctuator.period)] (markAfter '.') := by
  intro machine
  rw [markAfter, peek_bind, peekNext_bind, List.find?_cons]
  split
  · rename_i points
    obtain ⟨text, rest⟩ := List.head?_eq_some_iff.mp points.1
    have second := points.2
    rw [rest, List.drop_one, List.tail_cons] at second
    obtain ⟨text, rfl⟩ := List.head?_eq_some_iff.mp second
    have after : (machine.skip 1).rest = '.' :: text := by
      rw [Machine.rest_skip, rest]
      rfl
    rw [advance_bind rest, advance_bind after, Machine.skip_skip, rest]
    rfl
  · rename_i other
    have misfit : ['.', '.'].isPrefixOf machine.rest = false := by
      rw [← Bool.not_eq_true, List.isPrefixOf_iff_prefix]
      rintro ⟨text, rest⟩
      exact other (by rw [← rest]; exact ⟨rfl, rfl⟩)
    rw [misfit]
    rfl

/-- The marks that begin with a character are found behind it. -/
theorem finds_markAfter (first : Char) : Finds (marksFrom first) (markAfter first) := by
  unfold markAfter
  split
  -- The marks that other marks begin with come before the default, in the order of the cases.
  case h_12 => exact Finds.ellipsis.perm (by decide +kernel)
  case h_13 | h_17 | h_20 =>
    exact ((Finds.pair _ _ _).follow (.pair _ _ _) (by decide +kernel)).perm (by decide +kernel)
  case h_14 =>
    exact ((Finds.pair _ _ _).follow (.here _) (by decide +kernel)).perm (by decide +kernel)
  case h_15 | h_16 | h_22 | h_23 =>
    exact ((Finds.here _).follow (.pair _ _ _) (by decide +kernel)).perm (by decide +kernel)
  case h_18 | h_19 | h_24 => exact (Finds.pair _ _ _).perm (by decide +kernel)
  case h_21 =>
    exact (((Finds.pair _ _ _).follow (.pair _ _ _) (by decide +kernel)).follow (.pair _ _ _)
      (by decide +kernel)).perm (by decide +kernel)
  case h_25 =>
    rw [marksFrom_eq_nil]
    · intro machine
      rfl
    · intro member
      simp_all only [imp_false, List.mem_cons, List.not_mem_nil, or_self]
  all_goals exact (Finds.here _).perm (by decide +kernel)

/-- A mark is found where one begins. -/
theorem mark_eq {machine : Machine} {first : Char} {text : List Char}
    (rest : machine.rest = first :: text) :
    mark machine =
      (match Symbol.leadingMark? machine.rest with
        | some mark => .success mark.text.length mark
        | none => .failure 1 .unexpectedCharacter 0 : Reading Symbol).outcome machine := by
  have behind : (machine.skip 1).rest = text := by
    rw [Machine.rest_skip, rest]
    rfl
  rw [mark, advance_bind rest, finds_markAfter, behind, rest, leadingMark?_cons]
  cases found : (marksFrom first).find? (·.1.isPrefixOf text) with
  | none => rfl
  | some mark =>
    have spelled : mark.2.text.toList = first :: mark.1 := by
      have member := List.mem_of_find?_eq_some found
      rw [marksFrom, List.mem_filterMap] at member
      obtain ⟨symbol, -, same⟩ := member
      split at same
      · rename_i char rest spelled
        split at same
        · rename_i first
          cases same
          exact first ▸ spelled
        · cases same
      · cases same
    have length := congrArg List.length spelled
    rw [String.length_toList, List.length_cons] at length
    rw [Option.map_some]
    dsimp only
    rw [Machine.skip_skip, length, Nat.add_comm]
    rfl

end Checked

end EcmaScript
