import EcmaScript.Proofs.InLine
import EcmaScript.Proofs.Lines

/-!
# Lines in string literals

A string literal goes on to the next line only behind a backslash, but it may contain the line and
the paragraph separator as they are, which then start no line. Without these two, positions in a
literal are those of any other text, and so are the positions in a faulty literal up to the place
where reading stopped.
-/

namespace EcmaScript

/-- Some text of a string literal has a character that is sought and not escaped. A backslash
escapes the character after it, or a carriage return with its line feed. -/
def hasUnescaped (isSought : Char → Bool) : List Char → Bool
  | '\\' :: '\r' :: '\n' :: rest => hasUnescaped isSought rest
  | '\\' :: _ :: rest => hasUnescaped isSought rest
  | char :: rest => isSought char || hasUnescaped isSought rest
  | [] => false

/-- The two line terminators that a string literal may contain unescaped. -/
def isSeparator (char : Char) : Bool :=
  char == '\u2028' || char == '\u2029'

/-- The two line terminators that a string literal may only contain escaped. -/
def isNewline (char : Char) : Bool :=
  char == '\n' || char == '\r'

theorem isLineTerminator_eq (char : Char) :
    isLineTerminator char = (isNewline char || isSeparator char) := by
  simp [isLineTerminator, isNewline, isSeparator, Bool.or_assoc]

theorem hasUnescaped_or (first second : Char → Bool) (text : List Char) :
    hasUnescaped (fun char => first char || second char) text =
      (hasUnescaped first text || hasUnescaped second text) := by
  fun_induction hasUnescaped first text with
  | case1 rest ih => rw [hasUnescaped, hasUnescaped, ih]
  | case2 char rest alone ih => rw [hasUnescaped.eq_2 _ _ _ alone, hasUnescaped.eq_2 _ _ _ alone, ih]
  | case3 char rest notPair notEscape ih =>
    rw [hasUnescaped.eq_3 _ _ _ notPair notEscape, hasUnescaped.eq_3 _ _ _ notPair notEscape, ih]
    cases first char <;> cases second char <;> simp
  | case4 => rfl

/-- When all line terminators in a literal are escaped, its lines are those of any other text. -/
theorem Position.afterLiteral_eq_after (position : Position) {text : List Char}
    (escaped : hasUnescaped isLineTerminator text = false) :
    position.afterLiteral text = position.after text := by
  have backslash : ∀ (position : Position) rest,
      position.after ('\\' :: rest) = (position.right 1).after rest := by
    intro position rest
    rw [after_cons _ (fun equal => absurd equal (by decide)), if_neg (by decide)]
  fun_induction afterLiteral position text with
  | case1 => rfl
  | case2 position rest ih =>
    rw [hasUnescaped] at escaped
    rw [backslash, after, ih escaped]
    rfl
  | case3 position char rest alone terminator ih =>
    rw [hasUnescaped.eq_2 _ _ _ alone] at escaped
    rw [backslash, after.eq_3 _ _ _ alone, if_pos terminator, ih escaped]
    rfl
  | case4 position char rest alone terminator ih =>
    rw [hasUnescaped.eq_2 _ _ _ alone] at escaped
    rw [backslash, after.eq_3 _ _ _ alone, if_neg terminator, ih escaped, right_right]
  | case5 position char rest notPair notEscape ih =>
    rw [hasUnescaped.eq_3 _ _ _ notPair notEscape, Bool.or_eq_false_iff] at escaped
    have alone : ∀ others, char = '\r' → rest = '\n' :: others → False := by
      rintro _ rfl _
      cases escaped.1
    rw [after.eq_3 _ _ _ alone, escaped.1, ih escaped.2]
    rfl

/-- In the first characters of a string literal, whose quote stands before the text, all newlines
are escaped, and they do not end between a carriage return and its line feed. -/
structure EscapesNewlines (text : List Char) (count : Nat) : Prop where
  escaped : hasUnescaped isNewline (text.take count) = false
  pairs : KeepsPairs (text.take count) (text.drop count)

theorem EscapesNewlines.zero (text : List Char) : EscapesNewlines text 0 :=
  ⟨rfl, .nil text⟩

/-- The first characters of a text can stand in a string literal, whatever comes after them. -/
def InLiteral (text : List Char) (count : Nat) : Prop :=
  ∀ more, EscapesNewlines (text.drop count) more → EscapesNewlines text (count + more)

namespace InLiteral

variable {text rest : List Char} {char : Char} {first second : Nat}

theorem zero (text : List Char) : InLiteral text 0 := by
  intro more enclosed
  rwa [Nat.zero_add]

theorem add (left : InLiteral text first) (right : InLiteral (text.drop first) second) :
    InLiteral text (first + second) := by
  intro more enclosed
  rw [← List.drop_drop] at enclosed
  rw [Nat.add_assoc]
  exact left _ (right _ enclosed)

theorem escapes (inLiteral : InLiteral text first) : EscapesNewlines text first :=
  inLiteral 0 (.zero _)

/-- A character that escapes nothing. -/
theorem single (rest : List Char) (plain : char ≠ '\\') (inLine : isNewline char = false) :
    InLiteral (char :: rest) 1 := by
  intro more enclosed
  rw [Nat.add_comm]
  constructor
  · rw [List.take_succ_cons, hasUnescaped]
    · rw [inLine]
      exact enclosed.escaped
    · intro _ backslash
      exact absurd backslash plain
    · intro _ _ backslash
      exact absurd backslash plain
  · have before : KeepsPairs [char] rest := by
      intro last
      cases last
      contradiction
    exact before.append enclosed.pairs

/-- A character and the backslash that escapes it. -/
theorem escape (alone : char = '\r' → rest.head? ≠ some '\n') :
    InLiteral ('\\' :: char :: rest) 2 := by
  intro more enclosed
  rw [Nat.add_comm]
  constructor
  · rw [List.take_succ_cons, List.take_succ_cons, hasUnescaped]
    · exact enclosed.escaped
    · intro others carriageReturn taken
      apply alone carriageReturn
      have opening := congrArg List.head? taken
      rw [List.head?_take] at opening
      split at opening
      · contradiction
      · exact opening
  · have before : KeepsPairs ['\\', char] rest := by
      intro last
      cases last
      exact alone rfl
    exact before.append enclosed.pairs

/-- A carriage return with its line feed and the backslash that escapes them. -/
theorem escapePair (rest : List Char) : InLiteral ('\\' :: '\r' :: '\n' :: rest) 3 := by
  intro more enclosed
  rw [Nat.add_comm]
  constructor
  · exact enclosed.escaped
  · have before : KeepsPairs ['\\', '\r', '\n'] rest := by
      intro last
      cases last
    exact before.append enclosed.pairs

theorem digits (radix bound : Nat) (text : List Char) :
    InLiteral text (leadingDigits radix (text.take bound)).length := by
  induction text generalizing bound with
  | nil =>
    rw [List.take_nil]
    exact zero []
  | cons char rest ih =>
    cases bound with
    | zero => exact zero _
    | succ bound =>
      rw [List.take_succ_cons]
      unfold leadingDigits
      split
      · rename_i digit read
        have inLine := isLineTerminator_of_digitOf? read
        rw [isLineTerminator_eq, Bool.or_eq_false_iff] at inLine
        rw [List.length_cons, Nat.add_comm]
        exact (InLiteral.single rest (ne_backslash_of_digitOf? read) inLine.1).add (ih bound)
      · exact zero _

end InLiteral

namespace Escape

theorem inLiteral_bracedDigits (code index : Nat) (text : List Char) :
    ∃ count, (bracedDigits code index text).length = index + count ∧ InLiteral text count := by
  have digit : ∀ {char value} rest, digitOf? 16 char = some value → InLiteral (char :: rest) 1 := by
    intro char value rest read
    have inLine := isLineTerminator_of_digitOf? read
    rw [isLineTerminator_eq, Bool.or_eq_false_iff] at inLine
    exact .single rest (ne_backslash_of_digitOf? read) inLine.1
  fun_induction bracedDigits code index text with
  | case1 code index => exact ⟨0, rfl, .zero _⟩
  | case2 code index char rest value read _ _ => exact ⟨1, rfl, digit rest read⟩
  | case3 code index char rest value read _ _ ih =>
    obtain ⟨count, same, inLiteral⟩ := ih
    exact ⟨1 + count, by omega, (digit rest read).add inLiteral⟩
  | case4 code index char rest _ closing =>
    have brace : char = '}' := by simpa using (Bool.and_eq_true _ _ |>.mp closing).1
    subst brace
    exact ⟨1, rfl, .single rest (by decide) rfl⟩
  | case5 => exact ⟨0, rfl, .zero _⟩

theorem inLiteral_unicode (rest : List Char) :
    InLiteral ('\\' :: 'u' :: rest) (unicode ('\\' :: 'u' :: rest)).length := by
  have front : InLiteral ('\\' :: 'u' :: rest) 2 := .escape fun equal => absurd equal (by decide)
  unfold unicode
  split
  · rename_i digits same
    cases same
    obtain ⟨count, length, inLiteral⟩ := inLiteral_bracedDigits 0 3 digits
    rw [length]
    exact (front.add (.single digits (by decide) rfl)).add inLiteral
  · rename_i digits _ same
    cases same
    have whole := front.add (.digits 16 4 rest)
    dsimp only
    split
    · rename_i four
      rw [four] at whole
      exact whole
    · exact whole
  · rename_i other
    exact absurd rfl (other rest)

theorem inLiteral_unicodeInString (rest : List Char) :
    InLiteral ('\\' :: 'u' :: rest) (unicodeInString ('\\' :: 'u' :: rest)).length := by
  have front := inLiteral_unicode rest
  unfold unicodeInString
  split
  · rename_i found
    rwa [found] at front
  · rename_i length point found
    rw [found] at front
    dsimp only
    split
    · rename_i others _ dropped
      have back := inLiteral_unicode others
      rw [← dropped] at back
      have whole := front.add back
      split
      · rename_i second
        rw [dropped, second] at whole
        exact whole
      · rename_i second
        rw [dropped, second] at whole
        split
        · exact whole
        · exact front
    · exact front

/-- The digits of an octal escape, the first of which is escaped by the backslash. -/
theorem inLiteral_octalInString {char : Char} (octal : '0' ≤ char ∧ char ≤ '7')
    (rest : List Char) : InLiteral ('\\' :: char :: rest) (octalInString char rest).length := by
  obtain ⟨bound, same⟩ : ∃ bound, (if char ≤ '3' then 3 else 2) = bound + 1 := by
    split
    · exact ⟨2, rfl⟩
    · exact ⟨1, rfl⟩
  obtain ⟨digit, read⟩ := exists_digitOf?_eight octal
  have alone : char ≠ '\r' := by
    rintro rfl
    exact absurd octal.1 (by decide)
  have front : InLiteral ('\\' :: char :: rest) 2 := .escape fun equal => absurd equal alone
  have whole := front.add (.digits 8 bound rest)
  unfold octalInString
  rw [same, List.take_succ_cons, leadingDigits, read]
  dsimp only [Reading.length]
  rwa [List.length_cons, Nat.add_comm _ 1, ← Nat.add_assoc]

theorem inLiteral_inString {rest : List Char} (some : rest ≠ []) :
    InLiteral ('\\' :: rest) (inString ('\\' :: rest)).length := by
  unfold inString
  split
  · rename_i same
    cases same
    exact .escapePair _
  · rename_i digits same
    cases same
    have front : InLiteral ('\\' :: 'x' :: digits) 2 := .escape fun equal => absurd equal (by decide)
    split
    · rename_i two
      have whole := front.add (.digits 16 2 digits)
      rwa [two] at whole
    · exact front
  · rename_i same
    cases same
    exact inLiteral_unicodeInString _
  · rename_i char others alone _ _ same
    cases same
    have pair : InLiteral ('\\' :: char :: others) 2 := by
      apply InLiteral.escape
      rintro rfl opening
      cases others with
      | nil => contradiction
      | cons next others =>
        cases opening
        exact alone others rfl rfl
    split
    · exact pair
    · split
      · rename_i octal
        exact inLiteral_octalInString octal others
      · split <;> exact pair
  · rename_i other
    cases rest with
    | nil => contradiction
    | cons char others => exact absurd rfl (other char others)

end Escape

/-- The characters of a literal after its first quote, or those up to a fault. -/
theorem StringLiteral.escapes_readFrom {quote : Char} (isQuote : quote = '"' ∨ quote = '\'')
    (index : Nat) (value : List Char) (flags : Flags) (text : List Char) :
    ∃ count, (readFrom quote index value flags text).length = index + count ∧
      EscapesNewlines text count := by
  fun_induction readFrom quote index value flags text with
  | case1 index => exact ⟨0, rfl, .zero _⟩
  | case2 index => exact ⟨1, rfl, rfl, .of_inLine (by simp [isLineTerminator])⟩
  | case3 index value flags rest alone length cause place read =>
    have inLiteral := Escape.inLiteral_inString alone
    rw [read] at inLiteral
    exact ⟨length, rfl, inLiteral.escapes⟩
  | case4 index value flags rest alone length added read ih =>
    have inLiteral := Escape.inLiteral_inString alone
    have some := Escape.pos_of_inString read
    rw [read] at inLiteral
    obtain ⟨count, same, escapes⟩ := ih
    obtain ⟨before, rfl⟩ := Nat.exists_eq_add_of_le' some
    exact ⟨before + 1 + count, by rw [same, Nat.add_assoc], inLiteral count escapes⟩
  | case5 index value flags rest =>
    refine ⟨1, rfl, (InLiteral.single rest ?_ ?_).escapes⟩
    · rcases isQuote with rfl | rfl <;> decide
    · rcases isQuote with rfl | rfl <;> rfl
  | case6 index => exact ⟨0, rfl, .zero _⟩
  | case7 index value flags char rest _ plain _ inLine ih =>
    obtain ⟨count, same, escapes⟩ := ih
    have backslash : char ≠ '\\' := by
      rintro rfl
      exact plain rfl
    have newline : isNewline char = false := by
      simpa [isNewline] using inLine
    exact ⟨1 + count, by omega, InLiteral.single rest backslash newline count escapes⟩

end EcmaScript
