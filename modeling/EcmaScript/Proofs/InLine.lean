import EcmaScript.Proofs.LegacyEscape

/-!
# Lexemes within a line

Identifiers, numbers, marks and regular expressions never run over the end of a line, and neither
does a code point escape. So much holds of a faulty one up to the place where reading stopped.
-/

namespace EcmaScript

/-- There is no line terminator in the first characters of a text. -/
def InLine (text : List Char) (count : Nat) : Prop :=
  ∀ char ∈ text.take count, isLineTerminator char = false

namespace InLine

variable {text rest : List Char} {char : Char} {count : Nat}

theorem zero (text : List Char) : InLine text 0 := by
  intro char member
  simp at member

theorem cons (plain : isLineTerminator char = false) (inLine : InLine rest count) :
    InLine (char :: rest) (count + 1) := by
  intro other member
  rw [List.take_succ_cons] at member
  rcases List.mem_cons.mp member with rfl | later
  · exact plain
  · exact inLine other later

theorem add {first second : Nat} (left : InLine text first)
    (right : InLine (text.drop first) second) : InLine text (first + second) := by
  intro char member
  rw [List.take_add] at member
  rcases List.mem_append.mp member with early | late
  · exact left char early
  · exact right char late

end InLine

theorem isLineTerminator_of_digitOf? {radix digit : Nat} {char : Char}
    (read : digitOf? radix char = some digit) : isLineTerminator char = false := by
  rw [← Bool.not_eq_true]
  intro terminator
  simp only [isLineTerminator, Bool.or_eq_true, beq_iff_eq] at terminator
  rcases terminator with ((rfl | rfl) | rfl) | rfl <;> contradiction

theorem isLineTerminator_of_identifierPart {char : Char} (part : isIdentifierPart char = true) :
    isLineTerminator char = false := by
  rw [← Bool.not_eq_true]
  intro terminator
  simp only [isLineTerminator, Bool.or_eq_true, beq_iff_eq] at terminator
  rcases terminator with ((rfl | rfl) | rfl) | rfl <;> revert part <;> decide +kernel

theorem inLine_digits (radix : Nat) (text : List Char) :
    InLine text (leadingDigits radix text).length := by
  induction text with
  | nil => exact .zero []
  | cons char rest ih =>
    unfold leadingDigits
    split
    · rename_i digit read
      exact .cons (isLineTerminator_of_digitOf? read) ih
    · exact .zero _

theorem inLine_digits_take (radix bound : Nat) (text : List Char) :
    InLine text (leadingDigits radix (text.take bound)).length := by
  have short := leadingDigits_length_le radix (text.take bound)
  have inLine := inLine_digits radix (text.take bound)
  intro char member
  apply inLine
  rw [List.take_take, Nat.min_eq_left]
  · exact member
  · rw [List.length_take] at short
    omega

namespace Escape

theorem inLine_bracedDigits (code index : Nat) (text : List Char) :
    ∃ count, (bracedDigits code index text).length = index + count ∧ InLine text count := by
  fun_induction bracedDigits code index text with
  | case1 code index => exact ⟨0, rfl, .zero _⟩
  | case2 code index char rest digit read _ _ =>
    exact ⟨1, rfl, .cons (isLineTerminator_of_digitOf? read) (.zero _)⟩
  | case3 code index char rest digit read _ _ ih =>
    obtain ⟨count, same, inLine⟩ := ih
    exact ⟨count + 1, by omega, .cons (isLineTerminator_of_digitOf? read) inLine⟩
  | case4 code index char rest _ closing =>
    have brace : char = '}' := by simpa using (Bool.and_eq_true _ _ |>.mp closing).1
    subst brace
    exact ⟨1, rfl, .cons rfl (.zero _)⟩
  | case5 => exact ⟨0, rfl, .zero _⟩

theorem inLine_unicode (rest : List Char) :
    InLine ('\\' :: rest) (unicode ('\\' :: rest)).length := by
  unfold unicode
  split
  · rename_i digits same
    cases same
    obtain ⟨count, length, inLine⟩ := inLine_bracedDigits 0 3 digits
    rw [length, Nat.add_comm]
    exact .cons rfl (.cons rfl (.cons rfl inLine))
  · rename_i digits _ same
    cases same
    have inLine := inLine_digits_take 16 4 digits
    have front : InLine ('\\' :: 'u' :: digits) (2 + (leadingDigits 16 (digits.take 4)).length) := by
      rw [Nat.add_comm]
      exact .cons rfl (.cons rfl inLine)
    dsimp only
    split
    · rename_i four
      rw [four] at front
      exact front
    · exact front
  · exact .cons rfl (.zero _)

end Escape

namespace Name

/-- The characters of a name, and those of its escapes. -/
theorem inLine_readFrom (index : Nat) (name : List Char) (flags : Flags) (text : List Char) :
    ∃ count, (readFrom index name flags text).length = index + count ∧ InLine text count := by
  fun_induction readFrom index name flags text with
  | case1 index => exact ⟨0, rfl, .zero _⟩
  | case2 index name flags rest length cause place escape =>
    have inLine := Escape.inLine_unicode rest
    rw [escape] at inLine
    exact ⟨length, rfl, inLine⟩
  | case3 index name flags rest length point escape char _ ih =>
    have inLine := Escape.inLine_unicode rest
    have some := Escape.pos_of_unicode escape
    rw [escape] at inLine
    obtain ⟨count, same, inLineRest⟩ := ih
    obtain ⟨before, rfl⟩ := Nat.exists_eq_add_of_le' some
    exact ⟨before + 1 + count, by rw [same, Nat.add_assoc], inLine.add inLineRest⟩
  | case4 index name flags rest length point escape char _ =>
    have inLine := Escape.inLine_unicode rest
    rw [escape] at inLine
    exact ⟨length, rfl, inLine⟩
  | case5 index name flags char rest _ allowed ih =>
    obtain ⟨count, same, inLine⟩ := ih
    have part : isIdentifierPart char = true := by
      unfold allows at allowed
      split at allowed
      · exact isIdentifierPart_of_start allowed
      · exact allowed
    exact ⟨count + 1, by omega, .cons (isLineTerminator_of_identifierPart part) inLine⟩
  | case6 index => exact ⟨0, rfl, .zero _⟩

theorem inLine_read (text : List Char) : InLine text (read text).length := by
  obtain ⟨count, same, inLine⟩ := inLine_readFrom 0 [] {} text
  rw [Nat.zero_add] at same
  unfold read
  split
  · rename_i found
    rw [found] at same
    subst same
    exact inLine
  · rename_i found
    rw [found] at same
    subst same
    split
    · exact inLine
    · split <;> exact inLine

end Name

namespace NumericLiteral

theorem inLine_readRadix (radix : Nat) (flags : Flags) (text : List Char) :
    ∃ count, (readRadix radix flags text).length = 2 + count ∧ InLine text count := by
  refine ⟨_, ?_, inLine_digits radix text⟩
  unfold readRadix
  dsimp only
  split
  · rfl
  · rw [length_accept]

theorem inLine_fraction (text : List Char) : InLine text (fraction text).1 := by
  unfold fraction
  split
  · rename_i rest
    dsimp only
    rw [Nat.add_comm]
    exact .cons rfl (inLine_digits 10 rest)
  · exact .zero _

theorem inLine_exponentSign (text : List Char) : InLine text (exponentSign text).1 := by
  unfold exponentSign
  split
  · exact .cons rfl (.zero _)
  · exact .cons rfl (.zero _)
  · exact .zero _

theorem inLine_readDecimal (text : List Char) : InLine text (readDecimal text).length := by
  have front := (inLine_digits 10 text).add (inLine_fraction _)
  unfold readDecimal
  dsimp only
  generalize (leadingDigits 10 text).length + (fraction _).1 = length at front ⊢
  split
  · rename_i marked
    have mark : InLine (text.drop length) 1 := by
      cases dropped : text.drop length with
      | nil => simp [dropped] at marked
      | cons char rest =>
        refine .cons ?_ (.zero _)
        rw [dropped] at marked
        rcases marked with lower | upper
        · cases lower
          rfl
        · cases upper
          rfl
    have sign := inLine_exponentSign ((text.drop length).drop 1)
    have digits := inLine_digits 10
      ((text.drop length).drop (1 + (exponentSign ((text.drop length).drop 1)).1))
    have whole := front.add ((mark.add sign).add digits)
    rw [← Nat.add_assoc, ← Nat.add_assoc] at whole
    split
    · exact whole
    · rw [length_accept]
      exact whole
  · rw [length_accept]
    exact front

theorem inLine_read (text : List Char) : InLine text (read text).length := by
  unfold read
  split
  · rename_i letter rest
    split
    · rename_i radix flags chosen
      obtain ⟨count, same, inLine⟩ := inLine_readRadix radix flags rest
      have plain : isLineTerminator letter = false := by
        unfold radixOf? at chosen
        split at chosen <;> first | rfl | contradiction
      rw [same, Nat.add_comm]
      exact .cons rfl (.cons plain inLine)
    · exact inLine_readDecimal _
  · exact inLine_readDecimal text

end NumericLiteral

theorem Symbol.inLine_text : ∀ mark ∈ marks, ∀ char ∈ mark.text.toList,
    isLineTerminator char = false := by
  have plain : marks.all (fun mark => mark.text.toList.all fun char => !isLineTerminator char) =
      true := by decide +kernel
  simpa using plain

theorem Symbol.inLine_leadingMark? {text : List Char} {mark : Symbol}
    (found : leadingMark? text = some mark) : InLine text mark.text.length := by
  have isFront := List.find?_some found
  have taken := List.prefix_iff_eq_take.mp (List.isPrefixOf_iff_prefix.mp isFront)
  rw [String.length_toList] at taken
  rw [InLine, ← taken]
  exact inLine_text mark (List.mem_of_find?_eq_some found)

namespace RegularExpression

theorem inLine_closingSlash (isInClass : Bool) (index : Nat) (text : List Char) :
    ∃ count, (closingSlash isInClass index text).length = index + count ∧ InLine text count := by
  fun_induction closingSlash isInClass index text with
  | case1 => exact ⟨0, rfl, .zero _⟩
  | case2 => exact ⟨1, rfl, .cons rfl (.zero _)⟩
  | case3 => exact ⟨1, rfl, .cons rfl (.zero _)⟩
  | case4 isInClass index char rest plain ih =>
    obtain ⟨count, same, inLine⟩ := ih
    exact ⟨count + 2, by omega, .cons rfl (.cons (by simpa using plain) inLine)⟩
  | case5 => exact ⟨0, rfl, .zero _⟩
  | case6 isInClass index char rest _ _ plain =>
    exact ⟨1, rfl, .cons (by simpa using plain) (.zero _)⟩
  | case7 isInClass index char rest _ _ plain _ ih =>
    obtain ⟨count, same, inLine⟩ := ih
    exact ⟨count + 1, by omega, .cons (by simpa using plain) inLine⟩

theorem inLine_flags (text : List Char) :
    InLine text (text.takeWhile isIdentifierPart).length := by
  intro char member
  rw [← List.prefix_iff_eq_take.mp (List.takeWhile_prefix _)] at member
  have part := List.all_eq_true.mp (List.all_takeWhile (p := isIdentifierPart)) char member
  exact isLineTerminator_of_identifierPart part

theorem inLine_read (front text : List Char) : InLine text (read front text).length := by
  obtain ⟨count, same, inLine⟩ := inLine_closingSlash false 0 text
  rw [Nat.zero_add] at same
  unfold read
  split
  · rename_i found
    rw [found] at same
    subst same
    exact inLine
  · rename_i length found
    rw [found] at same
    subst same
    have whole := inLine.add (inLine_flags (text.drop length))
    dsimp only
    rw [String.length_ofList]
    split <;> exact whole

end RegularExpression

end EcmaScript
