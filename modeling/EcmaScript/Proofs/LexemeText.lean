import EcmaScript.Proofs.Placement

/-!
# Texts of lexemes

A symbol is read from just the text it is written with: a mark stands at the front of the text, and
a reserved word may not have escapes. The end of the text is read from no characters, and only there.
-/

namespace EcmaScript

/-- A name without escapes is the text it was read from. -/
theorem Name.text_of_readFrom {index length : Nat} {name text : List Char} {flags : Flags}
    {result : String × Flags} (read : readFrom index name flags text = .success length result)
    (plain : result.2.unicodeEscape = false) :
    flags.unicodeEscape = false ∧
      result.1 = String.ofList (name.reverse ++ text.take (length - index)) := by
  fun_induction readFrom index name flags text with
  | case1 | case6 =>
    cases read
    exact ⟨plain, by simp⟩
  | case2 | case4 => cases read
  | case3 index name flags rest further point _ _ _ ih =>
    have escaped := (ih read).1
    simp [Flags.union, Escape.CodePoint.flags] at escaped
  | case5 index name flags char rest _ _ ih =>
    obtain ⟨before, same⟩ := ih read
    have later := le_of_readFrom read
    have one : length - index = (length - (index + 1)) + 1 := by omega
    refine ⟨before, ?_⟩
    rw [same, one, List.take_succ_cons, List.reverse_cons, List.append_assoc]
    rfl

namespace Symbol

theorem text_of_ofWord? {word : String} {symbol : Symbol} (found : ofWord? word = some symbol) :
    symbol.text = word := by
  simpa using List.find?_some found

theorem text_of_leadingMark? {text : List Char} {mark : Symbol}
    (found : leadingMark? text = some mark) :
    String.ofList (text.take mark.text.length) = mark.text := by
  have isFront := List.find?_some found
  have taken := List.prefix_iff_eq_take.mp (List.isPrefixOf_iff_prefix.mp isFront)
  rw [String.length_toList] at taken
  rw [← taken, String.ofList_toList]

end Symbol

/-- What can be read as a name is an identifier, or a reserved word with just this text. -/
theorem Name.eq_of_read {text : List Char} {length : Nat} {lexeme : Lexeme} {flags : Flags}
    (success : read text = .success length (lexeme, flags)) :
    (∃ name, lexeme = .identifier name) ∨
      ∃ word, lexeme = .symbol word ∧ String.ofList (text.take length) = word.text := by
  unfold read at success
  split at success
  · cases success
  · rename_i further name flags found
    split at success
    · cases success
      exact .inl ⟨name, rfl⟩
    · rename_i word known
      split at success
      · cases success
      · rename_i plain
        cases success
        have same := (text_of_readFrom found (by simpa using plain)).2
        exact .inr ⟨word, rfl, same.symm.trans (Symbol.text_of_ofWord? known).symm⟩

namespace Lexeme

/-- What each lexeme that can be read looks like. -/
theorem cases_of_read {text : List Char} {length : Nat} {lexeme : Lexeme} {flags : Flags}
    (success : read text = .success length (lexeme, flags)) :
    (lexeme = .endOfFile ∧ text = [] ∧ length = 0) ∨
      (∃ value, lexeme = .string value) ∨ (∃ value, lexeme = .number value) ∨
      (∃ name, lexeme = .identifier name) ∨
      ∃ symbol, lexeme = .symbol symbol ∧ String.ofList (text.take length) = symbol.text := by
  unfold read at success
  split at success
  · cases success
    exact .inl ⟨rfl, rfl, rfl⟩
  · rename_i char rest
    right
    split at success
    · cases found : StringLiteral.read char rest with
      | failure => simp [found, Reading.map] at success
      | success other value =>
        rw [found] at success
        cases success
        exact .inl ⟨value.1, rfl⟩
    · right
      split at success
      · cases found : NumericLiteral.read (char :: rest) with
        | failure => simp [found, Reading.map] at success
        | success other value =>
          rw [found] at success
          cases success
          exact .inl ⟨value.1, rfl⟩
      · right
        split at success
        · exact Name.eq_of_read success
        · split at success
          · rename_i mark found
            cases success
            exact .inr ⟨mark, rfl, Symbol.text_of_leadingMark? found⟩
          · cases success

theorem eq_nil_of_read {text : List Char} {length : Nat} {flags : Flags}
    (success : read text = .success length (.endOfFile, flags)) : text = [] ∧ length = 0 := by
  rcases cases_of_read success with ⟨_, ended⟩ | ⟨_, ⟨⟩⟩ | ⟨_, ⟨⟩⟩ | ⟨_, ⟨⟩⟩ | ⟨_, ⟨⟩, _⟩
  exact ended

theorem text_of_read {text : List Char} {length : Nat} {symbol : Symbol} {flags : Flags}
    (success : read text = .success length (.symbol symbol, flags)) :
    String.ofList (text.take length) = symbol.text := by
  rcases cases_of_read success with ⟨⟨⟩, _⟩ | ⟨_, ⟨⟩⟩ | ⟨_, ⟨⟩⟩ | ⟨_, ⟨⟩⟩ | ⟨_, ⟨⟩, same⟩
  exact same

end Lexeme

/-- Only regular expressions are read as such. -/
theorem RegularExpression.eq_of_read {front text : List Char} {length : Nat} {lexeme : Lexeme}
    (success : read front text = .success length lexeme) :
    ∃ pattern flags, lexeme = .regularExpression pattern flags := by
  unfold read at success
  split at success
  · cases success
  · dsimp only at success
    split at success <;> cases success
    exact ⟨_, _, rfl⟩

end EcmaScript
