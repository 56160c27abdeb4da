import EcmaScript.Lexical.Trivia
import EcmaScript.Proofs.Lines

/-!
# What trivia is

Trivia is a sequence of white space, line terminators and whole comments. A comment in line form is
whole when a line terminator or the end of the text comes after it, and one in block form when it is
closed. The reader of trivia takes just such a text, and goes on up to a character that is none.
-/

namespace EcmaScript

/-- Some text that stands before another one is a sequence of white space, line terminators and
whole comments. -/
inductive IsTrivia (follower : List Char) : List Char → Prop where
  | nil : IsTrivia follower []
  | whiteSpace {char : Char} {rest : List Char} : isWhiteSpace char = true →
      IsTrivia follower rest → IsTrivia follower (char :: rest)
  | lineTerminator {char : Char} {rest : List Char} : isLineTerminator char = true →
      IsTrivia follower rest → IsTrivia follower (char :: rest)
  | lineComment {inside rest : List Char} : (∀ char ∈ inside, isLineTerminator char = false) →
      (∀ char ∈ (rest ++ follower).head?, isLineTerminator char = true) →
      IsTrivia follower rest → IsTrivia follower ('/' :: '/' :: (inside ++ rest))
  | blockComment {inside rest : List Char} : ¬['*', '/'] <:+: inside →
      IsTrivia follower rest →
      IsTrivia follower ('/' :: '*' :: (inside ++ '*' :: '/' :: rest))

/-- A text that neither white space nor a line terminator begins. -/
def BeginsToken (text : List Char) : Prop :=
  ∀ char ∈ text.head?, isLineTerminator char = false ∧ isWhiteSpace char = false

theorem BeginsToken.keepsPairs {text : List Char} (begins : BeginsToken text)
    (front : List Char) : KeepsPairs front text := by
  intro _ opening
  have plain := (begins _ opening).1
  contradiction

namespace Trivia

/-- Some text is the rest of the trivia that one stands in. -/
def Region.Finishes (follower : List Char) : Region → List Char → Prop
  | .between, gap => IsTrivia follower gap
  | .lineComment, gap => ∃ inside rest, gap = inside ++ rest ∧
      (∀ char ∈ inside, isLineTerminator char = false) ∧
      (∀ char ∈ (rest ++ follower).head?, isLineTerminator char = true) ∧ IsTrivia follower rest
  | .blockComment _, gap => ∃ inside rest, gap = inside ++ '*' :: '/' :: rest ∧
      ¬['*', '/'] <:+: inside ∧ IsTrivia follower rest

/-- A character of a comment in block form comes before the rest of it, unless it is the asterisk of
the closing mark. -/
theorem Region.finishes_block {start : Nat} {char : Char} {gap follower : List Char}
    (finishes : (blockComment start).Finishes follower gap)
    (notClosing : ¬(char = '*' ∧ gap.head? = some '/')) :
    (blockComment start).Finishes follower (char :: gap) := by
  obtain ⟨inside, rest, rfl, unclosed, trivia⟩ := finishes
  refine ⟨char :: inside, rest, rfl, ?_, trivia⟩
  intro closing
  rcases List.infix_cons_iff.mp closing with opening | later
  · apply notClosing
    obtain ⟨others, same⟩ := opening
    cases inside with
    | nil => cases same
    | cons next inside =>
      cases same
      exact ⟨rfl, rfl⟩
  · exact unclosed later

/-- What is read from within a region finishes it, and it is recorded whether a line ends there. -/
theorem finishes_readFrom {region : Region} {index length : Nat} {before lineBreak : Bool}
    {text : List Char}
    (read : readFrom region index before text = .success length lineBreak) :
    ∃ gap follower, text = gap ++ follower ∧ length = index + gap.length ∧
      region.Finishes follower gap ∧ BeginsToken follower ∧
      lineBreak = (before || gap.any isLineTerminator) := by
  fun_induction readFrom region index before text with
  | case1 index before rest ih =>
    obtain ⟨gap, follower, rfl, same, ⟨inside, rest, rfl, inLine, ends, trivia⟩, begins, breaks⟩ :=
      ih read
    refine ⟨'/' :: '/' :: (inside ++ rest), follower, rfl, ?_, .lineComment inLine ends trivia,
      begins, breaks⟩
    rw [same, List.length_cons, List.length_cons]
    omega
  | case2 index before rest ih =>
    obtain ⟨gap, follower, rfl, same, ⟨inside, rest, rfl, unclosed, trivia⟩, begins, breaks⟩ :=
      ih read
    refine ⟨'/' :: '*' :: (inside ++ '*' :: '/' :: rest), follower, rfl, ?_,
      .blockComment unclosed trivia, begins, breaks⟩
    rw [same, List.length_cons, List.length_cons]
    omega
  | case3 index before char rest _ _ terminator ih =>
    obtain ⟨gap, follower, rfl, same, trivia, begins, breaks⟩ := ih read
    refine ⟨char :: gap, follower, rfl, ?_, .lineTerminator terminator trivia, begins, ?_⟩
    · rw [same, List.length_cons]
      omega
    · simp [breaks, terminator]
  | case4 index before char rest _ _ terminator blank ih =>
    obtain ⟨gap, follower, rfl, same, trivia, begins, breaks⟩ := ih read
    refine ⟨char :: gap, follower, rfl, ?_, .whiteSpace blank trivia, begins, ?_⟩
    · rw [same, List.length_cons]
      omega
    · simp [breaks, terminator]
  | case5 index before char rest _ _ terminator blank =>
    cases read
    refine ⟨[], char :: rest, rfl, rfl, .nil, ?_, by simp⟩
    rintro _ ⟨⟩
    exact ⟨by simpa using terminator, by simpa using blank⟩
  | case6 index before char rest terminator ih =>
    obtain ⟨gap, follower, rfl, same, trivia, begins, breaks⟩ := ih read
    refine ⟨char :: gap, follower, rfl, ?_,
      ⟨[], char :: gap, rfl, by simp, ?_, .lineTerminator terminator trivia⟩, begins, ?_⟩
    · rw [same, List.length_cons]
      omega
    · rintro _ ⟨⟩
      exact terminator
    · simp [breaks, terminator]
  | case7 index before char rest inLine ih =>
    obtain ⟨gap, follower, rfl, same, ⟨inside, others, rfl, plain, ends, trivia⟩, begins, breaks⟩ :=
      ih read
    have plainChar : isLineTerminator char = false := by simpa using inLine
    refine ⟨char :: (inside ++ others), follower, rfl, ?_,
      ⟨char :: inside, others, rfl, ?_, ends, trivia⟩, begins, ?_⟩
    · rw [same, List.length_cons]
      omega
    · exact List.forall_mem_cons.mpr ⟨plainChar, plain⟩
    · simp [breaks, plainChar]
  | case8 index before start rest ih =>
    obtain ⟨gap, follower, rfl, same, trivia, begins, breaks⟩ := ih read
    refine ⟨'*' :: '/' :: gap, follower, rfl, ?_, ⟨[], gap, rfl, by simp, trivia⟩, begins, breaks⟩
    rw [same, List.length_cons, List.length_cons]
    omega
  | case9 index before start char rest notClosing ih =>
    obtain ⟨gap, follower, rfl, same, finishes, begins, breaks⟩ := ih read
    refine ⟨char :: gap, follower, rfl, ?_, Region.finishes_block finishes ?_, begins, ?_⟩
    · rw [same, List.length_cons]
      omega
    · rintro ⟨rfl, opening⟩
      obtain ⟨others, rfl⟩ := List.head?_eq_some_iff.mp opening
      exact notClosing _ rfl rfl
    · simp [breaks, Bool.or_assoc]
  | case10 => cases read
  | case11 region index before notBlock =>
    cases read
    refine ⟨[], [], rfl, rfl, ?_, by rintro _ ⟨⟩, by simp⟩
    cases region with
    | between => exact .nil
    | lineComment => exact ⟨[], [], rfl, by simp, by simp, .nil⟩
    | blockComment start => exact absurd rfl (notBlock start)

theorem length_read_le (text : List Char) : (read text).length ≤ text.length := by
  have bound := length_readFrom_le .between 0 false text
  rwa [Nat.zero_add] at bound

/-- Trivia that can be read goes up to a character that is none. -/
theorem eq_of_read {text : List Char} {length : Nat} {lineBreak : Bool}
    (success : read text = .success length lineBreak) :
    IsTrivia (text.drop length) (text.take length) ∧ BeginsToken (text.drop length) ∧
      lineBreak = (text.take length).any isLineTerminator := by
  obtain ⟨gap, follower, rfl, same, trivia, begins, breaks⟩ := finishes_readFrom success
  rw [Nat.zero_add] at same
  subst same
  rw [List.drop_left, List.take_left]
  exact ⟨trivia, begins, by simpa using breaks⟩

/-- A comment that is not closed goes on to the end of the text. -/
theorem length_of_failure {text : List Char} {length place : Nat} {cause : Cause}
    (failure : read text = .failure length cause place) : length = text.length := by
  have whole : ∀ {region index before text},
      readFrom region index before text = .failure length cause place →
        length = index + text.length := by
    intro region index before text failed
    fun_induction readFrom region index before text with
    | case5 | case11 => cases failed
    | case10 =>
      cases failed
      rfl
    | case1 _ _ _ ih | case2 _ _ _ ih | case3 _ _ _ _ _ _ _ ih | case4 _ _ _ _ _ _ _ _ ih
    | case6 _ _ _ _ _ ih | case7 _ _ _ _ _ ih | case8 _ _ _ _ ih | case9 _ _ _ _ _ _ ih =>
      rw [ih failed]
      simp only [List.length_cons]
      omega
  have same := whole failure
  rwa [Nat.zero_add] at same

end Trivia

end EcmaScript
