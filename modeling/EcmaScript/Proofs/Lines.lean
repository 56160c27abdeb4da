import EcmaScript.Source.Cursor
import Mathlib.Data.List.DropRight

/-!
# Lines and columns

Where a position lies can be counted in the text before it: its line is one more than the number of
line terminators there, and its column is the number of characters after the last of them. A cursor
that moves over some text by `Position.after` comes to just that position, unless it stops between a
carriage return and its line feed.
-/

namespace EcmaScript

/-- The number of line terminators in a text. A carriage return with its line feed is one. -/
def lineTerminators : List Char → Nat
  | '\r' :: '\n' :: rest => lineTerminators rest + 1
  | char :: rest => lineTerminators rest + if isLineTerminator char then 1 else 0
  | [] => 0

/-- The characters of a text after its last line terminator. -/
def lastLine (text : List Char) : List Char :=
  text.rtakeWhile fun char => !isLineTerminator char

/-- The position at an offset of a source text, counted in the text before it. -/
def Position.ofOffset (source : String) (offset : Nat) : Position :=
  let before := source.toList.take offset
  ⟨1 + lineTerminators before, (lastLine before).length⟩

/-- A carriage return and its line feed are not in different pieces of a text. -/
def KeepsPairs (front back : List Char) : Prop :=
  front.getLast? = some '\r' → back.head? ≠ some '\n'

/-- A text has line terminators just when one of its characters is one. -/
theorem lineTerminators_pos {text : List Char} :
    0 < lineTerminators text ↔ ∃ char ∈ text, isLineTerminator char = true := by
  fun_induction lineTerminators text with
  | case1 rest ih => exact ⟨fun _ => ⟨'\r', by simp, rfl⟩, fun _ => Nat.succ_pos _⟩
  | case2 char rest _ ih =>
    cases terminator : isLineTerminator char with
    | true => simp [terminator]
    | false => simpa [terminator] using ih
  | case3 => simp

/-- A character is on the last line of a text unless a line terminator is behind it. -/
theorem lastLine_cons (char : Char) (rest : List Char) :
    lastLine (char :: rest) =
      if rest.any isLineTerminator then lastLine rest
      else if isLineTerminator char then rest
      else char :: rest := by
  have split : char :: rest = [char] ++ rest := rfl
  rw [lastLine, lastLine, List.rtakeWhile, List.rtakeWhile, split, List.reverse_append,
    List.takeWhile_append]
  by_cases inLine : ∀ other ∈ rest, isLineTerminator other = false
  · have whole : (rest.reverse.takeWhile fun other => !isLineTerminator other) = rest.reverse :=
      List.takeWhile_eq_self_iff.mpr fun other member => by
        simp [inLine other (List.mem_reverse.mp member)]
    have none : rest.any isLineTerminator = false := by simpa using inLine
    rw [whole, if_pos rfl, none]
    cases terminator : isLineTerminator char <;> simp [terminator]
  · have some : rest.any isLineTerminator = true := by simpa using inLine
    rw [some, if_pos rfl, if_neg]
    intro whole
    have same := (List.takeWhile_prefix _).eq_of_length whole
    apply inLine
    intro other member
    simpa using List.takeWhile_eq_self_iff.mp same other (List.mem_reverse.mpr member)

namespace KeepsPairs

theorem nil (back : List Char) : KeepsPairs [] back := by
  intro last
  contradiction

/-- Only a carriage return can be separated from a line feed. -/
theorem of_inLine {front back : List Char}
    (inLine : ∀ char ∈ front, isLineTerminator char = false) : KeepsPairs front back := by
  intro last
  have plain := inLine '\r' (List.mem_of_getLast? last)
  contradiction

/-- A text is cut behind some more of it. -/
theorem append {front text : List Char} {count : Nat} (before : KeepsPairs front text)
    (inside : KeepsPairs (text.take count) (text.drop count)) :
    KeepsPairs (front ++ text.take count) (text.drop count) := by
  cases taken : text.take count with
  | nil =>
    have rest : text.drop count = text := by
      have whole := List.take_append_drop count text
      rwa [taken, List.nil_append] at whole
    rw [List.append_nil, rest]
    exact before
  | cons char others =>
    intro last
    rw [List.getLast?_append_of_ne_nil _ (by simp), ← taken] at last
    exact inside last

end KeepsPairs

namespace Position

/-- Reading a text moves a position down by the line terminators in it. -/
theorem line_after (position : Position) (text : List Char) :
    (position.after text).line = position.line + lineTerminators text := by
  fun_induction after position text with
  | case1 => rfl
  | case2 position rest ih =>
    rw [ih, lineTerminators, nextLine, Nat.add_assoc, Nat.add_comm 1]
  | case3 position char rest notPair terminator ih =>
    rw [ih, lineTerminators.eq_2 _ _ notPair, if_pos terminator, nextLine, Nat.add_assoc,
      Nat.add_comm 1]
  | case4 position char rest notPair terminator ih =>
    rw [ih, lineTerminators.eq_2 _ _ notPair, if_neg terminator]
    rfl

/-- Reading a text brings a position to the end of its last line, which the position is on as long
as the text has no line terminator. -/
theorem column_after (position : Position) (text : List Char) :
    (position.after text).column =
      if text.any isLineTerminator then (lastLine text).length
      else position.column + text.length := by
  fun_induction after position text with
  | case1 => rfl
  | case2 position rest ih =>
    rw [ih, lastLine_cons, lastLine_cons]
    cases rest.any isLineTerminator <;> simp [isLineTerminator, nextLine]
  | case3 position char rest _ terminator ih =>
    rw [ih, lastLine_cons]
    cases rest.any isLineTerminator <;> simp [terminator, nextLine]
  | case4 position char rest _ terminator ih =>
    rw [ih, lastLine_cons]
    cases some : rest.any isLineTerminator with
    | true => simp [some]
    | false => simp [terminator, some, right, Nat.add_assoc, Nat.add_comm 1]

/-- Reading the text before an offset comes to the position of the offset. -/
theorem after_first (source : String) (offset : Nat) :
    first.after (source.toList.take offset) = ofOffset source offset := by
  have line := line_after first (source.toList.take offset)
  have column := column_after first (source.toList.take offset)
  rw [ofOffset]
  generalize source.toList.take offset = before at line column ⊢
  have last : (first.after before).column = (lastLine before).length := by
    rw [column]
    split
    · rfl
    · rename_i none
      have inLine : lastLine before = before :=
        List.rtakeWhile_eq_self_iff.mpr fun char member => by
          simpa using fun terminator => none (List.any_eq_true.mpr ⟨char, member, terminator⟩)
      rw [inLine]
      exact Nat.zero_add _
  rw [← last]
  calc first.after before = ⟨(first.after before).line, (first.after before).column⟩ := rfl
    _ = ⟨1 + lineTerminators before, (first.after before).column⟩ := by rw [line]; rfl

end Position

end EcmaScript
