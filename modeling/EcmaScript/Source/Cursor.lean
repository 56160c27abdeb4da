import EcmaScript.Source.Character
import EcmaScript.Source.Position

/-!
# Cursors into a source text

A cursor stands between two characters of a text. It holds the text that remains, the number of
characters before it and its position. `Position.after` says how reading some text moves a position:
each line terminator starts a line, and a carriage return with its line feed is one terminator.
Inside a string literal, `Position.afterLiteral`, only an escaped terminator starts a line.
-/

namespace EcmaScript

namespace Position

/-- The position after some text that begins at this one. -/
def after (position : Position) : List Char → Position
  | [] => position
  | '\r' :: '\n' :: rest => position.nextLine.after rest
  | char :: rest =>
    if isLineTerminator char then position.nextLine.after rest else (position.right 1).after rest

/-- The position after the text of a string literal, or of its beginning, that begins at this one.
-/
def afterLiteral (position : Position) : List Char → Position
  | [] => position
  | '\\' :: '\r' :: '\n' :: rest => position.nextLine.afterLiteral rest
  | '\\' :: char :: rest =>
    if isLineTerminator char then position.nextLine.afterLiteral rest
    else (position.right 2).afterLiteral rest
  | _ :: rest => (position.right 1).afterLiteral rest

@[simp] theorem after_nil (position : Position) : position.after [] = position := by
  simp [after]

/-- Text without line terminators moves a position along its line. -/
theorem after_of_inLine (text : List Char) (position : Position)
    (inLine : ∀ char ∈ text, isLineTerminator char = false) :
    position.after text = position.right text.length := by
  induction text generalizing position with
  | nil => simp
  | cons char rest ih =>
    have notTerminator := inLine char (by simp)
    unfold after
    split
    · simp_all
    · exact absurd notTerminator (by simp_all [isLineTerminator])
    · rename_i head tail _ equal
      cases equal
      rw [notTerminator]
      simp [ih (position.right 1) fun char member => inLine char (by simp [member]),
        Nat.add_comm]

/-- The position after one character that is no half of a pair. -/
theorem after_cons (position : Position) {char : Char} {rest : List Char}
    (alone : char = '\r' → rest.head? ≠ some '\n') :
    position.after (char :: rest) =
      if isLineTerminator char then position.nextLine.after rest
      else (position.right 1).after rest := by
  rw [after.eq_def]
  split
  · contradiction
  · rename_i equal
    cases equal
    exact absurd rfl (alone rfl)
  · rename_i equal
    cases equal
    rfl

/-- The position after two pieces of text is found piece by piece, unless a carriage return and its
line feed are in different pieces. -/
theorem after_append (position : Position) (front back : List Char)
    (whole : front.getLast? = some '\r' → back.head? ≠ some '\n') :
    position.after (front ++ back) = (position.after front).after back := by
  fun_induction after position front with
  | case1 => rfl
  | case2 position rest ih =>
    simp only [List.cons_append, after]
    apply ih
    intro last
    apply whole
    cases rest <;> simp_all [List.getLast?_cons_cons]
  | case3 position char rest notPair terminator ih =>
    rw [List.cons_append, after_cons]
    · rw [if_pos terminator]
      apply ih
      intro last
      apply whole
      cases rest <;> simp_all [List.getLast?_cons_cons]
    · rintro rfl
      cases rest with
      | nil => exact whole rfl
      | cons next others =>
        simp only [List.cons_append, List.head?_cons, ne_eq, Option.some.injEq]
        rintro rfl
        exact notPair others rfl rfl
  | case4 position char rest notPair terminator ih =>
    rw [List.cons_append, after_cons]
    · rw [if_neg terminator]
      apply ih
      intro last
      apply whole
      cases rest <;> simp_all [List.getLast?_cons_cons]
    · rintro rfl
      exact absurd rfl terminator

end Position

/-- A place in a source text, with the text that remains from there. -/
structure Cursor where
  rest : List Char
  offset : Nat
  position : Position
  deriving DecidableEq, Repr

namespace Cursor

/-- The cursor before the first character of a text. -/
def atStart (source : String) : Cursor :=
  ⟨source.toList, 0, .first⟩

/-- The number of characters of the whole text. -/
def sourceLength (cursor : Cursor) : Nat :=
  cursor.offset + cursor.rest.length

/-- Moves over the next characters, or over all that remain when there are fewer, with a rule for
the position after them. -/
def moveBy (cursor : Cursor) (walk : Position → List Char → Position) (count : Nat) : Cursor :=
  let passed := cursor.rest.take count
  { rest := cursor.rest.drop count
    offset := cursor.offset + passed.length
    position := walk cursor.position passed }

/-- Moves over characters that are not inside a string literal. -/
def pass (cursor : Cursor) (count : Nat) : Cursor :=
  cursor.moveBy Position.after count

/-- Moves over the characters of a string literal. -/
def passLiteral (cursor : Cursor) (count : Nat) : Cursor :=
  cursor.moveBy Position.afterLiteral count

/-- Moves over a first line that begins with `#!`, up to its terminator. Nothing happens anywhere
but at the start of a text. -/
def passHashbang (cursor : Cursor) : Cursor :=
  match cursor.offset, cursor.rest with
  | 0, '#' :: '!' :: _ =>
    cursor.pass (cursor.rest.takeWhile fun char => !isLineTerminator char).length
  | _, _ => cursor

@[simp] theorem sourceLength_moveBy (cursor : Cursor) (walk : Position → List Char → Position)
    (count : Nat) : (cursor.moveBy walk count).sourceLength = cursor.sourceLength := by
  simp only [sourceLength, moveBy, List.length_take, List.length_drop]
  omega

@[simp] theorem sourceLength_pass (cursor : Cursor) (count : Nat) :
    (cursor.pass count).sourceLength = cursor.sourceLength := by
  simp [pass]

@[simp] theorem sourceLength_passLiteral (cursor : Cursor) (count : Nat) :
    (cursor.passLiteral count).sourceLength = cursor.sourceLength := by
  simp [passLiteral]

@[simp] theorem rest_pass (cursor : Cursor) (count : Nat) :
    (cursor.pass count).rest = cursor.rest.drop count := rfl

@[simp] theorem rest_passLiteral (cursor : Cursor) (count : Nat) :
    (cursor.passLiteral count).rest = cursor.rest.drop count := rfl

@[simp] theorem pass_zero (cursor : Cursor) : cursor.pass 0 = cursor := by
  simp [pass, moveBy]

@[simp] theorem sourceLength_passHashbang (cursor : Cursor) :
    cursor.passHashbang.sourceLength = cursor.sourceLength := by
  unfold passHashbang
  split <;> simp

end Cursor

/-- The characters of a text from one offset up to another. Offsets past the end, and a start past
the stop, are moved back. -/
def sourceText (source : String) (start stop : Nat) : String :=
  let characters := source.toList
  let stop := min stop characters.length
  let start := min start stop
  String.ofList ((characters.drop start).take (stop - start))

end EcmaScript
