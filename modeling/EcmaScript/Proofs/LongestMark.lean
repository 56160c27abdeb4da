import EcmaScript.Proofs.CheckedTokens
import EcmaScript.Proofs.WordText

/-!
# The longest mark

Where the text behind the trivia begins with marks, the longest of them is the token there, unless
the text is a point that begins a number. Where it begins with no mark, and with no string, number
or name, its first character is refused. A machine that looks at one character after the other finds
the same mark.
-/

namespace EcmaScript

namespace Symbol

/-- A mark is the longest of those that a text begins with. -/
structure IsLongestAt (text : List Char) (mark : Symbol) : Prop where
  isMark : mark.isWord = false
  isFront : mark.text.toList <+: text
  longest : ∀ other : Symbol, other.isWord = false → other.text.toList <+: text →
    other.text.length ≤ mark.text.length

theorem mem_marks_iff {mark : Symbol} : mark ∈ marks ↔ mark.isWord = false := by
  have complete : ∀ symbol ∈ all, symbol.isWord = false → symbol ∈ marks := by decide +kernel
  exact ⟨isWord_of_mem_marks mark, complete mark mark.mem_all⟩

theorem eq_of_text_eq {mark other : Symbol} (isMark : mark.isWord = false)
    (isMarkToo : other.isWord = false) (same : mark.text = other.text) : mark = other := by
  have apart : ∀ mark ∈ marks, ∀ other ∈ marks, mark.text = other.text → mark = other := by
    decide +kernel
  exact apart mark (mem_marks_iff.mpr isMark) other (mem_marks_iff.mpr isMarkToo) same

variable {text : List Char} {mark other : Symbol}

/-- Only one mark is the longest, since no two marks have the same text. -/
theorem IsLongestAt.unique (isLongest : mark.IsLongestAt text)
    (isLongestToo : other.IsLongestAt text) : mark = other := by
  have sameLength : mark.text.toList.length = other.text.toList.length := by
    rw [String.length_toList, String.length_toList]
    exact Nat.le_antisymm (isLongestToo.longest mark isLongest.isMark isLongest.isFront)
      (isLongest.longest other isLongestToo.isMark isLongestToo.isFront)
  have sameText : mark.text.toList = other.text.toList :=
    (List.prefix_of_prefix_length_le isLongest.isFront isLongestToo.isFront
      (Nat.le_of_eq sameLength)).eq_of_length sameLength
  exact eq_of_text_eq isLongest.isMark isLongestToo.isMark (String.toList_injective sameText)

theorem leadingMark?_eq_none_iff :
    leadingMark? text = none ↔
      ∀ mark : Symbol, mark.isWord = false → ¬mark.text.toList <+: text := by
  simp only [leadingMark?, List.find?_eq_none, mem_marks_iff, List.isPrefixOf_iff_prefix]

theorem leadingMark?_eq_some_iff : leadingMark? text = some mark ↔ mark.IsLongestAt text := by
  have isLongest : ∀ {found}, leadingMark? text = some found → found.IsLongestAt text := by
    intro found leading
    have isFront := List.find?_some leading
    exact ⟨mem_marks_iff.mp (List.mem_of_find?_eq_some leading),
      List.isPrefixOf_iff_prefix.mp isFront, fun other isMark =>
        length_le_of_leadingMark? leading (mem_marks_iff.mpr isMark)⟩
  refine ⟨isLongest, fun expected => ?_⟩
  cases leading : leadingMark? text with
  | none => exact absurd expected.isFront (leadingMark?_eq_none_iff.mp leading mark expected.isMark)
  | some found => rw [(isLongest leading).unique expected]

instance (text : List Char) (mark : Symbol) : Decidable (mark.IsLongestAt text) :=
  decidable_of_iff _ leadingMark?_eq_some_iff

/-- Two points without a third are two marks. -/
example : IsLongestAt "..".toList Punctuator.period := by decide +kernel

end Symbol

/-- A character begins a string, a number or a name by itself. -/
def beginsWordOrLiteral (char : Char) : Bool :=
  char == '"' || char == '\'' || char.isDigit || char == '\\' || isIdentifierStart char

/-- A text begins with a point and a digit, and so with a number. -/
def BeginsFraction (text : List Char) : Prop :=
  ∃ digit : Char, digit.isDigit = true ∧ ['.', digit] <+: text

/-- No character of a mark begins anything else, or ends a line. -/
theorem Symbol.plain_of_mem_text {mark : Symbol} (isMark : mark.isWord = false) :
    ∀ char ∈ mark.text.toList,
      beginsWordOrLiteral char = false ∧ isLineTerminator char = false := by
  have plain : (marks.all fun mark => mark.text.toList.all fun char =>
      !beginsWordOrLiteral char && !isLineTerminator char) = true := by
    decide +kernel
  have chars := List.all_eq_true.mp plain mark (mem_marks_iff.mpr isMark)
  simpa using chars

section Beginnings

variable {char : Char} {rest : List Char} (plain : beginsWordOrLiteral char = false)
  (whole : ¬BeginsFraction (char :: rest))
include plain whole

/-- Where neither a string nor a number nor a name begins, the longest mark is read. -/
theorem Lexeme.read_of_plain :
    read (char :: rest) =
      match Symbol.leadingMark? (char :: rest) with
      | some mark => .success mark.text.length (.symbol mark, {})
      | none => .failure 1 .unexpectedCharacter 0 := by
  simp only [beginsWordOrLiteral, Bool.or_eq_false_iff, beq_eq_false_iff_ne] at plain
  obtain ⟨⟨⟨⟨notDouble, notSingle⟩, notDigit⟩, notEscape⟩, notStart⟩ := plain
  have notNumber : NumericLiteral.starts (char :: rest) = false := by
    unfold NumericLiteral.starts NumericLiteral.startsDigit
    split
    · rename_i same
      cases same
      cases rest with
      | nil => rfl
      | cons digit fraction =>
        by_contra isDigit
        exact whole ⟨digit, by simpa using isDigit, fraction, rfl⟩
    · exact notDigit
  have notName : ¬(char = '\\' ∨ isIdentifierStart char = true) :=
    not_or.mpr ⟨notEscape, Bool.not_eq_true _ ▸ notStart⟩
  rw [read, if_neg (not_or.mpr ⟨notDouble, notSingle⟩), if_neg (Bool.not_eq_true _ ▸ notNumber)]
  exact if_neg notName

omit whole in
theorem Lexeme.walk_of_plain : walk (char :: rest) = Position.after := by
  simp only [beginsWordOrLiteral, Bool.or_eq_false_iff, beq_eq_false_iff_ne] at plain
  rw [walk, if_neg]
  simpa using ⟨plain.1.1.1.1, plain.1.1.1.2⟩

end Beginnings

/-- A fraction does not begin where no point does. -/
theorem not_beginsFraction_of_no_mark {text : List Char}
    (noMark : ∀ mark : Symbol, mark.isWord = false → ¬mark.text.toList <+: text) :
    ¬BeginsFraction text := by
  rintro ⟨digit, -, behind, rfl⟩
  exact noMark Punctuator.period rfl ⟨digit :: behind, rfl⟩

/-- The token that a mark is at a cursor. -/
def Token.ofMark (here : Cursor) (lineBreak : Bool) (mark : Symbol) : Token where
  lexeme := .symbol mark
  flags := { lineBreak }
  span := ⟨here.position, here.position.right mark.text.length⟩
  start := here.offset
  stop := here.offset + mark.text.length
  text := mark.text

namespace Scan

variable {source : String} {cursor here : Cursor} {lineBreak : Bool}

theorem lexeme_of_isLongestAt {mark : Symbol} (isLongest : mark.IsLongestAt here.rest)
    (whole : ¬BeginsFraction here.rest) :
    lexeme lineBreak here = .ok (.ofMark here lineBreak mark) (here.pass mark.text.length) := by
  obtain ⟨behind, same⟩ := isLongest.isFront
  have plain := Symbol.plain_of_mem_text isLongest.isMark
  have some := Symbol.length_text_pos mark (Symbol.mem_marks_iff.mpr isLongest.isMark)
  have taken : here.rest.take mark.text.length = mark.text.toList := by
    rw [← same, ← String.length_toList, List.take_left]
  have moved := Position.after_of_inLine mark.text.toList here.position fun char member =>
    (plain char member).2
  rw [String.length_toList] at moved
  obtain ⟨char, others, text⟩ := List.exists_cons_of_length_pos (String.length_toList ▸ some)
  have begins : here.rest = char :: (others ++ behind) := by rw [← same, text, List.cons_append]
  have plainFirst := (plain char (text ▸ List.mem_cons_self)).1
  have leading := Symbol.leadingMark?_eq_some_iff.mpr isLongest
  have read : Lexeme.read here.rest = .success mark.text.length (.symbol mark, {}) := by
    rw [begins] at whole leading ⊢
    rw [Lexeme.read_of_plain plainFirst whole, leading]
  have walk : Lexeme.walk here.rest = Position.after := by
    rw [begins, Lexeme.walk_of_plain plainFirst]
  simp only [lexeme, read, walk, Cursor.pass, Cursor.moveBy, taken, moved, Token.ofMark,
    String.ofList_toList, String.length_toList]

theorem lexeme_of_no_mark {char : Char} {rest : List Char} (begins : here.rest = char :: rest)
    (noMark : ∀ mark : Symbol, mark.isWord = false → ¬mark.text.toList <+: here.rest)
    (plain : beginsWordOrLiteral char = false) :
    lexeme lineBreak here = .error ⟨.unexpectedCharacter, here.position⟩ (here.pass 1) := by
  have whole := not_beginsFraction_of_no_mark noMark
  have leading := Symbol.leadingMark?_eq_none_iff.mpr noMark
  have read : Lexeme.read here.rest = .failure 1 .unexpectedCharacter 0 := by
    rw [begins] at whole leading ⊢
    rw [Lexeme.read_of_plain plain whole, leading]
  have walk : Lexeme.walk here.rest = Position.after := by
    rw [begins, Lexeme.walk_of_plain plain]
  simp only [lexeme, read, walk]
  rw [← Cursor.pass, ← Cursor.pass, Cursor.pass_zero]

theorem token_of_trivia (begins : trivia cursor = .ok lineBreak here) :
    token cursor = lexeme lineBreak here := by
  simp only [token, bind, EStateM.bind, begins]

/-- Behind the trivia the token is the longest mark that the text begins with, and just its text,
unless a number begins with a point. Where there is no mark, and nothing else begins, the character
there is refused. The machine does the same. -/
theorem token_of_marks (inSource : cursor.IsIn source)
    (begins : trivia cursor = .ok lineBreak here) :
    ((∃ mark : Symbol, mark.isWord = false ∧ mark.text.toList <+: here.rest) →
      ¬BeginsFraction here.rest →
      ∃ mark : Symbol, (∀ other : Symbol, other.IsLongestAt here.rest ↔ other = mark) ∧
        token cursor = .ok (.ofMark here lineBreak mark) (here.pass mark.text.length) ∧
        sourceText source here.offset (here.offset + mark.text.length) = mark.text ∧
        Checked.token (cursor.machine source) =
          .ok ⟨⟨.symbol mark, none, { lineBreak }⟩, here.offset, here.offset + mark.text.length⟩
            ⟨source.toList, here.offset + mark.text.length⟩) ∧
      ∀ char rest, here.rest = char :: rest →
        (∀ mark : Symbol, mark.isWord = false → ¬mark.text.toList <+: here.rest) →
        beginsWordOrLiteral char = false →
        token cursor = .error ⟨.unexpectedCharacter, here.position⟩ (here.pass 1) ∧
          Checked.token (cursor.machine source) =
            .error (.fault .unexpectedCharacter) ⟨source.toList, here.offset + 1⟩ := by
  have machine := Checked.token_eq inSource
  have inSourceToo : here.IsIn source := by
    unfold trivia at begins
    split at begins
    · cases begins
      exact inSource.pass
    · cases begins
  rw [token_of_trivia begins] at machine ⊢
  constructor
  · rintro ⟨some, isMark, isFront⟩ whole
    cases leading : Symbol.leadingMark? here.rest with
    | none => exact absurd isFront (Symbol.leadingMark?_eq_none_iff.mp leading some isMark)
    | some mark =>
      have isLongest := Symbol.leadingMark?_eq_some_iff.mp leading
      have scanned : lexeme lineBreak here = _ := lexeme_of_isLongestAt isLongest whole
      have enough := isLongest.isFront.length_le
      rw [String.length_toList] at enough
      refine ⟨mark, fun other => ⟨fun isLongestToo => isLongestToo.unique isLongest, ?_⟩, scanned,
        ?_, ?_⟩
      · rintro rfl
        exact isLongest
      · rw [← inSourceToo.text enough, Symbol.text_of_leadingMark? leading]
      · rw [machine, scanned, outcome, Cursor.machine, Cursor.pass, Cursor.offset_moveBy enough,
          Token.raw, Token.ofMark, Lexeme.content, Lexeme.payload,
          if_neg (by simp [isLongest.isMark])]
        rfl
  · intro char rest same noMark plain
    have scanned : lexeme lineBreak here = _ := lexeme_of_no_mark same noMark plain
    refine ⟨scanned, ?_⟩
    rw [machine, scanned, outcome, Cursor.machine, Cursor.pass, Cursor.offset_moveBy]
    rw [same]
    exact Nat.succ_pos _

/-- Of the marks that four signs begin with, all four are read, and an at sign is refused. -/
theorem token_of_marks_shift :
    token (Cursor.atStart "\n>>>=@") =
        .ok (.ofMark ⟨">>>=@".toList, 1, ⟨2, 0⟩⟩ true AssignmentOperator.logicalShiftRightAssign)
          ⟨['@'], 5, ⟨2, 4⟩⟩ ∧
      token ⟨['@'], 5, ⟨2, 4⟩⟩ = .error ⟨.unexpectedCharacter, ⟨2, 4⟩⟩ ⟨[], 6, ⟨2, 5⟩⟩ := by
  have first : trivia (Cursor.atStart "\n>>>=@") = .ok true ⟨">>>=@".toList, 1, ⟨2, 0⟩⟩ := rfl
  have second : trivia ⟨['@'], 5, ⟨2, 4⟩⟩ = .ok false ⟨['@'], 5, ⟨2, 4⟩⟩ := rfl
  constructor
  · obtain ⟨mark, only, scanned, -⟩ := (token_of_marks (.atStart _) first).1
      ⟨BinaryOperator.greaterThan, rfl, by decide⟩ (by rintro ⟨_, -, _, ⟨⟩⟩)
    obtain rfl := (only AssignmentOperator.logicalShiftRightAssign).mp (by decide +kernel)
    exact scanned
  · have inSource : Cursor.IsIn "\n>>>=@" ⟨['@'], 5, ⟨2, 4⟩⟩ := ⟨by decide, by decide⟩
    exact ((token_of_marks inSource second).2 '@' [] rfl
      (Symbol.leadingMark?_eq_none_iff.mp (by decide +kernel)) (by decide)).1

end Scan

end EcmaScript
