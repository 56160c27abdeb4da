import EcmaScript.Lexical.Scan

/-!
# Faults of tokens

Whatever is wrong with the trivia, with a lexeme or with a regular expression is a fault of the
lexical level, at a place that has been read.
-/

namespace EcmaScript

/-- The causes that only regular expressions have. -/
def Cause.isOfRegularExpression : Cause → Bool
  | .unterminatedRegularExpression | .invalidRegularExpressionFlags | .invalidPattern .. => true
  | _ => false

/-- A reading that fails has found a malformed regular expression, or a malformed token of another
kind, at a place that it has come to. -/
def Reading.IsLexical {α : Type} (expression : Bool) : Reading α → Prop
  | .success .. => True
  | .failure length cause place =>
    cause.category = .lexical ∧ cause.isOfRegularExpression = expression ∧ place ≤ length

namespace Reading

variable {α β : Type}

variable {expression : Bool}

theorem isLexical_atFront (length : Nat) {cause : Cause} (lexical : cause.category = .lexical)
    (same : cause.isOfRegularExpression = expression) :
    (failure length cause 0 : Reading α).IsLexical expression :=
  ⟨lexical, same, Nat.zero_le length⟩

@[simp] theorem isLexical_map {change : α → β} {reading : Reading α} :
    (reading.map change).IsLexical expression ↔ reading.IsLexical expression := by
  cases reading <;> rfl

end Reading

namespace Trivia

/-- A comment that is not closed is faulty at its beginning. -/
theorem isLexical_readFrom (region : Region) (index : Nat) (lineBreak : Bool) (text : List Char)
    (before : ∀ {start}, region = .blockComment start → start ≤ index) :
    (readFrom region index lineBreak text).IsLexical false := by
  fun_induction readFrom region index lineBreak text with
  | case2 index lineBreak rest ih =>
    apply ih
    rintro _ ⟨⟩
    exact Nat.le_add_right _ _
  | case9 index lineBreak start char rest notEnd ih =>
    apply ih
    rintro _ ⟨⟩
    exact Nat.le_succ_of_le (before rfl)
  | case10 index lineBreak start => exact ⟨rfl, rfl, before rfl⟩
  | case5 | case11 => trivial
  | case1 _ _ _ ih | case3 _ _ _ _ _ _ _ ih | case4 _ _ _ _ _ _ _ _ ih | case6 _ _ _ _ _ ih
  | case7 _ _ _ _ _ ih | case8 _ _ _ _ ih =>
    apply ih
    rintro _ ⟨⟩

theorem isLexical_read (text : List Char) : (read text).IsLexical false :=
  isLexical_readFrom _ _ _ _ (by rintro _ ⟨⟩)

end Trivia

namespace Escape

theorem isLexical_bracedDigits (code index : Nat) (text : List Char) :
    (bracedDigits code index text).IsLexical false := by
  fun_induction bracedDigits code index text <;>
    first | assumption | trivial | exact Reading.isLexical_atFront _ rfl rfl

theorem isLexical_unicode (text : List Char) : (unicode text).IsLexical false := by
  unfold unicode
  split
  · exact isLexical_bracedDigits _ _ _
  · dsimp only
    split
    · trivial
    · exact Reading.isLexical_atFront _ rfl rfl
  · exact Reading.isLexical_atFront _ rfl rfl

theorem isLexical_unicodeInString (text : List Char) : (unicodeInString text).IsLexical false := by
  have whole := isLexical_unicode text
  unfold unicodeInString
  split
  · rename_i read
    rwa [read] at whole
  · dsimp only
    split
    · rename_i tail _ _
      have second := isLexical_unicode ('\\' :: 'u' :: tail)
      split
      · rename_i read
        rw [read] at second
        exact ⟨second.1, second.2.1, Nat.add_le_add_left second.2.2 _⟩
      · split <;> trivial
    · trivial

theorem isLexical_inString (text : List Char) : (inString text).IsLexical false := by
  unfold inString
  split
  · trivial
  · split
    · trivial
    · exact Reading.isLexical_atFront _ rfl rfl
  · exact isLexical_unicodeInString _
  · split
    · trivial
    · split
      · trivial
      · split <;> trivial
  · exact Reading.isLexical_atFront _ rfl rfl

end Escape

theorem StringLiteral.isLexical_readFrom (quote : Char) (index : Nat) (value : List Char)
    (flags : Flags) (text : List Char) :
    (readFrom quote index value flags text).IsLexical false := by
  fun_induction readFrom quote index value flags text with
  | case3 index value flags rest _ length cause place read =>
    have inside := Escape.isLexical_inString ('\\' :: rest)
    rw [read] at inside
    exact ⟨inside.1, inside.2.1, Nat.add_le_add_left inside.2.2 index⟩
  | _ => first | assumption | trivial | exact Reading.isLexical_atFront _ rfl rfl

namespace NumericLiteral

theorem isLexical_accept (length : Nat) (rest : List Char) (value : Binary64) (flags : Flags) :
    (accept length rest value flags).IsLexical false := by
  unfold accept
  split
  · exact ⟨rfl, rfl, Nat.le_refl length⟩
  · trivial

theorem isLexical_readRadix (radix : Nat) (flags : Flags) (text : List Char) :
    (readRadix radix flags text).IsLexical false := by
  unfold readRadix
  dsimp only
  split
  · exact Reading.isLexical_atFront _ rfl rfl
  · exact isLexical_accept _ _ _ _

theorem isLexical_readDecimal (text : List Char) : (readDecimal text).IsLexical false := by
  unfold readDecimal
  dsimp only
  split
  · split
    · exact Reading.isLexical_atFront _ rfl rfl
    · exact isLexical_accept _ _ _ _
  · exact isLexical_accept _ _ _ _

theorem isLexical_read (text : List Char) : (read text).IsLexical false := by
  unfold read
  split
  · split
    · exact isLexical_readRadix _ _ _
    · exact isLexical_readDecimal _
  · exact isLexical_readDecimal _

end NumericLiteral

namespace Name

theorem isLexical_readFrom (index : Nat) (name : List Char) (flags : Flags) (text : List Char) :
    (readFrom index name flags text).IsLexical false := by
  fun_induction readFrom index name flags text with
  | case2 index name flags rest length cause place escape =>
    have inside := Escape.isLexical_unicode ('\\' :: rest)
    rw [escape] at inside
    exact ⟨inside.1, inside.2.1, Nat.add_le_add_left inside.2.2 index⟩
  | case4 index name flags rest length => exact ⟨rfl, rfl, Nat.le_add_right index length⟩
  | _ => first | assumption | trivial

theorem isLexical_read (text : List Char) : (read text).IsLexical false := by
  have inside := isLexical_readFrom 0 [] {} text
  unfold read
  split
  · rename_i found
    rwa [found] at inside
  · split
    · trivial
    · split
      · exact Reading.isLexical_atFront _ rfl rfl
      · trivial

end Name

theorem Lexeme.isLexical_read (text : List Char) : (read text).IsLexical false := by
  unfold read
  split
  · trivial
  · split
    · exact Reading.isLexical_map.mpr (StringLiteral.isLexical_readFrom _ _ _ _ _)
    · split
      · exact Reading.isLexical_map.mpr (NumericLiteral.isLexical_read _)
      · split
        · exact Name.isLexical_read _
        · split
          · trivial
          · exact Reading.isLexical_atFront _ rfl rfl

namespace RegularExpression

theorem isLexical_closingSlash (isInClass : Bool) (index : Nat) (text : List Char) :
    (closingSlash isInClass index text).IsLexical true := by
  fun_induction closingSlash isInClass index text <;>
    first | assumption | trivial | exact Reading.isLexical_atFront _ rfl rfl

theorem lexical_of_fault? {pattern flags : String} {cause : Cause}
    (found : fault? pattern flags = some cause) :
    cause.category = .lexical ∧ cause.isOfRegularExpression = true := by
  unfold fault? at found
  split at found
  · cases found
    exact ⟨rfl, rfl⟩
  · split at found <;> cases found
    exact ⟨rfl, rfl⟩

theorem isLexical_read (front text : List Char) : (read front text).IsLexical true := by
  have slash := isLexical_closingSlash false 0 text
  unfold read
  split
  · rename_i found
    rwa [found] at slash
  · dsimp only
    split
    · rename_i found
      obtain ⟨lexical, same⟩ := lexical_of_fault? found
      exact Reading.isLexical_atFront _ lexical same
    · trivial

end RegularExpression

namespace Scan

/-- A fault of a token is a lexical one, and none of a regular expression. -/
theorem lexical_of_token {cursor after : Cursor} {fault : Fault}
    (scanned : token cursor = .error fault after) :
    fault.cause.category = .lexical ∧ fault.cause.isOfRegularExpression = false := by
  simp only [token, bind, EStateM.bind] at scanned
  split at scanned
  · unfold lexeme at scanned
    dsimp only at scanned
    rename_i middle _
    have inside := Lexeme.isLexical_read middle.rest
    split at scanned
    · cases scanned
    · rename_i read
      cases scanned
      rw [read] at inside
      exact ⟨inside.1, inside.2.1⟩
  · rename_i found
    unfold trivia at found
    have between := Trivia.isLexical_read cursor.rest
    split at found
    · cases found
    · rename_i read
      cases found
      cases scanned
      rw [read] at between
      exact ⟨between.1, between.2.1⟩

/-- A fault of a regular expression is a lexical one. -/
theorem lexical_of_regularExpression {slash : Token} {front : List Char} {cursor after : Cursor}
    {fault : Fault} (scanned : regularExpression slash front cursor = .error fault after) :
    fault.cause.category = .lexical ∧ fault.cause.isOfRegularExpression = true := by
  unfold regularExpression at scanned
  have inside := RegularExpression.isLexical_read front cursor.rest
  split at scanned
  · cases scanned
  · rename_i read
    cases scanned
    rw [read] at inside
    exact ⟨inside.1, inside.2.1⟩

end Scan

end EcmaScript
