import EcmaScript.Proofs.Placement

/-!
# Legacy escapes

The escapes that strict code may not contain can be found in the text of a string, by going over its
escapes from the left. The flags of a token say just that: they are set for a string whose text has
such an escape, and for no other token.
-/

namespace EcmaScript

/-- The character after a backslash begins an octal escape, or is `8` or `9`. A zero without a digit
after it is no octal escape. -/
def isLegacyEscape (char : Char) (rest : List Char) : Bool :=
  char.isDigit && (char != '0' || rest.head?.any Char.isDigit)

/-- Some text has an escape that strict code may not contain. -/
def hasLegacyEscape : List Char → Bool
  | '\\' :: char :: rest => isLegacyEscape char rest || hasLegacyEscape rest
  | _ :: rest => hasLegacyEscape rest
  | [] => false

/-- The first characters of a text, and all that lies in them, are no legacy escape. -/
def Skips (text : List Char) (count : Nat) : Prop :=
  ∀ length, count ≤ length →
    hasLegacyEscape (text.take length) = hasLegacyEscape ((text.drop count).take (length - count))

theorem Skips.add {text : List Char} {first second : Nat} (left : Skips text first)
    (right : Skips (text.drop first) second) : Skips text (first + second) := by
  intro length enough
  rw [left length (by omega), right (length - first) (by omega), List.drop_drop, Nat.sub_sub]

theorem skips_char {char : Char} (rest : List Char) (plain : char ≠ '\\') :
    Skips (char :: rest) 1 := by
  intro length enough
  obtain ⟨more, rfl⟩ := Nat.exists_eq_add_of_le' enough
  rw [List.take_succ_cons, hasLegacyEscape]
  · simp
  · intro _ _ backslash
    contradiction

theorem skips_pair (char : Char) (rest : List Char) (other : char.isDigit = false) :
    Skips ('\\' :: char :: rest) 2 := by
  intro length enough
  obtain ⟨more, rfl⟩ := Nat.exists_eq_add_of_le' enough
  simp [hasLegacyEscape, isLegacyEscape, other]

/-- A digit of any radix is no backslash. -/
theorem ne_backslash_of_digitOf? {radix digit : Nat} {char : Char}
    (read : digitOf? radix char = some digit) : char ≠ '\\' := by
  rintro rfl
  have none : digitOf? radix '\\' = none := rfl
  rw [none] at read
  contradiction

theorem skips_none (text : List Char) : Skips text 0 :=
  fun _ _ => rfl

theorem skips_digits (radix bound : Nat) (text : List Char) :
    Skips text (leadingDigits radix (text.take bound)).length := by
  induction text generalizing bound with
  | nil =>
    rw [List.take_nil]
    exact skips_none []
  | cons char rest ih =>
    cases bound with
    | zero => exact skips_none _
    | succ bound =>
      rw [List.take_succ_cons]
      unfold leadingDigits
      split
      · rename_i digit read
        rw [List.length_cons, Nat.add_comm]
        exact (skips_char rest (ne_backslash_of_digitOf? read)).add (ih bound)
      · exact skips_none _

namespace Escape

theorem skips_bracedDigits {code index length : Nat} {text : List Char} {point : CodePoint}
    (read : bracedDigits code index text = .success length point) :
    index ≤ length ∧ Skips text (length - index) := by
  fun_induction bracedDigits code index text with
  | case3 code index char rest digit found _ _ ih =>
    obtain ⟨later, skips⟩ := ih read
    have whole := (skips_char rest (ne_backslash_of_digitOf? found)).add skips
    have same : 1 + (length - (index + 1)) = length - index := by omega
    rw [same] at whole
    exact ⟨by omega, whole⟩
  | case4 code index char rest _ closing =>
    cases read
    have brace : char = '}' := by simpa using (Bool.and_eq_true _ _ |>.mp closing).1
    subst brace
    refine ⟨by omega, ?_⟩
    rw [Nat.add_sub_cancel_left]
    exact skips_char rest (by decide)
  | _ => cases read

theorem skips_unicode {text : List Char} {length : Nat} {point : CodePoint}
    (read : unicode text = .success length point) : Skips text length := by
  unfold unicode at read
  split at read
  · rename_i rest
    obtain ⟨later, skips⟩ := skips_bracedDigits read
    have front := (skips_pair 'u' ('{' :: rest) rfl).add (skips_char rest (by decide))
    have whole := front.add skips
    rwa [Nat.add_sub_cancel' later] at whole
  · rename_i rest _
    dsimp only at read
    split at read
    · rename_i four
      cases read
      have digits := skips_digits 16 4 rest
      rw [four] at digits
      exact (skips_pair 'u' rest rfl).add digits
    · cases read
  · cases read

theorem skips_unicodeInString {text : List Char} {length : Nat} {added : Contribution}
    (read : unicodeInString text = .success length added) :
    Skips text length ∧ added.flags.hasLegacyEscape = false := by
  unfold unicodeInString at read
  split at read
  · cases read
  · rename_i first point found
    have skips := skips_unicode found
    dsimp only at read
    split at read
    · rename_i rest _ dropped
      split at read
      · cases read
      · rename_i second low foundLow
        split at read
        · cases read
          rw [← dropped] at foundLow
          exact ⟨skips.add (skips_unicode foundLow), rfl⟩
        · cases read
          exact ⟨skips, rfl⟩
    · cases read
      exact ⟨skips, rfl⟩

theorem isDigit_of_le {char : Char} (octal : '0' ≤ char ∧ char ≤ '7') : char.isDigit = true := by
  have low := UInt32.le_iff_toNat_le.mp octal.1
  have high := UInt32.le_iff_toNat_le.mp octal.2
  have zero : '0'.val.toNat = 48 := rfl
  have seven : '7'.val.toNat = 55 := rfl
  simp only [Char.isDigit, Bool.and_eq_true, decide_eq_true_eq, ge_iff_le]
  constructor
  · rw [UInt32.le_iff_toNat_le]
    exact low
  · rw [UInt32.le_iff_toNat_le]
    have nine : '9'.val.toNat = 57 := rfl
    omega

theorem isDigit_of_other {char : Char} (notOctal : ¬('0' ≤ char ∧ char ≤ '7'))
    (useful : ¬(char = '8' ∨ char = '9')) : char.isDigit = false := by
  rw [← Bool.not_eq_true]
  intro digit
  simp only [Char.isDigit, Bool.and_eq_true, decide_eq_true_eq, ge_iff_le] at digit
  have low := UInt32.le_iff_toNat_le.mp digit.1
  have high := UInt32.le_iff_toNat_le.mp digit.2
  have zero : '0'.val.toNat = 48 := rfl
  have nine : '9'.val.toNat = 57 := rfl
  by_cases small : char.val.toNat ≤ 55
  · apply notOctal
    exact ⟨digit.1, UInt32.le_iff_toNat_le.mpr small⟩
  · apply useful
    have either : char.val.toNat = 56 ∨ char.val.toNat = 57 := by omega
    rcases either with eight | nine
    · left
      exact Char.ext (UInt32.toNat_inj.mp eight)
    · right
      exact Char.ext (UInt32.toNat_inj.mp nine)

/-- A letter is no digit of a radix up to ten. -/
theorem digitOf?_of_le_ten {radix : Nat} {char : Char} (few : radix ≤ 10)
    (other : char.isDigit = false) : digitOf? radix char = none := by
  unfold digitOf? digitValue?
  rw [if_neg (by simp [other])]
  split
  · rw [Option.filter_some, if_neg (by simp only [decide_eq_true_eq]; omega)]
  · split
    · rw [Option.filter_some, if_neg (by simp only [decide_eq_true_eq]; omega)]
    · rfl

theorem exists_digitOf?_eight {char : Char} (octal : '0' ≤ char ∧ char ≤ '7') :
    ∃ digit, digitOf? 8 char = some digit := by
  have high := UInt32.le_iff_toNat_le.mp octal.2
  have seven : '7'.val.toNat = 55 := rfl
  have zero : '0'.toNat = 48 := rfl
  have small : char.toNat - '0'.toNat < 8 := by
    change char.val.toNat - '0'.toNat < 8
    omega
  refine ⟨char.toNat - '0'.toNat, ?_⟩
  unfold digitOf? digitValue?
  rw [if_pos (isDigit_of_le octal), Option.filter_some, if_pos (by simpa using small)]

/-- An octal escape has a digit, and a zero that no digit follows is its only one. -/
theorem length_octalDigits {char : Char} (octal : '0' ≤ char ∧ char ≤ '7') (rest : List Char)
    (bound : Nat) :
    1 ≤ (leadingDigits 8 ((char :: rest).take (bound + 1))).length ∧
      (rest.head?.any Char.isDigit = false →
        (leadingDigits 8 ((char :: rest).take (bound + 1))).length = 1) := by
  obtain ⟨digit, read⟩ := exists_digitOf?_eight octal
  rw [List.take_succ_cons, leadingDigits, read]
  refine ⟨by simp, ?_⟩
  intro alone
  cases rest with
  | nil => simp [leadingDigits]
  | cons next rest =>
    cases bound with
    | zero => simp [leadingDigits]
    | succ bound =>
      have none : digitOf? 8 next = none := digitOf?_of_le_ten (by decide) alone
      rw [List.take_succ_cons, leadingDigits, none]
      rfl

/-- An octal escape is a legacy escape unless it is a zero alone. -/
theorem legacy_octalInString {char : Char} {rest : List Char} {length more : Nat}
    {added : Contribution} (octal : '0' ≤ char ∧ char ≤ '7') (enough : length < more)
    (read : octalInString char rest = .success length added) :
    hasLegacyEscape (('\\' :: char :: rest).take more) =
      (added.flags.hasLegacyEscape ||
        hasLegacyEscape ((('\\' :: char :: rest).drop length).take (more - length))) := by
  have digit := isDigit_of_le octal
  obtain ⟨bound, same⟩ : ∃ bound, (if char ≤ '3' then 3 else 2) = bound + 1 := by
    split
    · exact ⟨2, rfl⟩
    · exact ⟨1, rfl⟩
  unfold octalInString at read
  rw [same] at read
  obtain ⟨some, only⟩ := length_octalDigits octal rest bound
  dsimp only at read
  generalize leadingDigits 8 ((char :: rest).take (bound + 1)) = digits at read some only
  cases read
  obtain ⟨more, rfl⟩ := Nat.exists_eq_add_of_le' (show 3 ≤ more by omega)
  have legacy : hasLegacyEscape (('\\' :: char :: rest).take (more + 3)) =
      ((char != '0' || rest.head?.any Char.isDigit) || hasLegacyEscape (rest.take (more + 1))) := by
    simp [hasLegacyEscape, isLegacyEscape, digit, List.head?_take]
  rw [legacy]
  cases follows : rest.head?.any Char.isDigit with
  | true => simp [Flags.hasLegacyEscape]
  | false =>
    rw [only follows]
    cases zero : char != '0' with
    | true => simp_all [Flags.hasLegacyEscape]
    | false => simp_all [Flags.hasLegacyEscape]

/-- Between an escape and the end of its string no legacy escape is overlooked. -/
theorem legacy_inString {text : List Char} {length more : Nat} {added : Contribution}
    (enough : length < more) (read : inString text = .success length added) :
    hasLegacyEscape (text.take more) =
      (added.flags.hasLegacyEscape ||
        hasLegacyEscape ((text.drop length).take (more - length))) := by
  have plain : ∀ {count}, Skips text count → length = count → added.flags.hasLegacyEscape = false →
      hasLegacyEscape (text.take more) =
        (added.flags.hasLegacyEscape ||
          hasLegacyEscape ((text.drop length).take (more - length))) := by
    intro count skips same none
    subst same
    rw [none, Bool.false_or]
    exact skips more (Nat.le_of_lt enough)
  unfold inString at read
  split at read
  · rename_i rest
    cases read
    exact plain ((skips_pair '\r' ('\n' :: rest) rfl).add (skips_char rest (by decide))) rfl rfl
  · rename_i rest
    split at read
    · rename_i high low digits
      cases read
      have two := skips_digits 16 2 rest
      rw [digits] at two
      exact plain ((skips_pair 'x' rest rfl).add two) rfl rfl
    · cases read
  · obtain ⟨skips, none⟩ := skips_unicodeInString read
    exact plain skips rfl none
  · rename_i char rest _ _ _
    split at read
    · rename_i terminator
      cases read
      refine plain (skips_pair char rest ?_) rfl rfl
      simp only [isLineTerminator, Bool.or_eq_true, beq_iff_eq] at terminator
      rcases terminator with ((rfl | rfl) | rfl) | rfl <;> rfl
    · split at read
      · rename_i octal
        exact legacy_octalInString octal enough read
      · rename_i notOctal
        split at read
        · rename_i useless
          cases read
          obtain ⟨more, rfl⟩ := Nat.exists_eq_add_of_le' (Nat.le_of_lt enough)
          rcases useless with rfl | rfl <;>
            simp [hasLegacyEscape, isLegacyEscape, Flags.hasLegacyEscape]
        · rename_i useful
          cases read
          exact plain (skips_pair char rest (isDigit_of_other notOctal useful)) rfl rfl
  · cases read

theorem pos_of_inString {text : List Char} {length : Nat} {added : Contribution}
    (read : inString text = .success length added) : 0 < length := by
  have point : ∀ {text}, unicodeInString text = .success length added → 0 < length := by
    intro text read
    unfold unicodeInString at read
    split at read
    · cases read
    · rename_i found
      have some := pos_of_unicode found
      dsimp only at read
      split at read
      · split at read
        · cases read
        · split at read <;> cases read <;> omega
      · cases read
        exact some
  unfold inString at read
  split at read
  · cases read
    decide
  · split at read <;> cases read
    decide
  · exact point read
  · split at read
    · cases read
      decide
    · split at read
      · cases read
        omega
      · split at read <;> cases read <;> decide
  · cases read

end Escape

theorem Flags.hasLegacyEscape_union (left right : Flags) :
    (left.union right).hasLegacyEscape = (left.hasLegacyEscape || right.hasLegacyEscape) := by
  simp only [hasLegacyEscape, union]
  cases left.octalEscape <;> cases left.uselessEscape <;> simp

/-- The flags of a string are set by the legacy escapes in its text, up to the closing quote. -/
theorem StringLiteral.legacy_of_readFrom {quote : Char} {index length : Nat}
    {value text : List Char} {flags : Flags} {result : String × Flags}
    (read : readFrom quote index value flags text = .success length result) :
    result.2.hasLegacyEscape =
      (flags.hasLegacyEscape || hasLegacyEscape (text.take (length - index))) := by
  fun_induction readFrom quote index value flags text with
  | case4 index value flags rest _ further added found ih =>
    have later := lt_of_readFrom read
    have enough : further < length - index := by omega
    obtain ⟨before, rfl⟩ := Nat.exists_eq_add_of_le' (Escape.pos_of_inString found)
    rw [ih read, Flags.hasLegacyEscape_union, Escape.legacy_inString enough found, Bool.or_assoc]
    rw [Nat.sub_sub]
    rfl
  | case5 index value flags rest _ =>
    cases read
    simp [hasLegacyEscape]
  | case7 index value flags char rest _ plain _ _ ih =>
    have later := lt_of_readFrom read
    have backslash : char ≠ '\\' := by
      rintro rfl
      exact plain rfl
    rw [ih read, skips_char rest backslash (length - index) (by omega), Nat.sub_sub]
    rfl
  | _ => cases read

theorem Name.legacy_of_readFrom {index length : Nat} {name text : List Char} {flags : Flags}
    {result : String × Flags} (read : readFrom index name flags text = .success length result) :
    result.2.hasLegacyEscape = flags.hasLegacyEscape := by
  fun_induction readFrom index name flags text with
  | case3 index name flags rest further point _ _ _ ih =>
    rw [ih read, Flags.hasLegacyEscape_union]
    simp [Flags.hasLegacyEscape, Escape.CodePoint.flags]
  | case5 index name flags char rest _ _ ih => exact ih read
  | case1 | case6 =>
    cases read
    rfl
  | _ => cases read

namespace NumericLiteral

theorem legacy_of_accept {length other : Nat} {rest : List Char} {value : Binary64} {flags : Flags}
    {result : Binary64 × Flags} (read : accept length rest value flags = .success other result)
    (none : flags.hasLegacyEscape = false) : result.2.hasLegacyEscape = false := by
  unfold accept at read
  split at read <;> cases read
  exact none

theorem legacy_of_read {text : List Char} {length : Nat} {result : Binary64 × Flags}
    (success : read text = .success length result) : result.2.hasLegacyEscape = false := by
  have decimal : ∀ {text}, readDecimal text = .success length result →
      result.2.hasLegacyEscape = false := by
    intro text success
    unfold readDecimal at success
    dsimp only at success
    split at success
    · split at success
      · cases success
      · exact legacy_of_accept success rfl
    · exact legacy_of_accept success rfl
  unfold read at success
  split at success
  · split at success
    · rename_i radix flags chosen
      have none : flags.hasLegacyEscape = false := by
        unfold radixOf? at chosen
        split at chosen <;> cases chosen <;> rfl
      unfold readRadix at success
      dsimp only at success
      split at success
      · cases success
      · exact legacy_of_accept success none
    · exact decimal success
  · exact decimal success

end NumericLiteral

/-- A lexeme is a string, and its text has a legacy escape. -/
def Lexeme.isLegacyString (lexeme : Lexeme) (text : List Char) : Bool :=
  match lexeme with
  | .string _ => hasLegacyEscape text
  | _ => false

/-- The flags of a token tell whether it is a string with a legacy escape in its text. -/
def Token.Faithful (token : Token) : Prop :=
  token.flags.hasLegacyEscape = token.lexeme.isLegacyString token.text.toList

theorem Lexeme.legacy_of_read {text : List Char} {length : Nat} {lexeme : Lexeme} {flags : Flags}
    (success : read text = .success length (lexeme, flags)) :
    flags.hasLegacyEscape = lexeme.isLegacyString (text.take length) := by
  unfold read at success
  split at success
  · cases success
    rfl
  · rename_i char rest
    split at success
    · rename_i quote
      cases found : StringLiteral.read char rest with
      | failure => simp [found, Reading.map] at success
      | success other value =>
        have later := StringLiteral.lt_of_readFrom found
        have legacy := StringLiteral.legacy_of_readFrom found
        simp only [found, Reading.map, Reading.success.injEq, Prod.mk.injEq] at success
        obtain ⟨rfl, rfl, rfl⟩ := success
        have plain : char ≠ '\\' := by rcases quote with rfl | rfl <;> decide
        rw [legacy]
        exact (skips_char rest plain other (Nat.le_of_lt later)).symm
    · split at success
      · cases found : NumericLiteral.read (char :: rest) with
        | failure => simp [found, Reading.map] at success
        | success other value =>
          have legacy := NumericLiteral.legacy_of_read found
          simp only [found, Reading.map, Reading.success.injEq, Prod.mk.injEq] at success
          obtain ⟨rfl, rfl, rfl⟩ := success
          exact legacy
      · split at success
        · unfold Name.read at success
          split at success
          · cases success
          · rename_i found
            have legacy := Name.legacy_of_readFrom found
            split at success
            · cases success
              exact legacy
            · split at success <;> cases success
              exact legacy
        · split at success <;> cases success
          rfl

theorem Scan.faithful_of_token {cursor after : Cursor} {next : Token}
    (scanned : token cursor = .ok next after) : next.Faithful := by
  simp only [token, bind, EStateM.bind] at scanned
  split at scanned
  · rename_i lineBreak middle found
    unfold lexeme at scanned
    dsimp only at scanned
    split at scanned
    · rename_i length item flags read
      cases scanned
      have legacy := Lexeme.legacy_of_read read
      simpa [Token.Faithful, Flags.hasLegacyEscape] using legacy
    · cases scanned
  · cases scanned

/-- A slash that was read again is no string. -/
theorem Scan.faithful_of_regularExpression {slash token : Token} {front : List Char}
    {cursor after : Cursor}
    (scanned : regularExpression slash front cursor = .ok token after) : token.Faithful := by
  simp only [regularExpression, RegularExpression.read] at scanned
  split at scanned
  · rename_i read
    split at read
    · contradiction
    · split at read <;> cases read
      cases scanned
      rfl
  · contradiction

/-- The tokens that are consumed are faithful. -/
theorem Point.Passes.faithful {before after : Point} {tokens : List Token}
    (passes : before.Passes tokens after) (faithful : before.lookahead.Faithful) :
    ∀ token ∈ tokens, token.Faithful :=
  passes.forall_mem Scan.faithful_of_token Scan.faithful_of_regularExpression faithful

end EcmaScript
