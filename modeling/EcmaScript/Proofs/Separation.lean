import EcmaScript.Proofs.LegacyEscape
import EcmaScript.Proofs.LexemeText
import EcmaScript.Proofs.Trivia

/-!
# Tokens in front of other text

What a reader makes of a token depends on the characters of the token, and on the one after it only
as far as the token could go on there. So a token stays what it is when the text after it is
replaced by one that begins with a space, a semicolon or a bracket: by any text that no token in
front of it goes on with.
-/

namespace EcmaScript

/-- The first character of a text is that of its front, if there is one. -/
theorem exists_cons_of_append {char : Char} {rest front back : List Char}
    (whole : front ++ back = char :: rest) (some : 0 < front.length) :
    ∃ others, front = char :: others ∧ rest = others ++ back := by
  rcases List.append_eq_cons_iff.mp whole with ⟨rfl, -⟩ | found
  · contradiction
  · exact found

/-- No token goes on with the character. -/
def separates (char : Char) : Bool :=
  !isIdentifierPart char && (digitValue? char).isNone && !(['\\', '.', '/', '*'].contains char) &&
    Symbol.marks.all fun mark => !mark.text.toList.tail.contains char

/-- No token in front of the text goes on with it. -/
def Separated (text : List Char) : Prop :=
  ∀ char ∈ text.head?, separates char = true

theorem separated_cons {char : Char} {text : List Char} (separator : separates char = true) :
    Separated (char :: text) := by
  rintro _ ⟨⟩
  exact separator

section Characters

variable {char : Char} (separator : separates char = true)
include separator

theorem isIdentifierPart_of_separates : isIdentifierPart char = false := by
  simp only [separates, Bool.and_eq_true, Bool.not_eq_true'] at separator
  exact separator.1.1.1

theorem isIdentifierStart_of_separates : isIdentifierStart char = false := by
  have noPart := isIdentifierPart_of_separates separator
  rw [← Bool.not_eq_true] at noPart ⊢
  exact fun start => noPart (isIdentifierPart_of_start start)

theorem digitValue?_of_separates : digitValue? char = none := by
  simp only [separates, Bool.and_eq_true] at separator
  exact Option.isNone_iff_eq_none.mp separator.1.1.2

theorem digitOf?_of_separates (radix : Nat) : digitOf? radix char = none := by
  rw [digitOf?, digitValue?_of_separates separator]
  rfl

theorem isDigit_of_separates : char.isDigit = false := by
  have noValue := digitValue?_of_separates separator
  rw [← Bool.not_eq_true]
  intro digit
  rw [digitValue?, if_pos digit] at noValue
  cases noValue

theorem ne_of_separates : char ≠ '\\' ∧ char ≠ '.' ∧ char ≠ '/' ∧ char ≠ '*' := by
  simp only [separates, Bool.and_eq_true, Bool.not_eq_true'] at separator
  have apart := separator.1.2
  refine ⟨?_, ?_, ?_, ?_⟩ <;> rintro rfl <;> exact absurd apart (by decide)

theorem notMem_mark_of_separates : ∀ mark ∈ Symbol.marks, char ∉ mark.text.toList.tail := by
  simp only [separates, Bool.and_eq_true, List.all_eq_true] at separator
  intro mark member inside
  simpa [inside] using separator.2 mark member

end Characters

/-- Digits that end in front of a text are the same in front of another. -/
theorem leadingDigits_append {radix : Nat} {front back other : List Char}
    (within : (leadingDigits radix (front ++ back)).length ≤ front.length)
    (separated : Separated other) :
    leadingDigits radix (front ++ other) = leadingDigits radix (front ++ back) := by
  induction front with
  | nil =>
    rw [List.length_eq_zero_iff.mp (Nat.le_zero.mp within)]
    cases other with
    | nil => rfl
    | cons char rest =>
      rw [List.nil_append, leadingDigits, digitOf?_of_separates (separated char rfl)]
  | cons char front ih =>
    rw [List.cons_append, leadingDigits] at within ⊢
    rw [List.cons_append, leadingDigits]
    cases found : digitOf? radix char with
    | none => rfl
    | some digit =>
      rw [found] at within
      dsimp only at within ⊢
      rw [ih (by simpa using within)]

/-- Digits in front of a character of their own depend on nothing else. -/
theorem leadingDigits_take_append {radix bound : Nat} {front back other : List Char}
    (within : (leadingDigits radix ((front ++ back).take bound)).length < front.length) :
    leadingDigits radix ((front ++ other).take bound) =
      leadingDigits radix ((front ++ back).take bound) := by
  induction front generalizing bound with
  | nil => cases within
  | cons char front ih =>
    cases bound with
    | zero => rfl
    | succ bound =>
      rw [List.cons_append, List.take_succ_cons, leadingDigits] at within ⊢
      rw [List.cons_append, List.take_succ_cons, leadingDigits]
      cases found : digitOf? radix char with
      | none => rfl
      | some digit =>
        rw [found] at within
        dsimp only at within ⊢
        rw [ih (by simpa using within)]

namespace Escape

theorem lt_of_bracedDigits {code index length : Nat} {text : List Char} {point : CodePoint}
    (read : bracedDigits code index text = .success length point) : index < length := by
  fun_induction bracedDigits code index text with
  | case3 code index char rest digit _ _ _ ih =>
    have later := ih read
    omega
  | case4 =>
    cases read
    omega
  | _ => cases read

theorem bracedDigits_append {code index length : Nat} {front back other : List Char}
    {point : CodePoint} (read : bracedDigits code index (front ++ back) = .success length point)
    (within : length ≤ index + front.length) :
    bracedDigits code index (front ++ other) = .success length point := by
  induction front generalizing code index with
  | nil =>
    have later := lt_of_bracedDigits read
    rw [List.length_nil] at within
    omega
  | cons char front ih =>
    rw [List.cons_append, bracedDigits] at read ⊢
    rw [List.length_cons] at within
    cases found : digitOf? 16 char with
    | none =>
      rw [found] at read
      exact read
    | some digit =>
      rw [found] at read
      dsimp only at read ⊢
      split at read
      · cases read
      · rename_i defined
        rw [if_neg defined]
        exact ih read (by omega)

theorem three_lt_of_unicode {length : Nat} {text : List Char} {point : CodePoint}
    (read : unicode text = .success length point) : 3 < length := by
  unfold unicode at read
  split at read
  · exact lt_of_bracedDigits read
  · dsimp only at read
    split at read <;> cases read
    decide
  · cases read

theorem exists_of_unicode {length : Nat} {text : List Char} {point : CodePoint}
    (read : unicode text = .success length point) : ∃ rest, text = '\\' :: 'u' :: rest := by
  unfold unicode at read
  split at read
  · exact ⟨_, rfl⟩
  · exact ⟨_, rfl⟩
  · cases read

/-- A code point escape depends on nothing after it. -/
theorem unicode_append {length : Nat} {front back other : List Char} {point : CodePoint}
    (read : unicode (front ++ back) = .success length point) (within : length ≤ front.length) :
    unicode (front ++ other) = .success length point := by
  have long := three_lt_of_unicode read
  rcases front with _ | ⟨first, _ | ⟨second, _ | ⟨third, front⟩⟩⟩
  case' nil | cons.nil | cons.cons.nil =>
    simp only [List.length_nil, List.length_cons] at within
    omega
  simp only [List.cons_append, List.length_cons] at read within ⊢
  unfold unicode at read
  split at read
  · rename_i whole
    cases whole
    rw [unicode]
    exact bracedDigits_append read (by omega)
  · rename_i notBraced whole
    cases whole
    rw [unicode]
    · dsimp only at read ⊢
      split at read
      · cases read
        have taken : ∀ text : List Char,
            (third :: (front ++ text)).take 4 = (third :: front).take 4 := by
          intro text
          rw [← List.cons_append, List.take_append_of_le_length]
          rw [List.length_cons]
          omega
        simp_all only [↓reduceIte]
      · cases read
    · exact fun rest same => notBraced _ (by rw [(List.cons.inj same).1])
  · cases read

/-- An escape at the beginning of a text, if there is one, is within the first part of it. -/
def StaysWithin (front back : List Char) : Prop :=
  front ≠ [] ∧ front ≠ ['\\'] ∧
    ∀ {length point}, unicode (front ++ back) = .success length point → length ≤ front.length

theorem le_of_unicodeInString {length further : Nat} {text : List Char} {added : Contribution}
    {point : CodePoint} (read : unicodeInString text = .success length added)
    (first : unicode text = .success further point) : further ≤ length := by
  unfold unicodeInString at read
  rw [first] at read
  dsimp only at read
  split at read
  · split at read
    · cases read
    · split at read <;> cases read <;> omega
  · cases read
    exact Nat.le_refl _

/-- Two characters that a text begins with are in its first part, when an escape would be. -/
theorem StaysWithin.exists_cons {front back other rest : List Char} {char : Char}
    (stays : StaysWithin front back) (whole : front ++ other = '\\' :: char :: rest) :
    ∃ others, front = '\\' :: char :: others ∧ rest = others ++ other := by
  rcases front with _ | ⟨first, _ | ⟨second, others⟩⟩
  · exact absurd rfl stays.1
  · rw [(List.cons.inj whole).1] at stays
    exact absurd rfl stays.2.1
  · cases whole
    exact ⟨others, rfl, rfl⟩

/-- An escape of a string depends on nothing after it but another escape. -/
theorem unicodeInString_append {length : Nat} {front back other : List Char}
    {added : Contribution} (read : unicodeInString (front ++ back) = .success length added)
    (stays : StaysWithin (front.drop length) back) :
    unicodeInString (front ++ other) = .success length added := by
  have inside : length < front.length := by
    rw [← Nat.not_le, ← List.drop_eq_nil_iff]
    exact stays.1
  cases found : unicode (front ++ back) with
  | failure =>
    unfold unicodeInString at read
    rw [found] at read
    cases read
  | success first point =>
    have le := le_of_unicodeInString read found
    have foundToo : unicode (front ++ other) = _ := unicode_append found (by omega)
    have dropped : ∀ text, (front ++ text).drop first = front.drop first ++ text := fun text =>
      List.drop_append_of_le_length (by omega)
    have shorter : (front.drop first).length = front.length - first := List.length_drop
    unfold unicodeInString at read ⊢
    simp only [found, foundToo, dropped] at read ⊢
    generalize rest : front.drop first = tail at read shorter ⊢
    split at read
    · rename_i others high whole
      split at read
      · cases read
      · rename_i further low foundLow
        have long := three_lt_of_unicode foundLow
        rw [← whole] at foundLow
        have within : further ≤ tail.length := by
          split at read <;> cases read
          · omega
          · exact rest ▸ stays.2.2 (rest ▸ foundLow)
        have foundLowToo : unicode (tail ++ other) = _ := unicode_append foundLow within
        rcases tail with _ | ⟨slash, _ | ⟨letter, tail⟩⟩
        case' nil | cons.nil =>
          simp only [List.length_nil, List.length_cons] at within
          omega
        cases whole
        simp only [List.cons_append, high] at foundLowToo ⊢
        rw [foundLowToo]
        exact read
    · rename_i apart
      cases read
      rw [rest] at stays
      split
      · rename_i high whole
        obtain ⟨others, rfl, -⟩ := stays.exists_cons whole
        exact absurd rfl (apart _ high)
      · rfl

theorem octalInString_append {length : Nat} {first : Char} {front back other : List Char}
    {added : Contribution} (read : octalInString first (front ++ back) = .success length added)
    (nonempty : front ≠ []) (within : length < front.length + 2) :
    octalInString first (front ++ other) = .success length added := by
  unfold octalInString at read ⊢
  simp only [Reading.success.injEq] at read
  have digits : ∀ bound, (leadingDigits 8 ((first :: front ++ back).take bound)).length <
      (first :: front).length → leadingDigits 8 ((first :: front ++ other).take bound) = _ :=
    fun _ => leadingDigits_take_append
  have head : (front ++ other).head? = (front ++ back).head? := by
    cases front with
    | nil => contradiction
    | cons => rfl
  have digits := digits (if first ≤ '3' then 3 else 2) (by
    simp only [List.length_cons, List.cons_append]
    omega)
  rw [List.cons_append, List.cons_append] at digits
  simp only [digits, head, Reading.success.injEq]
  exact read

theorem two_le_of_inString {length : Nat} {text : List Char} {added : Contribution}
    (read : inString text = .success length added) : 2 ≤ length := by
  unfold inString at read
  split at read
  · cases read
    decide
  · split at read <;> cases read
    decide
  · cases found : unicode ('\\' :: 'u' :: ‹List Char›) with
    | failure =>
      unfold unicodeInString at read
      rw [found] at read
      cases read
    | success first point =>
      have long := three_lt_of_unicode found
      have le := le_of_unicodeInString read found
      omega
  · split at read
    · cases read
      decide
    · split at read
      · rename_i rest _ _ _ _ octal
        cases read
        split
        · have digits := (length_octalDigits octal rest 2).1
          exact Nat.add_le_add_left digits 1
        · have digits := (length_octalDigits octal rest 1).1
          exact Nat.add_le_add_left digits 1
      · split at read <;> cases read <;> decide
  · cases read

/-- An escape of a string depends on nothing after it but another escape. -/
theorem inString_append {length : Nat} {front back other : List Char} {added : Contribution}
    (read : inString (front ++ back) = .success length added)
    (stays : StaysWithin (front.drop length) back) :
    inString (front ++ other) = .success length added := by
  have inside : length < front.length := by
    rw [← Nat.not_le, ← List.drop_eq_nil_iff]
    exact stays.1
  have long := two_le_of_inString read
  rcases front with _ | ⟨first, _ | ⟨second, _ | ⟨third, front⟩⟩⟩
  case' nil | cons.nil | cons.cons.nil =>
    simp only [List.length_nil, List.length_cons] at inside
    omega
  simp only [List.cons_append] at read ⊢
  unfold inString at read
  split at read
  · rename_i whole
    cases whole
    cases read
    rfl
  · rename_i whole
    cases whole
    rw [inString]
    have four : length = 4 := by
      split at read <;> cases read
      rfl
    subst four
    have taken : ∀ text : List Char,
        (third :: (front ++ text)).take 2 = (third :: front).take 2 := by
      intro text
      rw [← List.cons_append, List.take_append_of_le_length]
      simp only [List.length_cons] at inside ⊢
      omega
    rwa [taken] at read ⊢
  · rename_i whole
    cases whole
    rw [inString]
    exact unicodeInString_append read stays
  · rename_i char rest notPair notX notU whole
    cases whole
    rw [inString]
    · split at read
      · rename_i ends
        rw [if_pos ends]
        exact read
      · rename_i notEnds
        rw [if_neg notEnds]
        split at read
        · rename_i octal
          rw [if_pos octal]
          exact octalInString_append read (List.cons_ne_nil _ _) inside
        · rename_i notOctal
          rw [if_neg notOctal]
          exact read
    · exact fun rest same pair => notPair _ same (by rw [(List.cons.inj pair).1])
    · exact notX
    · exact notU
  · cases read

end Escape

namespace StringLiteral

variable {quote : Char} {index length : Nat} {value front back other : List Char} {flags : Flags}
  {result : String × Flags}

/-- Where a literal goes on with an escape, the escape is in it, and the quote is after it. -/
theorem lt_of_escape {rest : List Char}
    (read : readFrom quote index value flags ('\\' :: rest) = .success length result) :
    ∃ further added, Escape.inString ('\\' :: rest) = .success further added ∧
      index + further < length := by
  rw [readFrom.eq_def] at read
  split at read
  · contradiction
  · cases read
  · rename_i whole
    cases whole
    split at read
    · cases read
    · rename_i found
      exact ⟨_, _, found, lt_of_readFrom read⟩
  · rename_i notAlone notEscape whole
    cases whole
    exact absurd rfl (notEscape)

theorem staysWithin_of_readFrom
    (read : readFrom quote index value flags (front ++ back) = .success length result)
    (within : length ≤ index + front.length) : Escape.StaysWithin front back := by
  have later := lt_of_readFrom read
  refine ⟨?_, ?_, ?_⟩
  · rintro rfl
    rw [List.length_nil] at within
    omega
  · rintro rfl
    obtain ⟨further, added, found, before⟩ := lt_of_escape read
    have long := Escape.two_le_of_inString found
    rw [List.length_singleton] at within
    omega
  · intro first point found
    obtain ⟨rest, whole⟩ := Escape.exists_of_unicode found
    rw [whole] at read found
    obtain ⟨further, added, foundAll, before⟩ := lt_of_escape read
    rw [Escape.inString] at foundAll
    have le := Escape.le_of_unicodeInString foundAll found
    omega

/-- A literal depends on nothing after its closing quote. -/
theorem readFrom_append
    (read : readFrom quote index value flags (front ++ back) = .success length result)
    (within : length ≤ index + front.length) :
    readFrom quote index value flags (front ++ other) = .success length result := by
  have later := lt_of_readFrom read
  generalize whole : front ++ back = text at read
  fun_induction readFrom quote index value flags text generalizing front with
  | case4 index value flags rest notAlone further added found ih =>
    obtain ⟨front, rfl, rfl⟩ := exists_cons_of_append whole (by omega)
    have before := lt_of_readFrom read
    have long := Escape.two_le_of_inString found
    rw [List.length_cons] at within
    have dropped : ∀ text, (front ++ text).drop (further - 1) = front.drop (further - 1) ++ text :=
      fun text => List.drop_append_of_le_length (by omega)
    have shorter : (front.drop (further - 1)).length = front.length - (further - 1) :=
      List.length_drop
    rw [dropped] at read
    have stays : Escape.StaysWithin (('\\' :: front).drop further) back := by
      have one : further = further - 1 + 1 := by omega
      rw [one, List.drop_succ_cons]
      exact staysWithin_of_readFrom read (by omega)
    have foundToo : Escape.inString ('\\' :: front ++ other) = _ :=
      Escape.inString_append found stays
    rw [List.cons_append] at foundToo ⊢
    rw [readFrom, foundToo]
    · dsimp only
      rw [dropped]
      exact ih (by omega) before (dropped back).symm (by rwa [dropped])
    · intro empty
      have short := congrArg List.length empty
      rw [List.length_append, List.length_nil] at short
      omega
  | case5 index value flags rest _ notEscape =>
    obtain ⟨front, rfl, rfl⟩ := exists_cons_of_append whole (by omega)
    cases read
    rw [List.cons_append, readFrom, if_pos rfl]
    · exact fun slash _ => notEscape slash
    · exact notEscape
  | case7 index value flags char rest _ notEscape notQuote inLine ih =>
    obtain ⟨front, rfl, rfl⟩ := exists_cons_of_append whole (by omega)
    have before := lt_of_readFrom read
    rw [List.length_cons] at within
    rw [List.cons_append, readFrom, if_neg notQuote, if_neg inLine]
    · exact ih (by omega) before rfl read
    · exact fun slash _ => notEscape slash
    · exact notEscape
  | _ => cases read

end StringLiteral

namespace Name

theorem readFrom_of_separated {index : Nat} {name text : List Char} {flags : Flags}
    (separated : Separated text) :
    readFrom index name flags text = .success index (String.ofList name.reverse, flags) := by
  cases text with
  | nil => rw [readFrom]
  | cons char rest =>
    have separator := separated char rfl
    have refused : allows name.isEmpty char = false := by
      unfold allows
      split
      · exact isIdentifierStart_of_separates separator
      · exact isIdentifierPart_of_separates separator
    rw [readFrom, if_neg (by simp [refused])]
    exact (ne_of_separates separator).1

/-- A name ends in front of a text as it does in front of another. -/
theorem readFrom_append {index length : Nat} {name front back other : List Char} {flags : Flags}
    {result : String × Flags}
    (read : readFrom index name flags (front ++ back) = .success length result)
    (within : length ≤ index + front.length) (separated : Separated other) :
    readFrom index name flags (front ++ other) = .success length result := by
  generalize whole : front ++ back = text at read
  fun_induction readFrom index name flags text generalizing front with
  | case1 =>
    obtain ⟨rfl, rfl⟩ := List.append_eq_nil_iff.mp whole
    cases read
    exact readFrom_of_separated separated
  | case3 index name flags rest further point found char allowed =>
    rename_i ih
    have later := le_of_readFrom read
    have some := Escape.pos_of_unicode found
    obtain ⟨front, rfl, rfl⟩ := exists_cons_of_append whole (by omega)
    rw [List.length_cons] at within
    have dropped : ∀ text, (front ++ text).drop (further - 1) = front.drop (further - 1) ++ text :=
      fun text => List.drop_append_of_le_length (by omega)
    have shorter : (front.drop (further - 1)).length = front.length - (further - 1) :=
      List.length_drop
    have foundToo : Escape.unicode ('\\' :: front ++ other) = _ :=
      Escape.unicode_append found (by rw [List.length_cons]; omega)
    rw [List.cons_append] at foundToo ⊢
    rw [readFrom, foundToo]
    dsimp only
    rw [if_pos allowed, dropped]
    exact ih (by omega) (dropped back).symm read
  | case5 index name flags char rest notSlash allowed ih =>
    have later := le_of_readFrom read
    obtain ⟨front, rfl, rfl⟩ := exists_cons_of_append whole (by omega)
    rw [List.length_cons] at within
    rw [List.cons_append, readFrom, if_pos allowed]
    · exact ih (by omega) rfl read
    · exact notSlash
  | case6 index name flags char rest notSlash refused =>
    cases read
    rcases front with _ | ⟨char, front⟩
    · exact readFrom_of_separated separated
    · rw [List.cons_append] at whole
      cases whole
      rw [List.cons_append, readFrom, if_neg refused]
      exact notSlash
  | _ => cases read

theorem read_append {length : Nat} {front back other : List Char} {result : Lexeme × Flags}
    (success : read (front ++ back) = .success length result) (within : length ≤ front.length)
    (separated : Separated other) : read (front ++ other) = .success length result := by
  unfold read at success ⊢
  split at success
  · cases success
  · rename_i further name flags found
    have same : further = length := by
      split at success
      · cases success
        rfl
      · split at success <;> cases success
        rfl
    subst same
    rw [readFrom_append found (by omega) separated]
    exact success

end Name

namespace NumericLiteral

variable {length : Nat} {front back other : List Char} {flags : Flags}
  {result : Binary64 × Flags}

theorem startsIdentifier_append (separated : Separated other)
    (ends : startsIdentifier (front ++ back) = false) :
    startsIdentifier (front ++ other) = false := by
  cases front with
  | nil =>
    cases other with
    | nil => rfl
    | cons char rest =>
      have separator := separated char rfl
      simp [startsIdentifier, isIdentifierStart_of_separates separator,
        (ne_of_separates separator).1]
  | cons char front => exact ends

theorem startsDigit_append (separated : Separated other)
    (ends : startsDigit (front ++ back) = false) : startsDigit (front ++ other) = false := by
  cases front with
  | nil =>
    cases other with
    | nil => rfl
    | cons char rest => simp [startsDigit, isDigit_of_separates (separated char rfl)]
  | cons char front => exact ends

theorem accept_append {further : Nat} {value : Binary64} (separated : Separated other)
    (read : accept further (front ++ back) value flags = .success length result) :
    accept further (front ++ other) value flags = .success length result := by
  unfold accept at read ⊢
  split at read
  · cases read
  · rename_i ends
    rw [startsIdentifier_append separated (by simpa using ends)]
    exact read

theorem readRadix_append {radix : Nat}
    (read : readRadix radix flags (front ++ back) = .success length result)
    (within : length ≤ 2 + front.length) (separated : Separated other) :
    readRadix radix flags (front ++ other) = .success length result := by
  unfold readRadix at read ⊢
  dsimp only at read ⊢
  split at read
  · cases read
  · rename_i wellFormed
    have same := eq_of_accept read
    have inside : (leadingDigits radix (front ++ back)).length ≤ front.length := by omega
    rw [leadingDigits_append inside separated]
    rw [List.drop_append_of_le_length inside] at read wellFormed ⊢
    rw [Bool.or_eq_true, not_or, Bool.not_eq_true, Bool.not_eq_true] at wellFormed
    rw [wellFormed.1, startsDigit_append separated wellFormed.2]
    exact accept_append separated read

theorem fraction_append (within : (fraction (front ++ back)).1 ≤ front.length)
    (separated : Separated other) : fraction (front ++ other) = fraction (front ++ back) := by
  cases front with
  | nil =>
    have none : fraction back = (0, []) := by
      change (fraction back).1 ≤ 0 at within
      unfold fraction at within ⊢
      split
      · simp at within
      · rfl
    have noneToo : fraction other = (0, []) := by
      unfold fraction
      split
      · exact absurd rfl (ne_of_separates (separated _ rfl)).2.1
      · rfl
    exact noneToo.trans none.symm
  | cons char front =>
    by_cases point : char = '.'
    · subst point
      simp only [List.cons_append, fraction, List.length_cons] at within ⊢
      have inside : (leadingDigits 10 (front ++ back)).length ≤ front.length := by omega
      rw [leadingDigits_append inside separated]
    · simp [fraction, point]

theorem exponentSign_append (nonempty : front ≠ []) :
    exponentSign (front ++ other) = exponentSign (front ++ back) := by
  cases front with
  | nil => contradiction
  | cons char front =>
    by_cases minus : char = '-'
    · subst minus
      rfl
    · by_cases plus : char = '+'
      · subst plus
        rfl
      · simp [exponentSign, minus, plus]

theorem noExponent_append (separated : Separated other)
    (none : ¬((front ++ back).head? = some 'e' ∨ (front ++ back).head? = some 'E')) :
    ¬((front ++ other).head? = some 'e' ∨ (front ++ other).head? = some 'E') := by
  cases front with
  | nil =>
    rintro (letter | letter) <;>
      exact absurd (digitValue?_of_separates (separated _ letter)) (by decide)
  | cons => exact none

/-- The sign and the digits of an exponent, which a letter in the first part of a text marks. -/
theorem exponent_append (separated : Separated other)
    (some : leadingDigits 10 ((front ++ back).drop
      (1 + (exponentSign ((front ++ back).drop 1)).1)) ≠ [])
    (within : 1 + (exponentSign ((front ++ back).drop 1)).1 + (leadingDigits 10 ((front ++ back).drop
      (1 + (exponentSign ((front ++ back).drop 1)).1))).length ≤ front.length) :
    exponentSign ((front ++ other).drop 1) = exponentSign ((front ++ back).drop 1) ∧
      leadingDigits 10 ((front ++ other).drop (1 + (exponentSign ((front ++ back).drop 1)).1)) =
        leadingDigits 10 ((front ++ back).drop
          (1 + (exponentSign ((front ++ back).drop 1)).1)) := by
  have some := List.length_pos_iff.mpr some
  have marked : ∀ text, (front ++ text).drop 1 = front.drop 1 ++ text := fun text =>
    List.drop_append_of_le_length (by omega)
  have sign : exponentSign (front.drop 1 ++ other) = exponentSign (front.drop 1 ++ back) :=
    exponentSign_append (by rw [ne_eq, List.drop_eq_nil_iff]; omega)
  rw [marked] at some within
  rw [marked, marked, sign]
  generalize (exponentSign (front.drop 1 ++ back)).1 = length at *
  refine ⟨rfl, ?_⟩
  have signed : ∀ text, (front ++ text).drop (1 + length) = front.drop (1 + length) ++ text :=
    fun text => List.drop_append_of_le_length (by omega)
  rw [signed] at some within
  rw [signed, signed]
  exact leadingDigits_append (by rw [List.length_drop]; omega) separated

/-- A decimal number ends in front of a text as it does in front of another. -/
theorem readDecimal_append (read : readDecimal (front ++ back) = .success length result)
    (within : length ≤ front.length) (separated : Separated other) :
    readDecimal (front ++ other) = .success length result := by
  have bound : (leadingDigits 10 (front ++ back)).length +
      (fraction ((front ++ back).drop (leadingDigits 10 (front ++ back)).length)).1 ≤ length := by
    unfold readDecimal at read
    dsimp only at read
    split at read
    · split at read
      · cases read
      · have same := eq_of_accept read
        omega
    · exact Nat.le_of_eq (eq_of_accept read).symm
  have whole : (leadingDigits 10 (front ++ back)).length ≤ front.length := by omega
  have digits := leadingDigits_append whole separated
  rw [List.drop_append_of_le_length whole] at bound
  have fractional : fraction (front.drop (leadingDigits 10 (front ++ back)).length ++ other) =
      fraction (front.drop (leadingDigits 10 (front ++ back)).length ++ back) :=
    fraction_append (by rw [List.length_drop]; omega) separated
  unfold readDecimal at read ⊢
  simp only [digits, List.drop_append_of_le_length whole, fractional] at read ⊢
  generalize leadingDigits 10 (front ++ back) = first at *
  generalize fraction (front.drop first.length ++ back) = second at *
  have inside : first.length + second.1 ≤ front.length := by omega
  simp only [List.drop_append_of_le_length inside] at read ⊢
  have shorter : (front.drop (first.length + second.1)).length =
    front.length - (first.length + second.1) := List.length_drop
  generalize front.drop (first.length + second.1) = tail at read shorter ⊢
  split at read
  · rename_i letter
    split at read
    · cases read
    · rename_i nonempty
      have same := eq_of_accept read
      have some := (not_congr List.isEmpty_iff).mp nonempty
      have long := List.length_pos_iff.mpr some
      obtain ⟨sign, third⟩ := exponent_append separated some (by omega)
      have letter : (tail ++ other).head? = (tail ++ back).head? := by
        cases tail with
        | nil =>
          rw [List.length_nil] at shorter
          omega
        | cons => rfl
      simp only [letter, sign, third]
      rw [if_pos ‹_›, if_neg nonempty]
      rw [← same, List.drop_append_of_le_length within] at read ⊢
      exact accept_append separated read
  · rename_i noLetter
    rw [if_neg (noExponent_append separated noLetter)]
    exact accept_append separated read

theorem radixOf?_of_separates {char : Char} (separator : separates char = true) :
    radixOf? char = none := by
  have noValue := digitValue?_of_separates separator
  unfold radixOf?
  split <;> first | rfl | exact absurd noValue (by decide)

theorem read_append (isNumber : starts (front ++ back) = true)
    (success : read (front ++ back) = .success length result) (within : length ≤ front.length)
    (separated : Separated other) : read (front ++ other) = .success length result := by
  have some := pos_of_read isNumber success
  rcases front with _ | ⟨first, _ | ⟨second, front⟩⟩
  · rw [List.length_nil] at within
    omega
  · have decimal : readDecimal ([first] ++ back) = .success length result := by
      unfold read at success
      split at success
      · split at success
        · unfold readRadix at success
          dsimp only at success
          split at success
          · cases success
          · have same := eq_of_accept success
            rw [List.length_singleton] at within
            omega
        · exact success
      · exact success
    unfold read
    split
    · rename_i whole
      cases whole
      rw [radixOf?_of_separates (separated _ rfl)]
      exact readDecimal_append decimal within separated
    · exact readDecimal_append decimal within separated
  · simp only [List.cons_append] at success ⊢
    by_cases zero : first = '0'
    · subst zero
      rw [read] at success ⊢
      split at success
      · exact readRadix_append success (by simp only [List.length_cons] at within; omega) separated
      · have decimal : readDecimal (('0' :: second :: front) ++ back) = _ := success
        exact readDecimal_append decimal within separated
    · rw [read] at success ⊢
      · have decimal : readDecimal ((first :: second :: front) ++ back) = _ := success
        exact readDecimal_append decimal within separated
      · exact fun _ _ whole => zero (List.cons.inj whole).1
      · exact fun _ _ whole => zero (List.cons.inj whole).1

/-- A point and the digits after it have more than one character. -/
theorem two_le_of_point {rest : List Char} (isNumber : starts ('.' :: rest) = true)
    (success : read ('.' :: rest) = .success length result) : 2 ≤ length := by
  have point : leadingDigits 10 ('.' :: rest) = [] := by
    rw [leadingDigits]
    rfl
  have digits := List.length_pos_iff.mpr (leadingDigits_ne_nil isNumber)
  rw [read] at success
  · unfold readDecimal at success
    simp only [point, List.length_nil, List.drop_zero, fraction, Nat.zero_add] at success
    split at success
    · split at success
      · cases success
      · have same := eq_of_accept success
        omega
    · have same := eq_of_accept success
      omega
  · simp

/-- Numbers begin with one character, or with two. -/
theorem starts_append (nonempty : front ≠ [])
    (success : starts (front ++ back) = true →
      ∃ result, read (front ++ back) = .success length result)
    (within : length ≤ front.length) (separated : Separated other) :
    starts (front ++ other) = starts (front ++ back) := by
  rcases front with _ | ⟨first, _ | ⟨second, front⟩⟩
  · contradiction
  · by_cases point : first = '.'
    · subst point
      have none : starts (['.'] ++ back) = false := by
        rw [← Bool.not_eq_true]
        intro isNumber
        obtain ⟨result, success⟩ := success isNumber
        have long := two_le_of_point isNumber success
        rw [List.length_singleton] at within
        omega
      rw [none]
      have none : startsDigit ([] ++ back) = false := none
      exact startsDigit_append separated none
    · simp [starts, point, startsDigit]
  · by_cases point : first = '.'
    · subst point
      rfl
    · simp [starts, point, startsDigit]

end NumericLiteral

/-- A mark in front of a text that no token goes on with is within the part before it. -/
theorem Symbol.prefix_of_append {front other : List Char} {mark : Symbol} (isMark : mark ∈ marks)
    (nonempty : front ≠ []) (separated : Separated other)
    (isFront : mark.text.toList <+: front ++ other) : mark.text.toList <+: front := by
  rcases Nat.le_total mark.text.toList.length front.length with shorter | longer
  · exact List.prefix_of_prefix_length_le isFront (List.prefix_append _ _) shorter
  · obtain ⟨rest, whole⟩ :=
      List.prefix_of_prefix_length_le (List.prefix_append _ _) isFront longer
    rw [← whole, List.prefix_append_right_inj] at isFront
    cases rest with
    | nil => exact ⟨[], by rw [← whole, List.append_nil, List.append_nil]⟩
    | cons char rest =>
      obtain ⟨others, rfl⟩ := isFront
      have outside := notMem_mark_of_separates (separated char rfl) mark isMark
      rw [← whole, List.tail_append_of_ne_nil nonempty] at outside
      exact absurd (List.mem_append_right _ (List.mem_cons_self ..)) outside

/-- A mark ends in front of a text as it does in front of another. -/
theorem Symbol.leadingMark?_append {front back other : List Char} {mark : Symbol}
    (found : leadingMark? (front ++ back) = some mark)
    (within : mark.text.length ≤ front.length) (separated : Separated other) :
    leadingMark? (front ++ other) = some mark := by
  obtain ⟨isFront, earlier, later, same, longer⟩ := List.find?_eq_some_iff_append.mp found
  have isMark : ∀ {symbol}, symbol ∈ earlier ++ mark :: later → symbol ∈ marks := by
    rw [same]
    exact id
  have some := length_text_pos mark (isMark (by simp))
  have nonempty : front ≠ [] := by
    rintro rfl
    rw [List.length_nil] at within
    omega
  refine List.find?_eq_some_iff_append.mpr ⟨?_, earlier, later, same, ?_⟩
  · rw [List.isPrefixOf_iff_prefix] at isFront ⊢
    refine List.IsPrefix.trans ?_ (List.prefix_append front other)
    exact List.prefix_of_prefix_length_le isFront (List.prefix_append _ _)
      (by rwa [String.length_toList])
  · intro symbol member
    have refused := longer symbol member
    rw [Bool.not_eq_true', ← Bool.not_eq_true, List.isPrefixOf_iff_prefix] at refused ⊢
    intro isFrontToo
    have inside := prefix_of_append (isMark (by simp [member])) nonempty separated isFrontToo
    exact refused (inside.trans (List.prefix_append _ _))

namespace Lexeme

/-- A lexeme ends in front of a text as it does in front of another. -/
theorem read_append {length : Nat} {lexeme : Lexeme} {flags : Flags} {front back other : List Char}
    (success : read (front ++ back) = .success length (lexeme, flags))
    (inside : lexeme ≠ .endOfFile) (within : length ≤ front.length)
    (separated : Separated other) :
    read (front ++ other) = .success length (lexeme, flags) := by
  have some := (pos_of_read success inside).1
  rcases front with _ | ⟨char, front⟩
  · rw [List.length_nil] at within
    omega
  simp only [List.cons_append, read] at success ⊢
  split at success
  · rename_i quote
    rw [if_pos quote]
    cases found : StringLiteral.read char (front ++ back) with
    | failure => simp [found, Reading.map] at success
    | success further value =>
      rw [found] at success
      cases success
      have foundToo : StringLiteral.read char (front ++ other) = _ :=
        StringLiteral.readFrom_append found (by rwa [Nat.add_comm])
      rw [foundToo]
      rfl
  · rename_i notQuote
    rw [if_neg notQuote]
    have number : NumericLiteral.starts (char :: front ++ back) = true →
        ∃ result, NumericLiteral.read (char :: front ++ back) = .success length result := by
      intro isNumber
      rw [List.cons_append] at isNumber ⊢
      rw [if_pos isNumber] at success
      cases found : NumericLiteral.read (char :: (front ++ back)) with
      | failure => simp [found, Reading.map] at success
      | success further value =>
        rw [found] at success
        cases success
        exact ⟨value, rfl⟩
    have starts := NumericLiteral.starts_append (List.cons_ne_nil _ _) number within separated
    simp only [List.cons_append] at starts
    rw [starts]
    split at success
    · rename_i isNumber
      rw [if_pos isNumber]
      obtain ⟨value, found⟩ := number isNumber
      have foundToo := NumericLiteral.read_append isNumber found within separated
      rw [List.cons_append] at found foundToo
      rw [foundToo]
      rwa [found] at success
    · rename_i notNumber
      rw [if_neg notNumber]
      split at success
      · rename_i isName
        rw [if_pos isName]
        have name : Name.read (char :: front ++ back) = _ := success
        exact Name.read_append name within separated
      · rename_i notName
        rw [if_neg notName]
        cases found : Symbol.leadingMark? (char :: (front ++ back)) with
        | none => simp [found] at success
        | some mark =>
          rw [found] at success
          cases success
          have mark : Symbol.leadingMark? (char :: front ++ back) = _ := found
          have foundToo := Symbol.leadingMark?_append mark within separated
          rw [List.cons_append] at foundToo
          rw [foundToo]

end Lexeme

namespace RegularExpression

theorem lt_of_closingSlash {isInClass : Bool} {index length : Nat} {text : List Char}
    (read : closingSlash isInClass index text = .success length ()) : index < length := by
  fun_induction closingSlash isInClass index text with
  | case4 isInClass index char rest _ ih =>
    have later := ih read
    omega
  | case6 =>
    cases read
    omega
  | case7 isInClass index char rest _ _ _ _ ih =>
    have later := ih read
    omega
  | _ => cases read

theorem ne_backslash {char : Char} {rest : List Char} (notAlone : char = '\\' → rest = [] → False)
    (notEscape : ∀ next others, char = '\\' → rest = next :: others → False) : char ≠ '\\' := by
  intro slash
  cases rest with
  | nil => exact notAlone slash rfl
  | cons next others => exact notEscape next others slash rfl

/-- The closing slash is looked for up to itself. -/
theorem closingSlash_append {isInClass : Bool} {index length : Nat} {front back other : List Char}
    (read : closingSlash isInClass index (front ++ back) = .success length ())
    (within : length ≤ index + front.length) :
    closingSlash isInClass index (front ++ other) = .success length () := by
  generalize whole : front ++ back = text at read
  fun_induction closingSlash isInClass index text generalizing front with
  | case4 isInClass index char rest inLine ih =>
    have later := lt_of_closingSlash read
    obtain ⟨front, rfl, same⟩ := exists_cons_of_append whole (by omega)
    rw [List.length_cons] at within
    obtain ⟨front, rfl, rfl⟩ := exists_cons_of_append same.symm (by omega)
    rw [List.length_cons] at within
    rw [List.cons_append, List.cons_append, closingSlash, if_neg inLine]
    exact ih (by omega) rfl read
  | case6 isInClass index char rest notAlone notEscape inLine closes =>
    cases read
    have plain : char ≠ '\\' := ne_backslash notAlone notEscape
    obtain ⟨front, rfl, rfl⟩ := exists_cons_of_append whole (by omega)
    rw [List.cons_append, closingSlash, if_neg inLine, if_pos closes]
    · exact fun slash => absurd slash plain
    · exact fun _ _ slash => absurd slash plain
  | case7 isInClass index char rest notAlone notEscape inLine goesOn ih =>
    have later := lt_of_closingSlash read
    have plain : char ≠ '\\' := ne_backslash notAlone notEscape
    obtain ⟨front, rfl, rfl⟩ := exists_cons_of_append whole (by omega)
    rw [List.length_cons] at within
    rw [List.cons_append, closingSlash, if_neg inLine, if_neg goesOn]
    · exact ih (by omega) rfl read
    · exact fun slash => absurd slash plain
    · exact fun _ _ slash => absurd slash plain
  | _ => cases read

theorem flags_append {front back other : List Char} (separated : Separated other)
    (within : ((front ++ back).takeWhile isIdentifierPart).length ≤ front.length) :
    (front ++ other).takeWhile isIdentifierPart = (front ++ back).takeWhile isIdentifierPart := by
  induction front with
  | nil =>
    have none := List.length_eq_zero_iff.mp (Nat.le_zero.mp within)
    rw [none]
    cases other with
    | nil => rfl
    | cons char rest =>
      rw [List.nil_append, List.takeWhile_cons_of_neg]
      simp [isIdentifierPart_of_separates (separated char rfl)]
  | cons char front ih =>
    simp only [List.cons_append, List.takeWhile_cons] at within ⊢
    split
    · rename_i part
      rw [if_pos part] at within
      rw [ih (by simpa using within)]
    · rfl

/-- A literal ends in front of a text as it does in front of another. -/
theorem read_append {length : Nat} {opening front back other : List Char} {lexeme : Lexeme}
    (success : read opening (front ++ back) = .success length lexeme)
    (within : length ≤ front.length) (separated : Separated other) :
    read opening (front ++ other) = .success length lexeme := by
  unfold read at success ⊢
  split at success
  · cases success
  · rename_i slash found
    have bound : slash + (((front ++ back).drop slash).takeWhile isIdentifierPart).length ≤
        length := by
      dsimp only at success
      split at success <;> cases success
      exact Nat.le_of_eq (by rw [String.length_ofList])
    rw [closingSlash_append found (by omega)]
    have dropped : ∀ text, (front ++ text).drop slash = front.drop slash ++ text := fun text =>
      List.drop_append_of_le_length (by omega)
    have taken : ∀ text, (front ++ text).take (slash - 1) = front.take (slash - 1) := fun text =>
      List.take_append_of_le_length (by omega)
    rw [dropped] at bound
    have flags : (front.drop slash ++ other).takeWhile isIdentifierPart =
        (front.drop slash ++ back).takeWhile isIdentifierPart :=
      flags_append separated (by rw [List.length_drop]; omega)
    simp only [dropped, taken, flags] at success ⊢
    exact success

end RegularExpression

namespace Trivia

theorem le_of_readFrom {region : Region} {index length : Nat} {before lineBreak : Bool}
    {text : List Char} (read : readFrom region index before text = .success length lineBreak) :
    index ≤ length := by
  obtain ⟨gap, _, _, rfl, _⟩ := finishes_readFrom read
  exact Nat.le_add_right _ _

theorem notBegins_append {front back other : List Char} {mark : Char} {condition : Prop}
    (separated : Separated other) (isMark : mark = '/' ∨ mark = '*')
    (apart : ∀ rest, condition → front ++ back = mark :: rest → False) :
    ∀ rest, condition → front ++ other = mark :: rest → False := by
  intro rest holds whole
  cases front with
  | nil =>
    rw [List.nil_append] at whole
    have notMark := ne_of_separates (separated mark (by rw [whole]; rfl))
    rcases isMark with rfl | rfl
    · exact notMark.2.2.1 rfl
    · exact notMark.2.2.2 rfl
  | cons char front =>
    rw [List.cons_append, List.cons.injEq] at whole
    exact apart (front ++ back) holds (by rw [List.cons_append, whole.1])

/-- Trivia in front of a token is the same whatever comes after the token, if that is apart. -/
theorem readFrom_append {region : Region} {index length : Nat} {before lineBreak : Bool}
    {front back other : List Char}
    (read : readFrom region index before (front ++ back) = .success length lineBreak)
    (within : length < index + front.length) (separated : Separated other) :
    readFrom region index before (front ++ other) = .success length lineBreak := by
  generalize whole : front ++ back = text at read
  fun_induction readFrom region index before text generalizing front with
  | case1 index before rest ih =>
    have later := le_of_readFrom read
    obtain ⟨front, rfl, same⟩ := exists_cons_of_append whole (by omega)
    rw [List.length_cons] at within
    obtain ⟨front, rfl, rfl⟩ := exists_cons_of_append same.symm (by omega)
    rw [List.length_cons] at within
    rw [List.cons_append, List.cons_append, readFrom]
    exact ih (by omega) rfl read
  | case2 index before rest ih =>
    have later := le_of_readFrom read
    obtain ⟨front, rfl, same⟩ := exists_cons_of_append whole (by omega)
    rw [List.length_cons] at within
    obtain ⟨front, rfl, rfl⟩ := exists_cons_of_append same.symm (by omega)
    rw [List.length_cons] at within
    rw [List.cons_append, List.cons_append, readFrom]
    exact ih (by omega) rfl read
  | case3 index before char rest notLine notBlock terminator ih =>
    have later := le_of_readFrom read
    obtain ⟨front, rfl, rfl⟩ := exists_cons_of_append whole (by omega)
    rw [List.length_cons] at within
    rw [List.cons_append, readFrom, if_pos terminator]
    · exact ih (by omega) rfl read
    · exact notBegins_append separated (.inl rfl) notLine
    · exact notBegins_append separated (.inr rfl) notBlock
  | case4 index before char rest notLine notBlock terminator blank ih =>
    have later := le_of_readFrom read
    obtain ⟨front, rfl, rfl⟩ := exists_cons_of_append whole (by omega)
    rw [List.length_cons] at within
    rw [List.cons_append, readFrom, if_neg terminator, if_pos blank]
    · exact ih (by omega) rfl read
    · exact notBegins_append separated (.inl rfl) notLine
    · exact notBegins_append separated (.inr rfl) notBlock
  | case5 index before char rest notLine notBlock terminator blank =>
    cases read
    obtain ⟨front, rfl, rfl⟩ := exists_cons_of_append whole (by omega)
    rw [List.length_cons] at within
    rw [List.cons_append, readFrom, if_neg terminator, if_neg blank]
    · exact notBegins_append separated (.inl rfl) notLine
    · exact notBegins_append separated (.inr rfl) notBlock
  | case6 index before char rest terminator ih =>
    have later := le_of_readFrom read
    obtain ⟨front, rfl, rfl⟩ := exists_cons_of_append whole (by omega)
    rw [List.length_cons] at within
    rw [List.cons_append, readFrom, if_pos terminator]
    exact ih (by omega) rfl read
  | case7 index before char rest inLine ih =>
    have later := le_of_readFrom read
    obtain ⟨front, rfl, rfl⟩ := exists_cons_of_append whole (by omega)
    rw [List.length_cons] at within
    rw [List.cons_append, readFrom, if_neg inLine]
    exact ih (by omega) rfl read
  | case8 index before start rest ih =>
    have later := le_of_readFrom read
    obtain ⟨front, rfl, same⟩ := exists_cons_of_append whole (by omega)
    rw [List.length_cons] at within
    obtain ⟨front, rfl, rfl⟩ := exists_cons_of_append same.symm (by omega)
    rw [List.length_cons] at within
    rw [List.cons_append, List.cons_append, readFrom]
    exact ih (by omega) rfl read
  | case9 index before start char rest notClosing ih =>
    have later := le_of_readFrom read
    obtain ⟨front, rfl, rfl⟩ := exists_cons_of_append whole (by omega)
    rw [List.length_cons] at within
    rw [List.cons_append, readFrom]
    · exact ih (by omega) rfl read
    · exact notBegins_append separated (.inl rfl) notClosing
  | case10 => cases read
  | case11 region index before notBlock =>
    cases read
    rw [(List.append_eq_nil_iff.mp whole).1, List.length_nil] at within
    omega

end Trivia

end EcmaScript
