import EcmaScript.Proofs.Separation

/-!
# How far reading looks ahead

No reader looks more than two characters beyond what it has read: a second half of a surrogate pair
that turns out to be none is read again as an escape of its own. Texts that begin alike are therefore
read alike as long as reading stays two characters away from where they part.
-/

namespace EcmaScript

/-- Two texts begin with the same characters, a given number of them. -/
inductive SharesFront : Nat → List Char → List Char → Prop where
  | nil (text other : List Char) : SharesFront 0 text other
  | cons {count : Nat} {text other : List Char} (char : Char) :
      SharesFront count text other → SharesFront (count + 1) (char :: text) (char :: other)

namespace SharesFront

variable {count : Nat} {text other : List Char}

theorem of_take (within : count ≤ text.length) (same : text.take count = other.take count) :
    SharesFront count text other := by
  induction count generalizing text other with
  | zero => exact .nil text other
  | succ count ih =>
    cases text with
    | nil => simp at within
    | cons char text =>
      cases other with
      | nil => simp at same
      | cons next other =>
        simp only [List.take_succ_cons, List.cons.injEq] at same
        rw [← same.1]
        exact .cons char (ih (Nat.le_of_succ_le_succ within) same.2)

theorem length_le (shared : SharesFront count text other) : count ≤ text.length := by
  induction shared with
  | nil => exact Nat.zero_le _
  | cons char _ ih => exact Nat.succ_le_succ ih

theorem symm (shared : SharesFront count text other) : SharesFront count other text := by
  induction shared with
  | nil text other => exact .nil other text
  | cons char _ ih => exact .cons char ih

theorem eq_zero (shared : SharesFront count [] other) : count = 0 :=
  Nat.le_zero.mp shared.length_le

theorem ne_nil_of_lt (shared : SharesFront count text other) (some : 0 < count) : other ≠ [] :=
  List.ne_nil_of_length_pos (Nat.lt_of_lt_of_le some shared.symm.length_le)

/-- A text that shares its first character has it too. -/
theorem exists_cons {char : Char} (shared : SharesFront count (char :: text) other)
    (some : 0 < count) :
    ∃ others, other = char :: others ∧ SharesFront (count - 1) text others := by
  cases shared with
  | nil => cases some
  | cons _ rest => exact ⟨_, rfl, rest⟩

/-- A text that shares its first two characters has them too. -/
theorem exists_cons_cons {first second : Char} (shared : SharesFront count (first :: second :: text) other)
    (some : 1 < count) :
    ∃ others, other = first :: second :: others ∧ SharesFront (count - 2) text others := by
  obtain ⟨_, rfl, sharedRest⟩ := shared.exists_cons (Nat.zero_lt_of_lt some)
  obtain ⟨others, rfl, sharedOthers⟩ := sharedRest.exists_cons (Nat.sub_pos_of_lt some)
  exact ⟨others, rfl, sharedOthers⟩

theorem drop (shared : SharesFront count text other) (passed : Nat) :
    SharesFront (count - passed) (text.drop passed) (other.drop passed) := by
  induction passed generalizing count text other with
  | zero => exact shared
  | succ passed ih =>
    cases shared with
    | nil => exact (Nat.zero_sub _).symm ▸ .nil _ _
    | cons char rest =>
      rw [Nat.add_sub_add_right]
      exact ih rest

theorem take {fewer : Nat} (shared : SharesFront count text other) (less : fewer ≤ count) :
    other.take fewer = text.take fewer := by
  induction shared generalizing fewer with
  | nil =>
    rw [Nat.le_zero.mp less]
    rfl
  | cons char _ ih =>
    cases fewer with
    | zero => rfl
    | succ fewer =>
      rw [List.take_succ_cons, List.take_succ_cons, ih (Nat.le_of_succ_le_succ less)]

theorem take_shared (shared : SharesFront count text other) (bound : Nat) :
    SharesFront (min count bound) (text.take bound) (other.take bound) := by
  induction shared generalizing bound with
  | nil =>
    rw [Nat.zero_min]
    exact .nil _ _
  | cons char _ ih =>
    cases bound with
    | zero => exact .nil _ _
    | succ bound =>
      rw [Nat.add_min_add_right]
      exact .cons char (ih bound)

theorem head? (shared : SharesFront count text other) (some : 0 < count) :
    other.head? = text.head? := by
  cases shared with
  | nil => cases some
  | cons => rfl

theorem takeWhile {keep : Char → Bool} (shared : SharesFront count text other)
    (within : (text.takeWhile keep).length < count) :
    other.takeWhile keep = text.takeWhile keep := by
  induction shared with
  | nil => cases within
  | cons char rest ih =>
    rw [List.takeWhile_cons] at within ⊢
    rw [List.takeWhile_cons]
    split
    · rename_i kept
      rw [if_pos kept] at within
      rw [ih (Nat.lt_of_succ_lt_succ within)]
    · rfl

theorem leadingDigits {radix : Nat} (shared : SharesFront count text other)
    (within : (leadingDigits radix text).length < count) :
    EcmaScript.leadingDigits radix other = EcmaScript.leadingDigits radix text := by
  induction shared with
  | nil => cases within
  | cons char rest ih =>
    rw [EcmaScript.leadingDigits] at within ⊢
    rw [EcmaScript.leadingDigits]
    cases found : digitOf? radix char with
    | none => rfl
    | some digit =>
      rw [found] at within
      dsimp only at within ⊢
      rw [ih (Nat.lt_of_succ_lt_succ within)]

/-- At most some number of digits are the same in both texts. -/
theorem leadingDigits_take {radix bound : Nat} (shared : SharesFront count text other)
    (within : (EcmaScript.leadingDigits radix (text.take bound)).length < count) :
    EcmaScript.leadingDigits radix (other.take bound) =
      EcmaScript.leadingDigits radix (text.take bound) := by
  rcases Nat.le_total bound count with all | some
  · rw [shared.take all]
  · have parts := shared.take_shared bound
    rw [Nat.min_eq_left some] at parts
    exact parts.leadingDigits within

end SharesFront

namespace Escape

variable {count : Nat} {text other : List Char}

theorem le_length_bracedDigits (code index : Nat) (text : List Char) :
    index ≤ (bracedDigits code index text).length := by
  fun_induction bracedDigits code index text with
  | case3 code index char rest digit found more small ih => exact Nat.le_of_succ_le ih
  | case2 | case4 => exact Nat.le_succ _
  | case1 | case5 => exact Nat.le_refl _

theorem bracedDigits_shared {code index : Nat} (shared : SharesFront count text other)
    (within : (bracedDigits code index text).length < index + count) :
    bracedDigits code index other = bracedDigits code index text := by
  fun_induction bracedDigits code index text generalizing count other with
  | case1 code index =>
    have none := shared.eq_zero
    simp only [Reading.length] at within
    omega
  | case2 code index char rest digit found more =>
    rename_i large
    obtain ⟨others, rfl, -⟩ := shared.exists_cons (by simp only [Reading.length] at within; omega)
    rw [bracedDigits, found]
    exact if_pos large
  | case3 code index char rest digit found more small =>
    rename_i ih
    have longer := le_length_bracedDigits more (index + 1) rest
    obtain ⟨others, rfl, sharedRest⟩ := shared.exists_cons (by omega)
    rw [bracedDigits, found]
    dsimp only
    rw [if_neg small]
    exact ih sharedRest (by omega)
  | case4 code index char rest found closes =>
    obtain ⟨others, rfl, -⟩ := shared.exists_cons (by simp only [Reading.length] at within; omega)
    rw [bracedDigits, found]
    exact if_pos closes
  | case5 code index char rest found faulty =>
    obtain ⟨others, rfl, -⟩ := shared.exists_cons (by simp only [Reading.length] at within; omega)
    rw [bracedDigits, found]
    exact if_neg faulty

theorem unicode_of_not_braced {rest : List Char} (notBraced : rest.head? ≠ some '{') :
    unicode ('\\' :: 'u' :: rest) =
      if (leadingDigits 16 (rest.take 4)).length = 4 then
        .success 6 ⟨numberOfDigits 16 (leadingDigits 16 (rest.take 4)), false⟩
      else .failure (2 + (leadingDigits 16 (rest.take 4)).length) .invalidUnicodeEscape 0 := by
  rw [unicode]
  rintro others rfl
  exact notBraced rfl

theorem unicode_of_not_escape (apart : ∀ rest, text ≠ '\\' :: 'u' :: rest) :
    unicode text = .failure 1 .invalidUnicodeEscape 0 := by
  rw [unicode]
  · exact fun rest => apart ('{' :: rest)
  · exact apart

theorem length_unicode_pos (text : List Char) : 0 < (unicode text).length := by
  unfold unicode
  split
  · exact Nat.zero_lt_of_lt (le_length_bracedDigits 0 3 _)
  · dsimp only
    split
    · exact Nat.succ_pos 5
    · simp only [Reading.length]
      omega
  · exact Nat.one_pos

theorem unicode_shared (shared : SharesFront count text other)
    (within : (unicode text).length < count) : unicode other = unicode text := by
  by_cases escape : ∃ rest, text = '\\' :: 'u' :: rest
  · obtain ⟨rest, rfl⟩ := escape
    by_cases braced : rest.head? = some '{'
    · obtain ⟨digits, rfl⟩ := List.head?_eq_some_iff.mp braced
      have longer := le_length_bracedDigits 0 3 digits
      rw [unicode] at within
      obtain ⟨_, rfl, sharedRest⟩ := shared.exists_cons_cons (by omega)
      obtain ⟨_, rfl, sharedDigits⟩ := sharedRest.exists_cons (by omega)
      exact bracedDigits_shared sharedDigits (by omega)
    · rw [unicode_of_not_braced braced] at within ⊢
      have within : 2 + (leadingDigits 16 (rest.take 4)).length < count := by
        split at within <;> simp only [Reading.length] at within <;> omega
      obtain ⟨_, rfl, sharedRest⟩ := shared.exists_cons_cons (by omega)
      rw [unicode_of_not_braced (sharedRest.head? (by omega) ▸ braced),
        sharedRest.leadingDigits_take (by omega)]
  · rw [unicode_of_not_escape (not_exists.mp escape)] at within ⊢
    apply unicode_of_not_escape
    rintro rest rfl
    obtain ⟨_, rfl, -⟩ := shared.symm.exists_cons_cons within
    exact escape ⟨_, rfl⟩

section InString

variable {first : Nat} {point : CodePoint} (found : unicode text = .success first point)
include found

theorem unicodeInString_of_alone
    (alone : isHighSurrogate point.code = true → ∀ rest, text.drop first ≠ '\\' :: 'u' :: rest) :
    unicodeInString text = .success first ⟨[charOfCode point.code], point.flags⟩ := by
  rw [unicodeInString, found]
  dsimp only
  split
  · rename_i high dropped
    exact absurd dropped (alone high _)
  · rfl

theorem unicodeInString_of_pair {rest : List Char} (high : isHighSurrogate point.code = true)
    (pair : text.drop first = '\\' :: 'u' :: rest) :
    unicodeInString text =
      match unicode (text.drop first) with
      | .failure further cause place => .failure (first + further) cause (first + place)
      | .success further low =>
        if isLowSurrogate low.code then
          .success (first + further)
            ⟨[charOfCode (joinSurrogates point.code low.code)], point.flags.union low.flags⟩
        else .success first ⟨[charOfCode point.code], point.flags⟩ := by
  rw [unicodeInString, found]
  dsimp only
  rw [high, pair]
  rfl

end InString

theorem le_length_unicodeInString {first : Nat} {point : CodePoint}
    (found : unicode text = .success first point) : first ≤ (unicodeInString text).length := by
  cases read : unicodeInString text with
  | failure => 
    rw [unicodeInString, found] at read
    dsimp only at read
    split at read
    · split at read
      · cases read
        exact Nat.le_add_right _ _
      · split at read <;> cases read
    · cases read
  | success => exact le_of_unicodeInString read found

/-- A second half of a surrogate pair is looked for in the escape after a first half. When it is
none, that escape is read on its own. -/
theorem unicodeInString_shared (shared : SharesFront count text other)
    (within : (unicodeInString text).length + 2 ≤ count)
    (next : ∀ {length added}, unicodeInString text = .success length added →
      length + (unicode (text.drop length)).length < count) :
    unicodeInString other = unicodeInString text := by
  cases found : unicode text with
  | failure length cause place =>
    have failed : unicodeInString text = .failure length cause place := by
      rw [unicodeInString, found]
    rw [failed] at within ⊢
    have foundToo : unicode other = unicode text := unicode_shared shared (by
      rw [found]
      simp only [Reading.length] at within ⊢
      omega)
    rw [unicodeInString, foundToo, found]
  | success first point =>
    by_cases pair : isHighSurrogate point.code = true ∧ ∃ rest, text.drop first = '\\' :: 'u' :: rest
    · obtain ⟨high, rest, pair⟩ := pair
      have second : first + (unicode (text.drop first)).length < count := by
        rw [unicodeInString_of_pair found high pair] at within next
        cases foundLow : unicode (text.drop first) with
        | failure =>
          rw [foundLow] at within
          simp only [Reading.length] at within ⊢
          omega
        | success further low =>
          rw [foundLow] at within next
          dsimp only at within next
          split at within
          · simp only [Reading.length] at within ⊢
            omega
          · rename_i none
            rw [if_neg none] at next
            have := next rfl
            rwa [foundLow] at this
      have foundToo : unicode other = .success first point := by
        rw [unicode_shared shared, found]
        rw [found]
        simp only [Reading.length]
        omega
      have sharedRest := shared.drop first
      have same := unicode_shared sharedRest (by omega)
      have some := length_unicode_pos (text.drop first)
      rw [pair] at sharedRest
      obtain ⟨others, pairToo, -⟩ := sharedRest.exists_cons_cons (by omega)
      rw [unicodeInString_of_pair found high pair, unicodeInString_of_pair foundToo high pairToo,
        same]
    · have alone : isHighSurrogate point.code = true →
          ∀ rest, text.drop first ≠ '\\' :: 'u' :: rest :=
        fun high rest dropped => pair ⟨high, rest, dropped⟩
      rw [unicodeInString_of_alone found alone] at within ⊢
      simp only [Reading.length] at within
      apply unicodeInString_of_alone
      · rw [unicode_shared shared, found]
        rw [found]
        simp only [Reading.length]
        omega
      · intro high rest dropped
        have sharedRest := (shared.drop first).symm
        rw [dropped] at sharedRest
        obtain ⟨others, droppedToo, -⟩ := sharedRest.exists_cons_cons (by omega)
        exact alone high others droppedToo

theorem octalInString_shared {first : Char} (shared : SharesFront count text other)
    (within : (octalInString first text).length ≤ count) :
    octalInString first other = octalInString first text := by
  unfold octalInString at within ⊢
  simp only [Reading.length] at within
  have digits := (shared.cons first).leadingDigits_take (Nat.lt_of_lt_of_le
    (Nat.lt_add_of_pos_left Nat.one_pos) (Nat.le_succ_of_le within))
  rw [digits, shared.head? (by omega)]

theorem inString_of_return (rest : List Char) :
    inString ('\\' :: '\r' :: rest) = .success (if rest.head? = some '\n' then 3 else 2) ⟨[], {}⟩ := by
  split
  · rename_i pair
    obtain ⟨_, rfl⟩ := List.head?_eq_some_iff.mp pair
    rfl
  · rename_i single
    rw [inString]
    · rfl
    · rintro tail - rfl
      exact single rfl
    all_goals decide

theorem inString_of_plain {char : Char} (rest : List Char)
    (plain : char ≠ '\r' ∧ char ≠ 'x' ∧ char ≠ 'u') :
    inString ('\\' :: char :: rest) =
      if isLineTerminator char then .success 2 ⟨[], {}⟩
      else if '0' ≤ char ∧ char ≤ '7' then octalInString char rest
      else if char = '8' ∨ char = '9' then .success 2 ⟨[char], { uselessEscape := true }⟩
      else .success 2 ⟨[(controlCharacter? char).getD char], {}⟩ := by
  rw [inString]
  · exact fun _ same => absurd same plain.1
  · exact plain.2.1
  · exact plain.2.2

theorem inString_of_not_escape {text : List Char} (apart : text.head? ≠ some '\\') :
    inString text = .failure 1 .unterminatedString 0 := by
  rw [inString]
  · rintro rest rfl
    exact apart rfl
  · rintro rest rfl
    exact apart rfl
  · rintro rest rfl
    exact apart rfl
  · rintro char rest rfl
    exact apart rfl

/-- The characters after an escape are looked at: a line feed ends the escape of a carriage return,
and an escape that follows may be the second half of a surrogate pair. -/
theorem inString_shared (shared : SharesFront count text other)
    (within : (inString text).length + 2 ≤ count)
    (next : ∀ {length added}, inString text = .success length added →
      length + (unicode (text.drop length)).length < count) :
    inString other = inString text := by
  by_cases escape : text.head? = some '\\'
  · obtain ⟨text, rfl⟩ := List.head?_eq_some_iff.mp escape
    rcases text with _ | ⟨char, rest⟩
    · have := shared.length_le
      simp only [List.length_cons, List.length_nil] at this
      omega
    obtain ⟨others, rfl, sharedRest⟩ := shared.exists_cons_cons (by omega)
    by_cases isReturn : char = '\r'
    · subst isReturn
      rw [inString_of_return] at within ⊢
      have some : 0 < count - 2 := by
        split at within <;> simp only [Reading.length] at within <;> omega
      rw [inString_of_return, sharedRest.head? some]
    · by_cases isHexadecimal : char = 'x'
      · subst isHexadecimal
        have some : 2 ≤ (inString ('\\' :: 'x' :: rest)).length := by
          rw [inString]
          split <;> exact Nat.le_add_left 2 _
        rw [inString, inString, sharedRest.take (by omega)]
      · by_cases isUnicode : char = 'u'
        · subst isUnicode
          exact unicodeInString_shared shared within next
        · have plain : char ≠ '\r' ∧ char ≠ 'x' ∧ char ≠ 'u' :=
            ⟨isReturn, isHexadecimal, isUnicode⟩
          rw [inString_of_plain rest plain] at within ⊢
          rw [inString_of_plain others plain]
          split
          · rfl
          · rename_i inLine
            rw [if_neg inLine] at within
            split
            · rename_i octal
              rw [if_pos octal] at within
              exact octalInString_shared sharedRest (by omega)
            · rfl
  · rw [inString_of_not_escape escape, inString_of_not_escape]
    rw [shared.head? (by omega)]
    exact escape

theorem length_unicode_le_inString (rest : List Char) :
    (unicode ('\\' :: rest)).length ≤ (inString ('\\' :: rest)).length + 1 := by
  by_cases escape : rest.head? = some 'u'
  · obtain ⟨rest, rfl⟩ := List.head?_eq_some_iff.mp escape
    rw [inString]
    cases found : unicode ('\\' :: 'u' :: rest) with
    | failure =>
      rw [unicodeInString, found]
      exact Nat.le_succ _
    | success first point =>
      exact Nat.le_succ_of_le (le_length_unicodeInString found)
  · rw [unicode_of_not_escape]
    · exact Nat.le_add_left 1 _
    · rintro others ⟨⟩
      exact escape rfl

end Escape

namespace StringLiteral

variable {count : Nat} {text other : List Char} {quote : Char}

theorem le_length_readFrom (quote : Char) (index : Nat) (value : List Char) (flags : Flags)
    (text : List Char) :
    index ≤ (readFrom quote index value flags text).length := by
  fun_induction readFrom quote index value flags text with
  | case4 | case7 => omega
  | _ => simp only [Reading.length]; omega

/-- An escape at the front of what remains of a literal is part of what is read. -/
theorem length_unicode_le_readFrom (quote : Char) (index : Nat) (value : List Char)
    (flags : Flags) (text : List Char) :
    index + (Escape.unicode text).length ≤
      (readFrom quote index value flags text).length + 1 := by
  by_cases escape : ∃ rest, text = '\\' :: 'u' :: rest
  · obtain ⟨rest, rfl⟩ := escape
    have longer := Escape.length_unicode_le_inString ('u' :: rest)
    rw [readFrom]
    · cases found : Escape.inString ('\\' :: 'u' :: rest) with
      | failure length cause place =>
        rw [found] at longer
        simp only [Reading.length] at longer ⊢
        omega
      | success length added =>
        rw [found] at longer
        have further := le_length_readFrom quote (index + length)
          (added.characters.reverse ++ value) (flags.union added.flags)
          (('u' :: rest).drop (length - 1))
        have longer : _ ≤ length + 1 := longer
        dsimp only
        omega
    · exact List.cons_ne_nil _ _
  · rw [Escape.unicode_of_not_escape (not_exists.mp escape)]
    exact Nat.succ_le_succ (le_length_readFrom quote index value flags text)

theorem readFrom_of_plain {index : Nat} {value rest : List Char} {flags : Flags} {char : Char}
    (plain : char ≠ '\\') :
    readFrom quote index value flags (char :: rest) =
      if char = quote then .success (index + 1) (String.ofList value.reverse, flags)
      else if char = '\n' ∨ char = '\r' then .failure index .unterminatedString 0
      else readFrom quote (index + 1) (char :: value) flags rest := by
  rw [readFrom]
  · exact fun same _ => plain same
  · exact plain

theorem readFrom_shared {index : Nat} {value : List Char} {flags : Flags}
    (shared : SharesFront count text other)
    (within : (readFrom quote index value flags text).length + 2 ≤ index + count) :
    readFrom quote index value flags other = readFrom quote index value flags text := by
  fun_induction readFrom quote index value flags text generalizing count other with
  | case1 index value flags =>
    have none := shared.eq_zero
    simp only [Reading.length] at within
    omega
  | case2 index value flags =>
    have few := shared.length_le
    simp only [Reading.length, List.length_cons, List.length_nil] at within few
    omega
  | case3 index value flags rest notAlone length cause place read =>
    simp only [Reading.length] at within
    have readToo := Escape.inString_shared shared (by rw [read]; simp only [Reading.length]; omega)
      (fun success => by rw [read] at success; cases success)
    obtain ⟨others, rfl, sharedRest⟩ := shared.exists_cons (by omega)
    rw [readFrom, readToo, read]
    exact sharedRest.ne_nil_of_lt (by omega)
  | case4 index value flags rest notAlone length added read ih =>
    have some := Escape.two_le_of_inString read
    have longer := le_length_readFrom quote (index + length)
      (added.characters.reverse ++ value) (flags.union added.flags) (rest.drop (length - 1))
    have further := length_unicode_le_readFrom quote (index + length)
      (added.characters.reverse ++ value) (flags.union added.flags) (rest.drop (length - 1))
    have dropped : ∀ rest : List Char, ('\\' :: rest).drop length = rest.drop (length - 1) := by
      intro rest
      obtain ⟨before, rfl⟩ := Nat.exists_eq_add_of_le' (Nat.le_of_succ_le some)
      rfl
    have readToo := Escape.inString_shared shared
      (by rw [read]; simp only [Reading.length]; omega)
      (fun success => by rw [read] at success; cases success; rw [dropped]; omega)
    obtain ⟨others, rfl, sharedRest⟩ := shared.exists_cons (by omega)
    have sharedLater := shared.drop length
    rw [dropped, dropped] at sharedLater
    rw [readFrom, readToo, read]
    · exact ih sharedLater (by omega)
    · exact sharedRest.ne_nil_of_lt (by omega)
  | case5 index value flags rest notAlone notEscape =>
    obtain ⟨others, rfl, -⟩ := shared.exists_cons (by simp only [Reading.length] at within; omega)
    rw [readFrom_of_plain notEscape, if_pos rfl]
  | case6 index value flags char rest notAlone notEscape notQuote ends =>
    obtain ⟨others, rfl, -⟩ := shared.exists_cons (by simp only [Reading.length] at within; omega)
    rw [readFrom_of_plain notEscape, if_neg notQuote, if_pos ends]
  | case7 index value flags char rest notAlone notEscape notQuote inLine ih =>
    have longer := le_length_readFrom quote (index + 1) (char :: value) flags rest
    obtain ⟨others, rfl, sharedRest⟩ := shared.exists_cons (by omega)
    rw [readFrom_of_plain notEscape, if_neg notQuote, if_neg inLine]
    exact ih sharedRest (by omega)

theorem read_shared (shared : SharesFront count text other)
    (within : (read quote text).length + 2 ≤ count + 1) : read quote other = read quote text :=
  readFrom_shared shared (Nat.add_comm count 1 ▸ within)

end StringLiteral

namespace Name

variable {count : Nat} {text other : List Char}

theorem le_length_readFrom (index : Nat) (name : List Char) (flags : Flags) (text : List Char) :
    index ≤ (readFrom index name flags text).length := by
  fun_induction readFrom index name flags text with
  | case3 | case5 => omega
  | _ => simp only [Reading.length]; omega

theorem readFrom_shared {index : Nat} {name : List Char} {flags : Flags}
    (shared : SharesFront count text other)
    (within : (readFrom index name flags text).length < index + count) :
    readFrom index name flags other = readFrom index name flags text := by
  fun_induction readFrom index name flags text generalizing count other with
  | case1 index name flags =>
    have none := shared.eq_zero
    simp only [Reading.length] at within
    omega
  | case2 index name flags rest length cause place read =>
    simp only [Reading.length] at within
    have readToo := Escape.unicode_shared shared (by rw [read]; simp only [Reading.length]; omega)
    obtain ⟨others, rfl, -⟩ := shared.exists_cons (by omega)
    rw [readFrom, readToo, read]
  | case3 index name flags rest length point read char allowed =>
    rename_i ih
    have some := Escape.three_lt_of_unicode read
    have longer := le_length_readFrom (index + length) (char :: name) (flags.union point.flags)
      (rest.drop (length - 1))
    have readToo := Escape.unicode_shared shared (by rw [read]; simp only [Reading.length]; omega)
    obtain ⟨others, rfl, sharedRest⟩ := shared.exists_cons (by omega)
    rw [readFrom, readToo, read]
    dsimp only
    rw [if_pos allowed]
    exact ih (sharedRest.drop (length - 1)) (by omega)
  | case4 index name flags rest length point read char =>
    rename_i allowed
    simp only [Reading.length] at within
    have readToo := Escape.unicode_shared shared (by rw [read]; simp only [Reading.length]; omega)
    obtain ⟨others, rfl, -⟩ := shared.exists_cons (by omega)
    rw [readFrom, readToo, read]
    exact if_neg allowed
  | case5 index name flags char rest notEscape allowed ih =>
    have longer := le_length_readFrom (index + 1) (char :: name) flags rest
    obtain ⟨others, rfl, sharedRest⟩ := shared.exists_cons (by omega)
    rw [readFrom, if_pos allowed]
    · exact ih sharedRest (by omega)
    · exact notEscape
  | case6 index name flags char rest notEscape ends =>
    obtain ⟨others, rfl, -⟩ := shared.exists_cons (by simp only [Reading.length] at within; omega)
    rw [readFrom, if_neg ends]
    exact notEscape

theorem read_shared (shared : SharesFront count text other) (within : (read text).length < count) :
    read other = read text := by
  have same : readFrom 0 [] {} other = readFrom 0 [] {} text := by
    apply readFrom_shared shared
    unfold read at within
    split at within
    · rename_i found
      rw [found, Nat.zero_add]
      exact within
    · rename_i found
      rw [found, Nat.zero_add]
      split at within
      · exact within
      · split at within <;> exact within
  rw [read, read, same]

end Name

namespace NumericLiteral

variable {count : Nat} {text other : List Char}

theorem accept_shared {length : Nat} {value : Binary64} {flags : Flags}
    (shared : SharesFront count text other) (some : 0 < count) :
    accept length other value flags = accept length text value flags := by
  rw [accept, accept, startsIdentifier, startsIdentifier, shared.head? some]

theorem readRadix_shared {radix : Nat} {flags : Flags} (shared : SharesFront count text other)
    (within : (readRadix radix flags text).length < count + 2) :
    readRadix radix flags other = readRadix radix flags text := by
  have length : (readRadix radix flags text).length = 2 + (leadingDigits radix text).length := by
    unfold readRadix
    dsimp only
    split
    · rfl
    · rw [length_accept]
  have digits : leadingDigits radix other = leadingDigits radix text :=
    shared.leadingDigits (by omega)
  have sharedRest := shared.drop (leadingDigits radix text).length
  have some : 0 < count - (leadingDigits radix text).length := by omega
  unfold readRadix
  rw [digits]
  dsimp only
  rw [startsDigit, startsDigit, sharedRest.head? some, accept_shared sharedRest some]

theorem fraction_of_head? (apart : text.head? ≠ some '.') : fraction text = (0, []) := by
  rw [fraction]
  rintro rest rfl
  exact apart rfl

theorem fraction_shared (shared : SharesFront count text other)
    (within : (fraction text).1 < count) : fraction other = fraction text := by
  have positive := Nat.zero_lt_of_lt within
  by_cases point : text.head? = some '.'
  · obtain ⟨rest, rfl⟩ := List.head?_eq_some_iff.mp point
    obtain ⟨others, rfl, sharedRest⟩ := shared.exists_cons positive
    simp only [fraction] at within ⊢
    rw [sharedRest.leadingDigits (by omega)]
  · rw [fraction_of_head? point, fraction_of_head? (shared.head? positive ▸ point)]

theorem exponentSign_shared (shared : SharesFront count text other) (some : 0 < count) :
    exponentSign other = exponentSign text := by
  cases shared with
  | nil => cases some
  | cons char =>
    by_cases minus : char = '-'
    · rw [minus, exponentSign, exponentSign]
    · by_cases plus : char = '+'
      · rw [plus, exponentSign, exponentSign]
      · simp [exponentSign, minus, plus]

/-- The parts of a decimal number that have been read before the end of it. -/
theorem le_length_readDecimal (text : List Char) :
    (leadingDigits 10 text).length +
        (fraction (text.drop (leadingDigits 10 text).length)).1 ≤ (readDecimal text).length := by
  unfold readDecimal
  dsimp only
  split
  · split
    · simp only [Reading.length]
      omega
    · rw [length_accept]
      omega
  · rw [length_accept]

theorem readDecimal_shared (shared : SharesFront count text other)
    (within : (readDecimal text).length < count) :
    readDecimal other = readDecimal text := by
  have parts := le_length_readDecimal text
  have whole : leadingDigits 10 other = leadingDigits 10 text := shared.leadingDigits (by omega)
  have fractional : fraction (other.drop (leadingDigits 10 text).length) =
      fraction (text.drop (leadingDigits 10 text).length) :=
    fraction_shared (shared.drop _) (by omega)
  have parts := Nat.lt_of_le_of_lt parts within
  unfold readDecimal at within ⊢
  dsimp only at within ⊢
  rw [whole, fractional]
  generalize numberOfDigits 10 _ = number at within ⊢
  generalize (leadingDigits 10 text).length + (fraction _).1 = length at within parts ⊢
  have sharedRest := shared.drop length
  have some : 0 < count - length := by omega
  rw [sharedRest.head? some]
  split
  · rename_i letter
    rw [if_pos letter] at within
    have within : length + 1 + (exponentSign ((text.drop length).drop 1)).1 +
        (leadingDigits 10 ((text.drop length).drop
          (1 + (exponentSign ((text.drop length).drop 1)).1))).length < count := by
      split at within
      · exact within
      · rwa [length_accept] at within
    have sign : exponentSign ((other.drop length).drop 1) =
        exponentSign ((text.drop length).drop 1) :=
      exponentSign_shared (sharedRest.drop 1) (by omega)
    rw [sign]
    generalize exponentSign ((text.drop length).drop 1) = sign at within ⊢
    have digits : leadingDigits 10 ((other.drop length).drop (1 + sign.1)) =
        leadingDigits 10 ((text.drop length).drop (1 + sign.1)) :=
      (sharedRest.drop (1 + sign.1)).leadingDigits (by omega)
    rw [digits, accept_shared (shared.drop _) (by omega)]
  · exact accept_shared sharedRest some

theorem read_shared (shared : SharesFront count text other) (within : (read text).length < count)
    (two : 1 < count) : read other = read text := by
  rcases text with _ | ⟨first, _ | ⟨letter, rest⟩⟩
  · have := shared.eq_zero
    omega
  · have := shared.length_le
    simp only [List.length_cons, List.length_nil] at this
    omega
  obtain ⟨others, rfl, sharedRest⟩ := shared.exists_cons_cons (by omega)
  by_cases zero : first = '0'
  · subst zero
    rw [read] at within ⊢
    rw [read]
    cases found : radixOf? letter with
    | none =>
      rw [found] at within
      exact readDecimal_shared shared within
    | some =>
      rw [found] at within
      exact readRadix_shared sharedRest (by dsimp only at within; omega)
  · have decimal : ∀ rest, read (first :: letter :: rest) = readDecimal (first :: letter :: rest) := by
      intro rest
      rw [read]
      exact fun _ _ whole => zero (List.cons.inj whole).1
    rw [decimal] at within ⊢
    rw [decimal]
    exact readDecimal_shared shared within

theorem starts_shared (shared : SharesFront count text other) (two : 1 < count) :
    starts other = starts text := by
  cases shared with
  | nil => cases two
  | cons char sharedRest =>
    by_cases point : char = '.'
    · rw [point, starts, starts, startsDigit, startsDigit,
        sharedRest.head? (Nat.lt_of_succ_lt_succ two)]
    · simp [starts, point, startsDigit]

end NumericLiteral

namespace Symbol

variable {count : Nat} {text other : List Char}

/-- A mark has, for every number of its characters, a mark among its beginnings that is longer, but
by at most two. -/
theorem exists_mark_of_longer : ∀ mark ∈ marks, ∀ length < mark.text.length,
    ∃ shorter ∈ marks, length < shorter.text.length ∧ shorter.text.length ≤ length + 2 ∧
      shorter.text.toList <+: mark.text.toList := by
  decide +kernel

theorem prefix_iff_of_shared {mark : List Char} (shared : SharesFront count text other)
    (within : mark.length ≤ count) : mark <+: other ↔ mark <+: text := by
  rw [List.prefix_iff_eq_take, List.prefix_iff_eq_take, shared.take within]

theorem leadingMark?_shared (length : Nat) (shared : SharesFront count text other)
    (longest : ∀ mark ∈ marks, mark.text.toList <+: text → mark.text.length ≤ length)
    (within : length + 2 ≤ count) : leadingMark? other = leadingMark? text := by
  have same : ∀ mark ∈ marks, mark.text.toList <+: other ↔ mark.text.toList <+: text := by
    intro mark isMark
    rcases Nat.le_total mark.text.length count with short | long
    · exact prefix_iff_of_shared shared (by rwa [String.length_toList])
    · obtain ⟨shorter, isMarkToo, more, atMost, isFront⟩ :=
        exists_mark_of_longer mark isMark length (by omega)
      have refused : ¬shorter.text.toList <+: text := fun found =>
        absurd (longest shorter isMarkToo found) (Nat.not_le.mpr more)
      have refusedToo : ¬shorter.text.toList <+: other := by
        rwa [prefix_iff_of_shared shared (by rw [String.length_toList]; omega)]
      exact iff_of_false (fun found => refusedToo (isFront.trans found))
        (fun found => refused (isFront.trans found))
  rw [leadingMark?, leadingMark?, ← List.head?_filter, ← List.head?_filter]
  refine congrArg List.head? (List.filter_congr fun mark isMark => ?_)
  rw [Bool.eq_iff_iff, List.isPrefixOf_iff_prefix, List.isPrefixOf_iff_prefix, same mark isMark]

theorem marks_pairwise : marks.Pairwise fun longer mark => mark.text.length ≤ longer.text.length := by
  decide +kernel

/-- The mark that is found is the longest one. -/
theorem length_le_of_leadingMark? {mark found : Symbol} (leading : leadingMark? text = some found)
    (isMark : mark ∈ marks) (isFront : mark.text.toList <+: text) :
    mark.text.length ≤ found.text.length := by
  obtain ⟨-, earlier, later, same, refused⟩ := List.find?_eq_some_iff_append.mp leading
  have sorted := marks_pairwise
  rw [same] at isMark sorted
  rcases List.mem_append.mp isMark with before | rest
  · have absent := refused mark before
    rw [Bool.not_eq_true', ← Bool.not_eq_true, List.isPrefixOf_iff_prefix] at absent
    exact absurd isFront absent
  · rcases List.mem_cons.mp rest with rfl | after
    · exact Nat.le_refl _
    · exact (List.pairwise_cons.mp (List.pairwise_append.mp sorted).2.1).1 mark after

end Symbol

namespace Lexeme

variable {count : Nat} {text other : List Char}

theorem read_shared (shared : SharesFront count text other)
    (within : (read text).length + 2 ≤ count) : read other = read text := by
  cases text with
  | nil =>
    have := shared.eq_zero
    omega
  | cons char rest =>
    obtain ⟨others, rfl, sharedRest⟩ := shared.exists_cons (by omega)
    have starts := NumericLiteral.starts_shared shared (by omega)
    rw [read] at within ⊢
    rw [read, starts]
    split
    · rename_i quote
      rw [if_pos quote, Reading.length_map] at within
      rw [StringLiteral.read_shared sharedRest (by omega)]
    · rename_i notQuote
      rw [if_neg notQuote] at within
      split
      · rename_i isNumber
        rw [if_pos isNumber, Reading.length_map] at within
        rw [NumericLiteral.read_shared shared (by omega) (by omega)]
      · rename_i notNumber
        rw [if_neg notNumber] at within
        split
        · rename_i isName
          rw [if_pos isName] at within
          exact Name.read_shared shared (by omega)
        · rename_i notName
          rw [if_neg notName] at within
          have mark : Symbol.leadingMark? (char :: others) = Symbol.leadingMark? (char :: rest) := by
            cases found : Symbol.leadingMark? (char :: rest) with
            | none =>
              rw [← found]
              refine Symbol.leadingMark?_shared 0 shared ?_ (by omega)
              intro mark isMark isFront
              have refused := List.find?_eq_none.mp found mark isMark
              exact absurd (List.isPrefixOf_iff_prefix.mpr isFront) refused
            | some mark =>
              rw [← found]
              rw [found] at within
              exact Symbol.leadingMark?_shared _ shared
                (fun _ => Symbol.length_le_of_leadingMark? found) within
          rw [mark]

theorem walk_shared (shared : SharesFront count text other) (some : 0 < count) :
    walk other = walk text := by
  unfold walk
  rw [shared.head? some]

end Lexeme

namespace RegularExpression

variable {count : Nat} {text other : List Char}

theorem le_length_closingSlash (isInClass : Bool) (index : Nat) (text : List Char) :
    index ≤ (closingSlash isInClass index text).length := by
  fun_induction closingSlash isInClass index text with
  | case4 | case7 => omega
  | _ => simp only [Reading.length]; omega

theorem closingSlash_of_plain {isInClass : Bool} {index : Nat} {char : Char} {rest : List Char}
    (plain : char ≠ '\\') :
    closingSlash isInClass index (char :: rest) =
      if isLineTerminator char then .failure index .unterminatedRegularExpression 0
      else if char == '/' && !isInClass then .success (index + 1) ()
      else closingSlash (char == '[' || (isInClass && char != ']')) (index + 1) rest := by
  rw [closingSlash]
  · exact fun same _ => plain same
  · exact fun _ _ same _ => plain same

theorem closingSlash_shared {isInClass : Bool} {index : Nat} (shared : SharesFront count text other)
    (within : (closingSlash isInClass index text).length + 2 ≤ index + count) :
    closingSlash isInClass index other = closingSlash isInClass index text := by
  fun_induction closingSlash isInClass index text generalizing count other with
  | case1 isInClass index =>
    have none := shared.eq_zero
    simp only [Reading.length] at within
    omega
  | case2 isInClass index =>
    have few := shared.length_le
    simp only [Reading.length, List.length_cons, List.length_nil] at within few
    omega
  | case3 isInClass index char rest ends =>
    obtain ⟨others, rfl, -⟩ :=
      shared.exists_cons_cons (by simp only [Reading.length] at within; omega)
    rw [closingSlash, if_pos ends]
  | case4 isInClass index char rest inLine ih =>
    have longer := le_length_closingSlash isInClass (index + 2) rest
    obtain ⟨others, rfl, sharedRest⟩ := shared.exists_cons_cons (by omega)
    rw [closingSlash, if_neg inLine]
    exact ih sharedRest (by omega)
  | case5 isInClass index char rest notAlone notEscape ends =>
    obtain ⟨others, rfl, -⟩ := shared.exists_cons (by simp only [Reading.length] at within; omega)
    rw [closingSlash_of_plain (ne_backslash notAlone notEscape), if_pos ends]
  | case6 isInClass index char rest notAlone notEscape inLine closes =>
    obtain ⟨others, rfl, -⟩ := shared.exists_cons (by simp only [Reading.length] at within; omega)
    rw [closingSlash_of_plain (ne_backslash notAlone notEscape), if_neg inLine, if_pos closes]
  | case7 isInClass index char rest notAlone notEscape inLine further ih =>
    have longer := le_length_closingSlash (char == '[' || (isInClass && char != ']')) (index + 1) rest
    obtain ⟨others, rfl, sharedRest⟩ := shared.exists_cons (by omega)
    rw [closingSlash_of_plain (ne_backslash notAlone notEscape), if_neg inLine, if_neg further]
    exact ih sharedRest (by omega)

theorem length_read (front text : List Char) :
    (read front text).length =
      (closingSlash false 0 text).length +
        if (closingSlash false 0 text) matches .success .. then
          ((text.drop (closingSlash false 0 text).length).takeWhile isIdentifierPart).length
        else 0 := by
  unfold read
  split
  · rename_i found
    rw [found]
    rfl
  · rename_i found
    rw [found]
    dsimp only
    split <;> simp only [Reading.length, String.length_ofList, if_true]

theorem read_shared {front : List Char} (shared : SharesFront count text other)
    (within : (read front text).length + 2 ≤ count) : read front other = read front text := by
  rw [length_read] at within
  have slash : closingSlash false 0 other = closingSlash false 0 text :=
    closingSlash_shared shared (by omega)
  unfold read
  rw [slash]
  cases found : closingSlash false 0 text with
  | failure => rfl
  | success length =>
    rw [found] at within
    simp only [Reading.length, if_true] at within
    have flags : (other.drop length).takeWhile isIdentifierPart =
        (text.drop length).takeWhile isIdentifierPart :=
      (shared.drop length).takeWhile (by omega)
    dsimp only
    rw [flags, shared.take (by omega)]

end RegularExpression

namespace Trivia

variable {count : Nat} {text other : List Char}

theorem le_length_readFrom (region : Region) (index : Nat) (lineBreak : Bool) (text : List Char) :
    index ≤ (readFrom region index lineBreak text).length := by
  fun_induction readFrom region index lineBreak text <;>
    first
      | exact Nat.le_refl _
      | omega

theorem notBegins_shared {mark : Char} {condition : Prop} (shared : SharesFront count text other)
    (some : 0 < count) (apart : ∀ rest, condition → text = mark :: rest → False) :
    ∀ rest, condition → other = mark :: rest → False := by
  rintro rest holds rfl
  obtain ⟨others, rfl, -⟩ := shared.symm.exists_cons some
  exact apart others holds rfl

/-- A slash may begin a comment, and a star may end one. -/
theorem readFrom_shared {region : Region} {index : Nat} {lineBreak : Bool}
    (shared : SharesFront count text other)
    (within : (readFrom region index lineBreak text).length + 2 ≤ index + count) :
    readFrom region index lineBreak other = readFrom region index lineBreak text := by
  fun_induction readFrom region index lineBreak text generalizing count other with
  | case1 index lineBreak rest ih =>
    have longer := le_length_readFrom .lineComment (index + 2) lineBreak rest
    obtain ⟨others, rfl, sharedRest⟩ := shared.exists_cons_cons (by omega)
    rw [readFrom]
    exact ih sharedRest (by omega)
  | case2 index lineBreak rest ih =>
    have longer := le_length_readFrom (.blockComment index) (index + 2) lineBreak rest
    obtain ⟨others, rfl, sharedRest⟩ := shared.exists_cons_cons (by omega)
    rw [readFrom]
    exact ih sharedRest (by omega)
  | case3 index lineBreak char rest notLine notBlock ends ih =>
    have longer := le_length_readFrom .between (index + 1) true rest
    obtain ⟨others, rfl, sharedRest⟩ := shared.exists_cons (by omega)
    rw [readFrom, if_pos ends]
    · exact ih sharedRest (by omega)
    · exact notBegins_shared sharedRest (by omega) notLine
    · exact notBegins_shared sharedRest (by omega) notBlock
  | case4 index lineBreak char rest notLine notBlock inLine blank ih =>
    have longer := le_length_readFrom .between (index + 1) lineBreak rest
    obtain ⟨others, rfl, sharedRest⟩ := shared.exists_cons (by omega)
    rw [readFrom, if_neg inLine, if_pos blank]
    · exact ih sharedRest (by omega)
    · exact notBegins_shared sharedRest (by omega) notLine
    · exact notBegins_shared sharedRest (by omega) notBlock
  | case5 index lineBreak char rest notLine notBlock inLine notBlank =>
    simp only [Reading.length] at within
    obtain ⟨others, rfl, sharedRest⟩ := shared.exists_cons (by omega)
    rw [readFrom, if_neg inLine, if_neg notBlank]
    · exact notBegins_shared sharedRest (by omega) notLine
    · exact notBegins_shared sharedRest (by omega) notBlock
  | case6 index lineBreak char rest ends ih =>
    have longer := le_length_readFrom .between (index + 1) true rest
    obtain ⟨others, rfl, sharedRest⟩ := shared.exists_cons (by omega)
    rw [readFrom, if_pos ends]
    exact ih sharedRest (by omega)
  | case7 index lineBreak char rest inLine ih =>
    have longer := le_length_readFrom .lineComment (index + 1) lineBreak rest
    obtain ⟨others, rfl, sharedRest⟩ := shared.exists_cons (by omega)
    rw [readFrom, if_neg inLine]
    exact ih sharedRest (by omega)
  | case8 index lineBreak start rest ih =>
    have longer := le_length_readFrom .between (index + 2) lineBreak rest
    obtain ⟨others, rfl, sharedRest⟩ := shared.exists_cons_cons (by omega)
    rw [readFrom]
    exact ih sharedRest (by omega)
  | case9 index lineBreak start char rest notEnd ih =>
    have longer := le_length_readFrom (.blockComment start) (index + 1)
      (lineBreak || isLineTerminator char) rest
    obtain ⟨others, rfl, sharedRest⟩ := shared.exists_cons (by omega)
    rw [readFrom]
    · exact ih sharedRest (by omega)
    · exact notBegins_shared sharedRest (by omega) notEnd
  | case10 index lineBreak start =>
    have none := shared.eq_zero
    simp only [Reading.length] at within
    omega
  | case11 region index lineBreak notBlock =>
    have none := shared.eq_zero
    simp only [Reading.length] at within
    omega

theorem read_shared (shared : SharesFront count text other)
    (within : (read text).length + 2 ≤ count) : read other = read text :=
  readFrom_shared shared (by rwa [Nat.zero_add])

end Trivia

end EcmaScript
