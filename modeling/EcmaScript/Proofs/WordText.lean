import EcmaScript.Proofs.Neighbours
import EcmaScript.Proofs.Words

/-!
# Words as text

The text of a token is scanned again as that token where something comes after it that is apart from
it, such as a space. So is the name that an identifier means, which need not be the text it was read
from, and the text of a symbol. A regular expression is scanned as its slash, and read again from
there.
-/

namespace EcmaScript

namespace Trivia

/-- Where there is no trivia, none is read from within trivia. -/
theorem readFrom_of_none {text : List Char} (none : read text = .success 0 false) (index : Nat)
    (lineBreak : Bool) : readFrom .between index lineBreak text = .success index lineBreak := by
  unfold read at none
  rw [readFrom.eq_def] at none ⊢
  split at none
  · exact absurd (le_of_readFrom none) (by decide)
  · exact absurd (le_of_readFrom none) (by decide)
  · split at none
    · exact absurd (le_of_readFrom none) (by decide)
    · split at none
      · exact absurd (le_of_readFrom none) (by decide)
      · simp_all
  · simp_all
  · simp_all
  · simp_all
  · simp_all
  · simp_all

/-- Behind the trivia there is none. -/
theorem read_drop_of_readFrom {region : Region} {index length : Nat} {before lineBreak : Bool}
    {text : List Char} (success : readFrom region index before text = .success length lineBreak) :
    read (text.drop (length - index)) = .success 0 false := by
  fun_induction readFrom region index before text with
  | case1 index before rest ih | case2 index before rest ih | case8 index before start rest ih =>
    have later := le_of_readFrom success
    have two : length - index = (length - (index + 2)) + 2 := by omega
    rw [two]
    exact ih success
  | case3 index before char rest _ _ _ ih | case4 index before char rest _ _ _ _ ih
  | case6 index before char rest _ ih | case7 index before char rest _ ih
  | case9 index before start char rest _ ih =>
    have later := le_of_readFrom success
    have one : length - index = (length - (index + 1)) + 1 := by omega
    rw [one]
    exact ih success
  | case5 index before char rest notLine notBlock notEnd notBlank =>
    cases success
    rw [Nat.sub_self, List.drop_zero, read, readFrom, if_neg notEnd, if_neg notBlank]
    · exact notLine
    · exact notBlock
  | case10 => cases success
  | case11 =>
    rw [List.drop_nil]
    rfl

/-- A space is all of the trivia before a token. -/
theorem read_cons_space {text : List Char} (none : read text = .success 0 false) :
    read (' ' :: text) = .success 1 false := by
  have spaced : read (' ' :: text) = readFrom .between 1 false text := by
    rw [read, readFrom, if_neg (by decide), if_pos (by decide)]
    · exact fun _ slash _ => absurd slash (by decide)
    · exact fun _ slash _ => absurd slash (by decide)
  rw [spaced, readFrom_of_none none]

end Trivia

/-- The first characters of a text are a lexeme, with no trivia before it, whatever comes after the
text and is apart from it. -/
structure Lexeme.Opens (text : List Char) (length : Nat) (lexeme : Lexeme) (flags : Flags) :
    Prop where
  within : length ≤ text.length
  trivia : ∀ other, Separated other → Trivia.read (text ++ other) = .success 0 false
  read : ∀ other, Separated other → Lexeme.read (text ++ other) = .success length (lexeme, flags)

namespace Lexeme.Opens

variable {text : List Char} {length : Nat} {lexeme : Lexeme} {flags : Flags}

/-- One text that comes after it tells what every other one does. -/
theorem of_read (back : List Char) (inside : lexeme ≠ .endOfFile) (within : length ≤ text.length)
    (none : Trivia.read (text ++ back) = .success 0 false)
    (read : Lexeme.read (text ++ back) = .success length (lexeme, flags)) :
    Opens text length lexeme flags where
  within := within
  trivia other separated := by
    have some := (pos_of_read read inside).1
    exact Trivia.readFrom_append none (by omega) separated
  read other separated := read_append read inside within separated

end Lexeme.Opens

/-- A token that was scanned is scanned again where its text stands. -/
theorem Scan.opens_of_token {cursor after : Cursor} {next : Token}
    (scanned : token cursor = .ok next after) (inside : next.lexeme ≠ .endOfFile) :
    ∃ flags, Lexeme.Opens next.text.toList next.text.length next.lexeme flags ∧
      next.flags = { flags with lineBreak := next.flags.lineBreak } := by
  obtain ⟨gap, lineBreak, length, lexeme, flags, before, found, rfl, rfl⟩ :=
    token_eq_ok.mp scanned
  have lengthLe := Lexeme.length_read_le (cursor.rest.drop gap)
  rw [found] at lengthLe
  have long : ((cursor.rest.drop gap).take length).length = length :=
    List.length_take_of_le lengthLe
  have none := Trivia.read_drop_of_readFrom before
  rw [Nat.sub_zero] at none
  refine ⟨flags, ?_, rfl⟩
  dsimp only
  rw [String.toList_ofList, String.length_ofList, long]
  refine .of_read ((cursor.rest.drop gap).drop length) inside (Nat.le_of_eq long.symm) ?_ ?_
  · rwa [List.take_append_drop]
  · rwa [List.take_append_drop]

/-! ### Symbols -/

theorem Symbol.scansAs_text : ∀ symbol ∈ Symbol.all,
    Scan.scansAs symbol.text.toList (.symbol symbol) = true := by
  decide +kernel

/-- A symbol is read from its text. -/
theorem Symbol.opens (symbol : Symbol) :
    ∃ flags, Lexeme.Opens symbol.text.toList symbol.text.length (.symbol symbol) flags := by
  have scans := Symbol.scansAs_text symbol symbol.mem_all
  unfold Scan.scansAs at scans
  split at scans
  · rename_i next after scanned
    rw [Bool.and_eq_true, beq_iff_eq] at scans
    obtain ⟨flags, opens, -⟩ := Scan.opens_of_token scanned (by simp [scans.1])
    obtain ⟨gap, lineBreak, length, lexeme, _, _, found, rfl, rfl⟩ := Scan.token_eq_ok.mp scanned
    obtain ⟨rfl, -⟩ := scans
    rw [Lexeme.text_of_read found] at opens
    exact ⟨flags, opens⟩
  · contradiction

/-! ### Names -/

namespace Name

/-- Characters that can be the name of an identifier, or the beginning of one. -/
def IsBeginning (chars : List Char) : Prop :=
  (∀ first ∈ chars.head?, isIdentifierStart first = true) ∧
    ∀ char ∈ chars.tail, isIdentifierPart char = true

/-- A beginning goes on with a character that is allowed there. -/
theorem IsBeginning.concat {name : List Char} {char : Char} (begins : IsBeginning name.reverse)
    (allowed : allows name.isEmpty char = true) : IsBeginning (char :: name).reverse := by
  cases name with
  | nil => simpa [IsBeginning, allows] using allowed
  | cons last name =>
    have part : isIdentifierPart char = true := allowed
    rw [List.reverse_cons]
    generalize chars : (last :: name).reverse = front at begins
    cases front with
    | nil => simp at chars
    | cons first others =>
      refine ⟨begins.1, fun other member => ?_⟩
      rw [List.cons_append, List.tail_cons, List.mem_append, List.mem_singleton] at member
      rcases member with member | rfl
      · exact begins.2 other member
      · exact part

/-- The name that is read has the characters that names have. -/
theorem isBeginning_of_readFrom {index length : Nat} {name text : List Char} {flags : Flags}
    {result : String × Flags} (read : readFrom index name flags text = .success length result)
    (begins : IsBeginning name.reverse) :
    IsBeginning result.1.toList ∧ name.length ≤ result.1.length := by
  fun_induction readFrom index name flags text with
  | case1 | case6 =>
    cases read
    rw [String.toList_ofList, String.length_ofList, List.length_reverse]
    exact ⟨begins, Nat.le_refl _⟩
  | case2 | case4 => cases read
  | case3 index name flags rest further point found char allowed ih =>
    rw [Bool.and_eq_true] at allowed
    obtain ⟨begins, long⟩ := ih read (begins.concat allowed.2)
    exact ⟨begins, Nat.le_of_succ_le long⟩
  | case5 index name flags char rest _ allowed ih =>
    obtain ⟨begins, long⟩ := ih read (begins.concat allowed)
    exact ⟨begins, Nat.le_of_succ_le long⟩

theorem ne_backslash_of_allows {isFirst : Bool} {char : Char}
    (allowed : allows isFirst char = true) : char ≠ '\\' := by
  rintro rfl
  cases isFirst <;> exact absurd allowed (by decide)

/-- The next character of a beginning is allowed where it stands. -/
theorem allows_of_isBeginning {name chars : List Char} {char : Char}
    (begins : IsBeginning (name.reverse ++ char :: chars)) : allows name.isEmpty char = true := by
  cases name with
  | nil => exact begins.1 char rfl
  | cons last name =>
    refine begins.2 char ?_
    rw [List.tail_append_of_ne_nil (by simp)]
    simp

/-- Characters that are allowed are read up to what is apart from them. -/
theorem readFrom_of_allows {index : Nat} {name other : List Char} {flags : Flags}
    {chars : List Char} (begins : IsBeginning (name.reverse ++ chars))
    (separated : Separated other) :
    readFrom index name flags (chars ++ other) =
      .success (index + chars.length) (String.ofList (name.reverse ++ chars), flags) := by
  induction chars generalizing index name with
  | nil =>
    rw [List.append_nil]
    exact readFrom_of_separated separated
  | cons char chars ih =>
    have allowed := allows_of_isBeginning begins
    rw [List.cons_append, readFrom, if_pos allowed, ih]
    · simp [Nat.add_comm, Nat.add_left_comm]
    · simpa using begins
    · exact ne_backslash_of_allows allowed

/-- A name that is not empty is read as it is. -/
theorem read_of_isBeginning {name : String} {other : List Char}
    (begins : IsBeginning name.toList) (notWord : Symbol.ofWord? name = none)
    (separated : Separated other) :
    read (name.toList ++ other) = .success name.length (.identifier name, {}) := by
  rw [read, readFrom_of_allows begins separated, List.reverse_nil, List.nil_append,
    String.ofList_toList, String.length_toList, Nat.zero_add]
  dsimp only
  rw [notWord]

end Name

theorem isIdentifierStart_of_isDigit {char : Char} (digit : char.isDigit = true) :
    isIdentifierStart char = false := by
  have refused : ∀ code < 58, (Char.ofNat code).isDigit = true →
      isIdentifierStart (Char.ofNat code) = false := by
    decide
  have small : char.toNat < 58 := by
    simp only [Char.isDigit, Bool.and_eq_true, decide_eq_true_eq] at digit
    exact Nat.lt_succ_of_le digit.2
  have found := refused char.toNat small
  rw [Char.ofNat_toNat] at found
  exact found digit

/-- The separators beyond ASCII: white space, and the ends of lines and paragraphs. -/
theorem isIdentifierStart_of_separator : ∀ char ∈ ['\u00a0', '\ufeff', '\u1680', '\u202f',
    '\u205f', '\u3000', '\u2028', '\u2029'] ++ (List.range' 0x2000 11).map Char.ofNat,
    isIdentifierStart char = false := by
  have all : (['\u00a0', '\ufeff', '\u1680', '\u202f', '\u205f', '\u3000', '\u2028', '\u2029'] ++
      (List.range' 0x2000 11).map Char.ofNat).all (!isIdentifierStart ·) = true := by
    decide +kernel
  intro char member
  simpa using List.all_eq_true.mp all char member

theorem isIdentifierStart_of_isWhiteSpace {char : Char} (blank : isWhiteSpace char = true) :
    isIdentifierStart char = false := by
  simp only [isWhiteSpace, Bool.or_eq_true, beq_iff_eq, Bool.and_eq_true,
    decide_eq_true_eq] at blank
  rcases blank with ((((((((((rfl | rfl) | rfl) | rfl) | rfl) | rfl) | rfl) | range) | rfl) | rfl) |
    rfl)
  case inl.inl.inl.inr =>
    refine isIdentifierStart_of_separator char (List.mem_append_right _ (List.mem_map.mpr ?_))
    exact ⟨char.toNat, List.mem_range'_1.mpr ⟨range.1, Nat.lt_succ_of_le range.2⟩,
      Char.ofNat_toNat char⟩
  case inl.inl.inl.inl.inl.inl.inl.inl.inl.inl | inl.inl.inl.inl.inl.inl.inl.inl.inl.inr
    | inl.inl.inl.inl.inl.inl.inl.inl.inr | inl.inl.inl.inl.inl.inl.inl.inr => decide
  all_goals exact isIdentifierStart_of_separator _ (by simp)

/-- A character that begins a name begins nothing else. -/
theorem plain_of_isIdentifierStart {char : Char} (start : isIdentifierStart char = true) :
    char ∉ ['"', '\'', '.', '/', '\\'] ∧ char.isDigit = false ∧ isLineTerminator char = false ∧
      isWhiteSpace char = false := by
  have marks : ∀ mark ∈ ['"', '\'', '.', '/', '\\', '\n', '\r'], isIdentifierStart mark = false := by
    simp only [List.forall_mem_cons, List.not_mem_nil, false_implies, implies_true, and_true]
    decide
  refine ⟨fun member => ?_, ?_, ?_, ?_⟩
  · rw [marks char (List.mem_append_left ['\n', '\r'] member)] at start
    contradiction
  · by_contra digit
    rw [isIdentifierStart_of_isDigit (by simpa using digit)] at start
    contradiction
  · by_contra terminator
    simp only [isLineTerminator, Bool.not_eq_false, Bool.or_eq_true, beq_iff_eq] at terminator
    have refused : isIdentifierStart char = false := by
      rcases terminator with ((rfl | rfl) | rfl) | rfl
      · exact marks _ (by simp)
      · exact marks _ (by simp)
      · exact isIdentifierStart_of_separator _ (by simp)
      · exact isIdentifierStart_of_separator _ (by simp)
    rw [refused] at start
    contradiction
  · by_contra blank
    rw [isIdentifierStart_of_isWhiteSpace (by simpa using blank)] at start
    contradiction

/-- There is no trivia where a name begins. -/
theorem Trivia.read_name {char : Char} (begins : char = '\\' ∨ isIdentifierStart char = true)
    (rest : List Char) : read (char :: rest) = .success 0 false := by
  rcases begins with rfl | start
  · simp [read, readFrom, isLineTerminator, isWhiteSpace]
  · obtain ⟨plain, -, notEnd, notBlank⟩ := plain_of_isIdentifierStart start
    simp only [List.mem_cons, List.not_mem_nil, or_false, not_or] at plain
    simp [read, readFrom, plain, notEnd, notBlank]

/-- Where a name begins, nothing else is read. -/
theorem Lexeme.read_name {char : Char} (begins : char = '\\' ∨ isIdentifierStart char = true)
    (rest : List Char) : read (char :: rest) = Name.read (char :: rest) := by
  have plain : char ∉ ['"', '\'', '.'] ∧ char.isDigit = false := by
    rcases begins with rfl | start
    · decide
    · obtain ⟨plain, notDigit, -⟩ := plain_of_isIdentifierStart start
      exact ⟨fun member => plain (List.mem_append_left ['/', '\\'] member), notDigit⟩
  obtain ⟨plain, notDigit⟩ := plain
  simp only [List.mem_cons, List.not_mem_nil, or_false, not_or] at plain
  have notNumber : NumericLiteral.starts (char :: rest) = false := by
    unfold NumericLiteral.starts
    split
    · rename_i same
      exact absurd (List.cons.inj same).1 plain.2.2
    · simpa [NumericLiteral.startsDigit] using notDigit
  rw [read, if_neg (by simp [plain]), notNumber, if_neg Bool.false_ne_true, if_pos begins]

/-- The name of an identifier is read from its characters. -/
theorem Name.opens {name : String} (begins : IsBeginning name.toList) (some : 0 < name.length)
    (notWord : Symbol.ofWord? name = none) :
    Lexeme.Opens name.toList name.length (.identifier name) {} := by
  obtain ⟨char, chars, whole⟩ := List.exists_cons_of_length_pos (String.length_toList ▸ some)
  have start : isIdentifierStart char = true := begins.1 char (by rw [whole]; rfl)
  refine ⟨Nat.le_of_eq String.length_toList.symm, fun other separated => ?_,
    fun other separated => ?_⟩
  · rw [whole]
    exact Trivia.read_name (.inr start) _
  · rw [← read_of_isBeginning begins notWord separated, whole]
    exact Lexeme.read_name (.inr start) _

/-- A name that is read from a text with a character in front that may begin one is not empty. -/
theorem Name.pos_of_readFrom {length : Nat} {char : Char} {rest : List Char}
    {result : String × Flags} (begins : char = '\\' ∨ isIdentifierStart char = true)
    (read : readFrom 0 [] {} (char :: rest) = .success length result) : 0 < result.1.length := by
  rw [readFrom.eq_def] at read
  split at read
  · contradiction
  · split at read
    · cases read
    · dsimp only at read
      split at read
      · rename_i allowed
        rw [Bool.and_eq_true] at allowed
        exact (isBeginning_of_readFrom read
          (IsBeginning.concat (by simp [IsBeginning]) allowed.2)).2
      · cases read
  · rename_i notSlash whole
    cases whole
    have start := begins.resolve_left notSlash
    rw [if_pos (show allows ([] : List Char).isEmpty char = true from start)] at read
    exact (isBeginning_of_readFrom read (by simpa [IsBeginning] using start)).2

/-- No mark is a word. -/
theorem Symbol.isWord_of_mem_marks : ∀ mark ∈ marks, isWord mark = false := by
  decide +kernel

/-- Identifiers and reserved words are read as names. -/
theorem Lexeme.name_of_read {text : List Char} {length : Nat} {lexeme : Lexeme} {flags : Flags}
    (found : read text = .success length (lexeme, flags))
    (isName : lexeme.kind.isIdentifierName = true) :
    ∃ char rest, text = char :: rest ∧ (char = '\\' ∨ isIdentifierStart char = true) ∧
      Name.read text = .success length (lexeme, flags) := by
  unfold read at found
  split at found
  · cases found
    contradiction
  · rename_i char rest
    split at found
    · cases string : StringLiteral.read char rest <;> simp [string, Reading.map] at found
      obtain ⟨-, rfl, -⟩ := found
      contradiction
    · split at found
      · cases number : NumericLiteral.read (char :: rest) <;>
          simp [number, Reading.map] at found
        obtain ⟨-, rfl, -⟩ := found
        contradiction
      · split at found
        · rename_i begins
          exact ⟨char, rest, rfl, begins, found⟩
        · split at found
          · rename_i mark isMark
            cases found
            have notWord := Symbol.isWord_of_mem_marks mark (List.mem_of_find?_eq_some isMark)
            have isWord : mark.isWord = true := isName
            rw [notWord] at isWord
            contradiction
          · cases found

/-- The name of an identifier that was scanned is scanned again where it stands. -/
theorem Scan.opens_of_identifier {cursor after : Cursor} {next : Token} {name : String}
    (scanned : token cursor = .ok next after) (isName : next.lexeme = .identifier name) :
    Lexeme.Opens name.toList name.length (.identifier name) {} := by
  obtain ⟨gap, lineBreak, length, lexeme, flags, before, found, rfl, rfl⟩ :=
    token_eq_ok.mp scanned
  dsimp only at isName
  subst isName
  obtain ⟨char, rest, whole, begins, found⟩ := Lexeme.name_of_read found rfl
  rw [whole] at found
  unfold Name.read at found
  split at found
  · cases found
  · rename_i read
    split at found
    · cases found
      rename_i notWord
      exact Name.opens (Name.isBeginning_of_readFrom read (by simp [Name.IsBeginning])).1
        (Name.pos_of_readFrom begins read) notWord
    · split at found <;> cases found

/-! ### Tokens that can be written again -/

/-- The text of a regular expression begins with its slash, and the rest is read again from there.
-/
def Token.RereadsFrom (token : Token) (length : Nat) (slash : Lexeme) (front : List Char) : Prop :=
  (∃ flags, Lexeme.Opens token.text.toList length slash flags) ∧
    Scan.slash? slash = some front ∧ length ≤ token.text.length ∧
    (∃ pattern flags, token.lexeme = .regularExpression pattern flags) ∧
    ∀ other, Separated other →
      RegularExpression.read front (token.text.toList.drop length ++ other) =
        .success (token.text.length - length) token.lexeme

/-- A token is scanned again where its text stands, and so is the name that it means. -/
structure Token.IsWritable (token : Token) : Prop where
  name : ∀ name, token.lexeme = .identifier name →
    Lexeme.Opens name.toList name.length (.identifier name) {}
  text : (∃ flags, Lexeme.Opens token.text.toList token.text.length token.lexeme flags ∧
      flags.hasLegacyEscape = token.flags.hasLegacyEscape) ∨
    ∃ length slash front, token.RereadsFrom length slash front

namespace Scan

theorem isWritable_of_token {cursor after : Cursor} {next : Token}
    (scanned : token cursor = .ok next after) (inside : next.lexeme ≠ .endOfFile) :
    next.IsWritable := by
  obtain ⟨flags, opens, same⟩ := opens_of_token scanned inside
  refine ⟨fun name isName => opens_of_identifier scanned isName, .inl ⟨flags, opens, ?_⟩⟩
  rw [same]
  rfl

/-- A slash and the rest of the regular expression that it begins are read again from their text. -/
theorem rereads_of_read {length further : Nat} {text front : List Char} {slash expression : Lexeme}
    {flags : Flags} (none : Trivia.read text = .success 0 false)
    (found : Lexeme.read text = .success length (slash, flags))
    (isSlash : slash? slash = some front)
    (again : RegularExpression.read front (text.drop length) = .success further expression) :
    Lexeme.Opens (text.take (length + further)) length slash flags ∧
      (text.take (length + further)).length = length + further ∧
      ∀ other, Separated other →
        RegularExpression.read front ((text.take (length + further)).drop length ++ other) =
          .success further expression := by
  have furtherLe := RegularExpression.length_read_le front (text.drop length)
  have lengthLe := Lexeme.length_read_le text
  rw [again, Reading.length, List.length_drop] at furtherLe
  rw [found, Reading.length] at lengthLe
  have long : (text.take (length + further)).length = length + further :=
    List.length_take_of_le (by omega)
  have inside : slash ≠ .endOfFile := by
    rintro rfl
    cases isSlash
  have whole : text.take (length + further) ++ text.drop (length + further) = text :=
    List.take_append_drop _ _
  have rest : (text.take (length + further)).drop length ++ text.drop (length + further) =
      text.drop length := by
    rw [← List.drop_append_of_le_length (by omega), whole]
  refine ⟨.of_read (text.drop (length + further)) inside (by omega) (by rwa [whole])
    (by rwa [whole]), long, fun other separated => ?_⟩
  refine RegularExpression.read_append (rest ▸ again) ?_ separated
  rw [List.length_drop]
  omega

theorem isWritable_of_regularExpression {cursor behind after : Cursor} {slash next : Token}
    {front : List Char} (scanned : token cursor = .ok slash behind)
    (isSlash : slash? slash.lexeme = some front)
    (again : regularExpression slash front behind = .ok next after) : next.IsWritable := by
  obtain ⟨gap, lineBreak, length, lexeme, flags, before, found, rfl, rfl⟩ :=
    token_eq_ok.mp scanned
  obtain ⟨further, expression, read, rfl, rfl⟩ := regularExpression_eq_ok.mp again
  obtain ⟨pattern, marks, rfl⟩ := RegularExpression.eq_of_read read
  have none := Trivia.read_drop_of_readFrom before
  rw [Nat.sub_zero] at none
  obtain ⟨opens, long, reread⟩ := rereads_of_read none found isSlash read
  have text : (String.ofList ((cursor.rest.drop gap).take length) ++ String.ofList
      (((cursor.rest.drop gap).drop length).take further)).toList =
        (cursor.rest.drop gap).take (length + further) := by
    rw [String.toList_append, String.toList_ofList, String.toList_ofList, List.take_add]
  refine ⟨fun name isName => absurd isName nofun, .inr ⟨length, lexeme, front, ⟨flags, ?_⟩, isSlash,
    ?_, ⟨pattern, marks, rfl⟩, fun other separated => ?_⟩⟩
  · exact text ▸ opens
  · exact Nat.le_trans (Nat.le_add_right _ _) (Nat.le_of_eq (long ▸ text ▸ String.length_toList))
  · have behind := reread other separated
    rw [← text] at behind long
    rw [String.length_toList] at long
    refine behind.trans (congrArg (Reading.success · _) ?_)
    exact Nat.eq_sub_of_add_eq' long.symm

end Scan

/-- A token is the next one at some cursor, or a slash at some cursor that was read again. -/
inductive Scan.Yields : Token → Prop where
  | scanned {cursor after : Cursor} {next : Token} : token cursor = .ok next after → Yields next
  | reread {cursor behind after : Cursor} {slash next : Token} {front : List Char} :
      token cursor = .ok slash behind → slash? slash.lexeme = some front →
      regularExpression slash front behind = .ok next after → Yields next

theorem Scan.Yields.isWritable {token : Token} (yields : Yields token)
    (inside : token.lexeme ≠ .endOfFile) : token.IsWritable := by
  cases yields with
  | scanned scanned => exact isWritable_of_token scanned inside
  | reread scanned isSlash again => exact isWritable_of_regularExpression scanned isSlash again

/-- The tokens that are consumed come from a cursor, and none of them is the end of the text. -/
theorem Point.Passes.yields {before after : Point} {tokens : List Token}
    (passes : before.Passes tokens after)
    (scanned : ∃ cursor, Scan.token cursor = .ok before.lookahead before.cursor) :
    ∀ token ∈ tokens, Scan.Yields token ∧ token.lexeme ≠ .endOfFile := by
  induction passes with
  | none => simp
  | advance step _ ih =>
    obtain ⟨cursor, scanned⟩ := scanned
    obtain ⟨inside, next, behind, scannedNext, rfl⟩ := step
    exact List.forall_mem_cons.mpr ⟨⟨.scanned scanned, inside⟩, ih ⟨_, scannedNext⟩⟩
  | reread again step _ ih =>
    obtain ⟨cursor, scanned⟩ := scanned
    obtain ⟨front, token, behind, isSlash, reread, rfl⟩ := again
    obtain ⟨inside, next, last, scannedNext, rfl⟩ := step
    exact List.forall_mem_cons.mpr
      ⟨⟨.reread scanned isSlash reread, inside⟩, ih ⟨_, scannedNext⟩⟩

/-- The tokens that are consumed can be written again. -/
theorem Point.Passes.isWritable {before after : Point} {tokens : List Token}
    (passes : before.Passes tokens after)
    (scanned : ∃ cursor, Scan.token cursor = .ok before.lookahead before.cursor) :
    ∀ token ∈ tokens, token.IsWritable := by
  intro token member
  obtain ⟨yields, inside⟩ := passes.yields scanned token member
  exact yields.isWritable inside

end EcmaScript
