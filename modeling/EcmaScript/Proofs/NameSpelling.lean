import EcmaScript.Proofs.EscapedPoints
import EcmaScript.Proofs.WordText

/-!
# Spellings of names

Each character of a name is written as it is or as an escape, in any mix. A name is read whole from
every spelling, and is an identifier with the same value whichever it is. Only reserved words are
particular: one that has an escape in it is refused. Identifiers and reserved words have no other
texts than the spellings of what they are read as.
-/

namespace EcmaScript

/-- A character of a name, as it is written. -/
inductive NameElement where
  | plain (char : Char)
  | escaped (point : EscapedPoint) (isChar : point.code.isValidChar)

namespace NameElement

/-- The text of a character. -/
def text : NameElement → List Char
  | plain char => [char]
  | escaped point _ => point.text

/-- The character itself. -/
def char : NameElement → Char
  | plain char => char
  | escaped point _ => Char.ofNat point.code

/-- The character is written as an escape. -/
def isEscaped : NameElement → Bool
  | plain _ => false
  | escaped _ _ => true

/-- The character is written as an escape in braces. -/
def isBraced : NameElement → Bool
  | plain _ => false
  | escaped point _ => point.isBraced

/-- What some characters add to the flags of their name. -/
def allFlags (elements : List NameElement) : Flags :=
  { unicodeEscape := elements.any isEscaped, bracedEscape := elements.any isBraced }

theorem allFlags_escaped (point : EscapedPoint) (isChar : point.code.isValidChar) :
    allFlags [escaped point isChar] = Escape.CodePoint.flags ⟨point.code, point.isBraced⟩ := by
  simp [allFlags, isEscaped, isBraced, Escape.CodePoint.flags]

theorem allFlags_cons (element : NameElement) (elements : List NameElement) :
    allFlags (element :: elements) = (allFlags [element]).union (allFlags elements) := by
  simp [allFlags, Flags.union]

end NameElement

/-- A name with a way to write each of its characters. It is not empty, its first character may
begin an identifier, and the others may continue one. -/
structure Spelling where
  elements : List NameElement
  nonempty : elements ≠ []
  isName : Name.IsBeginning (elements.map NameElement.char)

namespace Spelling

variable (spelling : Spelling)

/-- The text of the name. -/
def text : List Char :=
  spelling.elements.flatMap NameElement.text

/-- The name itself. -/
def name : String :=
  String.ofList (spelling.elements.map NameElement.char)

/-- There is an escape in the text. -/
def isEscaped : Bool :=
  spelling.elements.any NameElement.isEscaped

/-- How the name is written. -/
def flags : Flags :=
  NameElement.allFlags spelling.elements

/-- No character of the name comes behind it. -/
def EndsBefore (back : List Char) : Prop :=
  ∀ char ∈ back.head?, char ≠ '\\' ∧ isIdentifierPart char = false

end Spelling

namespace Name

/-- A name that has been read ends where no character of it comes. -/
theorem readFrom_of_ends {back : List Char} (ends : Spelling.EndsBefore back) (index : Nat)
    (name : List Char) (flags : Flags) :
    readFrom index name flags back = .success index (String.ofList name.reverse, flags) := by
  cases back with
  | nil => rw [readFrom]
  | cons char rest =>
    obtain ⟨notSlash, notPart⟩ := ends char rfl
    have refused : allows name.isEmpty char = false := by
      unfold allows
      split
      · rw [← Bool.not_eq_true] at notPart ⊢
        exact fun start => notPart (isIdentifierPart_of_start start)
      · exact notPart
    rw [readFrom, refused, if_neg Bool.false_ne_true]
    exact notSlash

/-- A character that is allowed where it stands is read, however it is written. -/
theorem readFrom_element {element : NameElement} {name : List Char}
    (allowed : allows name.isEmpty element.char = true) (index : Nat) (flags : Flags)
    (rest : List Char) :
    readFrom index name flags (element.text ++ rest) =
      readFrom (index + element.text.length) (element.char :: name)
        (flags.union (NameElement.allFlags [element])) rest := by
  cases element with
  | plain char =>
    have allowed : allows name.isEmpty char = true := allowed
    rw [NameElement.text, List.singleton_append, readFrom, if_pos allowed]
    · exact congrArg (readFrom _ _ · rest) (Flags.union_none flags).symm
    · exact ne_backslash_of_allows allowed
  | escaped point isChar =>
    have read := point.unicode_text rest
    have accepted : (point.code.isValidChar && allows name.isEmpty (Char.ofNat point.code)) =
        true := by
      rw [Bool.and_eq_true, decide_eq_true_eq]
      exact ⟨isChar, allowed⟩
    have behind := point.drop_text rest
    obtain ⟨inside, same⟩ := point.exists_text
    simp only [same, List.cons_append, List.tail_cons] at read behind
    simp only [NameElement.text, same, List.cons_append]
    rw [readFrom, read]
    dsimp only
    rw [if_pos accepted, behind, NameElement.allFlags_escaped]
    rfl

/-- The characters of a name are read up to what is none of them. -/
theorem readFrom_elements (name : List Char) {elements : List NameElement} {back : List Char}
    (isName : IsBeginning (name.reverse ++ elements.map NameElement.char))
    (ends : Spelling.EndsBefore back) (index : Nat) (flags : Flags) :
    readFrom index name flags (elements.flatMap NameElement.text ++ back) =
      .success (index + (elements.flatMap NameElement.text).length)
        (String.ofList (name.reverse ++ elements.map NameElement.char),
          flags.union (NameElement.allFlags elements)) := by
  induction elements generalizing index name flags with
  | nil =>
    simpa [NameElement.allFlags, Flags.union_none] using readFrom_of_ends ends index name flags
  | cons element elements ih =>
    have allowed : allows name.isEmpty element.char = true := allows_of_isBeginning isName
    have later : IsBeginning ((element.char :: name).reverse ++ elements.map NameElement.char) := by
      simpa using isName
    rw [List.flatMap_cons, List.append_assoc, readFrom_element allowed, ih _ later,
      NameElement.allFlags_cons element elements, Flags.union_assoc]
    simp [Nat.add_assoc]

/-- Some text begins with the rest of a name, whose characters are written in some way. -/
structure Spells (index : Nat) (name : List Char) (flags : Flags) (text : List Char)
    (length : Nat) (result : String × Flags) (elements : List NameElement) : Prop where
  text : elements.flatMap NameElement.text <+: text
  length : length = index + (elements.flatMap NameElement.text).length
  result : result = (String.ofList (name.reverse ++ elements.map NameElement.char),
    flags.union (NameElement.allFlags elements))

theorem Spells.nil (index : Nat) (name : List Char) (flags : Flags) (text : List Char) :
    Spells index name flags text index (String.ofList name.reverse, flags) [] where
  text := List.nil_prefix
  length := rfl
  result := by simp [NameElement.allFlags, Flags.union_none]

theorem Spells.cons (element : NameElement) {index length : Nat} {name rest : List Char}
    {flags : Flags} {result : String × Flags} {elements : List NameElement}
    (spells : Spells (index + element.text.length) (element.char :: name)
      (flags.union (NameElement.allFlags [element])) rest length result elements) :
    Spells index name flags (element.text ++ rest) length result (element :: elements) where
  text := by
    rw [List.flatMap_cons, List.prefix_append_right_inj]
    exact spells.text
  length := by rw [spells.length, List.flatMap_cons, List.length_append, Nat.add_assoc]
  result := by
    rw [spells.result, NameElement.allFlags_cons element elements, Flags.union_assoc]
    simp

/-- What is read as a name is the characters of one, each written in some way. -/
theorem exists_elements_of_readFrom {index length : Nat} {name text : List Char} {flags : Flags}
    {result : String × Flags} (read : readFrom index name flags text = .success length result) :
    ∃ elements, Spells index name flags text length result elements := by
  fun_induction readFrom index name flags text with
  | case1 index name flags =>
    cases read
    exact ⟨[], .nil ..⟩
  | case2 | case4 => cases read
  | case3 index name flags rest further point found char accepted ih =>
    rw [Bool.and_eq_true, decide_eq_true_eq] at accepted
    obtain ⟨elements, spells⟩ := ih read
    obtain ⟨escaped, others, whole, rfl, rfl⟩ := Escape.exists_escapedPoint found
    have behind : rest.drop (escaped.text.length - 1) = others := by
      rw [← escaped.drop_text others, ← whole, List.tail_cons]
    rw [behind] at spells
    rw [whole]
    refine ⟨.escaped escaped accepted.1 :: elements,
      Spells.cons (.escaped escaped accepted.1) ?_⟩
    rw [NameElement.allFlags_escaped]
    exact spells
  | case5 index name flags char rest _ allowed ih =>
    obtain ⟨elements, spells⟩ := ih read
    refine ⟨.plain char :: elements, Spells.cons (.plain char) ?_⟩
    rw [← Flags.union_none flags] at spells
    exact spells
  | case6 index name flags char rest =>
    cases read
    exact ⟨[], .nil ..⟩

end Name

namespace Symbol

/-- A reserved word is found by its text. -/
theorem ofWord?_text : ∀ word ∈ all, word.isWord = true → ofWord? word.text = some word := by
  decide +kernel

theorem ofWord?_eq_none {name : String} (notWord : ∀ word : Symbol, word.isWord = true →
    word.text ≠ name) : ofWord? name = none := by
  rw [ofWord?, List.find?_eq_none]
  intro word member
  simpa using notWord word (List.mem_filter.mp member).2

end Symbol

namespace Spelling

variable (spelling : Spelling)

/-- The first character of the text may begin a name. -/
theorem exists_text : ∃ char inside, spelling.text = char :: inside ∧
    (char = '\\' ∨ isIdentifierStart char = true) := by
  obtain ⟨elements, nonempty, isName⟩ := spelling
  cases elements with
  | nil => contradiction
  | cons element elements =>
    cases element with
    | plain char => exact ⟨char, _, rfl, .inr (isName.1 char rfl)⟩
    | escaped point isChar =>
      obtain ⟨inside, same⟩ := point.exists_text
      refine ⟨'\\', 'u' :: inside ++ elements.flatMap NameElement.text, ?_, .inl rfl⟩
      rw [text, List.flatMap_cons, NameElement.text, same]
      rfl

/-- No token but a name is read from the text. -/
theorem read_text (back : List Char) :
    Trivia.read (spelling.text ++ back) = .success 0 false ∧
      Lexeme.read (spelling.text ++ back) = Name.read (spelling.text ++ back) := by
  obtain ⟨char, inside, same, begins⟩ := spelling.exists_text
  rw [same]
  exact ⟨Trivia.read_name begins _, Lexeme.read_name begins _⟩

variable {spelling} {back : List Char}

/-- The name is read from the text. -/
theorem readFrom_text (ends : EndsBefore back) :
    Name.readFrom 0 [] {} (spelling.text ++ back) =
      .success spelling.text.length (spelling.name, spelling.flags) := by
  have read := Name.readFrom_elements [] spelling.isName ends 0 {}
  rwa [Nat.zero_add, Flags.none_union] at read

/-- A name of no reserved word is read as an identifier. -/
theorem read_identifier (ends : EndsBefore back)
    (notWord : ∀ word : Symbol, word.isWord = true → word.text ≠ spelling.name) :
    Name.read (spelling.text ++ back) =
      .success spelling.text.length (.identifier spelling.name, spelling.flags) := by
  rw [Name.read, readFrom_text ends]
  dsimp only
  rw [Symbol.ofWord?_eq_none notWord]

/-- A reserved word is read if it has no escapes. -/
theorem read_word (ends : EndsBefore back) {word : Symbol} (isWord : word.isWord = true)
    (same : word.text = spelling.name) :
    Name.read (spelling.text ++ back) =
      if spelling.isEscaped then .failure spelling.text.length .escapedKeyword 0
      else .success spelling.text.length (.symbol word, spelling.flags) := by
  rw [Name.read, readFrom_text ends]
  dsimp only
  rw [← same, Symbol.ofWord?_text word word.mem_all isWord]
  rfl

/-- The text is within a line, and not in quotes. -/
theorem inLine_text (spelling : Spelling) (ends : EndsBefore back) :
    (spelling.text.head? ≠ some '"' ∧ spelling.text.head? ≠ some '\'') ∧ spelling.text ≠ [] ∧
      ∀ char ∈ spelling.text, isLineTerminator char = false := by
  obtain ⟨count, same, inLine⟩ := Name.inLine_readFrom 0 [] {} (spelling.text ++ back)
  rw [readFrom_text ends, Nat.zero_add] at same
  obtain rfl : spelling.text.length = count := same
  rw [InLine, List.take_left] at inLine
  obtain ⟨char, inside, whole, begins⟩ := spelling.exists_text
  refine ⟨?_, by simp [whole], inLine⟩
  rw [whole, List.head?_cons]
  rcases begins with rfl | start
  · decide
  · have plain := (plain_of_isIdentifierStart start).1
    simp only [List.mem_cons, not_or] at plain
    simp [plain]

variable {cursor : Cursor}

/-- What is read as a name in this spelling is the next token. -/
theorem token_of_read (ends : EndsBefore back) (here : cursor.rest = spelling.text ++ back)
    {item : Lexeme} (found : Name.read (spelling.text ++ back) =
      .success spelling.text.length (item, spelling.flags)) :
    Scan.token cursor =
      .ok (.inLine cursor spelling.text item spelling.flags)
        (cursor.passInLine spelling.text back) := by
  obtain ⟨none, same⟩ := spelling.read_text back
  obtain ⟨noQuotes, nonempty, inLine⟩ := inLine_text spelling ends
  rw [← same, ← here] at found
  rw [← here] at none
  exact Scan.token_inLine here none noQuotes nonempty inLine rfl found

/-- What is faulty in this spelling is faulty at the cursor. -/
theorem token_of_faulty (ends : EndsBefore back) (here : cursor.rest = spelling.text ++ back)
    {cause : Cause}
    (found : Name.read (spelling.text ++ back) = .failure spelling.text.length cause 0) :
    Scan.token cursor =
      .error ⟨cause, cursor.position⟩ (cursor.passInLine spelling.text back) := by
  obtain ⟨none, same⟩ := spelling.read_text back
  obtain ⟨noQuotes, nonempty, inLine⟩ := inLine_text spelling ends
  rw [← same, ← here] at found
  rw [← here] at none
  exact Scan.token_of_faulty_inLine here none noQuotes nonempty inLine found

/-- What is read as a name is spelled in the text. -/
theorem exists_of_readFrom {length : Nat} {char : Char} {rest : List Char}
    {result : String × Flags} (begins : char = '\\' ∨ isIdentifierStart char = true)
    (read : Name.readFrom 0 [] {} (char :: rest) = .success length result) :
    ∃ spelling : Spelling, spelling.text = (char :: rest).take length ∧
      result = (spelling.name, spelling.flags) := by
  obtain ⟨elements, spells⟩ := Name.exists_elements_of_readFrom read
  have some := Name.pos_of_readFrom begins read
  have isName := (Name.isBeginning_of_readFrom read (by simp [Name.IsBeginning])).1
  have named := congrArg Prod.fst spells.result
  have taken := List.prefix_iff_eq_take.mp spells.text
  rw [List.reverse_nil, List.nil_append] at named
  rw [named, String.toList_ofList] at isName
  rw [named, String.length_ofList, List.length_map] at some
  refine ⟨⟨elements, List.ne_nil_of_length_pos some, isName⟩, ?_, ?_⟩
  · rw [spells.length, Nat.zero_add]
    exact taken
  · rw [spells.result, Flags.none_union]
    rfl

/-- What is read as an identifier or a reserved word is spelled in the text. -/
theorem exists_of_read {length : Nat} {char : Char} {rest : List Char} {lexeme : Lexeme}
    {flags : Flags} (begins : char = '\\' ∨ isIdentifierStart char = true)
    (found : Name.read (char :: rest) = .success length (lexeme, flags)) :
    ∃ spelling : Spelling, spelling.text = (char :: rest).take length ∧
      lexeme.name? = some spelling.name ∧ flags = spelling.flags ∧
      (lexeme.kind.isReservedWord = true → spelling.isEscaped = false) := by
  unfold Name.read at found
  split at found
  · cases found
  · rename_i read
    obtain ⟨spelling, text, spelled⟩ := exists_of_readFrom begins read
    cases spelled
    split at found
    · cases found
      exact ⟨spelling, text, rfl, rfl, nofun⟩
    · rename_i word known
      split at found
      · cases found
      · rename_i plain
        cases found
        have isWord := (List.mem_filter.mp (List.mem_of_find?_eq_some known)).2
        refine ⟨spelling, text, ?_, rfl, fun _ => (Bool.not_eq_true _).mp plain⟩
        rw [← Symbol.text_of_ofWord? known]
        exact if_pos isWord

end Spelling

/-- The spelling of names. Take any characters that make a name, each as it is or as an escape, in
front of something that does not go on with the name. They are scanned as one token that takes up
this text and nothing behind it: as an identifier of this name if no reserved word has it, and
otherwise as that word if there is no escape. A reserved word with an escape is a fault at the
cursor. No other text is scanned as an identifier or a reserved word. -/
theorem Scan.token_of_spelling :
    (∀ (spelling : Spelling) (cursor : Cursor) (back : List Char), Spelling.EndsBefore back →
      cursor.rest = spelling.text ++ back →
      ((∀ word : Symbol, word.isWord = true → word.text ≠ spelling.name) →
        Scan.token cursor =
          .ok (.inLine cursor spelling.text (.identifier spelling.name) spelling.flags)
            (cursor.passInLine spelling.text back)) ∧
      ∀ word : Symbol, word.isWord = true → word.text = spelling.name →
        Scan.token cursor =
          if spelling.isEscaped then
            .error ⟨.escapedKeyword, cursor.position⟩ (cursor.passInLine spelling.text back)
          else
            .ok (.inLine cursor spelling.text (.symbol word) spelling.flags)
              (cursor.passInLine spelling.text back)) ∧
    ∀ (cursor after : Cursor) (next : Token), Scan.token cursor = .ok next after →
      next.kind.isIdentifierName = true →
        ∃ spelling : Spelling, next.text = String.ofList spelling.text ∧
          next.name? = some spelling.name ∧
          next.flags = { spelling.flags with lineBreak := next.flags.lineBreak } ∧
          (next.kind.isReservedWord = true → spelling.isEscaped = false) := by
  refine ⟨fun spelling cursor back ends here => ⟨fun notWord => ?_, fun word isWord same => ?_⟩,
    fun cursor after next scanned isName => ?_⟩
  · exact Spelling.token_of_read ends here (Spelling.read_identifier ends notWord)
  · have found := Spelling.read_word ends isWord same
    split
    · rename_i escaped
      rw [if_pos escaped] at found
      exact Spelling.token_of_faulty ends here found
    · rename_i plain
      rw [if_neg plain] at found
      exact Spelling.token_of_read ends here found
  · obtain ⟨gap, lineBreak, length, lexeme, flags, before, found, rfl, rfl⟩ :=
      token_eq_ok.mp scanned
    obtain ⟨char, rest, whole, begins, found⟩ := Lexeme.name_of_read found isName
    rw [whole] at found
    obtain ⟨spelling, text, named, rfl, plain⟩ := Spelling.exists_of_read begins found
    refine ⟨spelling, ?_, named, rfl, plain⟩
    rw [text, ← whole]

/-- An identifier with an escape in front of a parenthesis, and a reserved word with one in braces.
-/
theorem Scan.token_of_escaped_names :
    ∃ name word again : Spelling, String.ofList name.text = "\\u0061b" ∧
      String.ofList word.text = "\\u\x7b69\x7df" ∧
      Scan.token ⟨name.text ++ ['('], 0, .first⟩ =
        .ok ⟨.identifier "ab", { unicodeEscape := true }, ⟨.first, ⟨1, 7⟩⟩, 0, 7, "\\u0061b"⟩
          ⟨['('], 7, ⟨1, 7⟩⟩ ∧
      Scan.token ⟨word.text, 0, .first⟩ = .error ⟨.escapedKeyword, .first⟩ ⟨[], 7, ⟨1, 7⟩⟩ ∧
      String.ofList again.text = "\\u0061b" ∧ again.name = "ab" := by
  let name : Spelling :=
    { elements :=
        [.escaped (.four [⟨'0', 0, rfl⟩, ⟨'0', 0, rfl⟩, ⟨'6', 6, rfl⟩, ⟨'1', 1, rfl⟩] rfl)
          (by decide), .plain 'b']
      nonempty := by simp
      isName :=
        ⟨by rintro _ ⟨⟩; decide +kernel, List.forall_mem_singleton.mpr (by decide +kernel)⟩ }
  let word : Spelling :=
    { elements :=
        [.escaped (.braced [⟨'6', 6, rfl⟩, ⟨'9', 9, rfl⟩] (by simp) (by decide)) (by decide),
          .plain 'f']
      nonempty := by simp
      isName :=
        ⟨by rintro _ ⟨⟩; decide +kernel, List.forall_mem_singleton.mpr (by decide +kernel)⟩ }
  have notWord : ∀ word ∈ Symbol.all, word.isWord = true → word.text ≠ "ab" := by
    decide +kernel
  have ends : Spelling.EndsBefore ['('] := by
    rintro _ ⟨⟩
    exact ⟨by decide, by decide +kernel⟩
  have alone : Spelling.EndsBefore [] := by
    rintro _ ⟨⟩
  have scanned := (Scan.token_of_spelling.1 name ⟨name.text ++ ['('], 0, .first⟩ ['(']
    ends rfl).1 fun word => notWord word word.mem_all
  have refused := (Scan.token_of_spelling.1 word ⟨word.text, 0, .first⟩ [] alone
    (List.append_nil _).symm).2 Keyword.ifWord rfl (by decide)
  obtain ⟨again, text, named, -⟩ := Scan.token_of_spelling.2 _ _ _ scanned rfl
  exact ⟨name, word, again, by decide, by decide, scanned, refused, text.symm.trans (by decide),
    (Option.some.inj named).symm.trans (by decide)⟩

end EcmaScript
