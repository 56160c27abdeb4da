import EcmaScript.Operator

/-!
# Symbols

Symbols are the tokens whose text is fixed: punctuators, operators and keywords. The words `in` and
`instanceof` are binary operators, and reserved like the keywords. The other operators and the
punctuators are marks, and where several marks begin a text the longest of them is read.
-/

namespace EcmaScript

/-- The symbols that separate or enclose, and the two that are only ever unary operators. -/
inductive Punctuator where
  | leftBrace | rightBrace | leftParen | rightParen | leftBracket | rightBracket | period
  | ellipsis | semicolon | comma | colon | questionMark | arrow | negate | complement
  deriving DecidableEq, Repr

namespace Punctuator

/-- All of them, in their order. -/
def all : List Punctuator :=
  [.leftBrace, .rightBrace, .leftParen, .rightParen, .leftBracket, .rightBracket, .period,
   .ellipsis, .semicolon, .comma, .colon, .questionMark, .arrow, .negate, .complement]

theorem mem_all (item : Punctuator) : item ∈ all := by
  cases item <;> decide

/-- The text it is written with. -/
def text : Punctuator → String
  | .leftBrace => "\x7b"
  | .rightBrace => "\x7d"
  | .leftParen => "("
  | .rightParen => ")"
  | .leftBracket => "["
  | .rightBracket => "]"
  | .period => "."
  | .ellipsis => "..."
  | .semicolon => ";"
  | .comma => ","
  | .colon => ":"
  | .questionMark => "?"
  | .arrow => "=>"
  | .negate => "!"
  | .complement => "~"

/-- The name its tokens are reported under. -/
def name : Punctuator → String
  | .leftBrace => "LeftBrace"
  | .rightBrace => "RightBrace"
  | .leftParen => "LeftParen"
  | .rightParen => "RightParen"
  | .leftBracket => "LeftBracket"
  | .rightBracket => "RightBracket"
  | .period => "Period"
  | .ellipsis => "Ellipsis"
  | .semicolon => "Semicolon"
  | .comma => "Comma"
  | .colon => "Colon"
  | .questionMark => "QuestionMark"
  | .arrow => "Arrow"
  | .negate => "Negate"
  | .complement => "Complement"

end Punctuator

/-- The reserved words that are not binary operators. -/
inductive Keyword where
  | breakWord | caseWord | catchWord | classWord | constWord | continueWord | debuggerWord
  | defaultWord | deleteWord | doWord | elseWord | enumWord | exportWord | extendsWord | falseWord
  | finallyWord | forWord | functionWord | ifWord | importWord | newWord | nullWord | returnWord
  | superWord | switchWord | thisWord | throwWord | trueWord | tryWord | typeofWord | varWord
  | voidWord | whileWord | withWord
  deriving DecidableEq, Repr

namespace Keyword

/-- All of them, in their order. -/
def all : List Keyword :=
  [.breakWord, .caseWord, .catchWord, .classWord, .constWord, .continueWord, .debuggerWord,
   .defaultWord, .deleteWord, .doWord, .elseWord, .enumWord, .exportWord, .extendsWord,
   .falseWord, .finallyWord, .forWord, .functionWord, .ifWord, .importWord, .newWord, .nullWord,
   .returnWord, .superWord, .switchWord, .thisWord, .throwWord, .trueWord, .tryWord, .typeofWord,
   .varWord, .voidWord, .whileWord, .withWord]

theorem mem_all (item : Keyword) : item ∈ all := by
  cases item <;> decide

/-- The text it is written with. -/
def text : Keyword → String
  | .breakWord => "break"
  | .caseWord => "case"
  | .catchWord => "catch"
  | .classWord => "class"
  | .constWord => "const"
  | .continueWord => "continue"
  | .debuggerWord => "debugger"
  | .defaultWord => "default"
  | .deleteWord => "delete"
  | .doWord => "do"
  | .elseWord => "else"
  | .enumWord => "enum"
  | .exportWord => "export"
  | .extendsWord => "extends"
  | .falseWord => "false"
  | .finallyWord => "finally"
  | .forWord => "for"
  | .functionWord => "function"
  | .ifWord => "if"
  | .importWord => "import"
  | .newWord => "new"
  | .nullWord => "null"
  | .returnWord => "return"
  | .superWord => "super"
  | .switchWord => "switch"
  | .thisWord => "this"
  | .throwWord => "throw"
  | .trueWord => "true"
  | .tryWord => "try"
  | .typeofWord => "typeof"
  | .varWord => "var"
  | .voidWord => "void"
  | .whileWord => "while"
  | .withWord => "with"

/-- The name its tokens are reported under. -/
def name : Keyword → String
  | .breakWord => "Break"
  | .caseWord => "Case"
  | .catchWord => "Catch"
  | .classWord => "Class"
  | .constWord => "Const"
  | .continueWord => "Continue"
  | .debuggerWord => "Debugger"
  | .defaultWord => "Default"
  | .deleteWord => "Delete"
  | .doWord => "Do"
  | .elseWord => "Else"
  | .enumWord => "Enum"
  | .exportWord => "Export"
  | .extendsWord => "Extends"
  | .falseWord => "False"
  | .finallyWord => "Finally"
  | .forWord => "For"
  | .functionWord => "Function"
  | .ifWord => "If"
  | .importWord => "Import"
  | .newWord => "New"
  | .nullWord => "Null"
  | .returnWord => "Return"
  | .superWord => "Super"
  | .switchWord => "Switch"
  | .thisWord => "This"
  | .throwWord => "Throw"
  | .trueWord => "True"
  | .tryWord => "Try"
  | .typeofWord => "Typeof"
  | .varWord => "Var"
  | .voidWord => "Void"
  | .whileWord => "While"
  | .withWord => "With"

end Keyword

/-- Tokens whose text is fixed. -/
inductive Symbol where
  | punctuator (mark : Punctuator)
  | update (operator : UpdateOperator)
  | assignment (operator : AssignmentOperator)
  | binary (operator : BinaryOperator)
  | keyword (word : Keyword)
  deriving DecidableEq, Repr

namespace Symbol

instance : Coe Punctuator Symbol := ⟨.punctuator⟩

instance : Coe UpdateOperator Symbol := ⟨.update⟩

instance : Coe AssignmentOperator Symbol := ⟨.assignment⟩

instance : Coe BinaryOperator Symbol := ⟨.binary⟩

instance : Coe Keyword Symbol := ⟨.keyword⟩

/-- All symbols in their order. -/
def all : List Symbol :=
  Punctuator.all.map .punctuator ++ UpdateOperator.all.map .update ++
    AssignmentOperator.all.map .assignment ++ BinaryOperator.all.map .binary ++
    Keyword.all.map .keyword

theorem mem_all (symbol : Symbol) : symbol ∈ all := by
  cases symbol <;>
    simp [all, Punctuator.mem_all, UpdateOperator.mem_all, AssignmentOperator.mem_all,
      BinaryOperator.mem_all, Keyword.mem_all]

/-- The place of a symbol in the order of all symbols. -/
def ordinal : Symbol → Nat
  | .punctuator mark => mark.ctorIdx
  | .update operator => 15 + operator.ctorIdx
  | .assignment operator => 17 + operator.ctorIdx
  | .binary operator => 30 + operator.ctorIdx
  | .keyword word => 54 + word.ctorIdx

/-- The text a symbol is written with. -/
def text : Symbol → String
  | .punctuator mark => mark.text
  | .update operator => operator.text
  | .assignment operator => operator.text
  | .binary operator => operator.text
  | .keyword word => word.text

/-- The name its tokens are reported under. -/
def name : Symbol → String
  | .punctuator mark => mark.name
  | .update operator => operator.name
  | .assignment operator => operator.name
  | .binary operator => operator.name
  | .keyword word => word.name

/-- The reserved words: the keywords, and the operators written as words. -/
def isWord : Symbol → Bool
  | .keyword _ | .binary .isIn | .binary .instanceOf => true
  | _ => false

/-- The reserved word with a text. -/
def ofWord? (word : String) : Option Symbol :=
  (all.filter isWord).find? (·.text == word)

/-- The symbols that are not words, the longest texts first. None has more than four characters. -/
def marks : List Symbol :=
  [4, 3, 2, 1].flatMap fun length => all.filter fun symbol =>
    !symbol.isWord && symbol.text.length == length

/-- The longest mark that a text begins with. -/
def leadingMark? (text : List Char) : Option Symbol :=
  marks.find? fun symbol => symbol.text.toList.isPrefixOf text

/-- The unary operator that a symbol is before an operand. -/
def unaryOperator? : Symbol → Option UnaryOperator
  | .punctuator .negate => some .not
  | .punctuator .complement => some .bitwiseNot
  | .binary .add => some .plus
  | .binary .subtract => some .minus
  | .keyword .typeofWord => some .typeof
  | .keyword .voidWord => some .void
  | .keyword .deleteWord => some .delete
  | _ => none

/-- A unary operator has the text of the symbol it is. -/
theorem text_unaryOperator? {symbol : Symbol} {operator : UnaryOperator}
    (read : symbol.unaryOperator? = some operator) : operator.text = symbol.text := by
  unfold unaryOperator? at read
  split at read <;> cases read <;> rfl

theorem length_text_pos : ∀ symbol ∈ marks, 0 < symbol.text.length := by
  decide +kernel

theorem length_leadingMark?_le {text : List Char} {mark : Symbol}
    (found : leadingMark? text = some mark) : mark.text.length ≤ text.length := by
  have isFront := List.find?_some found
  have shorter := (List.isPrefixOf_iff_prefix.mp isFront).length_le
  rwa [String.length_toList] at shorter

end Symbol

/-- The words that are reserved in strict code only. -/
def strictReservedWords : List String :=
  ["implements", "interface", "let", "package", "private", "protected", "public", "static",
   "yield"]

/-- A word that is an identifier in sloppy code and reserved in strict code. -/
def isStrictReservedWord (word : String) : Bool :=
  strictReservedWords.contains word

end EcmaScript
