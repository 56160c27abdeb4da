import EcmaScript.Token.Kind
import EcmaScript.Tree.Basic

/-!
# Trees as words

A tree is written out with a word for each token: every expression inside of another one or of a
statement in parentheses, every semicolon, the list of arguments of every `new`, and a comma after
every element of an array and every property of an object. Literals are written as they were read,
names as what they mean, and directives as their string alone. Between two words there is one space.
-/

namespace EcmaScript

/-- What stands for a token when a tree is written. -/
inductive Word where
  | symbol (symbol : Symbol)
  | named (name : String)
  | literal (raw : String)
  deriving DecidableEq, Repr

namespace Word

instance : Coe Symbol Word := ⟨.symbol⟩

/-- The text of a word. -/
def text : Word → String
  | .symbol item => item.text
  | .named name => name
  | .literal raw => raw

/-- Words in parentheses. -/
def enclosed (words : List Word) : List Word :=
  .symbol Punctuator.leftParen :: (words ++ [.symbol Punctuator.rightParen])

/-- A word, or nothing. -/
def ofName? : Option Identifier → List Word
  | none => []
  | some identifier => [.named identifier.name]

/-- Names with commas between them. -/
def ofNames : List Identifier → List Word
  | [] => []
  | [identifier] => [.named identifier.name]
  | identifier :: identifiers =>
    .named identifier.name :: .symbol Punctuator.comma :: ofNames identifiers

/-- The words as a text, with one space between them. -/
def join (words : List Word) : String :=
  " ".intercalate (words.map text)

end Word

open Word

/-- The symbol that an operator is written as. -/
def UnaryOperator.symbol : UnaryOperator → Symbol
  | .not => Punctuator.negate
  | .bitwiseNot => Punctuator.complement
  | .plus => BinaryOperator.add
  | .minus => BinaryOperator.subtract
  | .typeof => Keyword.typeofWord
  | .void => Keyword.voidWord
  | .delete => Keyword.deleteWord

/-- The name of a property as a word. -/
def PropertyKey.word : PropertyKey → Word
  | .identifier name => .named name.name
  | .literal _ raw _ => .literal raw

/-- The word before the name of an accessor. -/
def PropertyKind.words : PropertyKind → List Word
  | .init => []
  | .get => [.named "get"]
  | .set => [.named "set"]

mutual

/-- An expression as words, without parentheses around it. -/
def Expression.words : Expression → List Word
  | .identifier name => [.named name.name]
  | .literal _ raw _ => [.literal raw]
  | .thisValue _ => [.symbol Keyword.thisWord]
  | .array elements _ =>
    .symbol Punctuator.leftBracket ::
      (Expression.elementWords elements ++ [.symbol Punctuator.rightBracket])
  | .object properties _ =>
    .symbol Punctuator.leftBrace ::
      (Property.listWords properties ++ [.symbol Punctuator.rightBrace])
  | .function name parameters body _ =>
    .symbol Keyword.functionWord ::
      (ofName? name ++ (enclosed (ofNames parameters) ++ body.words))
  | .unary operator argument _ => .symbol operator.symbol :: enclosed argument.words
  | .update operator .before argument _ => .symbol operator :: enclosed argument.words
  | .update operator .after argument _ => enclosed argument.words ++ [.symbol operator]
  | .binary operator left right _ =>
    enclosed left.words ++ .symbol operator :: enclosed right.words
  | .assignment operator target value _ =>
    enclosed target.words ++ .symbol operator :: enclosed value.words
  | .conditional test consequent alternate _ =>
    enclosed test.words ++ .symbol Punctuator.questionMark :: (enclosed consequent.words ++
      .symbol Punctuator.colon :: enclosed alternate.words)
  | .call callee arguments _ =>
    enclosed callee.words ++ enclosed (Expression.listWords arguments)
  | .new callee arguments _ =>
    .symbol Keyword.newWord ::
      (enclosed callee.words ++ enclosed (Expression.listWords arguments))
  | .dot object property _ =>
    enclosed object.words ++ [.symbol Punctuator.period, .named property.name]
  | .index object property _ =>
    enclosed object.words ++ .symbol Punctuator.leftBracket ::
      (enclosed property.words ++ [.symbol Punctuator.rightBracket])
  | .sequence expressions _ => Expression.listWords expressions

/-- Expressions in parentheses, with commas between them. -/
def Expression.listWords : List Expression → List Word
  | [] => []
  | [expression] => enclosed expression.words
  | expression :: expressions =>
    enclosed expression.words ++ .symbol Punctuator.comma :: Expression.listWords expressions

/-- The elements of an array, with a comma after each of them. -/
def Expression.elementWords : List (Option Expression) → List Word
  | [] => []
  | none :: elements => .symbol Punctuator.comma :: Expression.elementWords elements
  | some expression :: elements =>
    enclosed expression.words ++ .symbol Punctuator.comma :: Expression.elementWords elements

/-- A property as words. The function of an accessor has no word of its own. -/
def Property.words : Property → List Word
  | ⟨key, value, kind, _⟩ =>
    kind.words ++ key.word ::
      match kind with
      | .init => .symbol Punctuator.colon :: enclosed value.words
      | .get | .set => value.words.tail

/-- Properties, with a comma after each of them. -/
def Property.listWords : List Property → List Word
  | [] => []
  | property :: properties =>
    property.words ++ .symbol Punctuator.comma :: Property.listWords properties

/-- A block as words. -/
def Block.words : Block → List Word
  | ⟨body, _⟩ =>
    .symbol Punctuator.leftBrace :: (Statement.listWords body ++ [.symbol Punctuator.rightBrace])

/-- A declared variable as words. -/
def VariableDeclarator.words : VariableDeclarator → List Word
  | ⟨name, none, _⟩ => [.named name.name]
  | ⟨name, some value, _⟩ =>
    .named name.name :: .symbol AssignmentOperator.assign :: enclosed value.words

/-- Declared variables, with commas between them. -/
def VariableDeclarator.listWords : List VariableDeclarator → List Word
  | [] => []
  | [declarator] => declarator.words
  | declarator :: declarators =>
    declarator.words ++ .symbol Punctuator.comma :: VariableDeclarator.listWords declarators

/-- A declaration as words, without a semicolon. -/
def VariableDeclaration.words : VariableDeclaration → List Word
  | ⟨declarators, _⟩ => .symbol Keyword.varWord :: VariableDeclarator.listWords declarators

/-- The head of a loop as words. -/
def ForHead.words : ForHead → List Word
  | .declaration declaration => declaration.words
  | .expression expression => enclosed expression.words

/-- The first part of the head of a loop, which may be left out. -/
def ForHead.words? : Option ForHead → List Word
  | none => []
  | some head => head.words

/-- An expression in parentheses, or nothing. -/
def Expression.words? : Option Expression → List Word
  | none => []
  | some expression => enclosed expression.words

/-- A clause as words. -/
def SwitchCase.words : SwitchCase → List Word
  | ⟨none, consequent, _⟩ =>
    .symbol Keyword.defaultWord :: .symbol Punctuator.colon :: Statement.listWords consequent
  | ⟨some test, consequent, _⟩ =>
    .symbol Keyword.caseWord :: (enclosed test.words ++ .symbol Punctuator.colon ::
      Statement.listWords consequent)

/-- Clauses one behind the other. -/
def SwitchCase.listWords : List SwitchCase → List Word
  | [] => []
  | clause :: clauses => clause.words ++ SwitchCase.listWords clauses

/-- A handler as words, or nothing. -/
def CatchClause.words? : Option CatchClause → List Word
  | none => []
  | some ⟨parameter, body, _⟩ =>
    .symbol Keyword.catchWord :: (enclosed [.named parameter.name] ++ body.words)

/-- A last block as words, or nothing. -/
def Block.finalWords? : Option Block → List Word
  | none => []
  | some body => .symbol Keyword.finallyWord :: body.words

/-- A statement as words. -/
def Statement.words : Statement → List Word
  | .empty _ => [.symbol Punctuator.semicolon]
  | .block body => body.words
  | .expression expression none _ =>
    enclosed expression.words ++ [.symbol Punctuator.semicolon]
  | .expression directive (some _) _ => directive.words ++ [.symbol Punctuator.semicolon]
  | .variables declaration => declaration.words ++ [.symbol Punctuator.semicolon]
  | .function name parameters body _ =>
    .symbol Keyword.functionWord :: .named name.name ::
      (enclosed (ofNames parameters) ++ body.words)
  | .ifElse test consequent alternate _ =>
    .symbol Keyword.ifWord :: (enclosed (enclosed test.words) ++ (consequent.words ++
      Statement.elseWords? alternate))
  | .labelled label body _ => .named label.name :: .symbol Punctuator.colon :: body.words
  | .breakTo label _ =>
    .symbol Keyword.breakWord :: (ofName? label ++ [.symbol Punctuator.semicolon])
  | .continueTo label _ =>
    .symbol Keyword.continueWord :: (ofName? label ++ [.symbol Punctuator.semicolon])
  | .withObject object body _ =>
    .symbol Keyword.withWord :: (enclosed (enclosed object.words) ++ body.words)
  | .switch discriminant clauses _ =>
    .symbol Keyword.switchWord :: (enclosed (enclosed discriminant.words) ++
      .symbol Punctuator.leftBrace ::
        (SwitchCase.listWords clauses ++ [.symbol Punctuator.rightBrace]))
  | .returnValue argument _ =>
    .symbol Keyword.returnWord ::
      (Expression.words? argument ++ [.symbol Punctuator.semicolon])
  | .throwValue argument _ =>
    .symbol Keyword.throwWord :: (enclosed argument.words ++ [.symbol Punctuator.semicolon])
  | .tryBlock block handler finalizer _ =>
    .symbol Keyword.tryWord ::
      (block.words ++ (CatchClause.words? handler ++ Block.finalWords? finalizer))
  | .whileLoop test body _ =>
    .symbol Keyword.whileWord :: (enclosed (enclosed test.words) ++ body.words)
  | .doWhileLoop body test _ =>
    .symbol Keyword.doWord :: (body.words ++ .symbol Keyword.whileWord ::
      (enclosed (enclosed test.words) ++ [.symbol Punctuator.semicolon]))
  | .forLoop init test update body _ =>
    .symbol Keyword.forWord :: .symbol Punctuator.leftParen ::
      (ForHead.words? init ++ .symbol Punctuator.semicolon ::
        (Expression.words? test ++ .symbol Punctuator.semicolon ::
          (Expression.words? update ++ .symbol Punctuator.rightParen :: body.words)))
  | .forInLoop left right body _ =>
    .symbol Keyword.forWord :: .symbol Punctuator.leftParen ::
      (left.words ++ .symbol BinaryOperator.isIn ::
        (enclosed right.words ++ .symbol Punctuator.rightParen :: body.words))
  | .debugger _ => [.symbol Keyword.debuggerWord, .symbol Punctuator.semicolon]

/-- The word `else` and the statement after it, or nothing. -/
def Statement.elseWords? : Option Statement → List Word
  | none => []
  | some alternate => .symbol Keyword.elseWord :: alternate.words

/-- Statements one behind the other. -/
def Statement.listWords : List Statement → List Word
  | [] => []
  | statement :: statements => statement.words ++ Statement.listWords statements

end

attribute [simp] Expression.words

/-- A program as words. -/
def Program.words (program : Program) : List Word :=
  Statement.listWords program.body

/-- The program as a text, from its nodes alone. -/
def Program.canonical (program : Program) : String :=
  join program.words

end EcmaScript
