import EcmaScript.Diagnostic
import EcmaScript.Grammar.Context
import EcmaScript.Grammar.Expression
import EcmaScript.Grammar.Function
import EcmaScript.Grammar.Nonterminals
import EcmaScript.Grammar.Script
import EcmaScript.Grammar.State
import EcmaScript.Grammar.Statement
import EcmaScript.Json.Basic
import EcmaScript.Json.Outline
import EcmaScript.Lexical.Escape
import EcmaScript.Lexical.Name
import EcmaScript.Lexical.NumericLiteral
import EcmaScript.Lexical.Reading
import EcmaScript.Lexical.RegularExpression
import EcmaScript.Lexical.Scan
import EcmaScript.Lexical.StringLiteral
import EcmaScript.Lexical.Trivia
import EcmaScript.Number.Binary64
import EcmaScript.Number.Decimal
import EcmaScript.Operator
import EcmaScript.Options
import EcmaScript.Pattern.Check
import EcmaScript.Pattern.Class
import EcmaScript.Pattern.Escape
import EcmaScript.Pattern.Fault
import EcmaScript.Pattern.Group
import EcmaScript.Source.Character
import EcmaScript.Source.Cursor
import EcmaScript.Source.Position
import EcmaScript.Token.Basic
import EcmaScript.Token.Kind
import EcmaScript.Token.Symbol
import EcmaScript.Tree.Basic
import EcmaScript.Tree.Estree
import EcmaScript.Unicode.Identifier
import EcmaScript.Unicode.Property
import EcmaScript.Proofs.Node
import EcmaScript.Proofs.Rules
import EcmaScript.Proofs.Stream
import EcmaScript.Proofs.Sufficiency
import EcmaScript.Proofs.Lookahead
import EcmaScript.Proofs.SharedFront
import EcmaScript.Proofs.Recursion
import EcmaScript.Proofs.Outcome
import EcmaScript.Proofs.FunctionSoundness
import EcmaScript.Proofs.Descent
import EcmaScript.Proofs.ExpressionRestriction
import EcmaScript.Proofs.ExpressionSoundness
import EcmaScript.Proofs.Jumps
import EcmaScript.Proofs.OperatorTree
import EcmaScript.Proofs.Precedence
import EcmaScript.Proofs.StrictCode
import EcmaScript.Proofs.LiteralLines
import EcmaScript.Proofs.Trivia
import EcmaScript.Proofs.TokenText
import EcmaScript.Proofs.LexerPositions
import EcmaScript.Proofs.LexemeText
import EcmaScript.Proofs.Partition
import EcmaScript.Proofs.Leaves
import EcmaScript.Proofs.Operands
import EcmaScript.Proofs.Composition
import EcmaScript.Proofs.ExpressionBalance
import EcmaScript.Proofs.StatementBalance
import EcmaScript.Proofs.Sessions
import EcmaScript.Proofs.StringElements
import EcmaScript.Proofs.EscapedPoints
import EcmaScript.Proofs.CodeUnits
import EcmaScript.Proofs.StrictOption
import EcmaScript.Proofs.FunctionCode
import EcmaScript.Proofs.SemicolonInsertion
import EcmaScript.Proofs.Termination
import EcmaScript.Proofs.CheckedParses
import EcmaScript.Proofs.Gaps
import EcmaScript.Proofs.Shape
import EcmaScript.Proofs.Recovery
import EcmaScript.Proofs.Depth
import EcmaScript.Proofs.InOperator
import EcmaScript.Proofs.Enclosures
import EcmaScript.Proofs.ForHeads
import EcmaScript.Proofs.Attachment
import EcmaScript.Proofs.Words
import EcmaScript.Proofs.WordText
import EcmaScript.Proofs.TokenAlone
import EcmaScript.Proofs.NameSpelling
import EcmaScript.Proofs.DecimalLiterals
import EcmaScript.Proofs.RadixLiterals
import EcmaScript.Proofs.ClosingSlash
import EcmaScript.Proofs.WordStates
import EcmaScript.Proofs.WordLeaves
import EcmaScript.Proofs.CanonicalExpressions
import EcmaScript.Proofs.CanonicalOperands
import EcmaScript.Proofs.CanonicalFunctions
import EcmaScript.Proofs.CanonicalStatements
import EcmaScript.Proofs.CanonicalBodies
import EcmaScript.Proofs.Canonical
import EcmaScript.Proofs.DanglingElse
import EcmaScript.Proofs.StatementStarts
import EcmaScript.Proofs.Directives
import EcmaScript.Proofs.RestrictedProductions
import EcmaScript.Proofs.LongestMark
import EcmaScript.Proofs.StringLines
import EcmaScript.Proofs.CurrentToken
import EcmaScript.Proofs.FaultPositions
