import EcmaScript.Lexical.Reading
import EcmaScript.Source.Character

/-!
# Trivia

Between two tokens there may be white space, line terminators and comments, and nothing else. A
comment in block form may run over several lines and has to be closed; one in line form ends with
its line. All that is kept of trivia is whether a line ends in it.
-/

namespace EcmaScript

namespace Trivia

/-- What the next character belongs to. -/
inductive Region where
  | between
  | lineComment
  | blockComment (start : Nat)

/-- Reads trivia from within a region, some characters after its beginning. -/
def readFrom (region : Region) (index : Nat) (lineBreak : Bool) (text : List Char) : Reading Bool :=
  match region, text with
  | .between, '/' :: '/' :: rest => readFrom .lineComment (index + 2) lineBreak rest
  | .between, '/' :: '*' :: rest => readFrom (.blockComment index) (index + 2) lineBreak rest
  | .between, char :: rest =>
    if isLineTerminator char then readFrom .between (index + 1) true rest
    else if isWhiteSpace char then readFrom .between (index + 1) lineBreak rest
    else .success index lineBreak
  | .lineComment, char :: rest =>
    if isLineTerminator char then readFrom .between (index + 1) true rest
    else readFrom .lineComment (index + 1) lineBreak rest
  | .blockComment _, '*' :: '/' :: rest => readFrom .between (index + 2) lineBreak rest
  | .blockComment start, char :: rest =>
    readFrom (.blockComment start) (index + 1) (lineBreak || isLineTerminator char) rest
  | .blockComment start, [] => .failure index .unterminatedComment start
  | _, [] => .success index lineBreak

/-- Reads the trivia at the front of a text; the value is whether a line ends in it. -/
def read (text : List Char) : Reading Bool :=
  readFrom .between 0 false text

/-- Trivia is part of the text. -/
theorem length_readFrom_le (region : Region) (index : Nat) (lineBreak : Bool) (text : List Char) :
    (readFrom region index lineBreak text).length ≤ index + text.length := by
  fun_induction readFrom region index lineBreak text <;>
    simp_all [Reading.length] <;> omega

end Trivia

end EcmaScript
