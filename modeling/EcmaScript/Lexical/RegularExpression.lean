import EcmaScript.Lexical.Reading
import EcmaScript.Pattern.Check
import EcmaScript.Source.Character

/-!
# Regular expression literals

Whether a slash divides or begins a regular expression depends on the grammar, so a slash is read as
an operator first and re-read when an expression must begin there. The pattern runs up to the next
slash on the same line that is neither escaped nor in a class, and the identifier part characters
after that slash are the flags. Flags must be known and distinct, and the pattern well formed.
-/

namespace EcmaScript

namespace RegularExpression

/-- The number of characters of a pattern and of the slash after it. What has been read so far is
given, and whether a class is open. A place in a faulty literal is always its beginning. -/
def closingSlash (isInClass : Bool) (index : Nat) (text : List Char) : Reading Unit :=
  match text with
  | [] => .failure index .unterminatedRegularExpression 0
  | ['\\'] => .failure (index + 1) .unterminatedRegularExpression 0
  | '\\' :: char :: rest =>
    if isLineTerminator char then .failure (index + 1) .unterminatedRegularExpression 0
    else closingSlash isInClass (index + 2) rest
  | char :: rest =>
    if isLineTerminator char then .failure index .unterminatedRegularExpression 0
    else if char == '/' && !isInClass then .success (index + 1) ()
    else closingSlash (char == '[' || (isInClass && char != ']')) (index + 1) rest

/-- The flags that a literal may have. -/
def knownFlags : List Char := ['d', 'g', 'i', 'm', 's', 'u', 'y']

/-- Flags that are known and different from each other. -/
def areValidFlags : List Char → Bool
  | [] => true
  | flag :: others => knownFlags.contains flag && !others.contains flag && areValidFlags others

/-- What is wrong with the parts of a literal, the flags first. -/
def fault? (pattern flags : String) : Option Cause :=
  if !areValidFlags flags.toList then some .invalidRegularExpressionFlags
  else
    match Pattern.check (flags.toList.contains 'u') pattern with
    | .ok () => none
    | .error fault => some (.invalidPattern pattern fault.reason)

/-- Reads the rest of a literal after its slash, or after `/=` when the pattern begins with an
equals sign. The first characters of the pattern, which have been read already, are given. -/
def read (front : List Char) (text : List Char) : Reading Lexeme :=
  match closingSlash false 0 text with
  | .failure length cause place => .failure length cause place
  | .success length () =>
    let pattern := String.ofList (front ++ text.take (length - 1))
    let flags := String.ofList ((text.drop length).takeWhile isIdentifierPart)
    let length := length + flags.length
    match fault? pattern flags with
    | some cause => .failure length cause 0
    | none => .success length (.regularExpression pattern flags)

theorem length_closingSlash_le (isInClass : Bool) (index : Nat) (text : List Char) :
    (closingSlash isInClass index text).length ≤ index + text.length := by
  fun_induction closingSlash isInClass index text <;>
    simp_all [Reading.length] <;> omega

theorem length_read_le (front text : List Char) : (read front text).length ≤ text.length := by
  have slash := length_closingSlash_le false 0 text
  unfold read
  split
  · rename_i equal
    simpa [equal, Reading.length] using slash
  · rename_i length equal
    simp only [equal, Reading.length] at slash
    have flags := (List.takeWhile_sublist isIdentifierPart (l := text.drop length)).length_le
    simp only [List.length_drop] at flags
    dsimp only
    split <;> simp only [Reading.length, String.length_ofList] <;> omega

end RegularExpression

end EcmaScript
