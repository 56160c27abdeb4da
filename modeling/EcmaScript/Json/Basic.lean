import EcmaScript.Number.Decimal

/-!
# JSON documents

A document is a tree of objects, arrays and plain values. Objects keep the order of their fields.
Whole numbers are natural numbers; other numbers are binary64 numbers, of which infinity has no JSON
form and is written as null. `Json.text` writes a document without spaces and escapes only what must
be escaped.
-/

namespace EcmaScript

/-- A JSON document. -/
inductive Json where
  | null
  | boolean (value : Bool)
  | natural (value : Nat)
  | number (value : Binary64)
  | string (value : String)
  | array (items : List Json)
  | object (fields : List (String × Json))

namespace Json

instance : Inhabited Json := ⟨null⟩

/-- An optional document; one that is absent is null. -/
def ofOption : Option Json → Json
  | some document => document
  | none => .null

/-- A control character in the form of four hexadecimal digits. -/
def hexadecimalEscape (char : Char) : List Char :=
  let digits := Nat.toDigits 16 char.toNat
  '\\' :: 'u' :: List.replicate (4 - digits.length) '0' ++ digits

/-- A character inside quotes. -/
def escaped (char : Char) : List Char :=
  match char with
  | '"' => ['\\', '"']
  | '\\' => ['\\', '\\']
  | '\x08' => ['\\', 'b']
  | '\x0c' => ['\\', 'f']
  | '\n' => ['\\', 'n']
  | '\r' => ['\\', 'r']
  | '\t' => ['\\', 't']
  | _ => if char < ' ' then hexadecimalEscape char else [char]

/-- A string in quotes. -/
def quoted (value : String) : String :=
  String.ofList ('"' :: value.toList.flatMap escaped ++ ['"'])

mutual

/-- The text of a document. -/
def text : Json → String
  | .null => "null"
  | .boolean true => "true"
  | .boolean false => "false"
  | .natural value => Nat.repr value
  | .number value => if value.isFinite then value.text else "null"
  | .string value => quoted value
  | .array [] => "[]"
  | .array (item :: items) => "[" ++ item.text ++ itemsText items ++ "]"
  | .object [] => "\x7b\x7d"
  | .object ((name, value) :: fields) =>
    "\x7b" ++ quoted name ++ ":" ++ value.text ++ fieldsText fields ++ "\x7d"

/-- The text of the items after the first. -/
def itemsText : List Json → String
  | [] => ""
  | item :: items => "," ++ item.text ++ itemsText items

/-- The text of the fields after the first. -/
def fieldsText : List (String × Json) → String
  | [] => ""
  | (name, value) :: fields => "," ++ quoted name ++ ":" ++ value.text ++ fieldsText fields

end

end Json

end EcmaScript
