import EcmaScript.Json.Outline

/-!
# Options

The options of a parse, and how they are read from JSON: an object of named booleans, in which
unknown names do not matter, or a list of up to three booleans. An option that is not given has its
default.
-/

namespace EcmaScript

/-- Choices about how a script is read. -/
structure Options where
  /-- The whole script is strict code. -/
  strict : Bool := false
  /-- `return` may stand outside of functions. -/
  allowReturnOutsideFunction : Bool := false
  /-- A first line that begins with `#!` is passed over. -/
  allowHashbang : Bool := true
  deriving DecidableEq, Repr, Inhabited

namespace Options

/-- The names of the options. -/
def names : List String :=
  ["strict", "allowReturnOutsideFunction", "allowHashbang"]

/-- The message about options that cannot be read. -/
def invalidMessage : String := "invalid parser options"

/-- Options given by position. -/
def ofValues? : List Bool → Option Options
  | [] => some {}
  | [strict] => some { strict }
  | [strict, allowReturnOutsideFunction] => some { strict, allowReturnOutsideFunction }
  | [strict, allowReturnOutsideFunction, allowHashbang] =>
    some { strict, allowReturnOutsideFunction, allowHashbang }
  | _ => none

/-- Sets one option, if its name is known. -/
def set (options : Options) (name : String) (value : Bool) : Options :=
  match name with
  | "strict" => { options with strict := value }
  | "allowReturnOutsideFunction" => { options with allowReturnOutsideFunction := value }
  | "allowHashbang" => { options with allowHashbang := value }
  | _ => options

/-- Adds named options to others that have been read with the names that were used. A known name may
be used once and needs a boolean. -/
def ofMembers? (options : Options) (used : List String) :
    List (Option String × Json.Outline) → Option Options
  | [] => some options
  | (none, _) :: _ => none
  | (some name, value) :: members =>
    if names.contains name then
      if used.contains name then none
      else
        value.boolean?.bind fun value =>
          ofMembers? (options.set name value) (name :: used) members
    else ofMembers? options used members

/-- Options from the outline of a document. -/
def ofOutline? : Json.Outline → Option Options
  | .array items => (items.mapM Json.Outline.boolean?).bind ofValues?
  | .object members => ofMembers? {} [] members
  | _ => none

/-- Options from the text of a document. -/
def ofJson? (text : String) : Option Options :=
  (Json.Outline.read? text).bind ofOutline?

end Options

end EcmaScript
