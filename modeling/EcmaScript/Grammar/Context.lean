/-!
# Surroundings of a construct

What the grammar allows at a place depends on what encloses it: strict code, the head of a `for`
statement, a `switch`, a loop, a function body, and the labels of the enclosing statements. Of the
caller's context a function body keeps strictness alone.
-/

namespace EcmaScript

/-- The enclosing constructs that matter to the grammar. -/
structure Context where
  strict : Bool := false
  /-- In the head of a `for` statement, where `in` is not an operator. -/
  withoutIn : Bool := false
  inSwitch : Bool := false
  inLoop : Bool := false
  inFunction : Bool := false
  deriving DecidableEq, Repr, Inhabited

namespace Context

/-- The context as a number, one binary digit for each field, the first lowest. -/
def bits (context : Context) : Nat :=
  [context.strict, context.withoutIn, context.inSwitch, context.inLoop, context.inFunction].foldr
    (fun flag higher => flag.toNat + 2 * higher) 0

/-- The context of a number; digits beyond the fields are ignored. -/
def ofBits (bits : Nat) : Context where
  strict := bits.testBit 0
  withoutIn := bits.testBit 1
  inSwitch := bits.testBit 2
  inLoop := bits.testBit 3
  inFunction := bits.testBit 4

/-- The context at the start of a function body. -/
def forFunctionBody (context : Context) : Context :=
  { strict := context.strict, inFunction := true }

theorem ofBits_bits (context : Context) : ofBits context.bits = context := by
  rcases context with ⟨strict, withoutIn, inSwitch, inLoop, inFunction⟩
  cases strict <;> cases withoutIn <;> cases inSwitch <;> cases inLoop <;> cases inFunction <;> rfl

end Context

/-- The labels of the statements around a place. -/
structure Labels where
  /-- The labels, the innermost first. -/
  innermostFirst : List String := []
  deriving DecidableEq, Repr, Inhabited

namespace Labels

/-- The labels from the outermost to the innermost. -/
def toList (labels : Labels) : List String :=
  labels.innermostFirst.reverse

/-- A statement around the place has the label. -/
def contains (labels : Labels) (name : String) : Bool :=
  labels.innermostFirst.contains name

/-- The labels inside a statement with one more label. -/
def push (labels : Labels) (name : String) : Labels :=
  ⟨name :: labels.innermostFirst⟩

/-- The labels outside the innermost labelled statement. -/
def pop (labels : Labels) : Labels :=
  ⟨labels.innermostFirst.tail⟩

/-- The innermost label. -/
def innermost? (labels : Labels) : Option String :=
  labels.innermostFirst.head?

@[simp] theorem pop_push (labels : Labels) (name : String) : (labels.push name).pop = labels := rfl

@[simp] theorem innermost?_push (labels : Labels) (name : String) :
    (labels.push name).innermost? = some name := rfl

@[simp] theorem toList_push (labels : Labels) (name : String) :
    (labels.push name).toList = labels.toList ++ [name] := by
  simp [toList, push]

theorem contains_push (labels : Labels) (name other : String) :
    (labels.push name).contains other = (other == name || labels.contains other) := by
  simp only [contains, push, List.contains_cons]

end Labels

end EcmaScript
