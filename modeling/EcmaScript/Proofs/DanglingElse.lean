import EcmaScript.Proofs.Shape
import Mathlib.Logic.Relation

/-!
# The `if` of an `else`

The text of a statement may end with that of another one: a loop ends with its body, and an `if`
with what is behind its `else`. All of them are followed by the same token. An `if` that has no
`else` is not followed by one, so no statement that ends with such an `if` stands in front of an
`else`, and every `else` goes to the nearest `if` that can take it.
-/

namespace EcmaScript

/-- The statement that the text of a statement ends with. -/
def Statement.trailing? : Statement → Option Statement
  | .ifElse _ _ alternate _ => alternate
  | .whileLoop _ body _ | .forLoop _ _ _ body _ | .forInLoop _ _ body _
  | .withObject _ body _ | .labelled _ body _ => some body
  | _ => none

/-- The statement between an `if` and its `else`. -/
def Statement.beforeElse? : Statement → Option Statement
  | .ifElse _ consequent (some _) _ => some consequent
  | _ => none

/-- A statement is at the end of another one, through any number of statements that end with it. -/
def Statement.Trails (last item : Statement) : Prop :=
  Relation.ReflTransGen (fun outer inner => outer.trailing? = some inner) item last

variable {scope : Scope} {tokens : List Token} {next : Token}

/-- What is behind a statement is behind the statement that it ends with. -/
theorem Reads.trailing {item inner : Statement}
    (reads : Reads scope (.statement item) tokens next) (ends : item.trailing? = some inner) :
    ∃ scope tokens, Reads scope (.statement inner) tokens next := by
  cases reads with
  | ifWith _ _ _ _ _ alternate =>
    cases ends
    exact ⟨_, _, alternate⟩
  | whileLoop _ _ _ body | forLoop _ _ _ _ _ _ _ _ body | forInLoop _ _ _ _ _ _ _ body
  | withObject _ _ _ _ body | labelled _ _ _ body =>
    cases ends
    exact ⟨_, _, body⟩
  | _ => cases ends

/-- What is behind a statement is behind all that is at the end of it. -/
theorem Reads.trails {item last : Statement} (reads : Reads scope (.statement item) tokens next)
    (trails : last.Trails item) : ∃ scope tokens, Reads scope (.statement last) tokens next := by
  induction trails with
  | refl => exact ⟨scope, tokens, reads⟩
  | tail _ ends ih =>
    obtain ⟨_, _, outer⟩ := ih
    exact outer.trailing ends

/-- An `if` without `else` takes the one that is next. -/
theorem Reads.not_else {test : Expression} {consequent : Statement} {span : Span}
    (reads : Reads scope (.statement (.ifElse test consequent none span)) tokens next) :
    next.kind ≠ .symbol Keyword.elseWord := by
  cases reads with
  | ifWithout _ _ _ _ notElse => exact notElse

/-- What stands before an `else` is read up to the `else`. -/
theorem Reads.beforeElse {item consequent : Statement}
    (reads : Reads scope (.statement item) tokens next)
    (before : item.beforeElse? = some consequent) :
    ∃ inside elseWord, Reads scope (.statement consequent) inside elseWord ∧
      elseWord.kind = .symbol Keyword.elseWord := by
  cases reads with
  | ifWith _ _ _ consequent isElse =>
    cases before
    exact ⟨_, _, consequent, isElse⟩
  | _ => cases before

section Parse

variable {source : String} {options : Options} {program : Program} {path : List Step}
  {item consequent last : Statement}

/-- Every `else` of an accepted text belongs to the nearest `if`: the statement in front of it does
not end with an `if` that has none. -/
theorem not_elseless_of_parse (accepted : parse source options = .ok program)
    (occurs : program.Occurs path (.statement item)) (before : item.beforeElse? = some consequent)
    (trails : last.Trails consequent) (test : Expression) (body : Statement) (span : Span) :
    last ≠ .ifElse test body none span := by
  rintro rfl
  obtain ⟨scope, tokens, next, reads⟩ := exists_reads_of_parse accepted occurs
    (by rintro _ _ _ _ rfl; cases before) (by rintro _ _ _ rfl; cases before)
  obtain ⟨inside, elseWord, front, isElse⟩ := reads.beforeElse before
  obtain ⟨_, _, elseless⟩ := front.trails trails
  exact elseless.not_else isElse

/-- Both an `if` and the `if` that a loop in it ends with have an `else`. -/
theorem not_elseless_of_nested :
    ∃ program item consequent last,
      parse "if (a) while (b) if (c) d; else e; else f" {} = .ok program ∧
        program.Occurs [] (.statement item) ∧ item.beforeElse? = some consequent ∧
        consequent.trailing? = some last ∧
        ∀ test body span, last ≠ .ifElse test body none span := by
  have check : ((parse "if (a) while (b) if (c) d; else e; else f" {}).toOption.bind
      fun program => program.body.head?).any
        (fun item => (item.beforeElse?.bind Statement.trailing?).isSome) = true := by
    decide +kernel
  obtain ⟨program, accepted⟩ := exists_of_toBool
    (by decide +kernel : (parse "if (a) while (b) if (c) d; else e; else f" {}).toBool = true)
  rw [accepted, Option.any_eq_true] at check
  obtain ⟨item, first, found⟩ := check
  obtain ⟨last, found⟩ := Option.isSome_iff_exists.mp found
  obtain ⟨consequent, before, ends⟩ := Option.bind_eq_some_iff.mp found
  obtain ⟨others, body⟩ : ∃ others, program.body = item :: others :=
    List.head?_eq_some_iff.mp first
  have occurs : program.Occurs [] (.statement item) := ⟨item, body ▸ List.mem_cons_self, .root⟩
  exact ⟨program, item, consequent, last, accepted, occurs, before, ends,
    not_elseless_of_parse accepted occurs before (.single ends)⟩

end Parse

end EcmaScript
