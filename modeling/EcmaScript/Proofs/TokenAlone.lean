import EcmaScript.Proofs.LexerPositions
import EcmaScript.Proofs.Sessions
import EcmaScript.Proofs.Spans
import EcmaScript.Proofs.WordText

/-!
# Tokens by themselves

A token is what its own text makes it. Where it stands in a source text, and what comes before and
behind it there, is of no account: a lexer on nothing but the text of the token reads the token
again, and then the end of the text. All that is lost is whether a line ended in front of it. So the
text that is kept with a literal in a tree is enough to find its value again.
-/

namespace EcmaScript

/-! ### Lexers -/

namespace Lexer

variable {lexer : Lexer}

/-- The latest slash was scanned as such. -/
def HasScannedSlash (lexer : Lexer) : Prop :=
  ∀ pair ∈ lexer.slash?, (∃ cursor, Scan.token cursor = .ok pair.1 pair.2) ∧
    (Scan.slash? pair.1.lexeme).isSome = true

theorem HasScannedSlash.next (scannedSlash : lexer.HasScannedSlash) :
    lexer.next.1.HasScannedSlash ∧ ∀ token ∈ lexer.next.2, Scan.Yields token := by
  unfold Lexer.next
  split
  · rename_i token cursor scanned
    refine ⟨?_, ?_⟩
    · intro pair latest
      dsimp only at latest
      split at latest
      · rename_i isSlash
        cases latest
        exact ⟨⟨_, scanned⟩, isSlash⟩
      · exact scannedSlash pair latest
    · rintro _ ⟨⟩
      exact .scanned scanned
  · exact ⟨scannedSlash, by simp⟩

theorem HasScannedSlash.reread (scannedSlash : lexer.HasScannedSlash) :
    lexer.reread.1.HasScannedSlash ∧ ∀ token ∈ lexer.reread.2, Scan.Yields token := by
  unfold Lexer.reread
  split
  · exact ⟨scannedSlash, by simp⟩
  · rename_i slash behind latest
    obtain ⟨⟨cursor, scanned⟩, isSlash⟩ := scannedSlash _ latest
    obtain ⟨front, known⟩ := Option.isSome_iff_exists.mp isSlash
    split
    · rename_i token after again
      refine ⟨scannedSlash, ?_⟩
      rintro _ ⟨⟩
      rw [known, Option.getD_some] at again
      exact .reread scanned known again
    · exact ⟨scannedSlash, by simp⟩

theorem HasScannedSlash.perform (scannedSlash : lexer.HasScannedSlash) (action : Action) :
    (lexer.perform action).1.HasScannedSlash ∧
      ∀ token ∈ (lexer.perform action).2, Scan.Yields token := by
  cases action with
  | next => exact scannedSlash.next
  | reread => exact scannedSlash.reread
  | passHashbang => exact ⟨scannedSlash, by simp [Lexer.perform]⟩

/-- All that a lexer reads comes from a cursor. -/
theorem HasScannedSlash.run (scannedSlash : lexer.HasScannedSlash) (actions : List Action) :
    ∀ token ∈ (lexer.run actions).2, Scan.Yields token := by
  induction actions generalizing lexer with
  | nil => simp [Lexer.run]
  | cons action actions ih =>
    obtain ⟨between, first⟩ := scannedSlash.perform action
    intro token member
    rcases List.mem_append.mp member with now | later
    · exact first token (Option.mem_toList.mp now)
    · exact ih between token later

end Lexer

/-! ### Reading a token from its text -/

/-- The steps in which a lexeme is read: a regular expression is a slash first. -/
def Lexeme.steps (lexeme : Lexeme) : List Lexer.Action :=
  if lexeme.kind = .regularExpressionLiteral then [.next, .reread] else [.next]

/-- A token takes up a whole text, and has a lexeme and flags. -/
structure Token.IsWhole (own : Token) (lexeme : Lexeme) (flags : Flags) (text : String) :
    Prop where
  lexeme_eq : own.lexeme = lexeme
  flags_eq : own.flags = flags
  text_eq : own.text = text
  start : own.start = 0
  stop : own.stop = text.length
  place : own.span.start = .first

/-- A text by itself is read as a lexeme with some flags, and ends behind it. -/
def Lexeme.IsAlone (lexeme : Lexeme) (flags : Flags) (text : String) : Prop :=
  ∃ earlier own ending,
    ((Lexer.atStart text).run (lexeme.steps ++ [.next])).2 = earlier ++ [own, ending] ∧
      earlier.length + 1 = lexeme.steps.length ∧ own.IsWhole lexeme flags text ∧
      ending.lexeme = .endOfFile

namespace Lexer

theorem run_append (lexer : Lexer) (front back : List Action) :
    (lexer.run (front ++ back)).2 =
      (lexer.run front).2 ++ ((lexer.run front).1.run back).2 := by
  induction front generalizing lexer with
  | nil => rfl
  | cons action front ih =>
    change (lexer.perform action).2.toList ++ ((lexer.perform action).1.run (front ++ back)).2 = _
    rw [ih, ← List.append_assoc]
    rfl

/-- Behind the last character, the end of the text is found. -/
theorem run_next_of_nil {lexer : Lexer} (ended : lexer.cursor.rest = []) :
    ∃ ending, (lexer.run [.next]).2 = [ending] ∧ ending.lexeme = .endOfFile := by
  obtain ⟨ending, scanned, isEnd, _⟩ := Scan.token_of_nil ended
  refine ⟨ending, ?_, isEnd⟩
  simp [run, perform, next, scanned]

section Alone

variable {text : String} {lexeme : Lexeme} {flags : Flags} {own slash : Token}
  {behind after : Cursor}

/-- It is enough that the steps of a lexeme read it up to the end. -/
theorem isAlone_of_run {lexer : Lexer} {earlier : List Token}
    (run : (atStart text).run lexeme.steps = (lexer, earlier ++ [own]))
    (count : earlier.length + 1 = lexeme.steps.length) (whole : own.IsWhole lexeme flags text)
    (ended : lexer.cursor.rest = []) : lexeme.IsAlone flags text := by
  obtain ⟨ending, last, isEnd⟩ := run_next_of_nil ended
  refine ⟨earlier, own, ending, ?_, count, whole, isEnd⟩
  rw [run_append, run, last, List.append_assoc]
  rfl

/-- Any lexeme but a regular expression is read in one step. -/
theorem isAlone_of_token (scanned : Scan.token (.atStart text) = .ok own after)
    (plain : lexeme.kind ≠ .regularExpressionLiteral) (whole : own.IsWhole lexeme flags text)
    (ended : after.rest = []) : lexeme.IsAlone flags text := by
  have steps : lexeme.steps = [.next] := if_neg plain
  have run : (atStart text).run [.next] = ((atStart text).next.1, [] ++ [own]) := by
    simp [run, perform, next, atStart, scanned]
  refine isAlone_of_run (steps ▸ run) (by rw [steps]; rfl) whole ?_
  simp [next, atStart, scanned, ended]

/-- A regular expression is read in two steps. -/
theorem isAlone_of_regularExpression {front : List Char}
    (scanned : Scan.token (.atStart text) = .ok slash behind)
    (isSlash : Scan.slash? slash.lexeme = some front)
    (again : Scan.regularExpression slash front behind = .ok own after)
    (pattern : lexeme.kind = .regularExpressionLiteral) (whole : own.IsWhole lexeme flags text)
    (ended : after.rest = []) : lexeme.IsAlone flags text := by
  have steps : lexeme.steps = [.next, .reread] := if_pos pattern
  have run : (atStart text).run [.next, .reread] =
      (⟨after, some (slash, behind)⟩, [slash] ++ [own]) := by
    simp [run, perform, next, reread, atStart, scanned, isSlash, again]
  exact isAlone_of_run (steps ▸ run) (by rw [steps]; rfl) whole ended

end Alone

end Lexer

/-- No regular expression is read without its slash. -/
theorem Lexeme.kind_ne_of_read {text : List Char} {length : Nat} {lexeme : Lexeme} {flags : Flags}
    (read : Lexeme.read text = .success length (lexeme, flags)) :
    lexeme.kind ≠ .regularExpressionLiteral := by
  rcases cases_of_read read with ⟨rfl, _⟩ | ⟨_, rfl⟩ | ⟨_, rfl⟩ | ⟨_, rfl⟩ | ⟨_, rfl, _⟩ <;> nofun

namespace Scan

/-- A lexeme that is read from a whole text is alone in it. -/
theorem isAlone_of_read {text : String} {lexeme : Lexeme} {flags : Flags}
    (none : Trivia.read text.toList = .success 0 false)
    (read : Lexeme.read text.toList = .success text.length (lexeme, flags)) :
    lexeme.IsAlone { flags with lineBreak := false } text := by
  have here : (Cursor.atStart text).rest = text.toList ++ [] := (List.append_nil _).symm
  rw [← String.length_toList] at read
  have whole : (Cursor.atStart text).offset + text.toList.length = text.length := by
    rw [String.length_toList, Cursor.atStart, Nat.zero_add]
  exact Lexer.isAlone_of_token (token_of_lexeme here none read) (Lexeme.kind_ne_of_read read)
    ⟨rfl, rfl, String.ofList_toList, rfl, whole, rfl⟩ rfl

/-- A slash and the rest of a regular expression, which are read from a whole text, are alone in it.
-/
theorem isAlone_of_reread {text : String} {length further : Nat} {front : List Char}
    {slash expression : Lexeme} {flags : Flags}
    (none : Trivia.read text.toList = .success 0 false)
    (read : Lexeme.read text.toList = .success length (slash, flags))
    (isSlash : slash? slash = some front)
    (again : RegularExpression.read front (text.toList.drop length) = .success further expression)
    (whole : length + further = text.length) : expression.IsAlone {} text := by
  obtain ⟨first, behind, scanned, rfl, noBreak, begins, start, place, offset, rest⟩ :
      ∃ first behind, token (.atStart text) = .ok first behind ∧ first.lexeme = slash ∧
        first.flags.lineBreak = false ∧ first.text = String.ofList (text.toList.take length) ∧
        first.start = 0 ∧ first.span.start = .first ∧ behind.offset = length ∧
        behind.rest = text.toList.drop length := by
    refine ⟨_, _, token_eq_ok.mpr ⟨0, false, length, slash, flags, none, read, rfl, rfl⟩, rfl, rfl,
      rfl, rfl, rfl, ?_, rfl⟩
    have long : text.toList.length = text.length := String.length_toList
    simp only [Cursor.moveBy, Cursor.pass, Cursor.atStart, List.length_take, List.drop_zero]
    omega
  obtain ⟨pattern, marks, rfl⟩ := RegularExpression.eq_of_read again
  obtain ⟨own, reread, isWhole⟩ : ∃ own,
      regularExpression first front behind = .ok own (behind.pass further) ∧
        own.IsWhole (.regularExpression pattern marks) {} text := by
    refine ⟨_, regularExpression_eq_ok.mpr ⟨further, _, rest ▸ again, rfl, rfl⟩, rfl, ?_, ?_, start,
      ?_, place⟩
    · simp only [noBreak]
    · rw [begins, rest, ← String.ofList_append, ← List.take_add, List.take_of_length_le,
        String.ofList_toList]
      rw [String.length_toList]
      exact Nat.le_of_eq whole.symm
    · have long : text.toList.length = text.length := String.length_toList
      simp only [Cursor.pass, Cursor.moveBy, offset, rest, List.length_take, List.length_drop]
      omega
  refine Lexer.isAlone_of_regularExpression scanned isSlash reread rfl isWhole ?_
  rw [Cursor.rest_pass, rest, List.drop_drop, List.drop_eq_nil_iff, String.length_toList]
  exact Nat.le_of_eq whole.symm

/-- A token is alone in its text. -/
theorem Yields.isAlone {token : Token} (yields : Yields token) :
    token.lexeme.IsAlone { token.flags with lineBreak := false } token.text := by
  cases yields with
  | scanned scanned =>
    by_cases inside : token.lexeme = .endOfFile
    · obtain ⟨gap, lineBreak, length, lexeme, flags, _, found, rfl, rfl⟩ := token_eq_ok.mp scanned
      obtain rfl : lexeme = .endOfFile := inside
      obtain ⟨nothing, rfl⟩ := Lexeme.eq_nil_of_read found
      rw [nothing] at found
      cases found
      have none : Lexeme.IsAlone .endOfFile { ({} : Flags) with lineBreak := false } "" :=
        isAlone_of_read rfl rfl
      exact none
    · obtain ⟨flags, opens, same⟩ := opens_of_token scanned inside
      have none := opens.trivia [] nofun
      have read := opens.read [] nofun
      rw [List.append_nil] at none read
      have flags_eq : { token.flags with lineBreak := false } =
          { flags with lineBreak := false } := by rw [same]
      rw [flags_eq]
      exact isAlone_of_read none read
  | @reread cursor behind after slash _ front scanned isSlash again =>
    obtain ⟨gap, lineBreak, length, lexeme, flags, before, found, rfl, rfl⟩ :=
      token_eq_ok.mp scanned
    obtain ⟨further, expression, read, rfl, rfl⟩ := regularExpression_eq_ok.mp again
    have none := Trivia.read_drop_of_readFrom before
    rw [Nat.sub_zero] at none
    obtain ⟨opens, long, reread⟩ := rereads_of_read none found isSlash read
    have noGap := opens.trivia [] nofun
    have again := reread [] nofun
    have first := opens.read [] nofun
    rw [List.append_nil] at noGap again first
    have text : (String.ofList ((cursor.rest.drop gap).take length) ++ String.ofList
        (((cursor.rest.drop gap).drop length).take further)).toList =
          (cursor.rest.drop gap).take (length + further) := by
      rw [String.toList_append, String.toList_ofList, String.toList_ofList, List.take_add]
    rw [← text] at noGap again first long
    rw [String.length_toList] at long
    exact isAlone_of_reread noGap first isSlash again long.symm

end Scan

/-! ### All tokens -/

/-- The value and the text of a literal, which is an expression or the name of a property. -/
def Node.literal? : Node → Option (Literal × String)
  | .expression (.literal value raw _) | .key (.literal value raw _) => some (value, raw)
  | _ => none

section Parse

variable {source : String} {options : Options} {program : Program}

/-- The tokens of an accepted text come from a cursor. -/
theorem State.yields_of_parse {after : State}
    (accepted : (ofSource source options).parse = (.ok program, after)) :
    ∀ token ∈ after.consumed, Scan.Yields token := by
  obtain ⟨first, begins, isScript⟩ := isScript_of_parse accepted
  intro token member
  have scanned : ∃ cursor, Scan.token cursor = .ok first.lookahead first.cursor :=
    begins.scanned.elim (⟨_, ·⟩) (⟨_, ·⟩)
  exact (isScript.passes.yields scanned token member).1

/-- A literal is read from a token of its value. -/
theorem Node.IsRead.literal {node : Node} {scope : Scope} {tokens : List Token} {next : Token}
    {value : Literal} {raw : String} (read : node.IsRead scope tokens next)
    (isLiteral : node.literal? = some (value, raw)) :
    ∃ token ∈ tokens, token.text = raw ∧ token.lexeme.literal? = some value := by
  unfold Node.literal? at isLiteral
  split at isLiteral
  · cases isLiteral
    obtain ⟨level, reads⟩ := read
    cases reads with
    | literal found => exact ⟨_, List.mem_singleton.mpr rfl, rfl, found⟩
  · cases isLiteral
    obtain ⟨token, rfl, hasKey⟩ := read
    cases hasKey with
    | literal _ _ found => exact ⟨_, List.mem_singleton.mpr rfl, rfl, found⟩
  · cases isLiteral

/-- Each literal of an accepted text is a token of it. -/
theorem exists_token_of_literal (accepted : parse source options = .ok program) {path : List Step}
    {node : Node} (occurs : program.Occurs path node) {value : Literal} {raw : String}
    (isLiteral : node.literal? = some (value, raw)) :
    ∃ token, Scan.Yields token ∧ token.text = raw ∧ token.lexeme.literal? = some value := by
  obtain ⟨after, accepted⟩ := exists_of_parse accepted
  obtain ⟨scope, piece, next, _, _, read, part, _⟩ := State.exists_read_of_parse accepted occurs
  obtain ⟨token, member, text, found⟩ := read.literal isLiteral
  exact ⟨token, State.yields_of_parse accepted token (part.subset member), text, found⟩

end Parse

/-- Tokens depend on nothing but their text. Any token that a lexer reads in a source text, by
whatever steps, is read again from its own text: as the same lexeme, with the same flags but for the
line break, taking up the whole text, and with the end of the text behind it. So the text that is
kept with a literal of an accepted tree is read as the value of the literal. -/
theorem Lexer.isAlone_of_run_or_parse (source : String) :
    (∀ actions, ∀ token ∈ ((atStart source).run actions).2,
      token.lexeme.IsAlone { token.flags with lineBreak := false } token.text) ∧
    ∀ options program, parse source options = .ok program → ∀ path node, program.Occurs path node →
      ∀ value raw, node.literal? = some (value, raw) →
        ∃ lexeme flags, lexeme.literal? = some value ∧ Lexeme.IsAlone lexeme flags raw := by
  constructor
  · intro actions token member
    have start : (atStart source).HasScannedSlash := by simp [HasScannedSlash, atStart]
    exact (start.run actions token member).isAlone
  · intro options program accepted path node occurs value raw isLiteral
    obtain ⟨token, yields, rfl, found⟩ := exists_token_of_literal accepted occurs isLiteral
    exact ⟨token.lexeme, _, found, yields.isAlone⟩

/-- A regular expression at the beginning of a line, as a token and in a tree. -/
theorem Lexer.isAlone_of_pattern :
    (∃ token ∈ ((atStart "\n/[/]/g").run [.next, .reread]).2,
      token.lexeme = .regularExpression "[/]" "g" ∧ token.flags.lineBreak = true ∧
        token.text = "/[/]/g" ∧
        token.lexeme.IsAlone { token.flags with lineBreak := false } token.text) ∧
    ∃ program path node raw, parse "\n/[/]/g" {} = .ok program ∧ program.Occurs path node ∧
      node.literal? = some (.regularExpression "[/]" "g", raw) ∧
      ∃ lexeme flags, lexeme.literal? = some (.regularExpression "[/]" "g") ∧
        Lexeme.IsAlone lexeme flags raw := by
  obtain ⟨tokens, trees⟩ := isAlone_of_run_or_parse "\n/[/]/g"
  constructor
  · have check : ((atStart "\n/[/]/g").run [.next, .reread]).2.any (fun token =>
        token.lexeme = .regularExpression "[/]" "g" ∧ token.flags.lineBreak = true ∧
          token.text = "/[/]/g") = true := by
      decide +kernel
    obtain ⟨token, member, facts⟩ := List.any_eq_true.mp check
    obtain ⟨isPattern, lineBreak, text⟩ := of_decide_eq_true facts
    exact ⟨token, member, isPattern, lineBreak, text, tokens _ token member⟩
  · obtain ⟨program, accepted⟩ :=
      exists_of_toBool (by decide +kernel : (parse "\n/[/]/g" {}).toBool = true)
    have check : ((parse "\n/[/]/g" {}).toOption.bind fun program => program.body.head?).any
        (fun item => item.children.any fun node => node.literal?.any fun literal =>
          literal.1 = .regularExpression "[/]" "g") = true := by
      decide +kernel
    rw [accepted, Option.any_eq_true] at check
    obtain ⟨item, first, found⟩ := check
    obtain ⟨node, child, found⟩ := List.any_eq_true.mp found
    obtain ⟨⟨value, raw⟩, isLiteral, same⟩ := (Option.any_eq_true _ _).mp found
    obtain rfl := of_decide_eq_true same
    obtain ⟨others, body⟩ : ∃ others, program.body = item :: others :=
      List.head?_eq_some_iff.mp first
    have inside : node ∈ (Node.statement item).children := child
    have occurs : program.Occurs [⟨.statement item, node⟩] node :=
      ⟨item, body ▸ List.mem_cons_self, .child .root inside⟩
    exact ⟨program, _, node, raw, accepted, occurs, isLiteral,
      trees _ _ accepted _ _ occurs _ _ isLiteral⟩

end EcmaScript
