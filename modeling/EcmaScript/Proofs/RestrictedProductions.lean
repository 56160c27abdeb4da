import EcmaScript.Proofs.Followers
import EcmaScript.Proofs.Jumps
import EcmaScript.Proofs.Partition
import EcmaScript.Proofs.SemicolonInsertion

/-!
# Ends of lines between tokens

The tokens of an accepted text come one after the other from its start, and the flag of a token
tells whether a line ends in front of it, in a comment or not. Some rules ask for that flag: of an
operator behind its operand, of the token after `return`, `throw`, `break` and `continue`, and of
the token after a statement that has no semicolon. So it can be told from the text which of these
statements have an argument or a label, and where a semicolon may be left out.
-/

namespace EcmaScript

/-! ### The tokens of a text -/

/-- The tokens that are passed up to the end of a text are those that the scanner reads. -/
theorem Point.Passes.runs {before after : Point} {tokens : List Token} {cursor : Cursor}
    (passes : before.Passes tokens after)
    (scanned : Scan.token cursor = .ok before.lookahead before.cursor)
    (ended : after.lookahead.lexeme = .endOfFile) :
    Scan.Runs cursor (tokens ++ [after.lookahead]) := by
  induction passes generalizing cursor with
  | none => exact .ended scanned ended
  | advance step _ ih =>
    obtain ⟨inside, next, behind, found, rfl⟩ := step
    exact .next scanned inside (ih found ended)
  | reread again step _ ih =>
    obtain ⟨front, token, further, slash, rescanned, rfl⟩ := again
    obtain ⟨_, next, behind, found, rfl⟩ := step
    exact .reread scanned slash rescanned (ih found ended)

namespace Token

variable {source : String}

/-- A line ends between two tokens, in a comment or not. -/
def LineBetween (source : String) (left right : Token) : Prop :=
  ∃ char ∈ right.gap source left.closing, isLineTerminator char = true

/-- A semicolon may be left out between two tokens. -/
def AllowsInsertion (source : String) (left right : Token) : Prop :=
  LineBetween source left right ∨ right.kind = .symbol Punctuator.rightBrace ∨
    right.kind = .endOfFile

/-- The flags of tokens tell whether lines end between them. -/
def HasLines (source : String) (tokens : List Token) : Prop :=
  ∀ left right, [left, right] <:+: tokens →
    (right.flags.lineBreak = true ↔ LineBetween source left right)

theorem Tiles.hasLines {before : Boundary} {tokens : List Token}
    (tiles : Tiles source before tokens) : HasLines source tokens := by
  rintro left right ⟨front, back, rfl⟩
  have split : front ++ [left, right] ++ back = (front ++ [left]) ++ right :: back := by simp
  have follows := tiles.follows split
  have closing : lastClosing before (front ++ [left]) = left.closing := by simp [lastClosing]
  rw [closing] at follows
  exact follows.lineBreak

theorem HasLines.of_suffix {left right : Token} {tokens behind : List Token}
    (lines : HasLines source tokens) (place : left :: right :: behind <:+ tokens) :
    right.flags.lineBreak = true ↔ LineBetween source left right := by
  obtain ⟨front, rfl⟩ := place
  exact lines left right ⟨front, behind, by simp⟩

namespace Opens

variable {follower next last : Token} {tokens behind : List Token}

/-- What holds neither of slashes nor of regular expressions holds of a token just when it holds of
the first one that the token opens. -/
theorem test_kind (opens : follower.Opens (next :: behind) last) (test : Kind → Bool)
    (pattern : test .regularExpressionLiteral = false)
    (divide : test (.symbol BinaryOperator.divide) = false)
    (assign : test (.symbol AssignmentOperator.divideAssign) = false) :
    test next.kind = test follower.kind := by
  rcases opens with rfl | ⟨⟨_, _, isPattern⟩, isSlash, _⟩
  · rfl
  · unfold Scan.slash? at isSlash
    unfold Token.kind
    rw [isPattern]
    split at isSlash
    · rename_i slash
      rw [slash]
      exact pattern.trans divide.symm
    · rename_i slash
      rw [slash]
      exact pattern.trans assign.symm
    · cases isSlash

theorem endsReturn (opens : follower.Opens (next :: behind) last) :
    Grammar.endsReturn next = Grammar.endsReturn follower := by
  have mark := opens.test_kind (· == .symbol Punctuator.semicolon) rfl rfl rfl
  have brace := opens.test_kind (· == .symbol Punctuator.rightBrace) rfl rfl rfl
  have ended := opens.test_kind (· == .endOfFile) rfl rfl rfl
  rw [Grammar.endsReturn, Grammar.endsReturn, opens.lineBreak, mark, brace, ended]

/-- Where a semicolon may be inserted before a token, it may be inserted before the first one that
the token opens. -/
theorem allowsInsertion {left : Token} (opens : follower.Opens (next :: behind) last)
    (line : next.flags.lineBreak = true ↔ LineBetween source left next)
    (ends : follower.flags.lineBreak = true ∨ follower.kind = .symbol Punctuator.rightBrace ∨
      follower.kind = .endOfFile) : AllowsInsertion source left next := by
  rcases ends with onNext | brace | ended
  · rw [← opens.lineBreak] at onNext
    exact .inl (line.mp onNext)
  · have same := opens.test_kind (· == .symbol Punctuator.rightBrace) rfl rfl rfl
    rw [brace] at same
    exact .inr (.inl (by simpa using same))
  · have same := opens.test_kind (· == .endOfFile) rfl rfl rfl
    rw [ended] at same
    exact .inr (.inr (by simpa using same))

end Opens

theorem endsReturn_iff {token left : Token}
    (line : token.flags.lineBreak = true ↔ LineBetween source left token) :
    Grammar.endsReturn token = true ↔
      token.kind = .symbol Punctuator.semicolon ∨ AllowsInsertion source left token := by
  simp only [Grammar.endsReturn, AllowsInsertion, ← line, Bool.or_eq_true, beq_iff_eq]
  tauto

end Token

/-- A node is read in front of the token that is behind it in the text, which may be the end. -/
theorem Node.IsReadAmong.exists_behind {node : Node} {tokens : List Token} {last : Token}
    (among : node.IsReadAmong tokens last) :
    ∃ scope front piece follower next behind,
      tokens ++ [last] = front ++ (piece ++ next :: behind) ∧
        node.IsRead scope piece follower ∧ follower.Opens (next :: behind) last := by
  obtain ⟨scope, front, piece, back, follower, rfl, read, opens⟩ := among
  obtain ⟨next, behind, same⟩ := List.exists_cons_of_ne_nil
    (List.append_ne_nil_of_right_ne_nil back (List.cons_ne_nil last []))
  refine ⟨scope, front, piece, follower, next, behind, ?_, read, ?_⟩
  · rw [List.append_assoc, List.append_assoc, same]
  · rw [← same]
    exact opens.append (.self last [] last)

/-- A node begins with a word, and whatever opens the tokens that it has behind the word opens those
of the text behind the word. -/
theorem Node.IsReadAmong.exists_word {node : Node} {tokens : List Token} {last : Token}
    (among : node.IsReadAmong tokens last) :
    ∃ scope word inside follower next behind,
      node.IsRead scope (word :: inside) follower ∧ node.span.start = word.span.start ∧
        word :: next :: behind <:+ tokens ++ [last] ∧ inside <+: next :: behind ∧
        ∀ opening : Token, opening.Opens inside follower → opening.Opens (next :: behind) last := by
  obtain ⟨scope, front, piece, follower, next, behind, whole, read, opens⟩ := among.exists_behind
  obtain ⟨word, inside, rfl⟩ := List.exists_cons_of_ne_nil read.ne_nil
  -- The node may be no more than the word, and then what is next in the text is behind the node.
  obtain ⟨next, behind, same⟩ := List.exists_cons_of_ne_nil
    (List.append_ne_nil_of_right_ne_nil inside (List.cons_ne_nil next behind))
  refine ⟨scope, word, inside, follower, next, behind, read, ?_, ⟨front, ?_⟩, ⟨_, same⟩, ?_⟩
  · rw [read.span]
    rfl
  · rw [whole, ← same, List.cons_append]
  · intro opening inner
    rw [← same]
    exact inner.append opens

/-! ### Parts of statements -/

/-- Tokens are those of an expression, with parentheses around it or not. -/
inductive Expression.Fills (value : Expression) : List Token → Prop where
  | bare {tokens : List Token} : tokens ≠ [] → value.span = Token.cover tokens →
      Fills value tokens
  | parens {opening closing : Token} {tokens : List Token} :
      opening.kind = .symbol Punctuator.leftParen → Fills value tokens →
      closing.kind = .symbol Punctuator.rightParen →
      Fills value (opening :: (tokens ++ [closing]))

/-- The word and the label of a jump to a statement around it. -/
def Statement.jump? : Statement → Option (Keyword × Option Identifier)
  | .breakTo label _ => some (.breakWord, label)
  | .continueTo label _ => some (.continueWord, label)
  | _ => none

section Parts

variable {scope : Scope} {tokens : List Token} {next : Token}

theorem Reads.fills {level : Level} {value : Expression}
    (reads : Reads scope (.fits level value) tokens next) : value.Fills tokens := by
  generalize same : Phrase.fits level value = phrase at reads
  induction reads generalizing level with
  | made made =>
    cases same
    exact .bare (made.ne_nil rfl) made.span_makes
  | parenthesized opening _ closing ih =>
    cases same
    exact .parens opening (ih rfl) closing
  | head _ _ ih | operand _ ih | single _ _ ih | operators _ ih | alone _ ih =>
    cases same
    exact ih rfl
  | _ => cases same

theorem Scope.HasJumpLabel.exists_opens {label : Option Identifier}
    {labelTokens ending : List Token} {follower : Token}
    (hasLabel : scope.HasJumpLabel label labelTokens follower)
    (ends : follower.Terminates ending next) :
    ∃ opening : Token, opening.Opens (labelTokens ++ ending) next ∧
      (label.isSome = true ↔ opening.kind = .identifier ∧ opening.flags.lineBreak = false) ∧
      ∀ name ∈ label, opening.lexeme = .identifier name.name ∧ name.span = opening.span := by
  cases hasLabel with
  | none missing =>
    refine ⟨follower, ends.opens, ?_, by simp⟩
    rcases missing with other | onNext
    · simp [other]
    · simp [onNext]
  | @some token _ label refers sameLine _ =>
    refine ⟨token, .self .., ?_, ?_⟩
    · simp [Token.kind, refers.1, Lexeme.kind, sameLine]
    · rintro name ⟨⟩
      exact ⟨refers.1, refers.2.1⟩

namespace Node.IsRead

/-- The operand of an operator behind it is in front of the operator, on the same line. -/
theorem updateAfter {operator : UpdateOperator} {target : Expression} {span : Span}
    (read : (Node.expression (.update operator .after target span)).IsRead scope tokens next) :
    ∃ front last mark, tokens = front ++ [last, mark] ∧ target.Fills (front ++ [last]) ∧
      mark.kind = .symbol operator ∧ mark.flags.lineBreak = false := by
  obtain ⟨level, reads⟩ := read
  cases reads with
  | updateAfter target isMark sameLine =>
    obtain ⟨front, last, rfl⟩ := (List.eq_nil_or_concat' _).resolve_left (target.ne_nil rfl)
    exact ⟨front, last, _, List.append_assoc .., target.fills,
      Grammar.kind_of_updateOperator? isMark, sameLine⟩

/-- A statement that could have a semicolon behind it ends with the semicolon, or where it may be
left out. -/
theorem terminated {item : Statement} (read : (Node.statement item).IsRead scope tokens next)
    (terminated : item.isTerminated = true) :
    ∃ front last, tokens = front ++ [last] ∧
      (last.kind = .symbol Punctuator.semicolon ∨ next.flags.lineBreak = true ∨
        next.kind = .symbol Punctuator.rightBrace ∨ next.kind = .endOfFile) := by
  obtain ⟨front, last, same⟩ := (List.eq_nil_or_concat' tokens).resolve_left read.ne_nil
  have ended : ∀ {item}, Reads scope (.statement item) tokens next → item.isTerminated = true →
      last.kind = .symbol Punctuator.semicolon ∨ next.flags.lineBreak = true ∨
        next.kind = .symbol Punctuator.rightBrace ∨ next.kind = .endOfFile := by
    intro item reads terminated
    obtain ⟨others, follower, ending, whole, _, ends⟩ := reads.terminated terminated
    cases ends with
    | semicolon mark =>
      obtain ⟨_, isLast⟩ := List.append_inj' (same.symm.trans whole) rfl
      cases isLast
      exact .inl mark
    | inserted _ allowed => exact .inr allowed
  refine ⟨front, last, same, ?_⟩
  rcases read with reads | reads | ⟨_, _, _, rfl, reads⟩
  · exact ended reads terminated
  · cases reads with
    | functionDeclaration => cases terminated
    | item _ _ reads => exact ended reads terminated
  · cases reads with
    | directive _ _ reads => exact ended reads rfl

variable {word : Token} {inside : List Token}

/-- A `return` has no argument just when it ends in front of the next token. -/
theorem returnValue {argument : Option Expression} {span : Span}
    (read : (Node.statement (.returnValue argument span)).IsRead scope (word :: inside) next) :
    word.kind = .symbol Keyword.returnWord ∧ ∃ opening : Token, opening.Opens inside next ∧
      (argument = none ↔ Grammar.endsReturn opening = true) ∧
      ∀ value ∈ argument, ∃ piece, piece <+: inside ∧ value.Fills piece := by
  cases read.reads_statement nofun nofun with
  | returnNothing isWord _ isEnd ends => exact ⟨isWord, _, ends.opens, by simp [isEnd], by simp⟩
  | returnValue isWord _ opens goesOn value ends =>
    refine ⟨isWord, _, opens.append ends.opens, by simp [goesOn], ?_⟩
    rintro _ ⟨⟩
    exact ⟨_, List.prefix_append _ _, value.fills⟩

/-- The argument of a `throw` begins on the line of the word. -/
theorem throwValue {argument : Expression} {span : Span}
    (read : (Node.statement (.throwValue argument span)).IsRead scope (word :: inside) next) :
    word.kind = .symbol Keyword.throwWord ∧ ∃ opening : Token, opening.Opens inside next ∧
      opening.flags.lineBreak = false ∧ ∃ piece, piece <+: inside ∧ argument.Fills piece := by
  cases read.reads_statement nofun nofun with
  | throwValue isWord opens sameLine value ends =>
    exact ⟨isWord, _, opens.append ends.opens, sameLine, _, List.prefix_append _ _, value.fills⟩

/-- A jump has a label just when a name is next on the line of its word. -/
theorem jump {item : Statement} {keyword : Keyword} {label : Option Identifier}
    (read : (Node.statement item).IsRead scope (word :: inside) next)
    (isJump : item.jump? = some (keyword, label)) :
    word.kind = .symbol keyword ∧ ∃ opening : Token, opening.Opens inside next ∧
      (label.isSome = true ↔ opening.kind = .identifier ∧ opening.flags.lineBreak = false) ∧
      ∀ name ∈ label, opening.lexeme = .identifier name.name ∧ name.span = opening.span := by
  cases item with
  | breakTo =>
    cases isJump
    cases read.reads_statement nofun nofun with
    | breakTo isWord _ hasLabel ends => exact ⟨isWord, hasLabel.exists_opens ends⟩
  | continueTo =>
    cases isJump
    cases read.reads_statement nofun nofun with
    | continueTo isWord _ hasLabel ends => exact ⟨isWord, hasLabel.exists_opens ends⟩
  | _ => cases isJump

end Node.IsRead

end Parts

/-- How the statements of a program depend on the lines of its text, told by the tokens of the text
up to its end. -/
structure Program.HeedsLines (source : String) (program : Program) (tokens : List Token) :
    Prop where
  /-- The tokens are those that are read in the text, behind a hashbang line or from the start. -/
  runs : Scan.Runs (.atStart source) tokens ∨ Scan.Runs (Cursor.atStart source).passHashbang tokens
  /-- The operand of an operator behind it, with its parentheses, ends on the line of the operator.
  -/
  updates : ∀ path operator target span,
    program.Occurs path (.expression (.update operator .after target span)) →
    ∃ front last mark, front ++ [last, mark] <:+: tokens ∧
      span = Token.cover (front ++ [last, mark]) ∧ target.Fills (front ++ [last]) ∧
      mark.kind = .symbol operator ∧ ¬last.LineBetween source mark
  /-- A `return` has no argument just when the next token ends it, and otherwise has the argument
  that begins there. -/
  returns : ∀ path argument span, program.Occurs path (.statement (.returnValue argument span)) →
    ∃ word next behind, word :: next :: behind <:+ tokens ∧ span.start = word.span.start ∧
      word.kind = .symbol Keyword.returnWord ∧
      (argument = none ↔
        next.kind = .symbol Punctuator.semicolon ∨ word.AllowsInsertion source next) ∧
      ∀ value ∈ argument, ∃ piece, piece <+: next :: behind ∧ value.Fills piece
  /-- The argument of a `throw` begins on the line of the word. -/
  throws : ∀ path argument span, program.Occurs path (.statement (.throwValue argument span)) →
    ∃ word next behind, word :: next :: behind <:+ tokens ∧ span.start = word.span.start ∧
      word.kind = .symbol Keyword.throwWord ∧ ¬word.LineBetween source next ∧
      ∃ piece, piece <+: next :: behind ∧ argument.Fills piece
  /-- A jump has a label just when a name is next on the line of its word, and it has this name. -/
  jumps : ∀ path item word label, program.Occurs path (.statement item) →
    item.jump? = some (word, label) →
    ∃ token next behind, token :: next :: behind <:+ tokens ∧ item.span.start = token.span.start ∧
      token.kind = .symbol word ∧
      (label.isSome = true ↔ next.kind = .identifier ∧ ¬token.LineBetween source next) ∧
      ∀ name ∈ label, next.lexeme = .identifier name.name ∧ name.span = next.span
  /-- A statement that could have a semicolon behind it ends with one, or in front of a token that
  allows to leave it out. -/
  ends : ∀ path item, program.Occurs path (.statement item) → item.isTerminated = true →
    ∃ front last next, front ++ [last, next] <:+: tokens ∧
      item.span = Token.cover (front ++ [last]) ∧
      (last.kind = .symbol Punctuator.semicolon ∨ last.AllowsInsertion source next)

namespace State

variable {source : String} {options : Options} {program : Program} {after : State}

/-- All tokens of an accepted text are those that are read in it. -/
theorem runs_of_parse (accepted : (ofSource source options).parse = (.ok program, after)) :
    Scan.Runs (.atStart source) (after.consumed ++ [after.lookahead]) ∨
      Scan.Runs (Cursor.atStart source).passHashbang (after.consumed ++ [after.lookahead]) := by
  obtain ⟨first, begins, isScript⟩ := isScript_of_parse accepted
  have ended := Grammar.lexeme_of_ended isScript.ended
  exact begins.scanned.imp (isScript.passes.runs · ended) (isScript.passes.runs · ended)

/-- The tokens of an accepted text tell where its lines end. -/
theorem hasLines_of_parse (accepted : (ofSource source options).parse = (.ok program, after)) :
    Token.HasLines source (after.consumed ++ [after.lookahead]) := by
  have start : (Cursor.atStart source).IsIn source := .atStart source
  rcases runs_of_parse accepted with runs | runs
  · exact (runs.tiles start).hasLines
  · exact (runs.tiles start.passHashbang).hasLines

/-- Every node of an accepted text is read from a piece of its tokens. -/
theorem isReadAmong_of_parse (accepted : (ofSource source options).parse = (.ok program, after))
    {path : List Step} {node : Node} (occurs : program.Occurs path node) :
    node.IsReadAmong after.consumed after.lookahead := by
  obtain ⟨statement, member, occurs⟩ := occurs
  exact (reads_of_parse accepted).locates node ⟨_, List.mem_map_of_mem member, path, occurs⟩

/-- In an accepted text, no line ends where the grammar forbids it, the tokens behind `return`,
`break` and `continue` tell what these have, and semicolons are left out only where they may be. -/
theorem heedsLines_of_parse (accepted : (ofSource source options).parse = (.ok program, after)) :
    program.HeedsLines source (after.consumed ++ [after.lookahead]) := by
  have lines := hasLines_of_parse accepted
  constructor
  · exact runs_of_parse accepted
  · intro path operator target span occurs
    obtain ⟨scope, outer, piece, follower, next, behind, whole, read, _⟩ :=
      (isReadAmong_of_parse accepted occurs).exists_behind
    obtain ⟨front, last, mark, rfl, fills, isMark, sameLine⟩ := read.updateAfter
    refine ⟨front, last, mark, ⟨outer, next :: behind, by simp [whole]⟩, read.span, fills, isMark,
      ?_⟩
    rw [← lines last mark ⟨outer ++ front, next :: behind, by simp [whole]⟩]
    simp [sameLine]
  · intro path argument span occurs
    obtain ⟨scope, word, inside, follower, next, behind, read, start, place, within, opens⟩ :=
      (isReadAmong_of_parse accepted occurs).exists_word
    obtain ⟨isWord, opening, first, isNone, fills⟩ := read.returnValue
    refine ⟨word, next, behind, place, start, isWord, ?_, ?_⟩
    · rw [isNone, ← (opens opening first).endsReturn]
      exact Token.endsReturn_iff (lines.of_suffix place)
    · intro value isValue
      obtain ⟨piece, front, fills⟩ := fills value isValue
      exact ⟨piece, front.trans within, fills⟩
  · intro path argument span occurs
    obtain ⟨scope, word, inside, follower, next, behind, read, start, place, within, opens⟩ :=
      (isReadAmong_of_parse accepted occurs).exists_word
    obtain ⟨isWord, opening, first, sameLine, piece, front, fills⟩ := read.throwValue
    refine ⟨word, next, behind, place, start, isWord, ?_, piece,
      front.trans within, fills⟩
    rw [← lines.of_suffix place, (opens opening first).lineBreak, sameLine]
    exact Bool.false_ne_true
  · intro path item keyword label occurs isJump
    obtain ⟨scope, word, inside, follower, next, behind, read, start, place, within, opens⟩ :=
      (isReadAmong_of_parse accepted occurs).exists_word
    obtain ⟨isWord, opening, first, isSome, isName⟩ := read.jump isJump
    have opens := opens opening first
    have kind := opens.test_kind (· == .identifier) rfl rfl rfl
    refine ⟨word, next, behind, place, start, isWord, ?_, ?_⟩
    · rw [isSome, ← lines.of_suffix place, opens.lineBreak, Bool.not_eq_true, ← beq_iff_eq, ← kind,
        beq_iff_eq]
    · intro name isLabel
      obtain ⟨sameName, span⟩ := isName name isLabel
      rw [opens.eq_first (by simp [Token.kind, sameName, Lexeme.kind])]
      exact ⟨sameName, span⟩
  · intro path item occurs terminated
    obtain ⟨scope, outer, piece, follower, next, behind, whole, read, opens⟩ :=
      (isReadAmong_of_parse accepted occurs).exists_behind
    obtain ⟨front, last, rfl, ends⟩ := read.terminated terminated
    refine ⟨front, last, next, ⟨outer, behind, by simp [whole]⟩, read.span, ends.imp id ?_⟩
    exact opens.allowsInsertion (lines last next ⟨outer ++ front, behind, by simp [whole]⟩)

/-- Lines end in a comment and behind one, so that there are three statements without a semicolon.
-/
theorem heedsLines_of_comments :
    ∃ program after,
      (ofSource "(a)++ /*\n*/ return // b\nc" { allowReturnOutsideFunction := true }).parse =
        (.ok program, after) ∧
      program.body.length = 3 ∧
      program.HeedsLines "(a)++ /*\n*/ return // b\nc" (after.consumed ++ [after.lookahead]) := by
  have computed :
      (EcmaScript.parse "(a)++ /*\n*/ return // b\nc"
        { allowReturnOutsideFunction := true }).toOption.any
          (fun program => program.body.length == 3) = true := by decide +kernel
  generalize found : EcmaScript.parse _ _ = result at computed
  cases result with
  | error => contradiction
  | ok program =>
    obtain ⟨after, accepted⟩ := exists_of_parse found
    have length : program.body.length = 3 := by simpa [Except.toOption] using computed
    exact ⟨program, after, accepted, length, heedsLines_of_parse accepted⟩

end State

end EcmaScript
