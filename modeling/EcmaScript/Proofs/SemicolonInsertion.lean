import EcmaScript.Proofs.Neighbours
import EcmaScript.Proofs.Operands
import EcmaScript.Proofs.ScriptFollowing
import EcmaScript.Proofs.Spans

/-!
# Semicolons that are left out

A statement may end without its semicolon. When the semicolon is written right behind the last token
of the statement, the parse of the new text follows that of the old one. Up to that token the two
are level; then the second one stands in front of the semicolon until the statement ends, and from
there on the texts ahead are the same.
-/

namespace EcmaScript

/-- The text with a semicolon in front of the characters from an offset on. -/
def insertSemicolon (source : String) (offset : Nat) : String :=
  String.ofList (source.toList.take offset ++ ';' :: source.toList.drop offset)

/-- A statement of a program could have a semicolon behind it but ends with a token that is none:
the semicolon was left out there, and nothing was consumed in its place. -/
def Program.LeavesOut (program : Program) (token : Token) : Prop :=
  token.kind ≠ .symbol Punctuator.semicolon ∧
    ∃ path statement, program.Occurs path (.statement statement) ∧
      statement.isTerminated = true ∧ statement.span.stop = token.span.stop

namespace Token

/-- The last of some tokens is no semicolon. -/
def EndPlainly (tokens : List Token) : Prop :=
  ∃ last ∈ tokens.getLast?, last.kind ≠ .symbol Punctuator.semicolon

variable {token : Token} {front tokens : List Token}

namespace EndPlainly

theorem single (plain : token.kind ≠ .symbol Punctuator.semicolon) : EndPlainly [token] :=
  ⟨token, rfl, plain⟩

theorem append (ends : EndPlainly tokens) : EndPlainly (front ++ tokens) := by
  obtain ⟨last, isLast, plain⟩ := ends
  exact ⟨last, List.mem_getLast?_append_of_mem_getLast? isLast, plain⟩

theorem cons (ends : EndPlainly tokens) : EndPlainly (token :: tokens) :=
  List.singleton_append ▸ ends.append

theorem symbol {symbol : Symbol} (kind : token.kind = .symbol symbol)
    (other : symbol ≠ Punctuator.semicolon) : EndPlainly [token] :=
  single (by simpa [kind] using other)

theorem identifier {name : String} (isName : token.lexeme = .identifier name) :
    EndPlainly [token] :=
  single (by simp [Token.kind, isName, Lexeme.kind])

end EndPlainly

end Token

/-- Phrases that a semicolon comes after and is no part of. -/
def Phrase.isPlain : Phrase → Bool
  | .fits .. | .makes .. | .separated _ | .arguments _ | .property _ | .function ..
  | .functionBody _ | .declarator _ | .declarators _ | .declaration _ => true
  | _ => false

open Token in
/-- Neither expressions nor declarations end with a semicolon. -/
theorem Reads.endPlainly {scope : Scope} {phrase : Phrase} {tokens : List Token} {next : Token}
    (reads : Reads scope phrase tokens next) (plain : phrase.isPlain = true) :
    EndPlainly tokens := by
  induction reads with
  | made _ ih | head _ _ ih | operand _ ih | single _ _ ih | operators _ ih | alone _ ih
  | separatedOne _ _ ih | accessorFunction _ ih => exact ih rfl
  | this kind => exact .symbol kind (by decide)
  | reference refers => exact .identifier refers.1
  | @literal _ token _ _ found _ =>
    refine .single fun kind => ?_
    rw [Grammar.lexeme_of_kind kind] at found
    cases found
  | parenthesized _ _ kind | array _ _ kind | object _ _ kind | arguments _ _ kind
  | functionBody _ _ kind => exact ((EndPlainly.symbol kind (by decide)).append).cons
  | noArguments _ kind => exact (EndPlainly.symbol kind (by decide)).cons
  | functionExpression _ _ _ ih => exact (ih rfl).append.cons
  | newWithout _ _ _ ih => exact (ih rfl).cons
  | newWith _ _ _ _ _ ih => exact (ih rfl).append.cons
  | @dot _ _ _ token _ _ _ _ _ isName _ =>
    refine (EndPlainly.single fun kind => ?_).cons.append
    rw [kind] at isName
    cases isName
  | index _ _ _ kind => exact (EndPlainly.symbol kind (by decide)).append.cons.append
  | call _ _ _ _ ih => exact (ih rfl).append
  | updateBefore _ _ _ ih | unary _ _ _ ih => exact (ih rfl).cons
  | @updateAfter _ mark _ _ _ _ _ found =>
    refine (EndPlainly.single fun kind => ?_).append
    rw [kind] at found
    cases found
  | binary _ _ _ _ _ _ ih | assignment _ _ _ _ _ ih => exact (ih rfl).cons.append
  | conditional _ _ _ _ _ _ _ ih => exact (ih rfl).cons.append.cons.append
  | sequence _ _ _ _ ih | separatedMore _ _ _ _ ih => exact (ih rfl).cons.append
  | value _ _ _ ih => exact (ih rfl).cons.cons
  | accessor _ _ _ _ ih => exact (ih rfl).cons.cons
  | function _ _ ih => exact (ih rfl).append
  | declaration _ _ ih => exact (ih rfl).cons
  | declaratorsOne _ _ ih => exact ih rfl
  | declaratorsMore _ _ _ _ ih => exact (ih rfl).cons.append
  | declared binds => exact .identifier binds.1.1
  | initialized _ _ _ ih => exact (ih rfl).cons.cons
  | _ => cases plain

/-- What is read as a statement that could have a semicolon behind it has some tokens, the last of
which is no semicolon, and then the semicolon if that was not left out. -/
theorem Reads.terminated {scope : Scope} {item : Statement} {tokens : List Token} {next : Token}
    (reads : Reads scope (.statement item) tokens next) (terminated : item.isTerminated = true) :
    ∃ (front : List Token) (follower : Token) (ending : List Token),
      tokens = front ++ ending ∧ Token.EndPlainly front ∧ follower.Terminates ending next := by
  cases reads with
  | expressionStatement _ _ value ending => exact ⟨_, _, _, rfl, value.endPlainly rfl, ending⟩
  | variableStatement declaration ending =>
    exact ⟨_, _, _, rfl, declaration.endPlainly rfl, ending⟩
  | continueTo kind _ label ending | breakTo kind _ label ending =>
    refine ⟨_, _, _, (List.cons_append ..).symm, ?_, ending⟩
    cases label with
    | none => exact .symbol kind (by decide)
    | some refers => exact (Token.EndPlainly.identifier refers.1).cons
  | returnNothing kind _ _ ending | debugger kind ending =>
    exact ⟨_, _, _, (List.singleton_append ..).symm, .symbol kind (by decide), ending⟩
  | returnValue _ _ _ _ value ending | throwValue _ _ _ value ending =>
    exact ⟨_, _, _, (List.cons_append ..).symm, (value.endPlainly rfl).cons, ending⟩
  | _ => cases terminated

namespace Token.Between

variable {low high : Position} {tokens : List Token}

theorem lt_stop (between : Between low tokens high) {token : Token} (member : token ∈ tokens) :
    low < token.span.stop := by
  induction between with
  | nil => cases member
  | cons start wide _ ih =>
    rcases List.mem_cons.mp member with rfl | member
    · exact Position.lt_of_le_of_lt start wide
    · exact Position.lt_of_le_of_lt (Position.le_trans start (Position.le_of_lt wide)) (ih member)

/-- The end of a token tells which token it is. -/
theorem eq_of_stop {front before back behind : List Token} {left right : Token}
    (between : Between low (front ++ left :: back) high)
    (same : front ++ left :: back = before ++ right :: behind)
    (stop : left.span.stop = right.span.stop) : front = before ∧ back = behind := by
  induction front generalizing low before with
  | nil =>
    cases before with
    | nil => exact ⟨rfl, (List.cons.inj same).2⟩
    | cons other others =>
      obtain ⟨rfl, rfl⟩ := List.cons.inj same
      cases between with
      | cons _ _ rest =>
        exact absurd stop (Position.ne_of_lt (rest.lt_stop (by simp)))
  | cons first front ih =>
    cases between with
    | cons _ _ rest =>
      cases before with
      | nil =>
        obtain ⟨rfl, rfl⟩ := List.cons.inj same
        exact absurd stop (Position.ne_of_gt (rest.lt_stop (by simp)))
      | cons other others =>
        obtain ⟨rfl, others⟩ := List.cons.inj same
        obtain ⟨rfl, behind⟩ := ih rest others
        exact ⟨rfl, behind⟩

end Token.Between

/-- What is scanned was ahead of the cursor, and it takes up some of the text if the text has not
ended. -/
theorem Scan.exists_passed {cursor after : Cursor} {next : Token}
    (scanned : token cursor = .ok next after) :
    ∃ passed, cursor.rest = passed ++ after.rest ∧
      (next.lexeme ≠ .endOfFile → passed ≠ []) := by
  obtain ⟨gap, _, length, _, _, _, found, rfl, rfl⟩ := token_eq_ok.mp scanned
  refine ⟨cursor.rest.take gap ++ (cursor.rest.drop gap).take length, ?_, fun inside => ?_⟩
  · simp only [Cursor.moveBy, Cursor.rest_pass]
    rw [List.append_assoc, List.take_append_drop, List.take_append_drop]
  · obtain ⟨some, nonempty⟩ := Lexeme.pos_of_read found inside
    intro nothing
    rcases List.take_eq_nil_iff.mp (List.append_eq_nil_iff.mp nothing).2 with zero | empty
    · omega
    · exact nonempty empty

namespace Point

variable {source : String} {before after : Point}

theorem Advances.exists_passed (advances : before.Advances after) :
    ∃ passed, before.cursor.rest = passed ++ after.cursor.rest := by
  obtain ⟨_, next, cursor, scanned, rfl⟩ := advances
  obtain ⟨passed, same, _⟩ := Scan.exists_passed scanned
  exact ⟨passed, same⟩

theorem Rereads.exists_passed (rereads : before.Rereads after) :
    ∃ passed, before.cursor.rest = passed ++ after.cursor.rest := by
  obtain ⟨front, token, cursor, _, scanned, rfl⟩ := rereads
  obtain ⟨length, _, _, rfl, _⟩ := Scan.regularExpression_eq_ok.mp scanned
  refine ⟨before.cursor.rest.take length, ?_⟩
  rw [Cursor.rest_pass, List.take_append_drop]

/-- A token is consumed in front of which the text has not ended. -/
theorem Passes.inside {tokens : List Token} (passes : before.Passes tokens after)
    (nonempty : tokens ≠ []) : before.lookahead.lexeme ≠ .endOfFile := by
  cases passes with
  | none => contradiction
  | advance step => exact step.1
  | reread again =>
    intro ended
    obtain ⟨_, slash, _⟩ := again.token
    rw [ended] at slash
    cases slash

/-- What is behind a token is ahead of the cursor until the token has been consumed. -/
theorem Passes.exists_passed {tokens : List Token} (passes : before.Passes tokens after)
    (inSource : before.IsIn source) {token : Token} (member : token ∈ tokens) :
    ∃ passed, before.cursor.rest = passed ++ source.toList.drop token.stop := by
  have here : ∀ {point : Point}, point.IsIn source →
      point.cursor.rest = source.toList.drop point.lookahead.stop := fun inSource => by
    rw [inSource.cursor.rest, inSource.offset]
  induction passes with
  | none => cases member
  | advance step _ ih =>
    rcases List.mem_cons.mp member with rfl | member
    · exact ⟨[], here inSource⟩
    · obtain ⟨passed, same⟩ := ih (step.isIn inSource) member
      obtain ⟨others, rest⟩ := step.exists_passed
      exact ⟨others ++ passed, by rw [rest, same, List.append_assoc]⟩
  | reread again step _ ih =>
    obtain ⟨others, rest⟩ := again.exists_passed
    have between := again.isIn inSource
    rcases List.mem_cons.mp member with rfl | member
    · exact ⟨others, by rw [rest, here between]⟩
    · obtain ⟨passed, same⟩ := ih (step.isIn between) member
      obtain ⟨further, restToo⟩ := step.exists_passed
      exact ⟨others ++ (further ++ passed), by
        rw [rest, restToo, same, List.append_assoc, List.append_assoc]⟩

end Point

/-- A parse of a text to its end, and one of its tokens, behind which a semicolon is inserted. -/
structure Insertion where
  source : String
  first : Point
  last : Point
  front : List Token
  token : Token
  back : List Token
  passes : first.Passes (front ++ token :: back) last
  latest : first.scanned = [first.lookahead]
  fresh : first.consumedEnd ≤ first.lookahead.span.start
  placed : first.Placed
  isIn : first.IsIn source
  ended : last.lookahead.lexeme = .endOfFile
  noMark : token.kind ≠ .symbol Punctuator.semicolon

namespace Insertion

variable (insertion : Insertion) {phase : Prop} {before after first second point : Point}
  {past rest : List Token}

/-- The text behind the token. -/
def behind : List Char :=
  insertion.source.toList.drop insertion.token.stop

/-- The last tokens of the parse, before the semicolon or in front of it. -/
def remaining : Extent → List Token
  | .inside => insertion.token :: insertion.back
  | .edge => insertion.back

/-- The parse goes on from a point to the end. -/
def Ahead (extent : Extent) (phase : Prop) (point : Point) : Prop :=
  ∃ rest, point.Passes rest insertion.last ∧ (phase ∨ insertion.remaining extent <:+ rest)

/-- Some tokens are consumed up to a point, where a slash may have been read again. -/
def Reaches (past : List Token) (point : Point) : Prop :=
  ∃ before, insertion.first.Passes past before ∧ (before = point ∨ before.Rereads point)

/-- The text ahead is the same, or the second text has the semicolon ahead. -/
def Level (phase : Prop) (first second : Point) : Prop :=
  first.lookahead.Alike second.lookahead ∧
    (phase ∧ second.cursor.rest = first.cursor.rest ∨
      ¬phase ∧ first.consumedEnd ≠ insertion.token.span.stop ∧
        ∃ front, first.cursor.rest = front ++ insertion.behind ∧
          second.cursor.rest = front ++ ';' :: insertion.behind)

/-- The token has been consumed, and the second parse stands in front of the semicolon. -/
def Edge (first second : Point) : Prop :=
  insertion.first.Passes (insertion.front ++ [insertion.token]) first ∧
    second.lookahead.kind = .symbol Punctuator.semicolon ∧
      ∃ other, second.Advances other ∧ insertion.Level True first other

theorem separated_semicolon (text : List Char) : Separated (';' :: text) :=
  separated_cons (by decide +kernel)

variable {insertion}

/-- A parse that has read a slash again does not end there. -/
theorem ne_nil_of_rereads (rereads : before.Rereads after)
    (ahead : after.Passes rest insertion.last) : rest ≠ [] := by
  rintro rfl
  obtain ⟨⟨_, _, expression⟩, _⟩ := rereads.token
  have ended := insertion.ended
  generalize insertion.last = last at ahead ended
  cases ahead
  rw [ended] at expression
  cases expression

namespace Reaches

theorem reread (reached : insertion.Reaches past before) (rereads : before.Rereads after) :
    insertion.Reaches past after := by
  obtain ⟨earlier, passes, rfl | again⟩ := reached
  · exact ⟨_, passes, .inr rereads⟩
  · obtain ⟨⟨_, _, expression⟩, _⟩ := again.token
    obtain ⟨_, slash, _⟩ := rereads.token
    simp [expression, Scan.slash?] at slash

theorem advance (reached : insertion.Reaches past before) (advances : before.Advances after) :
    insertion.first.Passes (past ++ [before.lookahead]) after := by
  obtain ⟨earlier, passes, rfl | again⟩ := reached
  · exact passes.append (.advance advances .none)
  · exact passes.append (.reread again advances .none)

theorem isIn (reached : insertion.Reaches past point) : point.IsIn insertion.source := by
  obtain ⟨earlier, passes, rfl | again⟩ := reached
  · exact (passes.isIn insertion.isIn).1
  · exact again.isIn (passes.isIn insertion.isIn).1

/-- The tokens before a point and those after it are all tokens of the parse. -/
theorem whole (reached : insertion.Reaches past point)
    (ahead : point.Passes rest insertion.last) :
    past ++ rest = insertion.front ++ insertion.token :: insertion.back := by
  obtain ⟨earlier, passes, again⟩ := reached
  have ahead : earlier.Passes rest insertion.last := by
    rcases again with rfl | again
    · exact ahead
    · exact .of_rereads again ahead (ne_nil_of_rereads again ahead)
  have all := (passes.append ahead).scanned insertion.latest
  rw [insertion.passes.scanned insertion.latest, List.append_nil, List.append_nil] at all
  exact (List.reverse_injective (List.cons.inj all).2).symm

theorem consumedEnd (reached : insertion.Reaches past point) :
    point.consumedEnd = (past.getLast?.map (·.span.stop)).getD insertion.first.consumedEnd := by
  obtain ⟨earlier, passes, rfl | ⟨_, _, _, _, _, rfl⟩⟩ := reached <;> exact passes.consumedEnd

/-- The parse has consumed the token where its end was consumed last. -/
theorem eq_back (reached : insertion.Reaches past point)
    (ahead : point.Passes rest insertion.last)
    (ends : point.consumedEnd = insertion.token.span.stop) : rest = insertion.back := by
  have between := (insertion.passes.between insertion.placed).2
  rw [reached.consumedEnd] at ends
  have whole := reached.whole ahead
  rcases List.eq_nil_or_concat past with rfl | ⟨others, last, rfl⟩
  · have later := Position.lt_of_le_of_lt insertion.fresh
      (between.lt_stop (List.mem_append_right _ List.mem_cons_self))
    exact absurd ends (Position.ne_of_lt later)
  · simp only [List.concat_eq_append, List.append_assoc, List.singleton_append] at whole
    rw [← whole] at between
    exact (between.eq_of_stop whole (by simpa using ends)).2

/-- What is left to be consumed in front of the semicolon has the token before it. -/
theorem remaining (reached : insertion.Reaches past before)
    (advances : before.Advances after) (ahead : after.Passes rest insertion.last)
    (tail : insertion.back <:+ rest) :
    insertion.token :: insertion.back <:+ before.lookahead :: rest := by
  obtain ⟨between, rfl⟩ := tail
  have whole := reached.whole (.advance advances ahead)
  rw [← List.cons_append, ← List.append_assoc, List.append_cons insertion.front] at whole
  have same := List.append_cancel_right whole
  obtain ⟨others, last, split⟩ := (List.eq_nil_or_concat (before.lookahead :: between)).resolve_left
    (by simp)
  rw [split, List.concat_eq_append, ← List.append_assoc] at same
  obtain ⟨_, last⟩ := List.append_inj' same rfl
  refine ⟨others, ?_⟩
  rw [← List.cons_append, split, List.concat_eq_append, last, List.append_assoc,
    List.singleton_append]

end Reaches

theorem ahead_of_advances (reached : ∃ past, insertion.Reaches past before)
    (advances : before.Advances after) (ahead : insertion.Ahead .edge phase after) :
    insertion.Ahead .inside phase before := by
  obtain ⟨past, reached⟩ := reached
  obtain ⟨rest, ahead, known⟩ := ahead
  exact ⟨_, .advance advances ahead, known.imp_right (reached.remaining advances ahead)⟩

theorem ahead_of_rereads (rereads : before.Rereads after)
    (ahead : insertion.Ahead .inside phase after) : insertion.Ahead .inside phase before := by
  obtain ⟨rest, ahead, known⟩ := ahead
  exact ⟨rest, .of_rereads rereads ahead (ne_nil_of_rereads rereads ahead), known⟩

theorem ahead_of_ends (reached : ∃ past, insertion.Reaches past point)
    (ahead : insertion.Ahead .inside (phase ∨ point.consumedEnd = insertion.token.span.stop)
      point) : insertion.Ahead .edge phase point := by
  obtain ⟨past, reached⟩ := reached
  obtain ⟨rest, ahead, (known | ends) | tail⟩ := ahead
  · exact ⟨rest, ahead, .inl known⟩
  · exact ⟨rest, ahead, .inr (reached.eq_back ahead ends ▸ List.suffix_refl _)⟩
  · exact ⟨rest, ahead, .inr ((List.suffix_cons _ _).trans tail)⟩

/-- Behind the token nothing that lies ahead begins with it. -/
theorem phase_of_edge (edge : insertion.Edge first second)
    (ahead : insertion.Ahead .inside phase first) : phase := by
  obtain ⟨rest, ahead, known | tail⟩ := ahead
  · exact known
  · have reached : insertion.Reaches _ first := ⟨_, edge.1, .inl rfl⟩
    have whole := reached.whole ahead
    rw [List.append_assoc, List.singleton_append] at whole
    obtain ⟨_, rfl⟩ := List.cons.inj (List.append_cancel_left whole)
    exact absurd tail.length_le (by simp [remaining])

theorem consumedEnd_of_edge (edge : insertion.Edge first second) :
    first.consumedEnd = insertion.token.span.stop := by
  rw [edge.1.consumedEnd]
  simp

/-- The token that was consumed last is no semicolon. -/
theorem noMark_of_edge (reached : ∃ past, insertion.Reaches past before)
    (advances : before.Advances after) (edge : insertion.Edge after second) :
    before.lookahead.kind ≠ .symbol Punctuator.semicolon := by
  obtain ⟨past, reached⟩ := reached
  have one := (reached.advance advances).scanned insertion.latest
  rw [edge.1.scanned insertion.latest, List.append_nil, List.append_nil] at one
  obtain ⟨_, same⟩ := List.append_inj' (List.reverse_injective (List.cons.inj one).2) rfl
  rw [← (List.cons.inj same).1]
  exact insertion.noMark

/-- Where the first parse consumes a token, the second one consumes it too. -/
theorem advances (level : insertion.Level phase first second)
    (reached : ∃ past, insertion.Reaches past first) (advances : first.Advances after)
    (ahead : insertion.Ahead .edge phase after) :
    ∃ other, second.Advances other ∧
      (insertion.Level phase after other ∨ ¬phase ∧ insertion.Edge after other) := by
  obtain ⟨past, reached⟩ := reached
  obtain ⟨rest, ahead, known⟩ := ahead
  have step := advances
  obtain ⟨inside, next, cursor, scanned, rfl⟩ := advances
  obtain ⟨alike, ⟨holds, same⟩ | ⟨before, notEnds, front, here, hereToo⟩⟩ := level
  · obtain ⟨mate, last, scannedToo, alikeToo, rest⟩ := Scan.token_same scanned same
    exact ⟨_, ⟨alike.lexeme ▸ inside, mate, last, scannedToo, rfl⟩,
      .inl ⟨alikeToo, .inl ⟨holds, rest⟩⟩⟩
  have tail := reached.remaining step ahead (known.resolve_left before)
  rcases List.suffix_cons_iff.mp tail with whole | inner
  · -- The token is consumed, and so the second parse comes to the semicolon.
    obtain ⟨isToken, rfl⟩ := List.cons.inj whole
    have inSource := reached.isIn
    have nothing : front = [] := by
      rw [inSource.cursor.rest, inSource.offset, ← isToken] at here
      exact List.append_left_eq_self.mp here.symm
    rw [nothing, List.nil_append] at here hereToo
    have mark := Scan.token_alone Symbol.semicolon_standsAlone hereToo
    have behind : (second.cursor.moveBy (Lexeme.walk (';' :: insertion.behind)) 1).rest =
        insertion.behind := by
      rw [Cursor.moveBy, hereToo]
      rfl
    obtain ⟨mate, last, scannedToo, alikeToo, rest⟩ :=
      Scan.token_same scanned (behind.trans here.symm)
    have passed := reached.advance step
    have same : past ++ [first.lookahead] = insertion.front ++ [insertion.token] := by
      have whole := Reaches.whole ⟨_, passed, .inl rfl⟩ ahead
      rw [List.append_cons insertion.front] at whole
      exact List.append_cancel_right whole
    rw [same] at passed
    exact ⟨_, ⟨alike.lexeme ▸ inside, _, _, mark, rfl⟩, .inr ⟨before, passed, rfl, _,
      ⟨(by rintro ⟨⟩), mate, last, scannedToo, rfl⟩, alikeToo, .inl ⟨trivial, rest⟩⟩⟩
  · -- The token is still ahead, and so what is scanned ends before it does.
    have member : insertion.token ∈ rest := inner.subset List.mem_cons_self
    have reachedNext : insertion.Reaches (past ++ [first.lookahead]) _ :=
      ⟨_, reached.advance step, .inl rfl⟩
    obtain ⟨passed, text⟩ := ahead.exists_passed reachedNext.isIn member
    have within : insertion.behind.length ≤ cursor.rest.length := by
      dsimp only at text
      rw [text, List.length_append]
      exact Nat.le_add_left _ _
    have goesOn : next.lexeme ≠ .endOfFile :=
      ahead.inside (List.ne_nil_of_mem member)
    obtain ⟨mate, last, text, scannedToo, alikeToo, afterRest, lastRest⟩ :=
      Scan.token_append scanned goesOn here hereToo within (separated_semicolon _)
    refine ⟨_, ⟨alike.lexeme ▸ inside, mate, last, scannedToo, rfl⟩, .inl ⟨alikeToo, .inr
      ⟨before, ?_, text, afterRest, lastRest⟩⟩⟩
    intro ends
    rw [reachedNext.eq_back ahead ends] at inner
    exact absurd inner.length_le (by simp)

/-- Where the first parse reads a slash again, the second one does so too. -/
theorem rereads (level : insertion.Level phase first second)
    (reached : ∃ past, insertion.Reaches past first) (rereads : first.Rereads after)
    (ahead : insertion.Ahead .inside phase after) :
    ∃ other, second.Rereads other ∧ insertion.Level phase after other := by
  obtain ⟨past, reached⟩ := reached
  obtain ⟨rest, ahead, known⟩ := ahead
  have inSource := rereads.isIn reached.isIn
  obtain ⟨opening, next, cursor, slash, scanned, rfl⟩ := rereads
  obtain ⟨alike, ⟨holds, same⟩ | ⟨before, notEnds, front, here, hereToo⟩⟩ := level
  · obtain ⟨mate, last, scannedToo, alikeToo, rest⟩ :=
      Scan.regularExpression_same scanned alike same
    exact ⟨_, ⟨opening, mate, last, alike.lexeme ▸ slash, scannedToo, rfl⟩, alikeToo,
      .inl ⟨holds, rest⟩⟩
  · have member : insertion.token ∈ rest :=
      (known.resolve_left before).subset List.mem_cons_self
    obtain ⟨passed, text⟩ := ahead.exists_passed inSource member
    have within : insertion.behind.length ≤ cursor.rest.length := by
      dsimp only at text
      rw [text, List.length_append]
      exact Nat.le_add_left _ _
    obtain ⟨mate, last, text, scannedToo, alikeToo, afterRest, lastRest⟩ :=
      Scan.regularExpression_append scanned alike here hereToo within (separated_semicolon _)
    exact ⟨_, ⟨opening, mate, last, alike.lexeme ▸ slash, scannedToo, rfl⟩, alikeToo,
      .inr ⟨before, notEnds, text, afterRest, lastRest⟩⟩

variable (insertion) in
/-- The parse of a text, and that of the text with the semicolon. -/
def alignment (returns : Bool) : Alignment where
  left _ := .first
  right _ := .first
  mate := id
  right_mate _ := rfl
  firstReturns := returns
  secondReturns := returns
  extent := .inside
  Ends position := position = insertion.token.span.stop
  Reached point := ∃ past, insertion.Reaches past point
  Ahead := insertion.Ahead
  Doomed _ _ := False
  Level := insertion.Level
  Edge := insertion.Edge
  reached_of_advances := fun ⟨_, reached⟩ step => ⟨_, _, reached.advance step, .inl rfl⟩
  reached_of_rereads := fun ⟨_, reached⟩ again => ⟨_, reached.reread again⟩
  ahead_weaken := fun ⟨rest, ahead, known⟩ =>
    ⟨rest, ahead, known.imp_right (List.suffix_cons _ _).trans⟩
  ahead_of_advances := ahead_of_advances
  ahead_of_rereads _ := ahead_of_rereads
  ahead_of_ends := ahead_of_ends
  ahead_of_doomed _ _ := False.elim
  matches_of_level level := level.1
  consumedEnd_of_level _ := rfl
  ends_of_level := by
    rintro phase first second ⟨-, ⟨holds, -⟩ | ⟨-, notEnds, -⟩⟩ ends
    · exact holds
    · exact absurd ends notEnds
  advances := by
    intro phase first second after level reached step ahead
    obtain ⟨other, stepToo, same | ⟨before, edge⟩⟩ := advances level reached step ahead
    · exact ⟨other, stepToo, .inl same⟩
    · exact ⟨other, stepToo, .inr ⟨before, edge, fun _ => noMark_of_edge reached step edge⟩⟩
  fault_of_token _ _ _ _ := False.elim
  rereads := rereads
  fault_of_regularExpression _ _ _ _ := False.elim
  closing_of_edge edge := .inl edge.2.1
  phase_of_edge := phase_of_edge
  consumedEnd_of_edge _ := rfl
  ended_of_edge := by rintro _ _ ⟨⟩
  semicolon_of_edge edge _ := .inr ⟨edge.2.1, consumedEnd_of_edge edge, edge.2.2⟩

end Insertion

namespace Cursor

variable {text front behind : List Char}

/-- Where characters are dropped, it makes no difference what comes behind the one that stops. -/
theorem dropWhile_append {other : List Char} {passes : Char → Bool}
    (rest : (text ++ behind).dropWhile passes = front ++ behind)
    (stops : front = [] → ∀ char ∈ other.head?, passes char = false) :
    (text ++ other).dropWhile passes = front ++ other := by
  have whole := List.takeWhile_append_dropWhile (p := passes) (l := text ++ behind)
  rw [rest, ← List.append_assoc] at whole
  rw [← List.append_cancel_right whole, List.append_assoc,
    List.dropWhile_append_of_pos fun _ => List.mem_takeWhile_imp]
  have first : ∀ char ∈ (front ++ other).head?, passes char = false := by
    cases front with
    | nil => exact stops rfl
    | cons char others =>
      rintro _ ⟨⟩
      have stopped := List.head?_dropWhile_not passes (text ++ behind)
      rwa [rest] at stopped
  cases back : front ++ other with
  | nil => rfl
  | cons char others =>
    rw [back] at first
    exact List.dropWhile_cons_of_neg (by simp [first char rfl])

theorem rest_passHashbang (text : List Char) (position : Position) :
    (passHashbang ⟨'#' :: '!' :: text, 0, position⟩).rest =
      text.dropWhile fun char => !isLineTerminator char := by
  have sharp : isLineTerminator '#' = false := by decide
  have bang : isLineTerminator '!' = false := by decide
  change (pass _ _).rest = _
  simp only [rest_pass, List.takeWhile_cons, sharp, bang, Bool.not_false, if_true,
    List.length_cons, List.drop_succ_cons]
  exact (congrArg (List.drop _) List.takeWhile_append_dropWhile.symm).trans List.drop_left

/-- What comes behind some text leaves the first line of the text as it is. -/
theorem rest_passHashbang_append {other : List Char}
    (apart : ∀ char ∈ other.head?, char ≠ '#' ∧ char ≠ '!')
    (stops : front = [] → text ≠ [] → ∀ char ∈ other.head?, isLineTerminator char = true)
    (rest : (passHashbang ⟨text ++ behind, 0, .first⟩).rest = front ++ behind) :
    (passHashbang ⟨text ++ other, 0, .first⟩).rest = front ++ other := by
  by_cases hashbang : ['#', '!'] <+: text ++ behind
  · obtain ⟨line, begins⟩ := hashbang
    rw [← begins, List.cons_append, List.cons_append, List.nil_append, rest_passHashbang] at rest
    have shorter := (List.dropWhile_suffix (l := line) fun char => !isLineTerminator char).length_le
    have whole := congrArg List.length begins
    simp only [rest, List.length_append, List.length_cons, List.length_nil] at shorter whole
    match text, begins with
    | [], _ => simp at whole; omega
    | [_], _ => simp at whole; omega
    | first :: second :: others, begins =>
      simp only [List.cons_append, List.nil_append, List.cons.injEq] at begins
      obtain ⟨rfl, rfl, rfl⟩ := begins
      rw [List.cons_append, List.cons_append, rest_passHashbang]
      refine dropWhile_append rest fun none char first => ?_
      rw [stops none (List.cons_ne_nil _ _) char first, Bool.not_true]
  · rw [passHashbang_of_plain hashbang] at rest
    obtain rfl : text = front := List.append_cancel_right rest
    rw [passHashbang_of_plain]
    rintro ⟨line, begins⟩
    apply hashbang
    match text, begins with
    | [], begins =>
      have head : other = '#' :: '!' :: line := begins.symm
      exact absurd rfl (apart '#' (by rw [head]; rfl)).1
    | [first], begins =>
      have head : other = '!' :: line := (List.cons.inj begins).2.symm
      exact absurd rfl (apart '!' (by rw [head]; rfl)).2
    | first :: second :: others, begins =>
      simp only [List.cons_append, List.cons.injEq] at begins
      obtain ⟨rfl, rfl, -⟩ := begins
      exact ⟨_, rfl⟩

end Cursor

section Text

variable {source : String} {options : Options} {program : Program} {after : State} {token : Token}

theorem length_insertSemicolon (source : String) (offset : Nat) :
    (insertSemicolon source offset).length = source.length + 1 := by
  have whole := congrArg List.length (List.take_append_drop offset source.toList)
  rw [List.length_append] at whole
  rw [insertSemicolon, ← String.length_toList, String.toList_ofList, List.length_append,
    List.length_cons, ← Nat.add_assoc, whole, String.length_toList]

/-- The first token of a text is scanned at the same place when the text behind it is replaced. -/
theorem State.rest_opening_append {front other : List Char} {offset : Nat}
    (apart : ∀ char ∈ other.head?, char ≠ '#' ∧ char ≠ '!')
    (stops : front = [] → source.toList.take offset ≠ [] →
      ∀ char ∈ other.head?, isLineTerminator char = true)
    (rest : (ofSource source options).opening.rest = front ++ source.toList.drop offset) :
    (ofSource (String.ofList (source.toList.take offset ++ other)) options).opening.rest =
      front ++ other := by
  have text : (String.ofList (source.toList.take offset ++ other)).toList =
      source.toList.take offset ++ other := String.toList_ofList
  unfold opening at rest ⊢
  change (if options.allowHashbang then _ else _ : Cursor).rest = _ at rest
  change (if options.allowHashbang then _ else _ : Cursor).rest = _
  by_cases hashbang : options.allowHashbang = true
  · rw [if_pos hashbang] at rest ⊢
    change (Cursor.passHashbang ⟨source.toList, 0, .first⟩).rest = _ at rest
    change (Cursor.passHashbang
      ⟨(String.ofList (source.toList.take offset ++ other)).toList, 0, .first⟩).rest = _
    rw [text]
    apply Cursor.rest_passHashbang_append apart stops
    rw [List.take_append_drop]
    exact rest
  · rw [if_neg hashbang] at rest ⊢
    change source.toList = _ at rest
    change (String.ofList (source.toList.take offset ++ other)).toList = _
    have same : source.toList.take offset = front := by
      rw [← List.take_append_drop offset source.toList] at rest
      exact List.append_cancel_right (rest.trans (by rw [List.take_append_drop]))
    rw [text, same]

namespace Insertion

variable {insertion : Insertion}

/-- The first token of the text with the semicolon is scanned like that of the text without it. -/
theorem exists_begun {opening : Token} {cursor : Cursor}
    (scanned : Scan.token (State.ofSource insertion.source options).opening = .ok opening cursor)
    (first : insertion.first =
      ((State.ofSource insertion.source options).begun opening cursor).point) :
    let inserted := State.ofSource (insertSemicolon insertion.source insertion.token.stop) options
    ∃ mate place, Scan.token inserted.opening = .ok mate place ∧
      insertion.Level False insertion.first (inserted.begun mate place).point := by
  have member : insertion.token ∈ insertion.front ++ insertion.token :: insertion.back := by simp
  obtain ⟨passed, ahead⟩ := insertion.passes.exists_passed insertion.isIn member
  have inside := insertion.passes.inside (List.ne_nil_of_mem member)
  rw [first] at ahead inside
  obtain ⟨before, rest, some⟩ := Scan.exists_passed scanned
  change cursor.rest = _ at ahead
  rw [ahead, ← List.append_assoc] at rest
  have nonempty : before ++ passed ≠ [] := by simpa using fun nothing => absurd nothing (some inside)
  have restToo : (State.ofSource (insertSemicolon insertion.source insertion.token.stop)
      options).opening.rest = before ++ passed ++ ';' :: insertion.behind :=
    State.rest_opening_append (by rintro _ ⟨⟩; decide) (fun none => absurd none nonempty) rest
  obtain ⟨mate, last, text, scannedToo, alike, afterRest, lastRest⟩ :=
    Scan.token_append scanned inside rest restToo
      (by rw [ahead, List.length_append]; exact Nat.le_add_left _ _) (separated_semicolon _)
  refine ⟨mate, last, scannedToo, ?_, .inr ⟨id, ?_, text, ?_, lastRest⟩⟩
  · rw [first]
    exact alike
  · exact Position.ne_of_lt (Position.lt_of_le_of_lt insertion.fresh
      ((insertion.passes.between insertion.placed).2.lt_stop member))
  · rw [first]
    exact afterRest

/-- The statements of the text with the semicolon are those of the text without it. -/
theorem topLevel {state second last : State} {budget : Nat} {body : List Statement}
    (first : insertion.first = state.point) (comes : insertion.last = last.point)
    (run : Grammar.topLevel (.ofBudget budget) budget state = .ok body last)
    (level : insertion.Level False insertion.first second.point)
    (scope : second.scope = state.scope)
    (marks : (insertion.alignment state.options.allowReturnOutsideFunction).Marks body) :
    ∃ result final, Grammar.topLevel (.ofBudget (budget + 1)) (budget + 1) second =
        .ok result final ∧
      (insertion.alignment state.options.allowReturnOutsideFunction).Same body result := by
  have context : second.context = state.context := congrArg Scope.context scope
  have options : second.options = state.options := congrArg Scope.options scope
  have follows := Grammar.follows_topLevel
    (σ := insertion.alignment state.options.allowReturnOutsideFunction)
    (Nonterminals.follows_ofBudget budget.le_succ) rfl budget.le_succ
  have related : (insertion.alignment state.options.allowReturnOutsideFunction).Related
      (False ∨ False) state second :=
    { reached := ⟨[], _, .none, .inl first⟩
      points := .inl (by rw [or_self, ← first]; exact level)
      context := by rw [context]
      labels := congrArg Scope.labels scope
      returns := by rw [context, options]
      firstReturns := rfl
      secondReturns := by rw [options]; rfl }
  have ahead : insertion.Ahead .inside (False ∨ Alignment.Marks _ body) last.point :=
    ⟨[], comes ▸ .none, .inl (.inr marks)⟩
  obtain ⟨result, final, runToo, same, _⟩ := follows.ok related run ahead
  exact ⟨result, final, runToo, same⟩

end Insertion

/-- Semicolons that were left out of a text that is accepted can be written: behind the last token
of a statement, a semicolon changes nothing but the positions. -/
theorem State.insertSemicolon_of_parse
    (accepted : (ofSource source options).parse = (.ok program, after))
    (consumed : token ∈ after.consumed) (leftOut : program.LeavesOut token) :
    ∃ other, EcmaScript.parse (insertSemicolon source token.stop) options = .ok other ∧
      other.unplaced = program.unplaced := by
  obtain ⟨noMark, path, statement, ⟨outer, member, occurs⟩, terminated, ends⟩ := leftOut
  obtain ⟨front, back, split⟩ := List.append_of_mem consumed
  obtain ⟨opening, cursor, last, scanned, run, begins, isScript, comes⟩ :=
    exists_topLevel_of_parse accepted
  have passes := isScript.passes
  rw [split] at passes
  obtain ⟨placed, later⟩ := begins.placed
  obtain ⟨insertion, rfl, first, last, rfl, isBack⟩ : ∃ insertion : Insertion,
      insertion.source = source ∧
        insertion.first = ((ofSource source options).begun opening cursor).point ∧
        insertion.last = last.point ∧ insertion.token = token ∧ insertion.back = back :=
    ⟨{ source, first := _, last := _, front, token, back, passes
       latest := begins.events
       fresh := later
       placed
       isIn := begins.isIn
       ended := Grammar.lexeme_of_ended isScript.ended
       noMark }, rfl, rfl, comes.symm, rfl, rfl⟩
  obtain ⟨mate, cursorToo, scannedToo, level⟩ := insertion.exists_begun scanned first
  obtain ⟨result, final, runToo, same⟩ :=
    insertion.topLevel first last run level rfl
      ⟨.statement outer, List.mem_flatMap.mpr ⟨outer, member, List.mem_singleton_self _⟩, path,
        .statement statement, occurs, terminated, ends⟩
  rw [parse_eq, scannedToo, length_insertSemicolon, Nat.add_right_comm]
  dsimp only
  rw [runToo]
  exact ⟨_, rfl, Program.unplaced_eq (Eq.symm same) _ _⟩

end Text

/-- Two names on two lines, the first of which is a statement that leaves its semicolon out. -/
theorem insertSemicolon_of_names :
    ∃ program after token, (State.ofSource "a\nb" {}).parse = (.ok program, after) ∧
      token ∈ after.consumed ∧ program.LeavesOut token ∧
      ∃ other, parse (insertSemicolon "a\nb" token.stop) {} = .ok other ∧
        other.unplaced = program.unplaced := by
  obtain ⟨program, accepted⟩ :=
    exists_of_toBool (by decide +kernel : (parse "a\nb" {}).toBool = true)
  obtain ⟨after, accepted⟩ := exists_of_parse accepted
  have ends : ((State.ofSource "a\nb" {}).parse.1.toOption.bind fun program =>
      program.body.head?).any (fun statement => statement.isTerminated &&
        (State.ofSource "a\nb" {}).parse.2.consumed.any fun token =>
          token.kind != .symbol Punctuator.semicolon && statement.span.stop == token.span.stop) =
      true := by decide +kernel
  rw [accepted, Option.any_eq_true] at ends
  obtain ⟨statement, first, ends⟩ := ends
  obtain ⟨others, body⟩ : ∃ others, program.body = statement :: others :=
    List.head?_eq_some_iff.mp first
  simp only [Bool.and_eq_true, List.any_eq_true, bne_iff_ne, beq_iff_eq] at ends
  obtain ⟨terminated, token, consumed, noMark, stop⟩ := ends
  have leftOut : program.LeavesOut token :=
    ⟨noMark, [], statement, ⟨statement, body ▸ List.mem_cons_self, .root⟩, terminated, stop⟩
  exact ⟨_, _, token, accepted, consumed, leftOut,
    State.insertSemicolon_of_parse accepted consumed leftOut⟩

end EcmaScript
