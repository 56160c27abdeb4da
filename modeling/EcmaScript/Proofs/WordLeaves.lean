import EcmaScript.Proofs.WordStates

/-!
# Names and literals as words

The name that a token means is a word that is read as the same name, and the text of a literal is
one that is read as the same literal. Regular expressions begin with a slash here too, which is read
again.
-/

namespace EcmaScript

open Parse Grammar

namespace Word.Show

/-- What is known of a word that is a token. -/
theorem of_is {word : Word} {words : List Word} {lexeme : Lexeme} {flags : Flags}
    (is : word.Is lexeme flags) :
    Show (word :: words) fun token => token.lexeme = lexeme ∧
      token.flags = { flags with lineBreak := false } ∧ token.text = word.text :=
  fun _ _ begins =>
    have ⟨lexeme, flags, text, _⟩ := begins.of_is is
    ⟨lexeme, flags, text⟩

end Word.Show

namespace Token.IsWritable

variable {token : Token} (writable : token.IsWritable)
include writable

theorem is_named {name : String} (isName : token.lexeme = .identifier name) :
    (Word.named name).Is (.identifier name) {} :=
  writable.name name isName

/-- The name of an identifier or a reserved word is a word of the same sort. -/
theorem is_property (isName : token.kind.isIdentifierName = true) :
    ∃ lexeme flags, (Word.named (token.name?.getD "")).Is lexeme flags ∧
      lexeme.kind.isIdentifierName = true ∧ lexeme.name? = some (token.name?.getD "") := by
  cases found : token.lexeme with
  | identifier name =>
    have named : token.name? = some name := by rw [Token.name?, found]; rfl
    rw [named]
    exact ⟨_, _, writable.is_named found, rfl, rfl⟩
  | symbol item =>
    have isWord : item.isWord = true := by
      simpa [Token.kind, found, Lexeme.kind, Kind.isIdentifierName, Kind.isReservedWord]
        using isName
    have named : token.name? = some item.text := by
      rw [Token.name?, found, Lexeme.name?, if_pos isWord]
    rw [named]
    obtain ⟨flags, is⟩ := Word.is_symbol item
    exact ⟨_, flags, is, by rw [← isName, Token.kind, found],
      by rw [Lexeme.name?, if_pos isWord]; rfl⟩
  | _ => simp [Token.kind, found, Lexeme.kind, Kind.isIdentifierName, Kind.isReservedWord] at isName

/-- The text of a token is a word, unless it is a regular expression. -/
theorem is_literal (plain : token.kind ≠ .regularExpressionLiteral) :
    ∃ flags, (Word.literal token.text).Is token.lexeme flags ∧
      flags.hasLegacyEscape = token.flags.hasLegacyEscape := by
  rcases writable.text with ⟨flags, opens, same⟩ | ⟨_, _, _, -, -, -, ⟨_, _, found⟩, -⟩
  · exact ⟨flags, opens, same⟩
  · exact absurd (congrArg Lexeme.kind found) plain

theorem isLegible_literal : (Word.literal token.text).IsLegible := by
  rcases writable.text with ⟨flags, opens, -⟩ | ⟨length, slash, _, ⟨flags, opens⟩, -⟩
  · exact ⟨_, _, _, opens⟩
  · exact ⟨length, slash, flags, opens⟩

end Token.IsWritable

namespace Parse.Takes

variable {scope : Scope} {token : Token} {rest : List Word}

/-! ### Names -/

/-- A name that may be used in the scope. -/
protected theorem identifierReference {name : Identifier} (writable : token.IsWritable)
    (refers : scope.Refers token name) :
    identifierReference.Takes scope [.named name.name] (Located.Resembles · name) scope rest := by
  have is := writable.is_named refers.1
  refine lookahead_bind (Word.Show.of_is is) fun other found => ?_
  rw [found.1]
  refine last (.consume is) fun _ _ => isStrict_bind (ite_neg ?_ (.pure rfl))
  rw [Bool.and_eq_true]
  rintro ⟨strict, reserved⟩
  rw [refers.2.2 strict] at reserved
  contradiction

/-- A name that may be bound in the scope. -/
protected theorem bindingIdentifier {name : Identifier} (writable : token.IsWritable)
    (binds : scope.Binds token name) :
    bindingIdentifier.Takes scope [.named name.name] (Located.Resembles · name) scope rest := by
  refine last (.identifierReference writable binds.1) fun value same =>
    isStrict_bind (ite_neg ?_ (.pure same))
  have named : (value.relocate _).name = (name.relocate _).name := congrArg Identifier.name same
  change value.name = name.name at named
  rw [Bool.and_eq_true, named]
  rintro ⟨strict, refused⟩
  rw [binds.2 strict] at refused
  contradiction

/-- A name or a reserved word where every word is a name. -/
protected theorem identifierName (writable : token.IsWritable)
    (isName : token.kind.isIdentifierName = true) (span : Span) :
    identifierName.Takes scope [.named (token.name?.getD "")]
      (Located.Resembles · ⟨token.name?.getD "", span⟩) scope rest := by
  obtain ⟨lexeme, flags, is, isNameToo, named⟩ := writable.is_property isName
  refine lookahead_bind (Word.Show.of_is is) fun other found => ?_
  refine ite_pos (by rw [Token.kind, found.1, isNameToo]) (last (.consume is) fun _ _ => .pure ?_)
  rw [Token.name?, found.1, named]
  rfl

/-! ### Literals -/

section Literals

variable {state : State} {words : List Word}

/-- A literal in the lookahead, whatever it was read from, is consumed. -/
theorem literalToken_of_spaced (here : state.scope = scope)
    (behind : state.cursor.rest = Word.spaced words) (legible : ∀ word ∈ words, word.IsLegible)
    (allowed : scope.AllowsLiteral state.lookahead) :
    ∃ after, literalToken state = .ok (state.lookahead.text, state.lookahead.span) after ∧
      after.Stands scope words := by
  obtain ⟨after, run, stands⟩ := State.stands_of_consume here behind legible
  have strict : after.context.strict = scope.context.strict :=
    congrArg (·.context.strict) stands.scope
  refine ⟨after, ?_, stands⟩
  rw [literalToken, Parse.lookahead_bind]
  refine bind_eq_ok.mpr ⟨(), after, run, ?_⟩
  change (if (after.context.strict && state.lookahead.flags.hasLegacyEscape) = true then _ else _ :
    Parse (String × Span)) after = _
  rw [if_neg]
  · rfl
  · rw [strict, Bool.and_eq_true]
    rintro ⟨strict, legacy⟩
    rw [allowed strict] at legacy
    contradiction

theorem literalToken_of_is {raw : String} {lexeme : Lexeme} {flags : Flags}
    (is : (Word.literal raw).Is lexeme flags)
    (allowed : scope.context.strict = true → flags.hasLegacyEscape = false)
    (stands : state.Stands scope (.literal raw :: words)) :
    ∃ after, literalToken state = .ok (raw, state.lookahead.span) after ∧
      after.Stands scope words := by
  obtain ⟨text, here, begins⟩ := stands.begins
  obtain ⟨-, flags, text, rfl⟩ := begins.of_is is
  obtain ⟨after, run, standsAfter⟩ := literalToken_of_spaced stands.scope here
    (fun word member => stands.legible word (.tail _ member)) fun strict => by
      rw [flags]
      exact allowed strict
  rw [text] at run
  exact ⟨after, run, standsAfter⟩

/-- A literal that is a token is read as its value. -/
theorem literal_of_is {raw : String} {lexeme : Lexeme} {flags : Flags} {value : Literal}
    (is : (Word.literal raw).Is lexeme flags) (isLiteral : lexeme.literal? = some value)
    (allowed : scope.context.strict = true → flags.hasLegacyEscape = false)
    (stands : state.Stands scope (.literal raw :: words)) (self : Nonterminals) :
    ∃ after, primary self state = .ok (.literal value raw state.lookahead.span) after ∧
      after.Stands scope words := by
  obtain ⟨after, run, standsAfter⟩ := literalToken_of_is is allowed stands
  refine ⟨after, ?_, standsAfter⟩
  obtain ⟨text, -, begins⟩ := stands.begins
  have found := (begins.of_is is).1
  have read : literal value state = .ok (.literal value raw state.lookahead.span) after :=
    bind_eq_ok.mpr ⟨_, after, run, rfl⟩
  rw [primary, Parse.lookahead_bind, found, ← read]
  unfold Lexeme.literal? at isLiteral
  split at isLiteral <;> cases isLiteral <;> rfl

/-- The slash that a regular expression begins with is read again. -/
theorem reread_of_rereads {token : Token} {length : Nat} {slash : Lexeme} {front : List Char}
    (rereads : token.RereadsFrom length slash front)
    (stands : state.Stands scope (.literal token.text :: words)) :
    state.lookahead.lexeme = slash ∧ ∃ after, reread front state = .ok () after ∧
      after.scope = scope ∧ after.cursor.rest = Word.spaced words ∧
      after.lookahead.lexeme = token.lexeme ∧ after.lookahead.text = token.text ∧
      after.lookahead.flags.hasLegacyEscape = false := by
  obtain ⟨⟨flags, opens⟩, isSlash, within, -, again⟩ := rereads
  obtain ⟨text, here, begins⟩ := stands.begins
  cases begins with
  | some opensToo _ textToo =>
    obtain ⟨rfl, rfl, rfl⟩ := opens.unique opensToo
    change state.cursor.rest = token.text.toList.drop length ++ Word.spaced words at here
    change state.lookahead.text = String.ofList (token.text.toList.take length) at textToo
    have read := again _ (Word.separated_spaced words)
    rw [← here] at read
    have long : (token.text.toList.drop length).length = token.text.length - length := by
      rw [List.length_drop, String.length_toList]
    obtain ⟨next, cursor, scanned, lexeme, text, flags, behind⟩ :
        ∃ next cursor, Scan.regularExpression state.lookahead front state.cursor = .ok next cursor ∧
          next.lexeme = token.lexeme ∧ next.text = token.text ∧
          next.flags.hasLegacyEscape = false ∧ cursor.rest = Word.spaced words := by
      refine ⟨_, _, Scan.regularExpression_eq_ok.mpr ⟨_, _, read, rfl, rfl⟩, rfl, ?_, rfl, ?_⟩
      · dsimp only
        rw [textToo, here, List.take_left' long, ← String.ofList_append, List.take_append_drop,
          String.ofList_toList]
      · rw [Cursor.rest_pass, here, List.drop_left' long]
    refine ⟨rfl, { state with cursor, lookahead := next, events := .reread next :: state.events },
      ?_, stands.scope, behind, lexeme, text, flags⟩
    rw [reread, Parse.lookahead_bind]
    refine bind_eq_ok.mpr ⟨next, { state with cursor }, ?_, rfl⟩
    rw [scan, scanned]

/-- A regular expression is read from its slash and read again from there. -/
theorem literal_of_rereads {token : Token} {length : Nat} {slash : Lexeme} {front : List Char}
    {value : Literal} (rereads : token.RereadsFrom length slash front)
    (isLiteral : token.lexeme.literal? = some value)
    (stands : state.Stands scope (.literal token.text :: words)) (self : Nonterminals) :
    ∃ span after, primary self state = .ok (.literal value token.text span) after ∧
      after.Stands scope words := by
  obtain ⟨rfl, between, run, here, behind, lexeme, text, plain⟩ := reread_of_rereads rereads stands
  obtain ⟨-, isSlash, -⟩ := rereads
  obtain ⟨after, runLiteral, standsAfter⟩ := literalToken_of_spaced here behind
    (fun word member => stands.legible word (.tail _ member)) fun _ => plain
  rw [text] at runLiteral
  refine ⟨between.lookahead.span, after, ?_, standsAfter⟩
  have again : regularExpression front state =
      .ok (.literal value token.text between.lookahead.span) after := by
    refine bind_eq_ok.mpr ⟨(), between, run, ?_⟩
    rw [Parse.lookahead_bind, lexeme, isLiteral]
    exact bind_eq_ok.mpr ⟨_, after, runLiteral, rfl⟩
  rw [primary, Parse.lookahead_bind, ← again]
  unfold Scan.slash? at isSlash
  split at isSlash
  · rename_i found
    cases isSlash
    rw [found]
    rfl
  · rename_i found
    cases isSlash
    rw [found]
    rfl
  · cases isSlash

end Literals

/-- A literal that the scope allows. -/
protected theorem literal {value : Literal} (writable : token.IsWritable)
    (isLiteral : token.lexeme.literal? = some value) (allowed : scope.AllowsLiteral token)
    (self : Nonterminals) (span : Span) :
    (primary self).Takes scope [.literal token.text]
      (Located.Resembles · (.literal value token.text span)) scope rest := fun state stands => by
  have stands : state.Stands scope (.literal token.text :: rest) := stands
  rcases writable.text with ⟨flags, opens, same⟩ | ⟨length, slash, front, rereads⟩
  · obtain ⟨after, run, standsAfter⟩ := literal_of_is opens isLiteral
      (fun strict => same.trans (allowed strict)) stands self
    exact ⟨_, after, run, rfl, standsAfter⟩
  · obtain ⟨_, after, run, standsAfter⟩ :=
      literal_of_rereads rereads isLiteral stands self
    exact ⟨_, after, run, rfl, standsAfter⟩

/-! ### Names of properties -/

/-- The token of a literal as the name of a property. -/
theorem literalKey_of_is {raw : String} {lexeme : Lexeme} {flags : Flags} {value : Literal}
    (is : (Word.literal raw).Is lexeme flags)
    (allowed : scope.context.strict = true → flags.hasLegacyEscape = false) (span : Span) :
    (literalKey value).Takes scope [.literal raw]
      (Located.Resembles · (.literal value raw span)) scope rest := fun state stands => by
  have stands : state.Stands scope (.literal raw :: rest) := stands
  obtain ⟨after, run, standsAfter⟩ := literalToken_of_is is allowed stands
  exact ⟨_, after, bind_eq_ok.mpr ⟨_, after, run, rfl⟩, rfl, standsAfter⟩

/-- The name of a property, whichever sort it is of. -/
protected theorem propertyKey {key : PropertyKey} (writable : token.IsWritable)
    (hasKey : scope.HasKey token key) :
    propertyKey.Takes scope [key.word] (Located.Resembles · key) scope rest := by
  cases hasKey with
  | literal value kind isLiteral allowed =>
    have plain : token.kind ≠ .regularExpressionLiteral := by
      rcases kind with kind | kind <;> simp [kind]
    obtain ⟨flags, is, same⟩ := writable.is_literal plain
    have takes : (literalKey value).Takes scope [.literal token.text]
        (Located.Resembles · (.literal value token.text token.span)) scope rest :=
      literalKey_of_is is (fun strict => same.trans (allowed strict)) token.span
    refine lookahead_bind (Word.Show.of_is is) fun other found => ?_
    rw [found.1]
    cases lexeme : token.lexeme with
    | string text =>
      rw [lexeme] at isLiteral
      cases isLiteral
      exact takes
    | number number =>
      rw [lexeme] at isLiteral
      cases isLiteral
      exact takes
    | _ => simp [Token.kind, lexeme, Lexeme.kind] at kind
  | name isName =>
    obtain ⟨lexeme, flags, is, isNameToo, -⟩ := writable.is_property isName
    have takes : (PropertyKey.identifier <$> identifierName).Takes scope
        [.named (token.name?.getD "")]
        (Located.Resembles · (.identifier ⟨token.name?.getD "", token.span⟩)) scope rest :=
      .map (.identifierName writable isName token.span)
        fun _ same => congrArg PropertyKey.identifier same
    refine lookahead_bind (Word.Show.of_is is) fun other found => ?_
    rw [found.1]
    cases lexeme with
    | string | number => contradiction
    | _ => exact takes

end Parse.Takes

/-- The name of a property begins with a token that can be one. -/
theorem Scope.HasKey.shows {scope : Scope} {token : Token} {key : PropertyKey} {words : List Word}
    (hasKey : scope.HasKey token key) (writable : token.IsWritable) :
    Word.Show (key.word :: words) (startsPropertyKey ·.kind = true) := by
  cases hasKey with
  | literal value kind _ _ =>
    obtain ⟨flags, is, -⟩ := writable.is_literal (by rcases kind with kind | kind <;> simp [kind])
    intro other text begins
    have same := Word.Show.kind_of_is is other text begins
    change startsPropertyKey other.kind = true
    rw [same]
    rcases kind with kind | kind <;> rw [← Token.kind, kind] <;> rfl
  | name isName =>
    obtain ⟨lexeme, flags, is, isNameToo, -⟩ := writable.is_property isName
    intro other text begins
    have same := Word.Show.kind_of_is is other text begins
    change startsPropertyKey other.kind = true
    rw [same, startsPropertyKey, isNameToo]
    rfl

theorem Scope.HasKey.isLegible {scope : Scope} {token : Token} {key : PropertyKey}
    (hasKey : scope.HasKey token key) (writable : token.IsWritable) : key.word.IsLegible := by
  cases hasKey with
  | literal => exact writable.isLegible_literal
  | name isName =>
    obtain ⟨lexeme, flags, is, -⟩ := writable.is_property isName
    exact is.isLegible

end EcmaScript
