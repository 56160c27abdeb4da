import EcmaScript.Proofs.Completion
import EcmaScript.Proofs.WordText

/-!
# Parsing words

A state stands at some words when its token of lookahead is read from the first of them and the text
that remains is that of the others. An action takes words when it succeeds from every state that
stands at them, whatever other words come after these, and leaves the state at the others. Actions
one behind the other take words one behind the other.
-/

namespace EcmaScript

open Parse

namespace Word

/-- The characters of words, with a space in front of each. -/
def spaced (words : List Word) : List Char :=
  words.flatMap fun word => ' ' :: word.text.toList

theorem separated_spaced (words : List Word) : Separated (spaced words) := by
  cases words with
  | nil => exact nofun
  | cons => exact separated_cons (by decide)

/-- A word begins with a token, wherever it stands. -/
def IsLegible (word : Word) : Prop :=
  ∃ length lexeme flags, Lexeme.Opens word.text.toList length lexeme flags

/-- A word is a token. -/
def Is (word : Word) (lexeme : Lexeme) (flags : Flags) : Prop :=
  Lexeme.Opens word.text.toList word.text.length lexeme flags

theorem Is.isLegible {word : Word} {lexeme : Lexeme} {flags : Flags} (is : word.Is lexeme flags) :
    word.IsLegible :=
  ⟨_, _, _, is⟩

theorem is_symbol (item : Symbol) : ∃ flags, Word.Is item (.symbol item) flags :=
  item.opens

theorem isLegible_symbol (item : Symbol) : IsLegible item :=
  ⟨_, _, item.opens⟩

end Word

open Word (spaced)

theorem Lexeme.Opens.unique {text : List Char} {length lengthToo : Nat} {lexeme lexemeToo : Lexeme}
    {flags flagsToo : Flags} (opens : Lexeme.Opens text length lexeme flags)
    (opensToo : Lexeme.Opens text lengthToo lexemeToo flagsToo) :
    length = lengthToo ∧ lexeme = lexemeToo ∧ flags = flagsToo := by
  have same := (opens.read [] nofun).symm.trans (opensToo.read [] nofun)
  cases same
  exact ⟨rfl, rfl, rfl⟩

/-- A token is read from the beginning of some words, and a text remains behind it. -/
inductive Token.Begins (token : Token) : List Word → List Char → Prop where
  | none : token.lexeme = .endOfFile → token.Begins [] []
  | some {word : Word} {words : List Word} {length : Nat} {flags : Flags} :
      Lexeme.Opens word.text.toList length token.lexeme flags →
      token.flags = { flags with lineBreak := false } →
      token.text = String.ofList (word.text.toList.take length) →
      token.Begins (word :: words) (word.text.toList.drop length ++ spaced words)

/-- A state has some words before it, the first as its lookahead. -/
structure State.Stands (scope : Scope) (words : List Word) (state : State) : Prop where
  scope : state.scope = scope
  legible : ∀ word ∈ words, word.IsLegible
  begins : ∃ text, state.cursor.rest = text ∧ state.lookahead.Begins words text

/-- What holds of every token that the words begin with. -/
def Word.Show (words : List Word) (property : Token → Prop) : Prop :=
  ∀ token text, token.Begins words text → property token

namespace Token.Begins

variable {token : Token} {word : Word} {words : List Word} {text : List Char}

/-- A word that is a token is all of that token. -/
theorem of_is {lexeme : Lexeme} {flags : Flags} (begins : token.Begins (word :: words) text)
    (is : word.Is lexeme flags) :
    token.lexeme = lexeme ∧ token.flags = { flags with lineBreak := false } ∧
      token.text = word.text ∧ text = spaced words := by
  cases begins with
  | some opens flags text =>
    obtain ⟨rfl, rfl, rfl⟩ := opens.unique is
    rw [List.take_of_length_le (Nat.le_of_eq String.length_toList), String.ofList_toList] at text
    refine ⟨rfl, flags, text, ?_⟩
    rw [List.drop_of_length_le (Nat.le_of_eq String.length_toList), List.nil_append]

theorem of_symbol {item : Symbol} (begins : token.Begins (.symbol item :: words) text) :
    token.lexeme = .symbol item := by
  obtain ⟨flags, is⟩ := Word.is_symbol item
  exact (begins.of_is is).1

theorem lineBreak (begins : token.Begins (word :: words) text) : token.flags.lineBreak = false := by
  cases begins with
  | some _ flags _ => rw [flags]

end Token.Begins

namespace Word.Show

variable {words : List Word} {property : Token → Prop}

theorem mono {wider : Token → Prop} (shows : Show words property)
    (implies : ∀ token, property token → wider token) : Show words wider :=
  fun token text begins => implies token (shows token text begins)

theorem symbol {item : Symbol} (holds : ∀ token : Token, token.lexeme = .symbol item →
    token.flags.lineBreak = false → property token) : Show (.symbol item :: words) property :=
  fun token _ begins => holds token begins.of_symbol begins.lineBreak

theorem lexeme_symbol (item : Symbol) :
    Show (.symbol item :: words) (·.lexeme = .symbol item) :=
  symbol fun _ is _ => is

theorem kind_symbol (item : Symbol) : Show (.symbol item :: words) (·.kind = .symbol item) :=
  symbol fun _ is _ => congrArg Lexeme.kind is

theorem kind_not {item : Symbol} {other : Kind} (differs : .symbol item ≠ other) :
    Show (.symbol item :: words) (·.kind ≠ other) :=
  (kind_symbol item).mono fun token kind => by rwa [kind]

theorem kind_of_is {word : Word} {lexeme : Lexeme} {flags : Flags} (is : word.Is lexeme flags) :
    Show (word :: words) (·.kind = lexeme.kind) :=
  fun _ _ begins => congrArg Lexeme.kind (begins.of_is is).1

end Word.Show

/-! ### The next word -/

/-- The token of a word is scanned behind a gap. -/
theorem Scan.token_of_gap {cursor : Cursor} {word : Word} {words : List Word} (gap : Nat)
    (legible : word.IsLegible) (here : cursor.rest.drop gap = word.text.toList ++ spaced words)
    (read : Trivia.read cursor.rest = .success gap false) :
    ∃ next after, token cursor = .ok next after ∧ next.Begins (word :: words) after.rest := by
  obtain ⟨length, lexeme, flags, opens⟩ := legible
  have found := opens.read _ (Word.separated_spaced words)
  rw [← here] at found
  refine ⟨_, _, token_eq_ok.mpr ⟨gap, false, length, lexeme, flags, read, found, rfl, rfl⟩, ?_⟩
  change Token.Begins _ _ ((cursor.rest.drop gap).drop length)
  rw [here, List.drop_append_of_le_length opens.within]
  refine .some opens rfl ?_
  dsimp only
  rw [List.take_append_of_le_length opens.within]

/-- Behind a word the token of the next one is scanned. -/
theorem Scan.token_of_spaced {cursor : Cursor} {words : List Word}
    (here : cursor.rest = spaced words) (legible : ∀ word ∈ words, word.IsLegible) :
    ∃ next after, token cursor = .ok next after ∧ next.Begins words after.rest := by
  cases words with
  | nil =>
    refine ⟨_, _, token_eq_ok.mpr ⟨0, false, 0, .endOfFile, {}, by rw [here]; rfl,
      by rw [here]; rfl, rfl, rfl⟩, ?_⟩
    have nothing : (cursor.pass 0).rest = [] := by rw [Cursor.pass_zero]; exact here
    change Token.Begins _ [] ((cursor.pass 0).rest.drop 0)
    rw [nothing]
    exact .none rfl
  | cons word words =>
    have spacedCons : spaced (word :: words) = ' ' :: (word.text.toList ++ spaced words) := by
      simp [spaced]
    have first := legible word List.mem_cons_self
    obtain ⟨length, lexeme, flags, opens⟩ := legible word List.mem_cons_self
    refine token_of_gap 1 first (by rw [here, spacedCons]; rfl) ?_
    rw [here, spacedCons]
    exact Trivia.read_cons_space (opens.trivia _ (Word.separated_spaced words))

/-- The next word takes the place of one that is left behind. -/
theorem State.stands_of_consume {scope : Scope} {words : List Word} {state : State}
    (here : state.scope = scope) (behind : state.cursor.rest = spaced words)
    (legible : ∀ word ∈ words, word.IsLegible) :
    ∃ after, consume state = .ok () after ∧ after.Stands scope words := by
  obtain ⟨next, cursor, scanned, begins⟩ := Scan.token_of_spaced behind legible
  exact ⟨_, consume_eq_ok.mpr ⟨next, cursor, scanned, rfl⟩, here, legible, _, rfl, begins⟩

/-! ### Actions that take words -/

namespace Located

variable {α : Type} [Located α]

/-- Values that differ in nothing but positions. -/
def Resembles (first second : α) : Prop :=
  relocate (fun _ => .first) first = relocate (fun _ => .first) second

theorem Resembles.cons {first second : α} {firsts seconds : List α}
    (same : Resembles first second) (others : Resembles firsts seconds) :
    Resembles (first :: firsts) (second :: seconds) :=
  congrArg₂ List.cons same others

end Located

/-- Words of some values, with commas between them. -/
def Word.separated {α : Type} (spell : α → List Word) : List α → List Word
  | [] => []
  | [value] => spell value
  | value :: values => spell value ++ .symbol Punctuator.comma :: separated spell values

/-- From every state at the words, the action succeeds with an answer of some sort and stops in
front of the rest, where the scope may be another one. -/
def Parse.Takes {α : Type} (action : Parse α) (scope : Scope) (words : List Word)
    (answer : α → Prop) (exit : Scope) (rest : List Word) : Prop :=
  ∀ state : State, state.Stands scope (words ++ rest) →
    ∃ value after, action state = .ok value after ∧ answer value ∧ after.Stands exit rest

namespace Parse.Takes

variable {α β : Type} {scope middle exit : Scope} {words front back rest : List Word}
  {answer : α → Prop} {answerToo : β → Prop} {action : Parse α} {next : α → Parse β}

protected theorem pure {value : α} (holds : answer value) :
    (pure value : Parse α).Takes scope [] answer scope rest :=
  fun state stands => ⟨value, state, rfl, holds, stands⟩

theorem bind (first : action.Takes scope front answer middle (back ++ rest))
    (second : ∀ value, answer value → (next value).Takes middle back answerToo exit rest) :
    (action >>= next).Takes scope (front ++ back) answerToo exit rest := fun state stands => by
  rw [List.append_assoc] at stands
  obtain ⟨value, between, run, holds, standsBetween⟩ := first state stands
  obtain ⟨result, after, runNext, holdsToo, standsAfter⟩ := second value holds between standsBetween
  exact ⟨result, after, bind_eq_ok.mpr ⟨value, between, run, runNext⟩, holdsToo, standsAfter⟩

/-- The last of the words are taken by the first of two actions. -/
theorem last (first : action.Takes scope words answer middle rest)
    (second : ∀ value, answer value → (next value).Takes middle [] answerToo exit rest) :
    (action >>= next).Takes scope words answerToo exit rest := by
  have takes : (action >>= next).Takes scope (words ++ []) answerToo exit rest := bind first second
  rwa [List.append_nil] at takes

/-- The first of two actions takes no word. -/
theorem silent (first : action.Takes scope [] answer middle (words ++ rest))
    (second : ∀ value, answer value → (next value).Takes middle words answerToo exit rest) :
    (action >>= next).Takes scope words answerToo exit rest := by
  have takes : (action >>= next).Takes scope ([] ++ words) answerToo exit rest := bind first second
  exact takes

theorem pure_bind {value : α} (takes : (next value).Takes scope words answerToo exit rest) :
    (Pure.pure value >>= next).Takes scope words answerToo exit rest := by
  rwa [LawfulMonad.pure_bind]

theorem map_bind {γ : Type} {action : Parse γ} {change : γ → α}
    (takes : (action >>= fun value => next (change value)).Takes scope words answerToo exit rest) :
    (change <$> action >>= next).Takes scope words answerToo exit rest := by
  rwa [bind_map_left]

theorem map {change : α → β} (takes : action.Takes scope words answer exit rest)
    (changed : ∀ value, answer value → answerToo (change value)) :
    (change <$> action).Takes scope words answerToo exit rest :=
  map_eq_pure_bind change action ▸ last takes fun value holds => .pure (changed value holds)

theorem ite_pos {condition : Prop} [Decidable condition] {other : Parse α} (holds : condition)
    (takes : action.Takes scope words answer exit rest) :
    (if condition then action else other).Takes scope words answer exit rest := by
  rwa [if_pos holds]

theorem ite_neg {condition : Prop} [Decidable condition] {other : Parse α} (fails : ¬condition)
    (takes : action.Takes scope words answer exit rest) :
    (if condition then other else action).Takes scope words answer exit rest := by
  rwa [if_neg fails]

/-! ### What an action looks at -/

theorem lookahead_bind {next : Token → Parse β} {property : Token → Prop}
    (shows : Word.Show (words ++ rest) property)
    (takes : ∀ token, property token → (next token).Takes scope words answerToo exit rest) :
    (lookahead >>= next).Takes scope words answerToo exit rest := fun state stands => by
  obtain ⟨text, -, begins⟩ := stands.begins
  exact takes state.lookahead (shows _ _ begins) state stands

theorem kind_bind_of {next : Kind → Parse β} (property : Kind → Prop)
    (shows : Word.Show (words ++ rest) (property ·.kind))
    (takes : ∀ kind, property kind → (next kind).Takes scope words answerToo exit rest) :
    (Parse.kind >>= next).Takes scope words answerToo exit rest := by
  rw [Parse.kind, bind_assoc]
  exact lookahead_bind shows fun token holds => takes token.kind holds

theorem kind_bind {next : Kind → Parse β} {kind : Kind}
    (shows : Word.Show (words ++ rest) (·.kind = kind))
    (takes : (next kind).Takes scope words answerToo exit rest) :
    (Parse.kind >>= next).Takes scope words answerToo exit rest :=
  kind_bind_of (· = kind) shows fun _ same => same ▸ takes

theorem sees_bind {next : Bool → Parse β} {kind expected : Kind}
    (shows : Word.Show (words ++ rest) (·.kind = kind))
    (takes : (next (kind == expected)).Takes scope words answerToo exit rest) :
    (sees expected >>= next).Takes scope words answerToo exit rest := by
  rw [sees, bind_assoc]
  exact kind_bind shows takes

theorem sees_not {next : Bool → Parse β} {expected : Kind}
    (shows : Word.Show (words ++ rest) (·.kind ≠ expected))
    (takes : (next false).Takes scope words answerToo exit rest) :
    (sees expected >>= next).Takes scope words answerToo exit rest := fun state stands => by
  obtain ⟨text, -, begins⟩ := stands.begins
  have differs := beq_eq_false_iff_ne.mpr (shows _ _ begins)
  obtain ⟨value, after, run, holds, standsAfter⟩ := takes state stands
  refine ⟨value, after, ?_, holds, standsAfter⟩
  rw [Parse.sees_bind, differs, run]

theorem nodeStart_bind {next : Position → Parse β}
    (takes : ∀ start, (next start).Takes scope words answerToo exit rest) :
    (nodeStart >>= next).Takes scope words answerToo exit rest :=
  fun state stands => takes state.lookahead.span.start state stands

theorem spanFrom_bind {start : Position} {next : Span → Parse β}
    (takes : ∀ span, (next span).Takes scope words answerToo exit rest) :
    (spanFrom start >>= next).Takes scope words answerToo exit rest :=
  fun state stands => takes ⟨start, state.consumedEnd⟩ state stands

theorem isStrict_bind {next : Bool → Parse β}
    (takes : (next scope.context.strict).Takes scope words answerToo exit rest) :
    (isStrict >>= next).Takes scope words answerToo exit rest := fun state stands => by
  obtain ⟨rfl⟩ := stands.scope
  exact takes state stands

theorem get_bind {next : State → Parse β}
    (takes : ∀ state : State, state.scope = scope →
      (next state).Takes scope words answerToo exit rest) :
    (get >>= next).Takes scope words answerToo exit rest :=
  fun state stands => takes state stands.scope state stands

/-! ### Single words -/

/-- A word that is a token is consumed. -/
protected theorem consume {word : Word} {lexeme : Lexeme} {flags : Flags}
    (is : word.Is lexeme flags) :
    consume.Takes scope [word] (fun _ => True) scope rest := fun state stands => by
  obtain ⟨text, here, begins⟩ := stands.begins
  obtain ⟨after, run, standsAfter⟩ := State.stands_of_consume stands.scope
    (here.trans (begins.of_is is).2.2.2) fun word member => stands.legible word (.tail _ member)
  exact ⟨(), after, run, trivial, standsAfter⟩

theorem consume_bind {word : Word} {lexeme : Lexeme} {flags : Flags} {next : Unit → Parse β}
    (is : word.Is lexeme flags) (takes : (next ()).Takes scope words answerToo exit rest) :
    (consume >>= next).Takes scope (word :: words) answerToo exit rest := by
  have whole : (consume >>= next).Takes scope ([word] ++ words) answerToo exit rest :=
    bind (.consume is) fun _ _ => takes
  exact whole

theorem consume_symbol_bind {item : Symbol} {next : Unit → Parse β}
    (takes : (next ()).Takes scope words answerToo exit rest) :
    (consume >>= next).Takes scope (.symbol item :: words) answerToo exit rest := by
  obtain ⟨flags, is⟩ := Word.is_symbol item
  exact consume_bind is takes

theorem require_bind {item : Symbol} {next : Unit → Parse β}
    (takes : (next ()).Takes scope words answerToo exit rest) :
    (require (.symbol item) >>= next).Takes scope (.symbol item :: words) answerToo exit rest := by
  rw [require, bind_assoc]
  refine sees_bind (Word.Show.kind_symbol item) ?_
  rw [beq_self_eq_true, if_pos rfl]
  exact consume_symbol_bind takes

theorem consumeIf_bind {item : Symbol} {next : Bool → Parse β}
    (takes : (next true).Takes scope words answerToo exit rest) :
    (consumeIf (.symbol item) >>= next).Takes scope (.symbol item :: words) answerToo exit
      rest := by
  rw [consumeIf, bind_assoc]
  refine sees_bind (Word.Show.kind_symbol item) ?_
  rw [beq_self_eq_true, if_pos rfl, bind_assoc]
  exact consume_symbol_bind takes

theorem consumeIf_not {expected : Kind} {next : Bool → Parse β}
    (shows : Word.Show (words ++ rest) (·.kind ≠ expected))
    (takes : (next false).Takes scope words answerToo exit rest) :
    (consumeIf expected >>= next).Takes scope words answerToo exit rest := by
  rw [consumeIf, bind_assoc]
  exact sees_not shows takes

/-- A semicolon that is written ends a statement. -/
protected theorem semicolon :
    semicolon.Takes scope [.symbol Punctuator.semicolon] (fun _ => True) scope rest := by
  rw [semicolon]
  exact consumeIf_bind (.pure trivial)

theorem semicolon_bind {next : Unit → Parse β}
    (takes : (next ()).Takes scope [] answerToo exit rest) :
    (semicolon >>= next).Takes scope [.symbol Punctuator.semicolon] answerToo exit rest :=
  last .semicolon fun _ _ => takes

/-! ### Surroundings -/

/-- An action in other surroundings, which end with it. -/
theorem within {enter : State → State} {leave : State → State → State} {inner last : Scope}
    (takes : action.Takes inner words answer last rest)
    (enters : ∀ state : State, state.scope = scope → (enter state).scope = inner ∧
      (enter state).lookahead = state.lookahead ∧ (enter state).cursor = state.cursor)
    (leaves : ∀ before after : State, before.scope = scope → after.scope = last →
      (leave before after).scope = scope ∧ (leave before after).lookahead = after.lookahead ∧
        (leave before after).cursor = after.cursor) :
    (Parse.within enter leave action).Takes scope words answer scope rest := fun state stands => by
  obtain ⟨scopeIn, lookaheadIn, cursorIn⟩ := enters state stands.scope
  obtain ⟨value, after, run, holds, standsAfter⟩ := takes (enter state)
    ⟨scopeIn, stands.legible, by rw [lookaheadIn, cursorIn]; exact stands.begins⟩
  obtain ⟨scopeOut, lookaheadOut, cursorOut⟩ := leaves state after stands.scope standsAfter.scope
  refine ⟨value, leave state after, ?_, holds, scopeOut, standsAfter.legible, ?_⟩
  · rw [Parse.within, run]
  · rw [lookaheadOut, cursorOut]
    exact standsAfter.begins

theorem inContext {change : Context → Context}
    (takes : action.Takes { scope with context := change scope.context } words answer
      { scope with context := change scope.context } rest) :
    (Parse.inContext change action).Takes scope words answer scope rest := by
  refine within takes ?_ ?_
  · rintro state rfl
    exact ⟨rfl, rfl, rfl⟩
  · rintro before after rfl same
    have labels : after.labels = before.labels := congrArg Scope.labels same
    have options : after.options = before.options := congrArg Scope.options same
    exact ⟨congrArg₂ (Scope.mk before.context) labels options, rfl, rfl⟩

theorem withIn (takes : action.Takes scope.withIn words answer scope.withIn rest) :
    (Parse.withIn action).Takes scope words answer scope rest :=
  inContext takes

theorem withoutIn (takes : action.Takes scope.withoutIn words answer scope.withoutIn rest) :
    (Parse.withoutIn action).Takes scope words answer scope rest :=
  inContext takes

theorem inLoop (takes : action.Takes scope.inLoop words answer scope.inLoop rest) :
    (Parse.inLoop action).Takes scope words answer scope rest :=
  inContext takes

theorem inSwitch (takes : action.Takes scope.inSwitch words answer scope.inSwitch rest) :
    (Parse.inSwitch action).Takes scope words answer scope rest :=
  inContext takes

/-- A directive may have made the body of a function strict where it ends. -/
theorem inFunction {last : Scope} (takes : action.Takes scope.inFunction words answer last rest)
    (options : last.options = scope.options) :
    (Parse.inFunction action).Takes scope words answer scope rest := by
  refine within takes ?_ ?_
  · rintro state rfl
    exact ⟨rfl, rfl, rfl⟩
  · rintro before after rfl rfl
    exact ⟨congrArg (Scope.mk before.context before.labels) options, rfl, rfl⟩

theorem withLabel {label : String}
    (takes : action.Takes (scope.withLabel label) words answer (scope.withLabel label) rest) :
    (Parse.withLabel label action).Takes scope words answer scope rest := by
  refine within takes ?_ ?_
  · rintro state rfl
    exact ⟨rfl, rfl, rfl⟩
  · rintro before after rfl same
    have context : after.context = before.context := congrArg Scope.context same
    have labels : after.labels = before.labels.push label := congrArg Scope.labels same
    have options : after.options = before.options := congrArg Scope.options same
    refine ⟨?_, rfl, rfl⟩
    simp only [State.scope, context, labels, options, Labels.pop_push]

/-! ### Lists -/

section Lists

variable [Located α] (Fit : List Word → Prop) {spell : α → List Word} {item : Parse α}

/-- Items are taken up to a word that ends them. What must come after an item comes after all of
them, and each of them may come after another one. -/
theorem itemsUntil {ends : Kind → Bool} {items : List α} {turns : Nat} (fit : Fit rest)
    (fits : ∀ value ∈ items, ∀ others, Fit (spell value ++ others))
    (goesOn : ∀ value ∈ items, ∀ others, Word.Show (spell value ++ others) (ends ·.kind = false))
    (takes : ∀ value ∈ items, ∀ others, Fit others →
      item.Takes scope (spell value) (Located.Resembles · value) scope others)
    (ended : Word.Show rest (ends ·.kind = true)) (enough : items.length < turns) :
    (itemsUntil ends item turns).Takes scope (items.flatMap spell)
      (Located.Resembles · items) scope rest := by
  induction items generalizing turns with
  | nil =>
    obtain ⟨turns, rfl⟩ := Nat.exists_eq_add_one.mpr enough
    rw [Parse.itemsUntil]
    refine fun state stands => ?_
    obtain ⟨text, -, begins⟩ := stands.begins
    refine ⟨[], state, ?_, rfl, stands⟩
    rw [Parse.kind_bind, if_pos (ended _ _ begins)]
    rfl
  | cons first items ih =>
    obtain ⟨turns, rfl⟩ := Nat.exists_eq_add_one.mpr (Nat.zero_lt_of_lt enough)
    have fitNext : Fit (items.flatMap spell ++ rest) := by
      cases items with
      | nil => exact fit
      | cons second items =>
        rw [List.flatMap_cons, List.append_assoc]
        exact fits second (.tail _ (.head _)) _
    have others := ih (fun value member => fits value (.tail _ member))
      (fun value member => goesOn value (.tail _ member))
      (fun value member => takes value (.tail _ member)) (Nat.lt_of_succ_lt_succ enough)
    rw [Parse.itemsUntil, List.flatMap_cons]
    refine fun state stands => ?_
    obtain ⟨text, -, begins⟩ := stands.begins
    rw [List.append_assoc] at begins
    rw [Parse.kind_bind, if_neg (by rw [goesOn first (.head _) _ _ _ begins]; decide)]
    exact bind (takes first (.head _) _ fitNext) (fun value same => last others
      fun values sameToo => .pure (same.cons sameToo)) state stands

/-- Items with commas between them are taken where no other comma comes after them. -/
theorem separated {items : List α} {turns : Nat} (fit : Fit rest)
    (fits : ∀ others, Fit (.symbol Punctuator.comma :: others))
    (takes : ∀ value ∈ items, ∀ others, Fit others →
      item.Takes scope (spell value) (Located.Resembles · value) scope others)
    (ended : Word.Show rest (·.kind ≠ .symbol Punctuator.comma)) (some : items ≠ [])
    (enough : items.length ≤ turns) :
    (separated item turns).Takes scope (Word.separated spell items)
      (Located.Resembles · items) scope rest := by
  induction items generalizing turns with
  | nil => exact absurd rfl some
  | cons first items ih =>
    obtain ⟨turns, rfl⟩ := Nat.exists_eq_add_one.mpr (Nat.zero_lt_of_lt enough)
    rw [Parse.separated]
    cases items with
    | nil =>
      refine last (takes first (.head _) _ fit) fun value same => consumeIf_not ended ?_
      exact ite_neg Bool.false_ne_true (.pure (same.cons rfl))
    | cons second items =>
      have others := ih (fun value member => takes value (.tail _ member)) (by simp)
        (Nat.le_of_succ_le_succ enough)
      refine bind (takes first (.head _) _ (fits _)) fun value same => consumeIf_bind ?_
      exact ite_pos rfl (last others fun values sameToo => .pure (same.cons sameToo))

end Lists

end Parse.Takes

end EcmaScript
