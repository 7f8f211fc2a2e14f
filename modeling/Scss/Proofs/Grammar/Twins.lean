import Scss.Proofs.Grammar.Abreast

/-! The grammar of expressions abreast. Whatever stands between the tokens, two runs take the same
decisions: where a rule looks at trivia it looks at the first token behind one that is none, and where
it goes back, both go back. What one of them has passed on a success is well nested, because a rule
passes each opening, and the closer that it awaits, itself. -/
namespace Scss

open Placed (unplaced)

theorem Token.Alike.isWord {token other : Token} (alike : token.Alike other) (word : String) :
    token.isWord word = other.isWord word := by
  rw [Token.isWord, Token.isWord, ← alike.kind]
  by_cases ident : token.kind = .ident
  · rw [alike.text (by simp [Token.isTrivia, ident, TokenKind.isTrivia])]
  · simp [ident]

theorem Token.Alike.startsValue {token other : Token} (alike : token.Alike other) (stops : List String) :
    Grammar.startsValue stops token = Grammar.startsValue stops other := by
  unfold Grammar.startsValue
  rw [← alike.kind]
  split
  all_goals first | rfl | skip
  · rename_i flag
    rw [alike.text (by simp [Token.isTrivia, flag, TokenKind.isTrivia])]
  · simp only [alike.isWord, funext (alike.isWord ·)]

namespace Parser.Beside

variable {α : Type} [Placed α] {start cursor other : Cursor} {awaited now : List TokenKind}
  {moved : Bool} {goal : Goal α}

/-- Tokens that are looked at behind others that are no trivia. -/
theorem peek_alike {offset : Nat}
    (here : Beside start awaited moved (cursor.advance offset) (other.advance offset) now) :
    (cursor.peek offset).Alike (other.peek offset) := by
  rw [Cursor.peek_eq, Cursor.peek_eq]
  exact here.alike.current

/-- Where such a token is not only looked at. -/
theorem pass_peek {offset : Nat} {kind : TokenKind} {further : List TokenKind}
    (here : Beside start awaited moved (cursor.advance offset) (other.advance offset) now)
    (found : (cursor.peek offset).kind = kind) (turns : TokenKind.Turns now kind further)
    (visible : kind.isTrivia = false) :
    Beside start awaited true (cursor.advance (offset + 1)) (other.advance (offset + 1)) further := by
  rw [← Cursor.advance_advance, ← Cursor.advance_advance]
  rw [Cursor.peek_eq] at found
  exact here.pass found turns visible

/-- Three points are the same three points on both sides. -/
theorem atEllipsis (here : Beside start awaited moved cursor other now)
    {next nextTwin : Bool → Parser α}
    (yes : Beside start awaited true (cursor.advance 3) (other.advance 3) now →
      Abreast start awaited goal (next true) cursor (nextTwin true) other)
    (no : Abreast start awaited goal (next false) cursor (nextTwin false) other) :
    Abreast start awaited goal (Grammar.atEllipsis >>= next) cursor
      (Grammar.atEllipsis >>= nextTwin) other := by
  have first : Beside start awaited moved (cursor.advance 0) (other.advance 0) now := here
  have pass {moved : Bool} {offset : Nat}
      (here : Beside start awaited moved (cursor.advance offset) (other.advance offset) now)
      (point : (cursor.peek offset).kind = .dot) :=
    here.pass_peek point (.plain rfl) rfl
  have points : ((cursor.peek 0).kind = .dot ∧ (cursor.peek 1).kind = .dot ∧
      (cursor.peek 2).kind = .dot) ↔ ((other.peek 0).kind = .dot ∧ (other.peek 1).kind = .dot ∧
      (other.peek 2).kind = .dot) := by
    rw [first.peek_alike.kind]
    refine and_congr_right fun one => ?_
    have second := pass first (first.peek_alike.kind.trans one)
    rw [second.peek_alike.kind]
    refine and_congr_right fun two => ?_
    rw [(pass second (second.peek_alike.kind.trans two)).peek_alike.kind]
  have shape (cursor : Cursor) : ([0, 1, 2].all fun offset => (cursor.peek offset).kind = .dot) =
      decide ((cursor.peek 0).kind = .dot ∧ (cursor.peek 1).kind = .dot ∧
        (cursor.peek 2).kind = .dot) := by
    simp [Bool.decide_and]
  refine ⟨?_⟩
  change Concur _ _ (next ([0, 1, 2].all _) cursor) (nextTwin ([0, 1, 2].all _) other)
  rw [shape, shape, ← decide_eq_decide.mpr points]
  by_cases all : (cursor.peek 0).kind = .dot ∧ (cursor.peek 1).kind = .dot ∧ (cursor.peek 2).kind = .dot
  · rw [decide_eq_true all]
    exact (yes (pass (pass (pass first all.1) all.2.1) all.2.2)).outcome
  · rw [decide_eq_false all]
    exact no.outcome

end Parser.Beside

namespace Grammar

open Scss.Parser (Twins Beside Abreast Goal)

def nameRound (self : Self) : Template × Bool → Parser (Parser.Next (Template × Bool) Expr)
  | (template, joins) => do
    let token ← Parser.current
    match token.kind with
    | .ident =>
      if joins then
        Parser.advance 1
        return .again (template.pushLiteral token.text, false)
      else return .done (.interpolated template)
    | .interpolation =>
      let expr ← embedded self
      return .again (template.pushExpr expr, true)
    | .minus =>
      if joins && !template.parts.isEmpty && (← Parser.peek 1).kind = .interpolation then
        Parser.advance 1
        return .again (template.pushLiteral "-", false)
      else return .done (.interpolated template)
    | _ => return .done (.interpolated template)

theorem interpolatedName_eq (self : Self) : interpolatedName self = (do
    let line := (← Parser.current).line
    Parser.loop (⟨[], line⟩, true) (nameRound self)) := rfl

def argumentValue (self : Self) (name : Option String) : Parser (Argument Expr × Bool) := do
  let value ← self .space
  Parser.skipTrivia
  let rest ← atEllipsis
  if rest then
    Parser.advance 3
    Parser.skipTrivia
  return (⟨name, value, rest⟩, ← Parser.accept .comma)

theorem callArgument_eq (self : Self) : callArgument self = (do
    let first ← Parser.current
    let second ← Parser.significant 1
    if first.kind = .dollar && second.kind = .colon then
      Parser.advance 1
      Parser.skipTrivia
      let _ ← Parser.expect .colon
      Parser.skipTrivia
      argumentValue self (some first.name)
    else argumentValue self none) := by
  unfold callArgument
  refine bind_congr fun first => bind_congr fun second => ?_
  dsimp only
  split <;> rfl

/-- A list without brackets with brackets, or the list of what is no such list. -/
def bracketing (inner : Expr) (line : Nat) : Expr :=
  match inner with
  | .list items separator false line => .list items separator true line
  | single => .list [single] .space true line

theorem bracketed_eq (self : Self) : bracketed self = (do
    let line := (← Parser.expect .leftBracket).line
    Parser.skipTrivia
    if ← Parser.accept .rightBracket then return .list [] .space true line
    let inner ← self .comma
    Parser.skipTrivia
    let _ ← Parser.expect .rightBracket
    return bracketing inner line) := by
  unfold bracketed bracketing
  refine bind_congr fun opening => bind_congr fun _ => bind_congr fun closed => ?_
  refine if_congr Iff.rfl rfl (bind_congr fun inner => bind_congr fun _ => bind_congr fun _ => ?_)
  cases inner with
  | list items separator brackets line => cases brackets <;> rfl
  | _ => rfl

theorem unplaced_bracketing (inner : Expr) (line : Nat) :
    (bracketing inner line).unplaced = bracketing inner.unplaced 0 := by
  unfold bracketing
  cases inner with
  | list items separator brackets line =>
    cases brackets <;> simp [Expr.unplaced, unplacedItems]
  | _ => simp [Expr.unplaced, unplacedItems]

/-- The operators of a table neither open nor close anything. -/
def PlainTable (table : TokenKind → Option BinaryOp) : Prop :=
  ∀ {kind : TokenKind} {op : BinaryOp}, table kind = some op →
    kind.isPlain = true ∧ kind.isTrivia = false

theorem plain_productOp : PlainTable productOp := by
  intro kind op found
  cases kind <;> first | exact ⟨rfl, rfl⟩ | cases found

theorem plain_sumOp : PlainTable sumOp := by
  intro kind op found
  cases kind <;> first | exact ⟨rfl, rfl⟩ | cases found

theorem plain_comparisonOp : PlainTable comparisonOp := by
  intro kind op found
  cases kind <;> first | exact ⟨rfl, rfl⟩ | cases found

theorem unplaced_signed (negative : Bool) (line : Nat) (operand : Expr) :
    (signed negative line operand).unplaced = signed negative 0 operand.unplaced := by
  cases operand <;> simp [signed, Expr.unplaced]

/-- What a word is on its own lies in its text. -/
theorem unplaced_wordValue {token other : Token} (text : token.text = other.text) :
    unplaced (wordValue token) = unplaced (wordValue other) := by
  simp only [unplaced_expr, wordValue, text]
  split_ifs <;> rfl

/-- A complete expression, over rows that are alike. -/
theorem coincide_complete {expression : Parser Expr}
    (twins : Twins [] (.always true []) expression expression) {tokens others : List Token}
    (alike : Alike tokens others) :
    Coincide (Parser.onTokens (complete expression) tokens)
      (Parser.onTokens (complete expression) others) := by
  have whole : Twins [] (.always true []) (complete expression) (complete expression) := by
    refine .of_beside fun cursor other here => here.skip fun here => ?_
    refine here.andThen twins fun expr twin _ _ same here => here.skip fun here => ?_
    refine here.atEnd fun ended => .ite Iff.rfl (fun _ => ?_) fun _ => .unexpected
    exact here.done same (fun _ => rfl) rfl
  exact (whole _ _ (Cursor.Alike.ofTokens alike)).outcome.bind fun arrives => .ok arrives.same

section Expressions

variable {self : Self} (inner : ∀ form, Twins [] (.always true []) (self form) (self form))

include inner

theorem twins_embedded : Twins [] (.always true []) (embedded self) (embedded self) := by
  refine .of_beside fun cursor other here => here.expect (.opening rfl) rfl fun here => ?_
  refine here.skip fun here => here.andThen (inner .comma) fun expr twin _ _ same here => ?_
  refine here.skip fun here => here.expect (.closing nofun) rfl fun here => ?_
  exact here.done same (fun _ => rfl) rfl

theorem twins_argumentValue (name : Option String) :
    Twins [] (.always true []) (argumentValue self name) (argumentValue self name) := by
  refine .of_beside fun cursor other here => ?_
  refine here.andThen (inner .space) fun value twin _ _ same here => here.skip fun here => ?_
  refine here.atEllipsis (fun behind => .advance (behind.skip fun here => ?_)) ?_
  · refine here.accept (.plain rfl) rfl (fun here => ?_) ?_
    · exact here.done (by simp_all) (fun _ => rfl) rfl
    · exact here.done (by simp_all) (fun _ => rfl) rfl
  · refine here.accept (.plain rfl) rfl (fun here => ?_) ?_
    · exact here.done (by simp_all) (fun _ => rfl) rfl
    · exact here.done (by simp_all) (fun _ => rfl) rfl

theorem twins_callArgument : Twins [] (.always true []) (callArgument self) (callArgument self) := by
  rw [callArgument_eq]
  refine .of_beside fun cursor other here => .current (.significant ?_)
  have text := here.alike.current.text
  have kind := here.alike.current.kind
  rw [Cursor.significant_eq, Cursor.significant_eq]
  refine .ite ?_ (fun named => .advance ?_) fun _ => ?_
  · simp only [Bool.and_eq_true, decide_eq_true_eq, ← kind]
    refine and_congr_right fun dollar => ?_
    rw [(here.pass dollar (.plain rfl) rfl).skipTrivia.alike.current.kind]
  · simp only [Bool.and_eq_true, decide_eq_true_eq] at named
    rw [Token.name, Token.name, ← text (by simp [Token.isTrivia, named.1, TokenKind.isTrivia])]
    have behind := here.pass named.1 (.plain rfl) rfl
    refine behind.skip fun here => here.expect (.plain rfl) rfl fun here => here.skip fun here => ?_
    exact here.last (twins_argumentValue inner _) (fun _ _ => rfl) fun _ => rfl
  · exact here.last (twins_argumentValue inner _) (fun _ _ => rfl) fun _ => rfl

theorem twins_callArguments :
    Twins [] (.always true []) (callArguments self) (callArguments self) := by
  refine .of_beside fun cursor other here => here.expect (.opening rfl) rfl fun here => ?_
  refine here.finish (.loop [.rightParen] [] (fun args others same => ?_) rfl) (fun _ _ => rfl)
    fun _ => rfl
  refine .of_beside fun cursor other here => here.skip fun here => ?_
  refine here.accept (.closing nofun) rfl (fun here => ?_) ?_
  · exact here.done (by simp_all) (fun _ => rfl) rfl
  · refine here.andThen (twins_callArgument inner) ?_
    rintro ⟨arg, more⟩ ⟨argTwin, moreTwin⟩ _ _ both here
    obtain ⟨own, rfl⟩ : unplaced arg = unplaced argTwin ∧ more = moreTwin := Prod.mk.inj both
    have longer : unplaced (args ++ [arg]) = unplaced (others ++ [argTwin]) := by
      simp_all
    refine .ite Iff.rfl (fun _ => ?_) fun _ => here.expect (.closing nofun) rfl fun here => ?_
    · exact here.done (congrArg Parser.Next.again longer) (fun _ => rfl) rfl
    · exact here.done (congrArg Parser.Next.done longer) (fun _ => rfl) rfl

/-- One round of a name. The first of a name that text or an expression starts moves. -/
theorem abreast_nameRound {template templateTwin : Template} {joins moves : Bool}
    (same : unplaced template = unplaced templateTwin) {start other : Cursor}
    (here : Beside start [] false start other [])
    (opens : moves = true → joins = true ∧
      (start.current.kind = .ident ∨ start.current.kind = .interpolation)) :
    Abreast start [] (.round [] [] moves) (nameRound self (template, joins)) start
      (nameRound self (templateTwin, joins)) other := by
  refine .current ?_
  rw [← here.alike.current.kind]
  split
  · rename_i word
    refine .ite Iff.rfl (fun _ => .advance ?_) fun closed => here.done ?_ ?_ rfl
    · rw [here.alike.current.text (by simp [Token.isTrivia, word, TokenKind.isTrivia])]
      refine (here.pass word (.plain rfl) rfl).done ?_ (fun _ => rfl) rfl
      simp_all
    · simp_all [Expr.unplaced]
    · exact fun moves => absurd (opens moves).1 closed
  · refine here.andThen (twins_embedded inner) fun expr twin _ _ both here => ?_
    exact here.done (by simp_all) (fun _ => rfl) rfl
  · rename_i hyphen
    have behind := here.pass hyphen (.plain rfl) rfl
    have still : moves = true → False := by simp_all
    refine .peek (.ite ?_ (fun _ => .advance ?_) fun _ => here.done ?_ (fun moves => ?_) rfl)
    · rw [behind.peek_alike.kind, ← parts_isEmpty_unplaced, same, parts_isEmpty_unplaced]
    · refine behind.done ?_ (fun _ => rfl) rfl
      simp_all
    · simp_all [Expr.unplaced]
    · exact (still moves).elim
  · refine here.done ?_ (fun moves => ?_) rfl
    · simp_all [Expr.unplaced]
    · simp_all

theorem abreast_interpolatedName {cursor other : Cursor}
    (here : Beside cursor [] false cursor other [])
    (opens : cursor.current.kind = .ident ∨ cursor.current.kind = .interpolation) :
    Abreast cursor [] (.always true []) (interpolatedName self) cursor (interpolatedName self) other := by
  rw [interpolatedName_eq]
  refine .current (.of_eq (Parser.loop_apply _ _) (Parser.loop_apply _ _) (Abreast.outcome ?_))
  have empty : unplaced (⟨[], cursor.current.line⟩ : Template) = unplaced ⟨[], other.current.line⟩ := rfl
  refine Twins.abreast_loopWithin ?_ here.alike List.countP_le_length List.countP_le_length
    (abreast_nameRound inner empty here fun _ => ⟨rfl, opens⟩)
  rintro ⟨template, joins⟩ ⟨templateTwin, joinsTwin⟩ both
  obtain ⟨same, rfl⟩ : unplaced template = unplaced templateTwin ∧ joins = joinsTwin :=
    Prod.mk.inj both
  exact .of_beside fun cursor other here => abreast_nameRound inner same here nofun

theorem abreast_identifierValue {cursor other : Cursor}
    (here : Beside cursor [] false cursor other []) (word : cursor.current.kind = .ident) :
    Abreast cursor [] (.always true []) (identifierValue self) cursor (identifierValue self) other := by
  have second := here.pass word (.plain rfl) rfl
  have text := here.alike.current.text (by simp [Token.isTrivia, word, TokenKind.isTrivia])
  refine .current (.peek (.peek ?_))
  have call {moved : Bool} {after afterTwin : Cursor} (here : Beside cursor [] moved after afterTwin [])
      (qualifier : Option String) (name : String) (line lineTwin : Nat) :
      Abreast cursor [] (.always true []) (do return Expr.call qualifier name (← callArguments self) line)
        after (do return Expr.call qualifier name (← callArguments self) lineTwin) afterTwin :=
    here.andThen (twins_callArguments inner) fun args argsTwin _ _ same here =>
      here.done (by simp_all [Expr.unplaced]) (fun _ => by simp) rfl
  have dot (point : (cursor.peek 1).kind = .dot) := second.pass_peek point (.plain rfl) rfl
  have member {kind : TokenKind} (visible : kind.isTrivia = false)
      (qualified : (cursor.peek 1).kind = .dot ∧ (cursor.peek 2).kind = kind) :
      (cursor.peek 2).text = (other.peek 2).text :=
    (dot qualified.1).peek_alike.text (by rw [Token.isTrivia, qualified.2, visible])
  have kinds (kind : TokenKind) : ((cursor.peek 1).kind = .dot ∧ (cursor.peek 2).kind = kind) ↔
      ((other.peek 1).kind = .dot ∧ (other.peek 2).kind = kind) := by
    rw [← second.peek_alike.kind]
    exact and_congr_right fun point => by rw [(dot point).peek_alike.kind]
  refine .ite (by rw [second.peek_alike.kind]) (fun _ => .advance ?_) fun _ => ?_
  · rw [text]
    exact call second _ _ _ _
  refine .ite ?_ (fun qualified => .advance ?_) fun _ => .peek (.ite ?_ (fun called => .advance ?_) ?_)
  · simp only [Bool.and_eq_true, decide_eq_true_eq]
    exact kinds .dollar
  · simp only [Bool.and_eq_true, decide_eq_true_eq] at qualified
    rw [text, Token.name, Token.name, ← member rfl qualified]
    exact ((dot qualified.1).pass_peek qualified.2 (.plain rfl) rfl).done rfl (fun _ => rfl) rfl
  · simp only [Bool.and_eq_true, decide_eq_true_eq]
    rw [← kinds .ident]
    refine and_congr_right fun qualified => ?_
    rw [((dot qualified.1).pass_peek qualified.2 (.plain rfl) rfl).peek_alike.kind]
  · simp only [Bool.and_eq_true, decide_eq_true_eq] at called
    rw [text, ← member rfl called.1]
    exact call ((dot called.1.1).pass_peek called.1.2 (.plain rfl) rfl) _ _ _ _
  · refine fun _ => .ite (by rw [second.peek_alike.kind]) (fun _ => ?_) fun _ => .advance ?_
    · exact abreast_interpolatedName inner here (.inl word)
    · exact second.done (unplaced_wordValue text) (fun _ => rfl) rfl

theorem twins_mapRest {firstKey keyTwin : Expr} (keys : unplaced firstKey = unplaced keyTwin)
    (line lineTwin : Nat) :
    Twins [.rightParen] (.always true []) (mapRest self firstKey line)
      (mapRest self keyTwin lineTwin) := by
  refine .of_beside fun cursor other here => here.skip fun here => ?_
  refine here.andThen (inner .space) fun firstValue valueTwin _ _ values here => ?_
  refine here.andThen (.loop [] [] (fun pairs others same => ?_) (by simp_all))
    fun pairs others _ _ same here => ?_
  · refine .of_beside fun cursor other here => here.skip fun here => ?_
    refine here.accept (.plain rfl) rfl (fun here => here.skip fun here => ?_) ?_
    · refine here.at_ fun closes => .ite Iff.rfl (fun _ => here.done ?_ nofun rfl) fun _ => ?_
      · simp_all
      refine here.andThen (inner .space) fun key keyTwin _ _ keys here => here.skip fun here => ?_
      refine here.expect (.plain rfl) rfl fun here => here.skip fun here => ?_
      refine here.andThen (inner .space) fun value valueTwin _ _ values here => ?_
      exact here.done (by simp_all) (fun _ => rfl) rfl
    · exact here.done (by simp_all) nofun rfl
  · refine here.expect (.closing nofun) rfl fun here => ?_
    exact here.done (by simp_all [Expr.unplaced]) (fun _ => rfl) rfl

theorem twins_parenRest {first firstTwin : Expr} (firsts : unplaced first = unplaced firstTwin) :
    Twins [] (.always false []) (parenRest self first) (parenRest self firstTwin) := by
  refine .loop [] [] ?_ (by simp_all)
  rintro ⟨items, commas⟩ ⟨others, commasTwin⟩ both
  obtain ⟨same, rfl⟩ : unplaced items = unplaced others ∧ commas = commasTwin := Prod.mk.inj both
  refine .of_beside fun cursor other here => ?_
  refine here.accept (.plain rfl) rfl (fun here => here.skip fun here => ?_) ?_
  · refine here.at_ fun closes => .ite Iff.rfl (fun _ => here.done ?_ nofun rfl) fun _ => ?_
    · simp_all
    refine here.andThen (inner .space) fun item twin _ _ values here => here.skip fun here => ?_
    exact here.done (by simp_all) (fun _ => rfl) rfl
  · exact here.done (by simp_all) nofun rfl

theorem twins_parenthesized :
    Twins [] (.always true []) (parenthesized self) (parenthesized self) := by
  refine .of_beside fun cursor other here => here.expect (.opening rfl) rfl fun here => ?_
  refine here.skip fun here => here.accept (.closing nofun) rfl (fun here => ?_) ?_
  · exact here.done (by simp [Expr.unplaced]) (fun _ => rfl) rfl
  refine here.andThen (inner .space) fun first firstTwin _ _ firsts here => here.skip fun here => ?_
  refine here.accept (.plain rfl) rfl (fun here => ?_) ?_
  · exact here.finish (twins_mapRest inner firsts _ _) (fun _ _ => rfl) fun _ => rfl
  · refine here.andThen (twins_parenRest inner firsts) ?_
    rintro ⟨items, commas⟩ ⟨others, commasTwin⟩ _ _ both here
    obtain ⟨same, rfl⟩ : unplaced items = unplaced others ∧ commas = commasTwin := Prod.mk.inj both
    refine here.expect (.closing nofun) rfl fun here => here.done ?_ (fun _ => rfl) rfl
    cases commas <;> simp_all [Expr.unplaced]

theorem twins_bracketed : Twins [] (.always true []) (bracketed self) (bracketed self) := by
  rw [bracketed_eq]
  refine .of_beside fun cursor other here => here.expect (.opening rfl) rfl fun here => ?_
  refine here.skip fun here => here.accept (.closing nofun) rfl (fun here => ?_) ?_
  · exact here.done (by simp [Expr.unplaced]) (fun _ => rfl) rfl
  refine here.andThen (inner .comma) fun content twin _ _ same here => here.skip fun here => ?_
  refine here.expect (.closing nofun) rfl fun here => here.done ?_ (fun _ => rfl) rfl
  rw [unplaced_expr, unplaced_expr, unplaced_bracketing, unplaced_bracketing]
  exact congrArg (bracketing · 0) same

theorem coincide_readPiece (piece : Quoted.Piece) (here there : Position) :
    Coincide (Quoted.readPiece (Parser.onTokens (complete (self .comma))) here piece)
      (Quoted.readPiece (Parser.onTokens (complete (self .comma))) there piece) := by
  cases piece with
  | literal text => exact .ok rfl
  | body text offset =>
    have lexed := Lexer.tokensAt_anywhere (here.shift offset) (there.shift offset) text
    rw [Quoted.readPiece, Quoted.readPiece]
    generalize Lexer.tokensAt (here.shift offset) text = result at lexed
    generalize Lexer.tokensAt (there.shift offset) text = other at lexed
    cases lexed with
    | error => exact .error trivial
    | ok same =>
      exact (coincide_complete (inner .comma) (.of_unplaced same)).bind fun both =>
        .ok (congrArg Fragment.expr both)

/-- The inside of a string is read to the same at any place. -/
theorem coincide_quoted (content : String) (here there : Position) :
    Coincide (quoted self content here) (quoted self content there) := by
  unfold quoted Quoted.template
  refine (Concur.mapM fun piece _ => coincide_readPiece inner piece here there).bind fun parts => ?_
  split
  · exact .error trivial
  · refine .ok ?_
    rw [unplaced_template, unplaced_template, unplaced_of_forall₂ parts]

theorem twins_primary : Twins [] (.always true []) (primary self) (primary self) := by
  refine .of_beside fun cursor other here => .current ?_
  have text {kind : TokenKind} (found : cursor.current.kind = kind) (visible : kind.isTrivia = false) :
      cursor.current.text = other.current.text :=
    here.alike.current.text (by rw [Token.isTrivia, found, visible])
  have behind {kind : TokenKind} (found : cursor.current.kind = kind) (plain : kind.isPlain = true)
      (visible : kind.isTrivia = false) := here.pass found (.plain plain) visible
  rw [← here.alike.current.kind]
  split
  · rename_i number
    refine .advance ?_
    rw [text number rfl]
    split
    · exact (behind number rfl rfl).done rfl (fun _ => rfl) rfl
    · exact .fault
  · rename_i string
    rw [Token.content, Token.content, text string rfl]
    refine .advance (.lift (coincide_quoted inner _ _ _) fun value twin same => ?_)
    exact (behind string rfl rfl).done (by simp_all [Expr.unplaced]) (fun _ => rfl) rfl
  · rename_i hash
    rw [text hash rfl]
    split
    · exact .fault
    · exact .advance ((behind hash rfl rfl).done rfl (fun _ => rfl) rfl)
  · rename_i dollar
    rw [Token.name, Token.name, text dollar rfl]
    exact .advance ((behind dollar rfl rfl).done rfl (fun _ => rfl) rfl)
  · rename_i url
    rw [Token.urlContent?, Token.urlContent?, text url rfl]
    refine .advance ?_
    split
    · refine .lift (coincide_quoted inner _ _ _) fun value twin same => ?_
      exact (behind url rfl rfl).done (by simp_all [Expr.unplaced]) (fun _ => rfl) rfl
    · exact .fault
  · exact .advance ((behind ‹_› rfl rfl).done rfl (fun _ => rfl) rfl)
  · rename_i flag
    rw [text flag rfl]
    refine .ite Iff.rfl (fun _ => .advance ?_) fun _ => .unexpected
    exact (behind flag rfl rfl).done rfl (fun _ => rfl) rfl
  · exact twins_parenthesized inner cursor other here.alike
  · exact twins_bracketed inner cursor other here.alike
  · exact abreast_interpolatedName inner here (.inr ‹_›)
  · exact abreast_identifierValue inner here ‹_›
  · exact .unexpected

theorem twins_unary : Twins [] (.always true []) (unary self) (unary self) := by
  refine .of_beside fun cursor other here => .current ?_
  have ident {word : String} (found : cursor.current.isWord word = true) :
      cursor.current.kind = .ident := by
    simp only [Token.isWord, Bool.and_eq_true, decide_eq_true_eq] at found
    exact found.1
  rw [← here.alike.current.kind]
  refine .ite Iff.rfl (fun sign => .advance ?_) fun _ => .peek (.ite ?_ (fun word => .advance ?_) ?_)
  · have behind : Beside cursor [] true (cursor.advance 1) (other.advance 1) [] := by
      rcases (by simpa using sign) with minus | plus
      · exact here.pass minus (.plain rfl) rfl
      · exact here.pass plus (.plain rfl) rfl
    refine behind.skip fun here => here.andThen (inner .unary) fun operand twin _ _ same here => ?_
    refine here.done ?_ (fun _ => rfl) rfl
    rw [unplaced_expr, unplaced_expr, unplaced_signed, unplaced_signed]
    exact congrArg (signed _ 0) same
  · simp only [Bool.and_eq_true]
    rw [← here.alike.current.isWord]
    refine and_congr_right fun word => ?_
    rw [(here.pass (ident word) (.plain rfl) rfl).peek_alike.kind]
  · rw [Bool.and_eq_true] at word
    refine (here.pass (ident word.1) (.plain rfl) rfl).skip fun here => ?_
    refine here.andThen (inner .unary) fun operand twin _ _ same here => ?_
    exact here.done (by simp_all [Expr.unplaced]) (fun _ => rfl) rfl
  · exact fun _ => twins_primary inner cursor other here.alike

omit inner in
theorem twins_leftAssociative {operand : Parser Expr} {operator : Parser (Option BinaryOp)}
    (operands : Twins [] (.always true []) operand operand)
    (operators : Twins [] (.always false []) operator operator) :
    Twins [] (.always true []) (leftAssociative operand operator) (leftAssociative operand operator) := by
  refine .of_beside fun cursor other here => here.andThen operands fun first twin _ _ firsts here => ?_
  refine here.finish (.loop [] [] (fun left leftTwin lefts => ?_) firsts) (fun _ _ => rfl) fun _ => rfl
  refine .of_beside fun cursor other here => here.andThen operators fun op opTwin _ _ same here => ?_
  obtain rfl : op = opTwin := by simpa [unplaced] using same
  cases op with
  | none => exact here.done (by simp_all) nofun rfl
  | some op =>
    refine here.andThen operands fun right rightTwin _ _ rights here => ?_
    exact here.done (by simp_all [Expr.unplaced]) (fun _ => rfl) rfl

omit inner in
theorem twins_operatorByKind {table : TokenKind → Option BinaryOp} (plain : PlainTable table) :
    Twins [] (.always false []) (operatorByKind table) (operatorByKind table) := by
  refine .of_beside fun cursor other before => .get (before.skip fun here => .current ?_)
  rw [← here.alike.current.kind]
  split
  · exact .set (before.done rfl nofun rfl)
  · rename_i op found
    refine .advance ?_
    obtain ⟨plain, visible⟩ := plain found
    exact (here.pass rfl (.plain plain) visible).skip fun here => here.done rfl nofun rfl

omit inner in
theorem twins_sumOperator : Twins [] (.always false []) sumOperator sumOperator := by
  refine .of_beside fun cursor other before => .get (before.skip fun here => .current ?_)
  rw [← here.alike.current.kind, Token.isTrivia, Token.isTrivia, ← before.alike.current.kind]
  split
  · exact .set (before.done rfl (absurd · Bool.false_ne_true) rfl)
  · rename_i op found
    obtain ⟨plain, visible⟩ := plain_sumOp found
    have behind := here.pass rfl (.plain plain) visible
    refine .peek (.ite ?_ (fun _ => .set (before.done rfl (absurd · Bool.false_ne_true) rfl)) fun _ => .advance ?_)
    · rw [Token.isTrivia, Token.isTrivia, behind.peek_alike.kind]
    · exact behind.skip fun here => here.done rfl (absurd · Bool.false_ne_true) rfl

omit inner in
theorem twins_wordOperator (word : String) (op : BinaryOp) :
    Twins [] (.always false []) (wordOperator word op) (wordOperator word op) := by
  refine .of_beside fun cursor other here => .significant ?_
  rw [← Cursor.current_skipTrivia, ← Cursor.current_skipTrivia]
  have ahead := here.skipTrivia
  refine .ite (by rw [ahead.alike.current.isWord]) (fun found => here.skip fun here => .advance ?_)
    fun _ => here.done rfl nofun rfl
  simp only [Token.isWord, Bool.and_eq_true, decide_eq_true_eq] at found
  exact (here.pass found.1 (.plain rfl) rfl).skip fun here => here.done rfl nofun rfl

theorem twins_product : Twins [] (.always true []) (product self) (product self) :=
  twins_leftAssociative (twins_unary inner) (twins_operatorByKind plain_productOp)

theorem twins_sum : Twins [] (.always true []) (sum self) (sum self) :=
  twins_leftAssociative (twins_product inner) twins_sumOperator

theorem twins_comparison : Twins [] (.always true []) (comparison self) (comparison self) :=
  twins_leftAssociative (twins_sum inner) (twins_operatorByKind plain_comparisonOp)

theorem twins_conjunction : Twins [] (.always true []) (conjunction self) (conjunction self) :=
  twins_leftAssociative (twins_comparison inner) (twins_wordOperator "and" .and)

theorem twins_disjunction : Twins [] (.always true []) (disjunction self) (disjunction self) :=
  twins_leftAssociative (twins_conjunction inner) (twins_wordOperator "or" .or)

theorem twins_spaceList (stops : List String) :
    Twins [] (.always true []) (spaceList self stops) (spaceList self stops) := by
  have member := twins_disjunction inner
  refine .of_beside fun cursor other here => .current ?_
  refine here.andThen member fun first firstTwin _ _ firsts here => ?_
  refine here.finish (.loop [] [] (fun items others same => ?_) rfl) (fun _ _ => rfl) fun _ => rfl
  refine .of_beside fun cursor other before => .get (before.skip fun here => .current ?_)
  refine .ite (by rw [here.alike.current.startsValue]) (fun _ => ?_) fun _ =>
    .set (.ite ?_ (fun _ => ?_) fun _ => ?_)
  · refine here.andThen member fun item twin _ _ items here => ?_
    exact here.done (by simp_all) (fun _ => rfl) rfl
  · rw [← isEmpty_unplaced items, same, isEmpty_unplaced]
  · exact before.done (by simp_all) nofun rfl
  · exact before.done (by simp_all [Expr.unplaced]) nofun rfl

theorem twins_commaList (stops : List String) :
    Twins [] (.always true []) (commaList self stops) (commaList self stops) := by
  have member := twins_spaceList inner stops
  refine .of_beside fun cursor other here => .current ?_
  refine here.andThen member fun first firstTwin _ _ firsts here => ?_
  refine here.finish (.loop [] [] ?_ rfl) (fun _ _ => rfl) fun _ => rfl
  rintro ⟨items, commas⟩ ⟨others, commasTwin⟩ both
  obtain ⟨same, rfl⟩ : unplaced items = unplaced others ∧ commas = commasTwin := Prod.mk.inj both
  refine .of_beside fun cursor other before => .get (before.skip fun here => ?_)
  refine here.accept (.plain rfl) rfl (fun here => here.skip fun here => .current ?_) (.set ?_)
  · refine .ite (by rw [here.alike.current.startsValue]) (fun _ => ?_) fun _ => ?_
    · refine here.andThen member fun item twin _ _ items here => ?_
      exact here.done (by simp_all) (fun _ => rfl) rfl
    · exact here.done (by simp_all [Expr.unplaced]) nofun rfl
  · refine .ite Iff.rfl (fun _ => ?_) fun _ => ?_
    · exact before.done (by simp_all [Expr.unplaced]) nofun rfl
    · exact before.done (by simp_all) nofun rfl

end Expressions

/-- Expressions are read to the same over rows that are alike, and what is passed on the way is well
nested. -/
theorem twins_expressions (depth : Nat) (form : Form) :
    Twins [] (.always true []) (Form.parser depth form) (Form.parser depth form) := by
  induction depth generalizing form with
  | zero => exact fun _ _ _ => .fault
  | succ depth ih =>
    cases form with
    | comma => exact twins_commaList ih []
    | space => exact twins_spaceList ih []
    | unary => exact twins_unary ih

end Grammar

end Scss
