import Scss.Grammar.Statement
import Scss.Proofs.Braces.Tree
import Scss.Proofs.Braces.Values
import Scss.Proofs.Tiling

/-! Reading a text without braces gives trees without braces. Tokens are pieces of their text, and the
texts of a tree are pieces of tokens, so the grammar is followed rule by rule. -/
namespace Scss

open Text (Braceless)

def Cursor.Braceless (cursor : Cursor) : Prop := ∀ token ∈ cursor.tokens, Text.Braceless token.text

namespace Cursor.Braceless

variable {cursor : Cursor}

theorem advance (clean : cursor.Braceless) (count : Nat) : (cursor.advance count).Braceless := by
  rw [Cursor.Braceless, tokens_advance]
  exact clean

theorem peek (clean : cursor.Braceless) (offset : Nat) :
    Text.Braceless (cursor.peek offset).text := by
  apply clean
  rw [Cursor.peek, tokens]
  cases found : cursor.ahead[offset]? with
  | none => simp
  | some token => simp [List.mem_of_getElem? found]

theorem current (clean : cursor.Braceless) : Text.Braceless cursor.current.text := by
  apply clean
  rw [Cursor.current, tokens]
  cases found : cursor.ahead.head? with
  | none => simp
  | some token => simp [List.mem_of_head? found]

theorem significant (clean : cursor.Braceless) (offset : Nat) :
    Text.Braceless (cursor.significant offset).text := by
  apply clean
  rw [Cursor.significant, tokens]
  cases found : (cursor.ahead.drop offset).find? fun token => !token.isTrivia with
  | none => simp
  | some token => simp [List.mem_of_mem_drop (List.mem_of_find?_eq_some found)]

end Cursor.Braceless

theorem Cursor.braceless_ofTokens {tokens : List Token}
    (clean : ∀ token ∈ tokens, Text.Braceless token.text) : (ofTokens tokens).Braceless := by
  have closed : ∀ token ∈ tokens ++ [closing tokens], Text.Braceless token.text := by
    simpa +decide [or_imp, forall_and, closing] using clean
  unfold ofTokens
  split
  · rename_i token found
    split
    · have whole := List.dropLast_append_getLast? token found
      intro other member
      simp only [Cursor.tokens, List.reverse_nil, List.nil_append, whole] at member
      exact clean other member
    · exact closed
  · exact closed

namespace Parser

variable {α β σ : Type} {good : α → Prop} {fine : β → Prop}

/-- On a cursor without braces a parser gives a good result, and leaves such a cursor. -/
def Gives (good : α → Prop) (parser : Parser α) : Prop :=
  ∀ cursor, cursor.Braceless →
    Yields (fun result => good result.1 ∧ result.2.Braceless) (parser cursor)

def Next.Good (state : σ → Prop) (good : α → Prop) : Next σ α → Prop
  | .again later => state later
  | .done result => good result

namespace Gives

theorem pure {value : α} (result : good value) : Gives good (Pure.pure value : Parser α) :=
  fun _ clean => .ok ⟨result, clean⟩

theorem throw (fault : Fault) : Gives good (MonadExcept.throw fault : Parser α) :=
  fun _ _ => .error fault

theorem unexpected (expected : String) : Gives good (Parser.unexpected expected : Parser α) :=
  fun _ _ => .error _

theorem bind {parser : Parser α} {next : α → Parser β} (first : Gives good parser)
    (second : ∀ value, good value → Gives fine (next value)) : Gives fine (parser >>= next) :=
  fun cursor clean => .bind (first cursor clean) fun result holds =>
    second result.1 holds.1 result.2 holds.2

/-- A result that the cursor has no part in. -/
theorem lift {result : Except Fault α} (results : Yields good result) :
    Gives good (liftM result : Parser α) := by
  intro cursor clean
  cases result with
  | error fault => exact .error fault
  | ok value => exact .ok ⟨results value rfl, clean⟩

theorem get : Gives Cursor.Braceless (MonadState.get : Parser Cursor) :=
  fun _ clean => .ok ⟨clean, clean⟩

theorem set {cursor : Cursor} (clean : cursor.Braceless) :
    Gives (fun _ => True) (MonadState.set cursor : Parser PUnit) :=
  fun _ _ => .ok ⟨trivial, clean⟩

theorem current : Gives (fun token => Braceless token.text) Parser.current :=
  fun _ clean => .ok ⟨clean.current, clean⟩

theorem peek (offset : Nat) : Gives (fun token => Braceless token.text) (Parser.peek offset) :=
  fun _ clean => .ok ⟨clean.peek offset, clean⟩

theorem significant (offset : Nat) :
    Gives (fun token => Braceless token.text) (Parser.significant offset) :=
  fun _ clean => .ok ⟨clean.significant offset, clean⟩

theorem at_ (kind : TokenKind) : Gives (fun _ => True) (Parser.at_ kind) :=
  fun _ clean => .ok ⟨trivial, clean⟩

theorem atEnd : Gives (fun _ => True) Parser.atEnd := fun _ clean => .ok ⟨trivial, clean⟩

theorem advance (count : Nat) : Gives (fun _ => True) (Parser.advance count) :=
  fun _ clean => .ok ⟨trivial, clean.advance count⟩

theorem skipTrivia : Gives (fun _ => True) Parser.skipTrivia :=
  fun _ clean => .ok ⟨trivial, clean.advance _⟩

theorem accept (kind : TokenKind) : Gives (fun _ => True) (Parser.accept kind) := by
  refine get.bind fun cursor clean => ?_
  rw [Cursor.accept?]
  by_cases found : cursor.current.kind = kind
  · rw [if_pos found]
    exact (set (clean.advance 1)).bind fun _ _ => pure trivial
  · rw [if_neg found]
    exact pure trivial

theorem expect (kind : TokenKind) :
    Gives (fun token => Braceless token.text) (Parser.expect kind) := by
  refine get.bind fun cursor clean => ?_
  rw [Cursor.expectAny]
  by_cases found : cursor.matchesAny [kind]
  · rw [if_pos found]
    exact (set (clean.advance 1)).bind fun _ _ => pure clean.current
  · rw [if_neg found]
    exact throw _

theorem loop (state : σ → Prop) {init : σ} {step : σ → Parser (Next σ α)} (start : state init)
    (round : ∀ current, state current → Gives (Next.Good state good) (step current)) :
    Gives good (Parser.loop init step) := by
  have within (bound : List Token) (current : σ) (holds : state current) :
      Gives good (loopWithin step bound current) := by
    induction bound generalizing current with
    | nil =>
      refine (round current holds).bind fun next result => ?_
      cases next with
      | again later => exact throw _
      | done value => exact pure result
    | cons token bound ih =>
      refine (round current holds).bind fun next result => ?_
      cases next with
      | again later => exact ih later result
      | done value => exact pure result
  exact get.bind fun cursor _ => within _ init start

/-- A loop that ends with its state. -/
theorem loop_keeps (state : σ → Prop) {init : σ} {step : σ → Parser (Next σ σ)} (start : state init)
    (round : ∀ current, state current → Gives (Next.Good state state) (step current)) :
    Gives state (Parser.loop init step) :=
  loop state start round

end Gives

theorem yields_run {parser : Parser α} (gives : Gives good parser) {cursor : Cursor}
    (clean : cursor.Braceless) : Yields good (parser.run' cursor) :=
  .map (gives cursor clean) fun _ result => result.1

end Parser

namespace Lexer

/-- Tokens have no braces if their text has none. -/
theorem yields_tokensAt (position : Position) {text : List Char} (clean : Chars.Braceless text) :
    Yields (fun tokens => ∀ token ∈ tokens, Braceless token.text) (tokensAt position text) := by
  intro tokens lexed token member
  refine Chars.Braceless.of_mem clean fun c inside => ?_
  rw [← (tiling_of_tokensAt lexed).spelled_eq]
  exact List.mem_flatMap.mpr ⟨token, member, inside⟩

end Lexer

namespace Quoted

def Piece.Braceless : Piece → Prop
  | .literal text => Chars.Braceless text
  | .body text _ => Chars.Braceless text

theorem braceless_pushChar {c : Char} {pieces : List Piece} (start : isBrace c = false)
    (clean : ∀ piece ∈ pieces, piece.Braceless) :
    ∀ piece ∈ pushChar c pieces, piece.Braceless := by
  unfold pushChar
  split
  · obtain ⟨first, others⟩ := List.forall_mem_cons.mp clean
    exact List.forall_mem_cons.mpr ⟨(Chars.braceless_cons _ _).mpr ⟨start, first⟩, others⟩
  · refine List.forall_mem_cons.mpr ⟨?_, clean⟩
    exact (Chars.braceless_cons _ _).mpr ⟨start, Chars.braceless_nil⟩

theorem braceless_piecesFrom (offset skip : Nat) {content : List Char}
    (clean : Chars.Braceless content) :
    ∀ piece ∈ (piecesFrom offset skip content).1, piece.Braceless := by
  fun_induction piecesFrom offset skip content with
  | case1 => simp
  | case2 offset c rest skip ih => exact ih ((Chars.braceless_cons _ _).mp clean).2
  | case3 offset d more pieces unclosed next ih =>
    simp only [Chars.braceless_cons] at clean
    exact braceless_pushChar rfl (braceless_pushChar clean.2.1 (by simpa [next] using ih clean.2.2))
  | case4 | case5 =>
    simp +decide only [Chars.braceless_cons, false_and, and_false] at clean
  | case6 offset c rest escaped embedded pieces unclosed next ih =>
    rw [Chars.braceless_cons] at clean
    exact braceless_pushChar clean.1 (by simpa [next] using ih clean.2)

variable {read : List Token → Except Fault Expr}

theorem yields_readPiece (reads : ∀ tokens, (∀ token ∈ tokens, Braceless token.text) →
      Yields Expr.Braceless (read tokens)) (position : Position) {piece : Piece}
    (clean : piece.Braceless) :
    Yields (fun part => (∀ text, part = .literal text → Braceless text) ∧
      ∀ expr, part = .expr expr → expr.Braceless) (readPiece read position piece) := by
  cases piece with
  | literal text =>
    refine .ok ⟨fun other same => ?_, fun _ same => nomatch same⟩
    obtain rfl := Fragment.literal.inj same
    exact (Text.braceless_ofList _).mpr clean
  | body text offset =>
    rw [readPiece]
    split
    · exact .error _
    · rename_i tokens lexed
      refine .bind (reads tokens (Lexer.yields_tokensAt _ clean tokens lexed)) fun expr result => ?_
      refine .ok ⟨fun _ same => (nomatch same), fun other same => ?_⟩
      obtain rfl := Fragment.expr.inj same
      exact result

theorem yields_template (reads : ∀ tokens, (∀ token ∈ tokens, Braceless token.text) →
      Yields Expr.Braceless (read tokens)) (position : Position) {content : String}
    (clean : Braceless content) :
    Yields Template.Braceless (template read content position) := by
  have pieces := braceless_piecesFrom 0 0 clean
  unfold template Quoted.pieces
  dsimp only
  refine .bind (.mapM fun piece member => yields_readPiece reads position (pieces piece member)) ?_
  intro parts each
  split
  · exact .error _
  · refine .ok ⟨fun text member => ?_, fun expr member => ?_⟩
    · exact (each _ member).1 text rfl
    · exact (each _ member).2 expr rfl

end Quoted

namespace Template.Braceless

variable {template : Template}

theorem pushLiteral {text : String} (clean : template.Braceless) (added : Text.Braceless text) :
    Template.Braceless (template.pushLiteral text) := by
  unfold Interpolation.pushLiteral
  split
  · rename_i last ending
    have final := clean.literals last (List.mem_of_getLast? ending)
    refine ⟨fun other member => ?_, fun expr member => ?_⟩
    · rcases List.mem_append.mp member with before | joined
      · exact clean.literals other (List.mem_of_mem_dropLast before)
      · obtain rfl := Fragment.literal.inj (List.mem_singleton.mp joined)
        exact (Text.braceless_append _ _).mpr ⟨final, added⟩
    · rcases List.mem_append.mp member with before | joined
      · exact clean.exprs expr (List.mem_of_mem_dropLast before)
      · exact nomatch List.mem_singleton.mp joined
  · refine ⟨fun other member => ?_, fun expr member => ?_⟩
    · rcases List.mem_append.mp member with before | joined
      · exact clean.literals other before
      · obtain rfl := Fragment.literal.inj (List.mem_singleton.mp joined)
        exact added
    · rcases List.mem_append.mp member with before | joined
      · exact clean.exprs expr before
      · exact nomatch List.mem_singleton.mp joined

theorem pushExpr {value : Expr} (clean : template.Braceless) (added : value.Braceless) :
    Template.Braceless (template.pushExpr value) := by
  refine ⟨fun text member => ?_, fun expr member => ?_⟩
  · rcases List.mem_append.mp member with before | joined
    · exact clean.literals text before
    · exact nomatch List.mem_singleton.mp joined
  · rcases List.mem_append.mp member with before | joined
    · exact clean.exprs expr before
    · obtain rfl := Fragment.expr.inj (List.mem_singleton.mp joined)
      exact added

end Template.Braceless

namespace Grammar

open Scss.Parser (Gives)

theorem gives_complete {expression : Parser Expr} (gives : Gives Expr.Braceless expression) :
    Gives Expr.Braceless (complete expression) := by
  refine Gives.skipTrivia.bind fun _ _ => gives.bind fun expr clean => ?_
  refine Gives.skipTrivia.bind fun _ _ => Gives.atEnd.bind fun ended _ => ?_
  split
  · exact .pure clean
  · exact .unexpected _

theorem gives_atEllipsis : Gives (fun _ => True) atEllipsis :=
  fun _ clean => .ok ⟨trivial, clean⟩

theorem braceless_wordValue {token : Token} (clean : Braceless token.text) :
    (wordValue token).Braceless := by
  unfold wordValue
  dsimp only
  split
  · exact .boolean _ _
  · split
    · exact .boolean _ _
    · split
      · exact .null _
      · split
        · exact .namedColor _ clean
        · exact .identifier _ clean

theorem braceless_splitNumber {text : String} {value : Float} {unit : Option String}
    (clean : Braceless text) (split : splitNumber? text = some (value, unit)) :
    ∀ own ∈ unit, Braceless own := by
  obtain ⟨read, -, same⟩ := Option.map_eq_some_iff.mp split
  obtain ⟨-, rfl⟩ := Prod.mk.inj same
  intro own found
  split at found
  · cases found
  · obtain rfl := Option.some.inj found
    exact (Text.braceless_ofList _).mpr (Chars.Braceless.drop clean _)

theorem braceless_signed (negative : Bool) (line : Nat) {operand : Expr}
    (clean : operand.Braceless) : (signed negative line operand).Braceless := by
  cases clean with
  | number value position unit => exact .number _ _ unit
  | _ => exact .unary _ _ (by constructor <;> assumption)

variable {self : Self}

section
variable (inner : ∀ form, Gives Expr.Braceless (self form))
include inner

theorem yields_quoted {content : String} (clean : Braceless content) (position : Position) :
    Yields Template.Braceless (quoted self content position) := by
  refine Quoted.yields_template (fun tokens pieces => ?_) position clean
  exact Parser.yields_run (gives_complete (inner .comma)) (Cursor.braceless_ofTokens pieces)

theorem gives_embedded : Gives Expr.Braceless (embedded self) := by
  refine (Gives.expect _).bind fun _ _ => Gives.skipTrivia.bind fun _ _ => ?_
  refine (inner .comma).bind fun expr clean => Gives.skipTrivia.bind fun _ _ => ?_
  exact (Gives.expect _).bind fun _ _ => .pure clean

theorem gives_callArgument :
    Gives (fun result => Argument.Braceless result.1) (callArgument self) := by
  unfold callArgument
  refine Gives.current.bind fun first text => (Gives.significant 1).bind fun second _ => ?_
  dsimp only
  generalize (decide (first.kind = .dollar) && decide (second.kind = .colon)) = named
  have label : ∀ name ∈ if named = true then some first.name else none, Braceless name := by
    intro name found
    cases named with
    | false => cases found
    | true =>
      obtain rfl := Option.some.inj found
      exact text.dropFirst 1
  generalize (if named = true then some first.name else none) = name at label ⊢
  have ending : Gives (fun result => Argument.Braceless result.1) (do
      let value ← self .space
      Parser.skipTrivia
      let rest ← atEllipsis
      if rest then do
        Parser.advance 3
        Parser.skipTrivia
        let more ← Parser.accept .comma
        pure (⟨name, value, rest⟩, more)
      else do
        let more ← Parser.accept .comma
        pure (⟨name, value, rest⟩, more)) := by
    refine (inner .space).bind fun value clean => Gives.skipTrivia.bind fun _ _ => ?_
    refine gives_atEllipsis.bind fun rest _ => ?_
    split
    · refine (Gives.advance 3).bind fun _ _ => Gives.skipTrivia.bind fun _ _ => ?_
      exact (Gives.accept _).bind fun _ _ => .pure ⟨label, clean⟩
    · exact (Gives.accept _).bind fun _ _ => .pure ⟨label, clean⟩
  split
  · refine (Gives.advance 1).bind fun _ _ => Gives.skipTrivia.bind fun _ _ => ?_
    exact (Gives.expect _).bind fun _ _ => Gives.skipTrivia.bind fun _ _ => ending
  · exact ending

theorem gives_callArguments :
    Gives (fun args => ∀ arg ∈ args, Argument.Braceless arg) (callArguments self) := by
  refine (Gives.expect _).bind fun _ _ => ?_
  refine .loop (fun args => ∀ arg ∈ args, Argument.Braceless arg) (by simp) ?_
  intro args clean
  have longer {arg : Argument Expr} (last : arg.Braceless) :
      ∀ other ∈ args ++ [arg], Argument.Braceless other :=
    List.forall_mem_append.mpr ⟨clean, List.forall_mem_singleton.mpr last⟩
  refine Gives.skipTrivia.bind fun _ _ => (Gives.accept _).bind fun closed _ => ?_
  split
  · exact .pure clean
  · refine (gives_callArgument inner).bind fun result last => ?_
    obtain ⟨arg, more⟩ := result
    dsimp only
    split
    · exact .pure (longer last)
    · exact (Gives.expect _).bind fun _ _ => .pure (longer last)

theorem gives_interpolatedName : Gives Expr.Braceless (interpolatedName self) := by
  refine Gives.current.bind fun first _ => ?_
  refine .loop (fun state => Template.Braceless state.1) ⟨by simp, by simp⟩ ?_
  rintro ⟨template, joins⟩ clean
  refine Gives.current.bind fun token text => ?_
  split
  · split
    · exact (Gives.advance 1).bind fun _ _ => .pure (clean.pushLiteral text)
    · exact .pure (.interpolated clean.literals clean.exprs)
  · exact (gives_embedded inner).bind fun expr added => .pure (clean.pushExpr added)
  · refine (Gives.peek 1).bind fun next _ => ?_
    split
    · exact (Gives.advance 1).bind fun _ _ => .pure (clean.pushLiteral (by decide))
    · exact .pure (.interpolated clean.literals clean.exprs)
  · exact .pure (.interpolated clean.literals clean.exprs)

theorem gives_identifierValue : Gives Expr.Braceless (identifierValue self) := by
  refine Gives.current.bind fun token text => ?_
  refine (Gives.peek 1).bind fun next _ => (Gives.peek 2).bind fun second other => ?_
  have call (qualifier : Option String) (name : String) (label : Braceless name) :
      Gives Expr.Braceless (do return .call qualifier name (← callArguments self) token.line) := by
    refine (gives_callArguments inner).bind fun args clean => .pure (.call _ _ label ?_ ?_)
    · exact fun arg member => (clean arg member).name
    · exact fun arg member => (clean arg member).value
  split
  · exact (Gives.advance 1).bind fun _ _ => call _ _ text
  · split
    · exact (Gives.advance 3).bind fun _ _ => .pure (.member _ _ _)
    · refine (Gives.peek 3).bind fun third _ => ?_
      split
      · exact (Gives.advance 3).bind fun _ _ => call _ _ other
      · split
        · exact gives_interpolatedName inner
        · exact (Gives.advance 1).bind fun _ _ => .pure (braceless_wordValue text)

theorem gives_mapRest {firstKey : Expr} (key : firstKey.Braceless) (line : Nat) :
    Gives Expr.Braceless (mapRest self firstKey line) := by
  refine Gives.skipTrivia.bind fun _ _ => (inner .space).bind fun firstValue value => ?_
  refine .bind (.loop_keeps (fun pairs => ∀ pair ∈ pairs, pair.1.Braceless ∧ pair.2.Braceless)
    (by simpa using ⟨key, value⟩) ?_) fun pairs clean => ?_
  · intro pairs clean
    refine Gives.skipTrivia.bind fun _ _ => (Gives.accept _).bind fun more _ => ?_
    split
    · exact .pure clean
    · refine Gives.skipTrivia.bind fun _ _ => (Gives.at_ _).bind fun closes _ => ?_
      split
      · exact .pure clean
      · refine (inner .space).bind fun key label => Gives.skipTrivia.bind fun _ _ => ?_
        refine (Gives.expect _).bind fun _ _ => Gives.skipTrivia.bind fun _ _ => ?_
        refine (inner .space).bind fun value result => .pure ?_
        exact List.forall_mem_append.mpr ⟨clean, List.forall_mem_singleton.mpr ⟨label, result⟩⟩
  · exact (Gives.expect _).bind fun _ _ => .pure (.map line (fun pair member => (clean pair member).1)
      fun pair member => (clean pair member).2)

theorem gives_parenRest {first : Expr} (start : first.Braceless) :
    Gives (fun result => ∀ item ∈ result.1, Expr.Braceless item) (parenRest self first) := by
  refine .loop (fun state => ∀ item ∈ state.1, Expr.Braceless item) (by simpa using start) ?_
  rintro ⟨items, commas⟩ clean
  refine (Gives.accept _).bind fun more _ => ?_
  split
  · exact .pure clean
  · refine Gives.skipTrivia.bind fun _ _ => (Gives.at_ _).bind fun closes _ => ?_
    split
    · exact .pure clean
    · refine (inner .space).bind fun item last => Gives.skipTrivia.bind fun _ _ => .pure ?_
      exact List.forall_mem_append.mpr ⟨clean, List.forall_mem_singleton.mpr last⟩

theorem gives_parenthesized : Gives Expr.Braceless (parenthesized self) := by
  refine (Gives.expect _).bind fun opening _ => Gives.skipTrivia.bind fun _ _ => ?_
  refine (Gives.accept _).bind fun closed _ => ?_
  split
  · exact .pure (.list _ _ _ (by simp))
  · refine (inner .space).bind fun first start => Gives.skipTrivia.bind fun _ _ => ?_
    refine (Gives.accept _).bind fun keyed _ => ?_
    split
    · exact gives_mapRest inner start _
    · refine (gives_parenRest inner start).bind fun result clean => ?_
      obtain ⟨items, commas⟩ := result
      refine (Gives.expect _).bind fun _ _ => .pure (.paren _ ?_)
      split
      · exact .list _ _ _ clean
      · exact start

theorem gives_bracketed : Gives Expr.Braceless (bracketed self) := by
  refine (Gives.expect _).bind fun opening _ => Gives.skipTrivia.bind fun _ _ => ?_
  refine (Gives.accept _).bind fun closed _ => ?_
  split
  · exact .pure (.list _ _ _ (by simp))
  · refine (inner .comma).bind fun content clean => Gives.skipTrivia.bind fun _ _ => ?_
    refine (Gives.expect _).bind fun _ _ => ?_
    split
    · cases clean with
      | list _ _ _ items => exact .pure (.list _ _ _ items)
    · exact .pure (.list _ _ _ (by simpa using clean))

theorem gives_primary : Gives Expr.Braceless (primary self) := by
  refine Gives.current.bind fun token text => ?_
  split
  · refine (Gives.advance 1).bind fun _ _ => ?_
    split
    · rename_i value unit split
      exact .pure (.number _ _ (braceless_splitNumber text split))
    · exact .throw _
  · refine (Gives.advance 1).bind fun _ _ => ?_
    refine (Gives.lift (yields_quoted inner text.interior _)).bind fun value clean => ?_
    exact .pure (.string _ clean.literals clean.exprs)
  · split
    · exact .throw _
    · exact (Gives.advance 1).bind fun _ _ => .pure (.hexColor _ text)
  · exact (Gives.advance 1).bind fun _ _ => .pure (.var _ _)
  · refine (Gives.advance 1).bind fun _ _ => ?_
    split
    · rename_i content found
      have inside : Braceless content :=
        text.of_mem fun c member => (Token.infix_of_urlContent? found).subset member
      refine (Gives.lift (yields_quoted inner inside _)).bind fun value clean => ?_
      exact .pure (.url _ clean.literals clean.exprs)
    · exact .throw _
  · exact (Gives.advance 1).bind fun _ _ => .pure (.parent _)
  · split
    · exact (Gives.advance 1).bind fun _ _ => .pure (.important _)
    · exact .unexpected _
  · exact gives_parenthesized inner
  · exact gives_bracketed inner
  · exact gives_interpolatedName inner
  · exact gives_identifierValue inner
  · exact .unexpected _

theorem gives_unary : Gives Expr.Braceless (unary self) := by
  refine Gives.current.bind fun token _ => ?_
  split
  · refine (Gives.advance 1).bind fun _ _ => Gives.skipTrivia.bind fun _ _ => ?_
    exact (inner .unary).bind fun operand clean => .pure (braceless_signed _ _ clean)
  · refine (Gives.peek 1).bind fun next _ => ?_
    split
    · refine (Gives.advance 1).bind fun _ _ => Gives.skipTrivia.bind fun _ _ => ?_
      exact (inner .unary).bind fun operand clean => .pure (.unary _ _ clean)
    · exact gives_primary inner

end

theorem gives_leftAssociative {operand : Parser Expr} {operator : Parser (Option BinaryOp)}
    (operands : Gives Expr.Braceless operand) (operators : Gives (fun _ => True) operator) :
    Gives Expr.Braceless (leftAssociative operand operator) := by
  refine operands.bind fun first start => .loop Expr.Braceless start fun left clean => ?_
  refine operators.bind fun found _ => ?_
  cases found with
  | none => exact .pure clean
  | some op => exact operands.bind fun right other => .pure (.binary op _ clean other)

theorem gives_operatorByKind (table : TokenKind → Option BinaryOp) :
    Gives (fun _ => True) (operatorByKind table) := by
  refine Gives.get.bind fun saved clean => Gives.skipTrivia.bind fun _ _ => ?_
  refine Gives.current.bind fun token _ => ?_
  split
  · exact (Gives.set clean).bind fun _ _ => .pure trivial
  · exact (Gives.advance 1).bind fun _ _ => Gives.skipTrivia.bind fun _ _ => .pure trivial

theorem gives_sumOperator : Gives (fun _ => True) sumOperator := by
  refine Gives.get.bind fun saved clean => Gives.skipTrivia.bind fun _ _ => ?_
  refine Gives.current.bind fun token _ => ?_
  split
  · exact (Gives.set clean).bind fun _ _ => .pure trivial
  · refine (Gives.peek 1).bind fun next _ => ?_
    split
    · exact (Gives.set clean).bind fun _ _ => .pure trivial
    · exact (Gives.advance 1).bind fun _ _ => Gives.skipTrivia.bind fun _ _ => .pure trivial

theorem gives_wordOperator (word : String) (op : BinaryOp) :
    Gives (fun _ => True) (wordOperator word op) := by
  refine (Gives.significant 0).bind fun token _ => ?_
  split
  · refine Gives.skipTrivia.bind fun _ _ => (Gives.advance 1).bind fun _ _ => ?_
    exact Gives.skipTrivia.bind fun _ _ => .pure trivial
  · exact .pure trivial

section
variable (inner : ∀ form, Gives Expr.Braceless (self form))
include inner

theorem gives_disjunction : Gives Expr.Braceless (disjunction self) := by
  have product := gives_leftAssociative (gives_unary inner) (gives_operatorByKind productOp)
  have sum := gives_leftAssociative product gives_sumOperator
  have comparison := gives_leftAssociative sum (gives_operatorByKind comparisonOp)
  have conjunction := gives_leftAssociative comparison (gives_wordOperator "and" .and)
  exact gives_leftAssociative conjunction (gives_wordOperator "or" .or)

theorem gives_spaceList (stops : List String) : Gives Expr.Braceless (spaceList self stops) := by
  refine Gives.current.bind fun token _ => (gives_disjunction inner).bind fun first start => ?_
  refine .loop (fun others => ∀ item ∈ others, Expr.Braceless item) (by simp) fun others clean => ?_
  refine Gives.get.bind fun saved before => Gives.skipTrivia.bind fun _ _ => ?_
  refine Gives.current.bind fun next _ => ?_
  split
  · refine (gives_disjunction inner).bind fun item last => .pure ?_
    exact List.forall_mem_append.mpr ⟨clean, List.forall_mem_singleton.mpr last⟩
  · refine (Gives.set before).bind fun _ _ => ?_
    split
    · exact .pure start
    · exact .pure (.list _ _ _ (List.forall_mem_cons.mpr ⟨start, clean⟩))

theorem gives_commaList (stops : List String) : Gives Expr.Braceless (commaList self stops) := by
  refine Gives.current.bind fun token _ => (gives_spaceList inner stops).bind fun first start => ?_
  refine .loop (fun state => ∀ item ∈ state.1, Expr.Braceless item) (by simp) ?_
  rintro ⟨others, commas⟩ clean
  have list : Expr.Braceless (.list (first :: others) .comma false token.line) :=
    .list _ _ _ (List.forall_mem_cons.mpr ⟨start, clean⟩)
  refine Gives.get.bind fun saved before => Gives.skipTrivia.bind fun _ _ => ?_
  refine (Gives.accept _).bind fun comma _ => ?_
  split
  · refine Gives.skipTrivia.bind fun _ _ => Gives.current.bind fun next _ => ?_
    split
    · refine (gives_spaceList inner stops).bind fun item last => .pure ?_
      exact List.forall_mem_append.mpr ⟨clean, List.forall_mem_singleton.mpr last⟩
    · exact .pure list
  · refine (Gives.set before).bind fun _ _ => ?_
    split
    · exact .pure list
    · exact .pure start

theorem gives_parameters : Gives Parameters.Braceless (parameters self) := by
  refine (Gives.expect _).bind fun _ _ => ?_
  refine .loop Parameters.Braceless (by simp [Parameters.Braceless, Parameters.none]) ?_
  intro list clean
  refine Gives.skipTrivia.bind fun _ _ => (Gives.accept _).bind fun closed _ => ?_
  dsimp only
  split
  · exact .pure clean
  · refine (Gives.expect _).bind fun token _ => Gives.skipTrivia.bind fun _ _ => ?_
    refine gives_atEllipsis.bind fun rest _ => ?_
    have ending {default : Option Expr} (given : ∀ expr ∈ default, Expr.Braceless expr) :
        Gives (Parser.Next.Good Parameters.Braceless Parameters.Braceless) (do
          Parser.skipTrivia
          if ← Parser.accept .comma then
            return .again { list with params := list.params ++ [⟨token.name, default⟩] }
          else
            let _ ← Parser.expect .rightParen
            return .done { list with params := list.params ++ [⟨token.name, default⟩] }) := by
      have longer : Parameters.Braceless
          { list with params := list.params ++ [⟨token.name, default⟩] } := by
        intro param member
        rcases List.mem_append.mp member with before | last
        · exact clean param before
        · rw [List.mem_singleton.mp last]
          exact given
      refine Gives.skipTrivia.bind fun _ _ => (Gives.accept _).bind fun more _ => ?_
      split
      · exact .pure longer
      · exact (Gives.expect _).bind fun _ _ => .pure longer
    split
    · refine (Gives.advance 3).bind fun _ _ => Gives.skipTrivia.bind fun _ _ => ?_
      exact (Gives.accept _).bind fun _ _ => .pure clean
    · refine (Gives.accept _).bind fun given _ => ?_
      split
      · refine Gives.skipTrivia.bind fun _ _ => (inner .space).bind fun value default => ?_
        exact ending (by simpa using default)
      · exact ending (by simp)

theorem gives_signatureOf : Gives (fun result => result.2.Braceless) (signatureOf self) := by
  refine Gives.skipTrivia.bind fun _ _ => (Gives.expect _).bind fun token _ => ?_
  refine Gives.skipTrivia.bind fun _ _ => (Gives.at_ _).bind fun opens _ => ?_
  have ending {params : Parameters} (clean : params.Braceless) :
      Gives (fun result => result.2.Braceless) (do
        Parser.skipTrivia
        if ← Parser.atEnd then return (token.text, params)
        else Parser.unexpected "end of signature") := by
    refine Gives.skipTrivia.bind fun _ _ => Gives.atEnd.bind fun ended _ => ?_
    split
    · exact .pure clean
    · exact .unexpected _
  dsimp only
  split
  · exact (gives_parameters inner).bind fun params clean => ending clean
  · exact ending (by simp [Parameters.Braceless, Parameters.none])

end

theorem gives_expressions (depth : Nat) (form : Form) :
    Gives Expr.Braceless (Form.parser depth form) := by
  induction depth generalizing form with
  | zero => exact .throw _
  | succ depth ih =>
    cases form with
    | comma => exact gives_commaList ih []
    | space => exact gives_spaceList ih []
    | unary => exact gives_unary ih

theorem yields_cursorOf {source : String} (clean : Braceless source) :
    Yields Cursor.Braceless (cursorOf source) := by
  unfold cursorOf
  split
  · exact .error _
  · rename_i tokens lexed
    exact .ok (Cursor.braceless_ofTokens (Lexer.yields_tokensAt _ clean tokens lexed))

/-- Expressions of a text without braces have none. -/
theorem yields_expression {source : String} (clean : Braceless source) :
    Yields Expr.Braceless (expression source) :=
  .bind (yields_cursorOf clean) fun _ pieces =>
    Parser.yields_run (gives_complete (gives_commaList (gives_expressions _) [])) pieces

theorem yields_signature {source : String} (clean : Braceless source) :
    Yields (fun result => result.2.Braceless) (signature source) :=
  .bind (yields_cursorOf clean) fun _ pieces =>
    Parser.yields_run (gives_signatureOf (gives_expressions _)) pieces

end Grammar

end Scss
