import Scss.Proofs.Grammar.Lines
import Scss.Proofs.Grammar.Progress

/-! Reading a stylesheet comes to an end. Statements make progress as expressions do: the rules that
take up text pass a token whenever they succeed, blocks nest less deep than there is text, and values
are read from tokens that were cut out of those ahead. So no text reaches a bound. -/
namespace Scss.Grammar

open Scss.Parser (Advances Takes Reached Proceeds Outcome)

theorem spelled_dropFlags_le (tokens : List Token) :
    (Lexer.spelled (dropFlags tokens).2).length ≤ (Lexer.spelled tokens).length := by
  have tail (token : Token) (rest : List Token) :
      (Lexer.spelled rest).length ≤ (Lexer.spelled (token :: rest)).length := by
    rw [Lexer.spelled, Lexer.spelled, List.flatMap_cons, List.length_append]
    exact Nat.le_add_left _ _
  fun_induction dropFlags tokens with
  | case1 => exact le_refl _
  | case2 token rest _ ih => exact ih.trans (tail token rest)
  | case3 token rest _ _ flags kept found ih =>
    rw [found] at ih
    exact ih.trans (tail token rest)
  | case4 => exact le_refl _

/-- The tokens before the flags are no more text. -/
theorem spelled_splitFlags_le (tokens : List Token) :
    (Lexer.spelled (splitFlags tokens).2).length ≤ (Lexer.spelled tokens).length := by
  have reverse (tokens : List Token) :
      (Lexer.spelled tokens.reverse).length = (Lexer.spelled tokens).length := by
    simp [Lexer.spelled, List.length_flatMap]
  have kept := spelled_dropFlags_le tokens.reverse
  rw [reverse] at kept
  rwa [splitFlags, reverse]

theorem ends_takeTo {β : Type} {start cursor : Cursor} {limit count : Nat} {least : β → Nat}
    (here : Reached start limit count cursor) {stops : List TokenKind} {next : List Token → Parser β}
    (rest : ∀ tokens after, Reached start limit count after → (∀ token ∈ tokens, token.Proper) →
      (Lexer.spelled tokens).length < limit → Proceeds start least (next tokens) after) :
    Proceeds start least (takeTo stops >>= next) cursor :=
  ⟨(here.take rest).outcome⟩

section Raw

variable {self : Self} {limit : Nat} (inner : ∀ form, Advances 1 limit (self form))

include inner

theorem advances_raw (stops : List TokenKind) (dollars : Bool) :
    Advances 0 limit (raw self stops dollars) := by
  refine .of_reached fun cursor here => .current fun first _ => ?_
  refine here.andThen (Advances.loop fun state => ?_) (le_refl _) fun template cursor here =>
    here.done (le_refl 0)
  refine .of_reached fun cursor here => .current fun token same => ?_
  split
  · exact here.done (le_refl 0)
  · rename_i visible
    have passing (next : Parser.Next RawState Template) :
        Proceeds cursor Parser.Next.least (do Parser.advance 1; return next) cursor := by
      refine here.advance (same ▸ visible) 0 fun cursor here => here.done ?_
      cases next <;> simp [Parser.Next.least]
    split
    · exact here.done (le_refl 0)
    split
    · exact here.pass (advances_embedded inner) (Nat.le_succ _) fun expr cursor here =>
        here.done (le_refl 1)
    · exact passing _
    · exact passing _
    · refine .lift ?_ fun content => passing _
      have wide : Reached cursor (limit + 1) 0 cursor :=
        ⟨here.proper, here.light.trans (Nat.lt_succ_self _), here.passes⟩
      exact settled_inside (inner .comma) wide same visible (content_le token) _
    · refine here.advance (same ▸ visible) 0 fun cursor here => ?_
      split <;> exact here.done (le_refl 1)

end Raw

namespace Blocks

variable {b : Blocks} {limit : Nat} (inner : ∀ form, Advances 1 limit (b.self form))
  (blocks : Advances 1 limit b.block)

include inner in
theorem advances_expression : Advances 1 limit b.expression :=
  (advances_commaList inner []).weaken (fun _ => le_refl 1) (Nat.le_succ _)

include inner in
theorem settled_value {tokens : List Token} (proper : ∀ token ∈ tokens, token.Proper)
    (light : (Lexer.spelled tokens).length < limit) :
    Settled (Parser.onTokens (complete b.expression) tokens) :=
  (advances_complete (advances_expression inner)).settled_onTokens proper light

include inner in
theorem settled_raw {tokens : List Token} (proper : ∀ token ∈ tokens, token.Proper)
    (light : (Lexer.spelled tokens).length < limit) :
    Settled (Parser.onTokens (raw b.self [] false) tokens) :=
  (advances_raw inner [] false).settled_onTokens proper light

theorem advances_finish (room : Nat) : Advances 0 room finish := by
  refine .of_reached fun cursor here => here.skip Advances.skipTrivia fun _ cursor here => ?_
  exact here.accept (by decide) fun _ cursor here _ => here.done (le_refl 0)

theorem advances_scanTo (stops : List TokenKind) : ∀ room, Advances 0 room (scanTo stops) :=
  Advances.look fun _ => rfl

theorem advances_startsDeclaration (room : Nat) : Advances 0 room startsDeclaration := by
  refine .of_reached fun cursor here => .get ?_
  refine here.skip (advances_scanTo _) fun colon cursor here => ?_
  split
  · exact here.done (le_refl 0)
  · refine here.skip (advances_scanTo _) fun final cursor here => ?_
    split <;> exact here.done (le_refl 0)

section Statements

include inner

theorem advances_assignment (qualifier : Option String) : Advances 1 limit (b.assignment qualifier) := by
  refine .of_reached fun cursor here => here.expect (by decide) fun token cursor here => ?_
  refine here.skip Advances.skipTrivia fun _ cursor here => here.expect (by decide) fun _ cursor here => ?_
  refine here.skip Advances.skipTrivia fun _ cursor here => ?_
  refine ends_takeTo here fun tokens cursor here proper light => ?_
  refine .lift ?_ fun value => here.accept (by decide) fun _ cursor here _ => here.done (le_refl 1)
  exact settled_value inner (fun token member => proper token (mem_splitFlags member))
    ((spelled_splitFlags_le tokens).trans_lt light)

/-- The value of a declaration is read from tokens of its own. -/
theorem advances_declarationValue {tokens : List Token} (proper : ∀ token ∈ tokens, token.Proper)
    (light : (Lexer.spelled tokens).length < limit) (room : Nat) :
    Advances 0 room (b.declarationValue tokens) := by
  have kept : ∀ token ∈ (splitFlags tokens).2, token.Proper :=
    fun token member => proper token (mem_splitFlags member)
  have less := (spelled_splitFlags_le tokens).trans_lt light
  have read := settled_value inner kept less
  refine .of_reached fun cursor here => ?_
  unfold declarationValue
  dsimp only
  split
  · exact here.done (le_refl 0)
  · split
    · exact here.done (le_refl 0)
    · split
      · exact .throw nofun
      · exact .lift (settled_raw inner kept less) fun value => here.done (le_refl 0)
    · rename_i fault _ failed
      exact .throw fun same => read (same ▸ failed)

include blocks

theorem advances_styleRule : Advances 1 limit b.styleRule := by
  refine .of_reached fun cursor here => .current fun token _ => ?_
  refine here.andThen (advances_raw inner _ _) (le_refl _) fun text cursor here => ?_
  split
  · exact .unexpected _
  · exact here.pass blocks (le_refl _) fun body cursor here => here.done (le_refl 1)

theorem advances_declaration : Advances 1 limit b.declaration := by
  refine .of_reached fun cursor here => .current fun token _ => ?_
  refine here.andThen (advances_raw inner _ _) (le_refl _) fun property cursor here => ?_
  refine here.expect (by decide) fun _ cursor here => ?_
  refine here.skip Advances.skipTrivia fun _ cursor here => ?_
  refine ends_takeTo here fun tokens cursor here proper light => ?_
  refine here.skip (advances_declarationValue inner proper light) fun value cursor here => ?_
  refine here.skip (Advances.at_ _) fun opens cursor here => ?_
  split
  · exact here.pass blocks (Nat.le_add_right _ _) fun body cursor here => here.done (le_refl 1)
  · split
    · exact .unexpected _
    · exact here.accept (by decide) fun _ cursor here _ => here.done (le_refl 1)

omit blocks in
theorem advances_customProperty : Advances 1 limit b.customProperty := by
  refine .of_reached fun cursor here => here.expect (by decide) fun name cursor here => ?_
  refine here.skip Advances.skipTrivia fun _ cursor here => here.expect (by decide) fun _ cursor here => ?_
  refine here.skip Advances.skipTrivia fun _ cursor here => ?_
  refine here.andThen (advances_raw inner _ _) (Nat.le_add_right _ _) fun value cursor here => ?_
  exact here.accept (by decide) fun _ cursor here _ => here.done (le_refl 1)

theorem advances_ruleOrDeclaration : Advances 1 limit b.ruleOrDeclaration := by
  refine .of_reached fun cursor here => .current fun token _ => .significant fun next => ?_
  split
  · exact advances_customProperty inner cursor here.proper here.light
  · refine here.skip advances_startsDeclaration fun declares cursor here => ?_
    split
    · exact here.last (advances_declaration inner blocks) (le_refl _) fun _ => .inr (le_refl 1)
    · exact here.last (advances_styleRule inner blocks) (le_refl _) fun _ => .inr (le_refl 1)

theorem advances_elseBranches (first : Branch Statement) : Advances 0 limit (b.elseBranches first) := by
  refine Advances.loop fun branches => .of_reached fun saved before => .get ?_
  refine before.skip Advances.skipTrivia fun _ cursor here => .current fun token _ => ?_
  split
  · exact .set (before.done (le_refl 0))
  · refine here.skip (Advances.advance 1) fun _ cursor here => ?_
    refine here.skip Advances.skipTrivia fun _ cursor here => ?_
    refine here.skip (Advances.acceptWord _) fun tested cursor here => ?_
    split
    · refine here.pass (advances_expression inner) (le_refl _) fun test cursor here => ?_
      exact here.pass blocks (Nat.le_add_right _ _) fun body cursor here => here.done (le_refl 1)
    · exact here.pass blocks (le_refl _) fun body cursor here => here.done (Nat.zero_le _)

theorem advances_ifStatement (line : Nat) : Advances 0 limit (b.ifStatement line) := by
  refine .of_reached fun cursor here => ?_
  refine here.andThen (advances_expression inner) (le_refl _) fun test cursor here => ?_
  refine here.andThen blocks (le_refl _) fun body cursor here => ?_
  exact here.andThen (advances_elseBranches inner blocks _) (le_refl _) fun branches cursor here =>
    here.done (le_refl 0)

omit inner blocks in
theorem advances_expectWord (word : String) (room : Nat) : Advances 0 room (expectWord word) := by
  refine .of_reached fun cursor here => here.skip (Advances.acceptWord word) fun found cursor here => ?_
  split
  · exact .unexpected _
  · exact here.done (le_refl 0)

theorem advances_eachStatement (line : Nat) : Advances 0 limit (b.eachStatement line) := by
  refine .of_reached fun cursor here => ?_
  refine here.andThen (Advances.loop fun names => ?_) (le_refl _) fun targets cursor here => ?_
  · refine .of_reached fun cursor here => here.expect (by decide) fun name cursor here => ?_
    refine here.skip Advances.skipTrivia fun _ cursor here => ?_
    refine here.accept (by decide) fun more cursor here _ => ?_
    split
    · exact here.skip Advances.skipTrivia fun _ cursor here => here.done (le_refl 1)
    · exact here.done (Nat.zero_le _)
  · refine here.skip (advances_expectWord _) fun _ cursor here => ?_
    refine here.andThen (advances_expression inner) (le_refl _) fun list cursor here => ?_
    exact here.andThen blocks (le_refl _) fun body cursor here => here.done (le_refl 0)

theorem advances_forStatement (line : Nat) : Advances 0 limit (b.forStatement line) := by
  refine .of_reached fun cursor here => here.expect (by decide) fun token cursor here => ?_
  refine here.skip Advances.skipTrivia fun _ cursor here => ?_
  refine here.skip (advances_expectWord _) fun _ cursor here => ?_
  refine here.andThen (advances_commaList inner _) (by omega) fun first cursor here => ?_
  refine here.skip Advances.skipTrivia fun _ cursor here => ?_
  refine here.skip (Advances.atWord _) fun inclusive cursor here => ?_
  refine here.skip (Advances.atWord _) fun exclusive cursor here => ?_
  split
  · exact .unexpected _
  · refine here.skip (Advances.advance 1) fun _ cursor here => ?_
    refine here.skip Advances.skipTrivia fun _ cursor here => ?_
    refine here.andThen (advances_expression inner) (Nat.le_add_right _ _) fun last cursor here => ?_
    exact here.andThen blocks (Nat.le_add_right _ _) fun body cursor here => here.done (Nat.zero_le _)

omit blocks in
theorem advances_optionalArguments : Advances 0 limit b.optionalArguments := by
  refine .of_reached fun cursor here => here.skip (Advances.at_ _) fun opens cursor here => ?_
  split
  · exact here.last (advances_callArguments inner) (Nat.le_succ _) fun _ => .inl (le_refl 0)
  · exact here.done (le_refl 0)

omit blocks in
theorem advances_optionalParameters : Advances 0 limit b.optionalParameters := by
  refine .of_reached fun cursor here => here.skip (Advances.at_ _) fun opens cursor here => ?_
  split
  · exact here.last (advances_parameters inner) (Nat.le_succ _) fun _ => .inl (le_refl 0)
  · exact here.done (le_refl 0)

theorem advances_includeStatement (line : Nat) : Advances 0 limit (b.includeStatement line) := by
  refine .of_reached fun start here => ?_
  have ending {cursor : Cursor} (here : Reached start limit 1 cursor) (qualifier : Option String)
      (name : String) (args : List (Argument Expr)) (params : Parameters) :
      Proceeds start (fun _ => 0) (do
        if ← Parser.at_ .leftBrace then
          return Statement.includeMixin qualifier name args (some ⟨params, ← b.block⟩) line
        else
          let _ ← Parser.accept .semicolon
          return .includeMixin qualifier name args none line) cursor := by
    refine here.skip (Advances.at_ _) fun opens cursor here => ?_
    split
    · exact here.andThen blocks (Nat.le_add_right _ _) fun body cursor here => here.done (Nat.zero_le _)
    · exact here.accept (by decide) fun _ cursor here _ => here.done (Nat.zero_le _)
  have arguments {cursor : Cursor} (here : Reached start limit 1 cursor) (qualifier : Option String)
      (name : String) : Proceeds start (fun _ => 0) (do
        Parser.skipTrivia
        let args ← b.optionalArguments
        Parser.skipTrivia
        let mut params := Parameters.none
        if ← Parser.acceptWord "using" then
          params ← parameters b.self
          Parser.skipTrivia
        if ← Parser.at_ .leftBrace then
          return Statement.includeMixin qualifier name args (some ⟨params, ← b.block⟩) line
        else
          let _ ← Parser.accept .semicolon
          return .includeMixin qualifier name args none line) cursor := by
    refine here.skip Advances.skipTrivia fun _ cursor here => ?_
    refine here.andThen (advances_optionalArguments inner) (Nat.le_add_right _ _)
      fun args cursor here => ?_
    refine here.skip Advances.skipTrivia fun _ cursor here => ?_
    refine here.skip (Advances.acceptWord _) fun using_ cursor here => ?_
    dsimp only
    split
    · refine here.andThen (advances_parameters inner) (by omega) fun params cursor here => ?_
      exact here.skip Advances.skipTrivia fun _ cursor here => ending here _ _ _ _
    · exact ending here _ _ _ _
  refine here.expect (by decide) fun token cursor here => ?_
  refine here.skip (Advances.at_ _) fun dotted cursor here => .peek fun next => .peek fun second => ?_
  dsimp only
  split
  · exact here.skip (Advances.advance 2) fun _ cursor here => arguments here _ _
  · exact arguments here _ _

omit inner blocks in
theorem advances_address (room : Nat) : Advances 0 room address := by
  refine .of_reached fun cursor here => here.expect (by decide) fun token cursor here => ?_
  exact here.skip Advances.skipTrivia fun _ cursor here => here.done (Nat.zero_le _)

omit blocks in
theorem advances_configuration : Advances 0 limit b.configuration := by
  refine .of_reached fun cursor here => here.expect (by decide) fun _ cursor here => ?_
  refine here.last (Advances.loop fun config => ?_) (Nat.le_add_right _ _) fun _ => .inl (Nat.zero_le _)
  refine .of_reached fun cursor here => here.skip Advances.skipTrivia fun _ cursor here => ?_
  refine here.accept (by decide) fun closed cursor here _ => ?_
  split
  · exact here.done (le_refl 0)
  · refine here.expect (by decide) fun token cursor here => ?_
    refine here.skip Advances.skipTrivia fun _ cursor here => here.expect (by decide) fun _ cursor here => ?_
    refine here.skip Advances.skipTrivia fun _ cursor here => ?_
    refine here.andThen (inner .space) (Nat.le_add_right _ _) fun value cursor here => ?_
    refine here.skip Advances.skipTrivia fun _ cursor here => ?_
    refine here.accept (by decide) fun more cursor here _ => ?_
    split
    · exact here.done (le_refl 1)
    · exact here.expect (by decide) fun _ cursor here => here.done (Nat.zero_le _)

omit blocks in
theorem advances_useStatement (line : Nat) : Advances 0 limit (b.useStatement line) := by
  refine .of_reached fun start here => ?_
  have ending {cursor : Cursor} (here : Reached start limit 0 cursor) (url : String)
      (name : Option String) (config : List (String × Expr)) : Proceeds start (fun _ => 0) (do
        finish
        return Statement.useModule url name config line) cursor :=
    here.skip advances_finish fun _ cursor here => here.done (le_refl 0)
  have configured {cursor : Cursor} (here : Reached start limit 0 cursor) (url : String)
      (name : Option String) : Proceeds start (fun _ => 0) (do
        let mut config : List (String × Expr) := []
        if ← Parser.acceptWord "with" then config ← b.configuration
        finish
        return Statement.useModule url name config line) cursor := by
    refine here.skip (Advances.acceptWord _) fun given cursor here => ?_
    dsimp only
    split
    · exact here.andThen (advances_configuration inner) (le_refl _) fun config cursor here =>
        ending here _ _ _
    · exact ending here _ _ _
  refine here.skip advances_address fun url cursor here => ?_
  refine here.skip (Advances.acceptWord _) fun named cursor here => ?_
  dsimp only
  split
  · refine here.accept (by decide) fun star cursor here _ => ?_
    split
    · exact here.skip Advances.skipTrivia fun _ cursor here => configured here _ _
    · refine here.andThen (Advances.expect (by decide) limit) (le_refl _) fun token cursor here => ?_
      exact here.skip Advances.skipTrivia fun _ cursor here => configured here _ _
  · exact configured here _ _

omit inner blocks in
theorem advances_affix (room : Nat) : Advances 0 room affix := by
  refine .of_reached fun cursor here => ?_
  refine here.andThen (Advances.loop fun text => ?_) (le_refl _) fun text cursor here => ?_
  · refine .of_reached fun cursor here => .current fun token same => ?_
    split
    · exact here.done (le_refl 0)
    · rename_i visible
      refine here.advance (fun ended => ?_) 0 fun cursor here => here.done (le_refl 1)
      rw [← same] at ended
      simp [ended] at visible
  · refine here.expect (by decide) fun _ cursor here => ?_
    exact here.skip Advances.skipTrivia fun _ cursor here => here.done (Nat.zero_le _)

omit inner blocks in
theorem advances_memberNames (room : Nat) : Advances 0 room memberNames := by
  refine Advances.loop fun names => .of_reached fun cursor here => ?_
  refine here.skip Advances.skipTrivia fun _ cursor here => ?_
  refine here.pass (Advances.expectAny (by decide) room) (le_refl _) fun token cursor here => ?_
  refine here.skip Advances.skipTrivia fun _ cursor here => ?_
  refine here.accept (by decide) fun more cursor here _ => ?_
  split
  · exact here.done (le_refl 1)
  · exact here.done (Nat.zero_le _)

omit inner blocks in
theorem advances_forwardStatement (line room : Nat) : Advances 0 room (forwardStatement line) := by
  refine .of_reached fun start here => ?_
  have ending {cursor : Cursor} (here : Reached start room 0 cursor) (url : String)
      (before : Option String) (filter : Option ForwardFilter) : Proceeds start (fun _ => 0) (do
        finish
        return Statement.forwardModule url before filter line) cursor :=
    here.skip advances_finish fun _ cursor here => here.done (le_refl 0)
  have filtered {cursor : Cursor} (here : Reached start room 0 cursor) (url : String)
      (before : Option String) : Proceeds start (fun _ => 0) (do
        let mut filter : Option ForwardFilter := none
        if ← Parser.atWord "show" then
          Parser.advance 1
          filter := some (.only (← memberNames))
        else if ← Parser.atWord "hide" then
          Parser.advance 1
          filter := some (.allBut (← memberNames))
        finish
        return Statement.forwardModule url before filter line) cursor := by
    refine here.skip (Advances.atWord _) fun shows cursor here => ?_
    dsimp only
    split
    · refine here.skip (Advances.advance 1) fun _ cursor here => ?_
      exact here.skip advances_memberNames fun _ cursor here => ending here _ _ _
    · refine here.skip (Advances.atWord _) fun hides cursor here => ?_
      split
      · refine here.skip (Advances.advance 1) fun _ cursor here => ?_
        exact here.skip advances_memberNames fun _ cursor here => ending here _ _ _
      · exact ending here _ _ _
  refine here.skip advances_address fun url cursor here => ?_
  refine here.skip (Advances.acceptWord _) fun named cursor here => ?_
  dsimp only
  split
  · exact here.skip advances_affix fun text cursor here => filtered here _ _
  · exact filtered here _ _

omit blocks in
theorem advances_importStatement (line : Nat) : Advances 0 limit (b.importStatement line) := by
  refine .of_reached fun cursor here => ends_takeTo here fun tokens cursor here proper light => ?_
  refine here.accept (by decide) fun _ cursor here _ => ?_
  dsimp only
  split
  · exact here.done (le_refl 0)
  · exact .lift (settled_raw inner proper light) fun text => here.done (le_refl 0)

theorem advances_keyframeBlock : Advances 1 limit b.keyframeBlock := by
  refine .of_reached fun cursor here => .current fun token _ => ?_
  refine here.andThen (advances_raw inner _ _) (le_refl _) fun text cursor here => ?_
  split
  · exact .throw nofun
  · exact here.pass blocks (le_refl _) fun body cursor here => here.done (le_refl 1)

theorem advances_keyframesStatement (keyword : String) (line : Nat) :
    Advances 0 limit (b.keyframesStatement keyword line) := by
  refine .of_reached fun cursor here => ?_
  refine here.andThen (advances_raw inner _ _) (le_refl _) fun name cursor here => ?_
  refine here.expect (by decide) fun _ cursor here => ?_
  refine here.andThen (Advances.loop fun frames => ?_) (Nat.le_add_right _ _) fun frames cursor here =>
    here.done (Nat.zero_le _)
  refine .of_reached fun cursor here => here.skip Advances.skipTrivia fun _ cursor here => ?_
  refine here.accept (by decide) fun closed cursor here _ => ?_
  split
  · exact here.done (le_refl 0)
  · refine here.skip Advances.atEnd fun ended cursor here => ?_
    split
    · exact .unexpected _
    · exact here.pass (advances_keyframeBlock inner blocks) (le_refl _) fun frame cursor here =>
        here.done (le_refl 1)

omit inner blocks in
theorem advances_atRootQuery (room : Nat) : Advances 0 room atRootQuery := by
  refine .of_reached fun cursor here => here.expect (by decide) fun _ cursor here => ?_
  refine here.skip Advances.skipTrivia fun _ cursor here => ?_
  refine here.expect (by decide) fun keyword cursor here => ?_
  refine here.skip Advances.skipTrivia fun _ cursor here => here.expect (by decide) fun _ cursor here => ?_
  refine here.andThen (Advances.loop fun names => ?_) (Nat.le_add_right _ _) fun names cursor here => ?_
  · refine .of_reached fun cursor here => here.skip Advances.skipTrivia fun _ cursor here => ?_
    refine here.accept (by decide) fun closed cursor here _ => ?_
    split
    · exact here.done (le_refl 0)
    · exact here.expect (by decide) fun _ cursor here => here.done (le_refl 1)
  · split
    · exact here.done (Nat.zero_le _)
    · split
      · exact here.done (Nat.zero_le _)
      · exact .throw nofun

theorem advances_atRootStatement (line : Nat) : Advances 0 limit (b.atRootStatement line) := by
  refine .of_reached fun start here => ?_
  have ending {cursor : Cursor} (here : Reached start limit 0 cursor) (query : Option AtRootQuery) :
      Proceeds start (fun _ => 0) (do
        Parser.skipTrivia
        if ← Parser.at_ .leftBrace then return Statement.atRoot none query (← b.block) line
        else
          let selectorLine := (← Parser.current).line
          let text ← raw b.self headStops false
          return .atRoot (some ⟨text, selectorLine⟩) query (← b.block) line) cursor := by
    refine here.skip Advances.skipTrivia fun _ cursor here => ?_
    refine here.skip (Advances.at_ _) fun opens cursor here => ?_
    split
    · exact here.andThen blocks (le_refl _) fun body cursor here => here.done (le_refl 0)
    · refine .current fun token _ => ?_
      refine here.andThen (advances_raw inner _ _) (le_refl _) fun text cursor here => ?_
      exact here.andThen blocks (le_refl _) fun body cursor here => here.done (le_refl 0)
  refine here.skip (Advances.at_ _) fun asks cursor here => ?_
  dsimp only
  split
  · exact here.skip advances_atRootQuery fun query cursor here => ending here _
  · exact ending here _

omit blocks in
theorem advances_messageStatement (kind : MessageKind) (line : Nat) :
    Advances 0 limit (b.messageStatement kind line) := by
  refine .of_reached fun cursor here => ?_
  refine here.andThen (advances_expression inner) (le_refl _) fun value cursor here => ?_
  exact here.skip advances_finish fun _ cursor here => here.done (le_refl 0)

omit blocks in
theorem advances_extendStatement (line : Nat) : Advances 0 limit (b.extendStatement line) := by
  refine .of_reached fun cursor here => ends_takeTo here fun tokens cursor here proper light => ?_
  refine .lift ?_ fun selector => here.accept (by decide) fun _ cursor here _ => here.done (le_refl 0)
  exact settled_raw inner (fun token member => proper token (mem_splitFlags member))
    ((spelled_splitFlags_le tokens).trans_lt light)

theorem advances_otherAtRule (name : String) (line : Nat) :
    Advances 0 limit (b.otherAtRule name line) := by
  refine .of_reached fun cursor here => ?_
  refine here.andThen (advances_raw inner _ _) (le_refl _) fun value cursor here => ?_
  refine here.skip (Advances.at_ _) fun opens cursor here => ?_
  split
  · exact here.andThen blocks (le_refl _) fun body cursor here => here.done (le_refl 0)
  · exact here.accept (by decide) fun _ cursor here _ => here.done (le_refl 0)

theorem advances_callable (build : String → Parameters → List Statement → Nat → Statement)
    (line : Nat) : Advances 0 limit (b.callable build line) := by
  refine .of_reached fun cursor here => here.expect (by decide) fun token cursor here => ?_
  refine here.skip Advances.skipTrivia fun _ cursor here => ?_
  refine here.andThen (advances_optionalParameters inner) (Nat.le_add_right _ _)
    fun params cursor here => ?_
  exact here.andThen blocks (Nat.le_add_right _ _) fun body cursor here => here.done (Nat.zero_le _)

theorem advances_conditional (build : Template → List Statement → Nat → Statement) (line : Nat) :
    Advances 0 limit (b.conditional build line) := by
  refine .of_reached fun cursor here => ?_
  refine here.andThen (advances_raw inner _ _) (le_refl _) fun head cursor here => ?_
  exact here.andThen blocks (le_refl _) fun body cursor here => here.done (le_refl 0)

theorem advances_atStatement : Advances 1 limit b.atStatement := by
  refine .of_reached fun start here => here.expect (by decide) fun token cursor here => ?_
  refine here.skip Advances.skipTrivia fun _ cursor here => ?_
  -- The keyword is passed, so what follows it need not pass anything.
  have behind {parser : Parser Statement} (advances : Advances 0 limit parser) :
      Proceeds start (fun _ => 1) parser cursor :=
    here.last advances (Nat.le_add_right _ _) fun _ => .inl (le_refl 1)
  split
  · exact behind (advances_ifStatement inner blocks _)
  · exact .throw nofun
  · exact behind (advances_eachStatement inner blocks _)
  · exact behind (advances_forStatement inner blocks _)
  · refine here.andThen (advances_expression inner) (Nat.le_add_right _ _) fun test cursor here => ?_
    exact here.andThen blocks (Nat.le_add_right _ _) fun body cursor here => here.done (le_refl 1)
  · exact behind (advances_callable inner blocks _ _)
  · exact behind (advances_callable inner blocks _ _)
  · refine here.andThen (advances_expression inner) (Nat.le_add_right _ _) fun value cursor here => ?_
    exact here.skip advances_finish fun _ cursor here => here.done (le_refl 1)
  · exact behind (advances_includeStatement inner blocks _)
  · refine here.andThen (advances_optionalArguments inner) (Nat.le_add_right _ _)
      fun args cursor here => ?_
    exact here.skip advances_finish fun _ cursor here => here.done (le_refl 1)
  · exact behind (advances_useStatement inner _)
  · exact behind (advances_forwardStatement _ _)
  · exact behind (advances_importStatement inner _)
  · exact behind (advances_conditional inner blocks _ _)
  · exact behind (advances_conditional inner blocks _ _)
  · exact behind (advances_conditional inner blocks _ _)
  · exact behind (advances_atRootStatement inner blocks _)
  · exact behind (advances_messageStatement inner _ _)
  · exact behind (advances_messageStatement inner _ _)
  · exact behind (advances_messageStatement inner _ _)
  · exact behind (advances_extendStatement inner _)
  · split
    · exact behind (advances_keyframesStatement inner blocks _ _)
    · exact behind (advances_otherAtRule inner blocks _ _)

theorem takes_statementRound (nested : Bool) (done : List Statement) :
    Takes Parser.Next.least limit (b.statementRound nested done) := by
  refine .of_reached fun start here => here.skip Advances.skipBlank fun _ cursor here => ?_
  refine .current fun token same => ?_
  have passing {kind : TokenKind} (known : token.kind = kind) (visible : kind ≠ .endOfInput)
      (next : List Statement) :
      Proceeds start Parser.Next.least (do
        Parser.advance 1
        return (.again next : Parser.Next (List Statement) (List Statement))) cursor :=
    here.advance (by rwa [← same, known]) 0 fun cursor here => here.done (le_refl 1)
  have more {cursor : Cursor} (here : Reached start limit 0 cursor) {parser : Parser Statement}
      (advances : Advances 1 limit parser) :
      Proceeds start Parser.Next.least
        (do return (.again (done ++ [← parser]) : Parser.Next (List Statement) (List Statement)))
        cursor :=
    here.pass advances (le_refl _) fun node cursor here => here.done (le_refl 1)
  split
  · split
    · exact .unexpected _
    · exact here.done (le_refl 0)
  · split
    · exact here.done (le_refl 0)
    · exact .unexpected _
  · exact passing ‹_› (by decide) _
  · exact passing ‹_› (by decide) _
  · exact more here (advances_atStatement inner blocks)
  · exact more here (advances_assignment inner _)
  · refine .peek fun next => .peek fun second => ?_
    split
    · refine here.skip (Advances.advance 2) fun _ cursor here => ?_
      exact more here (advances_assignment inner _)
    · exact more here (advances_ruleOrDeclaration inner blocks)
  · exact more here (advances_ruleOrDeclaration inner blocks)

theorem advances_statements (nested : Bool) : Advances 0 limit (b.statements nested) :=
  Advances.loop (takes_statementRound inner blocks nested)

theorem advances_braced : Advances 1 (limit + 1) b.braced := by
  refine .of_reached fun cursor here => here.skip Advances.skipTrivia fun _ cursor here => ?_
  refine here.expect (by decide) fun _ cursor here => ?_
  refine here.andThen (advances_statements inner blocks true) (le_refl _) fun body cursor here => ?_
  exact here.expect (by decide) fun _ cursor here => here.done (le_refl 1)

end Statements

end Blocks

/-- Blocks do not nest deeper than there is text. -/
theorem advances_bodyParser {self : Self} {limit depth : Nat}
    (inner : ∀ form, Advances 1 limit (self form)) (fits : depth ≤ limit) :
    Advances 1 depth (bodyParser self depth) := by
  induction depth with
  | zero => exact fun cursor _ light => absurd light (Nat.not_lt_zero _)
  | succ depth ih =>
    have within : depth ≤ limit := Nat.le_of_succ_le fits
    have expressions (form : Form) : Advances 1 depth (self form) :=
      (inner form).weaken (fun _ => le_refl 1) within
    exact Blocks.advances_braced expressions (ih within)

def Blocks.ofDepth (depth : Nat) : Blocks := ⟨Form.parser depth, bodyParser (Form.parser depth) depth⟩

theorem Blocks.advances_ofDepth (depth : Nat) :
    (∀ form, Advances 1 depth ((Blocks.ofDepth depth).self form)) ∧
      Advances 1 depth (Blocks.ofDepth depth).block :=
  ⟨advances_expressions depth, advances_bodyParser (advances_expressions depth) (le_refl depth)⟩

/-- The rules that take up text, by what they read. -/
inductive Rule : Type → Type where
  | primary : Rule Expr
  | unary : Rule Expr
  | product : Rule Expr
  | sum : Rule Expr
  | comparison : Rule Expr
  | conjunction : Rule Expr
  | disjunction : Rule Expr
  | spaceList (stops : List String) : Rule Expr
  | commaList (stops : List String) : Rule Expr
  | callArguments : Rule (List (Argument Expr))
  | parameters : Rule Parameters
  | assignment (qualifier : Option String) : Rule Statement
  | atStatement : Rule Statement
  | styleRule : Rule Statement
  | declaration : Rule Statement
  | customProperty : Rule Statement

def Rule.parser (b : Blocks) {α : Type} : Rule α → Parser α
  | primary => Grammar.primary b.self
  | unary => Grammar.unary b.self
  | product => Grammar.product b.self
  | sum => Grammar.sum b.self
  | comparison => Grammar.comparison b.self
  | conjunction => Grammar.conjunction b.self
  | disjunction => Grammar.disjunction b.self
  | spaceList stops => Grammar.spaceList b.self stops
  | commaList stops => Grammar.commaList b.self stops
  | callArguments => Grammar.callArguments b.self
  | parameters => Grammar.parameters b.self
  | assignment qualifier => b.assignment qualifier
  | atStatement => b.atStatement
  | styleRule => b.styleRule
  | declaration => b.declaration
  | customProperty => b.customProperty

/-- With less text ahead than the depth, every rule passes a token. -/
theorem advances_rule (depth : Nat) {α : Type} (rule : Rule α) :
    Advances 1 depth (rule.parser (.ofDepth depth)) := by
  obtain ⟨inner, blocks⟩ := Blocks.advances_ofDepth depth
  have within {parser : Parser α} (advances : Advances 1 (depth + 1) parser) :
      Advances 1 depth parser := advances.weaken (fun _ => le_refl 1) (Nat.le_succ depth)
  unfold Rule.parser
  cases rule with
  | primary => exact within (advances_primary inner)
  | unary => exact within (advances_unary inner)
  | product => exact within (advances_product inner)
  | sum => exact within (advances_sum inner)
  | comparison => exact within (advances_comparison inner)
  | conjunction => exact within (advances_conjunction inner)
  | disjunction => exact within (advances_disjunction inner)
  | spaceList stops => exact within (advances_spaceList inner stops)
  | commaList stops => exact within (advances_commaList inner stops)
  | callArguments => exact within (advances_callArguments inner)
  | parameters => exact within (advances_parameters inner)
  | assignment qualifier => exact Blocks.advances_assignment inner qualifier
  | atStatement => exact Blocks.advances_atStatement inner blocks
  | styleRule => exact Blocks.advances_styleRule inner blocks
  | declaration => exact Blocks.advances_declaration inner blocks
  | customProperty => exact Blocks.advances_customProperty inner

/-- A rule that succeeds anywhere in a text has moved on, to the end of input at most. -/
theorem Outcome.position_lt {α : Type} {start : Cursor} {result : Except Fault (α × Cursor)}
    (outcome : Outcome start (fun _ => 1) result) {value : α} {after : Cursor}
    (read : result = .ok (value, after)) :
    after.tokens = start.tokens ∧ start.position < after.position ∧
      after.position < after.tokens.length := by
  rw [read] at outcome
  obtain ⟨count, passed, fits, rfl⟩ := outcome
  have size : start.tokens.length = start.position + start.ahead.length + 1 := by
    simp [Cursor.tokens, Cursor.position, Nat.add_assoc]
  have moved : 1 ≤ count := passed
  rw [Cursor.tokens_advance, Cursor.position_advance fits, size]
  refine ⟨rfl, ?_, ?_⟩ <;> omega

/-- No text makes the reading of a stylesheet reach a bound. -/
theorem settled_stylesheet (source : String) : Settled (stylesheet source) := by
  unfold stylesheet cursorOf
  cases lexed : Lexer.tokens source with
  | error fault => exact nofun
  | ok tokens =>
    obtain ⟨proper, weight, -⟩ := (Lexer.tiling_of_tokensAt lexed).cursor
    have light : (Cursor.ofTokens tokens).weight < depthBound source := by
      rw [weight, String.length_toList]
      exact Nat.lt_succ_self _
    obtain ⟨inner, blocks⟩ := Blocks.advances_ofDepth (depthBound source)
    exact (Blocks.advances_statements inner blocks false).settled_run proper light

/-- What is read inside of a token is no longer than its text. -/
theorem length_inside_le {token : Token} {inside : String} (opened : token.inside? = some inside) :
    inside.toList.length ≤ token.text.toList.length := by
  unfold Token.inside? at opened
  split at opened
  · exact Option.some.inj opened ▸ content_le token
  · exact (Token.infix_of_urlContent? opened).length_le
  · cases opened

/-- The grammar makes progress. Wherever a rule is tried in a text, and with any depth that exceeds the
text, it does not reach a bound; if it succeeds, it has passed a token, and has stopped at the end of
input at the latest. What is embedded in a string or a url is shorter than the text of its token. So
every stylesheet is read, or fails for what is written in it; and its reading stops inside of a character
only if one of its urls ends in one, here or in what is embedded. -/
theorem rules_progress (source : String) :
    Settled (stylesheet source) ∧ (stylesheet source = .error .torn → Tears source.toList) ∧
    ∀ (start : Position) (tokens : List Token), Lexer.tokensAt start source.toList = .ok tokens →
      (∀ {α : Type} (rule : Rule α) (depth count : Nat), source.length < depth →
        let cursor := (Cursor.ofTokens tokens).advance count
        Settled (rule.parser (.ofDepth depth) cursor) ∧
        ∀ value after, rule.parser (.ofDepth depth) cursor = .ok (value, after) →
          after.tokens = tokens ∧ cursor.position < after.position ∧
            after.position < tokens.length) ∧
      ∀ token ∈ tokens, ∀ inside, token.inside? = some inside →
        ∀ text offset, .body text offset ∈ (Quoted.pieces inside.toList).1 →
          text.length < token.text.length ∧ token.text.length ≤ source.length := by
  refine ⟨settled_stylesheet source, (sound_stylesheet source).textual, fun start tokens lexed => ⟨?_, ?_⟩⟩
  · intro α rule depth count deep cursor
    have tiling := Lexer.tiling_of_tokensAt lexed
    obtain ⟨proper, weight, whole⟩ := tiling.cursor
    have passes : (Cursor.ofTokens tokens).Passes 0 cursor := .advance _ count
    have light : cursor.weight < depth := by
      have fewer := passes.weight_le proper
      rw [weight, String.length_toList] at fewer
      omega
    have outcome := (advances_rule depth rule cursor (passes.proper proper) light).outcome
    have same : cursor.tokens = tokens := by rw [Cursor.tokens_advance, whole]
    refine ⟨fun failed => ?_, fun value after read => ?_⟩
    · rw [failed] at outcome
      exact outcome rfl
    · obtain ⟨kept, moved, inside⟩ := Outcome.position_lt outcome read
      rw [kept, same] at inside
      exact ⟨kept.trans same, moved, inside⟩
  · intro token member inside opened text offset embedded
    have shorter := Quoted.body_shorter embedded
    have within := length_inside_le opened
    have ahead := Lexer.text_le_spelled member
    rw [(Lexer.tiling_of_tokensAt lexed).spelled_eq, String.length_toList] at ahead
    rw [String.length_toList] at within ahead
    exact ⟨shorter.trans_le within, ahead⟩

/-- The reading of a url stops inside of its last character. -/
theorem open_url_torn : stylesheet "@debug url(é" = .error .torn := by
  have torn : (stylesheet "@debug url(é" matches .error .torn) = true := by decide +kernel
  split at torn
  · assumption
  · cases torn

/-- A rule with a string in it that embeds an expression. -/
theorem rules_progress_string :
    let source := "a\x7bb:\"x#\x7b$c\x7d\"\x7d"
    ∃ tokens, Lexer.tokensAt .start source.toList = .ok tokens ∧ tokens.length = 7 ∧
      source.length < 14 ∧ Settled (stylesheet source) ∧
      ∃ node after,
        Rule.styleRule.parser (.ofDepth 14) ((Cursor.ofTokens tokens).advance 0) = .ok (node, after) ∧
        after.tokens = tokens ∧ 0 < after.position ∧ after.position < 7 := by
  intro source
  have lexed : Lexer.tokensAt .start source.toList =
      .ok [⟨.ident, "a", ⟨1, 1⟩⟩, ⟨.leftBrace, "\x7b", ⟨1, 2⟩⟩, ⟨.ident, "b", ⟨1, 3⟩⟩,
        ⟨.colon, ":", ⟨1, 4⟩⟩, ⟨.string, "\"x#\x7b$c\x7d\"", ⟨1, 5⟩⟩, ⟨.rightBrace, "\x7d", ⟨1, 13⟩⟩,
        ⟨.endOfInput, "", ⟨1, 14⟩⟩] := by
    decide +kernel
  obtain ⟨settled, -, progress⟩ := rules_progress source
  refine ⟨_, lexed, rfl, by decide, settled, ?_⟩
  generalize same : Rule.styleRule.parser (.ofDepth 14) ((Cursor.ofTokens _).advance 0) = result
  have succeeds : result.isOk = true := by
    rw [← same]
    decide +kernel
  cases result with
  | error fault => cases succeeds
  | ok read =>
    obtain ⟨kept, moved, inside⟩ :=
      ((progress _ _ lexed).1 .styleRule 14 0 (by decide)).2 read.1 read.2 same
    exact ⟨read.1, read.2, rfl, kept, moved, inside⟩

end Scss.Grammar
