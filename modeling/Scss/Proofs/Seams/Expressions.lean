import Scss.Proofs.Grammar.Twins
import Scss.Proofs.Seams.Rows
import Scss.Proofs.Texts

/-! The grammar of expressions in unison. No expression goes on over a seam: what stands there starts no
value and is no operator. Where blanks matter behind a token, as for a sign, the seam lets both runs see the
same. -/
namespace Scss

namespace Cursor.Near

open Scss.Parser (Unison)

variable {α : Type} {seams : Seams} {lined : Prop} {opened : List TokenKind} {cursor other : Cursor}
  {goal : α → α → Cursor → Cursor → Prop}

/-- Tokens that are looked at behind others. -/
theorem peek_iff {offset : Nat} {kind : TokenKind}
    (near : (cursor.advance offset).Near seams lined opened (other.advance offset))
    (fertile : kind.isBarren = false) : (cursor.peek offset).kind = kind ↔ (other.peek offset).kind = kind := by
  rw [peek_eq, peek_eq]
  exact near.kind_iff fertile

theorem pass_peek {offset : Nat} {kind : TokenKind}
    (near : (cursor.advance offset).Near seams lined opened (other.advance offset))
    (fertile : kind.isBarren = false) (found : (cursor.peek offset).kind = kind) :
    other.peek offset = cursor.peek offset ∧
      (cursor.advance (offset + 1)).Near seams lined (Grammar.openBehind opened kind)
        (other.advance (offset + 1)) := by
  rw [← advance_advance, ← advance_advance, peek_eq, peek_eq]
  rw [peek_eq] at found
  exact near.pass fertile found

/-- Three points are three points on both sides. -/
theorem atEllipsis (near : cursor.Near seams lined opened other) {next nextTwin : Bool → Parser α}
    (yes : (cursor.advance 3).Near seams lined opened (other.advance 3) →
      Unison goal (next true) cursor (nextTwin true) other)
    (no : Unison goal (next false) cursor (nextTwin false) other) :
    Unison goal (Grammar.atEllipsis >>= next) cursor (Grammar.atEllipsis >>= nextTwin) other := by
  have first : (cursor.advance 0).Near seams lined opened (other.advance 0) := near
  have pass {offset : Nat} (near : (cursor.advance offset).Near seams lined opened (other.advance offset))
      (point : (cursor.peek offset).kind = .dot) := (near.pass_peek rfl point).2
  have points : ((cursor.peek 0).kind = .dot ∧ (cursor.peek 1).kind = .dot ∧
      (cursor.peek 2).kind = .dot) ↔ ((other.peek 0).kind = .dot ∧ (other.peek 1).kind = .dot ∧
      (other.peek 2).kind = .dot) := by
    rw [← first.peek_iff rfl]
    refine and_congr_right fun one => ?_
    rw [← (pass first one).peek_iff rfl]
    refine and_congr_right fun two => ?_
    rw [← (pass (pass first one) two).peek_iff rfl]
  have shape (cursor : Cursor) : ([0, 1, 2].all fun offset => (cursor.peek offset).kind = .dot) =
      decide ((cursor.peek 0).kind = .dot ∧ (cursor.peek 1).kind = .dot ∧
        (cursor.peek 2).kind = .dot) := by
    simp [Bool.decide_and]
  constructor
  change Parser.Agrees _ (next ([0, 1, 2].all _) cursor) (nextTwin ([0, 1, 2].all _) other)
  rw [shape, shape, ← decide_eq_decide.mpr points]
  by_cases all : (cursor.peek 0).kind = .dot ∧ (cursor.peek 1).kind = .dot ∧ (cursor.peek 2).kind = .dot
  · rw [decide_eq_true all]
    exact (yes (pass (pass (pass first all.1) all.2.1) all.2.2)).outcome
  · rw [decide_eq_false all]
    exact no.outcome

/-- The brace that closes an embedded expression does not stand at a seam, as the expression is closed
before it. -/
theorem expectBrace (near : cursor.Near seams lined (.interpolation :: opened) other)
    {next nextTwin : Token → Parser α}
    (rest : (cursor.advance 1).Near seams lined opened (other.advance 1) →
      Unison goal (next cursor.current) (cursor.advance 1) (nextTwin cursor.current) (other.advance 1)) :
    Unison goal (Parser.expect .rightBrace >>= next) cursor (Parser.expect .rightBrace >>= nextTwin)
      other := by
  rw [Parser.expect]
  rcases near.sees with ⟨same, behind⟩ | halt
  · apply Unison.expectAny (by rw [same])
    intro found
    rw [List.mem_singleton] at found
    rw [same]
    rw [found] at behind
    exact rest behind
  · obtain ⟨own, also⟩ : cursor.Idles ∧ other.Idles := by
      rcases halt with ⟨none, also⟩ | ⟨-, seam⟩
      · exact ⟨Cursor.idles_of_nil none, Cursor.idles_of_nil also⟩
      · exact Cursor.idles_of_loose (seam.closed.resolve_right (List.cons_ne_nil _ _))
    have missing {cursor : Cursor} (idles : cursor.Idles) : cursor.current.kind ∉ [TokenKind.rightBrace] :=
      mt List.mem_singleton.mp (idles.ne (by decide) rfl)
    apply Unison.expectAny (iff_of_false (missing own) (missing also))
    exact fun found => absurd found (missing own)

/-- No value starts at a seam. -/
theorem startsValue_eq (near : cursor.Near seams lined opened other) (stops : List String) :
    Grammar.startsValue stops cursor.current = Grammar.startsValue stops other.current := by
  have none {token : Token} (barren : token.kind.isBarren = true) :
      Grammar.startsValue stops token = false := by
    rcases TokenKind.isBarren_cases barren with kind | kind | kind | kind | kind <;>
      simp [Grammar.startsValue, kind]
  rcases near.sees with ⟨same, -⟩ | halt
  · rw [same]
  · rw [none halt.barren.1, none halt.barren.2]

end Cursor.Near

namespace Grammar

open Scss.Parser (Unison Meets Level Round Agrees)

/-- A parser that fails where what it is to read cannot start. -/
def Hungry (parser : Parser Expr) : Prop :=
  ∀ cursor : Cursor, cursor.current.kind.isBarren = true → ∃ fault, parser cursor = .error (.grammar fault)

theorem Hungry.unison {parser twin : Parser Expr} (hungry : Hungry parser) (hungryTwin : Hungry twin)
    {seams : Seams} {opened : List TokenKind} {cursor other : Cursor} (halt : cursor.Halt seams opened other)
    {goal : Expr → Expr → Cursor → Cursor → Prop} : Unison goal parser cursor twin other := by
  obtain ⟨fault, failed⟩ := hungry cursor halt.barren.1
  obtain ⟨another, failedTwin⟩ := hungryTwin other halt.barren.2
  exact .of_eq failed failedTwin (.grammar fault another)

/-- What starts with a hungry parser is hungry. -/
theorem Hungry.bind {first : Parser Expr} {next : Token → Expr → Parser Expr} (hungry : Hungry first) :
    Hungry (do let token ← Parser.current; let expr ← first; next token expr) := by
  intro cursor barren
  obtain ⟨fault, failed⟩ := hungry cursor barren
  refine ⟨fault, ?_⟩
  rw [Parser.bind_of_ok Parser.current_apply, Parser.bind_of_error failed]

section Hungry

variable {self : Self}

theorem hungry_primary : Hungry (primary self) := by
  intro cursor barren
  refine ⟨cursor.unexpected "expression", ?_⟩
  rw [primary, Parser.bind_of_ok Parser.current_apply]
  rcases TokenKind.isBarren_cases barren with kind | kind | kind | kind | kind <;> rw [kind] <;> rfl

theorem hungry_unary : Hungry (unary self) := by
  intro cursor barren
  obtain ⟨fault, failed⟩ := @hungry_primary self cursor barren
  refine ⟨fault, ?_⟩
  rw [unary, Parser.bind_of_ok Parser.current_apply]
  rcases TokenKind.isBarren_cases barren with kind | kind | kind | kind | kind <;>
    simpa [kind, Parser.bind_of_ok (Parser.peek_apply 1), Token.isWord] using failed

theorem hungry_leftAssociative {operand : Parser Expr} (hungry : Hungry operand)
    (operator : Parser (Option BinaryOp)) : Hungry (leftAssociative operand operator) := by
  intro cursor barren
  obtain ⟨fault, failed⟩ := hungry cursor barren
  exact ⟨fault, Parser.bind_of_error failed⟩

theorem hungry_disjunction : Hungry (disjunction self) :=
  hungry_leftAssociative (hungry_leftAssociative (hungry_leftAssociative (hungry_leftAssociative
    (hungry_leftAssociative hungry_unary _) _) _) _) _

theorem hungry_spaceList (stops : List String) : Hungry (spaceList self stops) := hungry_disjunction.bind

theorem hungry_commaList (stops : List String) : Hungry (commaList self stops) :=
  (hungry_spaceList stops).bind

end Hungry

/-- A complete expression over tokens of its own. -/
theorem agrees_complete {expression twin : Parser Expr} (level : Level expression twin)
    {cursor other : Cursor} (near : cursor.Near .loose False [] other) :
    Agrees Eq ((complete expression).run' cursor) ((complete twin).run' other) := by
  have whole : Unison (fun value another _ _ => value = another) (complete expression) cursor
      (complete twin) other := by
    apply near.skip
    intro near
    apply near.andThen level
    intro expr after afterTwin near
    have kinds := near.kind_skipTrivia nofun
    apply near.skip
    intro near
    apply Unison.atEnd kinds
    intro ended _
    cases ended with
    | true => exact .done rfl
    | false => exact .unexpected
  exact whole.outcome.bind fun _ _ same => .ok same

section Expressions

variable {self twin : Self} (inner : ∀ form, Level (self form) (twin form))

include inner

theorem level_embedded : Level (embedded self) (embedded twin) := by
  intro seams lined opened cursor other near
  apply near.expect rfl
  intro _ near
  apply near.skip
  intro near
  apply near.andThen (inner .comma)
  intro expr after afterTwin near
  apply near.skip
  intro near
  apply near.expectBrace
  intro near
  exact .done ⟨rfl, near⟩

theorem level_argumentValue (name : Option String) :
    Level (argumentValue self name) (argumentValue twin name) := by
  intro seams lined opened cursor other near
  apply near.andThen (inner .space)
  intro value after afterTwin near
  apply near.skip
  intro near
  have ending {cursor other : Cursor} (near : cursor.Near seams lined opened other) (rest : Bool) :
      let read : Parser (Argument Expr × Bool) := do return (⟨name, value, rest⟩, ← Parser.accept .comma)
      Unison (Meets seams lined opened) read cursor read other := by
    apply near.accept rfl
    · intro near
      exact .done ⟨rfl, near⟩
    · exact .done ⟨rfl, near⟩
  apply near.atEllipsis
  · intro behind
    apply Unison.advance
    apply behind.skip
    intro near
    exact ending near true
  · exact ending near false

theorem level_callArgument : Level (callArgument self) (callArgument twin) := by
  rw [callArgument_eq, callArgument_eq]
  intro seams lined opened cursor other near
  apply Unison.current
  apply Unison.significant
  rw [Cursor.significant_eq, Cursor.significant_eq]
  apply Unison.ite
  · simp only [Bool.and_eq_true, decide_eq_true_eq]
    rw [← near.kind_iff rfl]
    refine and_congr_right fun dollar => ?_
    exact (near.pass rfl dollar).2.skipTrivia.kind_iff rfl
  · intro named
    simp only [Bool.and_eq_true, decide_eq_true_eq] at named
    obtain ⟨same, behind⟩ := near.pass rfl named.1
    rw [same]
    apply Unison.advance
    apply behind.skip
    intro near
    apply near.expect rfl
    intro _ near
    apply near.skip
    intro near
    exact level_argumentValue inner _ _ _ _ _ _ near
  · intro _
    exact level_argumentValue inner _ _ _ _ _ _ near

theorem level_callArguments : Level (callArguments self) (callArguments twin) := by
  intro seams lined opened cursor other near
  apply near.expect rfl
  intro _ near
  apply Unison.loop (fun _ cursor other => cursor.Near seams lined (.leftParen :: opened) other) _ near
  intro args cursor other near
  apply near.skip
  intro near
  apply near.accept rfl
  · intro near
    exact .done ⟨rfl, near⟩
  · apply near.andThen (level_callArgument inner)
    rintro ⟨arg, more⟩ after afterTwin near
    apply Unison.ite Iff.rfl
    · intro _
      exact .done ⟨rfl, near⟩
    · intro _
      apply near.expect rfl
      intro _ near
      exact .done ⟨rfl, near⟩

theorem level_interpolatedName {cursor other : Cursor} {seams : Seams} {lined : Prop} {opened : List TokenKind}
    (near : cursor.Near seams lined opened other) (same : other.current = cursor.current) :
    Unison (Meets seams lined opened) (interpolatedName self) cursor (interpolatedName twin) other := by
  rw [interpolatedName_eq, interpolatedName_eq]
  apply Unison.current
  rw [same]
  apply Unison.loop (fun _ cursor other => cursor.Near seams lined opened other) _ near
  rintro ⟨template, joins⟩ cursor other near
  rcases near.sees with ⟨same, behind⟩ | halt
  · apply Unison.current
    rw [same]
    split
    · apply Unison.ite Iff.rfl
      · intro _
        rename_i word _
        rw [word] at behind
        exact .advance (.done ⟨rfl, behind⟩)
      · intro _
        exact .done ⟨rfl, near⟩
    · apply near.andThen (level_embedded inner)
      intro expr after afterTwin near
      exact .done ⟨rfl, near⟩
    · rename_i hyphen
      rw [hyphen] at behind
      apply Unison.peek
      apply Unison.ite
      · simp only [Bool.and_eq_true, decide_eq_true_eq]
        rw [behind.peek_iff rfl]
      · intro _
        exact .advance (.done ⟨rfl, behind⟩)
      · intro _
        exact .done ⟨rfl, near⟩
    · exact .done ⟨rfl, near⟩
  · have ended {self : Self} {cursor : Cursor} (barren : cursor.current.kind.isBarren = true) :
        nameRound self (template, joins) cursor = .ok (.done (.interpolated template), cursor) := by
      rw [nameRound, Parser.bind_of_ok Parser.current_apply]
      rcases TokenKind.isBarren_cases barren with kind | kind | kind | kind | kind <;> rw [kind] <;> rfl
    exact .of_eq (ended halt.barren.1) (ended halt.barren.2) (.ok ⟨rfl, near⟩)

theorem level_identifierValue {cursor other : Cursor} {seams : Seams} {lined : Prop} {opened : List TokenKind}
    (near : cursor.Near seams lined opened other) (word : cursor.current.kind = .ident) :
    Unison (Meets seams lined opened) (identifierValue self) cursor (identifierValue twin) other := by
  obtain ⟨same, behind⟩ := near.pass rfl word
  apply Unison.current
  rw [same]
  apply Unison.peek
  apply Unison.peek
  apply Unison.ite (by rw [behind.peek_iff rfl])
  · intro _
    apply Unison.advance
    apply behind.andThen (level_callArguments inner)
    intro args after afterTwin near
    exact .done ⟨rfl, near⟩
  intro _
  apply Unison.ite
  · simp only [Bool.and_eq_true, decide_eq_true_eq]
    rw [← behind.peek_iff rfl]
    refine and_congr_right fun dot => ?_
    rw [(behind.pass_peek rfl dot).2.peek_iff rfl]
  · intro found
    simp only [Bool.and_eq_true, decide_eq_true_eq] at found
    obtain ⟨-, second⟩ := behind.pass_peek rfl found.1
    obtain ⟨name, third⟩ := second.pass_peek rfl found.2
    rw [name]
    exact .advance (.done ⟨rfl, third⟩)
  intro _
  apply Unison.peek
  apply Unison.ite
  · simp only [Bool.and_eq_true, decide_eq_true_eq, and_assoc]
    rw [← behind.peek_iff rfl]
    refine and_congr_right fun dot => ?_
    obtain ⟨-, second⟩ := behind.pass_peek rfl dot
    rw [← second.peek_iff rfl]
    refine and_congr_right fun name => ?_
    rw [(second.pass_peek rfl name).2.peek_iff rfl]
  · intro found
    simp only [Bool.and_eq_true, decide_eq_true_eq] at found
    obtain ⟨-, second⟩ := behind.pass_peek rfl found.1.1
    obtain ⟨name, third⟩ := second.pass_peek rfl found.1.2
    rw [name]
    apply Unison.advance
    apply third.andThen (level_callArguments inner)
    intro args after afterTwin near
    exact .done ⟨rfl, near⟩
  intro _
  apply Unison.ite (by rw [behind.peek_iff rfl])
  · intro _
    exact level_interpolatedName inner near same
  · intro _
    exact .advance (.done ⟨rfl, behind⟩)

theorem level_mapRest (firstKey : Expr) (line : Nat) {cursor other : Cursor} {seams : Seams} {lined : Prop}
    {opened : List TokenKind} (near : cursor.Near seams lined (.leftParen :: opened) other) :
    Unison (Meets seams lined opened) (mapRest self firstKey line) cursor (mapRest twin firstKey line)
      other := by
  apply near.skip
  intro near
  apply near.andThen (inner .space)
  intro firstValue after afterTwin near
  apply Unison.loopThen (fun _ cursor other => cursor.Near seams lined (.leftParen :: opened) other)
    (Meets seams lined (.leftParen :: opened)) _ near
  · rintro pairs _ after afterTwin ⟨rfl, near⟩
    apply near.expect rfl
    intro _ near
    exact .done ⟨rfl, near⟩
  · intro pairs cursor other near
    apply near.skip
    intro near
    apply near.accept rfl
    · intro near
      apply near.skip
      intro near
      apply near.at_ rfl
      intro closes _
      apply Unison.ite Iff.rfl
      · intro _
        exact .done ⟨rfl, near⟩
      intro _
      apply near.andThen (inner .space)
      intro key after afterTwin near
      apply near.skip
      intro near
      apply near.expect rfl
      intro _ near
      apply near.skip
      intro near
      apply near.andThen (inner .space)
      intro value after afterTwin near
      exact .done ⟨rfl, near⟩
    · exact .done ⟨rfl, near⟩

theorem level_parenRest (first : Expr) : Level (parenRest self first) (parenRest twin first) := by
  intro seams lined opened cursor other near
  apply Unison.loop (fun _ cursor other => cursor.Near seams lined opened other) _ near
  rintro ⟨items, commas⟩ cursor other near
  apply near.accept rfl
  · intro near
    apply near.skip
    intro near
    apply near.at_ rfl
    intro closes _
    apply Unison.ite Iff.rfl
    · intro _
      exact .done ⟨rfl, near⟩
    intro _
    apply near.andThen (inner .space)
    intro item after afterTwin near
    apply near.skip
    intro near
    exact .done ⟨rfl, near⟩
  · exact .done ⟨rfl, near⟩

theorem level_parenthesized : Level (parenthesized self) (parenthesized twin) := by
  intro seams lined opened cursor other near
  apply near.expect rfl
  intro _ near
  apply near.skip
  intro near
  apply near.accept rfl
  · intro near
    exact .done ⟨rfl, near⟩
  apply near.andThen (inner .space)
  intro first after afterTwin near
  apply near.skip
  intro near
  apply near.accept rfl
  · intro near
    exact level_mapRest inner _ _ near
  apply near.andThen (level_parenRest inner first)
  rintro ⟨items, commas⟩ after afterTwin near
  apply near.expect rfl
  intro _ near
  exact .done ⟨rfl, near⟩

theorem level_bracketed : Level (bracketed self) (bracketed twin) := by
  rw [bracketed_eq, bracketed_eq]
  intro seams lined opened cursor other near
  apply near.expect rfl
  intro _ near
  apply near.skip
  intro near
  apply near.accept rfl
  · intro near
    exact .done ⟨rfl, near⟩
  apply near.andThen (inner .comma)
  intro content after afterTwin near
  apply near.skip
  intro near
  apply near.expect rfl
  intro _ near
  exact .done ⟨rfl, near⟩

/-- The inside of a string is the same for both. -/
theorem agrees_quoted (content : String) (position : Position) :
    Agrees Eq (quoted self content position) (quoted twin content position) := by
  unfold quoted Quoted.template
  have pieces (piece : Quoted.Piece) :
      Agrees Eq (Quoted.readPiece (Parser.onTokens (complete (self .comma))) position piece)
        (Quoted.readPiece (Parser.onTokens (complete (twin .comma))) position piece) := by
    cases piece with
    | literal text => exact .ok rfl
    | body text offset =>
      rw [Quoted.readPiece, Quoted.readPiece]
      cases Lexer.tokensAt (position.shift offset) text with
      | error fault => exact .fault _
      | ok tokens =>
        apply (agrees_complete (inner .comma) (.refl (Cursor.ofTokens tokens))).bind
        rintro expr _ rfl
        exact .ok rfl
  apply (Agrees.mapM fun piece _ => pieces piece).bind
  rintro parts _ rfl
  split
  · exact .fault _
  · exact .ok rfl

theorem level_primary : Level (primary self) (primary twin) := by
  intro seams lined opened cursor other near
  rcases near.sees with ⟨same, behind⟩ | halt
  · apply Unison.current
    rw [same]
    have passed {kind : TokenKind} (found : cursor.current.kind = kind)
        (plain : openBehind opened kind = opened) :
        (cursor.advance 1).Near seams lined opened (other.advance 1) := by
      rwa [found, plain] at behind
    split
    · apply Unison.advance
      split
      · exact .done ⟨rfl, passed ‹_› rfl⟩
      · exact .throw
    · apply Unison.advance
      apply Unison.lift (agrees_quoted inner _ _)
      rintro value _ rfl
      exact .done ⟨rfl, passed ‹_› rfl⟩
    · split
      · exact .throw
      · exact .advance (.done ⟨rfl, passed ‹_› rfl⟩)
    · exact .advance (.done ⟨rfl, passed ‹_› rfl⟩)
    · apply Unison.advance
      split
      · apply Unison.lift (agrees_quoted inner _ _)
        rintro value _ rfl
        exact .done ⟨rfl, passed ‹_› rfl⟩
      · exact .throw
    · exact .advance (.done ⟨rfl, passed ‹_› rfl⟩)
    · apply Unison.ite Iff.rfl
      · intro _
        exact .advance (.done ⟨rfl, passed ‹_› rfl⟩)
      · intro _
        exact .unexpected
    · exact level_parenthesized inner _ _ _ _ _ near
    · exact level_bracketed inner _ _ _ _ _ near
    · exact level_interpolatedName inner near same
    · exact level_identifierValue inner near ‹_›
    · exact .unexpected
  · exact hungry_primary.unison hungry_primary halt

theorem level_unary : Level (unary self) (unary twin) := by
  intro seams lined opened cursor other near
  have operand {cursor other : Cursor} (near : cursor.Near seams lined opened other) (build : Expr → Expr) :
      Unison (Meets seams lined opened) (do Parser.skipTrivia; return build (← self .unary)) cursor
        (do Parser.skipTrivia; return build (← twin .unary)) other := by
    apply near.skip
    intro near
    apply near.andThen (inner .unary)
    intro expr after afterTwin near
    exact .done ⟨rfl, near⟩
  apply Unison.current
  apply Unison.ite
  · simp only [Bool.or_eq_true, decide_eq_true_eq]
    rw [near.kind_iff rfl, near.kind_iff rfl]
  · intro sign
    obtain ⟨same, behind⟩ : other.current = cursor.current ∧
        (cursor.advance 1).Near seams lined opened (other.advance 1) := by
      simp only [Bool.or_eq_true, decide_eq_true_eq] at sign
      rcases sign with minus | plus
      · exact near.pass rfl minus
      · exact near.pass rfl plus
    rw [same]
    exact .advance (operand behind (signed _ _))
  intro _
  apply Unison.peek
  apply Unison.ite
  · rw [← near.isWord]
    simp only [Bool.and_eq_true]
    refine and_congr_right fun word => ?_
    rw [near.sight (by simp [Token.looksAhead, word])]
  · intro found
    rw [Bool.and_eq_true] at found
    have word := found.1
    simp only [Token.isWord, Bool.and_eq_true, decide_eq_true_eq] at word
    obtain ⟨same, behind⟩ := near.pass rfl word.1
    rw [same]
    exact .advance (operand behind fun expr => .unary .not expr cursor.current.line)
  · intro _
    exact level_primary inner _ _ _ _ _ near

omit inner in
theorem level_leftAssociative {operand operandTwin : Parser Expr} {operator : Parser (Option BinaryOp)}
    (operands : Level operand operandTwin) (operators : Level operator operator) :
    Level (leftAssociative operand operator) (leftAssociative operandTwin operator) := by
  intro seams lined opened cursor other near
  apply near.andThen operands
  intro first after afterTwin near
  apply Unison.loop (fun _ cursor other => cursor.Near seams lined opened other) _ near
  intro left cursor other near
  apply near.andThen operators
  intro op after afterTwin near
  cases op with
  | none => exact .done ⟨rfl, near⟩
  | some op =>
    apply near.andThen operands
    intro right after afterTwin near
    exact .done ⟨rfl, near⟩

omit inner in
/-- Operators by the kinds of their tokens, none of which stands at a seam. -/
theorem level_operatorByKind {table : TokenKind → Option BinaryOp} (plain : PlainTable table)
    (fertile : ∀ kind, kind.isBarren = true → table kind = none) :
    Level (operatorByKind table) (operatorByKind table) := by
  intro seams lined opened cursor other before
  apply Unison.get
  apply before.skip
  intro near
  apply Unison.current
  rcases near.sees with ⟨same, behind⟩ | halt
  · rw [same]
    split
    · exact .set (.done ⟨rfl, before⟩)
    · rename_i op found
      rw [openBehind_plain (plain found).1] at behind
      apply Unison.advance
      apply behind.skip
      intro near
      exact .done ⟨rfl, near⟩
  · rw [fertile _ halt.barren.1, fertile _ halt.barren.2]
    exact .set (.done ⟨rfl, before⟩)

omit inner in
theorem level_sumOperator : Level sumOperator sumOperator := by
  intro seams lined opened cursor other before
  have fertile {kind : TokenKind} (barren : kind.isBarren = true) : sumOp kind = none := by
    rcases TokenKind.isBarren_cases barren with rfl | rfl | rfl | rfl | rfl <;> rfl
  apply Unison.get
  apply before.skip
  intro near
  apply Unison.current
  rcases near.sees with ⟨same, behind⟩ | halt
  · rw [same]
    split
    · exact .set (.done ⟨rfl, before⟩)
    · rename_i op found
      rw [openBehind_plain (plain_sumOp found).1] at behind
      have looks : cursor.skipTrivia.current.looksAhead = true := by
        rw [Token.looksAhead]
        cases kind : cursor.skipTrivia.current.kind <;> rw [kind] at found <;> first | rfl | cases found
      have spaced : cursor.current.isTrivia = other.current.isTrivia := by
        rcases before.sees with ⟨same, -⟩ | halt
        · rw [same]
        · rcases halt.spaced with ⟨own, also⟩ | barren
          · rw [own, also]
          · rw [fertile barren] at found
            cases found
      apply Unison.peek
      apply Unison.ite
      · rw [spaced, isTrivia_of_kind (near.sight looks)]
      · intro _
        exact .set (.done ⟨rfl, before⟩)
      · intro _
        apply Unison.advance
        apply behind.skip
        intro near
        exact .done ⟨rfl, near⟩
  · rw [fertile halt.barren.1, fertile halt.barren.2]
    exact .set (.done ⟨rfl, before⟩)

omit inner in
theorem level_wordOperator (word : String) (op : BinaryOp) :
    Level (wordOperator word op) (wordOperator word op) := by
  intro seams lined opened cursor other near
  apply Unison.significant
  rw [← Cursor.current_skipTrivia, ← Cursor.current_skipTrivia, near.skipTrivia.isWord]
  apply Unison.ite Iff.rfl
  · intro found
    apply near.skip
    intro near
    apply Unison.advance
    rw [← near.isWord] at found
    apply (near.passWord found).skip
    intro near
    exact .done ⟨rfl, near⟩
  · intro _
    exact .done ⟨rfl, near⟩

theorem level_product : Level (product self) (product twin) :=
  level_leftAssociative (level_unary inner) (level_operatorByKind plain_productOp fun _ barren => by
    rcases TokenKind.isBarren_cases barren with rfl | rfl | rfl | rfl | rfl <;> rfl)

theorem level_sum : Level (sum self) (sum twin) :=
  level_leftAssociative (level_product inner) level_sumOperator

theorem level_comparison : Level (comparison self) (comparison twin) :=
  level_leftAssociative (level_sum inner) (level_operatorByKind plain_comparisonOp fun _ barren => by
    rcases TokenKind.isBarren_cases barren with rfl | rfl | rfl | rfl | rfl <;> rfl)

theorem level_conjunction : Level (conjunction self) (conjunction twin) :=
  level_leftAssociative (level_comparison inner) (level_wordOperator "and" .and)

theorem level_disjunction : Level (disjunction self) (disjunction twin) :=
  level_leftAssociative (level_conjunction inner) (level_wordOperator "or" .or)

theorem level_spaceList (stops : List String) : Level (spaceList self stops) (spaceList twin stops) := by
  have member := level_disjunction inner
  intro seams lined opened cursor other near
  rcases near.sees with ⟨same, -⟩ | halt
  · apply Unison.current
    rw [same]
    apply near.andThen member
    intro first after afterTwin near
    apply Unison.loop (fun _ cursor other => cursor.Near seams lined opened other) _ near
    intro items cursor other before
    apply Unison.get
    apply before.skip
    intro near
    apply Unison.current
    apply Unison.ite (by rw [near.startsValue_eq])
    · intro _
      apply near.andThen member
      intro item after afterTwin near
      exact .done ⟨rfl, near⟩
    · intro _
      apply Unison.set
      apply Unison.ite Iff.rfl
      · intro _
        exact .done ⟨rfl, before⟩
      · intro _
        exact .done ⟨rfl, before⟩
  · exact (hungry_spaceList stops).unison (hungry_spaceList stops) halt

theorem level_commaList (stops : List String) : Level (commaList self stops) (commaList twin stops) := by
  have member := level_spaceList inner stops
  intro seams lined opened cursor other near
  rcases near.sees with ⟨same, -⟩ | halt
  · apply Unison.current
    rw [same]
    apply near.andThen member
    intro first after afterTwin near
    apply Unison.loop (fun _ cursor other => cursor.Near seams lined opened other) _ near
    rintro ⟨items, commas⟩ cursor other before
    apply Unison.get
    apply before.skip
    intro near
    apply near.accept rfl
    · intro near
      apply near.skip
      intro near
      apply Unison.current
      apply Unison.ite (by rw [near.startsValue_eq])
      · intro _
        apply near.andThen member
        intro item after afterTwin near
        exact .done ⟨rfl, near⟩
      · intro _
        exact .done ⟨rfl, near⟩
    · apply Unison.set
      apply Unison.ite Iff.rfl
      · intro _
        exact .done ⟨rfl, before⟩
      · intro _
        exact .done ⟨rfl, before⟩
  · exact (hungry_commaList stops).unison (hungry_commaList stops) halt

theorem level_parameters : Level (parameters self) (parameters twin) := by
  intro seams lined opened cursor other near
  apply near.expect rfl
  intro _ near
  apply Unison.loop (fun _ cursor other => cursor.Near seams lined (.leftParen :: opened) other) _ near
  intro list cursor other near
  apply near.skip
  intro near
  apply near.accept rfl
  · intro near
    exact .done ⟨rfl, near⟩
  apply near.expect rfl
  intro _ near
  generalize cursor.skipTrivia.current = token
  apply near.skip
  intro near
  have ending {cursor other : Cursor} (near : cursor.Near seams lined (.leftParen :: opened) other)
      (default : Option Expr) :
      let read : Parser (Parser.Next Parameters Parameters) := do
        Parser.skipTrivia
        if ← Parser.accept .comma then
          return .again { list with params := list.params ++ [⟨token.name, default⟩] }
        else
          let _ ← Parser.expect .rightParen
          return .done { list with params := list.params ++ [⟨token.name, default⟩] }
      Unison (Round (fun _ cursor other => cursor.Near seams lined (.leftParen :: opened) other)
        (Meets seams lined opened)) read cursor read other := by
    apply near.skip
    intro near
    apply near.accept rfl
    · intro near
      exact .done ⟨rfl, near⟩
    · apply near.expect rfl
      intro _ near
      exact .done ⟨rfl, near⟩
  apply near.atEllipsis
  · intro near
    apply Unison.advance
    apply near.skip
    intro near
    apply near.accept rfl
    · intro near
      exact .done ⟨rfl, near⟩
    · exact .done ⟨rfl, near⟩
  apply near.accept rfl
  · intro near
    apply near.skip
    intro near
    apply near.andThen (inner .space)
    intro value after afterTwin near
    exact ending near _
  · exact ending near _

end Expressions

/-- Expressions are read in unison, also if the bounds on their depths differ. -/
theorem level_expressions (depth depthTwin : Nat) (form : Form) :
    Level (Form.parser depth form) (Form.parser depthTwin form) := by
  induction depth generalizing depthTwin form with
  | zero => exact fun _ _ _ _ _ _ => ⟨.bounded _⟩
  | succ depth ih =>
    cases depthTwin with
    | zero => exact fun _ _ _ _ _ _ => ⟨.boundedTwin _⟩
    | succ depthTwin =>
      cases form with
      | comma => exact level_commaList (ih depthTwin) []
      | space => exact level_spaceList (ih depthTwin) []
      | unary => exact level_unary (ih depthTwin)

end Grammar

/-! Raw text and values in unison. What is collected up to the end of a statement is the same but for blanks
and comments behind it, and they go when the text is trimmed. -/

namespace Grammar

open Scss.Parser (Unison Meets Level Round Agrees)

/-- A space at the end goes when the text is trimmed. -/
theorem trimTemplate_pushSpace (template : Template) :
    trimTemplate (pushSpace template) = trimTemplate template := by
  have blank : Text.trimEnd " " = "" := by decide
  have spaced (text : String) : Text.trimEnd (text ++ " ") = Text.trimEnd text := by
    simp only [Text.trimEnd, Text.mapChars, String.toList_append]
    exact congrArg String.ofList (Chars.trimEnd_space text.toList)
  obtain ⟨parts, line⟩ := template
  rcases List.eq_nil_or_concat parts with rfl | ⟨before, last, rfl⟩
  · rfl
  cases last with
  | literal text =>
    by_cases space : text.toList.getLast? = some ' '
    · simp [pushSpace, space]
    · simp [pushSpace, space, Interpolation.pushLiteral, trimTemplate, trimPart, spaced]
  | expr value => simp [pushSpace, Interpolation.pushLiteral, trimTemplate, trimPart, blank]

/-- Behind blanks and comments, collecting stops here. -/
def Stops (stops : List TokenKind) (depth : Nat) (cursor : Cursor) : Prop :=
  cursor.skipTrivia.current.kind = .endOfInput ∨ depth = 0 ∧ cursor.skipTrivia.current.kind ∈ stops

section Rounds

variable (self : Self) {stops : List TokenKind} (dollars : Bool) (template : Template) {depth : Nat}
  {cursor : Cursor} (visible : ∀ kind ∈ stops, kind.isTrivia = false)

include visible

theorem rawRound_gap (trivia : cursor.current.isTrivia = true) :
    rawRound self stops dollars ⟨template, depth⟩ cursor =
      .ok (.again ⟨pushSpace template, depth⟩, cursor.advance 1) := by
  have goes : ¬ (depth = 0 && stops.contains cursor.current.kind) = true := by
    intro held
    simp only [Bool.and_eq_true, List.contains_iff_mem] at held
    have plain := visible _ held.2
    rw [Token.isTrivia] at trivia
    rw [plain] at trivia
    cases trivia
  have kinds : cursor.current.kind = .whitespace ∨ cursor.current.kind = .comment := by
    rw [Token.isTrivia] at trivia
    cases kind : cursor.current.kind <;> simp [kind, TokenKind.isTrivia] at trivia ⊢
  rw [rawRound, Parser.bind_of_ok Parser.current_apply]
  rcases kinds with kind | kind <;>
  · rw [if_neg (by simp [kind]), if_neg goes, kind]
    rfl

omit visible in
theorem rawRound_end (plain : cursor.current.isTrivia = false) (ends : Stops stops depth cursor) :
    rawRound self stops dollars ⟨template, depth⟩ cursor = .ok (.done template, cursor) := by
  rw [Stops, Cursor.skipTrivia_eq plain] at ends
  rw [rawRound, Parser.bind_of_ok Parser.current_apply]
  by_cases input : cursor.current.kind = .endOfInput
  · rw [if_pos input]
    rfl
  · obtain ⟨none, stop⟩ := ends.resolve_left input
    rw [if_neg input, if_pos (by simp [none, stop])]
    rfl

/-- Where collecting stops behind blanks and comments, they are passed and add nothing that stays. -/
theorem rawRounds_stop (ends : Stops stops depth cursor) (bound : List Token) :
    Parser.loopWithin (rawRound self stops dollars) bound ⟨template, depth⟩ cursor = .error .exhausted ∨
    ∃ whole, trimTemplate whole = trimTemplate template ∧
      Parser.loopWithin (rawRound self stops dollars) bound ⟨template, depth⟩ cursor =
        .ok (whole, cursor.skipTrivia) := by
  induction bound generalizing template cursor with
  | nil =>
    cases trivia : cursor.current.isTrivia with
    | true =>
      left
      rw [Parser.loopWithin, Parser.bind_of_ok (rawRound_gap self dollars template visible trivia)]
      rfl
    | false =>
      right
      refine ⟨template, rfl, ?_⟩
      rw [Cursor.skipTrivia_eq trivia]
      exact Parser.loopWithin_done (rawRound_end self dollars template trivia ends)
  | cons token bound ih =>
    cases trivia : cursor.current.isTrivia with
    | true =>
      have still : Stops stops depth (cursor.advance 1) := by
        rwa [Stops, Cursor.skipTrivia_advance trivia]
      rw [Parser.loopWithin_again (rawRound_gap self dollars template visible trivia),
        ← Cursor.skipTrivia_advance trivia]
      rcases ih (pushSpace template) still with spent | ⟨whole, same, run⟩
      · exact .inl spent
      · exact .inr ⟨whole, by rw [same, trimTemplate_pushSpace], run⟩
    | false =>
      right
      refine ⟨template, rfl, ?_⟩
      rw [Cursor.skipTrivia_eq trivia]
      exact Parser.loopWithin_done (rawRound_end self dollars template trivia ends)

end Rounds

/-- A second space adds nothing. -/
theorem pushSpace_pushSpace (template : Template) : pushSpace (pushSpace template) = pushSpace template := by
  obtain ⟨parts, line⟩ := template
  rcases List.eq_nil_or_concat parts with rfl | ⟨before, last, rfl⟩
  · rfl
  cases last with
  | literal text =>
    by_cases space : text.toList.getLast? = some ' '
    · simp [pushSpace, space]
    · simp [pushSpace, space, Interpolation.pushLiteral]
  | expr value => simp [pushSpace, Interpolation.pushLiteral]

/-- Blanks and comments add one space. -/
theorem rawRounds_gap (self : Self) {stops : List TokenKind} (dollars : Bool) (template : Template)
    {depth : Nat} {cursor : Cursor} (visible : ∀ kind ∈ stops, kind.isTrivia = false) {gap rest : List Token}
    (ahead : cursor.ahead = gap ++ rest) (idle : ∀ token ∈ gap, token.isIdle = true) (bound : List Token) :
    Parser.loopWithin (rawRound self stops dollars) bound ⟨template, depth⟩ cursor = .error .exhausted ∨
      ∃ less, Parser.loopWithin (rawRound self stops dollars) bound ⟨template, depth⟩ cursor =
        Parser.loopWithin (rawRound self stops dollars) less
          ⟨if gap = [] then template else pushSpace template, depth⟩ (cursor.advance gap.length) := by
  induction gap generalizing cursor template bound with
  | nil => exact .inr ⟨bound, rfl⟩
  | cons token gap ih =>
    obtain ⟨blank, others⟩ := List.forall_mem_cons.mp idle
    have trivia : cursor.current.isTrivia = true := by
      rw [Cursor.current_of_cons ahead]
      exact Token.isTrivia_of_isIdle blank
    have step : rawRound self stops dollars ⟨template, depth⟩ cursor =
        .ok (.again ⟨pushSpace template, depth⟩, cursor.advance 1) :=
      rawRound_gap self dollars template visible trivia
    cases bound with
    | nil =>
      left
      rw [Parser.loopWithin, Parser.bind_of_ok step]
      rfl
    | cons _ bound =>
      rw [Parser.loopWithin_again step]
      rcases ih (pushSpace template) (Cursor.ahead_advance_one ahead) others bound with spent | ⟨less, run⟩
      · exact .inl spent
      · refine .inr ⟨less, ?_⟩
        rw [run, List.length_cons, if_neg (List.cons_ne_nil _ _), Nat.add_comm, ← Cursor.advance_advance,
          pushSpace_pushSpace, ite_self]

/-- Ends that no statement goes over. -/
def Universal (stops : List TokenKind) : Prop := .semicolon ∈ stops ∧ .rightBrace ∈ stops

theorem stops_of_nil {stops : List TokenKind} {depth : Nat} {cursor : Cursor}
    (none : cursor.skipTrivia.ahead = []) : Stops stops depth cursor := by
  left
  rw [Cursor.current, none]
  exact cursor.skipTrivia.last_kind

theorem stops_of_idle {stops : List TokenKind} {depth : Nat} {cursor : Cursor}
    (idle : ∀ token ∈ cursor.ahead, token.isIdle = true) : Stops stops depth cursor := by
  apply stops_of_nil
  rw [Cursor.ahead_skipTrivia, List.dropWhile_eq_nil_iff]
  exact fun token member => Token.isTrivia_of_isIdle (idle token member)

/-- Outside of brackets, collecting stops at a closing brace behind blanks and comments, or where nothing
comes. -/
theorem stops_of_shut {stops : List TokenKind} (universal : Universal stops) {cursor : Cursor}
    {gap rest : List Token} (ahead : cursor.ahead = gap ++ rest) (idle : ∀ token ∈ gap, token.isIdle = true)
    (shut : Shut rest) : Stops stops 0 cursor := by
  have behind : cursor.skipTrivia.ahead = rest := by
    rw [Cursor.ahead_skipTrivia, ahead, dropWhile_gap idle, shut.dropWhile_eq]
  cases rest with
  | nil => exact stops_of_nil behind
  | cons token rest =>
    right
    rw [Cursor.current_of_cons behind, shut token rfl]
    exact ⟨rfl, universal.2⟩

theorem stops_of_semicolon {stops : List TokenKind} (universal : Universal stops) {cursor : Cursor}
    {mark : Token} {rest : List Token} (ahead : cursor.ahead = mark :: rest)
    (semicolon : mark.kind = .semicolon) : Stops stops 0 cursor := by
  right
  rw [Cursor.skipTrivia_of_visible ahead (by simp [Token.isTrivia, semicolon, TokenKind.isTrivia]),
    Cursor.current_of_cons ahead, semicolon]
  exact ⟨rfl, universal.1⟩

/-- Templates that are trimmed to the same, at cursors that are near each other. -/
def Trims (seams : Seams) (lined : Prop) (whole another : Template) (after afterTwin : Cursor) : Prop :=
  trimTemplate whole = trimTemplate another ∧ after.Near seams lined [] afterTwin

/-- Cursors near each other, with as many round and square brackets open as counted. -/
def Level.At (seams : Seams) (lined : Prop) (state : RawState) (cursor other : Cursor) : Prop :=
  ∃ opened, Flat opened state.depth ∧ cursor.Near seams lined opened other

section Raw

variable {self twin : Self} (inner : ∀ form, Level (self form) (twin form)) {seams : Seams} {lined : Prop}
  {cursor other : Cursor} {stops : List TokenKind}

include inner

/-- A round at the same token. -/
theorem unison_rawRound (dollars : Bool) {opened : List TokenKind} {depth : Nat} (flat : Flat opened depth)
    (near : cursor.Near seams lined opened other) (same : other.current = cursor.current)
    (behind : (cursor.advance 1).Near seams lined (openBehind opened cursor.current.kind) (other.advance 1))
    (template : Template) :
    Unison (Round (Level.At seams lined) (Trims seams lined)) (rawRound self stops dollars ⟨template, depth⟩)
      cursor (rawRound twin stops dollars ⟨template, depth⟩) other := by
  apply Unison.current
  rw [same]
  apply Unison.ite Iff.rfl
  · intro _
    exact .done ⟨rfl, near.reset⟩
  intro _
  apply Unison.ite Iff.rfl
  · intro _
    exact .done ⟨rfl, near.reset⟩
  intro _
  have still := flat.openBehind cursor.current.kind
  split
  · apply near.andThen (level_embedded inner)
    intro expr after afterTwin near
    exact .done ⟨rfl, opened, flat, near⟩
  · rename_i blank
    rw [blank] at behind
    exact .advance (.done ⟨rfl, opened, flat, behind⟩)
  · rename_i comment
    rw [comment] at behind
    exact .advance (.done ⟨rfl, opened, flat, behind⟩)
  · rename_i string
    rw [string] at behind
    apply Unison.lift (agrees_quoted inner _ _)
    rintro content _ rfl
    exact .advance (.done ⟨rfl, opened, flat, behind⟩)
  · rename_i plain _ _ _
    apply Unison.advance
    apply Unison.ite Iff.rfl
    · intro dollar
      simp only [Bool.and_eq_true, decide_eq_true_eq] at dollar
      rw [dollar.1] at behind
      exact .done ⟨rfl, opened, flat, behind⟩
    · intro _
      exact .done ⟨rfl, _, still plain, behind⟩

variable (visible : ∀ kind ∈ stops, kind.isTrivia = false)

include visible

omit inner in
/-- Where collecting stops for both. -/
theorem unison_stop (dollars : Bool) {opened : List TokenKind} (near : cursor.Near seams lined opened other)
    {depth : Nat} (own : Stops stops depth cursor) (also : Stops stops depth other) (template : Template)
    (bound boundTwin : List Token) :
    Unison (Trims seams lined) (Parser.loopWithin (rawRound self stops dollars) bound ⟨template, depth⟩)
      cursor (Parser.loopWithin (rawRound twin stops dollars) boundTwin ⟨template, depth⟩) other := by
  rcases rawRounds_stop self dollars template visible own bound with run | ⟨whole, trimmed, run⟩
  · exact .of_eq run rfl (.bounded _)
  rcases rawRounds_stop twin dollars template visible also boundTwin with runTwin | ⟨another, trimmedTwin, runTwin⟩
  · exact .of_eq rfl runTwin (.boundedTwin _)
  exact .of_eq run runTwin (.ok ⟨trimmed.trans trimmedTwin.symm, near.skipTrivia.reset⟩)

/-- Over the same rows. -/
theorem unison_even (dollars : Bool) (line : lined → cursor.last.line = other.last.line)
    (rows : cursor.ahead = other.ahead) {opened : List TokenKind} {depth : Nat} (flat : Flat opened depth)
    (template : Template) (bound boundTwin : List Token) :
    Unison (Trims seams lined) (Parser.loopWithin (rawRound self stops dollars) bound ⟨template, depth⟩)
      cursor (Parser.loopWithin (rawRound twin stops dollars) boundTwin ⟨template, depth⟩) other := by
  have start : cursor.Near .absent lined opened other := ⟨line, .inl rows⟩
  have whole : Unison (Trims .absent lined)
      (Parser.loopWithin (rawRound self stops dollars) bound ⟨template, depth⟩) cursor
      (Parser.loopWithin (rawRound twin stops dollars) boundTwin ⟨template, depth⟩) other := by
    apply Unison.rounds (Level.At .absent lined) _ ⟨opened, flat, start⟩
    rintro ⟨template, depth⟩ cursor other ⟨opened, flat, near⟩
    rcases near.sees with ⟨same, behind⟩ | ⟨none, also⟩ | ⟨never, -⟩
    · exact .inl (unison_rawRound inner dollars flat near same behind template)
    · exact .inr (unison_stop visible dollars near (stops_of_idle (by simp [none]))
        (stops_of_idle (by simp [also])) template)
    · exact never.elim
  apply whole.weaken
  rintro one two after afterTwin ⟨trimmed, near⟩
  exact ⟨trimmed, near.line, near.rows.imp_right fun ⟨_, _, _, never, _⟩ => never.elim⟩

/-- Raw text before it is trimmed. -/
theorem unison_rounds (dollars : Bool) (near : cursor.Near seams lined [] other)
    (universal : seams = .any → Universal stops) (template : Template) :
    Unison (Trims seams lined) (Parser.loop ⟨template, 0⟩ (rawRound self stops dollars)) cursor
      (Parser.loop ⟨template, 0⟩ (rawRound twin stops dollars)) other := by
  apply Unison.loopUntil (Level.At seams lined) _ ⟨[], ⟨rfl, nofun⟩, near⟩
  rintro ⟨template, depth⟩ cursor other ⟨opened, flat, near⟩
  rcases near.sees with ⟨same, behind⟩ | ⟨none, also⟩ | ⟨allowed, seam⟩
  · exact .inl (unison_rawRound inner dollars flat near same behind template)
  · exact .inr (unison_stop visible dollars near (stops_of_idle (by simp [none]))
      (stops_of_idle (by simp [also])) template)
  right
  have parted := seam.parted
  have closed := seam.closed
  generalize ahead : cursor.ahead = first at parted closed allowed
  generalize aheadOther : other.ahead = second at parted closed allowed
  cases parted with
  | loose loose =>
    cases loose with
    | ended idle idleAlso =>
      exact unison_stop visible dollars near (stops_of_idle (ahead ▸ idle))
        (stops_of_idle (aheadOther ▸ idleAlso)) template
    | @blank gap more idle idleAlso starts startsAlso rest =>
      have some {gap : List Token} (starts : gap.head?.map Token.kind = some .whitespace) : gap ≠ [] := by
        rintro rfl
        cases starts
      intro bound boundTwin
      rcases rawRounds_gap self dollars template visible ahead idle bound with run | ⟨less, run⟩
      · exact .of_eq run rfl (.bounded _)
      rcases rawRounds_gap twin dollars template visible aheadOther idleAlso boundTwin with
        runTwin | ⟨lessTwin, runTwin⟩
      · exact .of_eq rfl runTwin (.boundedTwin _)
      rw [if_neg (some starts)] at run
      rw [if_neg (some startsAlso)] at runTwin
      apply Unison.of_eq run runTwin
      refine (unison_even inner visible dollars ?_ ?_ flat _ less lessTwin).outcome
      · simpa using near.line
      · rw [Cursor.ahead_advance, Cursor.ahead_advance, ahead, aheadOther, List.drop_left, List.drop_left]
  | lacking semicolon idle idleAlso shut =>
    have none : opened = [] := closed.resolve_left fun loose => loose.ne_semicolon semicolon
    have any : seams = .any := Seams.any_of_lacking allowed semicolon
    have flatly : depth = 0 := by
      rw [none] at flat
      exact flat.1.symm
    rw [flatly]
    exact unison_stop visible dollars near (stops_of_semicolon (universal any) ahead semicolon)
      (stops_of_shut (universal any) aheadOther idleAlso shut) template

/-- Raw text. The line of an empty one has to be the same for both. -/
theorem unison_raw (dollars : Bool) (near : cursor.Near seams lined [] other)
    (universal : seams = .any → Universal stops) (line : cursor.current.line = other.current.line) :
    Unison (Meets seams lined []) (raw self stops dollars) cursor (raw twin stops dollars) other := by
  rw [raw_eq, raw_eq]
  apply Unison.current
  rw [line]
  apply (unison_rounds inner visible dollars near universal _).bind
  rintro whole another after afterTwin ⟨trimmed, near⟩
  rw [trimmed]
  exact .done ⟨rfl, near⟩

end Raw

end Grammar

end Scss
