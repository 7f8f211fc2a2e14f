import Scss.Proofs.Grammar.Termination
import Scss.Proofs.Seams.Statements

/-! At-rules in unison. Where they take text as it is written, no comment may be in it: so no seam stands in
the prefix that a module's names get. -/
namespace Scss

namespace Grammar

open Scss.Parser (Unison Meets Level Round Agrees)

/-- Cursors near each other, where the row before the seam is not of a shape, unless nothing else comes. -/
structure Guarded (seams : Seams) (shape : List Token → Prop) (cursor other : Cursor) : Prop where
  line : cursor.last.line = other.last.line
  rows : cursor.ahead = other.ahead ∨ ∃ row first second, seams.Allows first second ∧
    Seam [] row first second ∧ cursor.ahead = row ++ first ∧ other.ahead = row ++ second ∧
    (Ended first second ∨ ¬ shape row)

namespace Guarded

variable {seams : Seams} {shape inner : List Token → Prop} {cursor other : Cursor}

theorem near (guarded : Guarded seams shape cursor other) : cursor.Near seams True [] other where
  line _ := guarded.line
  rows := guarded.rows.imp_right fun ⟨row, first, second, allowed, seam, ahead, also, _⟩ =>
    ⟨row, first, second, allowed, seam, ahead, also⟩

/-- A token is passed, and blanks and comments behind it. -/
theorem step (guarded : Guarded seams shape cursor other) (fertile : cursor.current.kind.isBarren = false)
    (within : ∀ gap rest, (∀ token ∈ gap, token.isTrivia = true) → inner rest →
      shape (cursor.current :: (gap ++ rest))) :
    Guarded seams inner (cursor.advance 1).skipTrivia (other.advance 1).skipTrivia where
  line := by simpa using guarded.line
  rows := by
    rw [Cursor.ahead_skipTrivia, Cursor.ahead_skipTrivia]
    rcases guarded.rows with same | ⟨row, first, second, allowed, seam, ahead, also, guard⟩
    · left
      rw [Cursor.ahead_advance, Cursor.ahead_advance, same]
    cases row with
    | nil =>
      have halt : cursor.Halt seams [] other := .inr (by rw [ahead, also]; exact ⟨allowed, seam⟩)
      rw [halt.barren.1] at fertile
      cases fertile
    | cons token row =>
      rw [Cursor.current_of_cons ahead] at within
      have kept : Ended first second ∨ ¬ inner (row.dropWhile Token.isTrivia) := by
        refine guard.imp_right fun open_ holds => open_ ?_
        have whole := within (row.takeWhile Token.isTrivia) _ (fun _ => List.mem_takeWhile_imp) holds
        rwa [List.takeWhile_append_dropWhile] at whole
      rw [Cursor.ahead_advance_one ahead, Cursor.ahead_advance_one also]
      have behind : Seam [] row first second := seam.tail.reset
      refine (behind.dropWhile allowed).imp_right fun ⟨less, more, allowed, seam, cut, cutTwin, still⟩ => ?_
      exact ⟨_, less, more, allowed, seam, cut, cutTwin, kept.imp_left still⟩

end Guarded

/-- A parser that finds a mistake here, or reaches a bound. -/
def Fails {α : Type} (parser : Parser α) (cursor : Cursor) : Prop :=
  parser cursor = .error .exhausted ∨ ∃ fault, parser cursor = .error (.grammar fault)

namespace Fails

variable {α β : Type} {parser : Parser α} {cursor other after : Cursor}

theorem unison {twin : Parser α} {goal : α → α → Cursor → Cursor → Prop} (fails : Fails parser cursor)
    (failsTwin : Fails twin other) : Unison goal parser cursor twin other := by
  rcases fails with bounded | ⟨fault, failed⟩
  · exact .of_eq bounded rfl (.bounded _)
  rcases failsTwin with bounded | ⟨another, failedTwin⟩
  · exact .of_eq rfl bounded (.boundedTwin _)
  · exact .of_eq failed failedTwin (.grammar fault another)

theorem bind {next : α → Parser β} (fails : Fails parser cursor) : Fails (parser >>= next) cursor :=
  fails.imp Parser.bind_of_error fun ⟨fault, failed⟩ => ⟨fault, Parser.bind_of_error failed⟩

theorem andThen {next : α → Parser β} {value : α} (run : parser cursor = .ok (value, after))
    (fails : Fails (next value) after) : Fails (parser >>= next) cursor := by
  rwa [Fails, Parser.bind_of_ok run]

end Fails

theorem fails_expect {kind : TokenKind} {cursor : Cursor} (missing : cursor.current.kind ≠ kind) :
    Fails (Parser.expect kind) cursor := by
  right
  rw [Parser.expect, Parser.expectAny, Parser.get_bind, Cursor.expectAny,
    if_neg (by simpa [Cursor.matchesAny] using missing)]
  exact ⟨_, rfl⟩

/-- Raw text that stops at once. -/
theorem raw_stop (self : Self) {stops : List TokenKind} (dollars : Bool) {cursor : Cursor}
    (visible : ∀ kind ∈ stops, kind.isTrivia = false) (ends : Stops stops 0 cursor) :
    raw self stops dollars cursor = .error .exhausted ∨
      ∃ text, raw self stops dollars cursor = .ok (text, cursor.skipTrivia) := by
  rw [raw_eq, Parser.bind_of_ok Parser.current_apply]
  rcases rawRounds_stop self dollars ⟨[], cursor.current.line⟩ visible ends cursor.ahead with
    run | ⟨whole, -, run⟩
  · exact .inl (Parser.bind_of_error run)
  · exact .inr ⟨trimTemplate whole, Parser.bind_of_ok run⟩

def affixRound (text : String) : Parser (Parser.Next String String) := do
  let token ← Parser.current
  if token.kind = .star || token.kind = .endOfInput then return .done text
  Parser.advance 1
  return .again (text ++ token.text)

theorem affixRound_idle {cursor : Cursor} (idle : ∀ token ∈ cursor.ahead, token.isIdle = true)
    (text : String) : cursor.current.kind = .endOfInput ∧ affixRound text cursor = .ok (.done text, cursor) ∨
      ∃ more, affixRound text cursor = .ok (.again more, cursor.advance 1) := by
  by_cases ends : cursor.current.kind = .endOfInput
  · left
    refine ⟨ends, ?_⟩
    rw [affixRound, Parser.bind_of_ok Parser.current_apply, if_pos (by simp [ends])]
    rfl
  · right
    have blank : cursor.current.isTrivia = true := (Cursor.idles_of_idle idle).resolve_right ends
    have star : cursor.current.kind ≠ .star := by
      intro star
      simp [Token.isTrivia, star, TokenKind.isTrivia] at blank
    refine ⟨text ++ cursor.current.text, ?_⟩
    rw [affixRound, Parser.bind_of_ok Parser.current_apply, if_neg (by simp [ends, star])]
    rfl

/-- Over blanks and comments there is no star. -/
theorem affixRounds_idle {cursor : Cursor} (idle : ∀ token ∈ cursor.ahead, token.isIdle = true) (text : String)
    (bound : List Token) :
    Parser.loopWithin affixRound bound text cursor = .error .exhausted ∨
      ∃ whole after, Parser.loopWithin affixRound bound text cursor = .ok (whole, after) ∧
        after.current.kind = .endOfInput := by
  induction bound generalizing cursor text with
  | nil =>
    rcases affixRound_idle idle text with ⟨ends, step⟩ | ⟨more, step⟩
    · exact .inr ⟨text, cursor, Parser.loopWithin_done step, ends⟩
    · left
      rw [Parser.loopWithin, Parser.bind_of_ok step]
      rfl
  | cons _ bound ih =>
    rcases affixRound_idle idle text with ⟨ends, step⟩ | ⟨more, step⟩
    · exact .inr ⟨text, cursor, Parser.loopWithin_done step, ends⟩
    · rw [Parser.loopWithin_again step]
      apply ih
      rw [Cursor.ahead_advance]
      exact fun token member => idle token (List.mem_of_mem_drop member)

def Starless (row : List Token) : Prop := ∀ token ∈ row, token.kind ≠ .star

def Affixes (seams : Seams) (text another : String) (after afterTwin : Cursor) : Prop :=
  text = another ∧ after.Near seams True [] afterTwin ∨
    after.current.kind = .endOfInput ∧ afterTwin.current.kind = .endOfInput

/-- The text in front of names. A comment would become a part of it, so no seam may be in it. -/
theorem unison_affix {seams : Seams} {cursor other : Cursor} (guarded : Guarded seams Starless cursor other) :
    Unison (Meets seams True []) Blocks.affix cursor Blocks.affix other := by
  have rounds : Unison (Affixes seams) (Parser.loop "" affixRound) cursor (Parser.loop "" affixRound) other := by
    apply Unison.loopUntil (fun _ cursor other => Guarded seams Starless cursor other) _ guarded
    intro text cursor other guarded
    have step (same : other.current = cursor.current)
        (behind : cursor.current.kind ≠ .star → Guarded seams Starless (cursor.advance 1) (other.advance 1)) :
        Unison (Round (fun _ cursor other => Guarded seams Starless cursor other) (Affixes seams))
          (affixRound text) cursor (affixRound text) other := by
      apply Unison.current
      rw [same]
      apply Unison.ite Iff.rfl
      · intro _
        exact .done (.inl ⟨rfl, guarded.near⟩)
      · intro goes
        simp only [Bool.or_eq_true, decide_eq_true_eq, not_or] at goes
        exact .advance (.done ⟨rfl, behind goes.1⟩)
    have line (count : Nat) : (cursor.advance count).last.line = (other.advance count).last.line := by
      simpa using guarded.line
    have idle (own : ∀ token ∈ cursor.ahead, token.isIdle = true)
        (twin : ∀ token ∈ other.ahead, token.isIdle = true) (bound boundTwin : List Token) :
        Unison (Affixes seams) (Parser.loopWithin affixRound bound text) cursor
          (Parser.loopWithin affixRound boundTwin text) other := by
      rcases affixRounds_idle own text bound with run | ⟨whole, after, run, ends⟩
      · exact .of_eq run rfl (.bounded _)
      rcases affixRounds_idle twin text boundTwin with run' | ⟨another, afterTwin, run', endsTwin⟩
      · exact .of_eq rfl run' (.boundedTwin _)
      · exact .of_eq run run' (.ok (.inr ⟨ends, endsTwin⟩))
    rcases guarded.rows with same | ⟨row, first, second, allowed, seam, ahead, also, guard⟩
    · cases ahead : cursor.ahead with
      | nil => exact .inr (idle (by simp [ahead]) (by simp [← same, ahead]))
      | cons token rest =>
        left
        have also : other.ahead = token :: rest := same ▸ ahead
        apply step (by rw [Cursor.current_of_cons ahead, Cursor.current_of_cons also])
        intro _
        exact ⟨line 1, .inl (by rw [Cursor.ahead_advance, Cursor.ahead_advance, same])⟩
    cases row with
    | nil =>
      have ended : Ended first second := guard.resolve_right fun some => some nofun
      exact .inr (idle (by rw [ahead]; exact ended.1) (by rw [also]; exact ended.2))
    | cons token row =>
      left
      have current := Cursor.current_of_cons ahead
      apply step (by rw [current, Cursor.current_of_cons also])
      intro star
      rw [current] at star
      refine ⟨line 1, .inr ⟨row, first, second, allowed, seam.tail.reset, Cursor.ahead_advance_one ahead,
        Cursor.ahead_advance_one also, guard.imp_right fun some none => some ?_⟩⟩
      exact List.forall_mem_cons.mpr ⟨star, none⟩
  apply rounds.bind
  rintro text another after afterTwin (⟨rfl, near⟩ | ⟨ends, endsTwin⟩)
  · apply near.expect rfl
    intro _ near
    apply near.skip
    intro near
    exact .done ⟨rfl, near⟩
  · apply Unison.expectAny
    · rw [ends, endsTwin]
    · intro found
      rw [ends] at found
      cases found with
      | tail _ never => cases never

namespace Blocks

section Levels

variable {b twin : Blocks} (inner : ∀ form, Level (b.self form) (twin.self form))

include inner

theorem level_optionalArguments : Level b.optionalArguments twin.optionalArguments := by
  intro seams lined opened cursor other near
  apply near.at_ rfl
  intro found _
  apply Unison.ite Iff.rfl
  · intro _
    exact level_callArguments inner _ _ _ _ _ near
  · intro _
    exact .done ⟨rfl, near⟩

theorem level_optionalParameters : Level b.optionalParameters twin.optionalParameters := by
  intro seams lined opened cursor other near
  apply near.at_ rfl
  intro found _
  apply Unison.ite Iff.rfl
  · intro _
    exact level_parameters inner _ _ _ _ _ near
  · intro _
    exact .done ⟨rfl, near⟩

omit inner in
theorem level_address : Level address address := by
  intro seams lined opened cursor other near
  apply near.expect rfl
  intro _ near
  apply near.skip
  intro near
  exact .done ⟨rfl, near⟩

theorem level_configuration : Level b.configuration twin.configuration := by
  intro seams lined opened cursor other near
  apply near.expect rfl
  intro _ near
  apply Unison.loop (fun _ cursor other => cursor.Near seams lined (.leftParen :: opened) other) _ near
  intro config cursor other near
  apply near.skip
  intro near
  apply near.accept rfl
  · intro near
    exact .done ⟨rfl, near⟩
  apply near.expect rfl
  intro _ near
  generalize cursor.skipTrivia.current = token
  apply near.skip
  intro near
  apply near.expect rfl
  intro _ near
  apply near.skip
  intro near
  apply near.andThen (inner .space)
  intro value after afterTwin near
  apply near.skip
  intro near
  apply near.accept rfl
  · intro near
    exact .done ⟨rfl, near⟩
  · apply near.expect rfl
    intro _ near
    exact .done ⟨rfl, near⟩

omit inner in
theorem level_memberNames : Level memberNames memberNames := by
  intro seams lined opened cursor other near
  apply Unison.loop (fun _ cursor other => cursor.Near seams lined opened other) _ near
  intro names cursor other near
  apply near.skip
  intro near
  apply near.expectAny (by decide)
  intro found near
  have plain : openBehind opened cursor.skipTrivia.current.kind = opened := by
    simp only [List.mem_cons, List.not_mem_nil, or_false] at found
    rcases found with kind | kind <;> rw [kind] <;> rfl
  rw [plain] at near
  generalize cursor.skipTrivia.current = token
  apply near.skip
  intro near
  apply near.accept rfl
  · intro near
    exact .done ⟨rfl, near⟩
  · exact .done ⟨rfl, near⟩

omit inner in
theorem level_atRootQuery : Level atRootQuery atRootQuery := by
  intro seams lined opened cursor other near
  apply near.expect rfl
  intro _ near
  apply near.skip
  intro near
  apply near.expect rfl
  intro _ near
  generalize (cursor.advance 1).skipTrivia.current = keyword
  apply near.skip
  intro near
  apply near.expect rfl
  intro _ near
  apply Unison.loopThen (fun _ cursor other => cursor.Near seams lined (.leftParen :: opened) other)
    (Meets seams lined opened) _ near
  · rintro names _ after afterTwin ⟨rfl, near⟩
    apply Unison.ite Iff.rfl
    · intro _
      exact .done ⟨rfl, near⟩
    intro _
    apply Unison.ite Iff.rfl
    · intro _
      exact .done ⟨rfl, near⟩
    · intro _
      exact .fail
  · intro names cursor other near
    apply near.skip
    intro near
    apply near.accept rfl
    · intro near
      exact .done ⟨rfl, near⟩
    · apply near.expect rfl
      intro _ near
      exact .done ⟨rfl, near⟩

end Levels

section AtRules

variable {b twin : Blocks} (inner : ∀ form, Level (b.self form) (twin.self form)) {seams : Seams}
  (block : ∀ cursor other : Cursor, cursor.Near seams True [] other →
    Unison (Closed seams) b.block cursor twin.block other) {cursor other : Cursor}
  (near : cursor.Near seams True [] other)

include inner near

theorem unison_useStatement (line : Nat) :
    Unison (Behind seams) (b.useStatement line) cursor (twin.useStatement line) other := by
  have ending {cursor other : Cursor} (near : cursor.Near seams True [] other) (url : String)
      (name : Option String) (config : List (String × Expr)) :
      let read : Parser Statement := do
        finish
        return Statement.useModule url name config line
      Unison (Behind seams) read cursor read other := by
    apply finishMark near
    intro after afterTwin here
    exact .done ⟨rfl, here⟩
  have configured {cursor other : Cursor} (near : cursor.Near seams True [] other) (url : String)
      (name : Option String) :
      let read (b : Blocks) : Parser Statement := do
        let mut config : List (String × Expr) := []
        if ← Parser.acceptWord "with" then config ← b.configuration
        finish
        return Statement.useModule url name config line
      Unison (Behind seams) (read b) cursor (read twin) other := by
    apply near.acceptWord
    · intro _ near
      apply near.andThen (level_configuration inner)
      intro config after afterTwin near
      exact ending near _ _ _
    · exact ending near _ _ _
  apply near.andThen level_address
  intro url after afterTwin near
  apply near.acceptWord
  · intro _ near
    apply near.accept rfl
    · intro near
      apply near.skip
      intro near
      exact configured near _ _
    · apply near.expect rfl
      intro _ near
      generalize (after.advance 1).skipTrivia.current = token
      apply near.skip
      intro near
      exact configured near _ _
  · exact configured near _ _

include block

theorem unison_includeStatement (line : Nat) :
    Unison (Behind seams) (b.includeStatement line) cursor (twin.includeStatement line) other := by
  have ending {cursor other : Cursor} (near : cursor.Near seams True [] other) (qualifier : Option String)
      (name : String) (args : List (Argument Expr)) (params : Parameters) :
      let read (b : Blocks) : Parser Statement := do
        if ← Parser.at_ .leftBrace then
          return Statement.includeMixin qualifier name args (some ⟨params, ← b.block⟩) line
        else
          let _ ← Parser.accept .semicolon
          return .includeMixin qualifier name args none line
      Unison (Behind seams) (read b) cursor (read twin) other := by
    apply near.at_ rfl
    intro opens _
    apply Unison.ite Iff.rfl
    · intro _
      apply unison_block near block
      intro body after afterTwin near _
      exact .done ⟨rfl, .inl near⟩
    · intro _
      apply acceptMark near
      intro _ _ after afterTwin here
      exact .done ⟨rfl, here⟩
  have arguments {cursor other : Cursor} (near : cursor.Near seams True [] other)
      (qualifier : Option String) (name : String) :
      let read (b : Blocks) : Parser Statement := do
        Parser.skipTrivia
        let args ← b.optionalArguments
        Parser.skipTrivia
        let mut params := Parameters.none
        if ← Parser.acceptWord "using" then
          params ← parameters b.self
          Parser.skipTrivia
        if ← Parser.at_ .leftBrace then
          return Statement.includeMixin qualifier name args (some ⟨params, ← b.block⟩) line
        else
          let _ ← Parser.accept .semicolon
          return .includeMixin qualifier name args none line
      Unison (Behind seams) (read b) cursor (read twin) other := by
    apply near.skip
    intro near
    apply near.andThen (level_optionalArguments inner)
    intro args after afterTwin near
    apply near.skip
    intro near
    apply near.acceptWord
    · intro _ near
      apply near.andThen (level_parameters inner)
      intro params after afterTwin near
      apply near.skip
      intro near
      exact ending near _ _ _ _
    · exact ending near _ _ _ _
  apply near.expect rfl
  intro _ near
  generalize cursor.current = token
  apply near.at_ rfl
  intro found dot
  apply Unison.peek
  apply Unison.peek
  dsimp only
  have both : (found && ((cursor.advance 1).peek 1).kind = .ident) = true ↔
      (found && ((other.advance 1).peek 1).kind = .ident) = true := by
    simp only [Bool.and_eq_true, decide_eq_true_eq]
    refine and_congr_right fun dotted => ?_
    rw [dotted, decide_eq_true_eq] at dot
    exact (near.pass rfl dot).2.peek_iff rfl
  apply Unison.ite both
  · intro qualified
    rw [if_pos qualified, if_pos (both.mp qualified)]
    simp only [Bool.and_eq_true, decide_eq_true_eq] at qualified
    rw [qualified.1, decide_eq_true_eq] at dot
    obtain ⟨member, behind⟩ := (near.pass rfl dot).2.pass_peek rfl qualified.2
    rw [member]
    exact .advance (arguments behind _ _)
  · intro single
    rw [if_neg single, if_neg (mt both.mpr single)]
    exact arguments near _ _

theorem unison_keyframeBlock (line : cursor.current.line = other.current.line) :
    Unison (Closed seams) b.keyframeBlock cursor twin.keyframeBlock other := by
  apply Unison.current
  apply unison_text inner near ⟨by decide, by decide⟩ (by decide) line
  intro text after afterTwin near
  cases text.plain? with
  | none => exact .fail
  | some text =>
    apply unison_block near block
    intro body after afterTwin near kinds
    rw [line]
    exact .done ⟨rfl, near, kinds⟩

theorem unison_keyframesStatement (keyword : String) (number : Nat)
    (line : cursor.current.line = other.current.line) :
    Unison (Behind seams) (b.keyframesStatement keyword number) cursor (twin.keyframesStatement keyword number)
      other := by
  apply unison_text inner near ⟨by decide, by decide⟩ (by decide) line
  intro name after afterTwin near
  apply near.expect rfl
  intro opening behind
  have kinds := near.kind_behind (.inl opening)
  apply Unison.loopThen (fun _ cursor other => cursor.Near seams True [] other ∧
    cursor.skipTrivia.current.kind = other.skipTrivia.current.kind) (Meets seams True []) _ ⟨behind, kinds⟩
  · rintro blocks _ after afterTwin ⟨rfl, near⟩
    exact .done ⟨rfl, .inl near⟩
  · rintro blocks cursor other ⟨near, kinds⟩
    apply near.skip
    intro near
    have shown := cursor.visible_skipTrivia
    by_cases closes : cursor.skipTrivia.current.kind = .rightBrace
    · obtain ⟨same, behind⟩ := near.same_of_kind shown kinds (by rw [closes]; decide)
      rw [closes] at behind
      exact .of_eq (Parser.bind_of_ok (Parser.accept_of_eq closes))
        (Parser.bind_of_ok (Parser.accept_of_eq (same ▸ closes))) (.ok ⟨rfl, behind⟩)
    let goOn (b : Blocks) : Parser (Parser.Next (List (KeyframeBlock Statement))
        (List (KeyframeBlock Statement))) := do
      if ← Parser.atEnd then Parser.unexpected "`\x7d`" else return .again (blocks ++ [← b.keyframeBlock])
    have missing : Unison (Round (fun _ cursor other => cursor.Near seams True [] other ∧
        cursor.skipTrivia.current.kind = other.skipTrivia.current.kind) (Meets seams True [])) (goOn b)
        cursor.skipTrivia (goOn twin) other.skipTrivia := by
      apply Unison.atEnd kinds
      intro ended ends
      apply Unison.ite Iff.rfl
      · intro _
        exact .unexpected
      · intro goes
        have same := (near.same_of_kind shown kinds (by simpa [Cursor.atEnd, ← ends] using goes)).1
        apply (unison_keyframeBlock inner block near (by rw [same])).bind
        rintro frame _ after afterTwin ⟨rfl, near, kinds⟩
        exact .done ⟨rfl, near, kinds⟩
    exact .of_eq (Parser.bind_of_ok (Parser.accept_of_ne closes))
      (Parser.bind_of_ok (Parser.accept_of_ne (kinds ▸ closes))) missing.outcome

theorem unison_otherAtRule (name : String) (number : Nat)
    (line : cursor.current.line = other.current.line) :
    Unison (Behind seams) (b.otherAtRule name number) cursor (twin.otherAtRule name number) other := by
  apply unison_text inner near ⟨by decide, by decide⟩ (by decide) line
  intro value after afterTwin near
  apply near.at_ rfl
  intro opens _
  apply Unison.ite Iff.rfl
  · intro _
    apply unison_block near block
    intro body after afterTwin near _
    exact .done ⟨rfl, .inl near⟩
  · intro _
    apply acceptMark near
    intro _ _ after afterTwin here
    exact .done ⟨rfl, here⟩

theorem unison_callable (build : String → Parameters → List Statement → Nat → Statement) (line : Nat) :
    Unison (Behind seams) (b.callable build line) cursor (twin.callable build line) other := by
  apply near.expect rfl
  intro _ near
  generalize cursor.current = token
  apply near.skip
  intro near
  apply near.andThen (level_optionalParameters inner)
  intro params after afterTwin near
  apply unison_block near block
  intro body after afterTwin near _
  exact .done ⟨rfl, .inl near⟩

theorem unison_conditional (build : Template → List Statement → Nat → Statement) (number : Nat)
    (line : cursor.current.line = other.current.line) :
    Unison (Behind seams) (b.conditional build number) cursor (twin.conditional build number) other := by
  apply unison_text inner near ⟨by decide, by decide⟩ (by decide) line
  intro head after afterTwin near
  apply unison_block near block
  intro body after afterTwin near _
  exact .done ⟨rfl, .inl near⟩

end AtRules

section AtStatement

variable {b twin : Blocks} (inner : ∀ form, Level (b.self form) (twin.self form)) {seams : Seams}
  (block : ∀ cursor other : Cursor, cursor.Near seams True [] other →
    Unison (Closed seams) b.block cursor twin.block other)
  (famished : ∀ cursor : Cursor, cursor.skipTrivia.current.kind.ends = true →
    Fails b.block cursor ∧ Fails twin.block cursor) {cursor other : Cursor}

theorem unison_forwardStatement (line : Nat) (guarded : Guarded seams AddressOpen cursor other) :
    Unison (Behind seams) (forwardStatement line) cursor (forwardStatement line) other := by
  have ending {cursor other : Cursor} (near : cursor.Near seams True [] other) (url : String)
      (before : Option String) (filter : Option ForwardFilter) :
      let read : Parser Statement := do
        finish
        return Statement.forwardModule url before filter line
      Unison (Behind seams) read cursor read other := by
    apply finishMark near
    intro after afterTwin here
    exact .done ⟨rfl, here⟩
  have filtered {cursor other : Cursor} (near : cursor.Near seams True [] other) (url : String)
      (before : Option String) :
      let read : Parser Statement := do
        let mut filter : Option ForwardFilter := none
        if ← Parser.atWord "show" then
          Parser.advance 1
          filter := some (.only (← memberNames))
        else if ← Parser.atWord "hide" then
          Parser.advance 1
          filter := some (.allBut (← memberNames))
        finish
        return Statement.forwardModule url before filter line
      Unison (Behind seams) read cursor read other := by
    apply near.atWord
    intro shows found
    apply Unison.ite Iff.rfl
    · rintro rfl
      apply Unison.advance
      apply (near.passWord found).andThen level_memberNames
      intro names after afterTwin near
      exact ending near _ _ _
    intro _
    apply near.atWord
    intro hides found
    apply Unison.ite Iff.rfl
    · rintro rfl
      apply Unison.advance
      apply (near.passWord found).andThen level_memberNames
      intro names after afterTwin near
      exact ending near _ _ _
    · intro _
      exact ending near _ _ _
  have located : Unison (fun url another after afterTwin => url = another ∧ Guarded seams WordOpen after afterTwin)
      address cursor address other := by
    apply guarded.near.expect rfl
    intro string near
    apply near.skip
    intro _
    refine .done ⟨rfl, guarded.step (by rw [string]; rfl) fun gap rest trivia word => ?_⟩
    exact ⟨_, gap, rest, rfl, string, trivia, word⟩
  apply located.bind
  rintro url _ after afterTwin ⟨rfl, guarded⟩
  apply guarded.near.acceptWord
  · intro word _
    have fertile : after.current.kind.isBarren = false := by
      simp only [Token.isWord, Bool.and_eq_true, decide_eq_true_eq] at word
      rw [word.1]
      rfl
    apply (unison_affix (guarded.step fertile _)).bind
    · rintro text _ after afterTwin ⟨rfl, near⟩
      exact filtered near _ _
    · intro gap rest trivia starless
      refine ⟨_, gap ++ rest, rfl, word, fun token member => ?_⟩
      rcases List.mem_append.mp member with blank | behind
      · intro star
        have own := trivia token blank
        simp [Token.isTrivia, star, TokenKind.isTrivia] at own
      · exact starless token behind
  · exact filtered guarded.near _ _

/-- Where a statement ends, a head is empty, and no block follows it. -/
theorem fails_head {b : Blocks}
    (famished : ∀ cursor : Cursor, cursor.skipTrivia.current.kind.ends = true → Fails b.block cursor)
    {cursor : Cursor} (shown : cursor.current.isTrivia = false) (barren : cursor.current.kind.isBarren = true)
    (build : Template → List Statement → Statement) :
    Fails (do let text ← raw b.self headStops false; return build text (← b.block)) cursor := by
  have ends : cursor.current.kind.ends = true := by
    rw [Token.isTrivia] at shown
    simpa [TokenKind.isBarren, shown] using barren
  have stays := Cursor.skipTrivia_eq shown
  have stops : Stops headStops 0 cursor := by
    rw [Stops, stays]
    rcases TokenKind.isBarren_cases barren with kind | kind | kind | kind | kind <;> rw [kind] at ends ⊢ <;>
      simp [headStops] <;> cases ends
  rcases raw_stop b.self false (by decide) stops with run | ⟨text, run⟩
  · exact Fails.bind (.inl run)
  · refine .andThen run (.bind (famished _ ?_))
    rwa [stays, stays]

include inner block famished

theorem unison_atRootStatement (line : Nat) (near : cursor.Near seams True [] other) :
    Unison (Behind seams) (b.atRootStatement line) cursor (twin.atRootStatement line) other := by
  have ending {cursor other : Cursor} (near : cursor.Near seams True [] other) (query : Option AtRootQuery) :
      let read (b : Blocks) : Parser Statement := do
        Parser.skipTrivia
        if ← Parser.at_ .leftBrace then return Statement.atRoot none query (← b.block) line
        else
          let selectorLine := (← Parser.current).line
          let text ← raw b.self headStops false
          return .atRoot (some ⟨text, selectorLine⟩) query (← b.block) line
      Unison (Behind seams) (read b) cursor (read twin) other := by
    apply near.skip
    intro near
    apply near.at_ rfl
    intro opens _
    apply Unison.ite Iff.rfl
    · intro _
      apply unison_block near block
      intro body after afterTwin near _
      exact .done ⟨rfl, .inl near⟩
    intro _
    apply Unison.current
    rcases near.sees with ⟨same, -⟩ | halt
    · rw [same]
      apply unison_text inner near ⟨by decide, by decide⟩ (by decide) (by rw [same])
      intro text after afterTwin near
      apply unison_block near block
      intro body after afterTwin near _
      exact .done ⟨rfl, .inl near⟩
    · obtain ⟨own, also⟩ := halt.barren
      exact (fails_head (fun _ ends => (famished _ ends).1) (Cursor.visible_skipTrivia _) own _).unison
        (fails_head (fun _ ends => (famished _ ends).2) (Cursor.visible_skipTrivia _) also _)
  apply near.at_ rfl
  intro asks _
  apply Unison.ite Iff.rfl
  · intro _
    apply near.andThen level_atRootQuery
    intro query after afterTwin near
    exact ending near _
  · intro _
    exact ending near _

theorem unison_atStatement (near : cursor.Near seams True [] other) :
    Unison (Behind seams) b.atStatement cursor twin.atStatement other := by
  apply near.expect rfl
  intro keyword behind
  have proper : cursor.current.kind ≠ .endOfInput := by rw [keyword]; exact nofun
  have line (text : Text.lower cursor.current.name ≠ "content") :=
    near.line_behind trivial (.inr ⟨keyword, text⟩)
  have guard (forward : Text.lower cursor.current.name = "forward") :
      Guarded seams AddressOpen (cursor.advance 1).skipTrivia (other.advance 1).skipTrivia := by
    have whole : Guarded seams PrefixOpen cursor other :=
      ⟨near.line trivial, near.rows.imp_right fun ⟨row, first, second, allowed, seam, ahead, also⟩ =>
        ⟨row, first, second, allowed, seam, ahead, also, seam.unprefixed⟩⟩
    refine whole.step (by rw [keyword]; rfl) fun gap rest trivia address => ?_
    exact ⟨[], _, gap, rest, rfl, keyword, forward, trivia, address⟩
  generalize cursor.current = token at line guard
  apply behind.skip
  intro near
  have shown := (cursor.advance 1).visible_skipTrivia
  have shownTwin := (other.advance 1).visible_skipTrivia
  generalize (cursor.advance 1).skipTrivia = cursor at near shown line guard
  generalize (other.advance 1).skipTrivia = other at near shownTwin line guard
  generalize lower : Text.lower token.name = word at line guard
  split
  · exact unison_ifStatement inner block near _
  · exact .fail
  · exact unison_eachStatement inner block near _
  · exact unison_forStatement inner block near _
  · apply near.andThen (level_expression inner)
    intro test after afterTwin near
    apply unison_block near block
    intro body after afterTwin near _
    exact .done ⟨rfl, .inl near⟩
  · exact unison_callable inner block near _ _
  · exact unison_callable inner block near _ _
  · apply near.andThen (level_expression inner)
    intro value after afterTwin near
    apply finishMark near
    intro after afterTwin here
    exact .done ⟨rfl, here⟩
  · exact unison_includeStatement inner block near _
  · apply near.andThen (level_optionalArguments inner)
    intro args after afterTwin near
    apply finishMark near
    intro after afterTwin here
    exact .done ⟨rfl, here⟩
  · exact unison_useStatement inner near _
  · exact unison_forwardStatement _ (guard rfl)
  · exact unison_importStatement inner near _ shown shownTwin
  · exact unison_conditional inner block near _ _ (line nofun)
  · exact unison_conditional inner block near _ _ (line nofun)
  · exact unison_conditional inner block near _ _ (line nofun)
  · exact unison_atRootStatement inner block famished _ near
  · exact unison_messageStatement inner near _ _
  · exact unison_messageStatement inner near _ _
  · exact unison_messageStatement inner near _ _
  · exact unison_extendStatement inner near _ shown shownTwin
  · have named : word ≠ "content" := by assumption
    apply Unison.ite Iff.rfl
    · intro _
      exact unison_keyframesStatement inner block near _ _ (line named)
    · intro _
      exact unison_otherAtRule inner block near _ _ (line named)

end AtStatement

end Blocks

end Grammar

/-! Stylesheets in unison. What stands between statements is passed by both runs, each in its own number of
rounds; behind it the rows are the same. -/

namespace Grammar

open Scss.Parser (Unison Meets Level Round Agrees)

/-- What a loop comes to depends on its first round. -/
theorem loopWithin_congr {σ α : Type} {step : σ → Parser (Parser.Next σ α)} {state : σ} {cursor other : Cursor}
    (same : step state cursor = step state other) (bound : List Token) :
    Parser.loopWithin step bound state cursor = Parser.loopWithin step bound state other := by
  cases bound <;>
  · rw [Parser.loopWithin]
    cases run : step state cursor with
    | error fault => rw [Parser.bind_of_error run, Parser.bind_of_error (same ▸ run)]
    | ok result => rw [Parser.bind_of_ok run, Parser.bind_of_ok (same ▸ run)]

def Finish (seams : Seams) (body another : List Statement) (cursor other : Cursor) : Prop :=
  body = another ∧ cursor.Near seams True [] other ∧ cursor.current.kind = other.current.kind

abbrev ListRound (seams : Seams) : Parser.Next (List Statement) (List Statement) →
    Parser.Next (List Statement) (List Statement) → Cursor → Cursor → Prop :=
  Round (fun _ cursor other => cursor.Here seams other) (Finish seams)

namespace Blocks

section Lists

variable {b twin : Blocks} (inner : ∀ form, Level (b.self form) (twin.self form))
  (famished : ∀ cursor : Cursor, cursor.skipTrivia.current.kind.ends = true →
    Fails b.block cursor ∧ Fails twin.block cursor)

section Round

variable {seams : Seams} (block : ∀ cursor other : Cursor, cursor.Near seams True [] other →
    Unison (Closed seams) b.block cursor twin.block other)

include inner block famished

/-- A statement, or what is passed between statements, at the same token. -/
theorem unison_statementRound (nested : Bool) (done : List Statement) {cursor other : Cursor}
    (near : cursor.skipBlank.Near seams True [] other.skipBlank)
    (same : other.skipBlank.current = cursor.skipBlank.current)
    (behind : (cursor.skipBlank.advance 1).Near seams True
      (openBehind [] cursor.skipBlank.current.kind) (other.skipBlank.advance 1)) :
    Unison (ListRound seams) (b.statementRound nested done) cursor (twin.statementRound nested done) other := by
  have shown := cursor.current_skipBlank_ne
  apply Unison.skipBlank
  generalize cursor.skipBlank = cursor at near same behind shown
  generalize other.skipBlank = other at near same behind
  apply Unison.current
  rw [same]
  have more {cursor other : Cursor} {parser twin : Parser Statement}
      (unison : Unison (Behind seams) parser cursor twin other) :
      Unison (ListRound seams) (do return .again (done ++ [← parser])) cursor
        (do return .again (done ++ [← twin])) other := by
    apply unison.bind
    rintro statement _ after afterTwin ⟨rfl, here⟩
    exact .done ⟨rfl, here⟩
  have kinds : cursor.current.kind = other.current.kind := by rw [same]
  split
  · apply Unison.ite Iff.rfl
    · intro _
      exact .unexpected
    · intro _
      exact .done ⟨rfl, near, kinds⟩
  · apply Unison.ite Iff.rfl
    · intro _
      exact .done ⟨rfl, near, kinds⟩
    · intro _
      exact .unexpected
  · rename_i semicolon
    rw [semicolon] at behind
    exact .advance (.done ⟨rfl, .inl behind⟩)
  · rename_i comment
    rw [comment] at behind
    exact .advance (.done ⟨rfl, .inl behind⟩)
  · exact more (unison_atStatement inner block famished near)
  · exact more (unison_assignment inner near none)
  · rename_i word
    have first := (near.pass rfl word).2
    apply Unison.peek
    apply Unison.peek
    apply Unison.ite
    · simp only [Bool.and_eq_true, decide_eq_true_eq]
      rw [← first.peek_iff rfl]
      refine and_congr_right fun dot => ?_
      exact (first.pass_peek rfl dot).2.peek_iff rfl
    · intro qualified
      simp only [Bool.and_eq_true, decide_eq_true_eq] at qualified
      exact .advance (more (unison_assignment inner (first.pass_peek rfl qualified.1).2 _))
    · intro _
      exact more (unison_ruleOrDeclaration inner block near (by rw [word]; rfl))
  · rename_i ended brace semicolon comment _ _ _
    apply more (unison_ruleOrDeclaration inner block near ?_)
    by_contra barren
    rcases TokenKind.isBarren_cases (Bool.not_eq_false _ ▸ barren) with kind | kind | kind | kind | kind
    · exact shown kind
    · exact comment kind
    · exact semicolon kind
    · exact brace kind
    · exact ended kind

end Round

omit inner famished in
/-- Where the input ends, so does the list, unless it is that of a block. -/
theorem unison_statementRound_end {seams : Seams} (nested : Bool) (done : List Statement)
    {cursor other : Cursor} (near : cursor.skipBlank.Near seams True [] other.skipBlank)
    (ends : cursor.skipBlank.current.kind = .endOfInput)
    (endsTwin : other.skipBlank.current.kind = .endOfInput) :
    Unison (ListRound seams) (b.statementRound nested done) cursor (twin.statementRound nested done) other := by
  apply Unison.skipBlank
  apply Unison.current
  rw [ends, endsTwin]
  apply Unison.ite Iff.rfl
  · intro _
    exact .unexpected
  · intro _
    exact .done ⟨rfl, near, ends.trans endsTwin.symm⟩

omit inner famished in
theorem statementRound_congr (b : Blocks) (nested : Bool) (done : List Statement) {cursor other : Cursor}
    (same : cursor.skipBlank = other.skipBlank) :
    b.statementRound nested done cursor = b.statementRound nested done other := by
  rw [statementRound, Parser.bind_of_ok Parser.skipBlank_apply, Parser.bind_of_ok Parser.skipBlank_apply, same]

omit inner famished in
/-- What no statement is made of is passed. -/
theorem statementRounds_void (b : Blocks) (nested : Bool) (done : List Statement) {cursor : Cursor}
    {gap rest : List Token} (ahead : cursor.ahead = gap ++ rest) (void : ∀ token ∈ gap, token.isVoid = true)
    (bound : List Token) :
    Parser.loopWithin (b.statementRound nested) bound done cursor = .error .exhausted ∨
      ∃ less, Parser.loopWithin (b.statementRound nested) bound done cursor =
        Parser.loopWithin (b.statementRound nested) less done (cursor.advance gap.length) := by
  induction gap generalizing cursor bound with
  | nil => exact .inr ⟨bound, rfl⟩
  | cons token gap ih =>
    obtain ⟨own, others⟩ := List.forall_mem_cons.mp void
    have further (bound : List Token) := ih (Cursor.ahead_advance_one ahead) others bound
    rw [List.length_cons, Nat.add_comm, ← Cursor.advance_advance]
    have current := Cursor.current_of_cons ahead
    by_cases blank : token.kind = .whitespace
    · rw [loopWithin_congr (statementRound_congr b nested done (Cursor.skipBlank_advance ahead blank)) bound]
      exact further bound
    · have step : b.statementRound nested done cursor = .ok (.again done, cursor.advance 1) := by
        have stays := Cursor.skipBlank_eq ahead blank
        rw [statementRound, Parser.bind_of_ok Parser.skipBlank_apply, stays,
          Parser.bind_of_ok Parser.current_apply, current]
        simp only [Token.isVoid, Token.isIdle, blank, decide_false, Bool.false_or, Bool.or_eq_true,
          decide_eq_true_eq] at own
        rcases own with silent | semicolon
        · have comment : token.kind = .comment := by
            simp only [Token.isSilent, Bool.and_eq_true, decide_eq_true_eq] at silent
            exact silent.1
          rw [comment, if_pos silent]
          rfl
        · rw [semicolon]
          rfl
      cases bound with
      | nil =>
        left
        rw [Parser.loopWithin, Parser.bind_of_ok step]
        rfl
      | cons _ bound =>
        rw [Parser.loopWithin_again step]
        exact further bound

include inner famished

/-- Over the same rows. -/
theorem unison_statements_even (block : ∀ cursor other : Cursor, cursor.Near .absent True [] other →
      Unison (Closed .absent) b.block cursor twin.block other) (nested : Bool) {cursor other : Cursor}
    (line : cursor.last.line = other.last.line) (rows : cursor.ahead = other.ahead)
    (done : List Statement) (bound boundTwin : List Token) :
    Unison (Finish .absent) (Parser.loopWithin (b.statementRound nested) bound done) cursor
      (Parser.loopWithin (twin.statementRound nested) boundTwin done) other := by
  apply Unison.rounds (fun _ cursor other => cursor.Here .absent other) _ (.inl ⟨fun _ => line, .inl rows⟩)
  intro done cursor other here
  left
  have start : cursor.Near .absent True [] other := here.resolve_right fun past => by cases past.1
  have near : cursor.skipBlank.Near .absent True [] other.skipBlank := by
    refine ⟨fun _ => by simpa [Cursor.skipBlank, Cursor.skipWhile] using start.line trivial, .inl ?_⟩
    rw [Cursor.ahead_skipBlank, Cursor.ahead_skipBlank, start.same_rows]
  rcases near.sees with ⟨same, behind⟩ | ⟨none, also⟩ | ⟨never, -⟩
  · exact unison_statementRound inner famished block nested done near same behind
  · apply unison_statementRound_end nested done near
    · rw [Cursor.current, none]
      exact cursor.skipBlank.last_kind
    · rw [Cursor.current, also]
      exact other.skipBlank.last_kind
  · exact never.elim

/-- Over the same rows. -/
theorem unison_statements_absent (block : ∀ cursor other : Cursor, cursor.Near .absent True [] other →
      Unison (Closed .absent) b.block cursor twin.block other) (nested : Bool) {cursor other : Cursor}
    (near : cursor.Near .absent True [] other) :
    Unison (Finish .absent) (b.statements nested) cursor (twin.statements nested) other := by
  exact ⟨(unison_statements_even inner famished block nested (near.line trivial) near.same_rows [] _ _).outcome⟩

/-- What is passed between statements makes no difference. -/
theorem unison_past (even : ∀ cursor other : Cursor, cursor.Near .absent True [] other →
      Unison (Closed .absent) b.block cursor twin.block other) (nested : Bool) {cursor other : Cursor}
    (line : cursor.last.line = other.last.line) (past : cursor.Past other) (done : List Statement)
    (bound boundTwin : List Token) :
    Unison (Finish .any) (Parser.loopWithin (b.statementRound nested) bound done) cursor
      (Parser.loopWithin (twin.statementRound nested) boundTwin done) other := by
  obtain ⟨gap, more, rest, void, voidTwin, ahead, also⟩ := past
  rcases statementRounds_void b nested done ahead void bound with run | ⟨less, run⟩
  · exact .of_eq run rfl (.bounded _)
  rcases statementRounds_void twin nested done also voidTwin boundTwin with run' | ⟨lessTwin, run'⟩
  · exact .of_eq rfl run' (.boundedTwin _)
  have behind : (cursor.advance gap.length).ahead = (other.advance more.length).ahead := by
    rw [Cursor.ahead_advance, Cursor.ahead_advance, ahead, also, List.drop_left, List.drop_left]
  have whole := unison_statements_even inner famished even nested (by simpa using line) behind done less lessTwin
  apply Unison.of_eq run run'
  refine (whole.weaken ?_).outcome
  rintro body _ after afterTwin ⟨rfl, near, kinds⟩
  exact ⟨rfl, ⟨near.line, .inl near.same_rows⟩, kinds⟩

theorem unison_statements (even : ∀ cursor other : Cursor, cursor.Near .absent True [] other →
      Unison (Closed .absent) b.block cursor twin.block other)
    (block : ∀ cursor other : Cursor, cursor.Near .any True [] other →
      Unison (Closed .any) b.block cursor twin.block other) (nested : Bool) {cursor other : Cursor}
    (near : cursor.Near .any True [] other) :
    Unison (Finish .any) (b.statements nested) cursor (twin.statements nested) other := by
  apply Unison.loopUntil (fun _ cursor other => cursor.Here .any other) _ (.inl near)
  rintro done cursor other (near | ⟨-, line, past⟩)
  · rcases near.past_or_near with past | ⟨near, same, behind⟩
    · exact .inr (unison_past inner famished even nested (near.line trivial) past done)
    · exact .inl (unison_statementRound inner famished block nested done near same behind)
  · exact .inr (unison_past inner famished even nested line past done)

end Lists

/-- A block with its braces, from a list of statements. -/
theorem unison_braced {b twin : Blocks} {seams : Seams} (lists : ∀ cursor other : Cursor,
      cursor.Near seams True [] other → Unison (Finish seams) (b.statements true) cursor (twin.statements true) other)
    {cursor other : Cursor} (near : cursor.Near seams True [] other) :
    Unison (Closed seams) b.braced cursor twin.braced other := by
  apply near.skip
  intro near
  apply near.expect rfl
  intro _ near
  apply (lists _ _ near).bind
  rintro body _ after afterTwin ⟨rfl, near, kinds⟩
  apply Unison.expectAny (by rw [kinds])
  intro closes
  rw [List.mem_singleton] at closes
  obtain ⟨same, behind⟩ := near.same_of_kind (by rw [Token.isTrivia, closes]; rfl) kinds (by rw [closes]; decide)
  rw [closes] at behind
  exact .done ⟨rfl, behind, near.kind_behind (.inr closes)⟩

theorem fails_braced (b : Blocks) {cursor : Cursor} (ends : cursor.skipTrivia.current.kind.ends = true) :
    Fails b.braced cursor := by
  have missing : cursor.skipTrivia.current.kind ≠ .leftBrace := by
    intro opening
    rw [opening] at ends
    cases ends
  exact .andThen Parser.skipTrivia_apply (.bind (fails_expect missing))

end Blocks

theorem fails_bodyParser (self : Self) (depth : Nat) {cursor : Cursor}
    (ends : cursor.skipTrivia.current.kind.ends = true) : Fails (bodyParser self depth) cursor := by
  cases depth with
  | zero => exact .inl rfl
  | succ depth => exact Blocks.fails_braced _ ends

section Depths

variable {self twin : Self} (inner : ∀ form, Level (self form) (twin form))

include inner

/-- Blocks over the same rows, to at most so much depth. -/
theorem unison_bodyParser_absent (depth depthTwin : Nat) {cursor other : Cursor}
    (near : cursor.Near .absent True [] other) :
    Unison (Closed .absent) (bodyParser self depth) cursor (bodyParser twin depthTwin) other := by
  induction depth generalizing depthTwin cursor other with
  | zero => exact ⟨.bounded _⟩
  | succ depth ih =>
    cases depthTwin with
    | zero => exact ⟨.boundedTwin _⟩
    | succ depthTwin =>
      apply Blocks.unison_braced _ near
      intro cursor other near
      exact Blocks.unison_statements_absent inner
        (fun _ ends => ⟨fails_bodyParser _ _ ends, fails_bodyParser _ _ ends⟩)
        (fun cursor other near => ih depthTwin near) true near

theorem unison_bodyParser (depth depthTwin : Nat) {cursor other : Cursor}
    (near : cursor.Near .any True [] other) :
    Unison (Closed .any) (bodyParser self depth) cursor (bodyParser twin depthTwin) other := by
  induction depth generalizing depthTwin cursor other with
  | zero => exact ⟨.bounded _⟩
  | succ depth ih =>
    cases depthTwin with
    | zero => exact ⟨.boundedTwin _⟩
    | succ depthTwin =>
      apply Blocks.unison_braced _ near
      intro cursor other near
      exact Blocks.unison_statements inner
        (fun _ ends => ⟨fails_bodyParser _ _ ends, fails_bodyParser _ _ ends⟩)
        (fun cursor other near => unison_bodyParser_absent inner depth depthTwin near)
        (fun cursor other near => ih depthTwin near) true near

end Depths

/-- Two texts whose tokens have a seam are read alike: both give the same statements, or neither any. -/
theorem stylesheet_of_near {source another : String} {cursor other : Cursor} (read : cursorOf source = .ok cursor)
    (readTwin : cursorOf another = .ok other) (near : cursor.Near .any True [] other) :
    (stylesheet source).toOption = (stylesheet another).toOption := by
  have inner (form : Form) : Level (expressions source form) (expressions another form) :=
    level_expressions _ _ form
  have lists : Unison (Finish .any)
      (Blocks.statements ⟨expressions source, bodyParser (expressions source) (depthBound source)⟩ false) cursor
      (Blocks.statements ⟨expressions another, bodyParser (expressions another) (depthBound another)⟩ false)
      other := Blocks.unison_statements inner
    (fun _ ends => ⟨fails_bodyParser _ _ ends, fails_bodyParser _ _ ends⟩)
    (fun cursor other near => unison_bodyParser_absent inner _ _ near)
    (fun cursor other near => unison_bodyParser inner _ _ near) false near
  have own : stylesheet source = (Blocks.statements ⟨expressions source,
      bodyParser (expressions source) (depthBound source)⟩ false).run' cursor := by
    rw [stylesheet, read]
    rfl
  have twin : stylesheet another = (Blocks.statements ⟨expressions another,
      bodyParser (expressions another) (depthBound another)⟩ false).run' other := by
    rw [stylesheet, readTwin]
    rfl
  have outcome : Agrees Eq (stylesheet source) (stylesheet another) := by
    rw [own, twin]
    exact lists.outcome.bind fun _ _ same => .ok same.1
  have settled := settled_stylesheet source
  have settledTwin := settled_stylesheet another
  generalize stylesheet source = result at outcome settled
  generalize stylesheet another = twinResult at outcome settledTwin
  cases outcome with
  | ok results => rw [results]
  | grammar fault another => rfl
  | fault fault => rfl
  | bounded result => exact absurd rfl settled
  | boundedTwin result => exact absurd rfl settledTwin

end Grammar

end Scss
