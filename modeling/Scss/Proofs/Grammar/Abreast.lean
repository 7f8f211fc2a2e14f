import Mathlib.Data.List.TakeWhile
import Scss.Proofs.Grammar.Alike
import Scss.Proofs.Grammar.Brackets

/-! Two runs of a parser abreast, at cursors with rows ahead that are alike: both fail, or both come to
values that are the same apart from places, and to cursors that are alike again. The first of them is
also followed through the brackets: which closers it leaves awaited, and whether it has passed a token
that is no trivia. There is one rule for each way to put parsers together. -/
namespace Scss

open Placed (unplaced)

namespace Cursor

/-- From `start` on, the cursor has passed a row of tokens behind which the closers `now` are awaited,
with `awaited` before it; and one that is not all trivia if `moved`. -/
def Leads (start : Cursor) (awaited : List TokenKind) (moved : Bool) (cursor : Cursor)
    (now : List TokenKind) : Prop :=
  ∃ row, cursor = start.advance row.length ∧ start.ahead = row ++ cursor.ahead ∧
    Awaits awaited row now ∧ (moved = true → 0 < visibleCount row)

namespace Leads

variable {start middle cursor : Cursor} {awaited now behind : List TokenKind} {moved also : Bool}

theorem refl (start : Cursor) (awaited : List TokenKind) : start.Leads awaited false start awaited :=
  ⟨[], rfl, rfl, .nil _, nofun⟩

/-- One way behind another, which need not know of all closers that are awaited. -/
theorem trans {inner outer : List TokenKind} (first : start.Leads awaited moved middle (inner ++ outer))
    (second : middle.Leads inner also cursor behind) :
    start.Leads awaited (moved || also) cursor (behind ++ outer) := by
  obtain ⟨row, rfl, cut, awaits, visible⟩ := first
  obtain ⟨more, rfl, further, later, seen⟩ := second
  refine ⟨row ++ more, ?_, ?_, awaits.append (later.inside outer), fun some => ?_⟩
  · rw [advance_advance, List.length_append]
  · rw [cut, further, List.append_assoc]
  · rw [visibleCount_append]
    rcases Bool.or_eq_true_iff.mp some with some | some
    · exact Nat.add_pos_left (visible some) _
    · exact Nat.add_pos_right _ (seen some)

theorem weaken (leads : start.Leads awaited moved cursor now) (fewer : also = true → moved = true) :
    start.Leads awaited also cursor now := by
  obtain ⟨row, rest, cut, awaits, visible⟩ := leads
  exact ⟨row, rest, cut, awaits, fun some => visible (fewer some)⟩

/-- Passing one token that is no trivia. -/
theorem advance {kind : TokenKind} (found : start.current.kind = kind)
    (turns : TokenKind.Turns awaited kind now) (visible : kind.isTrivia = false) :
    start.Leads awaited true (start.advance 1) now := by
  subst found
  refine ⟨[start.current], rfl, ahead_eq turns.ne_endOfInput, .cons turns (.nil _), fun _ => ?_⟩
  simp [visibleCount, Token.isTrivia, visible]

theorem skipTrivia (start : Cursor) (awaited : List TokenKind) :
    start.Leads awaited false start.skipTrivia awaited := by
  have cut : start.ahead = start.ahead.takeWhile Token.isTrivia ++ start.skipTrivia.ahead := by
    rw [ahead_skipTrivia, List.takeWhile_append_dropWhile]
  refine ⟨start.ahead.takeWhile Token.isTrivia, rfl, cut, .of_plain (fun token member => ?_) _, nofun⟩
  have trivia : token.isTrivia = true := List.mem_takeWhile_imp member
  exact TokenKind.isPlain_of_isTrivia trivia

/-- Whoever has passed a token has fewer ahead. -/
theorem visibleCount_lt (leads : start.Leads awaited true cursor now) :
    visibleCount cursor.ahead < visibleCount start.ahead := by
  obtain ⟨row, -, cut, -, visible⟩ := leads
  rw [cut, visibleCount_append]
  exact Nat.lt_add_of_pos_left (visible rfl)

end Leads

end Cursor

namespace Parser

variable {α β σ : Type} [Placed α] [Placed β] [Placed σ]

instance : Placed (Next σ α) where
  unplaced
    | .again state => .again (unplaced state)
    | .done result => .done (unplaced result)

@[simp]
theorem unplaced_again (state : σ) :
    unplaced (.again state : Next σ α) = .again (unplaced state) := rfl

@[simp]
theorem unplaced_done (result : α) :
    unplaced (.done result : Next σ α) = .done (unplaced result) := rfl

/-- What a parser is to come to, by its value: whether it passes a token that is no trivia, and which
closers it leaves awaited. -/
structure Goal (α : Type) where
  moves : α → Bool
  behind : α → List TokenKind

abbrev Goal.always (moves : Bool) (behind : List TokenKind) : Goal α := ⟨fun _ => moves, fun _ => behind⟩

/-- A round of a loop. One that is not the last moves, and leaves what is awaited as it is. -/
abbrev Goal.round (awaited behind : List TokenKind) (moves : Bool) : Goal (Next σ α) where
  moves
    | .again _ => true
    | .done _ => moves
  behind
    | .again _ => awaited
    | .done _ => behind

/-- Two results that belong together, the first of them as it is to be. -/
structure Arrives (start : Cursor) (awaited : List TokenKind) (goal : Goal α)
    (result twin : α × Cursor) : Prop where
  same : unplaced result.1 = unplaced twin.1
  alike : result.2.Alike twin.2
  leads : start.Leads awaited (goal.moves result.1) result.2 (goal.behind result.1)

/-- Two parsers at two cursors, followed from `start` on. -/
structure Abreast (start : Cursor) (awaited : List TokenKind) (goal : Goal α) (parser : Parser α)
    (cursor : Cursor) (twin : Parser α) (other : Cursor) : Prop where
  outcome : Concur (fun _ _ => True) (Arrives start awaited goal) (parser cursor) (twin other)

/-- Two parsers that are abreast wherever they start. -/
def Twins (awaited : List TokenKind) (goal : Goal α) (parser twin : Parser α) : Prop :=
  ∀ cursor other : Cursor, cursor.Alike other →
    Abreast cursor awaited goal parser cursor twin other

structure Beside (start : Cursor) (awaited : List TokenKind) (moved : Bool) (cursor other : Cursor)
    (now : List TokenKind) : Prop where
  alike : cursor.Alike other
  leads : start.Leads awaited moved cursor now

section Rules

variable {start cursor other : Cursor} {awaited now : List TokenKind} {moved : Bool} {goal : Goal β}

namespace Abreast

theorem of_eq {parser twin : Parser β} {result twinResult : Except Fault (β × Cursor)}
    (run : parser cursor = result) (twinRun : twin other = twinResult)
    (outcome : Concur (fun _ _ => True) (Arrives start awaited goal) result twinResult) :
    Abreast start awaited goal parser cursor twin other :=
  ⟨run ▸ twinRun ▸ outcome⟩

/-- Both parsers fail. -/
theorem fault {fault another : Fault} :
    Abreast start awaited goal (throw fault) cursor (throw another) other :=
  ⟨.error trivial⟩

theorem unexpected {expected : String} :
    Abreast start awaited goal (Parser.unexpected expected) cursor (Parser.unexpected expected) other :=
  ⟨.error trivial⟩

/-- Both take the same branch. -/
theorem ite {p q : Prop} [Decidable p] [Decidable q] (both : p ↔ q) {yes no yesTwin noTwin : Parser β}
    (of_yes : p → Abreast start awaited goal yes cursor yesTwin other)
    (of_no : ¬p → Abreast start awaited goal no cursor noTwin other) :
    Abreast start awaited goal (if p then yes else no) cursor (if q then yesTwin else noTwin) other := by
  by_cases holds : p
  · rw [if_pos holds, if_pos (both.mp holds)]
    exact of_yes holds
  · rw [if_neg holds, if_neg (holds ∘ both.mpr)]
    exact of_no holds

variable {next : α → Parser β}

theorem current {next nextTwin : Token → Parser β}
    (rest : Abreast start awaited goal (next cursor.current) cursor (nextTwin other.current) other) :
    Abreast start awaited goal (Parser.current >>= next) cursor (Parser.current >>= nextTwin) other :=
  ⟨rest.outcome⟩

theorem peek {offset : Nat} {next nextTwin : Token → Parser β}
    (rest : Abreast start awaited goal (next (cursor.peek offset)) cursor
      (nextTwin (other.peek offset)) other) :
    Abreast start awaited goal (Parser.peek offset >>= next) cursor
      (Parser.peek offset >>= nextTwin) other :=
  ⟨rest.outcome⟩

theorem significant {offset : Nat} {next nextTwin : Token → Parser β}
    (rest : Abreast start awaited goal (next (cursor.significant offset)) cursor
      (nextTwin (other.significant offset)) other) :
    Abreast start awaited goal (Parser.significant offset >>= next) cursor
      (Parser.significant offset >>= nextTwin) other :=
  ⟨rest.outcome⟩

theorem get {next nextTwin : Cursor → Parser β}
    (rest : Abreast start awaited goal (next cursor) cursor (nextTwin other) other) :
    Abreast start awaited goal (MonadState.get >>= next) cursor (MonadState.get >>= nextTwin) other :=
  ⟨rest.outcome⟩

/-- Both go back. -/
theorem set {saved savedTwin : Cursor} {next nextTwin : PUnit → Parser β}
    (rest : Abreast start awaited goal (next ⟨⟩) saved (nextTwin ⟨⟩) savedTwin) :
    Abreast start awaited goal (MonadState.set saved >>= next) cursor
      (MonadState.set savedTwin >>= nextTwin) other :=
  ⟨rest.outcome⟩

theorem advance {count : Nat} {next nextTwin : Unit → Parser β}
    (rest : Abreast start awaited goal (next ()) (cursor.advance count) (nextTwin ())
      (other.advance count)) :
    Abreast start awaited goal (Parser.advance count >>= next) cursor
      (Parser.advance count >>= nextTwin) other :=
  ⟨rest.outcome⟩

/-- Results that do not depend on the cursors. -/
theorem lift {result twin : Except Fault α} {next nextTwin : α → Parser β}
    (both : Coincide result twin)
    (rest : ∀ value another, unplaced value = unplaced another →
      Abreast start awaited goal (next value) cursor (nextTwin another) other) :
    Abreast start awaited goal ((liftM result : Parser α) >>= next) cursor
      ((liftM twin : Parser α) >>= nextTwin) other := by
  cases both with
  | ok same => exact ⟨(rest _ _ same).outcome⟩
  | error faults => exact ⟨.error faults⟩

end Abreast

namespace Beside

theorem refl (alike : cursor.Alike other) : Beside cursor awaited false cursor other awaited :=
  ⟨alike, .refl cursor awaited⟩

variable (here : Beside start awaited moved cursor other now)

include here

/-- Both pass a token of a kind. -/
theorem pass {kind : TokenKind} {further : List TokenKind} (found : cursor.current.kind = kind)
    (turns : TokenKind.Turns now kind further) (visible : kind.isTrivia = false) :
    Beside start awaited true (cursor.advance 1) (other.advance 1) further := by
  have row : start.Leads awaited moved cursor (now ++ []) := (List.append_nil now).symm ▸ here.leads
  refine ⟨here.alike.advance ?_ (found ▸ turns.ne_endOfInput), ?_⟩
  · rw [Token.isTrivia, found, visible]
  · have leads := row.trans (Cursor.Leads.advance found turns visible)
    rwa [List.append_nil, Bool.or_true] at leads

/-- Both pass trivia. -/
theorem skipTrivia : Beside start awaited moved cursor.skipTrivia other.skipTrivia now := by
  have row : start.Leads awaited moved cursor (now ++ []) := (List.append_nil now).symm ▸ here.leads
  refine ⟨here.alike.skipTrivia, ?_⟩
  have leads := row.trans (.skipTrivia cursor now)
  rwa [List.append_nil, Bool.or_false] at leads

/-- Both see whether a token of a kind stands here. -/
theorem at_ {kind : TokenKind} {next nextTwin : Bool → Parser β}
    (rest : ∀ found, Abreast start awaited goal (next found) cursor (nextTwin found) other) :
    Abreast start awaited goal (Parser.at_ kind >>= next) cursor (Parser.at_ kind >>= nextTwin)
      other := by
  refine .of_eq (bind_of_ok (at_apply kind)) (bind_of_ok (at_apply kind)) ?_
  rw [here.alike.current.kind]
  exact (rest _).outcome

theorem atEnd {next nextTwin : Bool → Parser β}
    (rest : ∀ ended, Abreast start awaited goal (next ended) cursor (nextTwin ended) other) :
    Abreast start awaited goal (Parser.atEnd >>= next) cursor (Parser.atEnd >>= nextTwin) other := by
  have same : cursor.atEnd = other.atEnd := by
    rw [Cursor.atEnd, Cursor.atEnd, here.alike.current.kind]
  refine ⟨?_⟩
  change Concur _ _ (next cursor.atEnd cursor) (nextTwin other.atEnd other)
  rw [← same]
  exact (rest _).outcome

theorem done {value another : β} (same : unplaced value = unplaced another)
    (enough : goal.moves value = true → moved = true) (closed : goal.behind value = now) :
    Abreast start awaited goal (pure value) cursor (pure another) other :=
  ⟨.ok ⟨same, here.alike, closed ▸ here.leads.weaken enough⟩⟩

theorem skip {next nextTwin : Unit → Parser β}
    (rest : Beside start awaited moved cursor.skipTrivia other.skipTrivia now →
      Abreast start awaited goal (next ()) cursor.skipTrivia (nextTwin ()) other.skipTrivia) :
    Abreast start awaited goal (Parser.skipTrivia >>= next) cursor
      (Parser.skipTrivia >>= nextTwin) other :=
  ⟨(rest here.skipTrivia).outcome⟩

/-- Parsers as the next step, which need not know of all closers that are awaited. -/
theorem step {inner outer : List TokenKind} {asks : Goal α} {parser twin : Parser α}
    {next nextTwin : α → Parser β} (first : Twins inner asks parser twin) (nested : now = inner ++ outer)
    (rest : ∀ value another after afterTwin, unplaced value = unplaced another →
      Beside start awaited (moved || asks.moves value) after afterTwin (asks.behind value ++ outer) →
      Abreast start awaited goal (next value) after (nextTwin another) afterTwin) :
    Abreast start awaited goal (parser >>= next) cursor (twin >>= nextTwin) other := by
  subst nested
  have ends := (first cursor other here.alike).outcome
  generalize run : parser cursor = result at ends
  generalize runTwin : twin other = resultTwin at ends
  cases ends with
  | ok arrives =>
    refine .of_eq (bind_of_ok run) (bind_of_ok runTwin) (rest _ _ _ _ arrives.same ?_).outcome
    exact ⟨arrives.alike, here.leads.trans arrives.leads⟩
  | error => exact .of_eq (bind_of_error run) (bind_of_error runTwin) (.error trivial)

/-- Parsers that leave awaited what is awaited. -/
theorem andThen {moves : Bool} {parser twin : Parser α} {next nextTwin : α → Parser β}
    (first : Twins [] (.always moves []) parser twin)
    (rest : ∀ value another after afterTwin, unplaced value = unplaced another →
      Beside start awaited (moved || moves) after afterTwin now →
      Abreast start awaited goal (next value) after (nextTwin another) afterTwin) :
    Abreast start awaited goal (parser >>= next) cursor (twin >>= nextTwin) other :=
  here.step first rfl rest

/-- Parsers that know of all closers that are awaited, as the last step. -/
theorem finish {asks : Goal β} {parser twin : Parser β} (twins : Twins now asks parser twin)
    (enough : ∀ value, goal.moves value = true → (moved || asks.moves value) = true)
    (closed : ∀ value, goal.behind value = asks.behind value) :
    Abreast start awaited goal parser cursor twin other := by
  rw [← bind_pure parser, ← bind_pure twin]
  refine here.step twins (List.append_nil now).symm fun value another after afterTwin same here => ?_
  exact here.done same (enough value) ((closed value).trans (List.append_nil _).symm)

/-- Parsers that leave awaited what is awaited, as the last step. -/
theorem last {moves : Bool} {parser twin : Parser β} (twins : Twins [] (.always moves []) parser twin)
    (enough : ∀ value, goal.moves value = true → (moved || moves) = true)
    (closed : ∀ value, goal.behind value = now) :
    Abreast start awaited goal parser cursor twin other := by
  rw [← bind_pure parser, ← bind_pure twin]
  exact here.andThen twins fun value another after afterTwin same here =>
    here.done same (enough value) (closed value)

/-- Both pass a token if it is of a kind. -/
theorem accept {kind : TokenKind} {further : List TokenKind} {next nextTwin : Bool → Parser β}
    (turns : TokenKind.Turns now kind further) (visible : kind.isTrivia = false)
    (yes : Beside start awaited true (cursor.advance 1) (other.advance 1) further →
      Abreast start awaited goal (next true) (cursor.advance 1) (nextTwin true) (other.advance 1))
    (no : Abreast start awaited goal (next false) cursor (nextTwin false) other) :
    Abreast start awaited goal (Parser.accept kind >>= next) cursor
      (Parser.accept kind >>= nextTwin) other := by
  have kinds := here.alike.current.kind
  by_cases found : cursor.current.kind = kind
  · exact .of_eq (bind_of_ok (accept_of_eq found)) (bind_of_ok (accept_of_eq (kinds ▸ found)))
      (yes (here.pass found turns visible)).outcome
  · exact .of_eq (bind_of_ok (accept_of_ne found)) (bind_of_ok (accept_of_ne (kinds ▸ found)))
      no.outcome

/-- Both pass a token that has to be of a kind. -/
theorem expect {kind : TokenKind} {further : List TokenKind} {next nextTwin : Token → Parser β}
    (turns : TokenKind.Turns now kind further) (visible : kind.isTrivia = false)
    (rest : Beside start awaited true (cursor.advance 1) (other.advance 1) further →
      Abreast start awaited goal (next cursor.current) (cursor.advance 1) (nextTwin other.current)
        (other.advance 1)) :
    Abreast start awaited goal (Parser.expect kind >>= next) cursor
      (Parser.expect kind >>= nextTwin) other := by
  have kinds := here.alike.current.kind
  by_cases found : cursor.current.kind = kind
  · exact .of_eq (bind_of_ok (expect_of_eq found)) (bind_of_ok (expect_of_eq (kinds ▸ found)))
      (rest (here.pass found turns visible)).outcome
  · obtain ⟨fault, failed⟩ := expect_of_ne found
    obtain ⟨another, failedTwin⟩ := expect_of_ne (kinds ▸ found)
    exact .of_eq (bind_of_error failed) (bind_of_error failedTwin) (.error trivial)

end Beside

end Rules

namespace Twins

variable {awaited behind : List TokenKind}

theorem of_beside {goal : Goal α} {parser twin : Parser α}
    (each : ∀ cursor other, Beside cursor awaited false cursor other awaited →
      Abreast cursor awaited goal parser cursor twin other) : Twins awaited goal parser twin :=
  fun cursor other alike => each cursor other (.refl alike)

/-- The rounds of two loops from one that is known. Each passes a token that is no trivia, of which
there are as many ahead of both cursors; so neither bound is reached, though they may differ. -/
theorem abreast_loopWithin {step twin : σ → Parser (Next σ α)}
    (round : ∀ state other, unplaced state = unplaced other →
      Twins awaited (.round awaited behind false) (step state) (twin other))
    {moves : Bool} {bound others : List Token} {state another : σ} {cursor other : Cursor}
    (alike : cursor.Alike other)
    (fits : visibleCount cursor.ahead ≤ bound.length) (fit : visibleCount other.ahead ≤ others.length)
    (first : Abreast cursor awaited (.round awaited behind moves) (step state) cursor (twin another)
      other) :
    Abreast cursor awaited (.always moves behind) (loopWithin step bound state) cursor
      (loopWithin twin others another) other := by
  have ends := first.outcome
  generalize run : step state cursor = result at ends
  generalize runTwin : twin another other = resultTwin at ends
  cases ends with
  | error => exact .of_eq (loopWithin_error run) (loopWithin_error runTwin) (.error trivial)
  | @ok result resultTwin arrives =>
    obtain ⟨later | value, after⟩ := result
    · obtain ⟨laterTwin | _, afterTwin⟩ := resultTwin
      · -- A token that is no trivia has been passed on both sides, so neither bound is empty.
        have ahead : after.Alike afterTwin := arrives.alike
        have leads : cursor.Leads awaited true after (awaited ++ []) :=
          (List.append_nil awaited).symm ▸ arrives.leads
        have fewer := leads.visibleCount_lt
        have counts := alike.visibleCount_eq
        have left := ahead.visibleCount_eq
        obtain _ | ⟨token, bound⟩ := bound
        · exact absurd (fewer.trans_le fits) (Nat.not_lt_zero _)
        obtain _ | ⟨twinToken, others⟩ := others
        · exact absurd ((counts ▸ fewer).trans_le fit) (Nat.not_lt_zero _)
        rw [List.length_cons] at fits fit
        have further := (abreast_loopWithin round ahead (by omega : _ ≤ bound.length)
          (by omega : _ ≤ others.length)
          (round later laterTwin (Next.again.inj arrives.same) _ _ ahead)).outcome
        generalize rest : loopWithin step bound later after = final at further
        generalize restTwin : loopWithin twin others laterTwin afterTwin = finalTwin at further
        refine .of_eq ((loopWithin_again run).trans rest) ((loopWithin_again runTwin).trans restTwin) ?_
        cases further with
        | error => exact .error trivial
        | ok ends =>
          have whole := leads.trans ends.leads
          rw [List.append_nil] at whole
          exact .ok ⟨ends.same, ends.alike, whole.weaken fun _ => rfl⟩
      · cases arrives.same
    · obtain ⟨_ | valueTwin, afterTwin⟩ := resultTwin
      · cases arrives.same
      · exact .of_eq (loopWithin_done run) (loopWithin_done runTwin)
          (.ok ⟨Next.done.inj arrives.same, arrives.alike, arrives.leads⟩)
termination_by visibleCount cursor.ahead
decreasing_by exact fewer

/-- Loops whose rounds pass tokens. -/
theorem loop (awaited behind : List TokenKind) {step twin : σ → Parser (Next σ α)}
    (round : ∀ state other, unplaced state = unplaced other →
      Twins awaited (.round awaited behind false) (step state) (twin other))
    {init other : σ} (same : unplaced init = unplaced other) :
    Twins awaited (.always false behind) (Parser.loop init step) (Parser.loop other twin) := by
  intro cursor beyond alike
  refine .of_eq (loop_apply init step) (loop_apply other twin) (Abreast.outcome ?_)
  exact abreast_loopWithin round alike List.countP_le_length List.countP_le_length
    (round init other same cursor beyond alike)

end Twins

end Parser

end Scss
