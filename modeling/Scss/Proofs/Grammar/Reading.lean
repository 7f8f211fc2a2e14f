import Scss.Proofs.Grammar.Printed

/-! Parsers at a cursor: what each of the small ones answers, and where it leaves the cursor. A cursor
is known by the tokens ahead of it; every parser here moves it forwards only. -/
namespace Scss

namespace Cursor

theorem advance_advance (cursor : Cursor) (first second : Nat) :
    (cursor.advance first).advance second = cursor.advance (first + second) := by
  induction first generalizing cursor with
  | zero => rw [Nat.zero_add]; rfl
  | succ first ih =>
    rw [Nat.succ_add]
    obtain ⟨passed, ahead, last, ends⟩ := cursor
    cases ahead with
    | nil =>
      cases second with
      | zero => rfl
      | succ second => rfl
    | cons token ahead => exact ih _

theorem advance_min (cursor : Cursor) (count : Nat) :
    cursor.advance (min count cursor.ahead.length) = cursor.advance count := by
  induction count generalizing cursor with
  | zero => simp
  | succ count ih =>
    obtain ⟨passed, ahead, last, ends⟩ := cursor
    cases ahead with
    | nil => rfl
    | cons token ahead =>
      rw [List.length_cons, Nat.add_min_add_right]
      exact ih ⟨token :: passed, ahead, last, ends⟩

theorem position_advance {cursor : Cursor} {count : Nat} (fits : count ≤ cursor.ahead.length) :
    (cursor.advance count).position = cursor.position + count := by
  induction count generalizing cursor with
  | zero => rfl
  | succ count ih =>
    obtain ⟨passed, ahead, last, ends⟩ := cursor
    cases ahead with
    | nil => simp at fits
    | cons token ahead =>
      have behind := ih (Nat.le_of_succ_le_succ fits : count ≤ (⟨token :: passed, ahead, last, ends⟩ :
        Cursor).ahead.length)
      rw [advance, behind]
      simp only [position, List.length_cons]
      omega

variable {cursor : Cursor} {token : Token} {rest : List Token}

theorem ahead_advance_of_append {tokens : List Token} (ahead : cursor.ahead = tokens ++ rest) :
    (cursor.advance tokens.length).ahead = rest := by
  rw [ahead_advance, ahead, List.drop_left]

/-- Tokens that were cut out lie ahead, all of them. -/
theorem ahead_ofTokens {tokens : List Token} (proper : ∀ token ∈ tokens, token.kind ≠ .endOfInput) :
    (ofTokens tokens).ahead = tokens := by
  unfold ofTokens
  split
  · rename_i token found
    rw [dif_neg (proper token (List.mem_of_getLast? found))]
  · rfl

theorem current_of_cons (ahead : cursor.ahead = token :: rest) : cursor.current = token := by
  rw [current, ahead, List.head?_cons, Option.getD_some]

/-- A token further ahead is the current one further on. -/
theorem peek_eq (cursor : Cursor) (offset : Nat) : cursor.peek offset = (cursor.advance offset).current := by
  rw [peek, current, ahead_advance, last_advance, List.head?_drop]

/-- The first token that is neither blank nor comment stands behind those that are. -/
theorem current_skipTrivia (cursor : Cursor) :
    cursor.skipTrivia.current = cursor.significant 0 := by
  have found (tokens : List Token) :
      (tokens.drop (tokens.takeWhile Token.isTrivia).length).head? =
        tokens.find? fun token => !token.isTrivia := by
    induction tokens with
    | nil => rfl
    | cons token rest ih => cases trivia : token.isTrivia <;> simp [trivia, ih]
  rw [skipTrivia, skipWhile, current, significant, ahead_advance, last_advance, found, List.drop_zero]

theorem skipTrivia_of_visible (ahead : cursor.ahead = token :: rest)
    (visible : token.isTrivia = false) : cursor.skipTrivia = cursor := by
  rw [skipTrivia, skipWhile, ahead, List.takeWhile_cons_of_neg (by simp [visible])]
  rfl

theorem skipTrivia_of_blank {blank : Token} (ahead : cursor.ahead = blank :: token :: rest)
    (trivia : blank.isTrivia = true) (visible : token.isTrivia = false) :
    cursor.skipTrivia = cursor.advance 1 := by
  rw [skipTrivia, skipWhile, ahead, List.takeWhile_cons_of_pos trivia,
    List.takeWhile_cons_of_neg (by simp [visible])]
  rfl

theorem ahead_advance_one (ahead : cursor.ahead = token :: rest) :
    (cursor.advance 1).ahead = rest := by
  rw [ahead_advance, ahead]
  rfl

end Cursor

namespace Parser

variable {α β σ : Type} {cursor after : Cursor}

/-- A parser that succeeds hands its cursor on. -/
theorem bind_of_ok {parser : Parser α} {next : α → Parser β} {value : α}
    (read : parser cursor = .ok (value, after)) : (parser >>= next) cursor = next value after := by
  change (parser cursor >>= fun result => next result.1 result.2) = _
  rw [read]
  rfl

/-- A parser that fails ends what it is a part of. -/
theorem bind_of_error {parser : Parser α} {next : α → Parser β} {fault : Fault}
    (failed : parser cursor = .error fault) : (parser >>= next) cursor = .error fault := by
  change (parser cursor >>= fun result => next result.1 result.2) = _
  rw [failed]
  rfl

theorem get_bind {next : Cursor → Parser β} : (get >>= next) cursor = next cursor cursor := rfl

theorem current_apply : current cursor = .ok (cursor.current, cursor) := rfl

theorem peek_apply (offset : Nat) : peek offset cursor = .ok (cursor.peek offset, cursor) := rfl

theorem advance_apply (count : Nat) : advance count cursor = .ok (⟨⟩, cursor.advance count) := rfl

theorem skipTrivia_apply : skipTrivia cursor = .ok (⟨⟩, cursor.skipTrivia) := rfl

theorem significant_apply (offset : Nat) :
    significant offset cursor = .ok (cursor.significant offset, cursor) := rfl

theorem at_apply (kind : TokenKind) :
    at_ kind cursor = .ok (decide (cursor.current.kind = kind), cursor) := rfl

theorem set_apply : (set after : Parser PUnit) cursor = .ok (⟨⟩, after) := rfl

theorem accept_of_eq {kind : TokenKind} (found : cursor.current.kind = kind) :
    accept kind cursor = .ok (true, cursor.advance 1) := by
  rw [accept, get_bind, Cursor.accept?, if_pos found]
  rfl

theorem accept_of_ne {kind : TokenKind} (other : cursor.current.kind ≠ kind) :
    accept kind cursor = .ok (false, cursor) := by
  rw [accept, get_bind, Cursor.accept?, if_neg other]
  rfl

/-- What is accepted, if it is there, is passed. -/
theorem accept_apply (kind : TokenKind) :
    accept kind cursor = .ok (decide (cursor.current.kind = kind),
      if cursor.current.kind = kind then cursor.advance 1 else cursor) := by
  by_cases found : cursor.current.kind = kind
  · rw [accept_of_eq found, if_pos found, decide_eq_true found]
  · rw [accept_of_ne found, if_neg found, decide_eq_false found]

theorem expect_of_eq {kind : TokenKind} (found : cursor.current.kind = kind) :
    expect kind cursor = .ok (cursor.current, cursor.advance 1) := by
  rw [expect, expectAny, get_bind, Cursor.expectAny, if_pos (by simp [Cursor.matchesAny, found])]
  rfl

theorem expect_of_ne {kind : TokenKind} (other : cursor.current.kind ≠ kind) :
    ∃ fault, expect kind cursor = .error fault := by
  rw [expect, expectAny, get_bind, Cursor.expectAny, if_neg (by simpa [Cursor.matchesAny] using other)]
  exact ⟨_, rfl⟩

/-- A loop is its rounds over the tokens ahead. -/
theorem loop_apply (init : σ) (step : σ → Parser (Next σ α)) :
    loop init step cursor = loopWithin step cursor.ahead init cursor := rfl

theorem loopWithin_done {step : σ → Parser (Next σ α)} {bound : List Token} {state : σ} {result : α}
    (read : step state cursor = .ok (.done result, after)) :
    loopWithin step bound state cursor = .ok (result, after) := by
  cases bound with
  | nil => rw [loopWithin, bind_of_ok read]; rfl
  | cons token bound => rw [loopWithin, bind_of_ok read]; rfl

theorem loopWithin_error {step : σ → Parser (Next σ α)} {bound : List Token} {state : σ} {fault : Fault}
    (failed : step state cursor = .error fault) :
    loopWithin step bound state cursor = .error fault := by
  cases bound with
  | nil => rw [loopWithin, bind_of_error failed]
  | cons token bound => rw [loopWithin, bind_of_error failed]

theorem loopWithin_again {step : σ → Parser (Next σ α)} {bound : List Token} {token : Token}
    {state next : σ} (read : step state cursor = .ok (.again next, after)) :
    loopWithin step (token :: bound) state cursor = loopWithin step bound next after := by
  rw [loopWithin, bind_of_ok read]

end Parser

end Scss
