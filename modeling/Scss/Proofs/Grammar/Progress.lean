import Scss.Grammar.Statement
import Scss.Proofs.Grammar.Reading
import Scss.Proofs.Tiling

/-! The grammar of expressions makes progress. A rule is followed from the cursor it starts at: it
leaves tokens behind, and calls rules inside it only with less text ahead than at its start, or on a
text of its own that is shorter. So a bound on the depth that exceeds the text ahead is never reached,
and neither is the bound on the rounds of a loop, each of which passes a token.

The text ahead is measured in characters and not in tokens, because a string is one token whatever is
embedded in it. -/
namespace Scss

/-- A result, or a failure that is not that a bound was reached. -/
def Settled {α : Type} (result : Except Fault α) : Prop := result ≠ .error .exhausted

namespace Settled

variable {α β : Type}

theorem bind {result : Except Fault α} {next : α → Except Fault β} (first : Settled result)
    (rest : ∀ value, Settled (next value)) : Settled (result >>= next) := by
  cases result with
  | error fault => exact fun same => first (congrArg _ (Except.error.inj same))
  | ok value => exact rest value

theorem mapM {step : α → Except Fault β} {items : List α} (each : ∀ item ∈ items, Settled (step item)) :
    Settled (items.mapM step) := by
  induction items with
  | nil => exact nofun
  | cons item rest ih =>
    obtain ⟨first, others⟩ := List.forall_mem_cons.mp each
    rw [List.mapM_cons]
    exact first.bind fun _ => (ih others).bind fun _ => nofun

end Settled

/-- A token that stands for some text. -/
def Token.Proper (token : Token) : Prop := token.kind ≠ .endOfInput ∧ token.text ≠ ""

namespace Lexer

theorem spelled_append (first second : List Token) :
    spelled (first ++ second) = spelled first ++ spelled second :=
  List.flatMap_append

/-- Tokens that stand for some text are no more than its characters. -/
theorem length_le_spelled {tokens : List Token} (proper : ∀ token ∈ tokens, token.Proper) :
    tokens.length ≤ (spelled tokens).length := by
  induction tokens with
  | nil => exact le_refl _
  | cons token rest ih =>
    obtain ⟨first, others⟩ := List.forall_mem_cons.mp proper
    have nonempty : 0 < token.text.toList.length :=
      List.length_pos_of_ne_nil fun empty => first.2 (String.toList_injective empty)
    have tail := ih others
    rw [spelled, List.flatMap_cons, List.length_append, List.length_cons, ← spelled]
    omega

theorem text_le_spelled {tokens : List Token} {token : Token} (member : token ∈ tokens) :
    token.text.toList.length ≤ (spelled tokens).length := by
  obtain ⟨before, after, rfl⟩ := List.append_of_mem member
  rw [spelled_append, List.length_append, spelled, spelled, List.flatMap_cons, List.length_append]
  omega

end Lexer

namespace Cursor

def Proper (cursor : Cursor) : Prop := ∀ token ∈ cursor.ahead, token.Proper

def weight (cursor : Cursor) : Nat := (Lexer.spelled cursor.ahead).length

/-- The current token is ahead, unless it is the end of input. -/
theorem current_mem_ahead {cursor : Cursor} {token : Token} (found : cursor.current = token)
    (visible : token.kind ≠ .endOfInput) : token ∈ cursor.ahead := by
  rw [current] at found
  cases ahead : cursor.ahead with
  | nil =>
    rw [ahead] at found
    exact absurd (found ▸ cursor.last_kind) visible
  | cons first rest =>
    rw [ahead] at found
    exact found ▸ List.mem_cons_self ..

/-- From `start` on, the cursor has passed `least` tokens or more. -/
def Passes (start : Cursor) (least : Nat) (cursor : Cursor) : Prop :=
  ∃ count, least ≤ count ∧ count ≤ start.ahead.length ∧ cursor = start.advance count

namespace Passes

variable {start middle cursor : Cursor} {least more : Nat}

theorem refl (start : Cursor) : start.Passes 0 start := ⟨0, le_refl 0, Nat.zero_le _, rfl⟩

theorem trans (first : start.Passes least middle) (second : middle.Passes more cursor) :
    start.Passes (least + more) cursor := by
  obtain ⟨count, enough, fits, rfl⟩ := first
  obtain ⟨others, also, fit, rfl⟩ := second
  rw [ahead_advance, List.length_drop] at fit
  exact ⟨count + others, by omega, by omega, start.advance_advance count others⟩

theorem weaken (passes : start.Passes least cursor) (fewer : more ≤ least) :
    start.Passes more cursor := by
  obtain ⟨count, enough, fits, same⟩ := passes
  exact ⟨count, fewer.trans enough, fits, same⟩

theorem advance (start : Cursor) (count : Nat) : start.Passes 0 (start.advance count) :=
  ⟨min count start.ahead.length, Nat.zero_le _, min_le_right _ _, (start.advance_min count).symm⟩

/-- Where the end of input does not stand, there is a token to pass. -/
theorem advance_one (visible : start.current.kind ≠ .endOfInput) (count : Nat) :
    start.Passes 1 (start.advance (count + 1)) := by
  refine ⟨min (count + 1) start.ahead.length, ?_, min_le_right _ _, (start.advance_min _).symm⟩
  have ahead : 0 < start.ahead.length := List.length_pos_of_mem (current_mem_ahead rfl visible)
  omega

theorem ahead_eq (passes : start.Passes least cursor) :
    ∃ passed, least ≤ passed.length ∧ start.ahead = passed ++ cursor.ahead := by
  obtain ⟨count, enough, fits, rfl⟩ := passes
  refine ⟨start.ahead.take count, ?_, ?_⟩
  · rwa [List.length_take, min_eq_left fits]
  · rw [ahead_advance, List.take_append_drop]

/-- Passing tokens leaves less text. -/
theorem weight_le (passes : start.Passes least cursor) (proper : start.Proper) :
    cursor.weight + least ≤ start.weight := by
  obtain ⟨passed, enough, cut⟩ := passes.ahead_eq
  have many : passed.length ≤ (Lexer.spelled passed).length :=
    Lexer.length_le_spelled fun token member => proper token (cut ▸ List.mem_append_left _ member)
  rw [weight, weight, cut, Lexer.spelled_append, List.length_append]
  omega

theorem proper (passes : start.Passes least cursor) (proper : start.Proper) : cursor.Proper := by
  obtain ⟨passed, -, cut⟩ := passes.ahead_eq
  exact fun token member => proper token (cut ▸ List.mem_append_right _ member)

end Passes

end Cursor

namespace Parser

variable {α β σ : Type}

/-- From `start` on, a success has passed as many tokens as its value asks for; and a failure is not
that a bound was reached. -/
def Outcome (start : Cursor) (least : α → Nat) : Except Fault (α × Cursor) → Prop
  | .ok (value, after) => start.Passes (least value) after
  | .error fault => fault ≠ .exhausted

/-- What a parser comes to at a cursor, from `start` on. -/
structure Proceeds (start : Cursor) (least : α → Nat) (parser : Parser α) (cursor : Cursor) : Prop where
  outcome : Outcome start least (parser cursor)

/-- With less than `limit` characters ahead, a parser passes as many tokens as its value asks for. -/
def Takes (least : α → Nat) (limit : Nat) (parser : Parser α) : Prop :=
  ∀ cursor : Cursor, cursor.Proper → cursor.weight < limit → Proceeds cursor least parser cursor

/-- With less than `limit` characters ahead, a parser passes `least` tokens or more. -/
abbrev Advances (least limit : Nat) (parser : Parser α) : Prop := Takes (fun _ => least) limit parser

/-- A round that is not the last passes a token. -/
def Next.least : Next σ α → Nat
  | .again _ => 1
  | .done _ => 0

/-- A cursor that has passed `count` tokens or more since `start`, where less than `limit` characters
were ahead. -/
structure Reached (start : Cursor) (limit count : Nat) (cursor : Cursor) : Prop where
  proper : start.Proper
  light : start.weight < limit
  passes : start.Passes count cursor

theorem Proceeds.of_eq {start cursor : Cursor} {least : α → Nat} {parser : Parser α}
    {result : Except Fault (α × Cursor)} (same : parser cursor = result)
    (outcome : Outcome start least result) : Proceeds start least parser cursor :=
  ⟨same ▸ outcome⟩

/-- The current token, which is known from here on. -/
theorem Proceeds.current {start cursor : Cursor} {least : β → Nat} {next : Token → Parser β}
    (rest : ∀ token, token = cursor.current → Proceeds start least (next token) cursor) :
    Proceeds start least (Parser.current >>= next) cursor :=
  ⟨(rest _ rfl).outcome⟩

theorem Proceeds.peek {start cursor : Cursor} {least : β → Nat} {offset : Nat} {next : Token → Parser β}
    (rest : ∀ token, Proceeds start least (next token) cursor) :
    Proceeds start least (Parser.peek offset >>= next) cursor :=
  ⟨(rest _).outcome⟩

theorem Proceeds.significant {start cursor : Cursor} {least : β → Nat} {offset : Nat}
    {next : Token → Parser β} (rest : ∀ token, Proceeds start least (next token) cursor) :
    Proceeds start least (Parser.significant offset >>= next) cursor :=
  ⟨(rest _).outcome⟩

theorem Proceeds.get {start cursor : Cursor} {least : β → Nat} {next : Cursor → Parser β}
    (rest : Proceeds start least (next cursor) cursor) :
    Proceeds start least (MonadState.get >>= next) cursor :=
  ⟨rest.outcome⟩

/-- Going back to a cursor. -/
theorem Proceeds.set {start cursor saved : Cursor} {least : β → Nat} {next : PUnit → Parser β}
    (rest : Proceeds start least (next ⟨⟩) saved) :
    Proceeds start least (MonadState.set saved >>= next) cursor :=
  ⟨rest.outcome⟩

/-- A result that does not depend on the cursor. -/
theorem Proceeds.lift {start cursor : Cursor} {least : β → Nat} {result : Except Fault α}
    {next : α → Parser β} (ends : Settled result)
    (rest : ∀ value, Proceeds start least (next value) cursor) :
    Proceeds start least ((liftM result : Parser α) >>= next) cursor := by
  cases result with
  | error fault => exact ⟨fun same => ends (congrArg _ same)⟩
  | ok value => exact ⟨(rest value).outcome⟩

/-- A fault of the text. -/
theorem Proceeds.throw {start cursor : Cursor} {least : β → Nat} {fault : Fault}
    (text : fault ≠ .exhausted) : Proceeds start least (MonadExcept.throw fault : Parser β) cursor :=
  ⟨text⟩

theorem Proceeds.unexpected {start cursor : Cursor} {least : β → Nat} (expected : String) :
    Proceeds start least (Parser.unexpected expected : Parser β) cursor :=
  ⟨nofun⟩

theorem Takes.of_reached {least : α → Nat} {limit : Nat} {parser : Parser α}
    (each : ∀ cursor, Reached cursor limit 0 cursor → Proceeds cursor least parser cursor) :
    Takes least limit parser :=
  fun cursor proper light => each cursor ⟨proper, light, .refl cursor⟩

theorem Takes.weaken {least fewer : α → Nat} {limit shorter : Nat} {parser : Parser α}
    (takes : Takes least limit parser) (enough : ∀ value, fewer value ≤ least value)
    (fits : shorter ≤ limit) : Takes fewer shorter parser := by
  intro cursor proper light
  have ends := (takes cursor proper (light.trans_le fits)).outcome
  rcases outcome : parser cursor with fault | ⟨value, after⟩
  all_goals
    rw [outcome] at ends
    refine ⟨?_⟩
    rw [outcome]
  · exact ends
  · exact Cursor.Passes.weaken ends (enough value)

namespace Reached

variable {start cursor : Cursor} {limit count : Nat} {least : β → Nat}
  (here : Reached start limit count cursor)

include here

theorem cursor_proper : cursor.Proper := here.passes.proper here.proper

theorem weight_lt : cursor.weight + count < limit :=
  (here.passes.weight_le here.proper).trans_lt here.light

theorem done {value : β} (enough : least value ≤ count) :
    Proceeds start least (pure value : Parser β) cursor :=
  ⟨here.passes.weaken enough⟩

/-- A parser as the next step. It needs room for the text that is left. -/
theorem step {asks : α → Nat} {room : Nat} {parser : Parser α} {next : α → Parser β}
    (first : Takes asks room parser) (fits : limit ≤ room + count)
    (rest : ∀ value after, Reached start limit count after → Reached start limit (asks value) after →
      Proceeds start least (next value) after) :
    Proceeds start least (parser >>= next) cursor := by
  have light : cursor.weight < room := by
    have left := here.weight_lt
    omega
  have ends := (first cursor here.cursor_proper light).outcome
  rcases outcome : parser cursor with fault | ⟨value, after⟩
  all_goals rw [outcome] at ends
  · exact .of_eq (bind_of_error outcome) ends
  · have passes : start.Passes (count + asks value) after := here.passes.trans ends
    refine .of_eq (bind_of_ok outcome) (rest _ _ ?_ ?_).outcome
    · exact ⟨here.proper, here.light, passes.weaken (Nat.le_add_right _ _)⟩
    · exact ⟨here.proper, here.light, passes.weaken (Nat.le_add_left _ _)⟩

/-- A step that may pass nothing. -/
theorem andThen {few room : Nat} {parser : Parser α} {next : α → Parser β}
    (first : Advances few room parser) (fits : limit ≤ room + count)
    (rest : ∀ value after, Reached start limit count after → Proceeds start least (next value) after) :
    Proceeds start least (parser >>= next) cursor :=
  here.step first fits fun value after behind _ => rest value after behind

/-- A step that passes a token. -/
theorem pass {room : Nat} {parser : Parser α} {next : α → Parser β}
    (first : Advances 1 room parser) (fits : limit ≤ room + count)
    (rest : ∀ value after, Reached start limit 1 after → Proceeds start least (next value) after) :
    Proceeds start least (parser >>= next) cursor :=
  here.step first fits fun value after _ behind => rest value after behind

/-- A parser as the last step. -/
theorem last {asks least : α → Nat} {room : Nat} {parser : Parser α} (takes : Takes asks room parser)
    (fits : limit ≤ room + count) (enough : ∀ value, least value ≤ count ∨ least value ≤ asks value) :
    Proceeds start least parser cursor := by
  rw [← bind_pure parser]
  refine here.step takes fits fun value after one other => ?_
  rcases enough value with few | few
  · exact one.done few
  · exact other.done few

/-- A parser that passes tokens if it likes, whatever is ahead. -/
theorem skip {parser : Parser α} {next : α → Parser β} (first : ∀ room, Advances 0 room parser)
    (rest : ∀ value after, Reached start limit count after → Proceeds start least (next value) after) :
    Proceeds start least (parser >>= next) cursor :=
  here.andThen (first limit) (Nat.le_add_right _ _) rest

/-- Passing a token that is not the end of input. -/
theorem advance {next : Unit → Parser β} (visible : cursor.current.kind ≠ .endOfInput) (more : Nat)
    (rest : ∀ after, Reached start limit 1 after → Proceeds start least (next ()) after) :
    Proceeds start least (Parser.advance (more + 1) >>= next) cursor := by
  have passes := here.passes.trans (.advance_one visible more)
  have behind := rest _ ⟨here.proper, here.light, passes.weaken (Nat.le_add_left _ _)⟩
  exact ⟨behind.outcome⟩

/-- Passing a token if it is of a kind. -/
theorem accept {kind : TokenKind} {next : Bool → Parser β} (visible : kind ≠ .endOfInput)
    (rest : ∀ found after, Reached start limit count after →
      (found = true → Reached start limit 1 after) → Proceeds start least (next found) after) :
    Proceeds start least (Parser.accept kind >>= next) cursor := by
  by_cases found : cursor.current.kind = kind
  · have passes := here.passes.trans (.advance_one (found ▸ visible) 0)
    refine .of_eq (bind_of_ok (accept_of_eq found)) (rest _ _ ?_ fun _ => ?_).outcome
    · exact ⟨here.proper, here.light, passes.weaken (Nat.le_add_right _ _)⟩
    · exact ⟨here.proper, here.light, passes.weaken (Nat.le_add_left _ _)⟩
  · exact .of_eq (bind_of_ok (accept_of_ne found)) (rest false _ here nofun).outcome

/-- Cutting tokens out. They are proper, and no more text than was ahead. -/
theorem take {number : Nat} {next : List Token → Parser β}
    (rest : ∀ tokens after, Reached start limit count after → (∀ token ∈ tokens, token.Proper) →
      (Lexer.spelled tokens).length < limit → Proceeds start least (next tokens) after) :
    Proceeds start least (Parser.take number >>= next) cursor := by
  have cut : Lexer.spelled cursor.ahead =
      Lexer.spelled (cursor.ahead.take number) ++ Lexer.spelled (cursor.ahead.drop number) := by
    rw [← Lexer.spelled_append, List.take_append_drop]
  have light : (Lexer.spelled (cursor.ahead.take number)).length < limit := by
    have left := here.weight_lt
    rw [Cursor.weight, cut, List.length_append] at left
    omega
  have behind := rest _ _ ⟨here.proper, here.light, here.passes.trans (.advance cursor number)⟩
    (fun token member => here.cursor_proper token (List.mem_of_mem_take member)) light
  exact ⟨behind.outcome⟩

end Reached

namespace Advances

variable {limit : Nat}

/-- A look at the cursor passes nothing. -/
theorem look {parser : Parser α} {value : Cursor → α}
    (looks : ∀ cursor, parser cursor = .ok (value cursor, cursor)) (room : Nat) :
    Advances 0 room parser := by
  intro cursor _ _
  exact .of_eq (looks cursor) (.refl cursor)

theorem significant (offset : Nat) : ∀ room, Advances 0 room (Parser.significant offset) :=
  look fun _ => rfl

theorem at_ (kind : TokenKind) : ∀ room, Advances 0 room (Parser.at_ kind) := look fun _ => rfl

theorem atWord (word : String) : ∀ room, Advances 0 room (Parser.atWord word) := look fun _ => rfl

theorem atEnd : ∀ room, Advances 0 room Parser.atEnd := look fun _ => rfl

theorem advance (count room : Nat) : Advances 0 room (Parser.advance count) :=
  fun cursor _ _ => ⟨.advance cursor count⟩

theorem skipTrivia (room : Nat) : Advances 0 room Parser.skipTrivia :=
  fun cursor _ _ => ⟨.advance cursor _⟩

theorem skipBlank (room : Nat) : Advances 0 room Parser.skipBlank :=
  fun cursor _ _ => ⟨.advance cursor _⟩

theorem acceptWord (word : String) (room : Nat) : Advances 0 room (Parser.acceptWord word) := by
  refine .of_reached fun cursor here => here.skip (atWord word) fun found cursor here => ?_
  split
  · refine here.skip (advance 1) fun _ cursor here => here.skip skipTrivia fun _ cursor here => ?_
    exact here.done (le_refl 0)
  · exact here.done (le_refl 0)

theorem expectAny {kinds : List TokenKind} (visible : .endOfInput ∉ kinds) (room : Nat) :
    Advances 1 room (Parser.expectAny kinds) := by
  intro cursor _ _
  unfold Parser.expectAny
  refine .get ?_
  rw [Cursor.expectAny]
  by_cases found : cursor.matchesAny kinds
  · rw [if_pos found]
    refine ⟨Cursor.Passes.advance_one (fun ended => visible ?_) 0⟩
    rw [← ended]
    simpa [Cursor.matchesAny] using found
  · rw [if_neg found]
    exact .throw (by simp)

theorem expect {kind : TokenKind} (visible : kind ≠ .endOfInput) (room : Nat) :
    Advances 1 room (Parser.expect kind) :=
  expectAny (by simpa using visible.symm) room

end Advances

/-- Passing a token that has to be of a kind. -/
theorem Reached.expect {start cursor : Cursor} {limit count : Nat} {least : β → Nat}
    (here : Reached start limit count cursor) {kind : TokenKind} {next : Token → Parser β}
    (visible : kind ≠ .endOfInput)
    (rest : ∀ token after, Reached start limit 1 after → Proceeds start least (next token) after) :
    Proceeds start least (Parser.expect kind >>= next) cursor :=
  here.pass (.expect visible limit) (Nat.le_add_right _ _) rest

namespace Advances

variable {limit : Nat}

/-- The rounds of a loop from one that is known. Each passes a token, so the bound is not reached. -/
theorem ends_loopWithin {step : σ → Parser (Next σ α)}
    (round : ∀ state, Takes Next.least limit (step state)) {asks : Next σ α → Nat} {least : Nat}
    (again : ∀ state, 1 ≤ asks (.again state)) (enough : ∀ next, least ≤ asks next)
    {bound : List Token} {state : σ} {cursor : Cursor} (proper : cursor.Proper)
    (light : cursor.weight < limit) (fits : cursor.ahead.length ≤ bound.length)
    (first : Proceeds cursor asks (step state) cursor) :
    Proceeds cursor (fun _ => least) (loopWithin step bound state) cursor := by
  induction bound generalizing asks least state cursor with
  | nil =>
    have first := first.outcome
    rcases outcome : step state cursor with fault | ⟨later | value, after⟩
    all_goals rw [outcome] at first
    · exact .of_eq (bind_of_error outcome) first
    · -- Without a token ahead, a round that is not the last has none to pass.
      obtain ⟨passed, some, cut⟩ := Cursor.Passes.ahead_eq first
      have one := again later
      rw [cut, List.length_append, List.length_nil] at fits
      omega
    · exact .of_eq (bind_of_ok outcome) (Cursor.Passes.weaken first (enough _))
  | cons token bound ih =>
    have first := first.outcome
    rcases outcome : step state cursor with fault | ⟨later | value, after⟩
    all_goals rw [outcome] at first
    · exact .of_eq (bind_of_error outcome) first
    · have passes : cursor.Passes (asks (.again later)) after := first
      have left : after.weight < limit := by
        have fewer := passes.weight_le proper
        omega
      have shorter : after.ahead.length ≤ bound.length := by
        obtain ⟨passed, some, cut⟩ := passes.ahead_eq
        have one := again later
        rw [cut, List.length_append, List.length_cons] at fits
        omega
      have behind : Proceeds after (fun _ => 0) (loopWithin step bound later) after := by
        refine ih ?_ ?_ (passes.proper proper) left shorter
          (round later after (passes.proper proper) left)
        · exact fun _ => le_refl 1
        · exact fun _ => Nat.zero_le _
      have behind := behind.outcome
      rcases rest : loopWithin step bound later after with fault | ⟨value, final⟩
      all_goals rw [rest] at behind
      · exact .of_eq ((loopWithin_again outcome).trans rest) behind
      · refine .of_eq ((loopWithin_again outcome).trans rest) ?_
        exact (passes.trans behind).weaken ((enough _).trans (Nat.le_add_right _ _))
    · exact .of_eq (bind_of_ok outcome) (Cursor.Passes.weaken first (enough _))

/-- A loop whose rounds pass tokens. -/
theorem loop {init : σ} {step : σ → Parser (Next σ α)}
    (round : ∀ state, Takes Next.least limit (step state)) : Advances 0 limit (Parser.loop init step) := by
  intro cursor proper light
  refine .of_eq (loop_apply init step) (Proceeds.outcome ?_)
  exact ends_loopWithin round (fun _ => le_refl 1) (fun _ => Nat.zero_le _) proper light (le_refl _)
    (round init cursor proper light)

/-- A parser over tokens of their own. -/
theorem settled_run {least : Nat} {parser : Parser α} (advances : Advances least limit parser)
    {cursor : Cursor} (proper : cursor.Proper) (light : cursor.weight < limit) :
    Settled (parser.run' cursor) := by
  have ends := (advances cursor proper light).outcome
  change Settled (Prod.fst <$> parser cursor)
  rcases outcome : parser cursor with fault | ⟨value, after⟩
  all_goals rw [outcome] at ends
  · exact fun same => ends (Except.error.inj same)
  · exact nofun

/-- A parser over tokens that were cut out. -/
theorem settled_onTokens {least : Nat} {parser : Parser α} (advances : Advances least limit parser)
    {tokens : List Token} (proper : ∀ token ∈ tokens, token.Proper)
    (light : (Lexer.spelled tokens).length < limit) : Settled (Parser.onTokens parser tokens) := by
  have ahead := Cursor.ahead_ofTokens fun token member => (proper token member).1
  refine advances.settled_run ?_ ?_
  · rwa [Cursor.Proper, ahead]
  · rwa [Cursor.weight, ahead]

end Advances

end Parser

namespace Lexer.Tiling

variable {position : Position} {text : List Char} {tokens : List Token}

/-- A cursor over the tokens of a text has the whole text ahead. -/
theorem cursor (tiling : Tiling position text tokens) :
    (Cursor.ofTokens tokens).Proper ∧ (Cursor.ofTokens tokens).weight = text.length ∧
      (Cursor.ofTokens tokens).tokens = tokens := by
  obtain ⟨others, last, rfl, ends, empty, proper⟩ := tiling.last_eq
  have same : Cursor.ofTokens (others ++ [last]) = ⟨[], others, last, ends⟩ := by
    simp [Cursor.ofTokens, ends]
  have spelled := tiling.spelled_eq
  rw [spelled_append] at spelled
  rw [same]
  refine ⟨proper, ?_, rfl⟩
  rw [← spelled, List.length_append]
  simp [Cursor.weight, Lexer.spelled, empty]

end Lexer.Tiling

namespace Quoted

theorem mem_of_mem_pushChar {c : Char} {pieces : List Piece} {text : List Char} {offset : Nat}
    (member : .body text offset ∈ pushChar c pieces) : .body text offset ∈ pieces := by
  unfold pushChar at member
  split at member <;> simpa using member

/-- What is embedded in a text is shorter than the text. -/
theorem body_shorter {start skip : Nat} {content text : List Char} {offset : Nat}
    (member : .body text offset ∈ (piecesFrom start skip content).1) : text.length < content.length := by
  induction start, skip, content using piecesFrom.induct with
  | case1 => simp [piecesFrom] at member
  | case2 start skip c rest ih =>
    rw [piecesFrom] at member
    exact (ih member).trans (Nat.lt_succ_self _)
  | case3 start d more pieces unclosed cut ih =>
    rw [cut] at ih
    rw [piecesFrom, cut] at member
    have inside := ih (mem_of_mem_pushChar (mem_of_mem_pushChar member))
    simp only [List.length_cons]
    omega
  | case4 start more unclosed =>
    rw [piecesFrom, unclosed] at member
    cases member
  | case5 start more length found pieces unclosed cut ih =>
    rw [cut] at ih
    rw [piecesFrom, found] at member
    dsimp only at member
    rw [cut] at member
    rcases List.mem_cons.mp member with own | later
    · cases own
      simp only [List.length_take, List.length_cons]
      omega
    · exact (ih later).trans (Nat.lt_succ_self _)
  | case6 start c rest plain other pieces unclosed cut ih =>
    rw [cut] at ih
    rw [piecesFrom, cut] at member
    · exact (ih (mem_of_mem_pushChar member)).trans (Nat.lt_succ_self _)
    · exact plain
    · exact other

end Quoted

namespace Grammar

open Scss.Parser (Advances Takes Reached Proceeds)

theorem advances_atEllipsis : ∀ room, Advances 0 room atEllipsis := Advances.look fun _ => rfl

theorem advances_complete {least limit : Nat} {expression : Parser Expr}
    (advances : Advances least limit expression) : Advances least limit (complete expression) := by
  refine .of_reached fun cursor here => here.skip Advances.skipTrivia fun _ cursor here => ?_
  refine here.step advances (le_refl _) fun expr cursor _ here => ?_
  refine here.skip Advances.skipTrivia fun _ cursor here => ?_
  refine here.skip Advances.atEnd fun ended cursor here => ?_
  split
  · exact here.done (le_refl _)
  · exact .unexpected _

/-- The inside of a string is read, whatever its own texts come to. -/
theorem settled_quoted {self : Self} {depth : Nat} (inner : Advances 1 depth (self .comma))
    {content : String} (short : content.toList.length ≤ depth) (position : Position) :
    Settled (quoted self content position) := by
  unfold quoted Quoted.template
  refine Settled.bind (.mapM fun piece member => ?_) fun parts => ?_
  · cases piece with
    | literal text => exact nofun
    | body text offset =>
      have shorter : text.length < depth := (Quoted.body_shorter member).trans_le short
      rw [Quoted.readPiece]
      split
      · exact nofun
      · rename_i tokens lexed
        obtain ⟨proper, weight, -⟩ := (Lexer.tiling_of_tokensAt lexed).cursor
        refine Settled.bind ?_ fun _ => nofun
        exact (advances_complete inner).settled_run proper (weight ▸ shorter)
  · split <;> exact nofun

/-- So is the inside of a token that is ahead. -/
theorem settled_inside {self : Self} {depth : Nat} (inner : Advances 1 depth (self .comma))
    {start cursor : Cursor} (here : Reached start (depth + 1) 0 cursor) {token : Token}
    (same : token = cursor.current) (visible : token.kind ≠ .endOfInput) {content : String}
    (inside : content.toList.length ≤ token.text.toList.length) (position : Position) :
    Settled (quoted self content position) := by
  have ahead := Lexer.text_le_spelled (Cursor.current_mem_ahead same.symm visible)
  have light : (Lexer.spelled cursor.ahead).length < depth + 1 := here.weight_lt
  exact settled_quoted inner (by omega) position

theorem content_le (token : Token) : token.content.toList.length ≤ token.text.toList.length := by
  simp only [Token.content, Text.interior, String.toList_ofList, List.length_dropLast,
    List.length_tail]
  omega

section Expressions

variable {self : Self} {depth : Nat} (inner : ∀ form, Advances 1 depth (self form))

include inner

theorem advances_embedded : Advances 1 (depth + 1) (embedded self) := by
  refine .of_reached fun cursor here => here.expect (by decide) fun _ cursor here => ?_
  refine here.skip Advances.skipTrivia fun _ cursor here => ?_
  refine here.pass (inner .comma) (le_refl _) fun expr cursor here => ?_
  refine here.skip Advances.skipTrivia fun _ cursor here => ?_
  exact here.expect (by decide) fun _ cursor here => here.done (le_refl 1)

theorem advances_callArgument : Advances 1 depth (callArgument self) := by
  refine .of_reached fun start here => .current fun first _ => ?_
  refine here.skip (Advances.significant 1) fun second cursor here => ?_
  have ending {cursor : Cursor} (here : Reached start depth 0 cursor) (name : Option String) :
      Proceeds start (fun _ => 1) (do
        let value ← self .space
        Parser.skipTrivia
        let rest ← atEllipsis
        if rest then do
          Parser.advance 3
          Parser.skipTrivia
          let more ← Parser.accept .comma
          pure ((⟨name, value, rest⟩, more) : Argument Expr × Bool)
        else do
          let more ← Parser.accept .comma
          pure (⟨name, value, rest⟩, more)) cursor := by
    refine here.pass (inner .space) (le_refl _) fun value cursor here => ?_
    refine here.skip Advances.skipTrivia fun _ cursor here => ?_
    refine here.skip advances_atEllipsis fun rest cursor here => ?_
    split
    · refine here.skip (Advances.advance 3) fun _ cursor here => ?_
      refine here.skip Advances.skipTrivia fun _ cursor here => ?_
      exact here.accept (by decide) fun _ cursor here _ => here.done (le_refl 1)
    · exact here.accept (by decide) fun _ cursor here _ => here.done (le_refl 1)
  dsimp only
  split
  · refine here.skip (Advances.advance 1) fun _ cursor here => ?_
    refine here.skip Advances.skipTrivia fun _ cursor here => ?_
    refine here.skip (fun room => (Advances.expect (by decide) room).weaken (fun _ => Nat.zero_le 1)
      (le_refl _)) fun _ cursor here => ?_
    exact here.skip Advances.skipTrivia fun _ cursor here => ending here _
  · exact ending here _

theorem advances_callArguments : Advances 1 (depth + 1) (callArguments self) := by
  refine .of_reached fun cursor here => here.expect (by decide) fun _ cursor here => ?_
  refine here.last (Advances.loop fun args => ?_) (le_refl _) fun _ => .inl (le_refl 1)
  refine .of_reached fun cursor here => here.skip Advances.skipTrivia fun _ cursor here => ?_
  refine here.accept (by decide) fun closed cursor here _ => ?_
  split
  · exact here.done (le_refl 0)
  · refine here.pass (advances_callArgument inner) (le_refl _) fun result cursor here => ?_
    dsimp only
    split
    · exact here.done (le_refl 1)
    · exact here.expect (by decide) fun _ cursor here => here.done (Nat.zero_le _)

/-- The first round takes the text or the expression that the name starts with. -/
theorem ends_interpolatedName {cursor : Cursor} (here : Reached cursor (depth + 1) 0 cursor)
    (opens : cursor.current.kind = .ident ∨ cursor.current.kind = .interpolation) :
    Proceeds cursor (fun _ => 1) (interpolatedName self) cursor := by
  refine .current fun first _ => ?_
  refine .of_eq (Parser.loop_apply _ _) (Proceeds.outcome ?_)
  refine Advances.ends_loopWithin (fun state => ?_) (fun _ => le_refl 1) (fun _ => le_refl 1)
    here.proper here.light (le_refl _) ?_
  · refine .of_reached fun cursor here => .current fun token same => ?_
    split
    · rename_i word
      split
      · refine here.advance ?_ 0 fun cursor here => here.done (le_refl 1)
        rw [← same, word]
        decide
      · exact here.done (le_refl 0)
    · exact here.pass (advances_embedded inner) (le_refl _) fun expr cursor here => here.done (le_refl 1)
    · rename_i hyphen
      rw [same] at hyphen
      refine .peek fun next => ?_
      split
      · refine here.advance ?_ 0 fun cursor here => here.done (le_refl 1)
        rw [hyphen]
        decide
      · exact here.done (le_refl 0)
    · exact here.done (le_refl 0)
  · refine .current fun token same => ?_
    rw [← same] at opens
    split
    · rename_i word
      refine here.advance ?_ 0 fun cursor here => here.done (le_refl 1)
      rw [← same, word]
      decide
    · exact here.pass (advances_embedded inner) (le_refl _) fun expr cursor here => here.done (le_refl 1)
    · simp_all
    · simp_all

theorem ends_identifierValue {cursor : Cursor} (here : Reached cursor (depth + 1) 0 cursor)
    (word : cursor.current.kind = .ident) :
    Proceeds cursor (fun _ => 1) (identifierValue self) cursor := by
  have visible : cursor.current.kind ≠ .endOfInput := by simp [word]
  refine .current fun token _ => .peek fun next => .peek fun second => ?_
  have call {after : Cursor} (here : Reached cursor (depth + 1) 1 after) (qualifier : Option String)
      (name : String) : Proceeds cursor (fun _ => 1)
        (do return Expr.call qualifier name (← callArguments self) token.line) after :=
    here.pass (advances_callArguments inner) (Nat.le_add_right _ _)
      fun args cursor here => here.done (le_refl 1)
  split
  · exact here.advance visible 0 fun cursor here => call here _ _
  · split
    · exact here.advance visible 2 fun cursor here => here.done (le_refl 1)
    · refine .peek fun third => ?_
      split
      · exact here.advance visible 2 fun cursor here => call here _ _
      · split
        · exact ends_interpolatedName inner here (.inl word)
        · exact here.advance visible 0 fun cursor here => here.done (le_refl 1)

theorem advances_mapRest (firstKey : Expr) (line : Nat) :
    Advances 0 depth (mapRest self firstKey line) := by
  refine .of_reached fun cursor here => here.skip Advances.skipTrivia fun _ cursor here => ?_
  refine here.andThen (inner .space) (le_refl _) fun firstValue cursor here => ?_
  refine here.andThen (Advances.loop fun pairs => ?_) (le_refl _) fun pairs cursor here => ?_
  · refine .of_reached fun cursor here => here.skip Advances.skipTrivia fun _ cursor here => ?_
    refine here.accept (by decide) fun more cursor here _ => ?_
    split
    · exact here.done (le_refl 0)
    · refine here.skip Advances.skipTrivia fun _ cursor here => ?_
      refine here.skip (Advances.at_ _) fun closes cursor here => ?_
      split
      · exact here.done (le_refl 0)
      · refine here.pass (inner .space) (le_refl _) fun key cursor here => ?_
        refine here.skip Advances.skipTrivia fun _ cursor here => ?_
        refine here.expect (by decide) fun _ cursor here => ?_
        refine here.skip Advances.skipTrivia fun _ cursor here => ?_
        exact here.pass (inner .space) (Nat.le_add_right _ _)
          fun value cursor here => here.done (le_refl 1)
  · exact here.expect (by decide) fun _ cursor here => here.done (Nat.zero_le _)

theorem advances_parenRest (first : Expr) : Advances 0 depth (parenRest self first) := by
  refine Advances.loop fun state => .of_reached fun cursor here => ?_
  refine here.accept (by decide) fun more cursor here _ => ?_
  split
  · exact here.done (le_refl 0)
  · refine here.skip Advances.skipTrivia fun _ cursor here => ?_
    refine here.skip (Advances.at_ _) fun closes cursor here => ?_
    split
    · exact here.done (le_refl 0)
    · refine here.pass (inner .space) (le_refl _) fun item cursor here => ?_
      exact here.skip Advances.skipTrivia fun _ cursor here => here.done (le_refl 1)

theorem advances_parenthesized : Advances 1 (depth + 1) (parenthesized self) := by
  refine .of_reached fun cursor here => here.expect (by decide) fun opening cursor here => ?_
  refine here.skip Advances.skipTrivia fun _ cursor here => ?_
  refine here.accept (by decide) fun closed cursor here _ => ?_
  split
  · exact here.done (le_refl 1)
  · refine here.pass (inner .space) (le_refl _) fun first cursor here => ?_
    refine here.skip Advances.skipTrivia fun _ cursor here => ?_
    refine here.accept (by decide) fun keyed cursor here _ => ?_
    split
    · exact here.last (advances_mapRest inner _ _) (le_refl _) fun _ => .inl (le_refl 1)
    · refine here.andThen (advances_parenRest inner first) (le_refl _) fun result cursor here => ?_
      exact here.expect (by decide) fun _ cursor here => here.done (le_refl 1)

theorem advances_bracketed : Advances 1 (depth + 1) (bracketed self) := by
  refine .of_reached fun cursor here => here.expect (by decide) fun opening cursor here => ?_
  refine here.skip Advances.skipTrivia fun _ cursor here => ?_
  refine here.accept (by decide) fun closed cursor here _ => ?_
  split
  · exact here.done (le_refl 1)
  · refine here.pass (inner .comma) (le_refl _) fun content cursor here => ?_
    refine here.skip Advances.skipTrivia fun _ cursor here => ?_
    refine here.expect (by decide) fun _ cursor here => ?_
    split <;> exact here.done (le_refl 1)

theorem advances_primary : Advances 1 (depth + 1) (primary self) := by
  refine .of_reached fun cursor here => .current fun token same => ?_
  have passing {kind : TokenKind} (known : token.kind = kind) (visible : kind ≠ .endOfInput)
      {next : Unit → Parser Expr}
      (rest : ∀ after, Reached cursor (depth + 1) 1 after → Proceeds cursor (fun _ => 1) (next ()) after) :
      Proceeds cursor (fun _ => 1) (Parser.advance 1 >>= next) cursor :=
    here.advance (by rwa [← same, known]) 0 rest
  split
  · refine passing ‹_› (by decide) fun cursor here => ?_
    split
    · exact here.done (le_refl 1)
    · exact .throw nofun
  · rename_i text
    refine passing text (by decide) fun cursor after => .lift ?_ fun value => after.done (le_refl 1)
    exact settled_inside (inner .comma) here same (by simp [text]) (content_le token) _
  · split
    · exact .throw nofun
    · exact passing ‹_› (by decide) fun cursor here => here.done (le_refl 1)
  · exact passing ‹_› (by decide) fun cursor here => here.done (le_refl 1)
  · rename_i address
    refine passing address (by decide) fun cursor after => ?_
    split
    · rename_i content found
      refine .lift ?_ fun value => after.done (le_refl 1)
      have inside := (Token.infix_of_urlContent? found).length_le
      exact settled_inside (inner .comma) here same (by simp [address]) inside _
    · exact .throw nofun
  · exact passing ‹_› (by decide) fun cursor here => here.done (le_refl 1)
  · split
    · exact passing ‹_› (by decide) fun cursor here => here.done (le_refl 1)
    · exact .unexpected _
  · exact advances_parenthesized inner cursor here.proper here.light
  · exact advances_bracketed inner cursor here.proper here.light
  · exact ends_interpolatedName inner here (.inr (same ▸ ‹_›))
  · exact ends_identifierValue inner here (same ▸ ‹_›)
  · exact .unexpected _

theorem advances_unary : Advances 1 (depth + 1) (unary self) := by
  refine .of_reached fun cursor here => .current fun token same => ?_
  have operand {next : Expr → Expr} (visible : cursor.current.kind ≠ .endOfInput) :
      Proceeds cursor (fun _ => 1) (do
        Parser.advance 1
        Parser.skipTrivia
        let operand ← self .unary
        return next operand) cursor := by
    refine here.advance visible 0 fun cursor here => ?_
    refine here.skip Advances.skipTrivia fun _ cursor here => ?_
    exact here.pass (inner .unary) (le_refl _) fun operand cursor here => here.done (le_refl 1)
  split
  · rename_i sign
    refine operand fun ended => ?_
    rw [← same] at ended
    simp [ended] at sign
  · refine .peek fun next => ?_
    split
    · rename_i negation
      refine operand fun ended => ?_
      rw [← same] at ended
      simp [Token.isWord, ended] at negation
    · exact advances_primary inner cursor here.proper here.light

omit inner in
theorem advances_leftAssociative {limit : Nat} {operand : Parser Expr}
    {operator : Parser (Option BinaryOp)} (operands : Advances 1 limit operand)
    (operators : ∀ room, Advances 0 room operator) :
    Advances 1 limit (leftAssociative operand operator) := by
  refine .of_reached fun cursor here => ?_
  refine here.pass operands (le_refl _) fun first cursor here => ?_
  refine here.last (Advances.loop fun left => ?_) (Nat.le_add_right _ _) fun _ => .inl (le_refl 1)
  refine .of_reached fun cursor here => here.skip operators fun found cursor here => ?_
  cases found with
  | none => exact here.done (le_refl 0)
  | some op =>
    exact here.pass operands (le_refl _) fun right cursor here => here.done (le_refl 1)

omit inner in
theorem advances_operatorByKind (table : TokenKind → Option BinaryOp) (room : Nat) :
    Advances 0 room (operatorByKind table) := by
  refine .of_reached fun saved before => .get ?_
  refine before.skip Advances.skipTrivia fun _ cursor here => .current fun token _ => ?_
  split
  · exact .set (before.done (le_refl 0))
  · refine here.skip (Advances.advance 1) fun _ cursor here => ?_
    exact here.skip Advances.skipTrivia fun _ cursor here => here.done (le_refl 0)

omit inner in
theorem advances_sumOperator (room : Nat) : Advances 0 room sumOperator := by
  refine .of_reached fun saved before => .get ?_
  refine before.skip Advances.skipTrivia fun _ cursor here => .current fun token _ => ?_
  split
  · exact .set (before.done (le_refl 0))
  · refine .peek fun next => ?_
    split
    · exact .set (before.done (le_refl 0))
    · refine here.skip (Advances.advance 1) fun _ cursor here => ?_
      exact here.skip Advances.skipTrivia fun _ cursor here => here.done (le_refl 0)

omit inner in
theorem advances_wordOperator (word : String) (op : BinaryOp) (room : Nat) :
    Advances 0 room (wordOperator word op) := by
  refine .of_reached fun cursor here => .significant fun token => ?_
  split
  · refine here.skip Advances.skipTrivia fun _ cursor here => ?_
    refine here.skip (Advances.advance 1) fun _ cursor here => ?_
    exact here.skip Advances.skipTrivia fun _ cursor here => here.done (le_refl 0)
  · exact here.done (le_refl 0)

theorem advances_product : Advances 1 (depth + 1) (product self) :=
  advances_leftAssociative (advances_unary inner) (advances_operatorByKind productOp)

theorem advances_sum : Advances 1 (depth + 1) (sum self) :=
  advances_leftAssociative (advances_product inner) advances_sumOperator

theorem advances_comparison : Advances 1 (depth + 1) (comparison self) :=
  advances_leftAssociative (advances_sum inner) (advances_operatorByKind comparisonOp)

theorem advances_conjunction : Advances 1 (depth + 1) (conjunction self) :=
  advances_leftAssociative (advances_comparison inner) (advances_wordOperator "and" .and)

theorem advances_disjunction : Advances 1 (depth + 1) (disjunction self) :=
  advances_leftAssociative (advances_conjunction inner) (advances_wordOperator "or" .or)

theorem advances_spaceList (stops : List String) : Advances 1 (depth + 1) (spaceList self stops) := by
  have member := advances_disjunction inner
  refine .of_reached fun cursor here => .current fun token _ => ?_
  refine here.pass member (le_refl _) fun first cursor here => ?_
  refine here.last (Advances.loop fun others => ?_) (Nat.le_add_right _ _) fun _ => .inl (le_refl 1)
  refine .of_reached fun saved before => .get ?_
  refine before.skip Advances.skipTrivia fun _ cursor here => .current fun next _ => ?_
  split
  · exact here.pass member (le_refl _) fun item cursor here => here.done (le_refl 1)
  · refine .set ?_
    split <;> exact before.done (le_refl 0)

theorem advances_commaList (stops : List String) : Advances 1 (depth + 1) (commaList self stops) := by
  have member := advances_spaceList inner stops
  refine .of_reached fun cursor here => .current fun token _ => ?_
  refine here.pass member (le_refl _) fun first cursor here => ?_
  refine here.last (Advances.loop fun state => ?_) (Nat.le_add_right _ _) fun _ => .inl (le_refl 1)
  refine .of_reached fun saved before => .get ?_
  refine before.skip Advances.skipTrivia fun _ cursor here => ?_
  refine here.accept (by decide) fun comma cursor here _ => ?_
  split
  · refine here.skip Advances.skipTrivia fun _ cursor here => .current fun next _ => ?_
    split
    · exact here.pass member (le_refl _) fun item cursor here => here.done (le_refl 1)
    · exact here.done (le_refl 0)
  · refine .set ?_
    split <;> exact before.done (le_refl 0)

theorem advances_parameters : Advances 1 (depth + 1) (parameters self) := by
  refine .of_reached fun cursor here => here.expect (by decide) fun _ cursor here => ?_
  refine here.last (Advances.loop fun list => ?_) (le_refl _) fun _ => .inl (le_refl 1)
  refine .of_reached fun start here => here.skip Advances.skipTrivia fun _ cursor here => ?_
  refine here.accept (by decide) fun closed cursor here _ => ?_
  dsimp only
  split
  · exact here.done (le_refl 0)
  · refine here.expect (by decide) fun token cursor here => ?_
    refine here.skip Advances.skipTrivia fun _ cursor here => ?_
    refine here.skip advances_atEllipsis fun rest cursor here => ?_
    have ending {cursor : Cursor} (here : Reached start depth 1 cursor) (default : Option Expr) :
        Proceeds start Parser.Next.least (do
          Parser.skipTrivia
          if ← Parser.accept .comma then
            return .again { list with params := list.params ++ [⟨token.name, default⟩] }
          else
            let _ ← Parser.expect .rightParen
            return .done { list with params := list.params ++ [⟨token.name, default⟩] } :
          Parser (Parser.Next Parameters Parameters)) cursor := by
      refine here.skip Advances.skipTrivia fun _ cursor here => ?_
      refine here.accept (by decide) fun more cursor here _ => ?_
      split
      · exact here.done (le_refl 1)
      · exact here.expect (by decide) fun _ cursor here => here.done (Nat.zero_le _)
    split
    · refine here.skip (Advances.advance 3) fun _ cursor here => ?_
      refine here.skip Advances.skipTrivia fun _ cursor here => ?_
      exact here.accept (by decide) fun _ cursor here _ => here.done (le_refl 1)
    · refine here.accept (by decide) fun given cursor here _ => ?_
      split
      · refine here.skip Advances.skipTrivia fun _ cursor here => ?_
        exact here.pass (inner .space) (Nat.le_add_right _ _) fun value cursor here => ending here _
      · exact ending here _

end Expressions

/-- The bound on the depth is not reached with less text ahead. -/
theorem advances_expressions (depth : Nat) (form : Form) :
    Advances 1 depth (Form.parser depth form) := by
  induction depth generalizing form with
  | zero => exact fun cursor _ light => absurd light (Nat.not_lt_zero _)
  | succ depth ih =>
    cases form with
    | comma => exact advances_commaList ih []
    | space => exact advances_spaceList ih []
    | unary => exact advances_unary ih

end Grammar

end Scss
