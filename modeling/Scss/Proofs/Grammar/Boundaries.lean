import Scss.Proofs.Grammar.Twins

/-! Where a declaration's name ends. Looking ahead, the end is found by a list of what is open; reading,
by a count of brackets and by the grammar of embedded expressions. The two agree, because what an
expression has passed is well nested. -/
namespace Scss

open Placed (unplaced)

namespace Parser

variable {α β σ : Type} {cursor : Cursor} {post : β → Cursor → Prop}

/-- What holds of the value and the cursor of a success. -/
def Leaves (parser : Parser α) (cursor : Cursor) (post : α → Cursor → Prop) : Prop :=
  ∀ value after, parser cursor = .ok (value, after) → post value after

namespace Leaves

theorem pure {value : β} (holds : post value cursor) : Leaves (Pure.pure value) cursor post := by
  intro _ _ read
  cases read
  exact holds

theorem bind {middle : α → Cursor → Prop} {parser : Parser α} {next : α → Parser β}
    (first : Leaves parser cursor middle)
    (second : ∀ value between, middle value between → Leaves (next value) between post) :
    Leaves (parser >>= next) cursor post := by
  intro value after read
  change (parser cursor >>= fun result => next result.1 result.2) = _ at read
  rcases run : parser cursor with fault | ⟨inner, between⟩
  · rw [run] at read
    cases read
  · rw [run] at read
    exact second inner between (first inner between run) value after read

theorem current {next : Token → Parser β} (rest : Leaves (next cursor.current) cursor post) :
    Leaves (Parser.current >>= next) cursor post := rest

theorem advance {count : Nat} {next : Unit → Parser β}
    (rest : Leaves (next ()) (cursor.advance count) post) :
    Leaves (Parser.advance count >>= next) cursor post := rest

/-- A result that does not depend on the cursor. -/
theorem lift {result : Except Fault α} {next : α → Parser β}
    (rest : ∀ value, Leaves (next value) cursor post) :
    Leaves ((liftM result : Parser α) >>= next) cursor post := by
  cases result with
  | error fault => exact nofun
  | ok value => exact rest value

theorem expect {kind : TokenKind} {next : Token → Parser β}
    (rest : cursor.current.kind = kind → Leaves (next cursor.current) (cursor.advance 1) post) :
    Leaves (Parser.expect kind >>= next) cursor post := by
  intro value after read
  by_cases found : cursor.current.kind = kind
  · rw [bind_of_ok (expect_of_eq found)] at read
    exact rest found value after read
  · obtain ⟨fault, failed⟩ := expect_of_ne found
    rw [bind_of_error failed] at read
    cases read

/-- What each round keeps of the state and the cursor, until the last comes to what is asked. -/
theorem loop (inv : σ → Cursor → Prop) {step : σ → Parser (Next σ β)} {init : σ}
    (round : ∀ state cursor, inv state cursor → Leaves (step state) cursor fun next after =>
      match next with
      | .again later => inv later after
      | .done value => post value after)
    (start : inv init cursor) : Leaves (Parser.loop init step) cursor post := by
  have rounds (bound : List Token) : Leaves (loopWithin step bound init) cursor post := by
    induction bound generalizing init cursor with
    | nil =>
      rw [loopWithin]
      refine (round init cursor start).bind fun next between holds => ?_
      cases next with
      | again later =>
        intro value after read
        cases read
      | done value => exact .pure holds
    | cons token bound ih =>
      rw [loopWithin]
      refine (round init cursor start).bind fun next between holds => ?_
      cases next with
      | again later => exact ih holds
      | done value => exact .pure holds
  exact rounds cursor.ahead

end Leaves

/-- A parser that passes well-nested rows only. -/
def Nested (parser : Parser α) : Prop :=
  ∀ cursor, Leaves parser cursor fun _ after => ∃ passed, cursor.ahead = passed ++ after.ahead ∧
    after = cursor.advance passed.length ∧ WellNested passed

theorem Twins.nested [Placed α] {moves : Bool} {parser : Parser α}
    (twins : Twins [] (.always moves []) parser parser) : Nested parser := by
  intro cursor value after read
  have both := (twins cursor cursor (Scss.Alike.refl _)).outcome
  rw [read] at both
  obtain ⟨arrives⟩ := both
  obtain ⟨row, rest, cut, awaits, -⟩ := arrives.leads
  exact ⟨row, cut, rest, awaits.wellNested⟩

theorem nested_skipTrivia : Nested skipTrivia := by
  intro cursor _ after read
  rw [skipTrivia_apply] at read
  cases read
  obtain ⟨row, rest, cut, awaits, -⟩ := Cursor.Leads.skipTrivia cursor []
  exact ⟨row, cut, rest, awaits.wellNested⟩

end Parser

namespace Grammar

open Scss.Parser (Twins Nested Leaves)

/-- What is open behind a token, with what is open before it, innermost first. -/
def openBehind (opened : List TokenKind) (kind : TokenKind) : List TokenKind :=
  match kind with
  | .leftParen | .leftBracket | .interpolation => kind :: opened
  | .rightParen | .rightBracket => opened.tail
  | .rightBrace => if opened.head? = some .interpolation then opened.tail else opened
  | _ => opened

theorem scanFrom_cons (stops opened : List TokenKind) (token : Token) (rest : List Token) :
    scanFrom stops opened (token :: rest) =
      if token.kind = .endOfInput || (opened.isEmpty && stops.contains token.kind) then 0
      else scanFrom stops (openBehind opened token.kind) rest + 1 := rfl

theorem openBehind_plain {kind : TokenKind} (plain : kind.isPlain = true) (opened : List TokenKind) :
    openBehind opened kind = opened := by
  cases kind <;> first | rfl | cases plain

theorem openBehind_opening {kind closer : TokenKind} (closes : kind.closer? = some closer)
    (opened : List TokenKind) : openBehind opened kind = kind :: opened := by
  cases kind <;> first | rfl | cases closes

theorem openBehind_closing {kind closer : TokenKind} (closes : kind.closer? = some closer)
    (opened : List TokenKind) : openBehind (kind :: opened) closer = opened := by
  cases kind <;> cases closes <;> rfl

theorem closes_proper {kind closer : TokenKind} (closes : kind.closer? = some closer) :
    kind ≠ .endOfInput ∧ closer ≠ .endOfInput := by
  cases kind <;> cases closes <;> exact ⟨nofun, nofun⟩

/-- A token that does not end the scan. -/
theorem scanFrom_pass {stops opened : List TokenKind} {token : Token} {rest : List Token}
    (proper : token.kind ≠ .endOfInput) (goes : opened = [] → token.kind ∉ stops) :
    scanFrom stops opened (token :: rest) = scanFrom stops (openBehind opened token.kind) rest + 1 := by
  rw [scanFrom_cons, if_neg]
  cases opened with
  | nil => simpa [proper] using goes rfl
  | cons first outer => simp [proper]

theorem scanFrom_inside {stops opened : List TokenKind} {token : Token} {rest : List Token}
    (proper : token.kind ≠ .endOfInput) (inside : opened ≠ []) :
    scanFrom stops opened (token :: rest) = scanFrom stops (openBehind opened token.kind) rest + 1 :=
  scanFrom_pass proper fun none => absurd none inside

/-- Where something is open, a well-nested row holds no end. -/
theorem scanFrom_nested {row : List Token} (nested : WellNested row) (stops : List TokenKind)
    {opened : List TokenKind} (inside : opened ≠ []) (rest : List Token) :
    scanFrom stops opened (row ++ rest) = scanFrom stops opened rest + row.length := by
  induction nested generalizing opened rest with
  | nil => rfl
  | @plain token row plain _ ih =>
    have proper : token.kind ≠ .endOfInput := fun ends => by simp [ends, TokenKind.isPlain] at plain
    rw [List.cons_append, scanFrom_inside proper inside, openBehind_plain plain, ih inside]
    rfl
  | @pair opening closing inner row closes _ _ one other =>
    have shape : (opening :: inner ++ closing :: row) ++ rest =
        opening :: (inner ++ closing :: (row ++ rest)) := by simp
    obtain ⟨starts, ends⟩ := closes_proper closes
    rw [shape, scanFrom_inside starts inside, openBehind_opening closes, one (List.cons_ne_nil _ _),
      scanFrom_inside ends (List.cons_ne_nil _ _), openBehind_closing closes, other inside]
    simp only [List.length_cons, List.length_append]
    omega

theorem scanFrom_end {stops opened : List TokenKind} {cursor : Cursor}
    (ends : cursor.current.kind = .endOfInput ∨ (opened = [] ∧ cursor.current.kind ∈ stops)) :
    scanFrom stops opened cursor.ahead = 0 := by
  cases ahead : cursor.ahead with
  | nil => rfl
  | cons token rest =>
    rw [Cursor.current_of_cons ahead] at ends
    rw [scanFrom_cons, if_pos]
    simpa using ends

/-- Reading comes from one cursor to another as scanning does: what is left to the end behind the way
is less by its length. -/
def Continues (stops opened : List TokenKind) (cursor : Cursor) (still : List TokenKind)
    (after : Cursor) : Prop :=
  ∃ count, after = cursor.advance count ∧
    scanFrom stops opened cursor.ahead = scanFrom stops still after.ahead + count

namespace Continues

variable {stops opened still : List TokenKind} {cursor middle after : Cursor}

theorem refl (stops opened : List TokenKind) (cursor : Cursor) :
    Continues stops opened cursor opened cursor := ⟨0, rfl, rfl⟩

theorem trans {further : List TokenKind} (first : Continues stops opened cursor still middle)
    (second : Continues stops still middle further after) :
    Continues stops opened cursor further after := by
  obtain ⟨count, rfl, scan⟩ := first
  obtain ⟨more, rfl, rest⟩ := second
  exact ⟨count + more, cursor.advance_advance count more, by omega⟩

theorem advance (proper : cursor.current.kind ≠ .endOfInput)
    (goes : opened = [] → cursor.current.kind ∉ stops) :
    Continues stops opened cursor (openBehind opened cursor.current.kind) (cursor.advance 1) := by
  refine ⟨1, rfl, ?_⟩
  rw [Cursor.ahead_eq proper, scanFrom_pass proper goes]

theorem advance_kind {kind : TokenKind} (found : cursor.current.kind = kind)
    (proper : kind ≠ .endOfInput) (goes : opened = [] → kind ∉ stops) :
    Continues stops opened cursor (openBehind opened kind) (cursor.advance 1) := by
  subst found
  exact advance proper goes

/-- A well-nested row holds no end where something is open. -/
theorem row (inside : opened ≠ []) (passes : ∃ passed, cursor.ahead = passed ++ after.ahead ∧
    after = cursor.advance passed.length ∧ WellNested passed) :
    Continues stops opened cursor opened after := by
  obtain ⟨passed, cut, rest, nested⟩ := passes
  exact ⟨passed.length, rest, by rw [cut, scanFrom_nested nested stops inside]⟩

end Continues

/-- An embedded expression is a well-nested row between its marks, in which nothing ends a scan. -/
theorem leaves_embedded {self : Self} (nested : Nested (self .comma)) {stops opened : List TokenKind}
    {cursor : Cursor} (goes : opened = [] → .interpolation ∉ stops) :
    Leaves (embedded self) cursor fun _ after => Continues stops opened cursor opened after := by
  have inside : TokenKind.interpolation :: opened ≠ [] := List.cons_ne_nil _ _
  refine .expect fun starts => (Parser.nested_skipTrivia _).bind fun _ _ before => ?_
  refine (nested _).bind fun expr _ middle => (Parser.nested_skipTrivia _).bind fun _ last behind => ?_
  refine .expect fun ends => .pure ?_
  have opens : Continues stops opened cursor (.interpolation :: opened) (cursor.advance 1) :=
    .advance_kind starts nofun goes
  have closes : Continues stops (.interpolation :: opened) last opened (last.advance 1) :=
    .advance_kind ends nofun fun none => absurd none inside
  exact opens.trans ((Continues.row inside before).trans ((Continues.row inside middle).trans
    ((Continues.row inside behind).trans closes)))

def rawRound (self : Self) (stops : List TokenKind) (dollars : Bool) :
    RawState → Parser (Parser.Next RawState Template)
  | ⟨template, depth⟩ => do
    let token ← Parser.current
    if token.kind = .endOfInput then return .done template
    if depth = 0 && stops.contains token.kind then return .done template
    match token.kind with
    | .interpolation =>
      let expr ← embedded self
      return .again ⟨template.pushExpr expr, depth⟩
    | .whitespace | .comment =>
      Parser.advance 1
      return .again ⟨pushSpace template, depth⟩
    | .string =>
      let mark := String.ofList (token.text.toList.take 1)
      let content ← quoted self token.content (token.position.shift 1)
      Parser.advance 1
      let opened := template.pushLiteral mark
      let filled := { opened with parts := opened.parts ++ content.parts }
      return .again ⟨filled.pushLiteral mark, depth⟩
    | kind =>
      Parser.advance 1
      if kind = .dollar && dollars then
        return .again ⟨template.pushExpr (.var token.name token.line), depth⟩
      let depth :=
        match kind with
        | .leftParen | .leftBracket => depth + 1
        | .rightParen | .rightBracket => depth - 1
        | _ => depth
      return .again ⟨template.pushLiteral token.text, depth⟩

theorem raw_eq (self : Self) (stops : List TokenKind) (dollars : Bool) : raw self stops dollars = (do
    let line := (← Parser.current).line
    let template ← Parser.loop ⟨⟨[], line⟩, 0⟩ (rawRound self stops dollars)
    return trimTemplate template) := rfl

/-- So many brackets are open, and no embedded expression. -/
def Flat (opened : List TokenKind) (depth : Nat) : Prop :=
  opened.length = depth ∧ .interpolation ∉ opened

theorem Flat.openBehind {opened : List TokenKind} {depth : Nat} (flat : Flat opened depth)
    (kind : TokenKind) : kind ≠ .interpolation →
    Flat (openBehind opened kind) (match kind with
      | .leftParen | .leftBracket => depth + 1
      | .rightParen | .rightBracket => depth - 1
      | _ => depth) := by
  intro plain
  obtain ⟨rfl, inside⟩ := flat
  have tail : .interpolation ∉ opened.tail := fun member => inside (List.mem_of_mem_tail member)
  have brace : opened.head? ≠ some .interpolation := fun first => inside (List.mem_of_head? first)
  cases kind <;> first
    | exact ⟨rfl, inside⟩
    | exact ⟨rfl, by simp [Grammar.openBehind, inside]⟩
    | exact ⟨List.length_tail, tail⟩
    | exact ⟨by rw [Grammar.openBehind, if_neg brace], by rwa [Grammar.openBehind, if_neg brace]⟩
    | exact absurd rfl plain

/-- A round either finds the end that the scan finds, or comes to where the scan goes on. -/
theorem leaves_rawRound {self : Self} (nested : Nested (self .comma)) {stops opened : List TokenKind}
    (dollars : Bool) {state : RawState} (flat : Flat opened state.depth) (cursor : Cursor) :
    Leaves (rawRound self stops dollars state) cursor fun next after =>
      match next with
      | .again later => ∃ still, Flat still later.depth ∧ Continues stops opened cursor still after
      | .done _ => after = cursor ∧ scanFrom stops opened cursor.ahead = 0 := by
  obtain ⟨template, depth⟩ := state
  refine .current ?_
  dsimp only
  split
  · rename_i ends
    exact .pure ⟨rfl, scanFrom_end (.inl ends)⟩
  rename_i proper
  split
  · rename_i stop
    simp only [Bool.and_eq_true, decide_eq_true_eq, List.contains_iff_mem] at stop
    exact .pure ⟨rfl, scanFrom_end (.inr ⟨List.length_eq_zero_iff.mp (flat.1.trans stop.1), stop.2⟩)⟩
  rename_i goes
  have passes (none : opened = []) : cursor.current.kind ∉ stops := by
    have shallow : depth = 0 := flat.1.symm.trans (by rw [none, List.length_nil])
    simpa [shallow] using goes
  have behind := Continues.advance proper passes
  have still := flat.openBehind cursor.current.kind
  split
  · rename_i opens
    exact (leaves_embedded nested (opens ▸ passes)).bind fun expr _ passed => .pure ⟨opened, flat, passed⟩
  · rename_i blank
    rw [blank] at behind
    exact .advance (.pure ⟨opened, flat, behind⟩)
  · rename_i comment
    rw [comment] at behind
    exact .advance (.pure ⟨opened, flat, behind⟩)
  · rename_i string
    rw [string] at behind
    exact .lift fun content => .advance (.pure ⟨opened, flat, behind⟩)
  · rename_i plain _ _ _
    refine .advance ?_
    split
    · rename_i dollar
      simp only [Bool.and_eq_true, decide_eq_true_eq] at dollar
      rw [dollar.1] at behind
      exact .pure ⟨opened, flat, behind⟩
    · exact .pure ⟨_, still plain, behind⟩

/-- Raw text is collected up to where the scan finds its end. -/
theorem leaves_raw {self : Self} (nested : Nested (self .comma)) (stops : List TokenKind)
    (dollars : Bool) (start : Cursor) :
    Leaves (raw self stops dollars) start fun _ after =>
      after = start.advance (scanFrom stops [] start.ahead) := by
  rw [raw_eq]
  have whole : Leaves (Parser.loop ⟨⟨[], start.current.line⟩, 0⟩ (rawRound self stops dollars)) start
      fun _ after => after = start.advance (scanFrom stops [] start.ahead) := by
    refine .loop (fun state after => ∃ opened, Flat opened state.depth ∧
      Continues stops [] start opened after) ?_ ⟨[], ⟨rfl, nofun⟩, .refl ..⟩
    rintro state cursor ⟨opened, flat, way⟩ next after read
    have round := leaves_rawRound nested dollars flat cursor next after read
    cases next with
    | again later =>
      obtain ⟨still, flat, further⟩ := round
      exact ⟨still, flat, way.trans further⟩
    | done template =>
      obtain ⟨rfl, ends⟩ := round
      obtain ⟨count, rest, scan⟩ := way
      rw [scan, ends, Nat.zero_add, rest]
  exact .current (whole.bind fun _ _ ends => .pure ends)

/-- A declaration starts only where the scan finds a colon. -/
theorem leaves_startsDeclaration (cursor : Cursor) :
    Leaves Blocks.startsDeclaration cursor fun starts _ =>
      starts = true → (cursor.peek (scanFrom propertyStops [] cursor.ahead)).kind = .colon := by
  intro starts after read holds
  subst holds
  by_contra other
  have refused : Blocks.startsDeclaration cursor = .ok (false, cursor) := by
    unfold Blocks.startsDeclaration
    rw [Parser.get_bind, Parser.bind_of_ok rfl, if_pos other]
    rfl
  rw [refused] at read
  cases read

/-- What expressions, lists, arguments and embedded expressions pass is well nested, so a name is read
up to the very colon by which a declaration was told from a rule. -/
theorem names_end_at_colon (depth : Nat) (stops : List String) :
    Nested (commaList (Form.parser depth) stops) ∧ Nested (spaceList (Form.parser depth) stops) ∧
    Nested (callArguments (Form.parser depth)) ∧ Nested (embedded (Form.parser depth)) ∧
    ∀ start property after, Blocks.startsDeclaration start = .ok (true, start) →
      raw (Form.parser depth) propertyStops false start = .ok (property, after) →
      after = start.advance (scanFrom propertyStops [] start.ahead) ∧
        Parser.expect .colon after = .ok (after.current, after.advance 1) := by
  have inner := twins_expressions depth
  refine ⟨(twins_commaList inner stops).nested, (twins_spaceList inner stops).nested,
    (twins_callArguments inner).nested, (twins_embedded inner).nested, ?_⟩
  intro start property after starts read
  have ends := leaves_raw (inner .comma).nested propertyStops false start property after read
  have colon := leaves_startsDeclaration start true start starts rfl
  rw [Cursor.peek_eq, ← ends] at colon
  exact ⟨ends, Parser.expect_of_eq colon⟩

/-- The tokens of `a-#\x7b(b:c)\x7d: d`. -/
def hyphenatedName : List Token :=
  [⟨.ident, "a-", ⟨1, 1⟩⟩, ⟨.interpolation, "#\x7b", ⟨1, 3⟩⟩, ⟨.leftParen, "(", ⟨1, 5⟩⟩,
    ⟨.ident, "b", ⟨1, 6⟩⟩, ⟨.colon, ":", ⟨1, 7⟩⟩, ⟨.ident, "c", ⟨1, 8⟩⟩, ⟨.rightParen, ")", ⟨1, 9⟩⟩,
    ⟨.rightBrace, "\x7d", ⟨1, 10⟩⟩, ⟨.colon, ":", ⟨1, 11⟩⟩, ⟨.whitespace, " ", ⟨1, 12⟩⟩,
    ⟨.ident, "d", ⟨1, 13⟩⟩]

/-- The name ends at the second colon, and what is embedded in it is well nested. -/
theorem names_end_at_colon_hyphenated :
    ∃ start property after, start = Cursor.ofTokens hyphenatedName ∧
      Blocks.startsDeclaration start = .ok (true, start) ∧
      raw (Form.parser 3) propertyStops false start = .ok (property, after) ∧
      Parser.expect .colon after = .ok (⟨.colon, ":", ⟨1, 11⟩⟩, after.advance 1) ∧
      ∃ passed, (start.advance 1).ahead = passed ++ after.ahead ∧ WellNested passed := by
  obtain ⟨start, known⟩ : ∃ start, start = Cursor.ofTokens hyphenatedName := ⟨_, rfl⟩
  have starts : Blocks.startsDeclaration start = .ok (true, start) := by
    rw [known]
    rfl
  obtain ⟨property, read⟩ : ∃ property, raw (Form.parser 3) propertyStops false start =
      .ok (property, start.advance 8) := by
    rw [known]
    exact ⟨_, rfl⟩
  obtain ⟨expr, inside⟩ : ∃ expr, embedded (Form.parser 3) (start.advance 1) =
      .ok (expr, start.advance 8) := by
    rw [known]
    exact ⟨_, rfl⟩
  have colon := ((names_end_at_colon 3 []).2.2.2.2 start property _ starts read).2
  obtain ⟨passed, cut, -, nested⟩ := (names_end_at_colon 3 []).2.2.2.1 _ expr _ inside
  refine ⟨start, property, _, known, starts, read, colon.trans ?_, passed, cut, nested⟩
  rw [known]
  rfl

end Grammar

end Scss
