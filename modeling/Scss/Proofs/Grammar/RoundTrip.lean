import Scss.Proofs.Grammar.Levels

/-! Reading an expression inverts writing it. Lists, maps and parentheses are loops over members, so
they share one lemma on such a loop; the operators come from their levels. The depth of the grammar
is bounded by the number of tokens, and every form inside another one has fewer of them. -/
namespace Scss.Grammar

open Scss.Parser

theorem allOnLine_eq (line : Nat) (items : List Expr) :
    allOnLine line items = items.map (onLine line) := by
  induction items with
  | nil => rfl
  | cons item rest ih => rw [allOnLine, ih, List.map_cons]

theorem pairsOnLine_eq (line : Nat) (pairs : List (Expr × Expr)) :
    pairsOnLine line pairs = pairs.map fun pair => (onLine line pair.1, onLine line pair.2) := by
  induction pairs with
  | nil => rfl
  | cons pair rest ih => rw [pairsOnLine, ih, List.map_cons]

/-- Members that each follow an expression may follow it together. -/
theorem ends_members {α : Type} {lex : α → List Lexeme} {rank : Rank} {line : Nat}
    {items : List α} {tokens rest : List Token} (ends : Ends rank rest)
    (between : ∀ item ∈ items, ∀ tokens rest, Written line (lex item) tokens →
      Ends rank (tokens ++ rest)) (written : Written line (items.flatMap lex) tokens) :
    Ends rank (tokens ++ rest) := by
  cases items with
  | nil =>
    obtain rfl : tokens = [] := by simpa using written.length_eq
    exact ends
  | cons item others =>
    rw [List.flatMap_cons] at written
    obtain ⟨head, tail, rfl, start, -⟩ := written.append_cases
    rw [List.append_assoc]
    exact between item (by simp) _ _ start

section Loops

variable {α σ β : Type} {step : σ → Parser (Next σ β)} {push : σ → α → σ} {finish : σ → β}
  {lex : α → List Lexeme} {rank : Rank} {line : Nat} {rest : List Token} {items : List α}

theorem loopWithin_members (ends : Ends rank rest) (nonempty : ∀ item ∈ items, lex item ≠ [])
    (between : ∀ item ∈ items, ∀ tokens rest, Written line (lex item) tokens →
      Ends rank (tokens ++ rest))
    (again : ∀ item ∈ items, ∀ state tokens rest cursor, Written line (lex item) tokens →
      cursor.ahead = tokens ++ rest → Ends rank rest →
        step state cursor = .ok (.again (push state item), cursor.advance tokens.length))
    (done : ∀ state cursor, cursor.ahead = rest →
      step state cursor = .ok (.done (finish state), cursor))
    {bound tokens : List Token} {state : σ} {cursor : Cursor} (enough : tokens.length ≤ bound.length)
    (written : Written line (items.flatMap lex) tokens) (ahead : cursor.ahead = tokens ++ rest) :
    loopWithin step bound state cursor =
      .ok (finish (items.foldl push state), cursor.advance tokens.length) := by
  induction items generalizing bound tokens state cursor with
  | nil =>
    obtain rfl : tokens = [] := by simpa using written.length_eq
    exact loopWithin_done (done state cursor ahead)
  | cons item others ih =>
    rw [List.flatMap_cons] at written
    obtain ⟨head, tail, rfl, start, more⟩ := written.append_cases
    rw [List.append_assoc] at ahead
    have follows : Ends rank (tail ++ rest) :=
      ends_members ends (fun other member => between other (by simp [member])) more
    have round := again item (by simp) state _ _ _ start ahead follows
    have positive : 0 < head.length := by
      rw [start.length_eq]
      exact List.length_pos_of_ne_nil (nonempty item (by simp))
    rw [List.length_append] at enough
    cases bound with
    | nil => rw [List.length_nil] at enough; omega
    | cons spare bound =>
      rw [loopWithin_again round, ih (fun other member => nonempty other (by simp [member]))
        (fun other member => between other (by simp [member]))
        (fun other member => again other (by simp [member])) (by simp at enough; omega) more
        (Cursor.ahead_advance_of_append ahead), Cursor.advance_advance, List.length_append,
        List.foldl_cons]

/-- A loop that takes one member in each round, the tokens before it included, and is done behind the
last of them. -/
theorem loop_members (ends : Ends rank rest) (nonempty : ∀ item ∈ items, lex item ≠ [])
    (between : ∀ item ∈ items, ∀ tokens rest, Written line (lex item) tokens →
      Ends rank (tokens ++ rest))
    (again : ∀ item ∈ items, ∀ state tokens rest cursor, Written line (lex item) tokens →
      cursor.ahead = tokens ++ rest → Ends rank rest →
        step state cursor = .ok (.again (push state item), cursor.advance tokens.length))
    (done : ∀ state cursor, cursor.ahead = rest →
      step state cursor = .ok (.done (finish state), cursor))
    {tokens : List Token} {cursor : Cursor} (written : Written line (items.flatMap lex) tokens)
    (ahead : cursor.ahead = tokens ++ rest) (init : σ) :
    loop init step cursor =
      .ok (finish (items.foldl push init), cursor.advance tokens.length) := by
  have enough : tokens.length ≤ cursor.ahead.length := by
    rw [ahead, List.length_append]
    exact Nat.le_add_right _ _
  rw [loop_apply, loopWithin_members ends nonempty between again done enough written ahead]

end Loops

/-- An expression as its members: the members of a list, or itself alone. -/
structure Members (separator : Separator) (rank : Rank) (expr first : Expr) (others : List Expr) :
    Prop where
  printable : ∀ item ∈ first :: others, Printable rank item
  lexemes_eq :
    lexemes expr = lexemes first ++ others.flatMap (Lexeme.between separator ++ lexemes ·)
  onLine_eq : ∀ line, onLine line expr =
    if others.isEmpty then onLine line first
    else .list (onLine line first :: others.map (onLine line)) separator false line

theorem length_le_of_member {α : Type} (between : List Lexeme) (lex : α → List Lexeme)
    {first item : α} {others : List α} (member : item ∈ first :: others) :
    (lex item).length ≤ (lex first ++ others.flatMap (between ++ lex ·)).length := by
  rw [List.length_append]
  rcases List.mem_cons.mp member with rfl | member
  · exact Nat.le_add_right _ _
  · have part : between ++ lex item ∈ others.map (between ++ lex ·) := List.mem_map_of_mem member
    have shorter := (List.sublist_flatten_of_mem part).length_le
    rw [List.length_append, ← List.flatMap_def] at shorter
    omega

theorem Members.length_le {separator : Separator} {rank : Rank} {expr first item : Expr}
    {others : List Expr} (members : Members separator rank expr first others)
    (member : item ∈ first :: others) : (lexemes item).length ≤ (lexemes expr).length := by
  rw [members.lexemes_eq]
  exact length_le_of_member _ lexemes member

theorem Members.single (separator : Separator) {rank : Rank} {expr : Expr}
    (printable : Printable rank expr) : Members separator rank expr expr [] where
  printable := by simpa using printable
  lexemes_eq := by simp
  onLine_eq line := rfl

theorem Members.list (separator : Separator) {rank : Rank} {items : List Expr} (line : Nat)
    (several : 2 ≤ items.length) (members : ∀ item ∈ items, Printable rank item) :
    ∃ first others, Members separator rank (.list items separator false line) first others := by
  match items, several with
  | first :: second :: others, _ =>
    refine ⟨first, second :: others, members, ?_, fun line => ?_⟩
    · rw [lexemes, allLexemes_eq, List.map_cons, intercalate_cons, List.flatMap_map]
    · rw [onLine, allOnLine_eq]
      rfl

theorem Printable.space_members {expr : Expr} (printable : Printable .space expr) :
    ∃ first others, Members .space .disjunction expr first others := by
  cases printable with
  | spaceList line several members => exact Members.list .space line several members
  | @binary _ op left right line ranked => cases op <;> simp [operatorRank] at ranked
  | looser body => exact ⟨expr, [], Members.single .space body⟩

theorem Printable.comma_members {expr : Expr} (printable : Printable .comma expr) :
    ∃ first others, Members .comma .space expr first others := by
  cases printable with
  | commaList line several members => exact Members.list .comma line several members
  | @binary _ op left right line ranked => cases op <;> simp [operatorRank] at ranked
  | looser body => exact ⟨expr, [], Members.single .comma body⟩

theorem foldl_push {α β : Type} (f : α → β) (items : List α) (init : List β) :
    items.foldl (fun state item => state ++ [f item]) init = init ++ items.map f := by
  induction items generalizing init with
  | nil => simp
  | cons item rest ih => simp [ih]

/-- A state that also says whether anything was added. -/
theorem foldl_push_flag {α β : Type} (f : α → β) (items : List α) (init : List β) (flag : Bool) :
    items.foldl (fun (state : List β × Bool) item => (state.1 ++ [f item], true)) (init, flag) =
      (init ++ items.map f, flag || !items.isEmpty) := by
  induction items generalizing init flag with
  | nil => simp
  | cons item rest ih => simp [ih]

theorem line_of_written {rank : Rank} {expr : Expr} (printable : Printable rank expr) {line : Nat}
    {tokens rest : List Token} {cursor : Cursor} (written : Written line (lexemes expr) tokens)
    (ahead : cursor.ahead = tokens ++ rest) : cursor.current.line = line := by
  obtain ⟨token, more, rfl, -⟩ := (opens_of_written printable written).visible
  rw [Cursor.current_of_cons ahead]
  exact written.line_eq token (by simp)

section Lists

variable {self : Self} {size line : Nat} {tokens rest : List Token} {cursor : Cursor}

def spaceRound (self : Self) (stops : List String) (first : Expr) (line : Nat)
    (others : List Expr) : Parser (Next (List Expr) Expr) := do
  let saved ← get
  skipTrivia
  if startsValue stops (← current) then
    let item ← disjunction self
    return .again (others ++ [item])
  set saved
  if others.isEmpty then return .done first
  return .done (.list (first :: others) .space false line)

theorem spaceList_eq (self : Self) (stops : List String) :
    spaceList self stops = current >>= fun token => disjunction self >>= fun first =>
      loop [] (spaceRound self stops first token.line) := rfl

theorem spaceRound_again {item first : Expr} {start : Nat} (printable : Printable .disjunction item)
    (reads : Reads (disjunction self) .disjunction item) (others : List Expr)
    (written : Written line (Lexeme.between .space ++ lexemes item) tokens)
    (ahead : cursor.ahead = tokens ++ rest) (ends : Ends .disjunction rest) :
    spaceRound self [] first start others cursor =
      .ok (.again (others ++ [onLine line item]), cursor.advance tokens.length) := by
  obtain ⟨blank, more, rfl, kind, -, -, inner⟩ := written.cons_cases
  obtain ⟨token, remaining, shown, visible, -, starts⟩ :=
    ((opens_of_written printable inner).append rest).visible
  rw [List.cons_append] at ahead
  have next := Cursor.ahead_advance_one ahead
  have skipped : cursor.skipTrivia = cursor.advance 1 := by
    rw [shown] at ahead
    exact Cursor.skipTrivia_of_blank ahead (congrArg TokenKind.isTrivia kind) visible
  have found : cursor.skipTrivia.current = token := by
    rw [skipped]
    exact Cursor.current_of_cons (next.trans shown)
  rw [spaceRound, get_bind, bind_of_ok skipTrivia_apply, bind_of_ok current_apply, found,
    if_pos starts, skipped, bind_of_ok (reads _ _ _ _ inner next ends), Cursor.advance_advance,
    Nat.add_comm, List.length_cons]
  rfl

/-- Nothing but a mark or the end follows a list. -/
theorem Ends.marked {rank : Rank} (ends : Ends rank rest) (loose : 6 ≤ rank.index)
    (ahead : cursor.ahead = rest) : cursor.skipTrivia = cursor ∧
      (cursor.current.kind ∈ [TokenKind.endOfInput, .rightParen, .colon] ∨
        rank ≠ .comma ∧ cursor.current.kind = .comma) := by
  cases ends with
  | nothing =>
    constructor
    · rw [Cursor.skipTrivia, Cursor.skipWhile, ahead]
      rfl
    · left
      rw [Cursor.current, ahead]
      simp [cursor.last_kind]
  | @closed token rest kind =>
    constructor
    · apply Cursor.skipTrivia_of_visible ahead
      rcases kind with kind | kind <;> exact congrArg TokenKind.isTrivia kind
    · left
      rw [Cursor.current_of_cons ahead]
      rcases kind with kind | kind <;> simp [kind]
  | comma rest within kind =>
    refine ⟨Cursor.skipTrivia_of_visible ahead (congrArg TokenKind.isTrivia kind), .inr ⟨within, ?_⟩⟩
    rw [Cursor.current_of_cons ahead, kind]
  | @operator op blank token behind rest looser =>
    have : (operatorRank op).index < 6 := by cases op <;> decide
    omega
  | item within => omega

theorem startsValue_of_ends (ends : Ends .space rest) (ahead : cursor.ahead = rest) :
    startsValue [] cursor.skipTrivia.current = false := by
  obtain ⟨skipped, kinds⟩ := ends.marked (by decide) ahead
  rw [skipped]
  simp only [List.mem_cons, List.not_mem_nil, or_false] at kinds
  rcases kinds with (kind | kind | kind) | ⟨-, kind⟩ <;> simp [startsValue, kind]

theorem spaceRound_done {first : Expr} {start : Nat} (others : List Expr) (ends : Ends .space rest)
    (ahead : cursor.ahead = rest) :
    spaceRound self [] first start others cursor =
      .ok (.done (if others.isEmpty then first
        else .list (first :: others) .space false start), cursor) := by
  rw [spaceRound, get_bind, bind_of_ok skipTrivia_apply, bind_of_ok current_apply,
    startsValue_of_ends ends ahead]
  cases others with
  | nil => rfl
  | cons other others => rfl

theorem reads_spaceList {expr : Expr} (printable : Printable .space expr)
    (small : (lexemes expr).length ≤ size)
    (reads : ∀ inner, Printable .disjunction inner → (lexemes inner).length ≤ size →
      Reads (disjunction self) .disjunction inner) : Reads (spaceList self []) .space expr := by
  intro line tokens rest cursor written ahead ends
  obtain ⟨first, others, members⟩ := printable.space_members
  have readsMember : ∀ item ∈ first :: others, Reads (disjunction self) .disjunction item :=
    fun item member => reads item (members.printable item member)
      ((members.length_le member).trans small)
  rw [members.lexemes_eq] at written
  obtain ⟨head, tail, rfl, start, more⟩ := written.append_cases
  rw [List.append_assoc] at ahead
  have between : ∀ item ∈ others, ∀ tokens rest,
      Written line (Lexeme.between .space ++ lexemes item) tokens →
        Ends .disjunction (tokens ++ rest) := by
    intro item member tokens rest written
    obtain ⟨blank, more, rfl, kind, -, -, inner⟩ := written.cons_cases
    have opens := opens_of_written (members.printable item (by simp [member])) inner
    exact .item (by decide) kind (opens.append rest)
  have follows := ends_members ends.tighter between more
  have readFirst := readsMember first (by simp) _ _ _ _ start ahead follows
  have aheadOthers := Cursor.ahead_advance_of_append ahead
  have startLine := line_of_written (members.printable first (by simp)) start ahead
  rw [spaceList_eq, bind_of_ok current_apply, bind_of_ok readFirst, startLine,
    loop_members ends.tighter (fun item _ => by simp [Lexeme.between]) between
      (fun item member state _ _ _ => spaceRound_again (members.printable item (by simp [member]))
        (readsMember item (by simp [member])) state)
      (fun state _ => spaceRound_done state ends) more aheadOthers,
    members.onLine_eq, foldl_push, Cursor.advance_advance, List.length_append]
  cases others <;> rfl

/-- A comma ends a list by blanks. -/
theorem ends_comma {α : Type} {lex : α → List Lexeme} (items : List α) :
    ∀ item ∈ items, ∀ tokens rest, Written line (Lexeme.between .comma ++ lex item) tokens →
      Ends .space (tokens ++ rest) := by
  intro item member tokens rest written
  obtain ⟨mark, more, rfl, kind, -⟩ := written.cons_cases
  exact .comma _ (by decide) kind

def commaRound (self : Self) (stops : List String) (first : Expr) (line : Nat)
    (state : List Expr × Bool) : Parser (Next (List Expr × Bool) Expr) := do
  let saved ← get
  skipTrivia
  if ← accept .comma then
    skipTrivia
    if startsValue stops (← current) then
      let item ← spaceList self stops
      return .again (state.1 ++ [item], true)
    return .done (.list (first :: state.1) .comma false line)
  set saved
  if state.2 then return .done (.list (first :: state.1) .comma false line)
  return .done first

theorem commaList_eq (self : Self) (stops : List String) :
    commaList self stops = current >>= fun token => spaceList self stops >>= fun first =>
      loop ([], false) (commaRound self stops first token.line) := rfl

/-- A cursor before a comma, a blank and the tokens of a member. -/
structure BeforeMember (cursor : Cursor) (inner rest : List Token) : Prop where
  comma : cursor.current.kind = .comma
  still : cursor.skipTrivia = cursor
  skipped : (cursor.advance 1).skipTrivia = cursor.advance 2
  ahead : (cursor.advance 2).ahead = inner ++ rest
  starts : startsValue [] (cursor.advance 2).current = true
  inside : (cursor.advance 2).current.kind ≠ .rightParen

theorem Written.member_cases {lexemes : List Lexeme}
    (written : Written line (Lexeme.between .comma ++ lexemes) tokens)
    (opens : ∀ inner, Written line lexemes inner → Opens inner)
    (ahead : cursor.ahead = tokens ++ rest) : ∃ inner, tokens.length = 2 + inner.length ∧
      Written line lexemes inner ∧ BeforeMember cursor inner rest := by
  obtain ⟨mark, more, rfl, markKind, -, -, written⟩ := written.cons_cases
  obtain ⟨blank, inner, rfl, kind, -, -, written⟩ := written.cons_cases
  obtain ⟨token, remaining, shown, visible, inside, starts⟩ :=
    ((opens inner written).append rest).visible
  rw [List.cons_append, List.cons_append] at ahead
  have atBlank := Cursor.ahead_advance_one ahead
  have next : (cursor.advance 2).ahead = inner ++ rest := by
    rw [Cursor.ahead_advance, ahead]
    rfl
  have found := Cursor.current_of_cons (next.trans shown)
  refine ⟨inner, ?_, written, ?_, ?_, ?_, next, found ▸ starts, found ▸ inside⟩
  · rw [List.length_cons, List.length_cons, Nat.add_comm 2]
  · rw [Cursor.current_of_cons ahead, markKind]
    rfl
  · exact Cursor.skipTrivia_of_visible ahead (congrArg TokenKind.isTrivia markKind)
  · rw [shown] at atBlank
    rw [Cursor.skipTrivia_of_blank atBlank (congrArg TokenKind.isTrivia kind) visible,
      Cursor.advance_advance]

theorem commaRound_again {item first : Expr} {start : Nat} (printable : Printable .space item)
    (reads : Reads (spaceList self []) .space item) (state : List Expr × Bool)
    (written : Written line (Lexeme.between .comma ++ lexemes item) tokens)
    (ahead : cursor.ahead = tokens ++ rest) (ends : Ends .space rest) :
    commaRound self [] first start state cursor =
      .ok (.again (state.1 ++ [onLine line item], true), cursor.advance tokens.length) := by
  obtain ⟨inner, length, written, before⟩ :=
    written.member_cases (fun _ => opens_of_written printable) ahead
  rw [commaRound, get_bind, bind_of_ok skipTrivia_apply, before.still,
    bind_of_ok (accept_of_eq before.comma), if_pos rfl, bind_of_ok skipTrivia_apply, before.skipped,
    bind_of_ok current_apply, if_pos before.starts,
    bind_of_ok (reads _ _ _ _ written before.ahead ends), Cursor.advance_advance, length]
  rfl

theorem commaRound_done {first : Expr} {start : Nat} (state : List Expr × Bool)
    (ends : Ends .comma rest) (ahead : cursor.ahead = rest) :
    commaRound self [] first start state cursor =
      .ok (.done (if state.2 then .list (first :: state.1) .comma false start else first),
        cursor) := by
  obtain ⟨still, kinds⟩ := ends.marked (by decide) ahead
  have other : cursor.current.kind ≠ .comma := by
    intro kind
    simp [kind] at kinds
  rw [commaRound, get_bind, bind_of_ok skipTrivia_apply, still, bind_of_ok (accept_of_ne other)]
  obtain ⟨others, commas⟩ := state
  cases commas <;> rfl

theorem reads_commaList {expr : Expr} (printable : Printable .comma expr)
    (small : (lexemes expr).length ≤ size)
    (reads : ∀ inner, Printable .space inner → (lexemes inner).length ≤ size →
      Reads (spaceList self []) .space inner) : Reads (commaList self []) .comma expr := by
  intro line tokens rest cursor written ahead ends
  obtain ⟨first, others, members⟩ := printable.comma_members
  have readsMember : ∀ item ∈ first :: others, Reads (spaceList self []) .space item :=
    fun item member => reads item (members.printable item member)
      ((members.length_le member).trans small)
  rw [members.lexemes_eq] at written
  obtain ⟨head, tail, rfl, start, more⟩ := written.append_cases
  rw [List.append_assoc] at ahead
  have follows := ends_members ends.tighter (ends_comma others) more
  have readFirst := readsMember first (by simp) _ _ _ _ start ahead follows
  have aheadOthers := Cursor.ahead_advance_of_append ahead
  have startLine := line_of_written (members.printable first (by simp)) start ahead
  rw [commaList_eq, bind_of_ok current_apply, bind_of_ok readFirst, startLine,
    loop_members ends.tighter (fun item _ => by simp [Lexeme.between]) (ends_comma others)
      (fun item member state _ _ _ => commaRound_again (members.printable item (by simp [member]))
        (readsMember item (by simp [member])) state)
      (fun state _ => commaRound_done state ends) more aheadOthers,
    members.onLine_eq, foldl_push_flag, Cursor.advance_advance, List.length_append]
  cases others <;> rfl

end Lists

/-- Parsers for the forms inside others, good for expressions of so many tokens. -/
structure ReadsInner (forms : Self) (size : Nat) : Prop where
  unary : ∀ expr, Printable .unary expr → (lexemes expr).length ≤ size →
    Reads (forms .unary) .unary expr
  space : ∀ expr, Printable .space expr → (lexemes expr).length ≤ size →
    Reads (forms .space) .space expr

section Parentheses

variable {self : Self} {size line : Nat} {tokens rest : List Token} {cursor : Cursor}

def parenRound (self : Self) (state : List Expr × Bool) :
    Parser (Next (List Expr × Bool) (List Expr × Bool)) := do
  if !(← accept .comma) then return .done state
  skipTrivia
  if ← at_ .rightParen then return .done (state.1, true)
  let item ← self .space
  skipTrivia
  return .again (state.1 ++ [item], true)

theorem parenRest_eq (self : Self) (first : Expr) :
    parenRest self first = loop ([first], false) (parenRound self) := rfl

theorem parenRound_again {item : Expr} (printable : Printable .space item)
    (reads : Reads (self .space) .space item) (state : List Expr × Bool)
    (written : Written line (Lexeme.between .comma ++ lexemes item) tokens)
    (ahead : cursor.ahead = tokens ++ rest) (ends : Ends .space rest) :
    parenRound self state cursor =
      .ok (.again (state.1 ++ [onLine line item], true), cursor.advance tokens.length) := by
  obtain ⟨inner, length, written, before⟩ :=
    written.member_cases (fun _ => opens_of_written printable) ahead
  have read := reads _ _ _ _ written before.ahead ends
  rw [Cursor.advance_advance, ← length] at read
  obtain ⟨still, -⟩ := ends.marked (by decide) (Cursor.ahead_advance_of_append ahead)
  rw [parenRound, bind_of_ok (accept_of_eq before.comma)]
  simp only [Bool.not_true, Bool.false_eq_true, if_false]
  rw [bind_of_ok skipTrivia_apply, before.skipped, bind_of_ok (at_apply _)]
  simp only [before.inside, decide_false, Bool.false_eq_true, if_false]
  rw [bind_of_ok read, bind_of_ok skipTrivia_apply, still]
  rfl

theorem parenRound_done (state : List Expr × Bool) (other : cursor.current.kind ≠ .comma) :
    parenRound self state cursor = .ok (.done state, cursor) := by
  rw [parenRound, bind_of_ok (accept_of_ne other)]
  rfl

def parenTail (self : Self) (first : Expr) (line : Nat) : Parser Expr := do
  if ← accept .colon then mapRest self first line
  else
    let (items, commas) ← parenRest self first
    let _ ← expect .rightParen
    return .paren (if commas then .list items .comma false line else first) line

theorem parenthesized_eq (self : Self) : parenthesized self = (do
    let opening ← expect .leftParen
    skipTrivia
    if ← accept .rightParen then return .list [] .space false opening.line
    let first ← self .space
    skipTrivia
    parenTail self first opening.line) := rfl

theorem parenthesized_first {first : Expr} (printable : Printable .space first)
    (reads : Reads (self .space) .space first) {opening : Token} (kind : opening.kind = .leftParen)
    (start : opening.line = line) (written : Written line (lexemes first) tokens)
    (ahead : cursor.ahead = opening :: (tokens ++ rest)) (ends : Ends .space rest) :
    parenthesized self cursor =
      parenTail self (onLine line first) line (cursor.advance (1 + tokens.length)) := by
  have atOpening := Cursor.current_of_cons ahead
  have inside := Cursor.ahead_advance_one ahead
  have read := reads _ _ _ _ written inside ends
  rw [Cursor.advance_advance] at read
  have behind : (cursor.advance (1 + tokens.length)).ahead = rest := by
    rw [← Cursor.advance_advance, Cursor.ahead_advance_of_append inside]
  obtain ⟨still, -⟩ := ends.marked (by decide) behind
  obtain ⟨token, remaining, shown, visible, other, -⟩ :=
    ((opens_of_written printable written).append rest).visible
  have atFirst := inside.trans shown
  have notClosed : (cursor.advance 1).current.kind ≠ .rightParen := by
    rwa [Cursor.current_of_cons atFirst]
  rw [parenthesized_eq, bind_of_ok (expect_of_eq (atOpening ▸ kind)), bind_of_ok skipTrivia_apply,
    Cursor.skipTrivia_of_visible atFirst visible, bind_of_ok (accept_of_ne notClosed)]
  simp only [Bool.false_eq_true, if_false]
  rw [bind_of_ok read, bind_of_ok skipTrivia_apply, still, atOpening, start]

def mapRound (self : Self) (pairs : List (Expr × Expr)) :
    Parser (Next (List (Expr × Expr)) (List (Expr × Expr))) := do
  skipTrivia
  if !(← accept .comma) then return .done pairs
  skipTrivia
  if ← at_ .rightParen then return .done pairs
  let key ← self .space
  skipTrivia
  let _ ← expect .colon
  skipTrivia
  let value ← self .space
  return .again (pairs ++ [(key, value)])

theorem mapRest_eq (self : Self) (firstKey : Expr) (line : Nat) :
    mapRest self firstKey line = (do
      skipTrivia
      let firstValue ← self .space
      let pairs ← loop [(firstKey, firstValue)] (mapRound self)
      let _ ← expect .rightParen
      return .map pairs line) := rfl

def pairLexeme (pair : Expr × Expr) : List Lexeme :=
  lexemes pair.1 ++ .colon :: .blank :: lexemes pair.2

/-- A cursor behind a key: the colon and the blank are passed up to the value. -/
theorem colon_cases {value : Expr} (printable : Printable .space value)
    (written : Written line (.colon :: .blank :: lexemes value) tokens)
    (ahead : cursor.ahead = tokens ++ rest) : ∃ inner, tokens.length = 2 + inner.length ∧
      Written line (lexemes value) inner ∧ Ends .space (tokens ++ rest) ∧
      cursor.current.kind = .colon ∧ (cursor.advance 1).skipTrivia = cursor.advance 2 ∧
      (cursor.advance 2).ahead = inner ++ rest := by
  obtain ⟨mark, more, rfl, markKind, -, -, written⟩ := written.cons_cases
  obtain ⟨blank, inner, rfl, kind, -, -, written⟩ := written.cons_cases
  obtain ⟨token, remaining, shown, visible, -⟩ :=
    ((opens_of_written printable written).append rest).visible
  rw [List.cons_append, List.cons_append] at ahead
  have atBlank := Cursor.ahead_advance_one ahead
  refine ⟨inner, ?_, written, .closed _ _ (.inr markKind), ?_, ?_, ?_⟩
  · rw [List.length_cons, List.length_cons, Nat.add_comm 2]
  · rw [Cursor.current_of_cons ahead, markKind]
    rfl
  · rw [shown] at atBlank
    rw [Cursor.skipTrivia_of_blank atBlank (congrArg TokenKind.isTrivia kind) visible,
      Cursor.advance_advance]
  · rw [Cursor.ahead_advance, ahead]
    rfl

theorem mapRound_again {pair : Expr × Expr} (key : Printable .space pair.1)
    (value : Printable .space pair.2) (readsKey : Reads (self .space) .space pair.1)
    (readsValue : Reads (self .space) .space pair.2) (pairs : List (Expr × Expr))
    (written : Written line (Lexeme.between .comma ++ pairLexeme pair) tokens)
    (ahead : cursor.ahead = tokens ++ rest) (ends : Ends .space rest) :
    mapRound self pairs cursor =
      .ok (.again (pairs ++ [(onLine line pair.1, onLine line pair.2)]),
        cursor.advance tokens.length) := by
  have opens : ∀ inner, Written line (pairLexeme pair) inner → Opens inner := by
    intro inner written
    obtain ⟨head, tail, rfl, start, -⟩ := written.append_cases
    exact (opens_of_written key start).append tail
  obtain ⟨inner, length, written, before⟩ := written.member_cases opens ahead
  obtain ⟨keyTokens, tail, rfl, writtenKey, written⟩ := written.append_cases
  have aheadKey := before.ahead
  rw [List.append_assoc] at aheadKey
  have aheadColon := Cursor.ahead_advance_of_append aheadKey
  obtain ⟨valueTokens, tailLength, writtenValue, endsKey, colon, skipped, aheadValue⟩ :=
    colon_cases value written aheadColon
  have readKey := readsKey _ _ _ _ writtenKey aheadKey endsKey
  obtain ⟨still, -⟩ := endsKey.marked (by decide) aheadColon
  have readValue := readsValue _ _ _ _ writtenValue aheadValue ends
  rw [mapRound, bind_of_ok skipTrivia_apply, before.still, bind_of_ok (accept_of_eq before.comma)]
  simp only [Bool.not_true, Bool.false_eq_true, if_false]
  rw [bind_of_ok skipTrivia_apply, before.skipped, bind_of_ok (at_apply _)]
  simp only [before.inside, decide_false, Bool.false_eq_true, if_false]
  rw [bind_of_ok readKey, bind_of_ok skipTrivia_apply, still, bind_of_ok (expect_of_eq colon),
    bind_of_ok skipTrivia_apply, skipped, bind_of_ok readValue, length, List.length_append,
    tailLength, Cursor.advance_advance, Cursor.advance_advance, Cursor.advance_advance]
  rfl

theorem mapRound_done (pairs : List (Expr × Expr)) (still : cursor.skipTrivia = cursor)
    (other : cursor.current.kind ≠ .comma) :
    mapRound self pairs cursor = .ok (.done pairs, cursor) := by
  rw [mapRound, bind_of_ok skipTrivia_apply, still, bind_of_ok (accept_of_ne other)]
  rfl

theorem unary_of_leftParen (kind : cursor.current.kind = .leftParen) :
    unary self cursor = parenthesized self cursor := by
  rw [unary, bind_of_ok current_apply]
  simp only [kind, Token.isWord, reduceCtorEq, decide_false, Bool.or_false, Bool.false_eq_true,
    if_false, Bool.false_and]
  rw [bind_of_ok (peek_apply 1), primary, bind_of_ok current_apply, kind]

/-- Behind the first member stands the comma of the next one, or what closes the members. -/
theorem comma_or_close {α : Type} {lex : α → List Lexeme} {items : List α} {close : Token}
    (written : Written line (items.flatMap (Lexeme.between .comma ++ lex ·)) tokens)
    (ahead : cursor.ahead = tokens ++ close :: rest) :
    cursor.current.kind = .comma ∨ cursor.current = close := by
  cases items with
  | nil =>
    obtain rfl : tokens = [] := by simpa using written.length_eq
    exact .inr (Cursor.current_of_cons ahead)
  | cons item others =>
    rw [List.flatMap_cons] at written
    obtain ⟨mark, more, rfl, kind, -⟩ := written.cons_cases
    rw [Cursor.current_of_cons ahead]
    exact .inl kind

theorem reads_paren (inside : ReadsInner self size) {inner : Expr}
    (printable : Printable .comma inner) (small : (lexemes inner).length ≤ size) (place : Nat) :
    Reads (unary self) .unary (.paren inner place) := by
  intro line tokens rest cursor written ahead ends
  rw [lexemes] at written
  obtain ⟨opening, more, rfl, kind, -, start, written⟩ := written.cons_cases
  obtain ⟨body, last, rfl, writtenBody, closing⟩ := written.append_cases
  obtain ⟨close, none, rfl, closeKind, -, -, empty⟩ := closing.cons_cases
  obtain rfl : none = [] := by simpa using empty.length_eq
  obtain ⟨first, others, members⟩ := printable.comma_members
  have readsMember : ∀ item ∈ first :: others, Reads (self .space) .space item :=
    fun item member => inside.space item (members.printable item member)
      ((members.length_le member).trans small)
  rw [members.lexemes_eq] at writtenBody
  obtain ⟨head, tail, rfl, writtenFirst, writtenOthers⟩ := writtenBody.append_cases
  have endsOthers : Ends .space (close :: rest) := .closed _ _ (.inl closeKind)
  have endsFirst := ends_members endsOthers (ends_comma others) writtenOthers
  have aheadFirst : cursor.ahead = opening :: (head ++ (tail ++ close :: rest)) := by
    rw [ahead]
    simp
  have aheadOthers : (cursor.advance (1 + head.length)).ahead = tail ++ close :: rest := by
    rw [← Cursor.advance_advance,
      Cursor.ahead_advance_of_append (Cursor.ahead_advance_one aheadFirst)]
  have atClose : ((cursor.advance (1 + head.length)).advance tail.length).current = close :=
    Cursor.current_of_cons (Cursor.ahead_advance_of_append aheadOthers)
  have notColon : (cursor.advance (1 + head.length)).current.kind ≠ .colon := by
    rcases comma_or_close writtenOthers aheadOthers with kind | closed
    · rw [kind]
      decide
    · rw [closed, closeKind]
      decide
  have notComma (cursor : Cursor) (ahead : cursor.ahead = close :: rest) :
      cursor.current.kind ≠ .comma := by
    rw [Cursor.current_of_cons ahead, closeKind]
    decide
  have looped := loop_members endsOthers (fun item _ => by simp [Lexeme.between])
    (ends_comma others)
    (fun item member state _ _ _ => parenRound_again (members.printable item (by simp [member]))
      (readsMember item (by simp [member])) state)
    (fun state cursor ahead => parenRound_done state (notComma cursor ahead)) writtenOthers
    aheadOthers ([onLine line first], false)
  rw [unary_of_leftParen (Cursor.current_of_cons ahead ▸ kind),
    parenthesized_first (members.printable first (by simp)) (readsMember first (by simp)) kind start
      writtenFirst aheadFirst endsFirst, parenTail, bind_of_ok (accept_of_ne notColon)]
  simp only [Bool.false_eq_true, if_false]
  rw [parenRest_eq, bind_of_ok looped, foldl_push_flag]
  simp only
  rw [bind_of_ok (expect_of_eq (atClose ▸ closeKind))]
  rw [Cursor.advance_advance, Cursor.advance_advance, onLine, members.onLine_eq]
  have total : 1 + head.length + (tail.length + 1) =
      (opening :: (head ++ tail ++ [close])).length := by
    simp
    omega
  rw [← total, ← Nat.add_assoc]
  cases others <;> rfl

theorem lexemes_map (first : Expr × Expr) (others : List (Expr × Expr)) (place : Nat) :
    lexemes (.map (first :: others) place) = .opening :: ((pairLexeme first ++
      others.flatMap (Lexeme.between .comma ++ pairLexeme ·)) ++ [.closing]) := by
  rw [lexemes, pairLexemes_eq, List.map_cons, intercalate_cons, List.flatMap_map]
  rfl

theorem reads_map (inside : ReadsInner self size) {pairs : List (Expr × Expr)}
    (nonempty : pairs ≠ []) (keys : ∀ pair ∈ pairs, Printable .space pair.1)
    (values : ∀ pair ∈ pairs, Printable .space pair.2) (place : Nat)
    (small : (lexemes (.map pairs place)).length ≤ size + 1) :
    Reads (unary self) .unary (.map pairs place) := by
  intro line tokens rest cursor written ahead ends
  obtain ⟨first, others, rfl⟩ := List.exists_cons_of_ne_nil nonempty
  rw [lexemes_map] at written small
  rw [List.length_cons, List.length_append, List.length_singleton] at small
  have shorter : ∀ pair ∈ first :: others, (pairLexeme pair).length ≤ size := by
    intro pair member
    have := length_le_of_member (Lexeme.between .comma) pairLexeme member
    omega
  have readsKey : ∀ pair ∈ first :: others, Reads (self .space) .space pair.1 := by
    intro pair member
    have := shorter pair member
    rw [pairLexeme, List.length_append] at this
    exact inside.space _ (keys pair member) (by omega)
  have readsValue : ∀ pair ∈ first :: others, Reads (self .space) .space pair.2 := by
    intro pair member
    have := shorter pair member
    rw [pairLexeme, List.length_append, List.length_cons, List.length_cons] at this
    exact inside.space _ (values pair member) (by omega)
  obtain ⟨opening, more, rfl, kind, -, start, written⟩ := written.cons_cases
  obtain ⟨body, last, rfl, writtenBody, closing⟩ := written.append_cases
  obtain ⟨close, none, rfl, closeKind, -, -, empty⟩ := closing.cons_cases
  obtain rfl : none = [] := by simpa using empty.length_eq
  obtain ⟨head, tail, rfl, writtenFirst, writtenOthers⟩ := writtenBody.append_cases
  obtain ⟨keyTokens, behindKey, rfl, writtenKey, writtenFirst⟩ := writtenFirst.append_cases
  have endsOthers : Ends .space (close :: rest) := .closed _ _ (.inl closeKind)
  have endsFirst := ends_members endsOthers (ends_comma others) writtenOthers
  have aheadKey : cursor.ahead =
      opening :: (keyTokens ++ (behindKey ++ (tail ++ close :: rest))) := by
    rw [ahead]
    simp
  have aheadColon : (cursor.advance (1 + keyTokens.length)).ahead =
      behindKey ++ (tail ++ close :: rest) := by
    rw [← Cursor.advance_advance,
      Cursor.ahead_advance_of_append (Cursor.ahead_advance_one aheadKey)]
  obtain ⟨valueTokens, behindLength, writtenValue, endsKey, colon, skipped, aheadValue⟩ :=
    colon_cases (values first (by simp)) writtenFirst aheadColon
  have readValue := readsValue first (by simp) _ _ _ _ writtenValue aheadValue endsFirst
  have aheadOthers := Cursor.ahead_advance_of_append aheadValue
  have closed (cursor : Cursor) (ahead : cursor.ahead = close :: rest) :
      cursor.skipTrivia = cursor ∧ cursor.current.kind ≠ .comma := by
    rw [Cursor.current_of_cons ahead, closeKind]
    exact ⟨Cursor.skipTrivia_of_visible ahead (congrArg TokenKind.isTrivia closeKind), by decide⟩
  have looped := loop_members endsOthers (fun item _ => by simp [Lexeme.between])
    (ends_comma others)
    (fun pair member state _ _ _ => mapRound_again (keys pair (by simp [member]))
      (values pair (by simp [member])) (readsKey pair (by simp [member]))
      (readsValue pair (by simp [member])) state)
    (fun state cursor ahead => mapRound_done state (closed cursor ahead).1 (closed cursor ahead).2)
    writtenOthers aheadOthers [(onLine line first.1, onLine line first.2)]
  have atClose := Cursor.current_of_cons (Cursor.ahead_advance_of_append aheadOthers)
  rw [unary_of_leftParen (Cursor.current_of_cons ahead ▸ kind),
    parenthesized_first (keys first (by simp)) (readsKey first (by simp)) kind start writtenKey
      aheadKey endsKey, parenTail, bind_of_ok (accept_of_eq colon), if_pos rfl, mapRest_eq,
    bind_of_ok skipTrivia_apply, skipped, bind_of_ok readValue, bind_of_ok looped, foldl_push,
    bind_of_ok (expect_of_eq (atClose ▸ closeKind)), Cursor.advance_advance,
    Cursor.advance_advance, Cursor.advance_advance, Cursor.advance_advance, onLine, pairsOnLine_eq]
  have total : 1 + keyTokens.length + (2 + (valueTokens.length + (tail.length + 1))) =
      (opening :: (keyTokens ++ behindKey ++ tail ++ [close])).length := by
    simp only [List.length_cons, List.length_append, List.length_nil]
    omega
  rw [← total]
  rfl

end Parentheses

section Operands

variable {self : Self} {size : Nat}

theorem reads_var (name : String) (place : Nat) : Reads (unary self) .unary (.var name place) := by
  intro line tokens rest cursor written ahead ends
  rw [lexemes] at written
  obtain ⟨token, none, rfl, kind, text, start, empty⟩ := written.cons_cases
  obtain rfl : none = [] := by simpa using empty.length_eq
  have found := Cursor.current_of_cons ahead
  have named : token.name = name := by
    apply String.toList_injective
    simp [Token.name, Text.dropFirst, text]
  simp only at kind
  rw [unary, bind_of_ok current_apply, found]
  simp only [kind, Token.isWord, reduceCtorEq, decide_false, Bool.or_false, Bool.false_eq_true,
    if_false, Bool.false_and]
  rw [bind_of_ok (peek_apply 1), primary, bind_of_ok current_apply, found]
  simp only [kind]
  rw [bind_of_ok (advance_apply 1), named, start]
  rfl

/-- A sign goes with a variable or parentheses as it is. -/
theorem signed_onLine {op : UnaryOp} {operand : Expr} (signs : op ≠ .not)
    (signable : isSignable operand = true) (line place : Nat) :
    signed (decide ((Lexeme.unary op).1 = .minus)) line (onLine line operand) =
      onLine line (.unary op operand place) := by
  cases op with
  | not => exact absurd rfl signs
  | plus => cases operand <;> first | rfl | simp [isSignable] at signable
  | minus => cases operand <;> first | rfl | simp [isSignable] at signable

theorem reads_sign (inside : ReadsInner self size) {op : UnaryOp} {operand : Expr}
    (signs : op ≠ .not) (signable : isSignable operand = true) (printable : Printable .unary operand)
    (small : (lexemes operand).length ≤ size) (place : Nat) :
    Reads (unary self) .unary (.unary op operand place) := by
  intro line tokens rest cursor written ahead ends
  rw [lexemes.eq_4 _ _ _ signs] at written
  obtain ⟨token, inner, rfl, kind, -, start, written⟩ := written.cons_cases
  have found := Cursor.current_of_cons ahead
  have next := Cursor.ahead_advance_one ahead
  obtain ⟨first, others, shown, visible, -⟩ :=
    ((opens_of_written printable written).append rest).visible
  have read := inside.unary operand printable small _ _ _ _ written next ends
  have signKind : (decide (token.kind = .minus) || decide (token.kind = .plus)) = true := by
    rw [kind]
    cases op with
    | not => exact absurd rfl signs
    | plus => rfl
    | minus => rfl
  rw [unary, bind_of_ok current_apply, found, if_pos signKind, bind_of_ok (advance_apply 1),
    bind_of_ok skipTrivia_apply, Cursor.skipTrivia_of_visible (next.trans shown) visible,
    bind_of_ok read, kind, start, signed_onLine signs signable line place, Cursor.advance_advance,
    Nat.add_comm, List.length_cons]
  rfl

theorem reads_negation (inside : ReadsInner self size) {operand : Expr}
    (printable : Printable .unary operand) (small : (lexemes operand).length ≤ size) (place : Nat) :
    Reads (unary self) .unary (.unary .not operand place) := by
  intro line tokens rest cursor written ahead ends
  rw [lexemes] at written
  obtain ⟨token, more, rfl, kind, text, start, written⟩ := written.cons_cases
  obtain ⟨blank, inner, rfl, blankKind, -, -, written⟩ := written.cons_cases
  rw [List.cons_append, List.cons_append] at ahead
  have found := Cursor.current_of_cons ahead
  have atBlank := Cursor.ahead_advance_one ahead
  have next := Cursor.ahead_advance_one atBlank
  obtain ⟨first, others, shown, visible, -⟩ :=
    ((opens_of_written printable written).append rest).visible
  have skipped : (cursor.advance 1).skipTrivia = (cursor.advance 1).advance 1 := by
    rw [shown] at atBlank
    exact Cursor.skipTrivia_of_blank atBlank (congrArg TokenKind.isTrivia blankKind) visible
  have read := inside.unary operand printable small _ _ _ _ written next ends
  have peeked : cursor.peek 1 = blank := by
    rw [Cursor.peek, ahead]
    rfl
  have word : token.isWord "not" = true := by
    rw [Token.isWord, kind, text]
    rfl
  simp only [Lexeme.unary, Lexeme.word] at kind
  rw [unary, bind_of_ok current_apply, found]
  simp only [kind, reduceCtorEq, decide_false, Bool.or_false, Bool.false_eq_true, if_false]
  rw [bind_of_ok (peek_apply 1), peeked, word, blankKind]
  simp only [Lexeme.blank, decide_true, Bool.true_or, Bool.and_self, if_true]
  rw [bind_of_ok (advance_apply 1), bind_of_ok skipTrivia_apply, skipped, bind_of_ok read, start,
    Cursor.advance_advance, Cursor.advance_advance, ← Nat.add_assoc, Nat.add_comm (1 + 1)]
  rfl

/-- An operand is read back whatever its form, if the forms inside it are. -/
theorem reads_unary (inside : ReadsInner self size) {rank : Rank} {expr : Expr}
    (printable : Printable rank expr) (single : rank = .unary)
    (small : (lexemes expr).length ≤ size + 1) : Reads (unary self) .unary expr := by
  induction printable with
  | var line nonempty letters => exact reads_var _ line
  | paren line body =>
    rw [lexemes, List.length_cons, List.length_append] at small
    exact reads_paren inside body (by omega) line
  | sign line signs signable body =>
    rw [lexemes.eq_4 _ _ _ signs, List.length_cons] at small
    exact reads_sign inside signs signable body (by omega) line
  | negation line body =>
    rw [lexemes, List.length_cons, List.length_cons] at small
    exact reads_negation inside body (by omega) line
  | map line nonempty keys values => exact reads_map inside nonempty keys values line small
  | @binary rank op left right line ranked => cases op <;> simp [← ranked, operatorRank] at single
  | spaceList => cases single
  | commaList => cases single
  | looser body ih =>
    subst single
    exact ih rfl small

/-- Each rank reads what the tighter one does and what its own rule makes of it. -/
theorem reads_lists (inside : ReadsInner self size) :
    (∀ expr, Printable .space expr → (lexemes expr).length ≤ size + 1 →
      Reads (spaceList self []) .space expr) ∧
    ∀ expr, Printable .comma expr → (lexemes expr).length ≤ size + 1 →
      Reads (commaList self []) .comma expr := by
  have unaries : ∀ expr, Printable .unary expr → (lexemes expr).length ≤ size + 1 →
      Reads (unary self) .unary expr :=
    fun expr printable small => reads_unary inside printable rfl small
  have products : ∀ expr, Printable .product expr → (lexemes expr).length ≤ size + 1 →
      Reads (product self) .product expr :=
    fun expr printable small => reads_leftAssociative printable rfl small unaries
  have sums : ∀ expr, Printable .sum expr → (lexemes expr).length ≤ size + 1 →
      Reads (sum self) .sum expr :=
    fun expr printable small => reads_leftAssociative printable rfl small products
  have comparisons : ∀ expr, Printable .comparison expr → (lexemes expr).length ≤ size + 1 →
      Reads (comparison self) .comparison expr :=
    fun expr printable small => reads_leftAssociative printable rfl small sums
  have conjunctions : ∀ expr, Printable .conjunction expr → (lexemes expr).length ≤ size + 1 →
      Reads (conjunction self) .conjunction expr :=
    fun expr printable small => reads_leftAssociative printable rfl small comparisons
  have disjunctions : ∀ expr, Printable .disjunction expr → (lexemes expr).length ≤ size + 1 →
      Reads (disjunction self) .disjunction expr :=
    fun expr printable small => reads_leftAssociative printable rfl small conjunctions
  have spaces : ∀ expr, Printable .space expr → (lexemes expr).length ≤ size + 1 →
      Reads (spaceList self []) .space expr :=
    fun expr printable small => reads_spaceList printable small disjunctions
  exact ⟨spaces, fun expr printable small => reads_commaList printable small spaces⟩

end Operands

theorem lexemes_ne_nil {rank : Rank} {expr : Expr} (printable : Printable rank expr) :
    lexemes expr ≠ [] := by
  intro empty
  have written : Written 0 (lexemes expr) [] := ⟨by rw [empty]; rfl, by simp⟩
  obtain ⟨token, rest, shown, -⟩ := (opens_of_written printable written).visible
  cases shown

/-- As deep as there are tokens is deep enough. -/
theorem readsInner_of_depth (size : Nat) : ReadsInner (Form.parser (size + 1)) size := by
  induction size with
  | zero =>
    refine ⟨fun expr printable small => ?_, fun expr printable small => ?_⟩
    · exact absurd (List.eq_nil_of_length_eq_zero (by omega)) (lexemes_ne_nil printable)
    · exact absurd (List.eq_nil_of_length_eq_zero (by omega)) (lexemes_ne_nil printable)
  | succ size ih =>
    exact ⟨fun expr printable small => reads_unary ih printable rfl small, (reads_lists ih).1⟩

/-- The tokens of an expression's text. -/
theorem tokens_print {rank : Rank} {expr : Expr} (printable : Printable rank expr) :
    ∃ tokens last, Written 1 (lexemes expr) tokens ∧ last.kind = .endOfInput ∧
      Lexer.tokens (print expr) = .ok (tokens ++ [last]) := by
  obtain ⟨tokens, written, -, lexed⟩ :=
    lexes_print printable [] (by simp [Separated]) Position.start
  rw [List.append_nil, Lexer.tokensAt_nil] at lexed
  exact ⟨tokens, _, written, rfl, lexed⟩

theorem complete_of_reads {parser : Parser Expr} {expr : Expr} (printable : Printable .comma expr)
    (reads : Reads parser .comma expr) {line : Nat} {tokens : List Token} {cursor : Cursor}
    (written : Written line (lexemes expr) tokens) (ahead : cursor.ahead = tokens) :
    complete parser cursor = .ok (onLine line expr, cursor.advance tokens.length) := by
  have read := reads line tokens [] cursor written (by rw [ahead, List.append_nil]) (.nothing _)
  obtain ⟨first, others, shown, visible, -⟩ := (opens_of_written printable written).visible
  have behind : (cursor.advance tokens.length).ahead = [] := by
    rw [Cursor.ahead_advance, ahead, List.drop_length]
  obtain ⟨still, -⟩ := (Ends.nothing .comma).marked (by decide) behind
  have finished : atEnd (cursor.advance tokens.length) =
      .ok (true, cursor.advance tokens.length) := by
    have last : (cursor.advance tokens.length).current.kind = .endOfInput := by
      rw [Cursor.current, behind]
      exact (cursor.advance tokens.length).last_kind
    rw [atEnd, get_bind, Cursor.atEnd, last]
    rfl
  rw [complete, bind_of_ok skipTrivia_apply,
    Cursor.skipTrivia_of_visible (ahead.trans shown) visible, bind_of_ok read,
    bind_of_ok skipTrivia_apply, still, bind_of_ok finished]
  rfl

/-- Reading inverts writing: the text of an expression is read as that expression, on one line. -/
theorem expression_print {expr : Expr} (printable : Printable .comma expr) :
    expression (print expr) = .ok (onLine 1 expr) := by
  obtain ⟨tokens, last, written, ends, lexed⟩ := tokens_print printable
  have short : (lexemes expr).length ≤ (print expr).length := by
    have bounded := (Lexer.tiling_of_tokensAt lexed).length_le
    rw [List.length_append, List.length_singleton, written.length_eq, String.length_toList] at bounded
    omega
  have start : cursorOf (print expr) = .ok ⟨[], tokens, last, ends⟩ := by
    simp [cursorOf, lexed, Cursor.ofTokens, ends]
  have reads : Reads (commaList (expressions (print expr)) []) .comma expr :=
    (reads_lists (readsInner_of_depth (print expr).length)).2 expr printable (by omega)
  have read : complete (commaList (expressions (print expr)) []) ⟨[], tokens, last, ends⟩ =
      .ok (onLine 1 expr, _) := complete_of_reads printable reads written rfl
  rw [expression, start]
  change (·.1) <$> complete _ _ = _
  rw [read]
  rfl

/-- A sum of a product under a negation, beside a map whose value is a list with a sign in it. -/
theorem expression_print_mixed :
    expression "not ($a + -$b * $c), ($k: $v -$w)" = .ok (.list
      [.unary .not (.paren (.binary .add (.var "a" 1)
          (.binary .mul (.unary .minus (.var "b" 1) 1) (.var "c" 1) 1) 1) 1) 1,
        .map [(.var "k" 1, .list [.var "v" 1, .unary .minus (.var "w" 1) 1] .space false 1)] 1]
      .comma false 1) := by
  have letter (c : Char) (isLetter : c.isAlpha = true) (rank : Rank) :
      Printable rank (.var (String.singleton c) 1) :=
    Printable.loosen (.var 1 (by simp) (by simpa using isLetter)) (Nat.zero_le _)
  have minus (c : Char) (isLetter : c.isAlpha = true) (rank : Rank) :
      Printable rank (.unary .minus (.var (String.singleton c) 1) 1) :=
    Printable.loosen (.sign 1 (by decide) rfl (letter c isLetter _)) (Nat.zero_le _)
  have sum : Printable .sum (.binary .add (.var "a" 1)
      (.binary .mul (.unary .minus (.var "b" 1) 1) (.var "c" 1) 1) 1) :=
    .binary 1 rfl (letter 'a' rfl _) (.binary 1 rfl (minus 'b' rfl _) (letter 'c' rfl _))
  have pairs : Printable .unary (.map [(.var "k" 1,
      .list [.var "v" 1, .unary .minus (.var "w" 1) 1] .space false 1)] 1) := by
    refine .map 1 (by simp) ?_ ?_
    · simpa using letter 'k' rfl _
    · simpa using Printable.spaceList 1 (by simp)
        (by simpa using ⟨letter 'v' rfl .disjunction, minus 'w' rfl .disjunction⟩)
  have printable : Printable .comma (.list
      [.unary .not (.paren (.binary .add (.var "a" 1)
          (.binary .mul (.unary .minus (.var "b" 1) 1) (.var "c" 1) 1) 1) 1) 1,
        .map [(.var "k" 1, .list [.var "v" 1, .unary .minus (.var "w" 1) 1] .space false 1)] 1]
      .comma false 1) := by
    refine .commaList 1 (by simp) ?_
    simp only [List.mem_cons, List.not_mem_nil, or_false, forall_eq_or_imp, forall_eq]
    have negation := Printable.negation 1 (.paren 1 (sum.loosen (by decide)))
    exact ⟨negation.loosen (by decide), pairs.loosen (by decide)⟩
  have read := expression_print printable
  have text : print (.list
      [.unary .not (.paren (.binary .add (.var "a" 1)
          (.binary .mul (.unary .minus (.var "b" 1) 1) (.var "c" 1) 1) 1) 1) 1,
        .map [(.var "k" 1, .list [.var "v" 1, .unary .minus (.var "w" 1) 1] .space false 1)] 1]
      .comma false 1) = "not ($a + -$b * $c), ($k: $v -$w)" := by decide +kernel
  rw [text] at read
  exact read

end Scss.Grammar
