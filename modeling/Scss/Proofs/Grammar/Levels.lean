import Scss.Proofs.Grammar.Reading

/-! The levels of operators. Each level reads operands of the tighter one and stops where the tokens
behind an operand belong to a looser one; `Ends` says which tokens these are. -/
namespace Scss.Grammar

open Scss.Parser

section Tokens

variable {line : Nat} {tokens : List Token}

theorem Written.cons_cases {lexeme : Lexeme} {lexemes : List Lexeme}
    (written : Written line (lexeme :: lexemes) tokens) :
    ∃ token more, tokens = token :: more ∧ token.kind = lexeme.1 ∧ token.text = lexeme.2 ∧
      token.line = line ∧ Written line lexemes more := by
  obtain ⟨spelled, lined⟩ := written
  obtain ⟨token, more, rfl, first, others⟩ := List.map_eq_cons_iff.mp spelled
  refine ⟨token, more, rfl, ?_, ?_, lined token (by simp), others, fun other member => ?_⟩
  · rw [← first]
  · rw [← first]
  · exact lined other (by simp [member])

theorem Written.append_cases {first second : List Lexeme}
    (written : Written line (first ++ second) tokens) :
    ∃ head tail, tokens = head ++ tail ∧ Written line first head ∧ Written line second tail := by
  obtain ⟨spelled, lined⟩ := written
  obtain ⟨head, tail, rfl, before, after⟩ := List.map_eq_append_iff.mp spelled
  refine ⟨head, tail, rfl, ⟨before, fun token member => ?_⟩, after, fun token member => ?_⟩
  · exact lined token (by simp [member])
  · exact lined token (by simp [member])

theorem Written.length_eq {lexemes : List Lexeme} (written : Written line lexemes tokens) :
    tokens.length = lexemes.length := by
  rw [← written.lexemes_eq, List.length_map]

end Tokens

/-- The tokens that an expression starts with. A sign stands directly before its operand. -/
inductive Opens : List Token → Prop where
  | value {token : Token} (rest : List Token) (kind : token.kind = .dollar ∨ token.kind = .leftParen) :
      Opens (token :: rest)
  | negation {token : Token} (rest : List Token) (kind : token.kind = .ident)
      (text : token.text = "not") : Opens (token :: rest)
  | sign {token next : Token} (rest : List Token) (kind : token.kind = .plus ∨ token.kind = .minus)
      (visible : next.isTrivia = false) : Opens (token :: next :: rest)

theorem Opens.append {tokens : List Token} (opens : Opens tokens) (rest : List Token) :
    Opens (tokens ++ rest) := by
  cases opens with
  | value more kind => exact .value _ kind
  | negation more kind text => exact .negation _ kind text
  | sign more kind visible => exact .sign _ kind visible

theorem Opens.visible {tokens : List Token} (opens : Opens tokens) :
    ∃ token rest, tokens = token :: rest ∧ token.isTrivia = false ∧ token.kind ≠ .rightParen ∧
      startsValue [] token = true := by
  cases opens with
  | @value token rest kind =>
    refine ⟨token, rest, rfl, ?_⟩
    rcases kind with kind | kind <;> simp [Token.isTrivia, TokenKind.isTrivia, startsValue, kind]
  | @negation token rest kind text =>
    refine ⟨token, rest, rfl, ?_⟩
    have other : Text.same "not" "and" = false ∧ Text.same "not" "or" = false := by decide
    simp [Token.isTrivia, TokenKind.isTrivia, startsValue, kind, Token.isWord, text, other.1, other.2]
  | @sign token next rest kind visible =>
    refine ⟨token, next :: rest, rfl, ?_⟩
    rcases kind with kind | kind <;> simp [Token.isTrivia, TokenKind.isTrivia, startsValue, kind]

theorem opens_of_written {rank : Rank} {expr : Expr} (printable : Printable rank expr) {line : Nat}
    {tokens : List Token} (written : Written line (lexemes expr) tokens) : Opens tokens := by
  induction printable generalizing tokens with
  | var _ nonempty letters =>
    rw [lexemes] at written
    obtain ⟨token, more, rfl, kind, -⟩ := written.cons_cases
    exact .value more (.inl kind)
  | paren _ body ih =>
    rw [lexemes] at written
    obtain ⟨token, more, rfl, kind, -⟩ := written.cons_cases
    exact .value more (.inr kind)
  | @sign op operand _ signs signable body ih =>
    rw [lexemes.eq_4 _ _ _ signs] at written
    obtain ⟨token, more, rfl, kind, -, -, inner⟩ := written.cons_cases
    obtain ⟨next, others, rfl, visible, -⟩ := (ih inner).visible
    refine .sign others ?_ visible
    cases op with
    | not => exact absurd rfl signs
    | plus => exact .inl kind
    | minus => exact .inr kind
  | negation _ body ih =>
    rw [lexemes] at written
    obtain ⟨token, more, rfl, kind, text, -⟩ := written.cons_cases
    exact .negation more kind text
  | map _ nonempty keys values =>
    rw [lexemes] at written
    obtain ⟨token, more, rfl, kind, -⟩ := written.cons_cases
    exact .value more (.inr kind)
  | binary _ ranked first second ih =>
    rw [lexemes] at written
    obtain ⟨head, tail, rfl, start, -⟩ := written.append_cases
    exact (ih start).append tail
  | @spaceList items _ several members ih =>
    cases items with
    | nil => simp at several
    | cons item others =>
      rw [lexemes, allLexemes, intercalate_cons] at written
      obtain ⟨head, tail, rfl, start, -⟩ := written.append_cases
      exact (ih item (by simp) start).append tail
  | @commaList items _ several members ih =>
    cases items with
    | nil => simp at several
    | cons item others =>
      rw [lexemes, allLexemes, intercalate_cons] at written
      obtain ⟨head, tail, rfl, start, -⟩ := written.append_cases
      exact (ih item (by simp) start).append tail
  | looser body ih => exact ih written

/-- What may stand behind an expression of a rank without becoming a part of it. -/
inductive Ends : Rank → List Token → Prop where
  | nothing (rank : Rank) : Ends rank []
  | closed (rank : Rank) {token : Token} (rest : List Token)
      (kind : token.kind = .rightParen ∨ token.kind = .colon) : Ends rank (token :: rest)
  | comma {rank : Rank} {token : Token} (rest : List Token) (within : rank ≠ .comma)
      (kind : token.kind = .comma) : Ends rank (token :: rest)
  | operator {rank : Rank} {op : BinaryOp} {blank token behind : Token} (rest : List Token)
      (loose : rank.index < (operatorRank op).index) (before : blank.kind = .whitespace)
      (kind : token.kind = (Lexeme.binary op).1) (text : token.text = (Lexeme.binary op).2)
      (after : behind.kind = .whitespace) : Ends rank (blank :: token :: behind :: rest)
  | item {rank : Rank} {blank : Token} {rest : List Token} (within : rank.index < 6)
      (before : blank.kind = .whitespace) (opens : Opens rest) : Ends rank (blank :: rest)

theorem Ends.tighter {rank : Rank} {tokens : List Token} (ends : Ends rank tokens) :
    Ends rank.tighter tokens := by
  have below : rank.tighter.index ≤ rank.index := by cases rank <;> decide
  cases ends with
  | nothing => exact .nothing _
  | closed rest kind => exact .closed _ rest kind
  | comma rest within kind => exact .comma rest (by cases rank <;> simp [Rank.tighter]) kind
  | operator rest loose before kind text after =>
    exact .operator rest (by omega) before kind text after
  | item within before opens => exact .item (by omega) before opens

section Operators

variable {cursor : Cursor} {rest : List Token}

theorem operatorByKind_of_none {table : TokenKind → Option BinaryOp}
    (other : table cursor.skipTrivia.current.kind = none) :
    operatorByKind table cursor = .ok (none, cursor) := by
  rw [operatorByKind, get_bind, bind_of_ok skipTrivia_apply, bind_of_ok current_apply, other]
  rfl

theorem operatorByKind_of_some {table : TokenKind → Option BinaryOp} {op : BinaryOp}
    (found : table cursor.skipTrivia.current.kind = some op) :
    operatorByKind table cursor = .ok (some op, (cursor.skipTrivia.advance 1).skipTrivia) := by
  rw [operatorByKind, get_bind, bind_of_ok skipTrivia_apply, bind_of_ok current_apply, found]
  rfl

theorem sumOperator_of_none (other : sumOp cursor.skipTrivia.current.kind = none) :
    sumOperator cursor = .ok (none, cursor) := by
  rw [sumOperator, get_bind, bind_of_ok skipTrivia_apply, bind_of_ok current_apply, other]
  rfl

/-- A sign is no operator. -/
theorem sumOperator_of_sign (blank : cursor.current.isTrivia = true)
    (visible : (cursor.skipTrivia.peek 1).isTrivia = false) :
    sumOperator cursor = .ok (none, cursor) := by
  rw [sumOperator, get_bind, bind_of_ok skipTrivia_apply, bind_of_ok current_apply]
  cases sumOp cursor.skipTrivia.current.kind with
  | none => rfl
  | some op =>
    simp only [blank, bind_of_ok (peek_apply 1), visible, Bool.not_false, Bool.and_self, if_true]
    rw [bind_of_ok set_apply]
    rfl

theorem sumOperator_of_some {op : BinaryOp} (found : sumOp cursor.skipTrivia.current.kind = some op)
    (spaced : (cursor.skipTrivia.peek 1).isTrivia = true) :
    sumOperator cursor = .ok (some op, (cursor.skipTrivia.advance 1).skipTrivia) := by
  rw [sumOperator, get_bind, bind_of_ok skipTrivia_apply, bind_of_ok current_apply, found]
  simp only [bind_of_ok (peek_apply 1), spaced, Bool.not_true, Bool.and_false, if_false,
    Bool.false_eq_true]
  rw [bind_of_ok (advance_apply 1), bind_of_ok skipTrivia_apply]
  rfl

theorem wordOperator_of_ne {word : String} {op : BinaryOp}
    (other : cursor.skipTrivia.current.isWord word = false) :
    wordOperator word op cursor = .ok (none, cursor) := by
  rw [wordOperator, bind_of_ok (significant_apply 0), ← Cursor.current_skipTrivia, other]
  rfl

theorem wordOperator_of_eq {word : String} {op : BinaryOp}
    (found : cursor.skipTrivia.current.isWord word = true) :
    wordOperator word op cursor = .ok (some op, (cursor.skipTrivia.advance 1).skipTrivia) := by
  rw [wordOperator, bind_of_ok (significant_apply 0), ← Cursor.current_skipTrivia, if_pos found,
    bind_of_ok skipTrivia_apply, bind_of_ok (advance_apply 1), bind_of_ok skipTrivia_apply]
  rfl

/-- The ranks that operators make. -/
def Rank.isLevel (rank : Rank) : Bool := 0 < rank.index && rank.index < 6

def levelOperator : Rank → Parser (Option BinaryOp)
  | .product => operatorByKind productOp
  | .sum => sumOperator
  | .comparison => operatorByKind comparisonOp
  | .conjunction => wordOperator "and" .and
  | .disjunction => wordOperator "or" .or
  | _ => pure none

def operatorAt : Rank → Token → Option BinaryOp
  | .product, token => productOp token.kind
  | .sum, token => sumOp token.kind
  | .comparison, token => comparisonOp token.kind
  | .conjunction, token => if token.isWord "and" then some .and else none
  | .disjunction, token => if token.isWord "or" then some .or else none
  | _, _ => none

theorem levelOperator_of_none {rank : Rank} (other : operatorAt rank cursor.skipTrivia.current = none) :
    levelOperator rank cursor = .ok (none, cursor) := by
  cases rank with
  | unary => rfl
  | product => exact operatorByKind_of_none other
  | sum => exact sumOperator_of_none other
  | comparison => exact operatorByKind_of_none other
  | conjunction => exact wordOperator_of_ne (by simpa [operatorAt] using other)
  | disjunction => exact wordOperator_of_ne (by simpa [operatorAt] using other)
  | space => rfl
  | comma => rfl

theorem levelOperator_of_some {rank : Rank} {op : BinaryOp}
    (found : operatorAt rank cursor.skipTrivia.current = some op)
    (spaced : (cursor.skipTrivia.peek 1).isTrivia = true) :
    levelOperator rank cursor = .ok (some op, (cursor.skipTrivia.advance 1).skipTrivia) := by
  cases rank with
  | unary => simp [operatorAt] at found
  | product => exact operatorByKind_of_some found
  | sum => exact sumOperator_of_some found spaced
  | comparison => exact operatorByKind_of_some found
  | conjunction =>
    obtain ⟨word, rfl⟩ : _ ∧ BinaryOp.and = op := by simpa [operatorAt] using found
    exact wordOperator_of_eq word
  | disjunction =>
    obtain ⟨word, rfl⟩ : _ ∧ BinaryOp.or = op := by simpa [operatorAt] using found
    exact wordOperator_of_eq word
  | space => simp [operatorAt] at found
  | comma => simp [operatorAt] at found

/-- Only the level of an operator finds it. -/
theorem operatorAt_binary {token : Token} {op : BinaryOp} (kind : token.kind = (Lexeme.binary op).1)
    (text : token.text = (Lexeme.binary op).2) (rank : Rank) :
    operatorAt rank token = if operatorRank op = rank then some op else none := by
  have words : Text.same "and" "or" = false ∧ Text.same "or" "and" = false := by decide
  cases op <;> simp only [Lexeme.binary, Lexeme.word] at kind text <;> cases rank <;>
    simp [operatorAt, operatorRank, kind, text, productOp, sumOp, comparisonOp, Token.isWord,
      Text.same_refl, words.1, words.2]

/-- These tokens are no operators, at any level. -/
theorem operatorAt_plain {token : Token} (rank : Rank) (kind : token.kind ∈
    [TokenKind.endOfInput, .rightParen, .colon, .comma, .dollar, .leftParen]) :
    operatorAt rank token = none := by
  simp only [List.mem_cons, List.not_mem_nil, or_false] at kind
  rcases kind with kind | kind | kind | kind | kind | kind <;> cases rank <;>
    simp [operatorAt, kind, productOp, sumOp, comparisonOp, Token.isWord]

theorem operatorAt_negation {token : Token} (rank : Rank) (kind : token.kind = .ident)
    (text : token.text = "not") : operatorAt rank token = none := by
  have words : Text.same "not" "and" = false ∧ Text.same "not" "or" = false := by decide
  cases rank <;>
    simp [operatorAt, kind, text, productOp, sumOp, comparisonOp, Token.isWord, words.1, words.2]

/-- Only a sum takes a sign for an operator, and only if no operand stands behind it directly. -/
theorem operatorAt_sign {token : Token} {rank : Rank} (other : rank ≠ .sum)
    (kind : token.kind = .plus ∨ token.kind = .minus) : operatorAt rank token = none := by
  rcases kind with kind | kind <;> cases rank <;>
    simp_all [operatorAt, productOp, comparisonOp, Token.isWord]

/-- Where the operand of a level ends, none of its operators is found. -/
theorem levelOperator_of_ends {rank : Rank} (ends : Ends rank rest)
    (ahead : cursor.ahead = rest) : levelOperator rank cursor = .ok (none, cursor) := by
  cases ends with
  | nothing =>
    have still : cursor.skipTrivia = cursor := by
      rw [Cursor.skipTrivia, Cursor.skipWhile, ahead]
      rfl
    have last : cursor.current = cursor.last := by
      rw [Cursor.current, ahead]
      rfl
    exact levelOperator_of_none
      (operatorAt_plain rank (by simp [still, last, cursor.last_kind]))
  | @closed token rest kind =>
    have visible : token.isTrivia = false := by
      rcases kind with kind | kind <;> exact congrArg TokenKind.isTrivia kind
    apply levelOperator_of_none
    rw [Cursor.skipTrivia_of_visible ahead visible, Cursor.current_of_cons ahead]
    exact operatorAt_plain rank (by rcases kind with kind | kind <;> simp [kind])
  | comma rest within kind =>
    apply levelOperator_of_none
    rw [Cursor.skipTrivia_of_visible ahead (congrArg TokenKind.isTrivia kind),
      Cursor.current_of_cons ahead]
    exact operatorAt_plain rank (by simp [kind])
  | @operator op blank token behind rest loose before kind text after =>
    have visible : token.isTrivia = false := by
      rw [Token.isTrivia, kind]
      cases op <;> rfl
    apply levelOperator_of_none
    rw [Cursor.skipTrivia_of_blank ahead (congrArg TokenKind.isTrivia before) visible,
      Cursor.current_of_cons (Cursor.ahead_advance_one ahead), operatorAt_binary kind text, if_neg]
    rintro rfl
    exact absurd loose (lt_irrefl _)
  | @item blank rest within before opens =>
    have blankTrivia : blank.isTrivia = true := congrArg TokenKind.isTrivia before
    obtain ⟨first, others, shown, visible, -⟩ := opens.visible
    rw [shown] at ahead
    have skipped := Cursor.skipTrivia_of_blank ahead blankTrivia visible
    have next := Cursor.ahead_advance_one ahead
    have found : cursor.skipTrivia.current = first := by
      rw [skipped, Cursor.current_of_cons next]
    cases opens with
    | value more kind =>
      obtain ⟨rfl, -⟩ := List.cons_eq_cons.mp shown
      apply levelOperator_of_none
      rw [found]
      exact operatorAt_plain rank (by rcases kind with kind | kind <;> simp [kind])
    | negation more kind text =>
      obtain ⟨rfl, -⟩ := List.cons_eq_cons.mp shown
      apply levelOperator_of_none
      rw [found]
      exact operatorAt_negation rank kind text
    | @sign token operand more kind direct =>
      obtain ⟨rfl, rfl⟩ := List.cons_eq_cons.mp shown
      by_cases isSum : rank = .sum
      · subst isSum
        refine sumOperator_of_sign ?_ ?_
        · rw [Cursor.current_of_cons ahead, blankTrivia]
        · rw [skipped, Cursor.peek, next]
          exact direct
      · apply levelOperator_of_none
        rw [found]
        exact operatorAt_sign isSum kind

/-- An operator with blanks around it is passed up to its operand. -/
theorem levelOperator_of_operator {op : BinaryOp} {blank token behind next : Token}
    (ahead : cursor.ahead = blank :: token :: behind :: next :: rest)
    (before : blank.kind = .whitespace) (kind : token.kind = (Lexeme.binary op).1)
    (text : token.text = (Lexeme.binary op).2) (after : behind.kind = .whitespace)
    (visible : next.isTrivia = false) :
    levelOperator (operatorRank op) cursor = .ok (some op, cursor.advance 3) := by
  have tokenVisible : token.isTrivia = false := by
    rw [Token.isTrivia, kind]
    cases op <;> rfl
  have skipped := Cursor.skipTrivia_of_blank ahead (congrArg TokenKind.isTrivia before) tokenVisible
  have atToken := Cursor.ahead_advance_one ahead
  have atBehind := Cursor.ahead_advance_one atToken
  have found : operatorAt (operatorRank op) cursor.skipTrivia.current = some op := by
    rw [skipped, Cursor.current_of_cons atToken, operatorAt_binary kind text, if_pos rfl]
  have spaced : (cursor.skipTrivia.peek 1).isTrivia = true := by
    rw [skipped, Cursor.peek, atToken]
    exact congrArg TokenKind.isTrivia after
  rw [levelOperator_of_some found spaced, skipped,
    Cursor.skipTrivia_of_blank atBehind (congrArg TokenKind.isTrivia after) visible,
    Cursor.advance_advance, Cursor.advance_advance]

end Operators

/-- A parser reads an expression of a rank back from its tokens, and stops behind them. -/
def Reads (parser : Parser Expr) (rank : Rank) (expr : Expr) : Prop :=
  ∀ (line : Nat) (tokens rest : List Token) (cursor : Cursor),
    Written line (lexemes expr) tokens → cursor.ahead = tokens ++ rest → Ends rank rest →
      parser cursor = .ok (onLine line expr, cursor.advance tokens.length)

theorem line_onLine {rank : Rank} {expr : Expr} (printable : Printable rank expr) (line : Nat) :
    (onLine line expr).line = line := by
  induction printable with
  | looser body ih => exact ih
  | _ => rfl

section Levels

def levelRound (operand : Parser Expr) (operator : Parser (Option BinaryOp)) (left : Expr) :
    Parser (Next Expr Expr) := do
  match ← operator with
  | none => return .done left
  | some op =>
    let right ← operand
    return .again (.binary op left right left.line)

theorem leftAssociative_eq (operand : Parser Expr) (operator : Parser (Option BinaryOp)) :
    leftAssociative operand operator =
      operand >>= fun first => loop first (levelRound operand operator) := rfl

variable {rank : Rank} {operand : Parser Expr} {size : Nat}

/-- Reading the tokens of an expression brings a level to a round that has the expression at its
left. The induction goes down the left operands, and the bound is the tokens still ahead. -/
theorem leftAssociative_unrolls {expr : Expr} (printable : Printable rank expr)
    (level : rank.isLevel = true) (small : (lexemes expr).length ≤ size)
    (reads : ∀ inner, Printable rank.tighter inner → (lexemes inner).length ≤ size →
      Reads operand rank.tighter inner) {line : Nat} {tokens rest : List Token} {cursor : Cursor}
    (written : Written line (lexemes expr) tokens) (ahead : cursor.ahead = tokens ++ rest)
    (ends : Ends rank.tighter rest) :
    ∃ bound : List Token, rest.length ≤ bound.length ∧
      leftAssociative operand (levelOperator rank) cursor =
        loopWithin (levelRound operand (levelOperator rank)) bound (onLine line expr)
          (cursor.advance tokens.length) := by
  induction printable generalizing tokens rest with
  | looser body =>
    refine ⟨(cursor.advance tokens.length).ahead, ?_, ?_⟩
    · rw [Cursor.ahead_advance_of_append ahead]
    · rw [leftAssociative_eq, bind_of_ok (reads _ body small _ _ _ _ written ahead ends), loop_apply]
  | @binary rank op left right _ ranked first second ihFirst =>
    subst ranked
    rw [lexemes] at written small
    rw [List.length_append, List.length_cons, List.length_cons, List.length_cons] at small
    obtain ⟨before, others, rfl, start, tail⟩ := written.append_cases
    obtain ⟨blank, others, rfl, blankKind, -, -, tail⟩ := tail.cons_cases
    obtain ⟨token, others, rfl, kind, text, -, tail⟩ := tail.cons_cases
    obtain ⟨behind, after, rfl, behindKind, -, -, tail⟩ := tail.cons_cases
    have aheadLeft : cursor.ahead = before ++ (blank :: token :: behind :: (after ++ rest)) := by
      rw [ahead]
      simp
    have loose : (operatorRank op).tighter.index < (operatorRank op).index := by cases op <;> decide
    obtain ⟨bound, enough, unrolled⟩ := ihFirst level (by omega) reads start aheadLeft
      (.operator _ loose blankKind kind text behindKind)
    have atOperator := Cursor.ahead_advance_of_append aheadLeft
    obtain ⟨next, more, shown, visible, -⟩ := (opens_of_written second tail).visible
    have aheadOperator : (cursor.advance before.length).ahead =
        blank :: token :: behind :: next :: (more ++ rest) := by
      rw [atOperator, shown, List.cons_append]
    have passed := levelOperator_of_operator aheadOperator blankKind kind text behindKind visible
    have aheadRight : ((cursor.advance before.length).advance 3).ahead = after ++ rest := by
      rw [Cursor.ahead_advance, atOperator]
      rfl
    have readRight := reads right second (by omega) _ _ _ _ tail aheadRight ends
    have round : levelRound operand (levelOperator (operatorRank op)) (onLine line left)
        (cursor.advance before.length) =
          .ok (.again (onLine line (.binary op left right line)),
            ((cursor.advance before.length).advance 3).advance after.length) := by
      rw [levelRound, bind_of_ok passed]
      simp only [bind_of_ok readRight, line_onLine first]
      rfl
    cases bound with
    | nil => simp at enough
    | cons spare bound =>
      refine ⟨bound, by simp at enough; omega, ?_⟩
      rw [unrolled, loopWithin_again round, Cursor.advance_advance, Cursor.advance_advance]
      simp only [onLine, List.length_append, List.length_cons]
      congr 2
      omega
  | _ => simp [Rank.isLevel, Rank.index] at level

/-- A level reads what its operands and operators make. -/
theorem reads_leftAssociative {expr : Expr} (printable : Printable rank expr)
    (level : rank.isLevel = true) (small : (lexemes expr).length ≤ size)
    (reads : ∀ inner, Printable rank.tighter inner → (lexemes inner).length ≤ size →
      Reads operand rank.tighter inner) :
    Reads (leftAssociative operand (levelOperator rank)) rank expr := by
  intro line tokens rest cursor written ahead ends
  obtain ⟨bound, -, unrolled⟩ :=
    leftAssociative_unrolls printable level small reads written ahead ends.tighter
  have stopped := levelOperator_of_ends ends (Cursor.ahead_advance_of_append ahead)
  have round : levelRound operand (levelOperator rank) (onLine line expr)
      (cursor.advance tokens.length) =
        .ok (.done (onLine line expr), cursor.advance tokens.length) := by
    rw [levelRound, bind_of_ok stopped]
    rfl
  rw [unrolled, loopWithin_done round]

end Levels

end Scss.Grammar
