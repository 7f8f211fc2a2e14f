import Scss.Proofs.Grammar.RawText
import Scss.Proofs.Grammar.RoundTrip
import Scss.Proofs.Grammar.Strings
import Scss.Proofs.Logic.Statements

/-! A quoted string through the whole program: its text is the value, in quotes that are chosen anew. What
is written is one string again unless an escaped double quote is escaped once more. -/
namespace Scss

namespace Lexer

/-- The inside of a string without expressions, but for the mark that may not stand in it. -/
inductive Plain : List Char → Prop where
  | nil : Plain []
  | escape {c : Char} {rest : List Char} (more : Plain rest) : Plain ('\\' :: c :: rest)
  | letter {c : Char} {rest : List Char} (visible : c ≠ '\n' ∧ c ≠ '\\')
      (whole : c = '#' → rest.head? ≠ some '\x7b') (more : Plain rest) : Plain (c :: rest)

def escaped : List Char → List Char
  | '\\' :: c :: rest => c :: escaped rest
  | _ :: rest => escaped rest
  | [] => []

section Plain

variable {mark c : Char} {inside rest : List Char}

theorem plain_of_nested {context : Option Char} (nested : Nested context inside)
    (within : context = some mark) (unembedded : ¬ ['#', '\x7b'] <:+: inside) : Plain inside := by
  have later (front : List Char) {rest : List Char} (more : ¬ ['#', '\x7b'] <:+: front ++ rest) :
      ¬ ['#', '\x7b'] <:+: rest := fun starts =>
    more (starts.trans (List.suffix_append front rest).isInfix)
  induction nested with
  | nil => exact .nil
  | @escape _ c rest more ih => exact .escape (ih within (later ['\\', c] unembedded))
  | @expression _ text rest => exact absurd ⟨[], text ++ '\x7d' :: rest, by simp⟩ unembedded
  | @letter _ c rest plain whole more ih =>
    exact .letter ⟨plain.1, plain.2.1⟩ whole (ih within (later [c] unembedded))
  | string | block | code => cases within

/-- Such a text stands in the quotes of any mark that it does not have. -/
theorem Plain.nested (plain : Plain inside) (absent : mark ∉ inside) : Nested (some mark) inside := by
  induction plain with
  | nil => exact .nil _
  | escape more ih =>
    simp only [List.mem_cons, not_or] at absent
    exact .escape (ih absent.2.2)
  | letter visible whole more ih =>
    rw [List.mem_cons, not_or] at absent
    exact .letter ⟨visible.1, visible.2, Ne.symm absent.1⟩ whole (ih absent.2)

theorem escaped_letter (visible : c ≠ '\\') : escaped (c :: rest) = escaped rest := by
  rw [escaped]
  rintro _ _ rfl
  exact absurd rfl visible

theorem mem_of_mem_escaped (member : c ∈ escaped inside) : c ∈ inside := by
  induction inside using escaped.induct with
  | case1 d rest ih =>
    rw [escaped] at member
    rcases List.mem_cons.mp member with rfl | later
    · simp
    · exact List.mem_cons_of_mem _ (List.mem_cons_of_mem _ (ih later))
  | case2 d rest alone ih =>
    rw [escaped] at member
    · exact List.mem_cons_of_mem _ (ih member)
    · exact alone
  | case3 => cases member

end Plain

def requoted (text : List Char) : List Char :=
  text.flatMap fun c => if c = '"' then ['\\', '"'] else [c]

theorem replace_quotes (text : List Char) : Chars.replace ['"'] ['\\', '"'] text = requoted text :=
  Chars.replace_singleton '"' ['\\', '"'] text

section Requoted

variable {c : Char} {inside rest : List Char}

theorem requoted_cons : requoted (c :: rest) = (if c = '"' then ['\\', '"'] else [c]) ++ requoted rest := rfl

theorem requoted_other (other : c ≠ '"') : requoted (c :: rest) = c :: requoted rest := by
  rw [requoted_cons, if_neg other, List.singleton_append]

theorem head_requoted (brace : (requoted rest).head? = some '\x7b') : rest.head? = some '\x7b' := by
  cases rest with
  | nil => cases brace
  | cons c rest =>
    by_cases quote : c = '"'
    · subst quote
      cases brace
    · rwa [requoted_other quote] at brace

/-- What does not hold an escaped quote stands in quotes after it. -/
theorem Plain.nested_requoted (plain : Plain inside) (once : '"' ∉ escaped inside) :
    Nested (some '"') (requoted inside) := by
  induction plain with
  | nil => exact .nil _
  | @escape c rest more ih =>
    rw [escaped, List.mem_cons, not_or] at once
    rw [requoted_other (by decide), requoted_other (Ne.symm once.1)]
    exact .escape (ih once.2)
  | @letter c rest visible whole more ih =>
    rw [escaped_letter visible.2] at once
    by_cases quote : c = '"'
    · subst quote
      exact .escape (ih once)
    · rw [requoted_other quote]
      exact .letter ⟨visible.1, visible.2, quote⟩ (fun hash brace => whole hash (head_requoted brace))
        (ih once)

/-- The first escaped quote ends what is written. -/
theorem Plain.requoted_ends (plain : Plain inside) (twice : '"' ∈ escaped inside) :
    ∃ front rest, requoted inside = front ++ '"' :: rest ∧ Nested (some '"') front := by
  induction plain with
  | nil => cases twice
  | @escape c rest more ih =>
    by_cases quote : c = '"'
    · subst quote
      exact ⟨['\\', '\\'], requoted rest, rfl, .escape (.nil _)⟩
    · rw [escaped, List.mem_cons] at twice
      obtain ⟨front, last, ends, nested⟩ := ih (twice.resolve_left (Ne.symm quote))
      exact ⟨'\\' :: c :: front, last, by
        rw [requoted_other (by decide), requoted_other quote, ends]; rfl, .escape nested⟩
  | @letter c rest visible whole more ih =>
    rw [escaped_letter visible.2] at twice
    obtain ⟨front, last, ends, nested⟩ := ih twice
    by_cases quote : c = '"'
    · subst quote
      exact ⟨'\\' :: '"' :: front, last, by rw [requoted_cons, ends]; rfl, .escape nested⟩
    · refine ⟨c :: front, last, by rw [requoted_other quote, ends]; rfl,
        .letter ⟨visible.1, visible.2, quote⟩ (fun hash brace => whole hash (head_requoted ?_)) nested⟩
      rw [ends, List.head?_append, brace, Option.some_or]

end Requoted

section Whole

variable {mark : Char} {inside rest : List Char}

theorem measure_string (quote : mark = '"' ∨ mark = '\'') (nested : Nested (some mark) inside)
    (position : Position) (rest : List Char) :
    measure position mark (inside ++ mark :: rest) = .ok (.string, inside.length + 1) := by
  have visible : Chars.isBlank mark = false := by rcases quote with rfl | rfl <;> decide
  have slash : mark ≠ '/' := by rcases quote with rfl | rfl <;> decide
  rw [measure, visible]
  simp only [Bool.false_eq_true, slash, decide_false, Bool.false_and, if_false, quote, if_true]
  rw [quotedLength_closed quote nested, quotedLength_nil]
  simp [Except.map, bind, Except.bind]

/-- A nested text between two marks is one token. -/
theorem tokensAt_string (quote : mark = '"' ∨ mark = '\'') (nested : Nested (some mark) inside)
    (position : Position) : tokensAt position (mark :: (inside ++ [mark])) =
      .ok [⟨.string, String.ofList (mark :: (inside ++ [mark])), position⟩,
        ⟨.endOfInput, "", position.after (mark :: (inside ++ [mark]))⟩] := by
  have whole : (inside ++ [mark]).take (inside.length + 1) = inside ++ [mark] :=
    List.take_of_length_le (by simp)
  have none : (inside ++ [mark]).drop (inside.length + 1) = [] := List.drop_of_length_le (by simp)
  rw [tokensAt_cons, measure_string quote nested]
  simp only [bind, Except.bind, whole, none, tokensAt_nil]

/-- A text in which a mark closes the string before the end is not one token. -/
theorem not_one_token (quote : mark = '"' ∨ mark = '\'') (nested : Nested (some mark) inside)
    (more : rest ≠ []) (position : Position) (token last : Token) :
    tokensAt position (mark :: (inside ++ mark :: rest)) ≠ .ok [token, last] := by
  intro lexed
  have short : (inside ++ mark :: rest).drop (inside.length + 1) = rest := by
    rw [List.drop_length_add_append]
    rfl
  rw [tokensAt_cons, measure_string quote nested] at lexed
  simp only [bind, Except.bind, short] at lexed
  rcases behind : tokensAt (position.after (mark :: (inside ++ mark :: rest).take (inside.length + 1)))
    rest with fault | tokens <;> rw [behind] at lexed
  · cases lexed
  obtain ⟨-, rfl⟩ := List.cons_eq_cons.mp (Except.ok.inj lexed)
  cases tiling_of_tokensAt behind with
  | done => exact more rfl
  | next _ _ tail => cases tail

theorem toList_quoteText (content : List Char) : (quoteText (String.ofList content)).toList =
    if '"' ∈ content ∧ '\'' ∉ content then '\'' :: (content ++ ['\''])
    else '"' :: (requoted content ++ ['"']) := by
  rw [quoteText]
  by_cases chosen : '"' ∈ content ∧ '\'' ∉ content
  · rw [if_pos chosen, if_pos (by simpa using chosen)]
    simp
  · rw [if_neg chosen, if_neg (by simpa using chosen)]
    simp [Text.replace, replace_quotes]

/-- Writing the inside of a string in quotes of its own comes to one string, but for texts with single
quotes in which a double quote is escaped. -/
theorem quoteText_whole (plain : Plain inside) :
    (∃ token last, tokens (quoteText (String.ofList inside)) = .ok [token, last] ∧
      token.kind = .string ∧ last.kind = .endOfInput) ↔ ¬ ('"' ∈ escaped inside ∧ '\'' ∈ inside) := by
  have whole {mark : Char} {text : List Char} (quote : mark = '"' ∨ mark = '\'')
      (nested : Nested (some mark) text) : ∃ token last,
      tokensAt Position.start (mark :: (text ++ [mark])) = .ok [token, last] ∧ token.kind = .string ∧
        last.kind = .endOfInput := ⟨_, _, tokensAt_string quote nested _, rfl, rfl⟩
  rw [tokens, toList_quoteText]
  by_cases chosen : '"' ∈ inside ∧ '\'' ∉ inside
  · rw [if_pos chosen]
    exact iff_of_true (whole (.inr rfl) (plain.nested chosen.2)) fun apart => chosen.2 apart.2
  rw [if_neg chosen]
  by_cases twice : '"' ∈ escaped inside
  · have single : '\'' ∈ inside := by
      by_contra absent
      exact chosen ⟨mem_of_mem_escaped twice, absent⟩
    obtain ⟨front, last, ends, nested⟩ := plain.requoted_ends twice
    refine iff_of_false (fun ⟨token, final, lexed, _⟩ => ?_) (not_not.mpr ⟨twice, single⟩)
    rw [ends, List.append_assoc, List.cons_append] at lexed
    exact not_one_token (.inl rfl) nested (by simp) _ _ _ lexed
  · exact iff_of_true (whole (.inl rfl) (plain.nested_requoted twice)) fun apart => twice apart.1

end Whole

end Lexer

namespace Grammar

open Scss.Parser

section Alone

variable {self : Self} {cursor after : Cursor} {expr : Expr}

theorem leftAssociative_alone {operand : Parser Expr} {operator? : Parser (Option BinaryOp)}
    (read : operand cursor = .ok (expr, after)) (stops : operator? after = .ok (none, after)) :
    leftAssociative operand operator? cursor = .ok (expr, after) := by
  rw [leftAssociative_eq, bind_of_ok read, loop_apply]
  exact loopWithin_done (by rw [levelRound, bind_of_ok stops]; rfl)

theorem disjunction_alone (read : unary self cursor = .ok (expr, after)) (finished : after.ahead = []) :
    disjunction self cursor = .ok (expr, after) := by
  have stops (rank : Rank) : levelOperator rank after = .ok (none, after) :=
    levelOperator_of_ends (.nothing rank) finished
  have product := leftAssociative_alone read (stops .product)
  have sum := leftAssociative_alone product (stops .sum)
  have comparison := leftAssociative_alone sum (stops .comparison)
  have conjunction := leftAssociative_alone comparison (stops .conjunction)
  exact leftAssociative_alone conjunction (stops .disjunction)

/-- A list of one member is that member. -/
theorem commaList_alone (read : unary self cursor = .ok (expr, after)) (finished : after.ahead = []) :
    commaList self [] cursor = .ok (expr, after) := by
  have members : spaceList self [] cursor = .ok (expr, after) := by
    rw [spaceList_eq, bind_of_ok current_apply, bind_of_ok (disjunction_alone read finished), loop_apply]
    exact loopWithin_done (spaceRound_done [] (.nothing _) finished)
  rw [commaList_eq, bind_of_ok current_apply, bind_of_ok members, loop_apply]
  exact loopWithin_done (commaRound_done ([], false) (.nothing _) finished)

/-- A text of one token that reads as a value is read as that value. -/
theorem expression_alone {source : String} {token last : Token}
    (lexed : Lexer.tokens source = .ok [token, last]) (ends : last.kind = .endOfInput)
    (visible : token.isTrivia = false)
    (read : ∀ self cursor, cursor.current = token → unary self cursor = .ok (expr, cursor.advance 1)) :
    expression source = .ok expr := by
  have start : cursorOf source = .ok ⟨[], [token], last, ends⟩ := by
    simp [cursorOf, lexed, Cursor.ofTokens, ends]
  have members := commaList_alone (read (expressions source) ⟨[], [token], last, ends⟩ rfl) rfl
  have still : (⟨[], [token], last, ends⟩ : Cursor).skipTrivia = ⟨[], [token], last, ends⟩ :=
    Cursor.skipTrivia_of_visible rfl visible
  have none : (⟨[token], [], last, ends⟩ : Cursor).current.kind = .endOfInput := ends
  have finished : atEnd (⟨[token], [], last, ends⟩ : Cursor) = .ok (true, ⟨[token], [], last, ends⟩) := by
    rw [atEnd, get_bind, Cursor.atEnd, none]
    rfl
  have read : complete (commaList (expressions source) []) ⟨[], [token], last, ends⟩ =
      .ok (expr, ⟨[token], [], last, ends⟩) := by
    rw [complete, bind_of_ok skipTrivia_apply, still, bind_of_ok members, bind_of_ok skipTrivia_apply]
    exact bind_of_ok finished
  rw [expression, start]
  change (·.1) <$> complete _ _ = _
  rw [read]
  rfl

end Alone

/-- A string without expressions is read as its text. -/
theorem primary_string {token : Token} {mark : Char} {inside : List Char} (string : token.kind = .string)
    (text : token.text.toList = mark :: (inside ++ [mark])) (unembedded : ¬ ['#', '\x7b'] <:+: inside)
    (self : Self) {cursor : Cursor} (here : cursor.current = token) :
    primary self cursor =
      .ok (.string ⟨Quoted.textFragments inside, token.line⟩ token.line, cursor.advance 1) := by
  rw [primary, bind_of_ok current_apply, here, string]
  dsimp only
  rw [bind_of_ok (advance_apply 1), quoted, Token.content_eq text, Quoted.template_plain _ _ unembedded]
  rfl

theorem unary_of_string (self : Self) {cursor : Cursor} (string : cursor.current.kind = .string) :
    unary self cursor = primary self cursor := by
  rw [unary, bind_of_ok current_apply]
  simp only [string, Token.isWord, reduceCtorEq, decide_false, Bool.or_false, Bool.false_eq_true, if_false,
    Bool.false_and]
  exact bind_of_ok (peek_apply 1)

end Grammar

theorem Quoted.plain_textFragments (content : List Char) (line : Nat) :
    (⟨textFragments content, line⟩ : Template).plain? = some (String.ofList content) := by
  cases content with
  | nil => rfl
  | cons c rest => simp [textFragments, Interpolation.plain?]

namespace Eval

open Lexer (tokens escaped)

/-- A string token without expressions is read as its content, alone as in a larger expression, and has the
content as its value in every state. The text of the value is again one string token exactly if no double
quote is escaped in the content or the content has no single quotes. -/
theorem strings_stay_whole (start : Position) (source : String) {tokens before after : List Token}
    {token : Token} (lexed : Lexer.tokensAt start source.toList = .ok tokens)
    (cut : tokens = before ++ token :: after) (string : token.kind = .string)
    (unembedded : ¬ ['#', '\x7b'] <:+: token.text.toList) :
    ∃ mark content, token.text.toList = mark :: (content ++ [mark]) ∧
      (∀ self cursor, cursor.current = token → Grammar.primary self cursor =
        .ok (.string ⟨Quoted.textFragments content, token.line⟩ token.line, cursor.advance 1)) ∧
      Grammar.expression token.text = .ok (.string ⟨Quoted.textFragments content, 1⟩ 1) ∧
      (∀ setup depth line divides,
        perform setup (depth + 1) (.evaluate (.string ⟨Quoted.textFragments content, line⟩ line) divides) =
          pure (.quoted (String.ofList content))) ∧
      ∀ format : Format, ((∃ whole last,
          Lexer.tokens (format.value (.quoted (String.ofList content))) = .ok [whole, last] ∧
          whole.kind = .string ∧ last.kind = .endOfInput) ↔
        ¬ ('"' ∈ escaped content ∧ '\'' ∈ content)) := by
  obtain ⟨mark, content, -, quote, nested, -, text⟩ := Lexer.string_nested lexed cut string
  have within : content <:+: token.text.toList := ⟨[mark], [mark], by rw [text]; rfl⟩
  have plain : ¬ ['#', '\x7b'] <:+: content := fun starts => unembedded (starts.trans within)
  have alone : Lexer.tokens token.text = .ok [⟨.string, token.text, Position.start⟩,
      ⟨.endOfInput, "", Position.start.after token.text.toList⟩] := by
    rw [Lexer.tokens, text, Lexer.tokensAt_string quote nested, ← text, String.ofList_toList]
  refine ⟨mark, content, text, fun self cursor here => Grammar.primary_string string text plain self here,
    ?_, fun setup depth line divides => ?_, fun format => ?_⟩
  · refine Grammar.expression_alone alone rfl rfl fun self cursor here => ?_
    rw [Grammar.unary_of_string self (by rw [here])]
    have kept : (⟨.string, token.text, Position.start⟩ : Token).text.toList =
        mark :: (content ++ [mark]) := text
    exact Grammar.primary_string rfl kept plain self here
  · rw [perform, step, expression, interpolate_plain _ _ (Quoted.plain_textFragments content line), pure_bind]
  · exact Lexer.quoteText_whole (Lexer.plain_of_nested nested rfl plain)

/-- Both quotes stand in this text, and a single quote is escaped. -/
theorem strings_stay_whole_both :
    ∃ whole last, Lexer.tokens (Format.expanded.value (.quoted "it\\'s \"so\"")) = .ok [whole, last] ∧
      whole.kind = .string ∧ last.kind = .endOfInput := by
  have lexed : Lexer.tokensAt .start "x 'it\\'s \"so\"'".toList =
      .ok ([⟨.ident, "x", ⟨1, 1⟩⟩, ⟨.whitespace, " ", ⟨1, 2⟩⟩] ++
        ⟨.string, "'it\\'s \"so\"'", ⟨1, 3⟩⟩ :: [⟨.endOfInput, "", ⟨1, 15⟩⟩]) := by
    decide +kernel
  obtain ⟨mark, content, text, -, -, -, written⟩ :=
    strings_stay_whole _ _ lexed rfl rfl (by decide +kernel)
  obtain rfl : "it\\'s \"so\"".toList = content := interior_of_marked text
  exact (written .expanded).mpr (by decide +kernel)

/-- The backslash in front of the double quote is escaped, and the quote ends the string. -/
theorem string_falls_apart :
    Lexer.tokens "\"x\\\"y'z\"" = .ok [⟨.string, "\"x\\\"y'z\"", ⟨1, 1⟩⟩, ⟨.endOfInput, "", ⟨1, 9⟩⟩] ∧
      Format.expanded.value (.quoted "x\\\"y'z") = "\"x\\\\\"y'z\"" ∧
      Lexer.tokens "\"x\\\\\"y'z\"" = .error (.unterminatedString ⟨1, 7⟩) := by
  decide +kernel

end Eval

end Scss
