import Mathlib.Tactic
import Scss.Token.Lexer

/-! Tokens tile the text they are read from. `Tiling` says it token by token, the way a text is read:
each starts where the text before it ends and takes at least one character, and the end of input
alone has no text. -/
namespace Scss.Lexer

/-- The characters that tokens stand for, one token behind the other. -/
def spelled (tokens : List Token) : List Char := tokens.flatMap fun token => token.text.toList

/-- These tokens, with the end of input last, are the text from this place on. -/
inductive Tiling : Position → List Char → List Token → Prop where
  | done (position : Position) : Tiling position [] [⟨.endOfInput, "", position⟩]
  | next {position : Position} {kind : TokenKind} {text : String} {rest : List Char}
      {tokens : List Token} (kind_ne : kind ≠ .endOfInput) (text_ne : text ≠ "")
      (tail : Tiling (position.after text.toList) rest tokens) :
      Tiling position (text.toList ++ rest) (⟨kind, text, position⟩ :: tokens)

/-- A start of the text, so many characters long, has this shape. -/
def Begins (shape : List Char → Prop) (text : List Char) (length : Nat) : Prop :=
  ∃ part rest, text = part ++ rest ∧ part.length = length ∧ shape part

/-- What follows from both branches of a choice follows from the choice. -/
theorem of_choice {α : Type} {p q : Prop} [Decidable p] {yes no result : α}
    (chosen : (if p then yes else no) = result) (of_yes : yes = result → q)
    (of_no : no = result → q) : q := by
  by_cases holds : p
  · exact of_yes (by rwa [if_pos holds] at chosen)
  · exact of_no (by rwa [if_neg holds] at chosen)

/-- What the rule for a kind of token has found in front of so many characters behind the first. No rule
reads an end of input off a character. -/
def Found (position : Position) (c : Char) (rest : List Char) (length : Nat) : TokenKind → Prop
  | .endOfInput => False
  | .string => (c = '"' ∨ c = '\'') ∧
      quotedLength [⟨.quoted c, position⟩] (position.next c) rest = .ok length
  | .number => (c.isDigit = true ∨ c = '.' ∧ headIs Char.isDigit rest = true) ∧
      ∃ total, numberLength position (c :: rest) = .ok total ∧ length = total - 1
  | _ => True

theorem Found.proper {position : Position} {c : Char} {rest : List Char} {length : Nat}
    {kind : TokenKind} (found : Found position c rest length kind) : kind ≠ .endOfInput := by
  rintro rfl
  exact found

theorem punctuation_found (position : Position) (c : Char) (rest : List Char) (length : Nat) :
    Found position c rest length (punctuation c rest).1 := by
  unfold punctuation
  dsimp only
  split <;> first | trivial | (split <;> trivial)

theorem wordToken_found (position : Position) (c : Char) (rest : List Char) (length : Nat) :
    Found position c rest length (wordToken (c :: rest)).1 := by
  unfold wordToken
  dsimp only
  split <;> trivial

/-- The rules by which a token is read, each with what it has seen of the text. -/
inductive Rule (position : Position) (c : Char) (rest : List Char) : TokenKind → Nat → Prop where
  | whitespace (blank : Chars.isBlank c = true) : Rule position c rest .whitespace (run Chars.isBlank rest)
  | comment {length : Nat} (slash : c = '/') (star : headIs (· = '*') rest = true)
      (closed : commentLength rest.tail = some length) : Rule position c rest .comment (length + 1)
  | silent (slash : c = '/') (second : headIs (· = '/') rest = true) :
      Rule position c rest .comment (run (· ≠ '\n') rest)
  | string {length : Nat} (quote : c = '"' ∨ c = '\'')
      (closed : quotedLength [⟨.quoted c, position⟩] (position.next c) rest = .ok length) :
      Rule position c rest .string length
  | interpolation (brace : headIs (· = '\x7b') rest = true) : Rule position c rest .interpolation 1
  | hash : Rule position c rest .hash (run isNameChar rest)
  | dollar : Rule position c rest .dollar (nameLength rest)
  | atKeyword : Rule position c rest .atKeyword (nameLength rest)
  | notEqual (equals : headIs (· = '=') rest = true) : Rule position c rest .notEqual 1
  | flag : Rule position c rest .flag (nameLength rest)
  | number {total : Nat} (numeric : c.isDigit = true ∨ c = '.' ∧ headIs Char.isDigit rest = true)
      (counted : numberLength position (c :: rest) = .ok total) : Rule position c rest .number (total - 1)
  | ident : Rule position c rest .ident (nameLength (c :: rest) - 1)
  | word {kind : TokenKind} {total : Nat} (word : wordToken (c :: rest) = (kind, total)) :
      Rule position c rest kind (total - 1)
  | punctuation {kind : TokenKind} {length : Nat} (sign : punctuation c rest = (kind, length)) :
      Rule position c rest kind length

/-- A token is read by one of the rules. -/
theorem rule_of_measure {position : Position} {c : Char} {rest : List Char} {kind : TokenKind}
    {length : Nat} (measured : measure position c rest = .ok (kind, length)) :
    Rule position c rest kind length := by
  have counted {own : TokenKind} {count : Nat} (rule : Rule position c rest own count)
      (found : (.ok (own, count) : Except LexicalFault (TokenKind × Nat)) = .ok (kind, length)) :
      Rule position c rest kind length := by
    obtain ⟨rfl, rfl⟩ := Prod.mk.inj (Except.ok.inj found)
    exact rule
  have signs {own : Char} {p : Char → Bool} (both : (decide (c = own) && headIs p rest) = true) :
      c = own ∧ headIs p rest = true := by simpa using both
  unfold measure at measured
  -- The rules in the order in which they are tried; three of them can fail.
  by_cases blank : Chars.isBlank c = true
  · exact counted (.whitespace blank) (by rwa [if_pos blank] at measured)
  rw [if_neg blank] at measured
  by_cases comment : (decide (c = '/') && headIs (· = '*') rest) = true
  · rw [if_pos comment] at measured
    cases closed : commentLength rest.tail <;> rw [closed] at measured
    · cases measured
    · exact counted (.comment (signs comment).1 (signs comment).2 closed) measured
  rw [if_neg comment] at measured
  by_cases silent : (decide (c = '/') && headIs (· = '/') rest) = true
  · exact counted (.silent (signs silent).1 (signs silent).2) (by rwa [if_pos silent] at measured)
  rw [if_neg silent] at measured
  by_cases quote : c = '"' ∨ c = '\''
  · rw [if_pos quote] at measured
    cases closed : quotedLength [⟨.quoted c, position⟩] (position.next c) rest <;> rw [closed] at measured
    · cases measured
    · exact counted (.string quote closed) measured
  rw [if_neg quote] at measured
  by_cases embeds : (decide (c = '#') && headIs (· = '\x7b') rest) = true
  · exact counted (.interpolation (signs embeds).2) (by rwa [if_pos embeds] at measured)
  rw [if_neg embeds] at measured
  refine of_choice measured (counted .hash) fun measured => ?_
  refine of_choice measured (counted .dollar) fun measured => ?_
  refine of_choice measured (counted .atKeyword) fun measured => ?_
  by_cases unequal : (decide (c = '!') && headIs (· = '=') rest) = true
  · exact counted (.notEqual (signs unequal).2) (by rwa [if_pos unequal] at measured)
  rw [if_neg unequal] at measured
  refine of_choice measured (counted .flag) fun measured => ?_
  by_cases numeric : (c.isDigit || (c = '.' && headIs Char.isDigit rest)) = true
  · rw [if_pos numeric] at measured
    cases total : numberLength position (c :: rest) <;> rw [total] at measured
    · cases measured
    · exact counted (.number (by simpa using numeric) total) measured
  rw [if_neg numeric] at measured
  refine of_choice measured (counted .ident) fun measured => ?_
  exact of_choice measured (counted (.word rfl)) (counted (.punctuation rfl))

/-- A token of a kind is read by the rule for that kind. -/
theorem measure_found {position : Position} {c : Char} {rest : List Char} {kind : TokenKind}
    {length : Nat} (measured : measure position c rest = .ok (kind, length)) :
    Found position c rest length kind := by
  cases rule_of_measure measured with
  | string quote closed => exact ⟨quote, closed⟩
  | number numeric counted => exact ⟨numeric, _, counted, rfl⟩
  | @word _ total word =>
    have found := wordToken_found position c rest (total - 1)
    rwa [word] at found
  | punctuation sign =>
    have found := punctuation_found position c rest length
    rwa [sign] at found
  | _ => trivial

theorem tokensAt_nil (position : Position) :
    tokensAt position [] = .ok [⟨.endOfInput, "", position⟩] := by
  rw [tokensAt.eq_def]

theorem tokensAt_cons (position : Position) (c : Char) (rest : List Char) :
    tokensAt position (c :: rest) = (do
      let (kind, length) ← measure position c rest
      let tokens ← tokensAt (position.after (c :: rest.take length)) (rest.drop length)
      .ok (⟨kind, String.ofList (c :: rest.take length), position⟩ :: tokens)) := by
  rw [tokensAt.eq_def]

/-- Reading a text tiles it. -/
theorem tiling_of_tokensAt {position : Position} {text : List Char} {tokens : List Token}
    (lexed : tokensAt position text = .ok tokens) : Tiling position text tokens := by
  induction position, text using tokensAt.induct generalizing tokens with
  | case1 position =>
    rw [tokensAt_nil] at lexed
    cases lexed
    exact .done position
  | case2 position c rest ih =>
    rw [tokensAt_cons] at lexed
    cases measured : measure position c rest with
    | error fault => simp [measured, bind, Except.bind] at lexed
    | ok result =>
      obtain ⟨kind, length⟩ := result
      cases tail : tokensAt (position.after (c :: rest.take length)) (rest.drop length) with
      | error fault => simp only [measured, tail, bind, Except.bind, reduceCtorEq] at lexed
      | ok others =>
        simp only [measured, tail, bind, Except.bind, Except.ok.injEq] at lexed
        subst lexed
        have whole : c :: rest = (String.ofList (c :: rest.take length)).toList ++ rest.drop length := by
          simp
        rw [whole]
        refine .next (measure_found measured).proper (by simp) ?_
        rw [String.toList_ofList]
        exact ih length tail

namespace Tiling

variable {position : Position} {text : List Char} {tokens : List Token}

/-- No character is lost, repeated or moved. -/
theorem spelled_eq (tiling : Tiling position text tokens) : spelled tokens = text := by
  induction tiling with
  | done position => rfl
  | next kind_ne text_ne tail ih => rw [spelled, List.flatMap_cons, ← spelled, ih]

/-- There are no more tokens than characters, the end of input apart. -/
theorem length_le (tiling : Tiling position text tokens) : tokens.length ≤ text.length + 1 := by
  induction tiling with
  | done position => exact le_refl _
  | @next position kind text rest tokens kind_ne text_ne tail ih =>
    have nonempty : 0 < text.toList.length :=
      List.length_pos_of_ne_nil fun empty => text_ne (String.toList_injective empty)
    rw [List.length_cons, List.length_append]
    omega

/-- The end of input is the last token, and the only one that is empty. -/
theorem last_eq (tiling : Tiling position text tokens) :
    ∃ others last, tokens = others ++ [last] ∧ last.kind = .endOfInput ∧ last.text = "" ∧
      ∀ token ∈ others, token.kind ≠ .endOfInput ∧ token.text ≠ "" := by
  induction tiling with
  | done position => exact ⟨[], _, rfl, rfl, rfl, by simp⟩
  | @next position kind text rest tokens kind_ne text_ne tail ih =>
    obtain ⟨others, last, rfl, ends, empty, proper⟩ := ih
    refine ⟨⟨kind, text, position⟩ :: others, last, rfl, ends, empty, ?_⟩
    intro token member
    rcases List.mem_cons.mp member with rfl | member
    · exact ⟨kind_ne, text_ne⟩
    · exact proper token member

/-- A token stands behind the text of the tokens before it. -/
theorem position_eq (tiling : Tiling position text tokens) {before after : List Token}
    {token : Token} (cut : tokens = before ++ token :: after) :
    token.position = position.after (spelled before) := by
  induction tiling generalizing before with
  | done position =>
    cases before with
    | nil => cases cut; rfl
    | cons first before => simp at cut
  | next kind_ne text_ne tail ih =>
    cases before with
    | nil => cases cut; rfl
    | cons first before =>
      obtain ⟨rfl, shorter⟩ := List.cons_eq_cons.mp cut
      rw [ih shorter, spelled, spelled, List.flatMap_cons, Position.after_append]

end Tiling

/-- A token is measured where it starts, and behind it the rest of the text is read. -/
theorem token_measured {position : Position} {text : List Char} {tokens before after : List Token}
    {token : Token} (lexed : tokensAt position text = .ok tokens)
    (cut : tokens = before ++ token :: after) (proper : token.kind ≠ .endOfInput) :
    ∃ c rest length, text = spelled before ++ c :: rest ∧ token.text.toList = c :: rest.take length ∧
      measure token.position c rest = .ok (token.kind, length) ∧
      tokensAt (token.position.after token.text.toList) (rest.drop length) = .ok after := by
  induction position, text using tokensAt.induct generalizing tokens before with
  | case1 position =>
    rw [tokensAt_nil] at lexed
    cases lexed
    cases before with
    | nil => cases cut; exact absurd rfl proper
    | cons first before => simp at cut
  | case2 position c rest ih =>
    rw [tokensAt_cons] at lexed
    rcases measured : measure position c rest with fault | ⟨kind, length⟩ <;> rw [measured] at lexed
    · cases lexed
    rcases tail : tokensAt (position.after (c :: rest.take length)) (rest.drop length) with fault | others
    · simp only [bind, Except.bind, tail, reduceCtorEq] at lexed
    simp only [bind, Except.bind, tail, Except.ok.injEq] at lexed
    subst lexed
    cases before with
    | nil =>
      cases cut
      refine ⟨c, rest, length, rfl, String.toList_ofList, measured, ?_⟩
      rw [String.toList_ofList]
      exact tail
    | cons first before =>
      obtain ⟨rfl, later⟩ := List.cons_eq_cons.mp cut
      obtain ⟨d, more, count, rest_eq, found⟩ := ih length tail later
      refine ⟨d, more, count, ?_, found⟩
      rw [spelled, List.flatMap_cons, String.toList_ofList, ← spelled, List.append_assoc, ← rest_eq,
        List.cons_append, List.take_append_drop]

/-- What a token is read from: the text from its first character on, in which the rule for its kind has
found where it ends. -/
theorem token_found {position : Position} {text : List Char} {tokens before after : List Token}
    {token : Token} (lexed : tokensAt position text = .ok tokens)
    (cut : tokens = before ++ token :: after) (proper : token.kind ≠ .endOfInput) :
    ∃ c rest length, text = spelled before ++ c :: rest ∧
      token.text.toList = c :: rest.take length ∧ Found token.position c rest length token.kind := by
  obtain ⟨c, rest, length, whole, written, measured, -⟩ := token_measured lexed cut proper
  exact ⟨c, rest, length, whole, written, measure_found measured⟩

/-- Tokens tile their source: their texts are the source cut into pieces that are not empty, each
stands behind the text of those before it, and the end of input is last, empty and the only one. -/
theorem tokensAt_tile (source : String) (start : Position) {tokens : List Token}
    (lexed : tokensAt start source.toList = .ok tokens) :
    String.join (tokens.map Token.text) = source ∧
    (∃ others last, tokens = others ++ [last] ∧ last.kind = .endOfInput ∧ last.text = "" ∧
      ∀ token ∈ others, token.kind ≠ .endOfInput ∧ token.text ≠ "") ∧
    ∀ before token after, tokens = before ++ token :: after →
      token.position =
        start.after (String.join (before.map Token.text)).toList := by
  have tiling := tiling_of_tokensAt lexed
  have joined (tokens : List Token) :
      (String.join (tokens.map Token.text)).toList = spelled tokens := by
    simp [String.toList_join, spelled, List.flatMap_def, Function.comp_def]
  refine ⟨?_, tiling.last_eq, ?_⟩
  · apply String.toList_injective
    rw [joined, tiling.spelled_eq]
  · intro before token after cut
    rw [joined, tiling.position_eq cut]

/-- An assignment over two lines, whose string holds an embedded expression with a string in it. -/
theorem tokensAt_tile_assignment :
    ∃ before last, tokensAt ⟨3, 7⟩ "$a:\n\"x#\x7bf('\x7d')\x7d\"".toList = .ok (before ++ [last]) ∧
      String.join ((before ++ [last]).map Token.text) = "$a:\n\"x#\x7bf('\x7d')\x7d\"" ∧
      last.position = (⟨3, 7⟩ : Position).after (String.join (before.map Token.text)).toList := by
  have lexed : tokensAt ⟨3, 7⟩ "$a:\n\"x#\x7bf('\x7d')\x7d\"".toList =
      .ok ([⟨.dollar, "$a", ⟨3, 7⟩⟩, ⟨.colon, ":", ⟨3, 9⟩⟩, ⟨.whitespace, "\n", ⟨3, 10⟩⟩,
        ⟨.string, "\"x#\x7bf('\x7d')\x7d\"", ⟨4, 1⟩⟩] ++ [⟨.endOfInput, "", ⟨4, 13⟩⟩]) := by
    decide +kernel
  obtain ⟨joined, _, placed⟩ := tokensAt_tile _ _ lexed
  exact ⟨_, _, lexed, joined, placed _ _ [] rfl⟩

end Scss.Lexer
