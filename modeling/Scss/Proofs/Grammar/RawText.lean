import Scss.Proofs.Grammar.Boundaries
import Scss.Proofs.Grammar.Strings
import Scss.Proofs.Texts

/-! Raw text is what its tokens say, up to blanks and comments. It grows in parts that are merged, or
left apart behind the inside of a string; only what the parts spell together counts. -/
namespace Scss

def gapText (gap : Bool) : List Char := if gap then [' '] else []

/-- The parts are texts, none of them empty, and these are their characters. -/
inductive Spells : List (Fragment Expr) → List Char → Prop where
  | nil : Spells [] []
  | snoc {parts : List (Fragment Expr)} {before : List Char} {text : String}
      (inner : Spells parts before) (nonempty : text.toList ≠ []) :
      Spells (parts ++ [.literal text]) (before ++ text.toList)

namespace Spells

variable {parts : List (Fragment Expr)} {template : Template} {text : List Char}

theorem plain (spells : Spells template.parts text) : template.plain? = some (String.ofList text) := by
  obtain ⟨parts, line⟩ := template
  change Spells parts text at spells
  unfold Interpolation.plain?
  induction spells with
  | nil => rfl
  | snoc inner nonempty ih =>
    dsimp only at ih ⊢
    rw [List.foldlM_append, ih]
    simp

/-- A text that is spelled has a last part, which is not empty. -/
theorem last (spells : Spells parts text) : parts = [] ∧ text = [] ∨
    ∃ before spelled last, parts = before ++ [.literal last] ∧ text = spelled ++ last.toList ∧
      last.toList ≠ [] ∧ Spells before spelled := by
  cases spells with
  | nil => exact .inl ⟨rfl, rfl⟩
  | snoc inner nonempty => exact .inr ⟨_, _, _, rfl, rfl, nonempty, inner⟩

theorem pushLiteral (spells : Spells template.parts text) (more : String) (nonempty : more.toList ≠ []) :
    Spells (template.pushLiteral more).parts (text ++ more.toList) := by
  obtain ⟨parts, line⟩ := template
  obtain ⟨rfl, rfl⟩ | ⟨before, spelled, last, rfl, rfl, -, inner⟩ := spells.last
  · exact nil.snoc nonempty
  · have joined : (Interpolation.pushLiteral ⟨before ++ [.literal last], line⟩ more : Template).parts =
        before ++ [.literal (last ++ more)] := by
      simp [Interpolation.pushLiteral]
    rw [joined, List.append_assoc, ← String.toList_append]
    exact inner.snoc (by simp [nonempty])

/-- Blanks go from the end of the last part, which goes itself if nothing is left of it. -/
theorem trimEnd (shown : ∀ c ∈ text.getLast?, Chars.isBlank c = false) {gap : Bool}
    (spells : Spells parts (text ++ gapText gap)) :
    Spells (Grammar.trimPart Text.trimEnd parts.reverse).reverse text := by
  obtain ⟨rfl, none⟩ | ⟨before, spelled, last, rfl, whole, nonempty, inner⟩ := spells.last
  · rw [(List.append_eq_nil_iff.mp none).1]
    exact nil
  obtain ⟨kept, rfl, trimmed⟩ : ∃ kept, text = spelled ++ kept ∧
      Chars.trimEnd last.toList = Chars.trimEnd kept := by
    cases gap with
    | false => exact ⟨last.toList, (List.append_nil text).symm.trans whole, rfl⟩
    | true =>
      obtain ⟨kept, c, split⟩ := (List.eq_nil_or_concat last.toList).resolve_left nonempty
      rw [List.concat_eq_append] at split
      rw [split, ← List.append_assoc] at whole
      obtain ⟨same, ends⟩ := List.append_inj' whole rfl
      rw [← List.singleton_inj.mp ends] at split
      exact ⟨kept, same, by rw [split, Chars.trimEnd_space]⟩
  have kept_eq : (Text.trimEnd last).toList = kept := by
    rw [Text.trimEnd, Text.toList_mapChars, trimmed]
    refine Chars.trimEnd_of_last fun c member => shown c ?_
    exact List.mem_getLast?_append_of_mem_getLast? member
  rw [List.reverse_concat, Grammar.trimPart]
  split
  · rename_i empty
    rw [List.reverse_reverse, ← kept_eq, String.isEmpty_iff.mp empty, String.toList_empty,
      List.append_nil]
    exact inner
  · rename_i some
    rw [List.reverse_cons, List.reverse_reverse, ← kept_eq]
    exact inner.snoc (by simpa using some)

theorem head (spells : Spells parts text) : parts = [] ∧ text = [] ∨
    ∃ first rest more, parts = .literal first :: rest ∧ text = first.toList ++ more ∧ first.toList ≠ [] := by
  induction spells with
  | nil => exact .inl ⟨rfl, rfl⟩
  | snoc inner nonempty ih =>
    obtain ⟨rfl, rfl⟩ | ⟨first, rest, more, rfl, rfl, some⟩ := ih
    · exact .inr ⟨_, [], [], rfl, (List.append_nil _).symm, nonempty⟩
    · exact .inr ⟨first, _, _, rfl, List.append_assoc .., some⟩

/-- No blanks go from the start. -/
theorem trimStart (shown : ∀ c ∈ text.head?, Chars.isBlank c = false) (spells : Spells parts text) :
    Grammar.trimPart Text.trimStart parts = parts := by
  obtain ⟨rfl, -⟩ | ⟨first, rest, more, rfl, rfl, nonempty⟩ := spells.head
  · rfl
  · rw [List.head?_append_of_ne_nil _ nonempty] at shown
    have kept : Text.trimStart first = first := by
      rw [Text.trimStart, Text.mapChars, Chars.trimStart_of_head shown, String.ofList_toList]
    rw [Grammar.trimPart, kept, if_neg (by simpa using nonempty)]

end Spells

/-- The parts spell a text without blanks at its ends, and a space behind it if there is a gap. -/
structure Collected (template : Template) (text : List Char) (gap : Bool) : Prop where
  spells : Spells template.parts (text ++ gapText gap)
  flush : Chars.Flush text
  start : text = [] → gap = false

namespace Collected

variable {template : Template} {text : List Char} {gap : Bool}

/-- Trivia leave a gap, unless nothing stands in front of them. -/
theorem pushSpace (collected : Collected template text gap) :
    Collected (Grammar.pushSpace template) text (!text.isEmpty) where
  spells := by
    obtain ⟨none, empty⟩ | ⟨before, spelled, last, parts, whole, nonempty, -⟩ := collected.spells.last
    · have same : Grammar.pushSpace template = template := by rw [Grammar.pushSpace, none]; rfl
      rw [same, none, (List.append_eq_nil_iff.mp empty).1]
      exact .nil
    · have ends : (text ++ gapText gap).getLast? = last.toList.getLast? := by
        rw [whole, List.getLast?_append_of_ne_nil _ nonempty]
      have shown : text ≠ [] := by
        rintro rfl
        rw [collected.start rfl] at whole
        exact nonempty (List.append_eq_nil_iff.mp whole.symm).2
      have step : Grammar.pushSpace template =
          if last.toList.getLast? = some ' ' then template else template.pushLiteral " " := by
        rw [Grammar.pushSpace, parts, List.getLast?_concat]
      rw [step, ← ends, List.isEmpty_eq_false_iff.mpr shown]
      cases gap with
      | true =>
        rw [if_pos (by simp [gapText])]
        exact collected.spells
      | false =>
        have spells := collected.spells
        rw [gapText, if_neg Bool.false_ne_true, List.append_nil] at spells ⊢
        have visible : text.getLast? ≠ some ' ' := fun space =>
          absurd (collected.flush.last ' ' space) (by decide)
        rw [if_neg visible]
        exact spells.pushLiteral " " (by decide)
  flush := collected.flush
  start empty := by simp [empty]

theorem visible (collected : Collected template text gap) {later : Template} {more : List Char}
    (spells : Spells later.parts (text ++ gapText gap ++ more)) (nonempty : more ≠ [])
    (flush : Chars.Flush more) : Collected later (text ++ gapText gap ++ more) false where
  spells := (List.append_nil (text ++ gapText gap ++ more)).symm ▸ spells
  flush := by
    by_cases none : text = []
    · rw [none, collected.start none]
      exact flush
    · exact collected.flush.append flush none nonempty _
  start empty := absurd (List.append_eq_nil_iff.mp empty).2 nonempty

theorem trim (collected : Collected template text gap) :
    (Grammar.trimTemplate template).plain? = some (String.ofList text) := by
  have ended := collected.spells.trimEnd collected.flush.last
  refine Spells.plain ?_
  rw [Grammar.trimTemplate]
  dsimp only
  rw [ended.trimStart collected.flush.head]
  exact ended

end Collected

namespace Quoted

def textPieces : List Char → List Piece
  | [] => []
  | text => [.literal text]

theorem pushChar_textPieces (c : Char) (text : List Char) :
    pushChar c (textPieces text) = textPieces (c :: text) := by
  cases text <;> rfl

/-- A text in which no expression is embedded is one piece. -/
theorem piecesFrom_plain {start skip : Nat} {content : List Char} (whole : skip = 0)
    (plain : ¬ ['#', '\x7b'] <:+: content) :
    piecesFrom start skip content = (textPieces content, none) := by
  have later (front : List Char) {rest : List Char} (more : ¬ ['#', '\x7b'] <:+: front ++ rest) :
      ¬ ['#', '\x7b'] <:+: rest := fun starts =>
    more (starts.trans (List.suffix_append front rest).isInfix)
  have opened (more : List Char) : ['#', '\x7b'] <:+: '#' :: '\x7b' :: more := ⟨[], more, rfl⟩
  induction start, skip, content using piecesFrom.induct with
  | case1 => rfl
  | case2 => cases whole
  | case3 start d more pieces unclosed cut ih =>
    have behind := ih rfl (later ['\\', d] plain)
    rw [piecesFrom, behind]
    simp only [pushChar_textPieces]
  | case4 start more => exact absurd (opened more) plain
  | case5 start more => exact absurd (opened more) plain
  | case6 start c rest escapes embeds pieces unclosed cut ih =>
    have behind := ih rfl (later [c] plain)
    rw [piecesFrom, behind]
    · simp only [pushChar_textPieces]
    · exact escapes
    · exact embeds

def textFragments : List Char → List (Fragment Expr)
  | [] => []
  | text => [.literal (String.ofList text)]

/-- Such a text is read as itself. -/
theorem template_plain (read : List Token → Except Fault Expr) (position : Position) {content : List Char}
    (plain : ¬ ['#', '\x7b'] <:+: content) :
    template read (String.ofList content) position = .ok ⟨textFragments content, position.line⟩ := by
  rw [template, pieces, String.toList_ofList, piecesFrom_plain rfl plain]
  cases content <;> rfl

theorem spells_textFragments {parts : List (Fragment Expr)} {text : List Char} (spells : Spells parts text)
    (content : List Char) : Spells (parts ++ textFragments content) (text ++ content) := by
  cases content with
  | nil => simpa [textFragments] using spells
  | cons c rest =>
    have nonempty : (String.ofList (c :: rest)).toList ≠ [] := by simp
    simpa [textFragments] using spells.snoc nonempty

end Quoted

/-- What a token in front of the end of input has from the way it is read: it has a text, and a string
has its mark at both ends. -/
structure Token.Shaped (token : Token) : Prop where
  proper : token.kind ≠ .endOfInput
  nonempty : token.text.toList ≠ []
  marked : token.kind = .string → ∃ mark inner, token.text.toList = mark :: (inner ++ [mark])

/-- No expression starts at this token or inside it. -/
structure Token.Unembedded (token : Token) : Prop where
  plain : token.kind ≠ .interpolation
  unembedded : token.kind = .string → ¬ ['#', '\x7b'] <:+: token.text.toList

instance (token : Token) : Decidable token.Unembedded :=
  decidable_of_iff (token.kind ≠ .interpolation ∧
      (token.kind = .string → ¬ ['#', '\x7b'] <:+: token.text.toList))
    ⟨fun ⟨plain, unembedded⟩ => ⟨plain, unembedded⟩, fun ⟨plain, unembedded⟩ => ⟨plain, unembedded⟩⟩

/-- No expression starts at this token or inside it, and unless it is a blank or a comment, its text
has no blank at either end. -/
structure Token.Verbatim (token : Token) : Prop where
  plain : token.kind ≠ .interpolation
  unembedded : token.kind = .string → ¬ ['#', '\x7b'] <:+: token.text.toList
  flush : token.isTrivia = false → Chars.Flush token.text.toList

theorem Token.Verbatim.embeds_none {token : Token} (verbatim : token.Verbatim) : token.Unembedded :=
  ⟨verbatim.plain, verbatim.unembedded⟩

instance (text : List Char) : Decidable (Chars.Flush text) :=
  decidable_of_iff (text.head?.any Chars.isBlank = false ∧ text.getLast?.any Chars.isBlank = false) <| by
    rw [Option.any_eq_false, Option.any_eq_false]
    exact ⟨fun ⟨head, last⟩ => ⟨head, last⟩, fun ⟨head, last⟩ => ⟨head, last⟩⟩

instance (token : Token) : Decidable token.Verbatim :=
  decidable_of_iff (token.kind ≠ .interpolation ∧
      (token.kind = .string → ¬ ['#', '\x7b'] <:+: token.text.toList) ∧
      (token.isTrivia = false → Chars.Flush token.text.toList))
    ⟨fun ⟨plain, unembedded, flush⟩ => ⟨plain, unembedded, flush⟩,
      fun ⟨plain, unembedded, flush⟩ => ⟨plain, unembedded, flush⟩⟩

namespace Lexer

/-- Every token in front of the end of input is shaped as its kind asks. -/
theorem tokensAt_shaped {position : Position} {text : List Char} {tokens : List Token}
    (lexed : tokensAt position text = .ok tokens) :
    ∀ token ∈ tokens, token.kind ≠ .endOfInput → token.Shaped := by
  intro token member proper
  obtain ⟨before, after, cut⟩ := List.append_of_mem member
  obtain ⟨c, rest, length, -, whole, -⟩ := token_found lexed cut proper
  refine ⟨proper, by simp [whole], fun string => ?_⟩
  obtain ⟨mark, inside, -, -, -, -, marked⟩ := string_nested lexed cut string
  exact ⟨mark, inside, marked⟩

end Lexer

namespace Grammar

/-- The texts of the tokens, with a space before each that trivia separate from the last; `gap` says
whether some stand in front of the first. -/
def spacedFrom (gap : Bool) : List Token → List Char
  | [] => []
  | token :: rest =>
    if token.isTrivia then spacedFrom true rest
    else gapText gap ++ token.text.toList ++ spacedFrom false rest

/-- The texts of the tokens that are no trivia, with one space wherever trivia stand between two. -/
def spaced (tokens : List Token) : String :=
  String.ofList (spacedFrom false (tokens.dropWhile Token.isTrivia))

/-- A template with a token behind it that is no trivia and embeds no expression. The mark at both ends of a
string is written on its own; between stands what the string holds. -/
def pushToken (template : Template) (token : Token) : Template :=
  if token.kind = .string then
    let mark := String.ofList (token.text.toList.take 1)
    let opened := template.pushLiteral mark
    let filled := { opened with parts := opened.parts ++ Quoted.textFragments token.content.toList }
    filled.pushLiteral mark
  else template.pushLiteral token.text

def depthBehind (kind : TokenKind) (depth : Nat) : Nat :=
  match kind with
  | .leftParen | .leftBracket => depth + 1
  | .rightParen | .rightBracket => depth - 1
  | _ => depth

section Rounds

variable {self : Self} {token : Token} {rest : List Token} {cursor : Cursor} {template : Template}
  {depth : Nat} {text : List Char} {gap : Bool} {stops : List TokenKind}

theorem spells_pushToken (shaped : token.Shaped) (spells : Spells template.parts text) :
    Spells (pushToken template token).parts (text ++ token.text.toList) := by
  unfold pushToken
  split
  · rename_i string
    obtain ⟨mark, inner, marked⟩ := shaped.marked string
    have some : (String.ofList [mark]).toList ≠ [] := by simp
    have opened := spells.pushLiteral (String.ofList [mark]) some
    have filled : Spells (⟨_, (template.pushLiteral (String.ofList [mark])).line⟩ : Template).parts _ :=
      Quoted.spells_textFragments opened inner
    have closed := filled.pushLiteral (String.ofList [mark]) some
    have whole : text ++ token.text.toList =
        text ++ (String.ofList [mark]).toList ++ inner ++ (String.ofList [mark]).toList := by
      simp [marked]
    rw [whole, Token.content_eq marked, marked, String.toList_ofList]
    exact closed
  · exact spells.pushLiteral _ shaped.nonempty

theorem rawRound_done (ends : cursor.current.kind = .endOfInput) :
    rawRound self stops false ⟨template, depth⟩ cursor = .ok (.done template, cursor) := by
  rw [rawRound, Parser.bind_of_ok Parser.current_apply, if_pos ends]
  rfl

theorem rawRound_trivia (ahead : cursor.ahead = token :: rest) (trivia : token.isTrivia = true)
    (goes : ¬ (depth = 0 && stops.contains token.kind) = true) :
    rawRound self stops false ⟨template, depth⟩ cursor =
      .ok (.again ⟨pushSpace template, depth⟩, cursor.advance 1) := by
  have kinds : token.kind = .whitespace ∨ token.kind = .comment := by
    rw [Token.isTrivia] at trivia
    cases kind : token.kind <;> simp [kind, TokenKind.isTrivia] at trivia ⊢
  rw [rawRound, Parser.bind_of_ok Parser.current_apply, Cursor.current_of_cons ahead]
  rcases kinds with kind | kind
  · rw [if_neg (by simp [kind]), if_neg goes, kind]
    rfl
  · rw [if_neg (by simp [kind]), if_neg goes, kind]
    rfl

theorem rawRound_visible (ahead : cursor.ahead = token :: rest) (visible : token.isTrivia = false)
    (shaped : token.Shaped) (own : token.Unembedded)
    (goes : ¬ (depth = 0 && stops.contains token.kind) = true) :
    rawRound self stops false ⟨template, depth⟩ cursor =
      .ok (.again ⟨pushToken template token, depthBehind token.kind depth⟩, cursor.advance 1) := by
  rw [Token.isTrivia] at visible
  rw [rawRound, Parser.bind_of_ok Parser.current_apply, Cursor.current_of_cons ahead,
    if_neg shaped.proper, if_neg goes]
  by_cases string : token.kind = .string
  · obtain ⟨mark, inner, marked⟩ := shaped.marked string
    have within : inner <:+: token.text.toList := ⟨[mark], [mark], by rw [marked]; rfl⟩
    have plain : ¬ ['#', '\x7b'] <:+: inner := fun starts =>
      own.unembedded string (starts.trans within)
    have read := Quoted.template_plain (Parser.onTokens (complete (self .comma))) (token.position.shift 1) plain
    rw [pushToken, if_pos string, string]
    dsimp only
    rw [quoted, Token.content_eq marked, read, String.toList_ofList]
    rfl
  · have plain := own.plain
    rw [pushToken, if_neg string]
    generalize token.kind = kind at *
    split
    · exact absurd rfl plain
    · cases visible
    · cases visible
    · exact absurd rfl string
    · rw [Parser.bind_of_ok (Parser.advance_apply 1), Bool.and_false, if_neg Bool.false_ne_true]
      rfl

/-- What is still to be written behind a text. -/
def remaining (text : List Char) (gap : Bool) (tokens : List Token) : List Char :=
  spacedFrom gap (if text = [] then tokens.dropWhile Token.isTrivia else tokens)

theorem remaining_trivia (trivia : token.isTrivia = true) (start : text = [] → gap = false) :
    remaining text gap (token :: rest) = remaining text (!text.isEmpty) rest := by
  cases text with
  | nil => simp [remaining, trivia, start]
  | cons c more => simp [remaining, trivia, spacedFrom]

theorem remaining_visible (visible : token.isTrivia = false) (shaped : token.Shaped) :
    text ++ remaining text gap (token :: rest) =
      text ++ gapText gap ++ token.text.toList ++
        remaining (text ++ gapText gap ++ token.text.toList) false rest := by
  simp [remaining, visible, spacedFrom, shaped.nonempty]

/-- Round by round, what is left of the tokens is written behind what there is. -/
theorem rawRounds (self : Self) (depth : Nat) (shaped : ∀ token ∈ rest, token.Shaped)
    (verbatim : ∀ token ∈ rest, token.Verbatim) (ahead : cursor.ahead = rest)
    (collected : Collected template text gap) :
    ∃ whole behind after,
      Parser.loopWithin (rawRound self [] false) rest ⟨template, depth⟩ cursor = .ok (whole, after) ∧
        Collected whole (text ++ remaining text gap rest) behind := by
  induction rest generalizing cursor template depth text gap with
  | nil =>
    have ends : cursor.current.kind = .endOfInput := by
      rw [Cursor.current, ahead]
      exact cursor.last_kind
    refine ⟨template, gap, cursor, Parser.loopWithin_done (rawRound_done ends), ?_⟩
    simpa [remaining, spacedFrom] using collected
  | cons token rest ih =>
    obtain ⟨own, others⟩ := List.forall_mem_cons.mp shaped
    obtain ⟨kept, also⟩ := List.forall_mem_cons.mp verbatim
    have next := Cursor.ahead_advance_one ahead
    cases trivia : token.isTrivia with
    | true =>
      rw [Parser.loopWithin_again (rawRound_trivia ahead trivia (by simp)),
        remaining_trivia trivia collected.start]
      exact ih _ others also next collected.pushSpace
    | false =>
      have spells := spells_pushToken own collected.spells
      rw [Parser.loopWithin_again (rawRound_visible ahead trivia own kept.embeds_none (by simp)),
        remaining_visible trivia own]
      exact ih _ others also next (collected.visible spells own.nonempty (kept.flush trivia))

/-- Raw text from a cursor on is what the tokens ahead give. -/
theorem raw_spaced (self : Self) (shaped : ∀ token ∈ rest, token.Shaped)
    (verbatim : ∀ token ∈ rest, token.Verbatim) (ahead : cursor.ahead = rest) :
    ∃ template after, raw self [] false cursor = .ok (template, after) ∧
      template.plain? = some (spaced rest) := by
  have start : Collected ⟨[], cursor.current.line⟩ [] false := ⟨.nil, .nil, fun _ => rfl⟩
  obtain ⟨whole, gap, after, read, collected⟩ := rawRounds self 0 shaped verbatim ahead start
  refine ⟨trimTemplate whole, after, ?_, collected.trim⟩
  rw [raw_eq, Parser.bind_of_ok Parser.current_apply,
    Parser.bind_of_ok ((Parser.loop_apply _ _).trans (ahead ▸ read))]
  rfl

end Rounds

/-- Raw text is kept verbatim up to trivia. Tokens as they are read off a text, without embedded
expressions and without blanks at the ends of any but trivia, are all collected, and their texts come
with one space wherever trivia stand between two of them. -/
theorem raw_verbatim (self : Self) :
    (∀ position text lexed, Lexer.tokensAt position text = .ok lexed →
      ∀ token ∈ lexed, token.kind ≠ .endOfInput → token.Shaped) ∧
    ∀ tokens ends : List Token, (∀ token ∈ tokens, token.Shaped) → (∀ token ∈ tokens, token.Verbatim) →
      (ends = [] ∨ ∃ last, ends = [last] ∧ last.kind = .endOfInput) →
      ∃ template, Parser.onTokens (raw self [] false) (tokens ++ ends) = .ok template ∧
        template.plain? = some (spaced tokens) := by
  refine ⟨fun position text lexed => Lexer.tokensAt_shaped, ?_⟩
  intro tokens ends shaped verbatim last
  have ahead : (Cursor.ofTokens (tokens ++ ends)).ahead = tokens := by
    rcases last with rfl | ⟨last, rfl, kind⟩
    · rw [List.append_nil]
      exact Cursor.ahead_ofTokens fun token member => (shaped token member).proper
    · simp [Cursor.ofTokens, kind]
  obtain ⟨template, after, read, plain⟩ := raw_spaced self shaped verbatim ahead
  refine ⟨template, ?_, plain⟩
  change Prod.fst <$> raw self [] false (Cursor.ofTokens (tokens ++ ends)) = _
  rw [read]
  rfl

/-- The tokens of ` .a > "b  c"/* d */ [e] `. -/
def attributeSelector : List Token :=
  [⟨.whitespace, " ", ⟨1, 1⟩⟩, ⟨.dot, ".", ⟨1, 2⟩⟩, ⟨.ident, "a", ⟨1, 3⟩⟩, ⟨.whitespace, " ", ⟨1, 4⟩⟩,
    ⟨.greater, ">", ⟨1, 5⟩⟩, ⟨.whitespace, " ", ⟨1, 6⟩⟩, ⟨.string, "\"b  c\"", ⟨1, 7⟩⟩,
    ⟨.comment, "/* d */", ⟨1, 13⟩⟩, ⟨.whitespace, " ", ⟨1, 20⟩⟩, ⟨.leftBracket, "[", ⟨1, 21⟩⟩,
    ⟨.ident, "e", ⟨1, 22⟩⟩, ⟨.rightBracket, "]", ⟨1, 23⟩⟩, ⟨.whitespace, " ", ⟨1, 24⟩⟩]

/-- A comment and a blank become one space, and the blanks inside the string stay. -/
theorem raw_verbatim_selector :
    ∃ template, Parser.onTokens (raw (Form.parser 0) [] false)
        (attributeSelector ++ [⟨.endOfInput, "", ⟨1, 25⟩⟩]) = .ok template ∧
      template.plain? = some ".a > \"b  c\" [e]" := by
  have lexed : Lexer.tokens " .a > \"b  c\"/* d */ [e] " =
      .ok (attributeSelector ++ [⟨.endOfInput, "", ⟨1, 25⟩⟩]) := by
    decide +kernel
  have proper : ∀ token ∈ attributeSelector, token.kind ≠ .endOfInput := by decide
  obtain ⟨shapes, kept⟩ := raw_verbatim (Form.parser 0)
  exact kept attributeSelector _
    (fun token member => shapes _ _ _ lexed token (List.mem_append_left _ member) (proper token member))
    (by decide) (.inr ⟨_, rfl, rfl⟩)

end Grammar

end Scss
