import Scss.Compiler
import Scss.Proofs.Grammar.RawText

/-! The values of custom properties, which are kept as raw text. Round and square brackets are counted while
such a value is collected and braces are not, so a value in which a pair of braces stands outside of all
brackets ends inside of it, and every other value in which brackets are pairs is kept whole. -/
namespace Scss

def Fragment.Shows : Fragment Expr → Prop
  | .literal text => ∃ c ∈ text.toList, Chars.isBlank c = false
  | .expr _ => False

/-- Unless there is one part only, there is something to see in each. -/
def Solid (parts : List (Fragment Expr)) : Prop := parts.length ≤ 1 ∨ ∀ part ∈ parts, part.Shows

namespace Solid

variable {parts : List (Fragment Expr)} {template : Template} {text : List Char} {more : String}

theorem dropLast (solid : Solid parts) : ∀ part ∈ parts.dropLast, part.Shows := by
  obtain one | shows := solid
  · have none : parts.dropLast = [] :=
      List.eq_nil_of_length_eq_zero (by rw [List.length_dropLast]; omega)
    rw [none]
    exact nofun
  · intro part member
    exact shows part (List.mem_of_mem_dropLast member)

/-- With a text behind it in which something is to be seen, each part has something to see. -/
theorem shows_pushLiteral (before : ∀ part ∈ template.parts.dropLast, part.Shows)
    (spells : Spells template.parts text) (shows : ∃ c ∈ more.toList, Chars.isBlank c = false) :
    ∀ part ∈ (template.pushLiteral more).parts, part.Shows := by
  obtain ⟨parts, line⟩ := template
  obtain ⟨rfl, rfl⟩ | ⟨front, spelled, last, rfl, rfl, -, -⟩ := spells.last
  · simpa [Interpolation.pushLiteral, Fragment.Shows] using shows
  · obtain ⟨c, member, visible⟩ := shows
    rw [List.dropLast_concat] at before
    simp only [Interpolation.pushLiteral, List.getLast?_concat, List.dropLast_concat]
    refine List.forall_mem_append.mpr ⟨before, List.forall_mem_singleton.mpr ⟨c, ?_, visible⟩⟩
    rw [String.toList_append]
    exact List.mem_append_right _ member

theorem pushLiteral (solid : Solid template.parts) (spells : Spells template.parts text) :
    Solid (template.pushLiteral more).parts := by
  obtain ⟨parts, line⟩ := template
  obtain ⟨rfl, rfl⟩ | ⟨front, spelled, last, rfl, rfl, -, -⟩ := spells.last
  · exact .inl (by simp [Interpolation.pushLiteral])
  · simp only [Interpolation.pushLiteral, List.getLast?_concat, List.dropLast_concat]
    obtain one | shows := solid
    · exact .inl (by simpa using one)
    · obtain ⟨before, ends⟩ := List.forall_mem_append.mp shows
      obtain ⟨c, member, visible⟩ := ends _ (List.mem_singleton_self _)
      refine .inr (List.forall_mem_append.mpr ⟨before, List.forall_mem_singleton.mpr ⟨c, ?_, visible⟩⟩)
      rw [String.toList_append]
      exact List.mem_append_left _ member

/-- A last part has something to see, and so have those before it, or it is the only one. -/
theorem last {before : List (Fragment Expr)} {part : Fragment Expr} (solid : Solid (before ++ [part])) :
    before = [] ∨ (∀ part ∈ before, part.Shows) ∧ part.Shows := by
  obtain one | shows := solid
  · exact .inl (List.eq_nil_of_length_eq_zero (by simpa using one))
  · exact .inr ⟨fun part member => shows part (List.mem_append_left _ member), shows part (by simp)⟩

end Solid

/-- A template of texts with these characters, of which trimming the first part and the last one takes all
blanks off the ends. -/
structure Gathered (template : Template) (text : List Char) : Prop where
  spells : Spells template.parts text
  solid : Solid template.parts

namespace Spells

variable {parts : List (Fragment Expr)} {text : List Char}

theorem text_of_nil (spells : Spells [] text) : text = [] := by
  obtain ⟨-, empty⟩ | ⟨before, spelled, last, parts, -, -, -⟩ := spells.last
  · exact empty
  · simp at parts

theorem single {part : String} (nonempty : part.toList ≠ []) : Spells [.literal part] part.toList := by
  rw [← List.nil_append part.toList]
  exact nil.snoc nonempty

/-- What is to be seen in a part is to be seen in the whole. -/
theorem shows (spells : Spells parts text) {part : Fragment Expr} (member : part ∈ parts)
    (shows : part.Shows) : ∃ c ∈ text, Chars.isBlank c = false := by
  induction spells with
  | nil => cases member
  | snoc inner nonempty ih =>
    obtain before | last := List.mem_append.mp member
    · obtain ⟨c, found, visible⟩ := ih before
      exact ⟨c, List.mem_append_left _ found, visible⟩
    · obtain rfl := List.mem_singleton.mp last
      obtain ⟨c, found, visible⟩ := shows
      exact ⟨c, List.mem_append_right _ found, visible⟩

/-- Trimming the end of the last part trims the whole. -/
theorem trimEnd_solid (spells : Spells parts text) (solid : Solid parts) :
    Spells (Grammar.trimPart Text.trimEnd parts.reverse).reverse (Chars.trimEnd text) ∧
      Solid (Grammar.trimPart Text.trimEnd parts.reverse).reverse := by
  obtain ⟨rfl, rfl⟩ | ⟨before, spelled, last, rfl, rfl, nonempty, inner⟩ := spells.last
  · exact ⟨.nil, .inl (Nat.zero_le _)⟩
  have trimmed : (Text.trimEnd last).toList = Chars.trimEnd last.toList := Text.toList_mapChars _ _
  have whole : Chars.trimEnd (spelled ++ last.toList) = spelled ++ Chars.trimEnd last.toList := by
    obtain rfl | ⟨-, shows⟩ := solid.last
    · rw [inner.text_of_nil, List.nil_append, List.nil_append]
    · exact Chars.trimEnd_append shows
  rw [List.reverse_concat, Grammar.trimPart, whole, ← trimmed]
  split
  · rename_i empty
    have none : (Text.trimEnd last).toList = [] := by rw [String.isEmpty_iff.mp empty]; rfl
    obtain rfl | ⟨-, shows⟩ := solid.last
    · rw [none, inner.text_of_nil]
      exact ⟨.nil, .inl (Nat.zero_le _)⟩
    · exact absurd (trimmed.symm.trans none) (Chars.trimEnd_ne_nil shows)
  · rename_i some
    have kept : (Text.trimEnd last).toList ≠ [] := by simpa using some
    rw [List.reverse_cons, List.reverse_reverse]
    refine ⟨inner.snoc kept, ?_⟩
    obtain rfl | ⟨before, -⟩ := solid.last
    · exact .inl (Nat.le_refl _)
    · have ends : (Fragment.literal (Text.trimEnd last) : Fragment Expr).Shows := by
        rw [Fragment.Shows, trimmed]
        exact Chars.shows_trimEnd (trimmed ▸ kept)
      exact .inr (List.forall_mem_append.mpr ⟨before, List.forall_mem_singleton.mpr ends⟩)

/-- Trimming the start of the first part trims the whole. -/
theorem trimStart_solid (spells : Spells parts text) (solid : Solid parts) :
    Spells (Grammar.trimPart Text.trimStart parts) (Chars.trimStart text) := by
  induction spells with
  | nil => exact .nil
  | @snoc parts before text inner nonempty ih =>
    cases parts with
    | nil =>
      have trimmed : (Text.trimStart text).toList = Chars.trimStart text.toList := Text.toList_mapChars _ _
      rw [inner.text_of_nil, List.nil_append, List.nil_append, Grammar.trimPart, ← trimmed]
      split
      · rename_i empty
        rw [String.isEmpty_iff.mp empty]
        exact .nil
      · rename_i some
        exact .single (by simpa using some)
    | cons first rest =>
      have shows : ∀ part ∈ first :: rest, part.Shows := (solid.last.resolve_left (by simp)).1
      have front : ∃ c ∈ before, Chars.isBlank c = false :=
        inner.shows List.mem_cons_self (shows first List.mem_cons_self)
      have apart : Grammar.trimPart Text.trimStart (first :: rest ++ [.literal text]) =
          Grammar.trimPart Text.trimStart (first :: rest) ++ [.literal text] := by
        cases first with
        | literal own =>
          rw [List.cons_append, Grammar.trimPart, Grammar.trimPart]
          split <;> rfl
        | expr => rfl
      rw [apart, Chars.trimStart_append front]
      exact (ih (.inr shows)).snoc nonempty

end Spells

theorem Gathered.trim {template : Template} {text : List Char} (gathered : Gathered template text) :
    (Grammar.trimTemplate template).plain? =
      some (String.ofList (Chars.trimStart (Chars.trimEnd text))) := by
  obtain ⟨ended, solid⟩ := gathered.spells.trimEnd_solid gathered.solid
  exact Spells.plain (ended.trimStart_solid solid)

/-- A token with the shape that it has from the way it is read: the mark of a string is a quote. -/
structure Token.Legible (token : Token) : Prop where
  shaped : token.Shaped
  quoted : token.kind = .string → ∃ mark, (mark = '"' ∨ mark = '\'') ∧ token.text.toList.head? = some mark

theorem Token.legible_of_others {tokens : List Token}
    (others : ∀ token ∈ tokens, token.kind ≠ .endOfInput ∧ token.kind ≠ .string ∧ token.text.toList ≠ []) :
    ∀ token ∈ tokens, token.Legible := by
  intro token member
  obtain ⟨proper, other, nonempty⟩ := others token member
  exact ⟨⟨proper, nonempty, fun string => absurd string other⟩, fun string => absurd string other⟩

theorem Lexer.tokensAt_legible {position : Position} {text : List Char} {tokens : List Token}
    (lexed : Lexer.tokensAt position text = .ok tokens) :
    ∀ token ∈ tokens, token.kind ≠ .endOfInput → token.Legible := by
  intro token member proper
  refine ⟨Lexer.tokensAt_shaped lexed token member proper, fun string => ?_⟩
  obtain ⟨before, after, cut⟩ := List.append_of_mem member
  obtain ⟨mark, inside, rest, quote, -, -, marked⟩ := Lexer.string_nested lexed cut string
  exact ⟨mark, quote, by rw [marked]; rfl⟩

namespace Grammar

/-- The text with a space behind it, unless there is none yet or one stands there. -/
def spaceBehind (text : List Char) : List Char :=
  if text = [] ∨ text.getLast? = some ' ' then text else text ++ [' ']

def collapsedBehind (text : List Char) : List Token → List Char
  | [] => text
  | token :: rest =>
    collapsedBehind (if token.isTrivia then spaceBehind text else text ++ token.text.toList) rest

/-- The texts of tokens with trivia collapsed: one space stands for trivia between others, and none at the
ends. A blank with which the text of a token ends counts as such a space. -/
def collapsed (tokens : List Token) : String :=
  String.ofList (Chars.trimStart (Chars.trimEnd (collapsedBehind [] tokens)))

section Gathering

variable {self : Self} {token : Token} {rest : List Token} {cursor : Cursor} {template : Template}
  {depth : Nat} {text : List Char} {stops opened : List TokenKind}

theorem gathered_pushSpace (gathered : Gathered template text) :
    Gathered (pushSpace template) (spaceBehind text) := by
  obtain ⟨spells, solid⟩ := gathered
  obtain ⟨none, rfl⟩ | ⟨before, spelled, last, parts, whole, nonempty, -⟩ := spells.last
  · have same : pushSpace template = template := by rw [pushSpace, none]; rfl
    rw [same]
    exact ⟨spells, solid⟩
  · have ends : text.getLast? = last.toList.getLast? := by
      rw [whole, List.getLast?_append_of_ne_nil _ nonempty]
    have filled : text ≠ [] := by
      rw [whole]
      exact List.append_ne_nil_of_right_ne_nil _ nonempty
    have step : pushSpace template =
        if last.toList.getLast? = some ' ' then template else template.pushLiteral " " := by
      rw [pushSpace, parts, List.getLast?_concat]
    rw [step, ← ends, spaceBehind]
    by_cases space : text.getLast? = some ' '
    · rw [if_pos space, if_pos (.inr space)]
      exact ⟨spells, solid⟩
    · rw [if_neg space, if_neg (by simp [filled, space])]
      exact ⟨spells.pushLiteral " " (by decide), solid.pushLiteral spells⟩

theorem gathered_pushToken (legible : token.Legible) (gathered : Gathered template text) :
    Gathered (pushToken template token) (text ++ token.text.toList) := by
  obtain ⟨spells, solid⟩ := gathered
  refine ⟨spells_pushToken legible.shaped spells, ?_⟩
  unfold pushToken
  split
  · rename_i string
    obtain ⟨mark, quote, first⟩ := legible.quoted string
    have visible : Chars.isBlank mark = false := by rcases quote with rfl | rfl <;> decide
    have marked : (String.ofList (token.text.toList.take 1)).toList = [mark] := by
      rw [String.toList_ofList, List.take_one, first]
      rfl
    have shows : ∃ c ∈ (String.ofList (token.text.toList.take 1)).toList, Chars.isBlank c = false :=
      ⟨mark, by rw [marked]; exact List.mem_singleton_self mark, visible⟩
    have front := Solid.shows_pushLiteral solid.dropLast spells shows
    have opened := spells.pushLiteral (String.ofList (token.text.toList.take 1)) (by simp [marked])
    refine .inr (Solid.shows_pushLiteral ?_ (Quoted.spells_textFragments opened token.content.toList) shows)
    cases token.content.toList with
    | nil =>
      intro part member
      rw [Quoted.textFragments, List.append_nil] at member
      exact front part (List.mem_of_mem_dropLast member)
    | cons c rest =>
      have piece : Quoted.textFragments (c :: rest) = [.literal (String.ofList (c :: rest))] := rfl
      intro part member
      rw [piece, List.dropLast_concat] at member
      exact front part member
  · exact solid.pushLiteral spells

theorem rawRound_stop (stop : (depth = 0 && stops.contains cursor.current.kind) = true) :
    rawRound self stops false ⟨template, depth⟩ cursor = .ok (.done template, cursor) := by
  by_cases ends : cursor.current.kind = .endOfInput
  · exact rawRound_done ends
  · rw [rawRound, Parser.bind_of_ok Parser.current_apply, if_neg ends, if_pos stop]
    rfl

/-- Round by round, the tokens up to the end that the scan finds are written behind what there is. -/
theorem gathered_rounds (self : Self) (flat : Flat opened depth) (ahead : cursor.ahead = rest)
    (legible : ∀ token ∈ rest.take (scanFrom stops opened rest), token.Legible)
    (unembedded : ∀ token ∈ rest.take (scanFrom stops opened rest), token.Unembedded)
    (gathered : Gathered template text) :
    ∃ whole, Parser.loopWithin (rawRound self stops false) rest ⟨template, depth⟩ cursor =
        .ok (whole, cursor.advance (scanFrom stops opened rest)) ∧
      Gathered whole (collapsedBehind text (rest.take (scanFrom stops opened rest))) := by
  induction rest generalizing cursor template depth opened text with
  | nil =>
    have ends : cursor.current.kind = .endOfInput := by
      rw [Cursor.current, ahead]
      exact cursor.last_kind
    exact ⟨template, Parser.loopWithin_done (rawRound_done ends), gathered⟩
  | cons token rest ih =>
    have here := Cursor.current_of_cons ahead
    have next := Cursor.ahead_advance_one ahead
    by_cases ends : token.kind = .endOfInput
    · have scan : scanFrom stops opened (token :: rest) = 0 := by
        rw [scanFrom_cons, if_pos (by simp [ends])]
      rw [scan]
      exact ⟨template, Parser.loopWithin_done (rawRound_done (here ▸ ends)), gathered⟩
    by_cases stop : (depth = 0 && stops.contains token.kind) = true
    · have scan : scanFrom stops opened (token :: rest) = 0 := by
        obtain ⟨shallow, found⟩ := Bool.and_eq_true_iff.mp stop
        have none : opened = [] := List.length_eq_zero_iff.mp (flat.1.trans (of_decide_eq_true shallow))
        rw [scanFrom_cons, if_pos (by simp [none, List.contains_iff_mem.mp found])]
      rw [scan]
      exact ⟨template, Parser.loopWithin_done (rawRound_stop (here ▸ stop)), gathered⟩
    have scan : scanFrom stops opened (token :: rest) =
        scanFrom stops (openBehind opened token.kind) rest + 1 := by
      refine scanFrom_pass ends fun none member => stop ?_
      rw [← flat.1, none]
      simpa using member
    rw [scan, List.take_succ_cons] at legible unembedded ⊢
    obtain ⟨own, others⟩ := List.forall_mem_cons.mp legible
    obtain ⟨kept, also⟩ := List.forall_mem_cons.mp unembedded
    have behind := flat.openBehind token.kind kept.plain
    rw [Nat.add_comm, ← Cursor.advance_advance]
    cases trivia : token.isTrivia with
    | true =>
      have same : openBehind opened token.kind = opened :=
        openBehind_plain (TokenKind.isPlain_of_isTrivia trivia) opened
      rw [same] at others also ⊢
      rw [Parser.loopWithin_again (rawRound_trivia ahead trivia stop), collapsedBehind, if_pos trivia]
      exact ih flat next others also (gathered_pushSpace gathered)
    | false =>
      rw [Parser.loopWithin_again (rawRound_visible ahead trivia own.shaped kept stop), collapsedBehind,
        if_neg (by simp [trivia])]
      exact ih behind next others also (gathered_pushToken own gathered)

/-- Raw text up to stops is that of the tokens up to where the scan finds one. -/
theorem raw_collapsed (self : Self) (stops : List TokenKind) (cursor : Cursor)
    (legible : ∀ token ∈ cursor.ahead.take (scanFrom stops [] cursor.ahead), token.Legible)
    (unembedded : ∀ token ∈ cursor.ahead.take (scanFrom stops [] cursor.ahead), token.Unembedded) :
    ∃ template, raw self stops false cursor =
        .ok (template, cursor.advance (scanFrom stops [] cursor.ahead)) ∧
      template.plain? = some (collapsed (cursor.ahead.take (scanFrom stops [] cursor.ahead))) := by
  have start : Gathered ⟨[], cursor.current.line⟩ [] := ⟨.nil, .inl (Nat.zero_le _)⟩
  have flat : Flat [] 0 := ⟨rfl, nofun⟩
  obtain ⟨whole, read, gathered⟩ := gathered_rounds self flat rfl legible unembedded start
  refine ⟨trimTemplate whole, ?_, gathered.trim⟩
  rw [raw_eq, Parser.bind_of_ok Parser.current_apply,
    Parser.bind_of_ok ((Parser.loop_apply _ _).trans read)]
  rfl

/-- Where no token has a blank at its ends but trivia, collapsed text is the texts of the others with one
space for the trivia between two of them. -/
theorem collapsed_eq_spaced {tokens : List Token} (legible : ∀ token ∈ tokens, token.Legible)
    (verbatim : ∀ token ∈ tokens, token.Verbatim) : collapsed tokens = spaced tokens := by
  have shaped : ∀ token ∈ tokens, token.Shaped := fun token member => (legible token member).shaped
  have ahead : (Cursor.ofTokens tokens).ahead = tokens :=
    Cursor.ahead_ofTokens fun token member => (shaped token member).proper
  have endless (opened : List TokenKind) : tokens.take (scanFrom [] opened tokens) = tokens := by
    clear ahead legible verbatim
    induction tokens generalizing opened with
    | nil => rfl
    | cons token rest ih =>
      obtain ⟨own, others⟩ := List.forall_mem_cons.mp shaped
      rw [scanFrom_pass own.proper fun _ => List.not_mem_nil, List.take_succ_cons, ih others]
  have whole : (Cursor.ofTokens tokens).ahead.take
      (scanFrom [] [] (Cursor.ofTokens tokens).ahead) = tokens := by
    rw [ahead, endless]
  -- Both are the text that raw collecting without stops comes to.
  obtain ⟨template, after, read, text⟩ := raw_spaced (Form.parser 0) shaped verbatim ahead
  obtain ⟨other, same, plain⟩ := raw_collapsed (Form.parser 0) [] (Cursor.ofTokens tokens)
    (whole.symm ▸ legible) (whole.symm ▸ fun token member => (verbatim token member).embeds_none)
  rw [read] at same
  cases same
  rw [whole, text] at plain
  exact (Option.some.inj plain).symm

end Gathering

/-- Leading trivia do not count. -/
theorem collapsed_behind_trivia {lead : List Token} (trivia : ∀ token ∈ lead, token.isTrivia = true)
    (tokens : List Token) : collapsed (lead ++ tokens) = collapsed tokens := by
  induction lead with
  | nil => rfl
  | cons token rest ih =>
    obtain ⟨first, others⟩ := List.forall_mem_cons.mp trivia
    rw [← ih others, List.cons_append, collapsed, collapsed, collapsedBehind, if_pos first]
    rfl

end Grammar

def TokenKind.partner? : TokenKind → Option TokenKind
  | .leftParen => some .rightParen
  | .leftBracket => some .rightBracket
  | .leftBrace => some .rightBrace
  | _ => none

def TokenKind.isBracket : TokenKind → Bool
  | .leftParen | .leftBracket | .leftBrace | .rightParen | .rightBracket | .rightBrace => true
  | _ => false

/-- Rows of tokens in which brackets of all shapes are pairs, one inside or behind the other. What stands
outside of all pairs, their openings included, is of certain kinds. -/
inductive Paired : (TokenKind → Prop) → List Token → Prop where
  | nil {outside : TokenKind → Prop} : Paired outside []
  | token {outside : TokenKind → Prop} {token : Token} {rest : List Token}
      (free : token.kind.isBracket = false) (fits : outside token.kind) (tail : Paired outside rest) :
      Paired outside (token :: rest)
  | group {outside : TokenKind → Prop} {opening closing : Token} {inner rest : List Token}
      (closes : opening.kind.partner? = some closing.kind) (fits : outside opening.kind)
      (inside : Paired (fun _ => True) inner) (tail : Paired outside rest) :
      Paired outside (opening :: inner ++ closing :: rest)

def Unbroken (row : List Token) : Prop :=
  ∀ token ∈ row, token.kind ≠ .endOfInput ∧ token.kind ≠ .interpolation

theorem Unbroken.of_group {opening closing : Token} {inner rest : List Token}
    (unbroken : Unbroken (opening :: inner ++ closing :: rest)) : Unbroken inner ∧ Unbroken rest := by
  constructor
  · intro token member
    exact unbroken token (by simp [member])
  · intro token member
    exact unbroken token (by simp [member])

namespace Grammar

variable {kind closer : TokenKind} {opened : List TokenKind}

theorem openBehind_free (free : kind.isBracket = false) (plain : kind ≠ .interpolation) :
    openBehind opened kind = opened := by
  cases kind <;> first | rfl | exact absurd rfl plain | cases free

/-- Outside of embedded expressions, what is open before a bracket is open again behind its partner. -/
theorem openBehind_partner (closes : kind.partner? = some closer) (flat : .interpolation ∉ opened) :
    openBehind (openBehind opened kind) closer = opened := by
  have brace : opened.head? ≠ some .interpolation := fun first => flat (List.mem_of_head? first)
  cases kind <;> cases closes
  · exact if_neg brace
  · rfl
  · rfl

theorem flat_openBehind (closes : kind.partner? = some closer) (flat : .interpolation ∉ opened) :
    .interpolation ∉ openBehind opened kind := by
  cases kind <;> cases closes <;> simpa [openBehind] using flat

/-- A bracket leaves something open if something is, and so does one that is no brace. -/
theorem openBehind_ne_nil (closes : kind.partner? = some closer) (inside : opened ≠ [] ∨ kind ≠ .leftBrace) :
    openBehind opened kind ≠ [] := by
  cases kind <;> cases closes
  · exact inside.resolve_right fun other => other rfl
  · exact List.cons_ne_nil _ _
  · exact List.cons_ne_nil _ _

theorem partner_proper (closes : kind.partner? = some closer) :
    kind ≠ .endOfInput ∧ closer ≠ .endOfInput := by
  cases kind <;> cases closes <;> exact ⟨nofun, nofun⟩

/-- The opening of a brace changes nothing. -/
theorem openBehind_leftBrace : openBehind opened .leftBrace = opened := rfl

end Grammar

namespace Paired

open Grammar (openBehind scanFrom)

variable {outside : TokenKind → Prop} {row rest : List Token} {opened stops : List TokenKind}

theorem group_append (opening closing : Token) (inner row rest : List Token) :
    opening :: inner ++ closing :: row ++ rest = opening :: (inner ++ closing :: (row ++ rest)) := by
  simp only [List.cons_append, List.append_assoc]

/-- Leading trivia are no brackets. -/
theorem dropWhile (paired : Paired outside row) : Paired outside (row.dropWhile Token.isTrivia) := by
  induction paired with
  | nil => exact .nil
  | @token outside token rest free fits tail ih =>
    cases trivia : token.isTrivia with
    | true =>
      rw [List.dropWhile_cons_of_pos trivia]
      exact ih
    | false =>
      rw [List.dropWhile_cons_of_neg (by simp [trivia])]
      exact .token free fits tail
  | @group outside opening closing inner rest closes fits inside tail ih =>
    have visible : opening.isTrivia = false := by
      rw [Token.isTrivia]
      cases kind : opening.kind <;> simp [kind, TokenKind.partner?, TokenKind.isTrivia] at closes ⊢
    rw [List.cons_append, List.dropWhile_cons_of_neg (by simp [visible])]
    exact .group closes fits inside tail

/-- Nor are trivia that are put in front. -/
theorem behind_trivia (paired : Paired outside row) {lead : List Token}
    (trivia : ∀ token ∈ lead, token.isTrivia = true ∧ outside token.kind) : Paired outside (lead ++ row) := by
  induction lead with
  | nil => exact paired
  | cons token rest ih =>
    obtain ⟨⟨first, fits⟩, others⟩ := List.forall_mem_cons.mp trivia
    have free : token.kind.isBracket = false := by
      rw [Token.isTrivia] at first
      cases kind : token.kind <;> simp [kind, TokenKind.isBracket, TokenKind.isTrivia] at first ⊢
    exact .token free fits (ih others)

/-- Where something is open, the scan passes a row of pairs. -/
theorem scanFrom_inside (paired : Paired outside row) (unbroken : Unbroken row) (inside : opened ≠ [])
    (flat : .interpolation ∉ opened) (rest : List Token) :
    scanFrom stops opened (row ++ rest) = scanFrom stops opened rest + row.length := by
  induction paired generalizing opened rest with
  | nil => rfl
  | @token outside token row free fits tail ih =>
    obtain ⟨⟨proper, plain⟩, others⟩ := List.forall_mem_cons.mp unbroken
    rw [List.cons_append, Grammar.scanFrom_inside proper inside, Grammar.openBehind_free free plain,
      ih others inside flat]
    rfl
  | @group outside opening closing inner row closes fits one tail ih other =>
    obtain ⟨within, behind⟩ := unbroken.of_group
    obtain ⟨starts, ends⟩ := Grammar.partner_proper closes
    have open_ := Grammar.openBehind_ne_nil closes (.inl inside)
    rw [group_append, Grammar.scanFrom_inside starts inside,
      ih within open_ (Grammar.flat_openBehind closes flat), Grammar.scanFrom_inside ends open_,
      Grammar.openBehind_partner closes flat, other behind inside flat]
    simp only [List.length_cons, List.length_append]
    omega

/-- Behind the opening of a round or square bracket, the scan passes all that the bracket encloses. -/
theorem scanFrom_group {opening closing : Token} {inner : List Token}
    (closes : opening.kind.partner? = some closing.kind) (round : opening.kind ≠ .leftBrace)
    (inside : Paired outside inner) (unbroken : Unbroken inner) (goes : opening.kind ∉ stops)
    (rest : List Token) :
    scanFrom stops [] (opening :: (inner ++ closing :: rest)) =
      scanFrom stops [] rest + (inner.length + 2) := by
  have flat : TokenKind.interpolation ∉ ([] : List TokenKind) := List.not_mem_nil
  have open_ : openBehind [] opening.kind ≠ [] := Grammar.openBehind_ne_nil closes (.inr round)
  obtain ⟨starts, ends⟩ := Grammar.partner_proper closes
  calc
    _ = scanFrom stops (openBehind [] opening.kind) (inner ++ closing :: rest) + 1 :=
      Grammar.scanFrom_pass starts fun _ => goes
    _ = scanFrom stops (openBehind [] opening.kind) (closing :: rest) + inner.length + 1 := by
      rw [inside.scanFrom_inside unbroken open_ (Grammar.flat_openBehind closes flat)]
    _ = scanFrom stops [] rest + 1 + inner.length + 1 := by
      rw [Grammar.scanFrom_inside ends open_, Grammar.openBehind_partner closes flat]
    _ = _ := by omega

/-- Behind a brace, the scan passes no more than what the brace encloses, and less if it ends at braces. -/
theorem scanFrom_braces {opening closing : Token} {inner : List Token}
    (closes : opening.kind.partner? = some closing.kind) (brace : opening.kind = .leftBrace)
    (passes : scanFrom stops [] (inner ++ closing :: rest) ≤
      scanFrom stops [] (closing :: rest) + inner.length) :
    scanFrom stops [] (opening :: (inner ++ closing :: rest)) ≤
        scanFrom stops [] rest + (inner.length + 2) ∧
      (.rightBrace ∈ stops → scanFrom stops [] (opening :: (inner ++ closing :: rest)) ≤ inner.length + 1) := by
  have partner : closing.kind = .rightBrace := by
    rw [brace] at closes
    exact (Option.some.inj closes).symm
  have first : scanFrom stops [] (opening :: (inner ++ closing :: rest)) ≤
      scanFrom stops [] (closing :: rest) + inner.length + 1 := by
    rw [Grammar.scanFrom_cons, brace, Grammar.openBehind_leftBrace]
    split <;> omega
  constructor
  · have last : scanFrom stops [] (closing :: rest) ≤ scanFrom stops [] rest + 1 := by
      have same : openBehind [] closing.kind = [] := by rw [partner]; rfl
      rw [Grammar.scanFrom_cons, same]
      split <;> omega
    omega
  · intro stop
    have ends : scanFrom stops [] (closing :: rest) = 0 := by
      rw [Grammar.scanFrom_cons, if_pos (by simp [partner, stop])]
    omega

/-- The scan does not pass more of a row of pairs than all of it. -/
theorem scanFrom_le (paired : Paired outside row) (unbroken : Unbroken row) (stops : List TokenKind)
    (rest : List Token) : scanFrom stops [] (row ++ rest) ≤ scanFrom stops [] rest + row.length := by
  induction paired generalizing rest with
  | nil => exact Nat.le_refl _
  | @token outside token row free fits tail ih =>
    obtain ⟨⟨proper, plain⟩, others⟩ := List.forall_mem_cons.mp unbroken
    have behind := ih others rest
    rw [List.cons_append, Grammar.scanFrom_cons, Grammar.openBehind_free free plain, List.length_cons]
    split <;> omega
  | @group outside opening closing inner row closes fits one tail ih other =>
    obtain ⟨within, behind⟩ := unbroken.of_group
    have whole : scanFrom stops [] (opening :: (inner ++ closing :: (row ++ rest))) ≤
        scanFrom stops [] (row ++ rest) + (inner.length + 2) := by
      by_cases goes : opening.kind ∈ stops
      · rw [Grammar.scanFrom_cons, if_pos (by simp [goes])]
        omega
      by_cases brace : opening.kind = .leftBrace
      · exact (scanFrom_braces closes brace (ih within _)).1
      · exact (scanFrom_group closes brace one within goes _).le
    have last := other behind rest
    rw [group_append]
    simp only [List.length_cons, List.length_append]
    omega

/-- The scan passes a row of pairs in which neither an end nor a brace stands outside. -/
theorem scanFrom_guarded (paired : Paired outside row) (unbroken : Unbroken row)
    (guarded : ∀ kind, outside kind → kind ≠ .rightBrace → kind ∉ stops ∧ kind ≠ .leftBrace)
    (rest : List Token) :
    scanFrom stops [] (row ++ rest) = scanFrom stops [] rest + row.length := by
  induction paired with
  | nil => rfl
  | @token outside token row free fits tail ih =>
    obtain ⟨⟨proper, plain⟩, others⟩ := List.forall_mem_cons.mp unbroken
    have other : token.kind ≠ .rightBrace := by
      intro brace
      rw [brace] at free
      cases free
    rw [List.cons_append, Grammar.scanFrom_pass proper fun _ => (guarded _ fits other).1,
      Grammar.openBehind_free free plain, ih others guarded]
    rfl
  | @group outside opening closing inner row closes fits one tail ih other =>
    obtain ⟨within, behind⟩ := unbroken.of_group
    have opens : opening.kind ≠ .rightBrace := by
      intro brace
      rw [brace] at closes
      cases closes
    obtain ⟨goes, round⟩ := guarded _ fits opens
    rw [group_append, scanFrom_group closes round one within goes, other behind guarded]
    simp only [List.length_cons, List.length_append]
    omega

/-- If a brace stands outside, the scan ends before the row does. -/
theorem scanFrom_unguarded (paired : Paired outside row) (unbroken : Unbroken row) (stop : .rightBrace ∈ stops)
    (rest : List Token) :
    Paired (fun kind => outside kind ∧ kind ≠ .leftBrace) row ∨
      scanFrom stops [] (row ++ rest) < row.length := by
  induction paired with
  | nil => exact .inl .nil
  | @token outside token row free fits tail ih =>
    obtain ⟨⟨proper, plain⟩, others⟩ := List.forall_mem_cons.mp unbroken
    obtain guarded | cut := ih others
    · refine .inl (.token free ⟨fits, ?_⟩ guarded)
      intro brace
      rw [brace] at free
      cases free
    · right
      rw [List.cons_append, Grammar.scanFrom_cons, Grammar.openBehind_free free plain, List.length_cons]
      split <;> omega
  | @group outside opening closing inner row closes fits one tail ih other =>
    obtain ⟨within, behind⟩ := unbroken.of_group
    rw [group_append]
    simp only [List.length_cons, List.length_append]
    by_cases goes : opening.kind ∈ stops
    · right
      rw [Grammar.scanFrom_cons, if_pos (by simp [goes])]
      omega
    by_cases brace : opening.kind = .leftBrace
    · have passes := one.scanFrom_le within stops (closing :: (row ++ rest))
      have inside := (scanFrom_braces closes brace passes).2 stop
      right
      omega
    · obtain guarded | cut := other behind
      · exact .inl (.group closes ⟨fits, brace⟩ one guarded)
      · right
        rw [scanFrom_group closes brace one within goes]
        omega

end Paired

/-- The tokens of a custom property, up to the one behind its value. Brackets in the value are pairs, and no
semicolon stands outside of them; no expression is embedded. -/
structure PropertyRow where
  blanks : List Token
  name : Token
  gap : List Token
  colon : Token
  value : List Token
  stop : Token
  blank : ∀ token ∈ blanks, token.kind = .whitespace
  ident : name.kind = .ident
  custom : Text.startsWith "--" name.text = true
  trivia : ∀ token ∈ gap, token.isTrivia = true
  colon_kind : colon.kind = .colon
  legible : ∀ token ∈ value, token.Legible
  unembedded : ∀ token ∈ value, token.Unembedded
  paired : Paired (· ≠ .semicolon) value
  stop_kind : stop.kind = .semicolon ∨ stop.kind = .rightBrace

namespace PropertyRow

variable (row : PropertyRow)

def tokens : List Token := row.blanks ++ row.name :: (row.gap ++ row.colon :: (row.value ++ [row.stop]))

theorem tokens_append (rest : List Token) : row.tokens ++ rest =
    row.blanks ++ row.name :: (row.gap ++ row.colon :: (row.value ++ row.stop :: rest)) := by
  rw [tokens]
  simp only [List.append_assoc, List.cons_append, List.nil_append]

/-- No brace stands outside of all brackets in the value. -/
def Guarded : Prop := Paired (fun kind => kind ≠ .semicolon ∧ kind ≠ .leftBrace) row.value

def statement (value : Template) : Statement :=
  .customProperty (.literal row.name.text row.name.line) value row.name.line

theorem colon_visible : row.colon.isTrivia = false := by
  rw [Token.isTrivia, row.colon_kind]
  rfl

theorem stop_visible : row.stop.isTrivia = false := by
  rw [Token.isTrivia]
  rcases row.stop_kind with kind | kind <;> rw [kind] <;> rfl

/-- Leading trivia do not count. -/
theorem guarded_iff : row.Guarded ↔
    Paired (fun kind => kind ≠ .semicolon ∧ kind ≠ .leftBrace) (row.value.dropWhile Token.isTrivia) := by
  constructor
  · intro guarded
    exact guarded.dropWhile
  · intro guarded
    have whole : row.value.takeWhile Token.isTrivia ++ row.value.dropWhile Token.isTrivia = row.value :=
      List.takeWhile_append_dropWhile
    rw [Guarded, ← whole]
    refine guarded.behind_trivia fun token member => ?_
    have trivia : token.isTrivia = true := List.mem_takeWhile_imp member
    refine ⟨trivia, ?_⟩
    rw [Token.isTrivia] at trivia
    constructor <;> intro kind <;> rw [kind] at trivia <;> cases trivia

end PropertyRow

namespace Grammar

variable {cursor : Cursor} {rest : List Token}

def valueStops : List TokenKind := [.semicolon, .rightBrace]

/-- The scan for the end of a value goes no further than the value. It passes all of it if no brace stands
outside of all brackets, and only then. -/
theorem scanFrom_value {value : List Token} {stop : Token} (paired : Paired (· ≠ .semicolon) value)
    (unbroken : Unbroken value) (ends : scanFrom valueStops [] (stop :: rest) = 0) :
    scanFrom valueStops [] (value ++ stop :: rest) ≤ value.length ∧
      (value.length ≤ scanFrom valueStops [] (value ++ stop :: rest) ↔
        Paired (fun kind => kind ≠ .semicolon ∧ kind ≠ .leftBrace) value) := by
  have bound := paired.scanFrom_le unbroken valueStops (stop :: rest)
  rw [ends, Nat.zero_add] at bound
  refine ⟨bound, fun all => ?_, fun guarded => ?_⟩
  · have brace : TokenKind.rightBrace ∈ valueStops := by decide
    exact (paired.scanFrom_unguarded unbroken brace (stop :: rest)).resolve_right (not_lt_of_ge all)
  · have passes : ∀ kind : TokenKind, kind ≠ .semicolon ∧ kind ≠ .leftBrace → kind ≠ .rightBrace →
        kind ∉ valueStops ∧ kind ≠ .leftBrace := by
      intro kind ⟨other, brace⟩ opens
      exact ⟨by simp [valueStops, other, opens], brace⟩
    have all := guarded.scanFrom_guarded unbroken passes (stop :: rest)
    rw [all]
    exact Nat.le_add_left _ _

/-- The part of a value that is read, and the part that is not. The second is empty if no brace stands
outside of all brackets, and only then. -/
theorem value_cut (row : PropertyRow) (rest : List Token) :
    ∃ lead kept lost, row.value = lead ++ (kept ++ lost) ∧
      (∀ token ∈ lead, token.isTrivia = true) ∧
      (row.value ++ row.stop :: rest).dropWhile Token.isTrivia = kept ++ (lost ++ row.stop :: rest) ∧
      scanFrom valueStops [] (kept ++ (lost ++ row.stop :: rest)) = kept.length ∧
      (lost = [] ↔ row.Guarded) := by
  have ends : scanFrom valueStops [] (row.stop :: rest) = 0 := by
    rw [scanFrom_cons, if_pos]
    rcases row.stop_kind with kind | kind <;> simp [kind, valueStops]
  have unbroken : Unbroken (row.value.dropWhile Token.isTrivia) := by
    intro token member
    have own : token ∈ row.value := (List.dropWhile_sublist _).mem member
    exact ⟨(row.legible token own).shaped.proper, (row.unembedded token own).plain⟩
  have whole : row.value.takeWhile Token.isTrivia ++ row.value.dropWhile Token.isTrivia = row.value :=
    List.takeWhile_append_dropWhile
  obtain ⟨bound, guarded⟩ := scanFrom_value row.paired.dropWhile unbroken ends
  rw [← row.guarded_iff] at guarded
  rw [dropWhile_append row.stop_visible]
  generalize row.value.dropWhile Token.isTrivia = shown at bound guarded whole ⊢
  generalize found : scanFrom valueStops [] (shown ++ row.stop :: rest) = count at bound guarded
  have parts : shown.take count ++ shown.drop count = shown := List.take_append_drop count shown
  have again : shown.take count ++ (shown.drop count ++ row.stop :: rest) = shown ++ row.stop :: rest := by
    rw [← List.append_assoc, parts]
  refine ⟨row.value.takeWhile Token.isTrivia, shown.take count, shown.drop count, ?_,
    fun _ => List.mem_takeWhile_imp, again.symm, ?_, ?_⟩
  · rw [parts, whole]
  · rw [again, found, List.length_take, min_eq_left bound]
  · rw [← guarded, List.drop_eq_nil_iff]

/-- The name and the colon of a custom property are passed, with the trivia behind each. -/
theorem customProperty_value (b : Blocks) (row : PropertyRow)
    (ahead : cursor.ahead = row.name :: (row.gap ++ row.colon :: rest)) :
    ∃ place : Cursor, place.ahead = rest.dropWhile Token.isTrivia ∧
      b.customProperty cursor =
        (do
          let value ← raw b.self valueStops false
          let _ ← Parser.accept .semicolon
          return row.statement value : Parser Statement) place := by
  have name : Parser.expect .ident cursor = .ok (row.name, cursor.advance 1) := by
    have here := Cursor.current_of_cons ahead
    rw [← here]
    exact Parser.expect_of_eq (here.symm ▸ row.ident)
  have gap : (cursor.advance 1).skipTrivia.ahead = row.colon :: rest := by
    rw [Cursor.ahead_skipTrivia, Cursor.ahead_advance_one ahead, List.dropWhile_append_of_pos row.trivia,
      List.dropWhile_cons_of_neg (by simp [row.colon_visible])]
  have colon : Parser.expect .colon (cursor.advance 1).skipTrivia =
      .ok (row.colon, (cursor.advance 1).skipTrivia.advance 1) := by
    have here := Cursor.current_of_cons gap
    rw [← here]
    exact Parser.expect_of_eq (here.symm ▸ row.colon_kind)
  refine ⟨((cursor.advance 1).skipTrivia.advance 1).skipTrivia, ?_, ?_⟩
  · rw [Cursor.ahead_skipTrivia, Cursor.ahead_advance_one gap]
  · rw [Blocks.customProperty, Parser.bind_of_ok name, Parser.bind_of_ok Parser.skipTrivia_apply,
      Parser.bind_of_ok colon, Parser.bind_of_ok Parser.skipTrivia_apply]
    rfl

/-- From its name on, a custom property is read with the part of its value up to the end that is found. -/
theorem customProperty_reads (b : Blocks) (row : PropertyRow)
    (ahead : cursor.ahead = row.name :: (row.gap ++ row.colon :: (row.value ++ row.stop :: rest))) :
    ∃ kept lost last behind value after, row.value = kept ++ lost ∧
      lost ++ row.stop :: rest = last :: behind ∧
      b.customProperty cursor = .ok (row.statement value, after) ∧
      value.plain? = some (collapsed kept) ∧
      after.ahead = (if last.kind = .semicolon then behind else last :: behind) ∧
      (lost = [] ↔ row.Guarded) := by
  obtain ⟨lead, kept, lost, value, trivia, shown, scan, guarded⟩ := value_cut row rest
  obtain ⟨place, start, reading⟩ := customProperty_value b row ahead
  rw [shown] at start
  have member (token : Token) (inside : token ∈ kept) : token ∈ row.value := by
    rw [value]
    simp [inside]
  have cut : place.ahead.take (scanFrom valueStops [] place.ahead) = kept := by
    rw [start, scan, List.take_left]
  obtain ⟨template, read, plain⟩ := raw_collapsed b.self valueStops place
    (fun token inside => row.legible token (member token (cut ▸ inside)))
    (fun token inside => row.unembedded token (member token (cut ▸ inside)))
  have left : (place.advance (scanFrom valueStops [] place.ahead)).ahead = lost ++ row.stop :: rest := by
    rw [start, scan]
    exact Cursor.ahead_advance_of_append start
  generalize place.advance (scanFrom valueStops [] place.ahead) = ended at read left
  obtain ⟨last, behind, next⟩ : ∃ last behind, lost ++ row.stop :: rest = last :: behind :=
    List.exists_cons_of_ne_nil (by simp)
  rw [next] at left
  rw [Parser.bind_of_ok read, Parser.bind_of_ok (Parser.accept_apply .semicolon),
    Cursor.current_of_cons left] at reading
  refine ⟨lead ++ kept, lost, last, behind, template, _, ?_, next, reading, ?_, ?_, guarded⟩
  · rw [value, List.append_assoc]
  · rw [plain, cut, collapsed_behind_trivia trivia]
  · split
    · exact Cursor.ahead_advance_one left
    · exact left

/-- A name with two hyphens and a colon behind it start a custom property. -/
theorem ruleOrDeclaration_custom (b : Blocks) (row : PropertyRow) {more : List Token}
    (ahead : cursor.ahead = row.name :: (row.gap ++ row.colon :: more)) :
    b.ruleOrDeclaration cursor = b.customProperty cursor := by
  have here : cursor.current = row.name := Cursor.current_of_cons ahead
  have none : row.gap.find? (fun token => !token.isTrivia) = none :=
    List.find?_eq_none.mpr fun token member => by simp [row.trivia token member]
  have colon : (cursor.significant 1).kind = .colon := by
    rw [Cursor.significant, ahead, List.drop_succ_cons, List.drop_zero, List.find?_append, none,
      List.find?_cons_of_pos (by simp [row.colon_visible])]
    exact row.colon_kind
  rw [Blocks.ruleOrDeclaration, Parser.bind_of_ok Parser.current_apply,
    Parser.bind_of_ok (Parser.significant_apply 1), if_pos]
  simp [here, row.ident, row.custom, colon]

/-- So a round of a list of statements reads it. -/
theorem statementRound_custom (b : Blocks) (row : PropertyRow) (done : List Statement) {more : List Token}
    (ahead : cursor.ahead = row.blanks ++ row.name :: (row.gap ++ row.colon :: more)) :
    ∃ place : Cursor, place.ahead = row.name :: (row.gap ++ row.colon :: more) ∧
      b.statementRound true done cursor =
        (b.customProperty >>= fun statement => pure (.again (done ++ [statement]))) place := by
  have start : cursor.skipBlank.ahead = row.name :: (row.gap ++ row.colon :: more) := by
    have blank : ∀ token ∈ row.blanks, decide (token.kind = .whitespace) = true := by
      intro token member
      simpa using row.blank token member
    rw [Cursor.skipBlank, Cursor.skipWhile, Cursor.ahead_advance, ahead, List.takeWhile_append_of_pos blank,
      List.takeWhile_cons_of_neg (by simp [row.ident]), List.append_nil, List.drop_left]
  have here : cursor.skipBlank.current = row.name := Cursor.current_of_cons start
  have next : (cursor.skipBlank.peek 1).kind ≠ .dot := by
    rw [Cursor.peek, start, List.getElem?_cons_succ]
    intro dot
    cases gap : row.gap with
    | nil => simp [gap, row.colon_kind] at dot
    | cons token others =>
      have trivia := row.trivia token (by simp [gap])
      rw [gap] at dot
      have kind : token.kind = .dot := dot
      rw [Token.isTrivia, kind] at trivia
      cases trivia
  refine ⟨cursor.skipBlank, start, ?_⟩
  have skipped : Parser.skipBlank cursor = .ok (⟨⟩, cursor.skipBlank) := rfl
  rw [Blocks.statementRound, Parser.bind_of_ok skipped, Parser.bind_of_ok Parser.current_apply, here, row.ident]
  dsimp only
  rw [Parser.bind_of_ok (Parser.peek_apply 1), Parser.bind_of_ok (Parser.peek_apply 2), if_neg (by simp [next])]
  change (b.ruleOrDeclaration cursor.skipBlank >>= fun result => _) = _
  rw [ruleOrDeclaration_custom b row start]
  rfl

/-- A closing brace ends the statements of a block. -/
theorem statementRound_rightBrace (b : Blocks) (done : List Statement) {brace : Token}
    (closes : brace.kind = .rightBrace) (ahead : cursor.ahead = brace :: rest) :
    b.statementRound true done cursor = .ok (.done done, cursor) := by
  have still : cursor.skipBlank = cursor := by
    rw [Cursor.skipBlank, Cursor.skipWhile, ahead, List.takeWhile_cons_of_neg (by simp [closes])]
    rfl
  have skipped : Parser.skipBlank cursor = .ok (⟨⟩, cursor) :=
    congrArg (fun place => Except.ok ((), place)) still
  rw [Blocks.statementRound, Parser.bind_of_ok skipped, Parser.bind_of_ok Parser.current_apply,
    Cursor.current_of_cons ahead, closes]
  rfl

/-- A custom property whose value is well-nested is read as one statement with all of its value if no brace
stands outside of round and square brackets in the value, and only then. The statements of the block go on
behind its semicolon, or end at the brace behind it. Otherwise the value is cut, and reading goes on inside
of it. The tokens of a row are legible when they are read off a text. -/
theorem custom_properties_whole (b : Blocks) :
    (∀ position text lexed, Lexer.tokensAt position text = .ok lexed →
      ∀ token ∈ lexed, token.kind ≠ .endOfInput → token.Legible) ∧
    ∀ (row : PropertyRow) (done : List Statement) (cursor : Cursor) (rest : List Token),
      cursor.ahead = row.tokens ++ rest →
      ∃ kept lost value after, row.value = kept ++ lost ∧
        b.statementRound true done cursor = .ok (.again (done ++ [row.statement value]), after) ∧
        value.plain? = some (collapsed kept) ∧
        ((∀ token ∈ kept, token.Verbatim) → collapsed kept = spaced kept) ∧
        (lost = [] ↔ row.Guarded) ∧
        (lost = [] → row.stop.kind = .semicolon → after.ahead = rest) ∧
        (lost = [] → row.stop.kind = .rightBrace → after.ahead = row.stop :: rest ∧
          ∀ token bound, Parser.loopWithin (b.statementRound true) (token :: bound) done cursor =
            .ok (done ++ [row.statement value], after)) ∧
        (lost ≠ [] → ∃ left, left <:+ lost ∧ after.ahead = left ++ row.stop :: rest) := by
  refine ⟨fun position text lexed => Lexer.tokensAt_legible, ?_⟩
  intro row done cursor rest ahead
  obtain ⟨place, name, round⟩ := statementRound_custom b row done (ahead.trans (row.tokens_append rest))
  obtain ⟨kept, lost, last, behind, value, after, whole, following, read, plain, final, guarded⟩ :=
    customProperty_reads b row name
  rw [Parser.bind_of_ok read] at round
  have legible : ∀ token ∈ kept, token.Legible := by
    intro token member
    exact row.legible token (by simp [whole, member])
  refine ⟨kept, lost, value, after, whole, round, plain, collapsed_eq_spaced legible, guarded, ?_, ?_, ?_⟩
  · rintro rfl semicolon
    obtain ⟨rfl, rfl⟩ := List.cons.inj following
    rw [final, if_pos semicolon]
  · rintro rfl brace
    obtain ⟨rfl, rfl⟩ := List.cons.inj following
    rw [if_neg (by simp [brace])] at final
    refine ⟨final, fun token bound => ?_⟩
    rw [Parser.loopWithin_again round]
    exact Parser.loopWithin_done (statementRound_rightBrace b _ brace final)
  · intro cut
    obtain ⟨first, others, rfl⟩ := List.exists_cons_of_ne_nil cut
    obtain ⟨rfl, rfl⟩ := List.cons.inj following
    split at final
    · exact ⟨others, List.suffix_cons _ _, final⟩
    · exact ⟨first :: others, List.suffix_refl _, final⟩

/-- The tokens of ` (\x7bb\x7d;) [c]`. -/
def bracketedValue : List Token :=
  [⟨.whitespace, " ", ⟨1, 5⟩⟩, ⟨.leftParen, "(", ⟨1, 6⟩⟩, ⟨.leftBrace, "\x7b", ⟨1, 7⟩⟩,
    ⟨.ident, "b", ⟨1, 8⟩⟩, ⟨.rightBrace, "\x7d", ⟨1, 9⟩⟩, ⟨.semicolon, ";", ⟨1, 10⟩⟩,
    ⟨.rightParen, ")", ⟨1, 11⟩⟩, ⟨.whitespace, " ", ⟨1, 12⟩⟩, ⟨.leftBracket, "[", ⟨1, 13⟩⟩,
    ⟨.ident, "c", ⟨1, 14⟩⟩, ⟨.rightBracket, "]", ⟨1, 15⟩⟩]

theorem paired_bracketedValue {outside : TokenKind → Prop} (blank : outside .whitespace)
    (round : outside .leftParen) (square : outside .leftBracket) : Paired outside bracketedValue := by
  have word (token : Token) (free : token.kind.isBracket = false) : Paired (fun _ => True) [token] :=
    .token free trivial .nil
  have braces : Paired (fun _ => True) ([⟨.leftBrace, "\x7b", ⟨1, 7⟩⟩, ⟨.ident, "b", ⟨1, 8⟩⟩] ++
      [⟨.rightBrace, "\x7d", ⟨1, 9⟩⟩, ⟨.semicolon, ";", ⟨1, 10⟩⟩]) :=
    .group rfl trivial (word _ rfl) (word _ rfl)
  exact .token rfl blank (.group rfl round braces (.token rfl blank (.group rfl square (word _ rfl) .nil)))

/-- The row of `--x: (\x7bb\x7d;) [c]\x7d`. -/
def bracketedRow : PropertyRow where
  blanks := []
  name := ⟨.ident, "--x", ⟨1, 1⟩⟩
  gap := []
  colon := ⟨.colon, ":", ⟨1, 4⟩⟩
  value := bracketedValue
  stop := ⟨.rightBrace, "\x7d", ⟨1, 16⟩⟩
  blank := nofun
  ident := rfl
  custom := by decide +kernel
  trivia := nofun
  colon_kind := rfl
  legible := Token.legible_of_others (by decide +kernel)
  unembedded := by decide +kernel
  paired := paired_bracketedValue nofun nofun nofun
  stop_kind := .inr rfl

/-- The brace and the semicolon inside of the round brackets end nothing. -/
theorem custom_properties_whole_brackets :
    let b : Blocks := ⟨Form.parser 0, bodyParser (Form.parser 0) 0⟩
    ∃ tokens value after, (Lexer.tokens "--x: (\x7bb\x7d;) [c]\x7d").toOption = some tokens ∧
      (Cursor.ofTokens tokens).ahead = bracketedRow.tokens ∧ bracketedRow.Guarded ∧
      b.statements true (Cursor.ofTokens tokens) = .ok ([bracketedRow.statement value], after) ∧
      value.plain? = some "(\x7bb\x7d;) [c]" ∧ after.ahead = [bracketedRow.stop] := by
  intro b
  let tokens := bracketedRow.tokens ++ [⟨.endOfInput, "", ⟨1, 17⟩⟩]
  have lexed : (Lexer.tokens "--x: (\x7bb\x7d;) [c]\x7d").toOption = some tokens := by decide +kernel
  have ahead : (Cursor.ofTokens tokens).ahead = bracketedRow.tokens ++ [] := rfl
  have guarded : bracketedRow.Guarded := paired_bracketedValue ⟨nofun, nofun⟩ ⟨nofun, nofun⟩ ⟨nofun, nofun⟩
  obtain ⟨kept, lost, value, after, whole, -, plain, -, shut, -, brace, -⟩ :=
    (custom_properties_whole b).2 bracketedRow [] _ [] ahead
  obtain rfl := shut.mpr guarded
  rw [List.append_nil] at whole
  subst whole
  obtain ⟨final, loop⟩ := brace rfl rfl
  refine ⟨tokens, value, after, lexed, ahead, guarded, ?_, ?_, final⟩
  · rw [Blocks.statements, Parser.loop_apply, ahead]
    exact loop bracketedRow.name bracketedRow.tokens.tail
  · rw [plain]
    decide +kernel

/-- The tokens of ` \x7b b: c \x7d`. -/
def bracedValue : List Token :=
  [⟨.whitespace, " ", ⟨1, 5⟩⟩, ⟨.leftBrace, "\x7b", ⟨1, 6⟩⟩, ⟨.whitespace, " ", ⟨1, 7⟩⟩,
    ⟨.ident, "b", ⟨1, 8⟩⟩, ⟨.colon, ":", ⟨1, 9⟩⟩, ⟨.whitespace, " ", ⟨1, 10⟩⟩, ⟨.ident, "c", ⟨1, 11⟩⟩,
    ⟨.whitespace, " ", ⟨1, 12⟩⟩, ⟨.rightBrace, "\x7d", ⟨1, 13⟩⟩]

theorem paired_bracedValue : Paired (· ≠ .semicolon) bracedValue := by
  have inner : Paired (fun _ => True) [⟨.whitespace, " ", ⟨1, 7⟩⟩, ⟨.ident, "b", ⟨1, 8⟩⟩,
      ⟨.colon, ":", ⟨1, 9⟩⟩, ⟨.whitespace, " ", ⟨1, 10⟩⟩, ⟨.ident, "c", ⟨1, 11⟩⟩,
      ⟨.whitespace, " ", ⟨1, 12⟩⟩] := by
    repeat refine .token rfl trivial ?_
    exact .nil
  exact .token rfl nofun (.group rfl nofun inner .nil)

/-- The row of `--x: \x7b b: c \x7d;`. -/
def bracedRow : PropertyRow :=
  { bracketedRow with
    value := bracedValue
    stop := ⟨.semicolon, ";", ⟨1, 14⟩⟩
    legible := Token.legible_of_others (by decide +kernel)
    unembedded := by decide +kernel
    paired := paired_bracedValue
    stop_kind := .inl rfl }

/-- The brace in the value ends the value, and the block with it. -/
theorem custom_property_cut :
    let b : Blocks := ⟨Form.parser 0, bodyParser (Form.parser 0) 0⟩
    let cursor := Cursor.ofTokens ((Lexer.tokens "--x: \x7b b: c \x7d;\x7d").toOption.getD [])
    cursor.ahead = bracedRow.tokens ++ [⟨.rightBrace, "\x7d", ⟨1, 15⟩⟩] ∧
      collapsed bracedRow.value = "\x7b b: c \x7d" ∧
      (b.statements true cursor).toOption.any (fun
        | ([.customProperty name value 1], after) =>
          name.plain? = some "--x" && value.plain? = some "\x7b b: c" &&
            after.ahead.map Token.text = ["\x7d", ";", "\x7d"]
        | _ => false) = true ∧
      ((Compiler.create {} (Loader.memory [])).compile
        ⟨"input.scss", "a \x7b\n  --x: \x7b b: c \x7d;\n\x7d\n"⟩ .scss).result.toOption = none := by
  decide +kernel

end Grammar

end Scss
