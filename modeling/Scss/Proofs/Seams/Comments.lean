import Scss.Proofs.Grammar.Dropping
import Scss.Proofs.Seams.Sheets

/-! A silent comment in the place of a blank or of a semicolon. Texts that part behind a token which is neither
blank nor comment have the same tokens up to there, as long as what follows looks the same from the front. Blanks
and comments are as good as blanks, and a semicolon may be lacking where the tokens are complete and the block
ends. -/
namespace Scss

namespace Lexer

open Chars (isBlank)

section Trivia

variable {position : Position} {c : Char} {part rest other body : List Char} {kind : TokenKind} {length : Nat}

theorem two_le_commentLength (closed : commentLength body = some length) : 2 ≤ length := by
  induction body using commentLength.induct generalizing length with
  | case1 => cases closed
  | case2 => cases closed; exact le_rfl
  | case3 c rest other ih =>
    rw [commentLength] at closed
    · obtain ⟨count, found, rfl⟩ := Option.map_eq_some_iff.mp closed
      exact (ih found).trans (Nat.le_succ count)
    · exact other

theorem commentLength_cons (opens : ¬ (c = '*' ∧ rest.head? = some '/')) :
    commentLength (c :: rest) = (commentLength rest).map (· + 1) := by
  rw [commentLength]
  rintro more rfl rfl
  exact opens ⟨rfl, rfl⟩

/-- A comment that is closed is the same whatever follows. -/
theorem commentLength_kept (closed : commentLength (body ++ rest) = some body.length) (other : List Char) :
    commentLength (body ++ other) = some body.length := by
  induction body with
  | nil => exact absurd (two_le_commentLength closed) (by decide)
  | cons c body ih =>
    have long := two_le_commentLength closed
    obtain ⟨d, body, rfl⟩ := List.exists_cons_of_length_pos (Nat.le_of_succ_le_succ long)
    by_cases mark : c = '*' ∧ d = '/'
    · obtain ⟨rfl, rfl⟩ := mark
      exact closed
    · have apart (text : List Char) : ¬ (c = '*' ∧ (d :: body ++ text).head? = some '/') := by simpa using mark
      rw [List.cons_append, commentLength_cons (apart _)] at closed ⊢
      obtain ⟨count, found, same⟩ := Option.map_eq_some_iff.mp closed
      rw [ih (found.trans (congrArg some (Nat.succ_injective same)))]
      rfl

/-- What a closed comment ends with. -/
theorem getLast?_of_commentLength (closed : commentLength (body ++ rest) = some body.length) :
    body.getLast? = some '/' := by
  induction body with
  | nil => exact absurd (two_le_commentLength closed) (by decide)
  | cons c body ih =>
    have long := two_le_commentLength closed
    obtain ⟨d, body, rfl⟩ := List.exists_cons_of_length_pos (Nat.le_of_succ_le_succ long)
    rw [List.getLast?_cons_cons]
    by_cases mark : c = '*' ∧ d = '/'
    · obtain ⟨rfl, rfl⟩ := mark
      have short : 2 = body.length + 2 := Option.some.inj closed
      rw [List.eq_nil_of_length_eq_zero (Nat.add_right_cancel short.symm)]
      rfl
    · rw [List.cons_append, commentLength_cons (by simpa using mark)] at closed
      obtain ⟨count, found, same⟩ := Option.map_eq_some_iff.mp closed
      exact ih (found.trans (congrArg some (Nat.succ_injective same)))

/-- A run ends where a part of the text ends, if the part satisfies the condition and what is next does not. -/
theorem run_eq_length_iff {p : Char → Bool} {d : Char} :
    run p (part ++ d :: rest) = part.length ↔ (∀ b ∈ part, p b = true) ∧ p d = false := by
  induction part with
  | nil => simp [run_cons]
  | cons b part ih =>
    rw [List.cons_append, run_cons, List.forall_mem_cons, List.length_cons]
    cases p b <;> simp [ih]

theorem punctuation_visible (c : Char) (rest : List Char) : (punctuation c rest).1.isTrivia = false := by
  unfold punctuation
  dsimp only
  split <;> (try split) <;> rfl

theorem wordToken_visible (text : List Char) : (wordToken text).1.isTrivia = false := by
  unfold wordToken
  dsimp only
  split <;> rfl

theorem measure_slash (position : Position) (d : Char) (body : List Char) : measure position '/' (d :: body) =
    if d = '*' then
      (commentLength body).elim (.error (.unterminatedComment position)) fun length => .ok (.comment, length + 1)
    else if d = '/' then .ok (.comment, run (· ≠ '\n') body + 1)
    else .ok (punctuation '/' (d :: body)) := by
  by_cases loud : d = '*'
  · subst loud
    have both : (decide ('/' = '/') && headIs (· = '*') ('*' :: body)) = true := rfl
    rw [if_pos rfl, measure, if_neg (by decide), if_pos both, List.tail_cons]
    cases commentLength body <;> rfl
  by_cases silent : d = '/'
  · subst silent
    have counted : run (· ≠ '\n') ('/' :: body) = run (· ≠ '\n') body + 1 := by rw [run_cons, if_pos (by decide)]
    rw [if_neg loud, if_pos rfl, ← counted]
    rfl
  · rw [if_neg loud, if_neg silent, measure, if_neg (by decide), if_neg (by simp [headIs, loud]),
      if_neg (by simp [headIs, silent])]
    rfl

theorem exists_cons_of_headIs {p : Char → Bool} (found : headIs p rest = true) :
    ∃ d body, rest = d :: body ∧ p d = true := by
  cases rest with
  | nil => cases found
  | cons d body => exact ⟨d, body, rfl, found⟩

/-- What is no word and no sign is read by the rule for it: blanks up to what follows, and a comment, which is
closed or goes to the end of its line. -/
theorem trivia_cases (trivia : kind.isTrivia = true) (measured : measure position c rest = .ok (kind, length)) :
    kind = .whitespace ∧ isBlank c = true ∧ length = run isBlank rest ∨
      kind = .comment ∧ c = '/' ∧
        ((∃ body count, rest = '*' :: body ∧ commentLength body = some count ∧ length = count + 1) ∨
          ∃ body, rest = '/' :: body ∧ length = run (· ≠ '\n') body + 1) := by
  cases rule_of_measure measured with
  | whitespace blank => exact .inl ⟨rfl, blank, rfl⟩
  | comment slash star closed =>
    obtain ⟨d, body, rfl, same⟩ := exists_cons_of_headIs star
    obtain rfl := of_decide_eq_true same
    exact .inr ⟨rfl, slash, .inl ⟨body, _, rfl, closed, rfl⟩⟩
  | silent slash second =>
    obtain ⟨d, body, rfl, same⟩ := exists_cons_of_headIs second
    obtain rfl := of_decide_eq_true same
    refine .inr ⟨rfl, slash, .inr ⟨body, rfl, ?_⟩⟩
    rw [run_cons, if_pos (by decide)]
  | word word =>
    have visible := wordToken_visible (c :: rest)
    rw [word] at visible
    exact absurd trivia (Bool.eq_false_iff.mp visible)
  | punctuation sign =>
    have visible := punctuation_visible c rest
    rw [sign] at visible
    exact absurd trivia (Bool.eq_false_iff.mp visible)
  | _ => cases trivia

/-- Blanks and comments in front of a character are the same whatever is behind it. -/
theorem measure_trivia_kept (trivia : kind.isTrivia = true) (head : rest.head? = other.head?)
    (measured : measure position c (part ++ rest) = .ok (kind, part.length)) :
    measure position c (part ++ other) = .ok (kind, part.length) := by
  have heads (p : Char → Bool) : headIs p rest = headIs p other := by
    cases rest <;> cases other <;> cases head <;> rfl
  rcases trivia_cases trivia measured with ⟨rfl, blank, whole⟩ | ⟨rfl, rfl, cases⟩
  · rw [measure_blank position blank, run_kept (heads _) whole.ge, ← whole]
  · rcases cases with ⟨body, count, whole, closed, same⟩ | ⟨body, whole, same⟩
    all_goals
      obtain ⟨d, part, rfl⟩ := List.exists_cons_of_length_pos (same.ge.trans' (Nat.succ_pos _))
      obtain ⟨rfl, rfl⟩ := List.cons_eq_cons.mp whole
    · obtain rfl : part.length = count := Nat.succ_injective same
      rw [List.cons_append, measure_slash, if_pos rfl, commentLength_kept closed]
      rfl
    · have kept := run_kept (heads _) (Nat.succ_injective same).ge
      rw [List.cons_append, measure_slash, if_neg (by decide), if_pos rfl, kept]
      exact congrArg (fun count => (.ok (.comment, count) : Except LexicalFault (TokenKind × Nat))) same.symm

end Trivia

def signOf : TokenKind → Option Char
  | .plus => some '+'
  | .minus => some '-'
  | .semicolon => some ';'
  | .leftBrace => some '\x7b'
  | .rightBrace => some '\x7d'
  | _ => none

theorem signOf_eq {position : Position} {c d : Char} {rest : List Char} {kind : TokenKind} {length : Nat}
    (measured : measure position c rest = .ok (kind, length)) (sign : signOf kind = some d) : c = d ∧ length = 0 := by
  cases rule_of_measure measured with
  | word word =>
    have plain : signOf (wordToken (c :: rest)).1 = none := by
      unfold wordToken
      dsimp only
      split <;> rfl
    rw [word, sign] at plain
    cases plain
  | punctuation found =>
    unfold punctuation at found
    dsimp only at found
    split at found <;> (try split at found) <;> cases found <;> cases sign <;> exact ⟨rfl, rfl⟩
  | _ => cases sign

/-- Texts of which what stands in front of them sees the same. -/
structure Quiet (first second : List Char) : Prop where
  sees : look first = look second
  url : opensUrl ('(' :: first) = opensUrl ('(' :: second)
  brace : first.head? = some '\x7b' ↔ second.head? = some '\x7b'
  last : first = [] → second = []

section Exchange

variable {first second text : List Char} {row tokens others : List Token}

theorem Quiet.behind (quiet : Quiet first second) (text : List Char) : Quiet (text ++ first) (text ++ second) := by
  cases text with
  | nil => exact quiet
  | cons c text =>
    exact ⟨look_append (List.cons_ne_nil c text) quiet.url quiet.sees fun _ => quiet.brace,
      opensUrl_congr quiet.url _, by rfl, by simp⟩

theorem measure_exchange {position : Position} {c : Char} {kind : TokenKind} {part : List Char}
    (quiet : Quiet first second) (shown : kind.isTrivia = true → text ≠ [])
    (measured : measure position c (part ++ (text ++ first)) = .ok (kind, part.length)) :
    measure position c (part ++ (text ++ second)) = .ok (kind, part.length) := by
  have ahead := quiet.behind text
  cases trivia : kind.isTrivia with
  | true =>
    obtain ⟨d, text, rfl⟩ := List.exists_cons_of_ne_nil (shown trivia)
    have head : (d :: text ++ first).head? = (d :: text ++ second).head? := rfl
    exact measure_trivia_kept trivia head measured
  | false =>
    have visible : isBlank c = false := by
      refine Bool.eq_false_iff.mpr fun blank => ?_
      rw [measure_blank position blank] at measured
      obtain ⟨rfl, -⟩ := Prod.mk.inj (Except.ok.inj measured)
      cases trivia
    have plain : kind ≠ .comment := by
      rintro rfl
      cases trivia
    exact measure_kept ahead.sees ahead.last visible plain (fun _ _ => ahead.brace) measured

/-- A token that others follow is not the end, and has a text. -/
theorem Tiling.proper {position : Position} {token : Token} (tiling : Tiling position text (token :: row))
    (more : row ≠ []) : token.kind ≠ .endOfInput ∧ token.text.toList ≠ [] := by
  obtain ⟨front, last, whole, -, -, proper⟩ := tiling.last_eq
  cases front with
  | nil => exact absurd (List.cons_eq_cons.mp whole).2 more
  | cons first front =>
    obtain ⟨rfl, -⟩ := List.cons_eq_cons.mp whole
    have here := proper token List.mem_cons_self
    exact ⟨here.1, fun none => here.2 (String.toList_injective none)⟩

theorem spelled_cons (token : Token) (row : List Token) :
    spelled (token :: row) = token.text.toList ++ spelled row := rfl

/-- Where a token ends that is neither blank nor comment, another text may follow, and all tokens in front of it
are the same. -/
theorem tokensAt_exchange {position : Position} (quiet : Quiet first second)
    (lexed : tokensAt position (text ++ first) = .ok (row ++ tokens)) (some : tokens ≠ [])
    (whole : spelled row = text) (shown : ∀ token ∈ row.getLast?, token.isTrivia = false) :
    tokensAt position (text ++ second) = (tokensAt (position.after text) second).map (row ++ ·) := by
  induction row generalizing position text with
  | nil =>
    subst whole
    exact (Except.map_id.symm ▸ rfl)
  | cons token row ih =>
    have tiling := tiling_of_tokensAt lexed
    have cut : token :: row ++ tokens = [] ++ token :: (row ++ tokens) := rfl
    have proper := (tiling.proper (List.append_ne_nil_of_right_ne_nil row some)).1
    have here : token.position = position := tiling.position_eq cut
    obtain ⟨c, rest, length, start, written, measured, later⟩ := token_measured lexed cut proper
    obtain ⟨part, tail, rfl, rfl⟩ : ∃ part tail, rest = part ++ tail ∧ part.length = length :=
      ⟨rest.take length, rest.drop length, (List.take_append_drop ..).symm,
        List.length_take_of_le (measure_le measured)⟩
    rw [List.take_left] at written
    rw [List.drop_left, written, here] at later
    rw [spelled_cons, written] at whole
    subst whole
    obtain rfl : tail = spelled row ++ first := by
      have same : c :: (part ++ (spelled row ++ first)) = c :: (part ++ tail) := by simpa [spelled] using start
      exact (List.append_cancel_left (List.cons_eq_cons.mp same).2).symm
    rw [here] at measured
    have last : ∀ token ∈ row.getLast?, token.isTrivia = false := fun other final => by
      refine shown other ?_
      rw [List.getLast?_cons, Option.mem_def.mp final]
      rfl
    have follows : token.isTrivia = true → spelled row ≠ [] := by
      intro trivia
      cases row with
      | nil => exact absurd (shown token rfl) (by simp [trivia])
      | cons next row =>
        rw [spelled_cons]
        exact List.append_ne_nil_of_left_ne_nil
          ((tiling_of_tokensAt later).proper (List.append_ne_nil_of_right_ne_nil row some)).2 _
    have kept := measure_exchange quiet follows measured
    have own : (⟨token.kind, String.ofList (c :: part), position⟩ : Token) = token := by
      rw [← written, String.ofList_toList, ← here]
    have behind := ih later rfl last
    rw [← Position.after_append] at behind
    rw [List.append_assoc, List.cons_append, tokensAt_cons, kept]
    simp only [bind, Except.bind, List.take_left, List.drop_left, behind, own]
    cases tokensAt (position.after (c :: part ++ spelled row)) second <;> rfl

/-- A text that is cut into these tokens, whether a semicolon or the end of a line follows. -/
structure CutInto (text : List Char) (row : List Token) : Prop where
  spelled : spelled row = text
  before : ∀ next ∈ [';', '\n'], ∃ tokens, tokensAt .start (text ++ [next]) = .ok (row ++ tokens)

namespace CutInto

variable {token : Token}

/-- What follows makes tokens of its own, the end of input at least. -/
theorem exists_tokens (cut : CutInto text row) {next : Char} (among : next ∈ [';', '\n']) :
    ∃ tokens, tokensAt .start (text ++ [next]) = .ok (row ++ tokens) ∧ tokens ≠ [] := by
  obtain ⟨tokens, lexed⟩ := cut.before next among
  refine ⟨tokens, lexed, ?_⟩
  rintro rfl
  have short := (tiling_of_tokensAt lexed).spelled_eq
  rw [List.append_nil, cut.spelled] at short
  simp at short

/-- The last token is read where the text ends. -/
theorem exists_last (cut : CutInto text (row ++ [token])) : token.kind ≠ .endOfInput ∧
    ∃ c part, token.text.toList = c :: part ∧ text = Lexer.spelled row ++ c :: part ∧
      measure token.position c (part ++ [';']) = .ok (token.kind, part.length) := by
  obtain ⟨tokens, lexed, more⟩ := cut.exists_tokens (List.mem_cons_self : ';' ∈ [';', '\n'])
  have whole : text = Lexer.spelled row ++ token.text.toList := by
    rw [← cut.spelled, Lexer.spelled, List.flatMap_append, List.flatMap_singleton, Lexer.spelled]
  have place : row ++ [token] ++ tokens = row ++ token :: tokens := List.append_cons row token tokens |>.symm
  have proper : token.kind ≠ .endOfInput := by
    obtain ⟨others, last, same, -, -, proper⟩ := (tiling_of_tokensAt lexed).last_eq
    obtain ⟨tokens, final, rfl⟩ := (List.eq_nil_or_concat' tokens).resolve_left more
    rw [← List.append_assoc] at same
    obtain ⟨rfl, -⟩ := List.append_inj' same rfl
    exact (proper token (by simp)).1
  obtain ⟨c, rest, length, start, written, measured, -⟩ := token_measured lexed place proper
  refine ⟨proper, c, rest.take length, written, written ▸ whole, ?_⟩
  have short := measure_le measured
  have behind : rest = rest.take length ++ [';'] := by
    rw [whole, List.append_assoc, List.append_cancel_left_eq, written] at start
    exact (List.cons_eq_cons.mp start).2.symm
  rw [← behind, List.length_take_of_le short]
  exact measured

/-- Where the text ends with something visible that ends no comment, the last token is neither blank nor comment. -/
theorem shown (cut : CutInto text row) (last : ∀ c ∈ text.getLast?, isBlank c = false ∧ c ≠ '/') :
    ∀ token ∈ row.getLast?, token.isTrivia = false := by
  intro token member
  obtain ⟨row, rfl⟩ := List.getLast?_eq_some_iff.mp member
  obtain ⟨-, c, part, -, rfl, measured⟩ := cut.exists_last
  refine Bool.eq_false_iff.mpr fun trivia => ?_
  have ends {part : List Char} (d : Char) (behind : (c :: part).getLast? = some d) :
      (Lexer.spelled row ++ c :: part).getLast? = some d := by
    rw [List.getLast?_append_of_ne_nil _ (List.cons_ne_nil c part), behind]
  rcases trivia_cases trivia measured with ⟨-, blank, whole⟩ | ⟨-, rfl, ⟨body, count, start, closed, whole⟩ |
    ⟨body, start, whole⟩⟩
  · obtain ⟨inside, -⟩ := run_eq_length_iff.mp whole.symm
    obtain ⟨front, d, same⟩ := (List.eq_nil_or_concat' (c :: part)).resolve_left (List.cons_ne_nil c part)
    have among : d ∈ c :: part := by simp [same]
    have visible := (last d (ends d (by simp [same]))).1
    rw [(List.forall_mem_cons.mpr ⟨blank, inside⟩ : ∀ b ∈ c :: part, isBlank b = true) d among] at visible
    cases visible
  · obtain ⟨d, part, rfl⟩ := List.exists_cons_of_length_pos (whole.ge.trans' (Nat.succ_pos _))
    obtain ⟨rfl, rfl⟩ := List.cons_eq_cons.mp start
    obtain rfl : part.length = count := Nat.succ_injective whole
    have slash := getLast?_of_commentLength closed
    refine (last '/' (ends '/' ?_)).2 rfl
    rw [List.getLast?_cons_cons, List.getLast?_cons, slash]
    rfl
  · obtain ⟨d, part, rfl⟩ := List.exists_cons_of_length_pos (whole.ge.trans' (Nat.succ_pos _))
    obtain ⟨rfl, rfl⟩ := List.cons_eq_cons.mp start
    obtain ⟨-, stops⟩ := run_eq_length_iff.mp (Nat.succ_injective whole).symm
    exact absurd stops (by decide)

/-- A sign is the last character of the text. -/
theorem getLast?_of_sign (cut : CutInto text row) {token : Token} (last : token ∈ row.getLast?) {d : Char}
    (sign : signOf token.kind = some d) : text.getLast? = some d := by
  obtain ⟨row, rfl⟩ := List.getLast?_eq_some_iff.mp last
  obtain ⟨-, c, part, -, rfl, measured⟩ := cut.exists_last
  obtain ⟨rfl, none⟩ := signOf_eq measured sign
  rw [List.eq_nil_of_length_eq_zero none, List.getLast?_concat]

/-- Behind the end of a statement or a block nothing is looked for. -/
theorem not_looksAhead (cut : CutInto text row) (ended : text.getLast? ∈ [some ';', some '\x7b', some '\x7d']) :
    ∀ token ∈ row.getLast?, token.looksAhead = false := by
  intro token last
  have sign (d : Char) (other : some d ∉ [some ';', some '\x7b', some '\x7d']) : signOf token.kind ≠ some d :=
    fun sign => other (cut.getLast?_of_sign last sign ▸ ended)
  have plus : token.kind ≠ .plus := fun kind => sign '+' (by decide) (congrArg signOf kind)
  have minus : token.kind ≠ .minus := fun kind => sign '-' (by decide) (congrArg signOf kind)
  have word : token.isWord "not" = false := by
    refine Bool.eq_false_iff.mpr fun word => ?_
    obtain ⟨row, rfl⟩ := List.getLast?_eq_some_iff.mp last
    obtain ⟨-, c, part, written, rfl, -⟩ := cut.exists_last
    simp only [Token.isWord, Bool.and_eq_true, Text.same, beq_iff_eq] at word
    have letters : (c :: part).map Char.toLower = ['n', 'o', 't'] := by
      rw [← written]
      exact String.ofList_injective word.2
    have final : (c :: part).getLast?.map Char.toLower = some 't' := by rw [← List.getLast?_map, letters]; rfl
    rw [List.getLast?_append_of_ne_nil _ (List.cons_ne_nil c part)] at ended
    simp only [List.mem_cons, List.not_mem_nil, or_false] at ended
    rcases ended with ended | ended | ended <;> rw [ended] at final <;> exact absurd final (by decide)
  simp [Token.looksAhead, plus, minus, word]

/-- A text that ends no statement and no block ends with no token that does. -/
theorem unended (cut : CutInto text row) (unended : text.getLast? ∉ [some ';', some '\x7b', some '\x7d']) :
    ∀ token ∈ row.getLast?, token.kind.ends = false ∧ token.kind ≠ .leftBrace := by
  intro token last
  have sign (d : Char) (among : some d ∈ [some ';', some '\x7b', some '\x7d']) : signOf token.kind ≠ some d :=
    fun sign => unended (cut.getLast?_of_sign last sign ▸ among)
  have proper : token.kind ≠ .endOfInput := by
    obtain ⟨row, rfl⟩ := List.getLast?_eq_some_iff.mp last
    exact cut.exists_last.1
  have semicolon := sign ';' (by simp)
  have opening := sign '\x7b' (by simp)
  have closing := sign '\x7d' (by simp)
  constructor
  · unfold TokenKind.ends
    split <;> simp_all [signOf]
  · intro brace
    exact opening (congrArg signOf brace)

/-- Then the tokens are the same whatever follows, if it starts like the end of a statement or of a line. -/
theorem tokensAt_eq (cut : CutInto text row)
    (shown : ∀ token ∈ row.getLast?, token.isTrivia = false)
    (starts : ∀ c ∈ second.head?, isStill c = true ∧ c ≠ '\x7b') :
    tokensAt .start (text ++ second) = (tokensAt (Position.start.after text) second).map (row ++ ·) := by
  have unseen : look second = [] := by
    cases second with
    | nil => rfl
    | cons c second => exact look_of_still (starts c rfl).1 second
  have exchange (next : Char) (among : next ∈ [';', '\n'])
      (url : opensUrl ('(' :: [next]) = opensUrl ('(' :: second)) :
      tokensAt .start (text ++ second) = (tokensAt (Position.start.after text) second).map (row ++ ·) := by
    obtain ⟨tokens, lexed, more⟩ := cut.exists_tokens among
    have plain : isStill next = true ∧ next ≠ '\x7b' := by
      simp only [List.mem_cons, List.not_mem_nil, or_false] at among
      rcases among with rfl | rfl <;> decide
    obtain ⟨still, brace⟩ := plain
    have sees := look_of_still still []
    refine tokensAt_exchange ⟨sees.trans unseen.symm, url, ?_, by simp⟩ lexed more cut.spelled shown
    exact iff_of_false (by simpa using brace) fun brace => (starts _ brace).2 rfl
  -- What follows may open an address, as a semicolon does, or not, as the end of a line.
  cases opens : opensUrl ('(' :: second) with
  | true => exact exchange ';' (by simp) opens.symm
  | false => exact exchange '\n' (by simp) opens.symm

end CutInto

end Exchange

section Texts

variable {position : Position} {c : Char} {gap note tail : List Char}

theorem tokensAt_blanks (some : gap ≠ []) (blank : ∀ b ∈ gap, isBlank b = true)
    (stops : headIs isBlank tail = false) : tokensAt position (gap ++ tail) =
      (tokensAt (position.after gap) tail).map (⟨.whitespace, String.ofList gap, position⟩ :: ·) := by
  obtain ⟨b, gap, rfl⟩ := List.exists_cons_of_ne_nil some
  obtain ⟨first, others⟩ := List.forall_mem_cons.mp blank
  have counted : run isBlank (gap ++ tail) = gap.length := by
    rw [run, List.takeWhile_append_of_pos others, List.length_append, ← run, run_eq_zero_iff.mpr stops, Nat.add_zero]
  rw [List.cons_append, tokensAt_cons, measure_blank position first, counted]
  simp only [bind, Except.bind, List.take_left, List.drop_left]
  cases tokensAt (position.after (b :: gap)) tail <;> rfl

/-- Blanks of ASCII are as good as the end of the text. -/
theorem isStill_of_isBlank (blank : isBlank c = true) (ascii : c.toNat < 128) : isStill c = true := by
  have all : ∀ code < 128, isBlank (Char.ofNat code) = true → isStill (Char.ofNat code) = true := by decide
  have own := all c.toNat ascii
  rw [Char.ofNat_toNat] at own
  exact own blank

def silent (gap note : List Char) : List Char := gap ++ '/' :: '/' :: note

/-- Blanks and a note that make a silent comment behind a statement, in its line. -/
structure Remark (gap note : List Char) : Prop where
  some : gap ≠ []
  blank : ∀ b ∈ gap, isBlank b = true
  ascii : ∀ b ∈ gap, b.toNat < 128
  before : '\n' ∉ gap
  single : '\n' ∉ note

theorem Remark.newline_not_mem (remark : Remark gap note) : '\n' ∉ silent gap note := by
  simp only [silent, List.mem_append, List.mem_cons, not_or]
  exact ⟨remark.before, by decide, by decide, remark.single⟩

/-- A text that starts with a blank of ASCII, or is empty, ends what is in front of it. -/
theorem still_of_blank (blank : ∀ b ∈ tail.head?, isBlank b = true ∧ b.toNat < 128) :
    ∀ c ∈ tail.head?, isStill c = true ∧ c ≠ '\x7b' := by
  intro c first
  obtain ⟨shows, ascii⟩ := blank c first
  refine ⟨isStill_of_isBlank shows ascii, ?_⟩
  rintro rfl
  cases shows

theorem Remark.head_silent (remark : Remark gap note) (rest : List Char) :
    ∀ c ∈ (silent gap note ++ rest).head?, isStill c = true ∧ c ≠ '\x7b' := by
  obtain ⟨b, gap, rfl⟩ := List.exists_cons_of_ne_nil remark.some
  refine still_of_blank fun c first => ?_
  obtain rfl : b = c := Option.some.inj first
  exact ⟨remark.blank b List.mem_cons_self, remark.ascii b List.mem_cons_self⟩

/-- Up to the end of the line the comment takes all. -/
theorem Remark.tokensAt_eq (remark : Remark gap note) (stops : ∀ c ∈ tail.head?, c = '\n') :
    tokensAt position (silent gap note ++ tail) =
      (tokensAt (position.after (silent gap note)) tail).map fun tokens =>
        ⟨.whitespace, String.ofList gap, position⟩ ::
          ⟨.comment, String.ofList ('/' :: '/' :: note), position.after gap⟩ :: tokens := by
  have counted : run (· ≠ '\n') (note ++ tail) = note.length := by
    have none : run (· ≠ '\n') tail = 0 := by
      rw [run_eq_zero_iff]
      cases tail with
      | nil => rfl
      | cons c tail => rw [stops c rfl]; rfl
    rw [run, List.takeWhile_append_of_pos, List.length_append, ← run, none, Nat.add_zero]
    intro c member
    exact decide_eq_true fun same => remark.single (same ▸ member)
  rw [silent, List.append_assoc, tokensAt_blanks remark.some remark.blank rfl, List.cons_append, List.cons_append,
    tokensAt_cons, measure_slash, if_neg (by decide), if_pos rfl, counted]
  simp only [bind, Except.bind, List.take_succ_cons, List.drop_succ_cons, List.take_left, List.drop_left]
  rw [← Position.after_append]
  cases tokensAt (position.after (gap ++ '/' :: '/' :: note)) tail <;> rfl

theorem tokensAt_semicolon (position : Position) (tail : List Char) : tokensAt position (';' :: tail) =
    (tokensAt (position.next ';') tail).map (⟨.semicolon, ";", position⟩ :: ·) := by
  have measured : measure position ';' tail = .ok (.semicolon, 0) := rfl
  rw [tokensAt_cons, measured]
  simp only [bind, Except.bind, List.take_zero, List.drop_zero]
  rw [Position.after_cons, Position.after_nil]
  cases tokensAt (position.next ';') tail <;> rfl

/-- Behind a line feed it does not matter in which column it stands. -/
theorem after_newline {other : Position} (same : position.line = other.line) (text : List Char) :
    position.after ('\n' :: text) = other.after ('\n' :: text) := by
  have next : position.next '\n' = other.next '\n' := by rw [Position.next, Position.next, if_pos rfl, if_pos rfl, same]
  rw [Position.after_cons, Position.after_cons, next]

theorem line_after (single : '\n' ∉ note) : (position.after note).line = position.line := by
  induction note generalizing position with
  | nil => rfl
  | cons c note ih =>
    obtain ⟨other, others⟩ := not_or.mp (mt List.mem_cons.mpr single)
    rw [Position.after_cons, ih others, Position.next, if_neg (Ne.symm other)]

end Texts

/-- What ends a line, with blanks around it, in two texts that end the same line: nothing but blanks, or a line
feed and the same behind it. -/
inductive LineEnd : List Char → List Char → List Char → Prop where
  | none {lead : List Char} (blank : ∀ b ∈ lead, isBlank b = true) (single : '\n' ∉ lead) : LineEnd lead [] []
  | newline {lead blanks tail : List Char} (blank : ∀ b ∈ lead ++ blanks, isBlank b = true) (single : '\n' ∉ lead)
      (stops : headIs isBlank tail = false) : LineEnd (lead ++ '\n' :: blanks) ('\n' :: blanks) tail

/-- With a blank before it, it is the end of a line as well. -/
theorem LineEnd.space {gap twin tail : List Char} (ends : LineEnd gap twin tail) : LineEnd (' ' :: gap) twin tail := by
  have more {blanks : List Char} (blank : ∀ b ∈ blanks, isBlank b = true) : ∀ b ∈ ' ' :: blanks, isBlank b = true :=
    List.forall_mem_cons.mpr ⟨rfl, blank⟩
  cases ends with
  | none blank single => exact .none (more blank) (by simp [single])
  | newline blank single stops =>
    rw [← List.cons_append]
    exact .newline (more blank) (by simp [single]) stops

theorem LineEnd.tail_eq {gap twin tail : List Char} (ends : LineEnd gap twin tail) (empty : gap = []) : tail = [] := by
  cases ends with
  | none => rfl
  | newline => simp at empty

theorem LineEnd.head_blank {gap twin tail : List Char} (ends : LineEnd gap twin tail)
    (ascii : ∀ b ∈ gap.head?, b.toNat < 128) :
    ∀ b ∈ (gap ++ tail).head?, isBlank b = true ∧ b.toNat < 128 := by
  intro b member
  by_cases empty : gap = []
  · rw [empty, ends.tail_eq empty] at member
    cases member
  rw [List.head?_append_of_ne_nil _ empty] at member
  refine ⟨?_, ascii b member⟩
  have inside := List.mem_of_mem_head? member
  cases ends with
  | none blank => exact blank b inside
  | newline blank =>
    rcases List.mem_append.mp inside with inside | inside
    · exact blank b (List.mem_append_left _ inside)
    · rcases List.mem_cons.mp inside with rfl | inside
      · rfl
      · exact blank b (List.mem_append_right _ inside)

/-- Two places in one line from which the tokens of a text are the same. -/
def Joined (tail : List Char) (here there : Position) : Prop := here.line = there.line ∧ (tail = [] ∨ here = there)

section LineEnd

variable {here there : Position} {gap twin tail space note : List Char} {tokens : List Token}

/-- The end of a line is made of blanks, and the tokens behind it are the same. -/
theorem LineEnd.exists_gaps (ends : LineEnd gap twin tail) (same : here.line = there.line) :
    ∃ (from_ fromTwin : Position) (idle more : List Token), Joined tail from_ fromTwin ∧
      (∀ token ∈ idle, token.isIdle = true) ∧ (∀ token ∈ more, token.isIdle = true) ∧
      (gap ≠ [] → idle.head?.map Token.kind = some .whitespace) ∧
      tokensAt here (gap ++ tail) = (tokensAt from_ tail).map (idle ++ ·) ∧
      tokensAt there (twin ++ tail) = (tokensAt fromTwin tail).map (more ++ ·) := by
  cases ends with
  | none blank single =>
    by_cases empty : gap = []
    · subst empty
      exact ⟨here, there, [], [], ⟨same, .inl rfl⟩, by simp, by simp, by simp, Except.map_id.symm ▸ rfl,
        Except.map_id.symm ▸ rfl⟩
    · exact ⟨here.after gap, there, [⟨.whitespace, String.ofList gap, here⟩], [],
        ⟨(line_after single).trans same, .inl rfl⟩, List.forall_mem_singleton.mpr rfl, by simp, fun _ => rfl,
        tokensAt_blanks empty blank rfl, Except.map_id.symm ▸ rfl⟩
  | @newline lead blanks _ blank single stops =>
    have met : here.after (lead ++ '\n' :: blanks) = there.after ('\n' :: blanks) := by
      rw [Position.after_append]
      exact after_newline ((line_after single).trans same) blanks
    obtain ⟨before, behind⟩ := List.forall_mem_append.mp blank
    have feed : ∀ b ∈ '\n' :: blanks, isBlank b = true := List.forall_mem_cons.mpr ⟨rfl, behind⟩
    refine ⟨there.after ('\n' :: blanks), _, [⟨.whitespace, String.ofList (lead ++ '\n' :: blanks), here⟩],
      [⟨.whitespace, String.ofList ('\n' :: blanks), there⟩], ⟨rfl, .inr rfl⟩, List.forall_mem_singleton.mpr rfl,
      List.forall_mem_singleton.mpr rfl, fun _ => rfl, ?_, tokensAt_blanks (List.cons_ne_nil _ _) feed stops⟩
    rw [tokensAt_blanks (by simp) (List.forall_mem_append.mpr ⟨before, feed⟩) stops, met]
    rfl

/-- A silent comment at the end of a line is idle, too. -/
theorem LineEnd.exists_remark (ends : LineEnd gap twin tail) (remark : Remark space note)
    (line : here.line = there.line) :
    ∃ (from_ fromTwin : Position) (idle more : List Token), Joined tail from_ fromTwin ∧
      (∀ token ∈ idle, token.isIdle = true) ∧ (∀ token ∈ more, token.isIdle = true) ∧
      (gap ≠ [] → idle.head?.map Token.kind = some .whitespace) ∧
      more.head?.map Token.kind = some .whitespace ∧
      tokensAt here (gap ++ tail) = (tokensAt from_ tail).map (idle ++ ·) ∧
      tokensAt there (silent space note ++ (twin ++ tail)) = (tokensAt fromTwin tail).map (more ++ ·) := by
  have same : here.line = (there.after (silent space note)).line :=
    line.trans (line_after remark.newline_not_mem).symm
  obtain ⟨from_, fromTwin, idle, more, joined, own, also, starts, first, second⟩ := ends.exists_gaps same
  have stops : ∀ c ∈ (twin ++ tail).head?, c = '\n' := by
    cases ends with
    | none => simp
    | newline => simp
  refine ⟨from_, fromTwin, idle, ⟨.whitespace, String.ofList space, there⟩ ::
    ⟨.comment, String.ofList ('/' :: '/' :: note), there.after space⟩ :: more, joined, own, ?_, starts, rfl, first,
    ?_⟩
  · refine List.forall_mem_cons.mpr ⟨rfl, List.forall_mem_cons.mpr ⟨?_, also⟩⟩
    simp [Token.isIdle, Token.isSilent, Text.startsWith]
  · rw [remark.tokensAt_eq stops, second]
    cases tokensAt fromTwin tail <;> rfl

end LineEnd

end Lexer

section Complete

variable {row rest idle more : List Token} {mark : Token}

/-- A row in which a statement may end without a semicolon. Nothing is open behind it, and its last token asks
for nothing that stands behind it. -/
structure Complete (row : List Token) : Prop where
  closed : (row.map Token.kind).foldl Grammar.openBehind [] = []
  last : ∀ token ∈ row.getLast?, token.looksAhead = false ∧ token.kind ≠ .colon ∧
    (token.kind = .atKeyword → Text.lower token.name = "content")

/-- No text for names is open where no statement passes on another module's names. -/
theorem unprefixed_of_none (none : ∀ token ∈ row, token.kind = .atKeyword → Text.lower token.name ≠ "forward") :
    ¬ PrefixOpen row := by
  rintro ⟨before, keyword, gap, rest, rfl, kind, name, -, -⟩
  exact none keyword (by simp) kind name

theorem lastVisible?_of_shown (shown : ∀ token ∈ row.getLast?, token.isTrivia = false) :
    lastVisible? row = row.getLast? := by
  rcases List.eq_nil_or_concat' row with rfl | ⟨row, last, rfl⟩
  · rfl
  · rw [lastVisible?, List.filter_append, List.filter_singleton, shown last (by simp)]
    simp

/-- There the semicolon may be lacking, if the block ends. -/
theorem Complete.seam (complete : Complete row) (unprefixed : ¬ PrefixOpen row)
    (shown : ∀ token ∈ row.getLast?, token.isTrivia = false)
    (unended : ∀ token ∈ row.getLast?, token.kind.ends = false ∧ token.kind ≠ .leftBrace)
    (semicolon : mark.kind = .semicolon) (gap : ∀ token ∈ idle, token.isIdle = true)
    (also : ∀ token ∈ more, token.isIdle = true) (shut : Shut rest) :
    Seam [] row (mark :: (idle ++ rest)) (more ++ rest) where
  parted := .lacking semicolon gap also shut
  closed := .inr complete.closed
  unprefixed := .inr unprefixed
  sight token member looks := by
    rw [(complete.last token member).1] at looks
    cases looks
  lines token member asks := by
    rw [lastVisible?_of_shown shown] at member
    obtain ⟨-, colon, content⟩ := complete.last token member
    rcases asks with asks | ⟨keyword, other⟩
    · exact absurd asks colon
    · exact absurd (content keyword) other
  kinds token member asks := by
    rw [lastVisible?_of_shown shown] at member
    obtain ⟨ends, brace⟩ := unended token member
    rcases asks with asks | asks
    · exact absurd asks brace
    · rw [ends] at asks
      cases asks

/-- Blanks may differ everywhere, if a token that looks ahead has some behind it on both sides. -/
theorem seam_of_idle (unprefixed : ¬ PrefixOpen row) (own : ∀ token ∈ idle, token.isIdle = true)
    (also : ∀ token ∈ more, token.isIdle = true) (starts : more.head?.map Token.kind = some .whitespace)
    (sight : idle.head?.map Token.kind = some .whitespace ∨
      rest = [] ∧ ∀ token ∈ row.getLast?, token.looksAhead = false) :
    Seam [] row (idle ++ rest) (more ++ rest) := by
  have first {gap : List Token} (starts : gap.head?.map Token.kind = some .whitespace) :
      (gap ++ rest).head?.map Token.kind = some .whitespace := by
    cases gap with
    | nil => cases starts
    | cons token gap => exact starts
  rcases sight with startsOwn | ⟨rfl, plain⟩
  · refine .of_loose (.blank own also startsOwn starts rest) (.inr unprefixed) fun _ _ _ => ?_
    rw [first startsOwn, first starts]
  · rw [List.append_nil, List.append_nil]
    refine .of_loose (.ended own also) (.inr unprefixed) fun token member looks => ?_
    rw [plain token member] at looks
    cases looks

end Complete

theorem shut_of_head {position : Position} {tail : List Char} {rest : List Token} {last : Token}
    (closes : ∀ c ∈ tail.head?, c = '\x7d') (lexed : Lexer.tokensAt position tail = .ok (rest ++ [last])) :
    Shut rest := by
  intro token member
  obtain ⟨rest, rfl⟩ := List.head?_eq_some_iff.mp member
  cases tail with
  | nil =>
    rw [Lexer.tokensAt_nil] at lexed
    simp at lexed
  | cons c tail =>
    obtain rfl := closes c rfl
    have measured : Lexer.measure position '\x7d' tail = .ok (.rightBrace, 0) := rfl
    rw [Lexer.tokensAt_cons, measured] at lexed
    simp only [bind, Except.bind] at lexed
    generalize Lexer.tokensAt _ (tail.drop 0) = result at lexed
    cases result with
    | error => cases lexed
    | ok others => exact (congrArg Token.kind (List.cons_eq_cons.mp (Except.ok.inj lexed)).1).symm

theorem Cursor.ofTokens_concat {row : List Token} {last : Token} (ends : last.kind = .endOfInput) :
    Cursor.ofTokens (row ++ [last]) = ⟨[], row, last, ends⟩ := by
  unfold Cursor.ofTokens
  simp [ends]

namespace Grammar

open Lexer (CutInto Joined LineEnd Remark silent tokensAt)

variable {text first second tail : List Char} {row idle more : List Token} {from_ fromTwin : Position}

theorem cursorOf_of_tokens {source : String} {row : List Token} {last : Token}
    (lexed : Lexer.tokens source = .ok (row ++ [last])) (ends : last.kind = .endOfInput) :
    cursorOf source = .ok ⟨[], row, last, ends⟩ := by
  rw [cursorOf, lexed]
  exact congrArg _ (Cursor.ofTokens_concat ends)

/-- Texts whose tokens have a seam, and are those of one text behind it, are read alike. -/
theorem stylesheet_of_seam (joined : Joined tail from_ fromTwin)
    (own : tokensAt .start first = ((tokensAt from_ tail).map (idle ++ ·)).map (row ++ ·))
    (twin : tokensAt .start second = ((tokensAt fromTwin tail).map (more ++ ·)).map (row ++ ·))
    (seam : ∀ rest last, tokensAt from_ tail = .ok (rest ++ [last]) → Seam [] row (idle ++ rest) (more ++ rest)) :
    (stylesheet (String.ofList first)).toOption = (stylesheet (String.ofList second)).toOption := by
  obtain ⟨line, same⟩ := joined
  rw [← String.toList_ofList (l := first), ← Lexer.tokens] at own
  rw [← String.toList_ofList (l := second), ← Lexer.tokens] at twin
  have fails {source : String} {fault : LexicalFault} (failed : Lexer.tokens source = .error fault) :
      (stylesheet source).toOption = none := by
    rw [stylesheet, cursorOf, failed]
    rfl
  cases found : tokensAt from_ tail with
  | error fault =>
    have also : tokensAt fromTwin tail = .error fault := by
      rcases same with rfl | rfl
      · cases (Lexer.tokensAt_nil from_).symm.trans found
      · exact found
    rw [found] at own
    rw [also] at twin
    rw [fails own, fails twin]
  | ok tokens =>
    obtain ⟨rest, last, rfl, ends, -⟩ := (Lexer.tiling_of_tokensAt found).last_eq
    obtain ⟨final, foundTwin, endsTwin, lines⟩ : ∃ final, tokensAt fromTwin tail = .ok (rest ++ [final]) ∧
        final.kind = .endOfInput ∧ last.line = final.line := by
      rcases same with rfl | rfl
      · obtain ⟨rfl, rfl⟩ : rest = [] ∧ last = ⟨.endOfInput, "", from_⟩ := by
          rw [Lexer.tokensAt_nil] at found
          cases rest with
          | nil => exact ⟨rfl, (List.cons_eq_cons.mp (Except.ok.inj found)).1.symm⟩
          | cons => simp at found
        exact ⟨_, Lexer.tokensAt_nil fromTwin, rfl, line⟩
      · exact ⟨last, found, ends, rfl⟩
    rw [found] at own
    rw [foundTwin] at twin
    have read : cursorOf (String.ofList first) = .ok ⟨[], row ++ (idle ++ rest), last, ends⟩ := by
      apply cursorOf_of_tokens
      rw [own, List.append_assoc, List.append_assoc]
      rfl
    have readTwin : cursorOf (String.ofList second) = .ok ⟨[], row ++ (more ++ rest), final, endsTwin⟩ := by
      apply cursorOf_of_tokens
      rw [twin, List.append_assoc, List.append_assoc]
      rfl
    exact stylesheet_of_near read readTwin
      ⟨fun _ => lines, .inr ⟨row, _, _, trivial, seam rest last found, rfl, rfl⟩⟩

section Remarked

variable {space note gap twin : List Char} (cut : CutInto text row)
  (last : ∀ c ∈ text.getLast?, Chars.isBlank c = false ∧ c ≠ '/') (unprefixed : ¬ PrefixOpen row)
  (remark : Remark space note) (ends : LineEnd gap twin tail)

include cut last unprefixed remark ends

/-- A silent comment in front of the end of a line is as good as a blank, or as nothing where a statement or a
block has ended. -/
theorem stylesheet_remarked (ascii : ∀ b ∈ gap.head?, b.toNat < 128)
    (ended : gap = [] → text.getLast? ∈ [some ';', some '\x7b', some '\x7d']) :
    (stylesheet (String.ofList (text ++ (gap ++ tail)))).toOption =
      (stylesheet (String.ofList (text ++ (silent space note ++ (twin ++ tail))))).toOption := by
  obtain ⟨from_, fromTwin, idle, more, joined, own, also, starts, startsTwin, first, second⟩ :=
    ends.exists_remark remark (Eq.refl (Position.start.after text).line)
  have shown := cut.shown last
  have ownTokens := cut.tokensAt_eq shown (Lexer.still_of_blank (ends.head_blank ascii))
  have twinTokens := cut.tokensAt_eq shown (remark.head_silent (twin ++ tail))
  rw [first] at ownTokens
  rw [second] at twinTokens
  refine stylesheet_of_seam joined ownTokens twinTokens fun rest final lexed => ?_
  refine seam_of_idle unprefixed own also startsTwin ?_
  by_cases empty : gap = []
  · refine .inr ⟨?_, cut.not_looksAhead (ended empty)⟩
    obtain rfl := ends.tail_eq empty
    rw [Lexer.tokensAt_nil] at lexed
    cases rest with
    | nil => rfl
    | cons => simp at lexed
  · exact .inl (starts empty)

/-- Where a block ends behind a line, a silent comment may stand in place of the semicolon. -/
theorem stylesheet_without_semicolon (open_ : text.getLast? ∉ [some ';', some '\x7b', some '\x7d'])
    (complete : Complete row) (closes : ∀ c ∈ tail.head?, c = '\x7d') :
    (stylesheet (String.ofList (text ++ ';' :: (gap ++ tail)))).toOption =
      (stylesheet (String.ofList (text ++ (silent space note ++ (twin ++ tail))))).toOption := by
  have line : ((Position.start.after text).next ';').line = (Position.start.after text).line := rfl
  obtain ⟨from_, fromTwin, idle, more, joined, own, also, -, -, first, second⟩ := ends.exists_remark remark line
  have shown := cut.shown last
  have semicolon : ∀ c ∈ (';' :: (gap ++ tail)).head?, Lexer.isStill c = true ∧ c ≠ '\x7b' := by
    rintro c ⟨rfl⟩
    decide
  have ownTokens : tokensAt .start (text ++ ';' :: (gap ++ tail)) =
      ((tokensAt from_ tail).map (⟨.semicolon, ";", Position.start.after text⟩ :: idle ++ ·)).map (row ++ ·) := by
    rw [cut.tokensAt_eq shown semicolon, Lexer.tokensAt_semicolon, first]
    cases tokensAt from_ tail <;> rfl
  have twinTokens := cut.tokensAt_eq shown (remark.head_silent (twin ++ tail))
  rw [second] at twinTokens
  exact stylesheet_of_seam joined ownTokens twinTokens fun rest final lexed =>
    complete.seam unprefixed shown (cut.unended open_) rfl own also (shut_of_head closes lexed)

end Remarked

end Grammar

end Scss
