import Scss.Proofs.Grammar.Lines
import Scss.Proofs.Seams.Expressions

/-! Values in unison. The tokens of a value are cut out before they are read. The cut ends at the same
token for both, unless a semicolon is lacking there, and its parts are the same but for blanks and comments. -/
namespace Scss

namespace Seam

variable {opened : List TokenKind} {row first second : List Token}

theorem drop (seam : Seam opened row first second) (count : Nat) : Seam [] (row.drop count) first second := by
  induction count generalizing opened row with
  | zero => exact seam.reset
  | succ count ih =>
    cases row with
    | nil => exact seam.reset
    | cons token row => exact ih seam.tail

/-- A seam of blanks with less behind it. -/
theorem blank {gap more rest less : List Token} (seam : Seam opened row (gap ++ rest) (more ++ rest))
    (idle : ∀ token ∈ gap, token.isIdle = true) (also : ∀ token ∈ more, token.isIdle = true)
    (starts : gap.head?.map Token.kind = some .whitespace)
    (startsAlso : more.head?.map Token.kind = some .whitespace) (fewer : ∀ token ∈ less, token ∈ rest) :
    Seam opened row (gap ++ less) (more ++ less) where
  parted := .loose (.blank idle also starts startsAlso less)
  closed := .inl (.blank idle also starts startsAlso less)
  unprefixed := by
    refine seam.unprefixed.imp_left fun ended => ?_
    have kept {gap : List Token} (idle : ∀ token ∈ gap ++ rest, token.isIdle = true) :
        ∀ token ∈ gap ++ less, token.isIdle = true := by
      intro token member
      apply idle
      rw [List.mem_append] at member ⊢
      exact member.imp_right (fewer token)
    exact ⟨kept ended.1, kept ended.2⟩
  sight := by
    have head {gap : List Token} (starts : gap.head?.map Token.kind = some .whitespace) :
        (gap ++ less).head?.map Token.kind = some .whitespace := by
      cases gap with
      | nil => cases starts
      | cons token gap => exact starts
    intro _ _ _
    rw [head starts, head startsAlso]
  lines _ _ _ := by rw [(Loose.blank idle also starts startsAlso less).firstVisible?_eq]
  kinds _ _ _ := by rw [(Loose.blank idle also starts startsAlso less).firstVisible?_eq]

end Seam

namespace Grammar

open Scss.Parser (Unison Meets Level Round Agrees)

section Scan

variable {stops : List TokenKind}

/-- What a scan finds in a row, if not what comes behind it. -/
theorem scanFrom_append (stops opened : List TokenKind) (row : List Token) :
    (∃ count < row.length, ∀ tail, scanFrom stops opened (row ++ tail) = count) ∨
      ∀ tail, scanFrom stops opened (row ++ tail) =
        row.length + scanFrom stops ((row.map Token.kind).foldl openBehind opened) tail := by
  induction row generalizing opened with
  | nil =>
    right
    intro tail
    rw [List.length_nil, Nat.zero_add]
    rfl
  | cons token row ih =>
    by_cases ends : (token.kind = .endOfInput || (opened.isEmpty && stops.contains token.kind)) = true
    · left
      refine ⟨0, Nat.zero_lt_succ _, fun tail => ?_⟩
      rw [List.cons_append, scanFrom_cons, if_pos ends]
    · refine (ih (openBehind opened token.kind)).imp ?_ ?_
      · rintro ⟨count, inside, found⟩
        refine ⟨count + 1, Nat.succ_lt_succ inside, fun tail => ?_⟩
        rw [List.cons_append, scanFrom_cons, if_neg ends, found]
      · intro passes tail
        rw [List.cons_append, scanFrom_cons, if_neg ends, passes]
        simp only [List.length_cons, List.map_cons, List.foldl_cons]
        omega

/-- A scan passes blanks and comments. -/
theorem scanFrom_idle (visible : ∀ kind ∈ stops, kind.isTrivia = false) (opened : List TokenKind)
    {gap : List Token} (idle : ∀ token ∈ gap, token.isIdle = true) (rest : List Token) :
    scanFrom stops opened (gap ++ rest) = gap.length + scanFrom stops opened rest := by
  induction gap with
  | nil => simp
  | cons token gap ih =>
    obtain ⟨blank, others⟩ := List.forall_mem_cons.mp idle
    have trivia : token.kind.isTrivia = true := Token.isTrivia_of_isIdle blank
    rw [List.cons_append, scanFrom_pass, openBehind_of_isTrivia trivia, ih others, List.length_cons]
    · omega
    · intro ended
      rw [ended] at trivia
      cases trivia
    · intro _ stop
      rw [visible _ stop] at trivia
      cases trivia

theorem scanFrom_shut (brace : .rightBrace ∈ stops) {rest : List Token} (shut : Shut rest) :
    scanFrom stops [] rest = 0 := by
  cases rest with
  | nil => rfl
  | cons token rest =>
    rw [scanFrom_cons, if_pos]
    simp [shut token rfl, brace]

theorem take_scanFrom_proper (stops opened : List TokenKind) (tokens : List Token) :
    ∀ token ∈ tokens.take (scanFrom stops opened tokens), token.kind ≠ .endOfInput := by
  induction tokens generalizing opened with
  | nil => exact nofun
  | cons token tokens ih =>
    rw [scanFrom_cons]
    split
    · exact nofun
    · rename_i goes
      rw [List.take_succ_cons, List.forall_mem_cons]
      refine ⟨fun ended => goes ?_, ih _⟩
      simp [ended]

end Scan

/-- Rows of tokens that are cut out: the same, or loose behind a first token that is the same. -/
def Cuts (tokens others : List Token) : Prop :=
  tokens = others ∨ ∃ row first second, row ≠ [] ∧ Loose first second ∧ Seam [] row first second ∧
    tokens = row ++ first ∧ others = row ++ second

structure Excerpts (tokens others : List Token) : Prop where
  cuts : Cuts tokens others
  proper : ∀ token ∈ tokens, token.kind ≠ .endOfInput
  properTwin : ∀ token ∈ others, token.kind ≠ .endOfInput

section Cut

variable {seams : Seams} {lined : Prop} {cursor other : Cursor} {stops : List TokenKind}

theorem Cuts.of_ended {row gap more : List Token} (idle : ∀ token ∈ gap, token.isIdle = true)
    (idleAlso : ∀ token ∈ more, token.isIdle = true) (some : row = [] → gap = [] ∧ more = [])
    (sight : ∀ token ∈ row.getLast?, token.looksAhead = true →
      gap.head?.map Token.kind = more.head?.map Token.kind) : Cuts (row ++ gap) (row ++ more) := by
  by_cases none : row = []
  · obtain ⟨rfl, rfl⟩ := some none
    exact .inl rfl
  · exact .inr ⟨row, gap, more, none, .ended idle idleAlso,
      .of_loose (.ended idle idleAlso) (.inl ⟨idle, idleAlso⟩) sight, rfl, rfl⟩

theorem nil_of_visible {gap rest : List Token} (ahead : cursor.ahead = gap ++ rest)
    (idle : ∀ token ∈ gap, token.isIdle = true) (shown : cursor.current.isTrivia = false) : gap = [] := by
  cases gap with
  | nil => rfl
  | cons token gap =>
    rw [Cursor.current_of_cons ahead, Token.isTrivia_of_isIdle (idle token List.mem_cons_self)] at shown
    cases shown

/-- No token that looks ahead stands before a semicolon that is lacking. -/
theorem not_looksAhead_of_lacking {row gap more rest : List Token} {mark : Token}
    (seam : Seam [] row (mark :: gap) (more ++ rest)) (semicolon : mark.kind = .semicolon)
    (idle : ∀ token ∈ more, token.isIdle = true) (shut : Shut rest) {token : Token}
    (last : token ∈ row.getLast?) : token.looksAhead = false := by
  by_contra looks
  have heads := seam.sight token last (Bool.not_eq_false _ ▸ looks)
  cases more with
  | nil =>
    cases rest with
    | nil => cases heads
    | cons brace rest =>
      have closes : brace.kind = .rightBrace := shut brace rfl
      simp [semicolon, closes] at heads
  | cons token more =>
    have trivia := Token.isTrivia_of_isIdle (idle token List.mem_cons_self)
    have same : mark.kind = token.kind := by simpa using heads
    simp [Token.isTrivia, ← same, semicolon, TokenKind.isTrivia] at trivia

/-- Where a scan goes to the end of a part, this part is cut out, and the others are left. -/
theorem cut_of_scanFrom {before after : List Token} (ahead : cursor.ahead = before ++ after)
    (reach : scanFrom stops [] cursor.ahead = before.length) :
    cursor.ahead.take (scanFrom stops [] cursor.ahead) = before ∧
      (cursor.advance (scanFrom stops [] cursor.ahead)).ahead = after := by
  rw [reach, Cursor.ahead_advance, ahead]
  exact ⟨List.take_left, List.drop_left⟩

section Behind

variable {row gap more rest : List Token} (visible : ∀ kind ∈ stops, kind.isTrivia = false)
  (passes : ∀ tail, scanFrom stops [] (row ++ tail) =
    row.length + scanFrom stops ((row.map Token.kind).foldl openBehind []) tail)
  (idle : ∀ token ∈ gap, token.isIdle = true) (idleAlso : ∀ token ∈ more, token.isIdle = true)

include visible passes idle idleAlso

/-- Only blanks and comments stand behind the seam. -/
theorem cuts_of_ended (ahead : cursor.ahead = row ++ gap) (also : other.ahead = row ++ more)
    (shown : cursor.current.isTrivia = false) (shownTwin : other.current.isTrivia = false)
    (sight : ∀ token ∈ row.getLast?, token.looksAhead = true →
      gap.head?.map Token.kind = more.head?.map Token.kind) :
    Cuts (cursor.ahead.take (scanFrom stops [] cursor.ahead)) (other.ahead.take (scanFrom stops [] other.ahead)) ∧
      (cursor.advance (scanFrom stops [] cursor.ahead)).ahead =
        (other.advance (scanFrom stops [] other.ahead)).ahead := by
  have whole {cursor : Cursor} {gap : List Token} (ahead : cursor.ahead = row ++ gap)
      (idle : ∀ token ∈ gap, token.isIdle = true) : scanFrom stops [] cursor.ahead = (row ++ gap).length := by
    have behind := scanFrom_idle visible ((row.map Token.kind).foldl openBehind []) idle []
    rw [List.append_nil] at behind
    rw [ahead, passes, behind, List.length_append]
    rfl
  obtain ⟨own, left⟩ := cut_of_scanFrom (ahead.trans (List.append_nil _).symm) (whole ahead idle)
  obtain ⟨twin, leftTwin⟩ := cut_of_scanFrom (also.trans (List.append_nil _).symm) (whole also idleAlso)
  rw [own, twin, left, leftTwin]
  refine ⟨.of_ended idle idleAlso ?_ sight, rfl⟩
  rintro rfl
  exact ⟨nil_of_visible (ahead.trans (List.append_nil _).symm) idle shown,
    nil_of_visible (also.trans (List.append_nil _).symm) idleAlso shownTwin⟩

/-- The end is found behind the blanks, at the same token. -/
theorem cuts_of_blank (starts : gap.head?.map Token.kind = some .whitespace)
    (startsAlso : more.head?.map Token.kind = some .whitespace)
    (seam : Seam [] row (gap ++ rest) (more ++ rest)) (ahead : cursor.ahead = row ++ (gap ++ rest))
    (also : other.ahead = row ++ (more ++ rest)) (shown : cursor.current.isTrivia = false) :
    Cuts (cursor.ahead.take (scanFrom stops [] cursor.ahead)) (other.ahead.take (scanFrom stops [] other.ahead)) ∧
      (cursor.advance (scanFrom stops [] cursor.ahead)).ahead =
        (other.advance (scanFrom stops [] other.ahead)).ahead := by
  have some : row ≠ [] := by
    rintro rfl
    have none : gap = [] := nil_of_visible ahead idle shown
    rw [none] at starts
    cases starts
  generalize further : scanFrom stops ((row.map Token.kind).foldl openBehind []) rest = count
  have reach {cursor : Cursor} {gap : List Token} (ahead : cursor.ahead = row ++ (gap ++ rest))
      (idle : ∀ token ∈ gap, token.isIdle = true) :
      cursor.ahead.take (scanFrom stops [] cursor.ahead) = row ++ (gap ++ rest.take count) ∧
        (cursor.advance (scanFrom stops [] cursor.ahead)).ahead = rest.drop count := by
    have far : scanFrom stops [] cursor.ahead = row.length + (gap.length + count) := by
      rw [ahead, passes, scanFrom_idle visible _ idle, further]
    rw [Cursor.ahead_advance, far, ahead, ← List.append_assoc, ← List.append_assoc, ← Nat.add_assoc,
      ← List.length_append]
    exact ⟨List.take_length_add_append _, List.drop_length_add_append _⟩
  obtain ⟨own, left⟩ := reach ahead idle
  obtain ⟨twin, leftTwin⟩ := reach also idleAlso
  rw [own, twin, left, leftTwin]
  exact ⟨.inr ⟨row, _, _, some, .blank idle idleAlso starts startsAlso _,
    seam.blank idle idleAlso starts startsAlso fun token => List.mem_of_mem_take, rfl, rfl⟩, rfl⟩

omit idle in
/-- One scan ends at the semicolon, and the other, which lacks it, where the block ends. -/
theorem cuts_of_lacking {mark : Token} (universal : Universal stops) (semicolon : mark.kind = .semicolon)
    (shut : Shut rest) (seam : Seam [] row (mark :: (gap ++ rest)) (more ++ rest))
    (ahead : cursor.ahead = row ++ mark :: (gap ++ rest)) (also : other.ahead = row ++ (more ++ rest))
    (shownTwin : other.current.isTrivia = false) :
    Cuts (cursor.ahead.take (scanFrom stops [] cursor.ahead)) (other.ahead.take (scanFrom stops [] other.ahead)) ∧
      (cursor.advance (scanFrom stops [] cursor.ahead)).ahead = mark :: (gap ++ rest) ∧
      (other.advance (scanFrom stops [] other.ahead)).ahead = rest := by
  have closed := seam.foldl_of_lacking semicolon
  have reach : scanFrom stops [] cursor.ahead = row.length := by
    rw [ahead, passes, closed, scanFrom_cons, if_pos]
    · simp
    · simp [semicolon, universal.1]
  have reachTwin : scanFrom stops [] other.ahead = (row ++ more).length := by
    rw [also, passes, closed, scanFrom_idle visible _ idleAlso, scanFrom_shut universal.2 shut,
      List.length_append, Nat.add_zero]
  obtain ⟨own, left⟩ := cut_of_scanFrom ahead reach
  obtain ⟨twin, leftTwin⟩ := cut_of_scanFrom (also.trans (List.append_assoc _ _ _).symm) reachTwin
  have behind : Cuts (row ++ []) (row ++ more) := by
    refine .of_ended nofun idleAlso ?_ ?_
    · rintro rfl
      exact ⟨rfl, nil_of_visible also idleAlso shownTwin⟩
    · intro token last looks
      rw [not_looksAhead_of_lacking seam semicolon idleAlso shut last] at looks
      cases looks
  rw [List.append_nil] at behind
  rw [own, twin]
  exact ⟨behind, left, leftTwin⟩

end Behind

/-- What is cut out up to the end of a statement, and what is left. -/
theorem cuts_of_near (near : cursor.Near seams lined [] other) (universal : Universal stops)
    (visible : ∀ kind ∈ stops, kind.isTrivia = false) (shown : cursor.current.isTrivia = false)
    (shownTwin : other.current.isTrivia = false) :
    Cuts (cursor.ahead.take (scanFrom stops [] cursor.ahead)) (other.ahead.take (scanFrom stops [] other.ahead)) ∧
      (cursor.advance (scanFrom stops [] cursor.ahead)).Near seams lined []
        (other.advance (scanFrom stops [] other.ahead)) := by
  have line (count countTwin : Nat) : lined →
      (cursor.advance count).last.line = (other.advance countTwin).last.line := by
    simpa using near.line
  rcases near.rows with same | ⟨row, first, second, allowed, seam, ahead, also⟩
  · rw [same]
    exact ⟨.inl rfl, line _ _, .inl (by rw [Cursor.ahead_advance, Cursor.ahead_advance, same])⟩
  rcases scanFrom_append stops [] row with ⟨count, inside, found⟩ | passes
  · -- The end is found before the seam.
    rw [ahead, also, found, found, List.take_append_of_le_length inside.le,
      List.take_append_of_le_length inside.le]
    refine ⟨.inl rfl, line _ _, .inr ⟨row.drop count, first, second, allowed, seam.drop count, ?_, ?_⟩⟩
    · rw [Cursor.ahead_advance, ahead, List.drop_append_of_le_length inside.le]
    · rw [Cursor.ahead_advance, also, List.drop_append_of_le_length inside.le]
  have parted := seam.parted
  cases parted with
  | loose loose =>
    cases loose with
    | ended idle idleAlso =>
      obtain ⟨cuts, left⟩ := cuts_of_ended visible passes idle idleAlso ahead also shown shownTwin seam.sight
      exact ⟨cuts, line _ _, .inl left⟩
    | blank idle idleAlso starts startsAlso =>
      obtain ⟨cuts, left⟩ := cuts_of_blank visible passes idle idleAlso starts startsAlso seam ahead also shown
      exact ⟨cuts, line _ _, .inl left⟩
  | @lacking mark semicolon gap more rest idle idleAlso shut =>
    obtain ⟨cuts, left, leftTwin⟩ :=
      cuts_of_lacking visible passes idleAlso universal semicolon shut seam ahead also shownTwin
    have parted : Parted (mark :: (gap ++ rest)) ([] ++ rest) := .lacking semicolon idle nofun shut
    have holds : seams.Allows (mark :: (gap ++ rest)) rest := by
      rw [Seams.any_of_lacking allowed semicolon]
      trivial
    exact ⟨cuts, line _ _, .inr ⟨[], _, rest, holds, .of_nil parted, left, leftTwin⟩⟩

/-- Both cut out the tokens of a value. -/
theorem unison_takeTo {α : Type} {goal : α → α → Cursor → Cursor → Prop}
    (near : cursor.Near seams lined [] other) (universal : Universal stops)
    (visible : ∀ kind ∈ stops, kind.isTrivia = false) (shown : cursor.current.isTrivia = false)
    (shownTwin : other.current.isTrivia = false) {next nextTwin : List Token → Parser α}
    (rest : ∀ tokens others after afterTwin, Excerpts tokens others → after.Near seams lined [] afterTwin →
      Unison goal (next tokens) after (nextTwin others) afterTwin) :
    Unison goal (takeTo stops >>= next) cursor (takeTo stops >>= nextTwin) other := by
  obtain ⟨cuts, near⟩ := cuts_of_near near universal visible shown shownTwin
  have excerpts : Excerpts (cursor.ahead.take (scanFrom stops [] cursor.ahead))
      (other.ahead.take (scanFrom stops [] other.ahead)) :=
    ⟨cuts, take_scanFrom_proper stops [] cursor.ahead, take_scanFrom_proper stops [] other.ahead⟩
  exact ⟨(rest _ _ _ _ excerpts near).outcome⟩

end Cut

section Flags

variable {tokens others : List Token}

theorem dropFlags_idle {gap : List Token} (idle : ∀ token ∈ gap, token.isIdle = true) :
    dropFlags gap = ([], []) := by
  induction gap with
  | nil => rfl
  | cons token gap ih =>
    obtain ⟨blank, others⟩ := List.forall_mem_cons.mp idle
    rw [dropFlags, if_pos (Token.isTrivia_of_isIdle blank), ih others]

/-- If nothing but flags is in a row, the flags behind it are dropped too. -/
theorem dropFlags_append_of_nil {first : List Token} (none : (dropFlags first).2 = []) (second : List Token) :
    dropFlags (first ++ second) = ((dropFlags first).1 ++ (dropFlags second).1, (dropFlags second).2) := by
  induction first with
  | nil => rfl
  | cons token first ih =>
    rw [dropFlags] at none
    rw [List.cons_append, dropFlags, dropFlags]
    split_ifs at none ⊢
    · exact ih none
    · simp only [ih none, List.cons_append]

theorem dropFlags_append_of_ne_nil {first : List Token} (some : (dropFlags first).2 ≠ [])
    (second : List Token) :
    dropFlags (first ++ second) = ((dropFlags first).1, (dropFlags first).2 ++ second) := by
  induction first with
  | nil => exact absurd rfl some
  | cons token first ih =>
    rw [dropFlags] at some
    rw [List.cons_append, dropFlags, dropFlags]
    split_ifs at some ⊢
    · exact ih some
    · simp only [ih some]
    · rfl

/-- Flags at the end are the same, and so is what they leave, but for blanks and comments. -/
theorem Cuts.splitFlags (cuts : Cuts tokens others) :
    (splitFlags tokens).1 = (splitFlags others).1 ∧ Cuts (splitFlags tokens).2 (splitFlags others).2 := by
  rcases cuts with rfl | ⟨row, first, second, some, loose, seam, rfl, rfl⟩
  · exact ⟨rfl, .inl rfl⟩
  have bare {gap : List Token} (idle : ∀ token ∈ gap, token.isIdle = true) :
      dropFlags (gap.reverse ++ row.reverse) = dropFlags row.reverse := by
    have none := dropFlags_idle fun token member => idle token (List.mem_reverse.mp member)
    rw [dropFlags_append_of_nil (by rw [none]), none]
    rfl
  unfold Grammar.splitFlags
  simp only [List.reverse_append]
  cases loose with
  | ended idle idleAlso =>
    rw [bare idle, bare idleAlso]
    exact ⟨rfl, .inl rfl⟩
  | @blank gap more idle idleAlso starts startsAlso rest =>
    simp only [List.reverse_append, List.append_assoc]
    by_cases none : (dropFlags rest.reverse).2 = []
    · rw [dropFlags_append_of_nil none, dropFlags_append_of_nil none, bare idle, bare idleAlso]
      exact ⟨rfl, .inl rfl⟩
    · rw [dropFlags_append_of_ne_nil none, dropFlags_append_of_ne_nil none]
      have fewer : ∀ token ∈ (dropFlags rest.reverse).2.reverse, token ∈ rest := fun token member =>
        List.mem_reverse.mp (mem_dropFlags (List.mem_reverse.mp member))
      exact ⟨rfl, .inr ⟨row, _, _, some, .blank idle idleAlso starts startsAlso _,
        seam.blank idle idleAlso starts startsAlso fewer, by simp, by simp⟩⟩

/-- The tokens that are neither blank nor comment are the same. -/
theorem Cuts.filter_eq (cuts : Cuts tokens others) :
    tokens.filter (fun token => !token.isTrivia) = others.filter fun token => !token.isTrivia := by
  rcases cuts with rfl | ⟨row, first, second, -, loose, -, rfl, rfl⟩
  · rfl
  have none {gap : List Token} (idle : ∀ token ∈ gap, token.isIdle = true) :
      gap.filter (fun token => !token.isTrivia) = [] := by
    rw [List.filter_eq_nil_iff]
    intro token member
    simp [Token.isTrivia_of_isIdle (idle token member)]
  rw [List.filter_append, List.filter_append]
  cases loose with
  | ended idle idleAlso => rw [none idle, none idleAlso]
  | blank idle idleAlso _ _ rest => rw [List.filter_append, List.filter_append, none idle, none idleAlso]

theorem all_isTrivia_eq (tokens : List Token) :
    tokens.all Token.isTrivia = (tokens.filter fun token => !token.isTrivia).isEmpty := by
  rw [Bool.eq_iff_iff]
  simp [List.filter_eq_nil_iff]

theorem any_dollar_eq (tokens : List Token) :
    tokens.any (fun token => token.kind = .dollar) =
      (tokens.filter fun token => !token.isTrivia).any fun token => token.kind = .dollar := by
  rw [List.any_filter]
  congr 1
  funext token
  by_cases dollar : token.kind = .dollar
  · simp [dollar, Token.isTrivia, TokenKind.isTrivia]
  · simp [dollar]

end Flags

namespace Excerpts

variable {tokens others : List Token} (excerpts : Excerpts tokens others)

include excerpts

theorem splitFlags : (splitFlags tokens).1 = (splitFlags others).1 ∧
    Excerpts (splitFlags tokens).2 (splitFlags others).2 where
  left := excerpts.cuts.splitFlags.1
  right :=
    { cuts := excerpts.cuts.splitFlags.2
      proper := fun token member => excerpts.proper token (mem_splitFlags member)
      properTwin := fun token member => excerpts.properTwin token (mem_splitFlags member) }

theorem near : (Cursor.ofTokens tokens).Near .loose False [] (Cursor.ofTokens others) where
  line := False.elim
  rows := by
    rw [Cursor.ahead_ofTokens excerpts.proper, Cursor.ahead_ofTokens excerpts.properTwin]
    exact excerpts.cuts.imp_right fun ⟨row, first, second, _, loose, seam, cut⟩ =>
      ⟨row, first, second, loose, seam, cut⟩

/-- They start with the same token. -/
theorem line : (Cursor.ofTokens tokens).current.line = (Cursor.ofTokens others).current.line := by
  have ahead := Cursor.ahead_ofTokens excerpts.proper
  have aheadTwin := Cursor.ahead_ofTokens excerpts.properTwin
  rcases excerpts.cuts with rfl | ⟨row, first, second, some, -, -, rfl, rfl⟩
  · rfl
  · cases row with
    | nil => exact absurd rfl some
    | cons token row => rw [Cursor.current_of_cons ahead, Cursor.current_of_cons aheadTwin]

end Excerpts

namespace Blocks

variable {b twin : Blocks} (inner : ∀ form, Level (b.self form) (twin.self form)) {tokens others : List Token}
  (excerpts : Excerpts tokens others) {α : Type} {goal : α → α → Cursor → Cursor → Prop}
  {cursor other : Cursor}

include inner

theorem level_expression : Level b.expression twin.expression := level_commaList inner []

include excerpts

theorem agrees_value : Agrees Eq (Parser.onTokens (complete b.expression) tokens)
    (Parser.onTokens (complete twin.expression) others) :=
  agrees_complete (level_expression inner) excerpts.near

theorem agrees_raw : Agrees Eq (Parser.onTokens (raw b.self [] false) tokens)
    (Parser.onTokens (raw twin.self [] false) others) :=
  (unison_raw inner (by simp) false excerpts.near nofun excerpts.line).outcome.bind fun _ _ same => .ok same.1

theorem unison_valueOf {next nextTwin : Expr → Parser α}
    (rest : ∀ value, Unison goal (next value) cursor (nextTwin value) other) :
    Unison goal (b.valueOf tokens >>= next) cursor (twin.valueOf others >>= nextTwin) other := by
  apply Unison.lift (agrees_value inner excerpts)
  rintro value _ rfl
  exact rest value

theorem unison_rawOf {next nextTwin : Template → Parser α}
    (rest : ∀ text, Unison goal (next text) cursor (nextTwin text) other) :
    Unison goal (b.rawOf tokens >>= next) cursor (twin.rawOf others >>= nextTwin) other := by
  apply Unison.lift (agrees_raw inner excerpts)
  rintro text _ rfl
  exact rest text

/-- The value of a declaration. Where it is no expression for one, it is none for the other. -/
theorem unison_declarationValue {seams : Seams} {lined : Prop} {opened : List TokenKind}
    (near : cursor.Near seams lined opened other) :
    Unison (Meets seams lined opened) (b.declarationValue tokens) cursor (twin.declarationValue others)
      other := by
  obtain ⟨same, kept⟩ := excerpts.splitFlags
  have visible := kept.cuts.filter_eq
  unfold declarationValue
  generalize splitFlags tokens = cut at same kept visible
  generalize splitFlags others = cutTwin at same kept visible
  obtain ⟨flags, tokens⟩ := cut
  obtain ⟨flagsTwin, others⟩ := cutTwin
  dsimp only at same kept visible ⊢
  rw [same, all_isTrivia_eq, all_isTrivia_eq, visible]
  apply Unison.ite Iff.rfl
  · intro _
    exact .done ⟨rfl, near⟩
  intro _
  have outcome := agrees_value inner kept
  generalize Parser.onTokens (complete b.expression) tokens = result at outcome
  generalize Parser.onTokens (complete twin.expression) others = twinResult at outcome
  have bare (fault another : SyntaxFault) (important : Bool) : Unison (Meets seams lined opened)
      (if tokens.any (fun token => token.kind = .dollar) then throw (.grammar fault)
        else do return (some (Expr.interpolated (← b.rawOf tokens)), important)) cursor
      (if others.any (fun token => token.kind = .dollar) then throw (.grammar another)
        else do return (some (Expr.interpolated (← twin.rawOf others)), important)) other := by
    apply Unison.ite (by rw [any_dollar_eq tokens, any_dollar_eq others, visible])
    · intro _
      exact .fail
    · intro _
      apply unison_rawOf inner kept
      intro text
      exact .done ⟨rfl, near⟩
  cases outcome with
  | ok results =>
    subst results
    exact .done ⟨rfl, near⟩
  | grammar fault another => exact bare fault another _
  | fault fault =>
    cases fault with
    | grammar fault => exact bare fault fault _
    | _ => exact .throw
  | bounded result => exact ⟨.bounded _⟩
  | boundedTwin result => exact ⟨.boundedTwin _⟩

end Blocks

end Grammar

/-! Declarations and rules in unison. Which of them a statement is shows further on, possibly behind a seam. -/

namespace Grammar

open Scss.Parser (Unison)

def kindAt (row : List Token) (place : Nat) : TokenKind := (row[place]?.map Token.kind).getD .endOfInput

theorem kindAt_append_left {row : List Token} {place : Nat} (inside : place < row.length)
    (tail : List Token) : kindAt (row ++ tail) place = kindAt row place := by
  rw [kindAt, kindAt, List.getElem?_append_left inside]

theorem kindAt_append_right (row tail : List Token) (place : Nat) :
    kindAt (row ++ tail) (row.length + place) = kindAt tail place := by
  rw [kindAt, kindAt, List.getElem?_append_right (Nat.le_add_right _ _), Nat.add_sub_cancel_left]

theorem kind_peek (cursor : Cursor) (place : Nat) : (cursor.peek place).kind = kindAt cursor.ahead place := by
  rw [Cursor.peek, kindAt]
  cases cursor.ahead[place]? with
  | none => exact cursor.last_kind
  | some token => rfl

def declares (row : List Token) : Bool :=
  let colon := scanFrom propertyStops [] row
  if kindAt row colon ≠ .colon then false
  else if kindAt row (scanFrom headStops [] row) ≠ .leftBrace then true
  else [.ident, .interpolation].contains (kindAt row 0) &&
    (row.take colon).all (fun token => token.kind ≠ .whitespace) &&
      [.whitespace, .leftBrace].contains (kindAt row (colon + 1))

theorem startsDeclaration_eq (cursor : Cursor) :
    Blocks.startsDeclaration cursor = .ok (declares cursor.ahead, cursor) := by
  have current : cursor.current.kind = kindAt cursor.ahead 0 := by
    rw [← kind_peek, Cursor.current, Cursor.peek, List.head?_eq_getElem?]
  unfold Blocks.startsDeclaration declares
  rw [← current]
  simp only [← kind_peek]
  change (if _ then _ else _ : Parser Bool) cursor = _
  split
  · rfl
  · change (if _ then _ else _ : Parser Bool) cursor = _
    split <;> rfl

/-- With fewer ends, a scan goes further. -/
theorem scanFrom_mono {fewer stops : List TokenKind} (less : fewer ⊆ stops) (opened : List TokenKind)
    (row : List Token) : scanFrom stops opened row ≤ scanFrom fewer opened row := by
  induction row generalizing opened with
  | nil => exact Nat.le_refl 0
  | cons token row ih =>
    rw [scanFrom_cons, scanFrom_cons]
    split
    · exact Nat.zero_le _
    · rename_i goes
      rw [if_neg]
      · exact Nat.succ_le_succ (ih _)
      · intro ends
        apply goes
        simp only [Bool.or_eq_true, Bool.and_eq_true, List.contains_iff_mem] at ends ⊢
        exact ends.imp_right fun ⟨flat, member⟩ => ⟨flat, less member⟩

/-- What a scan finds in two rows with a seam: the same end before it, the same end behind it, or there
the ends of a statement. -/
inductive Found (row first second : List Token) (count countTwin : Nat) : Prop where
  | inside (inside : count < row.length) (same : count = countTwin)
  | behind (far : row.length < count) (farTwin : row.length < countTwin)
      (kinds : kindAt (row ++ first) count = kindAt (row ++ second) countTwin)
      (blank : kindAt first 0 = .whitespace) (blankTwin : kindAt second 0 = .whitespace)
  | ends (ends : (kindAt (row ++ first) count).ends = true)
      (endsTwin : (kindAt (row ++ second) countTwin).ends = true)

theorem found_of_seam {stops : List TokenKind} (universal : Universal stops)
    (visible : ∀ kind ∈ stops, kind.isTrivia = false) {row first second : List Token}
    (seam : Seam [] row first second) :
    Found row first second (scanFrom stops [] (row ++ first)) (scanFrom stops [] (row ++ second)) := by
  rcases scanFrom_append stops [] row with ⟨count, inside, found⟩ | passes
  · rw [found, found]
    exact .inside inside rfl
  have parted := seam.parted
  rw [passes, passes]
  cases parted with
  | loose loose =>
    cases loose with
    | ended idle idleAlso =>
      have ended {gap : List Token} (idle : ∀ token ∈ gap, token.isIdle = true) (opened : List TokenKind) :
          kindAt (row ++ gap) (row.length + scanFrom stops opened gap) = .endOfInput := by
        have whole := scanFrom_idle visible opened idle []
        rw [List.append_nil] at whole
        rw [kindAt_append_right, whole, kindAt, List.getElem?_eq_none (Nat.le_add_right _ _)]
        rfl
      exact .ends (by rw [ended idle]; rfl) (by rw [ended idleAlso]; rfl)
    | @blank gap more idle idleAlso starts startsAlso rest =>
      have head {gap : List Token} (starts : gap.head?.map Token.kind = some .whitespace) :
          0 < gap.length ∧ kindAt (gap ++ rest) 0 = .whitespace := by
        cases gap with
        | nil => cases starts
        | cons token gap => exact ⟨Nat.zero_lt_succ _, by simpa [kindAt] using starts⟩
      rw [scanFrom_idle visible _ idle, scanFrom_idle visible _ idleAlso]
      obtain ⟨some, blank⟩ := head starts
      obtain ⟨someTwin, blankTwin⟩ := head startsAlso
      refine .behind (by omega) (by omega) ?_ blank blankTwin
      rw [kindAt_append_right, kindAt_append_right, kindAt_append_right, kindAt_append_right]
  | @lacking mark semicolon gap more rest idle idleAlso shut =>
    rw [seam.foldl_of_lacking semicolon, scanFrom_idle visible _ idleAlso, scanFrom_shut universal.2 shut]
    apply Found.ends
    · rw [kindAt_append_right, scanFrom_cons, if_pos (by simp [semicolon, universal.1])]
      simp [kindAt, semicolon, TokenKind.ends]
    · rw [kindAt_append_right, kindAt_append_right]
      cases rest with
      | nil => rfl
      | cons token rest => simp [kindAt, shut token rfl, TokenKind.ends]

/-- What is found is of the same kind, but for the ends of statements. -/
theorem Found.kind_iff {row first second : List Token} {count countTwin : Nat}
    (found : Found row first second count countTwin) {kind : TokenKind} (goes : kind.ends = false) :
    kindAt (row ++ first) count = kind ↔ kindAt (row ++ second) countTwin = kind := by
  cases found with
  | inside inside same =>
    subst same
    rw [kindAt_append_left inside, kindAt_append_left inside]
  | behind _ _ kinds => rw [kinds]
  | ends ends endsTwin =>
    have apart {other : TokenKind} (ends : other.ends = true) : other ≠ kind := by
      rintro rfl
      rw [ends] at goes
      cases goes
    exact iff_of_false (apart ends) (apart endsTwin)

/-- Behind a colon in the row stands the same kind, if a block is opened further on. -/
theorem Found.kindAt_succ_eq {row first second : List Token} {colon count countTwin : Nat}
    (found : Found row first second count countTwin) (inside : colon < row.length) (further : colon < count)
    (opens : kindAt (row ++ first) count = .leftBrace) :
    kindAt (row ++ first) (colon + 1) = kindAt (row ++ second) (colon + 1) := by
  cases found with
  | inside within _ =>
    have next : colon + 1 < row.length := Nat.lt_of_le_of_lt further within
    rw [kindAt_append_left next, kindAt_append_left next]
  | behind _ _ _ blank blankTwin =>
    rcases Nat.lt_or_eq_of_le (Nat.succ_le_of_lt inside) with next | last
    · rw [kindAt_append_left next, kindAt_append_left next]
    · have place : colon + 1 = row.length + 0 := last
      rw [place, kindAt_append_right, kindAt_append_right, blank, blankTwin]
  | ends ends =>
    rw [opens] at ends
    cases ends

/-- A name has no blanks in it, so it does not go on behind them. -/
theorem all_take_eq_false {row tail : List Token} {count : Nat} (far : row.length < count)
    (blank : kindAt tail 0 = .whitespace) :
    ((row ++ tail).take count).all (fun token => token.kind ≠ .whitespace) = false := by
  cases tail with
  | nil => cases blank
  | cons token tail =>
    obtain ⟨more, rfl⟩ := Nat.exists_eq_add_of_lt far
    have kind : token.kind = .whitespace := by simpa [kindAt] using blank
    rw [Nat.add_assoc, List.take_length_add_append, List.take_succ_cons, List.all_append, List.all_cons]
    simp [kind]

/-- Blanks and semicolons tell no declaration from a rule where it matters. -/
theorem declares_eq {row first second : List Token} (seam : Seam [] row first second) (some : row ≠ []) :
    declares (row ++ first) = declares (row ++ second) := by
  have start : kindAt (row ++ first) 0 = kindAt (row ++ second) 0 := by
    have inside : 0 < row.length := List.length_pos_of_ne_nil some
    rw [kindAt_append_left inside, kindAt_append_left inside]
  have name : Found row first second (scanFrom propertyStops [] (row ++ first))
      (scanFrom propertyStops [] (row ++ second)) := found_of_seam ⟨by decide, by decide⟩ (by decide) seam
  have head : Found row first second (scanFrom headStops [] (row ++ first))
      (scanFrom headStops [] (row ++ second)) := found_of_seam ⟨by decide, by decide⟩ (by decide) seam
  have fewer : headStops ⊆ propertyStops := by decide
  have further := scanFrom_mono fewer [] (row ++ first)
  unfold declares
  rw [start]
  generalize scanFrom propertyStops [] (row ++ first) = colon at name further
  generalize scanFrom propertyStops [] (row ++ second) = colonTwin at name
  generalize scanFrom headStops [] (row ++ first) = final at head further
  generalize scanFrom headStops [] (row ++ second) = finalTwin at head
  have colons := name.kind_iff (rfl : TokenKind.colon.ends = false)
  have braces := head.kind_iff (rfl : TokenKind.leftBrace.ends = false)
  dsimp only
  by_cases declared : kindAt (row ++ first) colon = .colon
  swap
  · rw [if_pos declared, if_pos (mt colons.mpr declared)]
  rw [if_neg (not_not.mpr declared), if_neg (not_not.mpr (colons.mp declared))]
  by_cases opens : kindAt (row ++ first) final = .leftBrace
  swap
  · rw [if_pos opens, if_pos (mt braces.mpr opens)]
  rw [if_neg (not_not.mpr opens), if_neg (not_not.mpr (braces.mp opens))]
  cases name with
  | inside inside same =>
    subst same
    have apart : colon ≠ final := by
      rintro rfl
      rw [declared] at opens
      cases opens
    have next := head.kindAt_succ_eq inside (Nat.lt_of_le_of_ne further apart) opens
    rw [List.take_append_of_le_length inside.le, List.take_append_of_le_length inside.le, next]
  | behind far farTwin _ blank blankTwin =>
    rw [all_take_eq_false far blank, all_take_eq_false farTwin blankTwin]
    simp
  | ends ends =>
    rw [declared] at ends
    cases ends

/-- Both take a statement for a declaration, or for a rule. -/
theorem unison_startsDeclaration {α : Type} {seams : Seams} {lined : Prop} {cursor other : Cursor}
    (near : cursor.Near seams lined [] other) (fertile : cursor.current.kind.isBarren = false)
    {goal : α → α → Cursor → Cursor → Prop} {next nextTwin : Bool → Parser α}
    (rest : ∀ found, Unison goal (next found) cursor (nextTwin found) other) :
    Unison goal (Blocks.startsDeclaration >>= next) cursor (Blocks.startsDeclaration >>= nextTwin) other := by
  have same : declares cursor.ahead = declares other.ahead := by
    rcases near.rows with same | ⟨row, first, second, allowed, seam, ahead, also⟩
    · rw [same]
    · rw [ahead, also]
      apply declares_eq seam
      rintro rfl
      have halt : cursor.Halt seams [] other := .inr (by rw [ahead, also]; exact ⟨allowed, seam⟩)
      rw [halt.barren.1] at fertile
      cases fertile
  apply Unison.of_eq (Parser.bind_of_ok (startsDeclaration_eq cursor))
    (Parser.bind_of_ok (startsDeclaration_eq other))
  rw [same]
  exact (rest _).outcome

end Grammar

/-! The grammar of statements in unison. A statement ends at a seam for both runs, and what is left there,
blanks, silent comments and a semicolon, is passed before the next one. -/

def Token.isVoid (token : Token) : Bool := token.isIdle || token.kind = .semicolon

namespace Cursor

/-- Rows that start with different tokens of which no statement is made, and are the same behind them. -/
def Past (cursor other : Cursor) : Prop :=
  ∃ gap more rest, (∀ token ∈ gap, token.isVoid = true) ∧ (∀ token ∈ more, token.isVoid = true) ∧
    cursor.ahead = gap ++ rest ∧ other.ahead = more ++ rest

/-- Cursors behind a statement. -/
def Here (seams : Seams) (cursor other : Cursor) : Prop :=
  cursor.Near seams True [] other ∨ seams = .any ∧ cursor.last.line = other.last.line ∧ cursor.Past other

theorem skipTrivia_line (cursor : Cursor) :
    cursor.skipTrivia.current.line = ((firstVisible? cursor.ahead).map Token.line).getD cursor.last.line := by
  rw [current_skipTrivia, significant, List.drop_zero, firstVisible?]
  cases cursor.ahead.find? fun token => !token.isTrivia <;> rfl

theorem skipTrivia_kind (cursor : Cursor) :
    cursor.skipTrivia.current.kind = ((firstVisible? cursor.ahead).map Token.kind).getD .endOfInput := by
  rw [current_skipTrivia, significant, List.drop_zero, firstVisible?]
  cases cursor.ahead.find? fun token => !token.isTrivia with
  | none => exact cursor.last_kind
  | some token => rfl

theorem Halt.ne_rightBrace {seams : Seams} {opened : List TokenKind} {cursor other : Cursor}
    (halt : Halt seams opened cursor other) : cursor.current.kind ≠ .rightBrace := by
  rcases halt with ⟨none, -⟩ | ⟨-, seam⟩
  · exact (idles_of_nil none).ne nofun rfl
  · have parted := seam.parted
    generalize ahead : cursor.ahead = first at parted
    generalize aheadOther : other.ahead = second at parted
    cases parted with
    | loose loose => exact (idles_of_loose (ahead ▸ aheadOther ▸ loose)).1.ne nofun rfl
    | lacking semicolon =>
      rw [current_of_cons ahead, semicolon]
      exact nofun

namespace Near

variable {seams : Seams} {lined : Prop} {opened : List TokenKind} {cursor other : Cursor}
  (near : cursor.Near seams lined opened other)

include near

/-- What comes first behind a token, before the seam or at it. -/
theorem firstVisible?_behind {α : Type} {read : Token → α} (goes : ¬ Halt seams opened cursor other)
    (shown : cursor.current.isTrivia = false)
    (same : ∀ row first second, Seam opened row first second → cursor.current ∈ lastVisible? row →
      (firstVisible? first).map read = (firstVisible? second).map read) :
    (firstVisible? (cursor.advance 1).ahead).map read = (firstVisible? (other.advance 1).ahead).map read := by
  rcases near.rows with equal | ⟨row, first, second, allowed, seam, ahead, also⟩
  · rw [ahead_advance, ahead_advance, equal]
  cases row with
  | nil => exact absurd (.inr (by rw [ahead, also]; exact ⟨allowed, seam⟩)) goes
  | cons token row =>
    rw [current_of_cons ahead] at shown same
    rw [List.cons_append] at ahead also
    rw [ahead_advance_one ahead, ahead_advance_one also, firstVisible?, firstVisible?, List.find?_append,
      List.find?_append]
    cases found : row.find? fun token => !token.isTrivia with
    | some next => rfl
    | none =>
      have none : lastVisible? row = none := by
        rw [lastVisible?, List.getLast?_eq_none_iff, List.filter_eq_nil_iff]
        intro token member
        simpa using List.find?_eq_none.mp found token member
      exact same _ first second seam (by rw [lastVisible?_cons, none, shown]; rfl)

/-- Behind a colon, or an at-keyword that text may follow, both go on in the same line. -/
theorem line_behind (holds : lined) (asks : cursor.current.kind = .colon ∨
      cursor.current.kind = .atKeyword ∧ Text.lower cursor.current.name ≠ "content") :
    (cursor.advance 1).skipTrivia.current.line = (other.advance 1).skipTrivia.current.line := by
  have kind : cursor.current.kind = .colon ∨ cursor.current.kind = .atKeyword := asks.imp_right And.left
  have goes : ¬ Halt seams opened cursor other := by
    intro halt
    have barren := halt.barren.1
    rcases kind with kind | kind <;> rw [kind] at barren <;> cases barren
  have shown : cursor.current.isTrivia = false := by
    rcases kind with kind | kind <;> rw [Token.isTrivia, kind] <;> rfl
  rw [skipTrivia_line, skipTrivia_line, last_advance, last_advance, near.line holds,
    near.firstVisible?_behind goes shown fun row first second seam last => seam.lines _ last asks]

/-- Behind a brace both see the same kind of token. -/
theorem kind_behind (brace : cursor.current.kind = .leftBrace ∨ cursor.current.kind = .rightBrace) :
    (cursor.advance 1).skipTrivia.current.kind = (other.advance 1).skipTrivia.current.kind := by
  have goes : ¬ Halt seams opened cursor other := by
    intro halt
    rcases brace with opening | closing
    · have barren := halt.barren.1
      rw [opening] at barren
      cases barren
    · exact halt.ne_rightBrace closing
  have shown : cursor.current.isTrivia = false := by
    rcases brace with kind | kind <;> rw [Token.isTrivia, kind] <;> rfl
  have ends : cursor.current.kind = .leftBrace ∨ cursor.current.kind.ends = true := by
    refine brace.imp_right fun kind => ?_
    rw [kind]
    rfl
  rw [skipTrivia_kind, skipTrivia_kind,
    near.firstVisible?_behind goes shown fun row first second seam last => seam.kinds _ last ends]

omit near in
/-- A seam with nothing but blanks in front of it is passed. -/
theorem past_of_seam {cursor other : Cursor} {row first second : List Token} (seam : Seam [] row first second)
    (void : ∀ token ∈ row, token.isVoid = true) (ahead : cursor.ahead = row ++ first)
    (also : other.ahead = row ++ second) : cursor.Past other := by
  have idle {gap : List Token} (idle : ∀ token ∈ gap, token.isIdle = true) :
      ∀ token ∈ row ++ gap, token.isVoid = true := by
    intro token member
    rcases List.mem_append.mp member with blank | blank
    · exact void token blank
    · rw [Token.isVoid, idle token blank, Bool.true_or]
  cases seam.parted with
  | loose loose =>
    cases loose with
    | @blank gap more idleGap idleMore _ _ rest =>
      exact ⟨row ++ gap, row ++ more, rest, idle idleGap, idle idleMore, by rw [ahead, List.append_assoc],
        by rw [also, List.append_assoc]⟩
    | ended idleGap idleMore =>
      exact ⟨row ++ first, row ++ second, [], idle idleGap, idle idleMore, by rw [ahead, List.append_nil],
        by rw [also, List.append_nil]⟩
  | @lacking mark semicolon gap more rest idleGap idleMore _ =>
    refine ⟨row ++ mark :: gap, row ++ more, rest, ?_, idle idleMore, by rw [ahead]; simp,
      by rw [also, List.append_assoc]⟩
    intro token member
    rcases List.mem_append.mp member with blank | member
    · exact void token blank
    rcases List.mem_cons.mp member with rfl | blank
    · simp [Token.isVoid, semicolon]
    · rw [Token.isVoid, idleGap token blank, Bool.true_or]

omit near in
/-- Before a statement, the seam is further on, or only what is passed is left before the same row. -/
theorem past_or_near {cursor other : Cursor} (near : cursor.Near .any True [] other) :
    cursor.Past other ∨ cursor.skipBlank.Near .any True [] other.skipBlank ∧
      other.skipBlank.current = cursor.skipBlank.current ∧
      (cursor.skipBlank.advance 1).Near .any True (Grammar.openBehind [] cursor.skipBlank.current.kind)
        (other.skipBlank.advance 1) := by
  have line (count : Nat) : True → (cursor.skipBlank.advance count).last.line =
      (other.skipBlank.advance count).last.line := by
    simpa [skipBlank, skipWhile] using near.line
  rcases near.rows with same | ⟨row, first, second, -, seam, ahead, also⟩
  · exact .inl ⟨[], [], cursor.ahead, List.forall_mem_nil _, List.forall_mem_nil _, rfl, same.symm⟩
  have cut : row.takeWhile (fun token => token.kind = .whitespace) ++
      row.dropWhile (fun token => token.kind = .whitespace) = row := List.takeWhile_append_dropWhile
  cases behind : row.dropWhile fun token => token.kind = .whitespace with
  | nil =>
    left
    have void : ∀ token ∈ row, token.isVoid = true := by
      intro token member
      have blank := List.dropWhile_eq_nil_iff.mp behind token member
      simp [Token.isVoid, Token.isIdle, of_decide_eq_true blank]
    exact past_of_seam seam void ahead also
  | cons token rest =>
    right
    have shorter : Seam [] (token :: rest) first second := by
      have dropped := seam.drop (row.takeWhile fun token => token.kind = .whitespace).length
      rw [← behind]
      rw [← cut, List.drop_left' (by rw [cut])] at dropped
      exact dropped
    have cutOwn : cursor.skipBlank.ahead = token :: (rest ++ first) := by
      rw [ahead_skipBlank, ahead, List.dropWhile_append, behind]
      rfl
    have cutTwin : other.skipBlank.ahead = token :: (rest ++ second) := by
      rw [ahead_skipBlank, also, List.dropWhile_append, behind]
      rfl
    refine ⟨⟨line 0, .inr ⟨token :: rest, first, second, trivial, shorter, cutOwn, cutTwin⟩⟩, ?_, line 1, .inr ?_⟩
    · rw [current_of_cons cutOwn, current_of_cons cutTwin]
    · rw [current_of_cons cutOwn]
      exact ⟨rest, first, second, trivial, shorter.tail, ahead_advance_one cutOwn, ahead_advance_one cutTwin⟩

end Near

end Cursor

namespace Grammar

open Scss.Parser (Unison Meets Level Round Agrees)

/-- The same value, at cursors behind a statement. -/
def Behind {α : Type} (seams : Seams) (value another : α) (cursor other : Cursor) : Prop :=
  value = another ∧ cursor.Here seams other

def Closed {α : Type} (seams : Seams) (value another : α) (cursor other : Cursor) : Prop :=
  value = another ∧ cursor.Near seams True [] other ∧
    cursor.skipTrivia.current.kind = other.skipTrivia.current.kind

namespace Blocks

section Rules

variable {α : Type} {seams : Seams} {cursor other : Cursor} {goal : α → α → Cursor → Cursor → Prop}
  (near : cursor.Near seams True [] other)

include near

/-- The semicolon behind a statement is passed, where it is. -/
theorem acceptMark {next nextTwin : Bool → Parser α}
    (rest : ∀ found foundTwin after afterTwin, after.Here seams afterTwin →
      Unison goal (next found) after (nextTwin foundTwin) afterTwin) :
    Unison goal (Parser.accept .semicolon >>= next) cursor (Parser.accept .semicolon >>= nextTwin) other := by
  have both (missing : cursor.current.kind ≠ .semicolon) (missingTwin : other.current.kind ≠ .semicolon) :
      Unison goal (Parser.accept .semicolon >>= next) cursor (Parser.accept .semicolon >>= nextTwin) other :=
    .of_eq (Parser.bind_of_ok (Parser.accept_of_ne missing)) (Parser.bind_of_ok (Parser.accept_of_ne missingTwin))
      (rest _ _ _ _ (.inl near)).outcome
  rcases near.sees with ⟨same, behind⟩ | ⟨none, also⟩ | ⟨allowed, seam⟩
  · by_cases found : cursor.current.kind = .semicolon
    · rw [found] at behind
      exact .of_eq (Parser.bind_of_ok (Parser.accept_of_eq found))
        (Parser.bind_of_ok (Parser.accept_of_eq (same ▸ found))) (rest _ _ _ _ (.inl behind)).outcome
    · exact both found (same ▸ found)
  · exact both ((Cursor.idles_of_nil none).ne nofun rfl) ((Cursor.idles_of_nil also).ne nofun rfl)
  have parted := seam.parted
  generalize ahead : cursor.ahead = first at parted allowed
  generalize aheadTwin : other.ahead = second at parted allowed
  cases parted with
  | loose loose =>
    obtain ⟨own, also⟩ := Cursor.idles_of_loose (ahead ▸ aheadTwin ▸ loose)
    exact both (own.ne nofun rfl) (also.ne nofun rfl)
  | @lacking mark semicolon gap more rest' idle idleAlso shut =>
    have found : cursor.current.kind = .semicolon := by rw [Cursor.current_of_cons ahead, semicolon]
    have missing : other.current.kind ≠ .semicolon := Cursor.ne_semicolon_of_shut aheadTwin idleAlso shut
    apply Unison.of_eq (Parser.bind_of_ok (Parser.accept_of_eq found))
      (Parser.bind_of_ok (Parser.accept_of_ne missing))
    refine (rest _ _ _ _ (.inr ⟨Seams.any_of_lacking allowed semicolon, ?_, ?_⟩)).outcome
    · simpa using near.line trivial
    · have void {gap : List Token} (idle : ∀ token ∈ gap, token.isIdle = true) :
          ∀ token ∈ gap, token.isVoid = true :=
        fun token member => by rw [Token.isVoid, idle token member, Bool.true_or]
      exact ⟨gap, more, rest', void idle, void idleAlso, Cursor.ahead_advance_one ahead, aheadTwin⟩

theorem finishMark {next nextTwin : Unit → Parser α}
    (rest : ∀ after afterTwin, after.Here seams afterTwin →
      Unison goal (next ()) after (nextTwin ()) afterTwin) :
    Unison goal (finish >>= next) cursor (finish >>= nextTwin) other := by
  have whole : Unison (Behind seams) finish cursor finish other := by
    apply near.skip
    intro near
    apply acceptMark near
    intro _ _ after afterTwin here
    exact .done ⟨rfl, here⟩
  apply whole.bind
  rintro _ _ after afterTwin ⟨-, here⟩
  exact rest after afterTwin here

end Rules

/-- Raw text up to the end of a head or a value, and what comes behind it. -/
theorem unison_text {self twin : Self} (inner : ∀ form, Level (self form) (twin form)) {α : Type}
    {seams : Seams} {lined : Prop} {goal : α → α → Cursor → Cursor → Prop} {cursor other : Cursor}
    (near : cursor.Near seams lined [] other) {stops : List TokenKind} (universal : Universal stops)
    (visible : ∀ kind ∈ stops, kind.isTrivia = false) {dollars : Bool}
    (line : cursor.current.line = other.current.line) {next nextTwin : Template → Parser α}
    (rest : ∀ text after afterTwin, after.Near seams lined [] afterTwin →
      Unison goal (next text) after (nextTwin text) afterTwin) :
    Unison goal (raw self stops dollars >>= next) cursor (raw twin stops dollars >>= nextTwin) other := by
  apply (unison_raw inner visible dollars near (fun _ => universal) line).bind
  rintro text _ after afterTwin ⟨rfl, near⟩
  exact rest text after afterTwin near

theorem expectWord_unison {α : Type} {seams : Seams} {lined : Prop} {opened : List TokenKind}
    {goal : α → α → Cursor → Cursor → Prop} {cursor other : Cursor}
    (near : cursor.Near seams lined opened other) {word : String} {next nextTwin : Unit → Parser α}
    (rest : ∀ after afterTwin, after.Near seams lined opened afterTwin →
      Unison goal (next ()) after (nextTwin ()) afterTwin) :
    Unison goal (expectWord word >>= next) cursor (expectWord word >>= nextTwin) other := by
  have whole : Unison (Meets seams lined opened) (expectWord word) cursor (expectWord word) other := by
    apply near.acceptWord
    · intro _ near
      exact .done ⟨rfl, near⟩
    · exact .unexpected
  apply whole.bind
  rintro _ _ after afterTwin ⟨-, near⟩
  exact rest after afterTwin near

section Statements

variable {b twin : Blocks} (inner : ∀ form, Level (b.self form) (twin.self form)) {seams : Seams}
  (block : ∀ cursor other : Cursor, cursor.Near seams True [] other →
    Unison (Closed seams) b.block cursor twin.block other) {cursor other : Cursor}
  (near : cursor.Near seams True [] other)

include near

/-- A block, and what comes behind it. -/
theorem unison_block {α : Type} {goal : α → α → Cursor → Cursor → Prop}
    (block : ∀ cursor other : Cursor, cursor.Near seams True [] other →
      Unison (Closed seams) b.block cursor twin.block other)
    {next nextTwin : List Statement → Parser α}
    (rest : ∀ body after afterTwin, after.Near seams True [] afterTwin →
      after.skipTrivia.current.kind = afterTwin.skipTrivia.current.kind →
      Unison goal (next body) after (nextTwin body) afterTwin) :
    Unison goal (b.block >>= next) cursor (twin.block >>= nextTwin) other := by
  apply (block cursor other near).bind
  rintro body _ after afterTwin ⟨rfl, near, kinds⟩
  exact rest body after afterTwin near kinds

include inner

theorem unison_assignment (qualifier : Option String) :
    Unison (Behind seams) (b.assignment qualifier) cursor (twin.assignment qualifier) other := by
  apply near.expect rfl
  intro _ near
  generalize cursor.current = token
  apply near.skip
  intro near
  apply near.expect rfl
  intro _ near
  apply near.skip
  intro near
  apply unison_takeTo near ⟨by decide, by decide⟩ (by decide) (Cursor.visible_skipTrivia _)
    (Cursor.visible_skipTrivia _)
  intro tokens others after afterTwin excerpts near
  obtain ⟨flags, kept⟩ := excerpts.splitFlags
  dsimp only
  apply unison_valueOf inner kept
  intro value
  apply acceptMark near
  intro _ _ after afterTwin here
  rw [flags]
  exact .done ⟨rfl, here⟩

theorem unison_customProperty :
    Unison (Behind seams) b.customProperty cursor twin.customProperty other := by
  apply near.expect rfl
  intro _ near
  generalize cursor.current = name
  apply near.skip
  intro near
  apply near.expect rfl
  intro colon behind
  have line := near.line_behind trivial (.inl colon)
  apply behind.skip
  intro near
  apply unison_text inner near ⟨by decide, by decide⟩ (by decide) line
  intro value after afterTwin near
  apply acceptMark near
  intro _ _ after afterTwin here
  exact .done ⟨rfl, here⟩

theorem unison_importStatement (line : Nat) (shown : cursor.current.isTrivia = false)
    (shownTwin : other.current.isTrivia = false) :
    Unison (Behind seams) (b.importStatement line) cursor (twin.importStatement line) other := by
  apply unison_takeTo near ⟨by decide, by decide⟩ (by decide) shown shownTwin
  intro tokens others after afterTwin excerpts near
  apply acceptMark near
  intro _ _ after afterTwin here
  have visible := excerpts.cuts.filter_eq
  dsimp only
  rw [visible]
  apply Unison.ite Iff.rfl
  · intro _
    exact .done ⟨rfl, here⟩
  · intro _
    apply unison_rawOf inner excerpts
    intro text
    exact .done ⟨rfl, here⟩

theorem unison_extendStatement (line : Nat) (shown : cursor.current.isTrivia = false)
    (shownTwin : other.current.isTrivia = false) :
    Unison (Behind seams) (b.extendStatement line) cursor (twin.extendStatement line) other := by
  apply unison_takeTo near ⟨by decide, by decide⟩ (by decide) shown shownTwin
  intro tokens others after afterTwin excerpts near
  obtain ⟨flags, kept⟩ := excerpts.splitFlags
  dsimp only
  apply unison_rawOf inner kept
  intro selector
  apply acceptMark near
  intro _ _ after afterTwin here
  rw [flags]
  exact .done ⟨rfl, here⟩

theorem unison_messageStatement (kind : MessageKind) (line : Nat) :
    Unison (Behind seams) (b.messageStatement kind line) cursor (twin.messageStatement kind line) other := by
  apply near.andThen (level_expression inner)
  intro value after afterTwin near
  apply finishMark near
  intro after afterTwin here
  exact .done ⟨rfl, here⟩

include block

theorem unison_styleRule (same : other.current = cursor.current) :
    Unison (Behind seams) b.styleRule cursor twin.styleRule other := by
  apply Unison.current
  rw [same]
  apply unison_text inner near ⟨by decide, by decide⟩ (by decide) (by rw [same])
  intro text after afterTwin near
  apply Unison.ite Iff.rfl
  · intro _
    exact .unexpected
  · intro _
    apply unison_block near block
    intro body after afterTwin near _
    exact .done ⟨rfl, .inl near⟩

theorem unison_declaration (same : other.current = cursor.current) :
    Unison (Behind seams) b.declaration cursor twin.declaration other := by
  apply Unison.current
  rw [same]
  apply unison_text inner near ⟨by decide, by decide⟩ (by decide) (by rw [same])
  intro property after afterTwin near
  apply near.expect rfl
  intro _ near
  apply near.skip
  intro near
  apply unison_takeTo near ⟨by decide, by decide⟩ (by decide) (Cursor.visible_skipTrivia _)
    (Cursor.visible_skipTrivia _)
  intro tokens others after afterTwin excerpts near
  apply (unison_declarationValue inner excerpts near).bind
  rintro ⟨value, important⟩ _ after afterTwin ⟨rfl, near⟩
  apply near.at_ rfl
  intro opens _
  apply Unison.ite Iff.rfl
  · intro _
    apply unison_block near block
    intro body after afterTwin near _
    exact .done ⟨rfl, .inl near⟩
  intro _
  apply Unison.ite Iff.rfl
  · intro _
    exact .unexpected
  · intro _
    apply acceptMark near
    intro _ _ after afterTwin here
    exact .done ⟨rfl, here⟩

theorem unison_ruleOrDeclaration (fertile : cursor.current.kind.isBarren = false) :
    Unison (Behind seams) b.ruleOrDeclaration cursor twin.ruleOrDeclaration other := by
  obtain ⟨same, behind⟩ := near.pass fertile rfl
  apply Unison.current
  rw [same]
  apply Unison.significant
  rw [Cursor.significant_eq, Cursor.significant_eq]
  apply Unison.ite
  · simp only [Bool.and_eq_true, decide_eq_true_eq]
    refine and_congr_right fun custom => ?_
    exact behind.skipTrivia.kind_iff rfl
  · intro _
    exact unison_customProperty inner near
  · intro _
    apply unison_startsDeclaration near fertile
    intro declares
    apply Unison.ite Iff.rfl
    · intro _
      exact unison_declaration inner block near same
    · intro _
      exact unison_styleRule inner block near same

theorem unison_elseBranches (first : Branch Statement) :
    Unison (Behind seams) (b.elseBranches first) cursor (twin.elseBranches first) other := by
  apply Unison.loop (fun _ cursor other => cursor.Near seams True [] other) _ near
  intro branches cursor other before
  apply Unison.get
  apply before.skip
  intro near
  apply Unison.current
  have keyword : (cursor.skipTrivia.current.kind = .atKeyword ∧
      Text.same cursor.skipTrivia.current.text "@else" = true) ↔
      (other.skipTrivia.current.kind = .atKeyword ∧
        Text.same other.skipTrivia.current.text "@else" = true) := by
    constructor
    · rintro ⟨found, word⟩
      rw [(near.pass rfl found).1]
      exact ⟨found, word⟩
    · rintro ⟨found, word⟩
      have own := (near.kind_iff rfl).mpr found
      rw [(near.pass rfl own).1] at word
      exact ⟨own, word⟩
  apply Unison.ite
  · simp only [Bool.not_eq_true', Bool.and_eq_false_iff, decide_eq_false_iff_not]
    rw [← not_iff_not]
    simpa using keyword
  · intro _
    exact .set (.done ⟨rfl, .inl before⟩)
  intro found
  simp only [Bool.not_eq_true', Bool.not_eq_false, Bool.and_eq_true, decide_eq_true_eq] at found
  obtain ⟨same, behind⟩ := near.pass rfl found.1
  rw [same]
  apply Unison.advance
  apply behind.skip
  intro near
  apply near.acceptWord
  · intro _ near
    apply near.andThen (level_expression inner)
    intro test after afterTwin near
    apply unison_block near block
    intro body after afterTwin near _
    exact .done ⟨rfl, near⟩
  · apply unison_block near block
    intro body after afterTwin near _
    exact .done ⟨rfl, .inl near⟩

theorem unison_ifStatement (line : Nat) :
    Unison (Behind seams) (b.ifStatement line) cursor (twin.ifStatement line) other := by
  apply near.andThen (level_expression inner)
  intro test after afterTwin near
  apply unison_block near block
  intro body after afterTwin near _
  apply (unison_elseBranches inner block near _).bind
  rintro branches _ after afterTwin ⟨rfl, here⟩
  exact .done ⟨rfl, here⟩

theorem unison_eachStatement (line : Nat) :
    Unison (Behind seams) (b.eachStatement line) cursor (twin.eachStatement line) other := by
  apply Unison.loopThen (fun _ cursor other => cursor.Near seams True [] other) (Meets seams True []) _ near
  · rintro targets _ after afterTwin ⟨rfl, near⟩
    apply expectWord_unison near
    intro after afterTwin near
    apply near.andThen (level_expression inner)
    intro list after afterTwin near
    apply unison_block near block
    intro body after afterTwin near _
    exact .done ⟨rfl, .inl near⟩
  · intro names cursor other near
    apply near.expect rfl
    intro _ near
    generalize cursor.current = token
    apply near.skip
    intro near
    apply near.accept rfl
    · intro near
      apply near.skip
      intro near
      exact .done ⟨rfl, near⟩
    · exact .done ⟨rfl, near⟩

theorem unison_forStatement (line : Nat) :
    Unison (Behind seams) (b.forStatement line) cursor (twin.forStatement line) other := by
  apply near.expect rfl
  intro _ near
  generalize cursor.current = token
  apply near.skip
  intro near
  apply expectWord_unison near
  intro after afterTwin near
  apply near.andThen (level_commaList inner _)
  intro first after afterTwin near
  apply near.skip
  intro near
  apply near.atWord
  intro inclusive through
  apply near.atWord
  intro exclusive ending
  apply Unison.ite Iff.rfl
  · intro _
    exact .unexpected
  · intro stands
    have word : (after.skipTrivia.advance 1).Near seams True [] (afterTwin.skipTrivia.advance 1) := by
      cases inclusive with
      | true => exact near.passWord through
      | false =>
        cases exclusive with
        | true => exact near.passWord ending
        | false => exact absurd rfl stands
    apply Unison.advance
    apply word.skip
    intro near
    apply near.andThen (level_expression inner)
    intro last after afterTwin near
    apply unison_block near block
    intro body after afterTwin near _
    exact .done ⟨rfl, .inl near⟩

end Statements

end Blocks

end Grammar

end Scss
