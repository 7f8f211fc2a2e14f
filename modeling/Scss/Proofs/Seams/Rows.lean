import Mathlib.Data.List.TakeWhile
import Scss.Proofs.Grammar.Boundaries

/-! Rows of tokens with a seam. Up to the seam two rows are the same. There one of them may have blanks and
silent comments that the other one lacks, or lack a semicolon, if a statement ends there without it; and
then they are the same again. -/
namespace Scss

def Token.isIdle (token : Token) : Bool := token.kind = .whitespace || token.isSilent

theorem Token.isTrivia_of_isIdle {token : Token} (idle : token.isIdle = true) : token.isTrivia = true := by
  simp only [isIdle, isSilent, Bool.or_eq_true, Bool.and_eq_true, decide_eq_true_eq] at idle
  rcases idle with blank | ⟨comment, -⟩
  · simp [isTrivia, blank, TokenKind.isTrivia]
  · simp [isTrivia, comment, TokenKind.isTrivia]

/-- Tokens for which it matters whether blanks follow: signs, and the word for negation. -/
def Token.looksAhead (token : Token) : Bool :=
  token.kind = .plus || token.kind = .minus || token.isWord "not"

namespace TokenKind

def ends : TokenKind → Bool
  | .semicolon => true
  | .rightBrace => true
  | .endOfInput => true
  | _ => false

/-- The kinds that do not belong to an expression. -/
def isBarren (kind : TokenKind) : Bool := kind.isTrivia || kind.ends

theorem isBarren_cases {kind : TokenKind} (barren : kind.isBarren = true) :
    kind = .whitespace ∨ kind = .comment ∨ kind = .semicolon ∨ kind = .rightBrace ∨ kind = .endOfInput := by
  cases kind <;> first | (cases barren; done) | simp

end TokenKind

def firstVisible? (row : List Token) : Option Token := row.find? fun token => !token.isTrivia

def lastVisible? (row : List Token) : Option Token := (row.filter fun token => !token.isTrivia).getLast?

/-- No statement goes on with this row: a closing brace comes first, or nothing. -/
def Shut (row : List Token) : Prop := ∀ token ∈ row.head?, token.kind = .rightBrace

/-- Rows that start with different blanks and silent comments, and are the same behind them. -/
inductive Loose : List Token → List Token → Prop where
  /-- Blanks come first in both. -/
  | blank {gap more : List Token} (idle : ∀ token ∈ gap, token.isIdle = true)
      (also : ∀ token ∈ more, token.isIdle = true) (starts : gap.head?.map Token.kind = some .whitespace)
      (startsAlso : more.head?.map Token.kind = some .whitespace) (rest : List Token) :
      Loose (gap ++ rest) (more ++ rest)
  /-- Nothing else comes. -/
  | ended {gap more : List Token} (idle : ∀ token ∈ gap, token.isIdle = true)
      (also : ∀ token ∈ more, token.isIdle = true) : Loose gap more

/-- What follows a seam in two rows. -/
inductive Parted : List Token → List Token → Prop where
  | loose {first second : List Token} (loose : Loose first second) : Parted first second
  /-- The second row lacks a semicolon. -/
  | lacking {mark : Token} (semicolon : mark.kind = .semicolon) {gap more rest : List Token}
      (idle : ∀ token ∈ gap, token.isIdle = true) (also : ∀ token ∈ more, token.isIdle = true)
      (shut : Shut rest) : Parted (mark :: (gap ++ rest)) (more ++ rest)

/-- The word that a prefix follows, and no star behind it. -/
def WordOpen (row : List Token) : Prop :=
  ∃ word rest, row = word :: rest ∧ word.isWord "as" = true ∧ ∀ token ∈ rest, token.kind ≠ .star

/-- An address with an open prefix behind it. -/
def AddressOpen (row : List Token) : Prop :=
  ∃ address gap rest, row = address :: (gap ++ rest) ∧ address.kind = .string ∧
    (∀ token ∈ gap, token.isTrivia = true) ∧ WordOpen rest

/-- The text that a module's members get in front of their names is open behind the row: it goes on to a
star, whatever comes before. -/
def PrefixOpen (row : List Token) : Prop :=
  ∃ before keyword gap rest, row = before ++ keyword :: (gap ++ rest) ∧ keyword.kind = .atKeyword ∧
    Text.lower keyword.name = "forward" ∧ (∀ token ∈ gap, token.isTrivia = true) ∧ AddressOpen rest

/-- Rows of nothing but blanks and silent comments. -/
def Ended (first second : List Token) : Prop :=
  (∀ token ∈ first, token.isIdle = true) ∧ ∀ token ∈ second, token.isIdle = true

inductive Seams where
  | absent
  | loose
  | any

def Seams.Allows (seams : Seams) (first second : List Token) : Prop :=
  match seams with
  | absent => False
  | loose => Loose first second
  | any => True

/-- A row up to a seam, and what follows. `opened` lists the brackets that are open before the row; none is
left open where a semicolon is lacking, and what the last token asks for is the same on both sides. -/
structure Seam (opened : List TokenKind) (row first second : List Token) : Prop where
  parted : Parted first second
  closed : Loose first second ∨ (row.map Token.kind).foldl Grammar.openBehind opened = []
  unprefixed : Ended first second ∨ ¬ PrefixOpen row
  sight : ∀ token ∈ row.getLast?, token.looksAhead = true →
    first.head?.map Token.kind = second.head?.map Token.kind
  /-- Behind a colon, or an at-keyword that text may follow, an empty text takes its line from here. -/
  lines : ∀ token ∈ lastVisible? row,
    token.kind = .colon ∨ token.kind = .atKeyword ∧ Text.lower token.name ≠ "content" →
    (firstVisible? first).map Token.line = (firstVisible? second).map Token.line
  kinds : ∀ token ∈ lastVisible? row, token.kind = .leftBrace ∨ token.kind.ends = true →
    (firstVisible? first).map Token.kind = (firstVisible? second).map Token.kind

theorem firstVisible?_eq (row : List Token) : firstVisible? row = (row.dropWhile Token.isTrivia).head? :=
  List.find?_not_eq_head?_dropWhile Token.isTrivia row

theorem lastVisible?_cons (token : Token) (row : List Token) : lastVisible? (token :: row) =
    if token.isTrivia then lastVisible? row else some ((lastVisible? row).getD token) := by
  cases trivia : token.isTrivia with
  | true => simp [lastVisible?, trivia]
  | false => simp [lastVisible?, trivia, List.getLast?_cons]

theorem dropWhile_gap {gap : List Token} (idle : ∀ token ∈ gap, token.isIdle = true) (rest : List Token) :
    (gap ++ rest).dropWhile Token.isTrivia = rest.dropWhile Token.isTrivia :=
  List.dropWhile_append_of_pos fun token member => Token.isTrivia_of_isIdle (idle token member)

theorem Shut.dropWhile_eq {rest : List Token} (shut : Shut rest) : rest.dropWhile Token.isTrivia = rest := by
  cases rest with
  | nil => rfl
  | cons token rest =>
    have brace : token.kind = .rightBrace := shut token rfl
    exact List.dropWhile_cons_of_neg (by simp [Token.isTrivia, brace, TokenKind.isTrivia])

/-- Behind blanks and comments nothing is left of the seam. -/
theorem Loose.dropWhile_eq {first second : List Token} (loose : Loose first second) :
    first.dropWhile Token.isTrivia = second.dropWhile Token.isTrivia := by
  cases loose with
  | blank idle also _ _ rest => rw [dropWhile_gap idle, dropWhile_gap also]
  | ended idle also =>
    have none {gap : List Token} (idle : ∀ token ∈ gap, token.isIdle = true) :
        gap.dropWhile Token.isTrivia = [] :=
      List.dropWhile_eq_nil_iff.mpr fun token member => Token.isTrivia_of_isIdle (idle token member)
    rw [none idle, none also]

/-- Blanks and comments do not start with a semicolon. -/
theorem Loose.ne_semicolon {mark : Token} {rest second : List Token} (loose : Loose (mark :: rest) second) :
    mark.kind ≠ .semicolon := by
  intro semicolon
  generalize whole : mark :: rest = first at loose
  cases loose with
  | @blank gap _ _ _ starts _ _ =>
    cases gap with
    | nil => cases starts
    | cons token gap =>
      obtain rfl := (List.cons.inj whole).1
      simp [semicolon] at starts
  | ended idle _ =>
    subst whole
    simpa [Token.isIdle, Token.isSilent, semicolon] using idle mark List.mem_cons_self

/-- A semicolon is lacking only where any seam is allowed. -/
theorem Seams.any_of_lacking {seams : Seams} {mark : Token} {rest second : List Token}
    (allowed : seams.Allows (mark :: rest) second) (semicolon : mark.kind = .semicolon) : seams = .any := by
  cases seams with
  | absent => exact allowed.elim
  | loose => exact absurd semicolon (Loose.ne_semicolon allowed)
  | any => rfl

theorem Loose.firstVisible?_eq {first second : List Token} (loose : Loose first second) :
    firstVisible? first = firstVisible? second := by
  rw [Scss.firstVisible?_eq, Scss.firstVisible?_eq, loose.dropWhile_eq]

namespace Grammar

/-- What is open behind a row, if more was open before it, is what the row itself leaves open, and of the
rest some. -/
theorem exists_foldl_openBehind (row : List TokenKind) (opened outer : List TokenKind) :
    ∃ rest, row.foldl openBehind (opened ++ outer) = row.foldl openBehind opened ++ rest := by
  induction row generalizing opened outer with
  | nil => exact ⟨outer, rfl⟩
  | cons kind row ih =>
    have step : ∃ less, openBehind (opened ++ outer) kind = openBehind opened kind ++ less := by
      cases opened with
      | nil => cases kind <;> exact ⟨_, rfl⟩
      | cons first opened =>
        refine ⟨outer, ?_⟩
        cases kind <;> try rfl
        rw [openBehind, openBehind, List.cons_append, List.head?_cons, List.head?_cons]
        split <;> rfl
    obtain ⟨less, shorter⟩ := step
    rw [List.foldl_cons, List.foldl_cons, shorter]
    exact ih _ less

theorem openBehind_of_isTrivia {kind : TokenKind} (trivia : kind.isTrivia = true)
    (opened : List TokenKind) : openBehind opened kind = opened := by
  cases kind <;> first | rfl | cases trivia

end Grammar

namespace Seam

variable {opened : List TokenKind} {token : Token} {row first second : List Token}

/-- A seam further on. -/
theorem tail (seam : Seam opened (token :: row) first second) :
    Seam (Grammar.openBehind opened token.kind) row first second where
  parted := seam.parted
  closed := seam.closed
  unprefixed := by
    refine seam.unprefixed.imp_right fun closed prefixed => closed ?_
    obtain ⟨before, keyword, gap, rest, rfl, facts⟩ := prefixed
    exact ⟨token :: before, keyword, gap, rest, rfl, facts⟩
  sight := by
    intro last found
    apply seam.sight last
    rw [List.getLast?_cons, Option.mem_def.mp found]
    rfl
  lines := by
    intro last found
    apply seam.lines last
    rw [lastVisible?_cons, Option.mem_def.mp found, Option.getD_some, ite_self]
    rfl
  kinds := by
    intro last found
    apply seam.kinds last
    rw [lastVisible?_cons, Option.mem_def.mp found, Option.getD_some, ite_self]
    rfl

/-- What was open before the row may be forgotten. -/
theorem reset (seam : Seam opened row first second) : Seam [] row first second where
  parted := seam.parted
  closed := by
    refine seam.closed.imp_right fun closed => ?_
    obtain ⟨rest, whole⟩ := Grammar.exists_foldl_openBehind (row.map Token.kind) [] opened
    rw [List.nil_append, closed] at whole
    exact (List.append_eq_nil_iff.mp whole.symm).1
  unprefixed := seam.unprefixed
  sight := seam.sight
  lines := seam.lines
  kinds := seam.kinds

/-- A seam behind blanks and comments that go. -/
theorem dropRow (seam : Seam opened row first second) :
    Seam opened (row.dropWhile Token.isTrivia) first second := by
  induction row with
  | nil => exact seam
  | cons token row ih =>
    by_cases trivia : token.isTrivia = true
    · rw [List.dropWhile_cons_of_pos trivia]
      apply ih
      rw [← Grammar.openBehind_of_isTrivia trivia opened]
      exact seam.tail
    · rwa [List.dropWhile_cons_of_neg trivia]

/-- A seam of blanks and comments. -/
theorem of_loose (loose : Loose first second) (unprefixed : Ended first second ∨ ¬ PrefixOpen row)
    (sight : ∀ token ∈ row.getLast?, token.looksAhead = true →
      first.head?.map Token.kind = second.head?.map Token.kind) : Seam opened row first second where
  parted := .loose loose
  closed := .inl loose
  unprefixed := unprefixed
  sight := sight
  lines _ _ _ := by rw [loose.firstVisible?_eq]
  kinds _ _ _ := by rw [loose.firstVisible?_eq]

/-- Nothing is open where a semicolon is lacking. -/
theorem foldl_of_lacking {mark : Token} (seam : Seam opened row (mark :: first) second)
    (semicolon : mark.kind = .semicolon) : (row.map Token.kind).foldl Grammar.openBehind opened = [] :=
  seam.closed.resolve_left fun loose => loose.ne_semicolon semicolon

/-- A seam where nothing is before it. -/
theorem of_nil (parted : Parted first second) : Seam [] [] first second where
  parted := parted
  closed := .inr rfl
  unprefixed := by
    right
    rintro ⟨before, _, _, _, shape, -⟩
    simp at shape
  sight := nofun
  lines := nofun
  kinds := nofun

/-- Blanks and comments that go before a seam, or at it. -/
theorem dropWhile {seams : Seams} (seam : Seam opened row first second) (allowed : seams.Allows first second) :
    (row ++ first).dropWhile Token.isTrivia = (row ++ second).dropWhile Token.isTrivia ∨
      ∃ less more, seams.Allows less more ∧ Seam opened (row.dropWhile Token.isTrivia) less more ∧
        (row ++ first).dropWhile Token.isTrivia = row.dropWhile Token.isTrivia ++ less ∧
        (row ++ second).dropWhile Token.isTrivia = row.dropWhile Token.isTrivia ++ more ∧
        (Ended first second → Ended less more) := by
  have less := seam.dropRow
  rw [List.dropWhile_append, List.dropWhile_append]
  by_cases none : (row.dropWhile Token.isTrivia).isEmpty = true
  · rw [if_pos none, if_pos none]
    cases seam.parted with
    | loose loose => exact .inl loose.dropWhile_eq
    | @lacking mark semicolon gap more rest idle also shut =>
      right
      have empty := List.isEmpty_iff.mp none
      have stays : (mark :: (gap ++ rest)).dropWhile Token.isTrivia = mark :: (gap ++ rest) :=
        List.dropWhile_cons_of_neg (by simp [Token.isTrivia, semicolon, TokenKind.isTrivia])
      have goes : (more ++ rest).dropWhile Token.isTrivia = rest := by
        rw [dropWhile_gap also, shut.dropWhile_eq]
      have closed : opened = [] := by
        rw [empty] at less
        exact less.foldl_of_lacking semicolon
      have holds : seams.Allows (mark :: (gap ++ rest)) rest := by
        rw [Seams.any_of_lacking allowed semicolon]
        trivial
      have parted : Parted (mark :: (gap ++ rest)) ([] ++ rest) := .lacking semicolon idle (List.forall_mem_nil _) shut
      rw [stays, goes, empty]
      refine ⟨_, rest, holds, closed ▸ .of_nil parted, rfl, rfl, fun ended => ?_⟩
      have idleMark := ended.1 mark List.mem_cons_self
      simp [Token.isIdle, Token.isSilent, semicolon] at idleMark
  · rw [if_neg none, if_neg none]
    exact .inr ⟨first, second, allowed, less, rfl, rfl, id⟩

end Seam

/-! Two runs of a parser in unison, over rows that are the same or have a seam: both fail, or both come to
the same value. A run that reaches a bound is left out of account. There is one rule for each way to put
parsers together; what stands at the seam belongs to no expression, so most rules only have to look at the
row before it. -/

namespace Cursor

@[simp]
theorem last_skipTrivia (cursor : Cursor) : cursor.skipTrivia.last = cursor.last := last_advance ..

/-- A blank or comment that is passed would have been skipped. -/
theorem skipTrivia_advance {cursor : Cursor} (trivia : cursor.current.isTrivia = true) :
    (cursor.advance 1).skipTrivia = cursor.skipTrivia := by
  have proper : cursor.current.kind ≠ .endOfInput := by
    intro ends
    simp [Token.isTrivia, ends, TokenKind.isTrivia] at trivia
  rw [skipTrivia, skipWhile, advance_advance, skipTrivia, skipWhile, ahead_eq proper,
    List.takeWhile_cons_of_pos trivia, List.length_cons, Nat.add_comm]

theorem skipTrivia_eq {cursor : Cursor} (visible : cursor.current.isTrivia = false) : cursor.skipTrivia = cursor := by
  cases ahead : cursor.ahead with
  | nil =>
    rw [skipTrivia, skipWhile, ahead]
    rfl
  | cons token rest =>
    rw [current_of_cons ahead] at visible
    exact skipTrivia_of_visible ahead visible

/-- Behind blanks and comments stands something else. -/
theorem visible_skipTrivia (cursor : Cursor) : cursor.skipTrivia.current.isTrivia = false := by
  rw [current_skipTrivia, significant]
  cases found : (cursor.ahead.drop 0).find? fun token => !token.isTrivia with
  | none => simp [Token.isTrivia, cursor.last_kind, TokenKind.isTrivia]
  | some token => simpa using List.find?_some found

/-- Cursors before rows that are the same or have a seam. If they are to be lined, the input ends on the same
line. -/
structure Near (seams : Seams) (lined : Prop) (opened : List TokenKind) (cursor other : Cursor) : Prop where
  line : lined → cursor.last.line = other.last.line
  rows : cursor.ahead = other.ahead ∨ ∃ row first second, seams.Allows first second ∧
    Seam opened row first second ∧ cursor.ahead = row ++ first ∧ other.ahead = row ++ second

/-- Cursors at the end of their rows, or at the seam. -/
def Halt (seams : Seams) (opened : List TokenKind) (cursor other : Cursor) : Prop :=
  (cursor.ahead = [] ∧ other.ahead = []) ∨
    seams.Allows cursor.ahead other.ahead ∧ Seam opened [] cursor.ahead other.ahead

variable {seams : Seams} {lined : Prop} {opened : List TokenKind} {cursor other : Cursor}

theorem barren_of_gap {gap rest : List Token} (ahead : cursor.ahead = gap ++ rest)
    (idle : ∀ token ∈ gap, token.isIdle = true) (shut : Shut rest) :
    cursor.current.kind.isBarren = true := by
  rw [current, ahead]
  cases gap with
  | nil =>
    cases rest with
    | nil => simp [cursor.last_kind, TokenKind.isBarren, TokenKind.ends]
    | cons token rest =>
      have brace : token.kind = .rightBrace := shut token rfl
      simp [brace, TokenKind.isBarren, TokenKind.ends]
  | cons token gap =>
    have trivia : token.kind.isTrivia = true := Token.isTrivia_of_isIdle (idle token List.mem_cons_self)
    simp [trivia, TokenKind.isBarren]

theorem ahead_skipBlank (cursor : Cursor) :
    cursor.skipBlank.ahead = cursor.ahead.dropWhile fun token => token.kind = .whitespace := by
  generalize same : (fun token : Token => decide (token.kind = .whitespace)) = blank
  rw [skipBlank, skipWhile, ahead_advance, same]
  calc cursor.ahead.drop (cursor.ahead.takeWhile blank).length
    _ = (cursor.ahead.takeWhile blank ++ cursor.ahead.dropWhile blank).drop
        (cursor.ahead.takeWhile blank).length := by
      rw [List.takeWhile_append_dropWhile]
    _ = cursor.ahead.dropWhile blank := List.drop_left

theorem skipBlank_advance {cursor : Cursor} {token : Token} {rest : List Token} (ahead : cursor.ahead = token :: rest)
    (blank : token.kind = .whitespace) : cursor.skipBlank = (cursor.advance 1).skipBlank := by
  rw [skipBlank, skipWhile, ahead, List.takeWhile_cons_of_pos (by simp [blank]), List.length_cons,
    Nat.add_comm, ← advance_advance, skipBlank, skipWhile, ahead_advance_one ahead]

theorem skipBlank_eq {cursor : Cursor} {token : Token} {rest : List Token} (ahead : cursor.ahead = token :: rest)
    (visible : token.kind ≠ .whitespace) : cursor.skipBlank = cursor := by
  rw [skipBlank, skipWhile, ahead, List.takeWhile_cons_of_neg (by simpa using visible)]
  rfl

/-- No blank is seen behind blanks. -/
theorem current_skipBlank_ne (cursor : Cursor) : cursor.skipBlank.current.kind ≠ .whitespace := by
  rw [current, ahead_skipBlank]
  cases behind : cursor.ahead.dropWhile fun token => token.kind = .whitespace with
  | nil => simp [cursor.skipBlank.last_kind]
  | cons token rest =>
    have first := List.head?_dropWhile_not (fun token : Token => decide (token.kind = .whitespace)) cursor.ahead
    rw [behind] at first
    simpa using first

/-- No semicolon is seen before a closing brace, or where nothing comes. -/
theorem ne_semicolon_of_shut {gap rest : List Token} (ahead : cursor.ahead = gap ++ rest)
    (idle : ∀ token ∈ gap, token.isIdle = true) (shut : Shut rest) : cursor.current.kind ≠ .semicolon := by
  intro semicolon
  rw [current, ahead] at semicolon
  cases gap with
  | nil =>
    cases rest with
    | nil => simp [cursor.last_kind] at semicolon
    | cons token rest => simp [shut token rfl] at semicolon
  | cons token gap =>
    have trivia := Token.isTrivia_of_isIdle (idle token List.mem_cons_self)
    have kind : token.kind = .semicolon := semicolon
    simp [Token.isTrivia, kind, TokenKind.isTrivia] at trivia

/-- A blank or a comment is seen, or the end. -/
def Idles (cursor : Cursor) : Prop := cursor.current.isTrivia = true ∨ cursor.current.kind = .endOfInput

theorem Idles.barren (idles : cursor.Idles) : cursor.current.kind.isBarren = true := by
  rcases idles with trivia | ended
  · rw [Token.isTrivia] at trivia
    simp [TokenKind.isBarren, trivia]
  · rw [ended]
    rfl

theorem Idles.ne {kind : TokenKind} (idles : cursor.Idles) (proper : kind ≠ .endOfInput)
    (visible : kind.isTrivia = false) : cursor.current.kind ≠ kind := by
  rintro rfl
  rcases idles with trivia | ended
  · rw [Token.isTrivia, visible] at trivia
    cases trivia
  · exact proper ended

theorem idles_of_idle (idle : ∀ token ∈ cursor.ahead, token.isIdle = true) : cursor.Idles := by
  cases ahead : cursor.ahead with
  | nil =>
    right
    rw [current, ahead]
    exact cursor.last_kind
  | cons token rest =>
    left
    rw [current_of_cons ahead]
    exact Token.isTrivia_of_isIdle (idle token (ahead ▸ List.mem_cons_self))

theorem blank_of_starts {gap rest : List Token} (starts : gap.head?.map Token.kind = some .whitespace)
    (ahead : cursor.ahead = gap ++ rest) : cursor.current.isTrivia = true := by
  cases gap with
  | nil => cases starts
  | cons token gap =>
    have blank : token.kind = .whitespace := by simpa using starts
    rw [current_of_cons ahead, Token.isTrivia, blank]
    rfl

theorem idles_of_loose (loose : Loose cursor.ahead other.ahead) : cursor.Idles ∧ other.Idles := by
  generalize ahead : cursor.ahead = first at loose
  generalize aheadOther : other.ahead = second at loose
  cases loose with
  | blank _ _ starts startsAlso rest =>
    exact ⟨.inl (blank_of_starts starts ahead), .inl (blank_of_starts startsAlso aheadOther)⟩
  | ended idle also => exact ⟨idles_of_idle (ahead ▸ idle), idles_of_idle (aheadOther ▸ also)⟩

theorem idles_of_nil (none : cursor.ahead = []) : cursor.Idles := idles_of_idle (by simp [none])

theorem Halt.barren (halt : Halt seams opened cursor other) :
    cursor.current.kind.isBarren = true ∧ other.current.kind.isBarren = true := by
  rcases halt with ⟨none, also⟩ | ⟨-, seam⟩
  · exact ⟨(idles_of_nil none).barren, (idles_of_nil also).barren⟩
  · have parted := seam.parted
    generalize ahead : cursor.ahead = first at parted
    generalize aheadOther : other.ahead = second at parted
    cases parted with
    | loose loose =>
      obtain ⟨own, also⟩ := idles_of_loose (ahead ▸ aheadOther ▸ loose)
      exact ⟨own.barren, also.barren⟩
    | lacking semicolon _ also shut =>
      exact ⟨by rw [current_of_cons ahead, semicolon]; rfl, barren_of_gap aheadOther also shut⟩

/-- Blanks and comments at a seam are passed on both sides, or what ends a statement comes. -/
theorem Halt.spaced (halt : Halt seams opened cursor other) :
    cursor.current.isTrivia = true ∧ other.current.isTrivia = true ∨
      cursor.skipTrivia.current.kind.isBarren = true := by
  rcases halt with ⟨none, -⟩ | ⟨-, seam⟩
  · exact .inr (idles_of_nil (by rw [ahead_skipTrivia, none]; rfl)).barren
  · have parted := seam.parted
    generalize ahead : cursor.ahead = first at parted
    generalize aheadOther : other.ahead = second at parted
    cases parted with
    | loose loose =>
      cases loose with
      | blank _ _ starts startsAlso rest =>
        exact .inl ⟨blank_of_starts starts ahead, blank_of_starts startsAlso aheadOther⟩
      | ended idle also =>
        right
        apply (idles_of_nil _).barren
        rw [ahead_skipTrivia, ahead, List.dropWhile_eq_nil_iff]
        exact fun token member => Token.isTrivia_of_isIdle (idle token member)
    | @lacking mark semicolon gap _ rest _ _ _ =>
      right
      have stays : cursor.skipTrivia.ahead = mark :: (gap ++ rest) := by
        rw [ahead_skipTrivia, ahead]
        exact List.dropWhile_cons_of_neg (by simp [Token.isTrivia, semicolon, TokenKind.isTrivia])
      rw [current_of_cons stays, semicolon]
      rfl

namespace Near

theorem refl (cursor : Cursor) : cursor.Near seams lined opened cursor := ⟨fun _ => rfl, .inl rfl⟩

/-- Without seams, the rows are the same. -/
theorem same_rows (near : cursor.Near .absent lined opened other) : cursor.ahead = other.ahead := by
  rcases near.rows with same | ⟨_, _, _, never, -⟩
  · exact same
  · exact never.elim

variable (near : cursor.Near seams lined opened other)

include near

theorem reset : cursor.Near seams lined [] other where
  line := near.line
  rows := by
    refine near.rows.imp_right fun ⟨row, first, second, allowed, seam, cut⟩ => ?_
    exact ⟨row, first, second, allowed, seam.reset, cut⟩

/-- Both see the same token, or are at the end or the seam. -/
theorem sees : (other.current = cursor.current ∧
      (cursor.advance 1).Near seams lined (Grammar.openBehind opened cursor.current.kind) (other.advance 1)) ∨
    Halt seams opened cursor other := by
  have line (holds : lined) : (cursor.advance 1).last.line = (other.advance 1).last.line := by
    simpa using near.line holds
  rcases near.rows with same | ⟨row, first, second, allowed, seam, ahead, also⟩
  · cases ahead : cursor.ahead with
    | nil => exact .inr (.inl ⟨ahead, same ▸ ahead⟩)
    | cons token rest =>
      have also : other.ahead = token :: rest := same ▸ ahead
      refine .inl ⟨by rw [current_of_cons ahead, current_of_cons also], line, .inl ?_⟩
      rw [ahead_advance_one ahead, ahead_advance_one also]
  · cases row with
    | nil => exact .inr (.inr (by rw [ahead, also]; exact ⟨allowed, seam⟩))
    | cons token row =>
      refine .inl ⟨by rw [current_of_cons ahead, current_of_cons also], line, .inr ?_⟩
      rw [current_of_cons ahead]
      exact ⟨row, first, second, allowed, seam.tail, ahead_advance_one ahead, ahead_advance_one also⟩

theorem skipTrivia : cursor.skipTrivia.Near seams lined opened other.skipTrivia where
  line := by simpa using near.line
  rows := by
    rw [ahead_skipTrivia, ahead_skipTrivia]
    rcases near.rows with same | ⟨row, first, second, allowed, seam, ahead, also⟩
    · exact .inl (by rw [same])
    · rw [ahead, also]
      refine (seam.dropWhile allowed).imp_right fun ⟨less, more, allowed, seam, cut, cutTwin, _⟩ => ?_
      exact ⟨_, less, more, allowed, seam, cut, cutTwin⟩

/-- Behind blanks and comments, both see the same kind of token where no semicolon is lacking. -/
theorem kind_skipTrivia (loose : seams ≠ .any) :
    cursor.skipTrivia.current.kind = other.skipTrivia.current.kind := by
  have ended {cursor : Cursor} (idles : cursor.skipTrivia.Idles) :
      cursor.skipTrivia.current.kind = .endOfInput :=
    idles.resolve_left (by simp [visible_skipTrivia])
  rcases near.skipTrivia.sees with ⟨same, -⟩ | ⟨none, also⟩ | ⟨allowed, -⟩
  · rw [same]
  · rw [ended (idles_of_nil none), ended (idles_of_nil also)]
  · cases seams with
    | absent => exact allowed.elim
    | loose =>
      obtain ⟨own, also⟩ := idles_of_loose allowed
      rw [ended own, ended also]
    | any => exact absurd rfl loose

/-- Kinds that belong to expressions are seen by both. -/
theorem kind_iff {kind : TokenKind} (fertile : kind.isBarren = false) :
    cursor.current.kind = kind ↔ other.current.kind = kind := by
  rcases near.sees with ⟨same, -⟩ | halt
  · rw [same]
  · obtain ⟨own, also⟩ := halt.barren
    constructor
    · rintro rfl
      rw [own] at fertile
      cases fertile
    · rintro rfl
      rw [also] at fertile
      cases fertile

theorem pass {kind : TokenKind} (fertile : kind.isBarren = false) (found : cursor.current.kind = kind) :
    other.current = cursor.current ∧
      (cursor.advance 1).Near seams lined (Grammar.openBehind opened kind) (other.advance 1) := by
  rcases near.sees with ⟨same, behind⟩ | halt
  · exact ⟨same, found ▸ behind⟩
  · have barren := halt.barren.1
    rw [found, fertile] at barren
    cases barren

/-- Where both see the same kind of token, it is the same token, or the end. -/
theorem same_of_kind (shown : cursor.current.isTrivia = false)
    (kinds : cursor.current.kind = other.current.kind) (goes : cursor.current.kind ≠ .endOfInput) :
    other.current = cursor.current ∧
      (cursor.advance 1).Near seams lined (Grammar.openBehind opened cursor.current.kind)
        (other.advance 1) := by
  rcases near.sees with found | ⟨none, -⟩ | ⟨-, seam⟩
  · exact found
  · exact absurd ((idles_of_nil none).resolve_left (by simp [shown])) goes
  have parted := seam.parted
  generalize ahead : cursor.ahead = first at parted
  generalize aheadOther : other.ahead = second at parted
  cases parted with
  | loose loose =>
    have idles := (idles_of_loose (ahead ▸ aheadOther ▸ loose)).1
    exact absurd (idles.resolve_left (by simp [shown])) goes
  | lacking semicolon _ also shut =>
    rw [current_of_cons ahead, semicolon] at kinds
    exact absurd kinds.symm (ne_semicolon_of_shut aheadOther also shut)

theorem isWord (word : String) : cursor.current.isWord word = other.current.isWord word := by
  rcases near.sees with ⟨same, -⟩ | halt
  · rw [same]
  · have other {token : Token} (barren : token.kind.isBarren = true) : token.isWord word = false := by
      have kind : token.kind ≠ .ident := by
        intro ident
        rw [ident] at barren
        cases barren
      simp [Token.isWord, kind]
    rw [other halt.barren.1, other halt.barren.2]

/-- What stands behind a token for which it matters. -/
theorem sight (looks : cursor.current.looksAhead = true) : (cursor.peek 1).kind = (other.peek 1).kind := by
  have ends : cursor.last.kind = other.last.kind := cursor.last_kind.trans other.last_kind.symm
  have kinds {found another : Option Token} (same : found.map Token.kind = another.map Token.kind) :
      (found.getD cursor.last).kind = (another.getD other.last).kind := by
    cases found <;> cases another <;> simp_all
  rw [peek, peek]
  rcases near.rows with same | ⟨row, first, second, allowed, seam, ahead, also⟩
  · rw [same]
    exact kinds rfl
  · rcases row with - | ⟨token, - | ⟨next, row⟩⟩
    case nil =>
      have halt : Halt seams opened cursor other := .inr (by rw [ahead, also]; exact ⟨allowed, seam⟩)
      have barren := halt.barren
      generalize cursor.current = token at looks barren
      simp only [Token.looksAhead, Token.isWord, Bool.or_eq_true, Bool.and_eq_true, decide_eq_true_eq]
        at looks
      rcases looks with (kind | kind) | ⟨kind, -⟩ <;> rw [kind] at barren <;> cases barren.1
    case cons.nil =>
      rw [current_of_cons ahead] at looks
      have heads := seam.sight token rfl looks
      rw [ahead, also]
      simp only [List.singleton_append, List.getElem?_cons_succ, ← List.head?_eq_getElem?]
      exact kinds heads
    case cons.cons =>
      rw [ahead, also]
      rfl

end Near

end Cursor

namespace Parser

variable {α β σ : Type}

theorem skipBlank_apply {cursor : Cursor} : skipBlank cursor = .ok ((), cursor.skipBlank) := rfl

/-- Results that agree: values that do, or faults of one sort. Nothing is said where a bound is reached. -/
inductive Agrees (agree : α → α → Prop) : Except Fault α → Except Fault α → Prop where
  | ok {value another : α} (results : agree value another) : Agrees agree (.ok value) (.ok another)
  | grammar (fault another : SyntaxFault) :
      Agrees agree (.error (.grammar fault)) (.error (.grammar another))
  | fault (fault : Fault) : Agrees agree (.error fault) (.error fault)
  | bounded (result : Except Fault α) : Agrees agree (.error .exhausted) result
  | boundedTwin (result : Except Fault α) : Agrees agree result (.error .exhausted)

namespace Agrees

variable {agree : α → α → Prop} {also : β → β → Prop} {result twin : Except Fault α}

theorem bind {next nextTwin : α → Except Fault β} (first : Agrees agree result twin)
    (second : ∀ value another, agree value another → Agrees also (next value) (nextTwin another)) :
    Agrees also (result >>= next) (twin >>= nextTwin) := by
  cases first with
  | ok results => exact second _ _ results
  | grammar fault another => exact .grammar fault another
  | fault fault => exact .fault fault
  | bounded result => exact .bounded _
  | boundedTwin result => exact .boundedTwin _

theorem mapM {γ : Type} {step stepTwin : γ → Except Fault β} {items : List γ}
    (each : ∀ item ∈ items, Agrees Eq (step item) (stepTwin item)) :
    Agrees Eq (items.mapM step) (items.mapM stepTwin) := by
  induction items with
  | nil => exact .ok rfl
  | cons item rest ih =>
    obtain ⟨first, others⟩ := List.forall_mem_cons.mp each
    rw [List.mapM_cons, List.mapM_cons]
    apply first.bind
    rintro value _ rfl
    apply (ih others).bind
    rintro more _ rfl
    exact .ok rfl

end Agrees

/-- Two parsers at two cursors come to results that agree. -/
structure Unison (goal : α → α → Cursor → Cursor → Prop) (parser : Parser α) (cursor : Cursor)
    (twin : Parser α) (other : Cursor) : Prop where
  outcome : Agrees (fun one two => goal one.1 two.1 one.2 two.2) (parser cursor) (twin other)

/-- The same value at cursors that are near each other. -/
def Meets (seams : Seams) (lined : Prop) (opened : List TokenKind) (value another : α) (cursor other : Cursor) : Prop :=
  value = another ∧ cursor.Near seams lined opened other

/-- Wherever two parsers start near each other, they go on in unison, and leave open what was open. -/
def Level (parser twin : Parser α) : Prop :=
  ∀ (seams : Seams) (lined : Prop) (opened : List TokenKind) (cursor other : Cursor),
    cursor.Near seams lined opened other → Unison (Meets seams lined opened) parser cursor twin other

/-- A round of a loop that goes on with the same state, where `inv` holds, or is the last. -/
def Round (inv : σ → Cursor → Cursor → Prop) (goal : α → α → Cursor → Cursor → Prop) :
    Next σ α → Next σ α → Cursor → Cursor → Prop
  | .again state, .again another, cursor, other => state = another ∧ inv state cursor other
  | .done value, .done another, cursor, other => goal value another cursor other
  | _, _, _, _ => False

namespace Unison

variable {goal : β → β → Cursor → Cursor → Prop} {cursor other : Cursor}

theorem of_eq {parser twin : Parser β} {result twinResult : Except Fault (β × Cursor)}
    (run : parser cursor = result) (twinRun : twin other = twinResult)
    (outcome : Agrees (fun one two => goal one.1 two.1 one.2 two.2) result twinResult) :
    Unison goal parser cursor twin other :=
  ⟨run ▸ twinRun ▸ outcome⟩

theorem done {value another : β} (holds : goal value another cursor other) :
    Unison goal (pure value) cursor (pure another) other :=
  ⟨.ok holds⟩

theorem throw {fault : Fault} : Unison goal (MonadExcept.throw fault) cursor (MonadExcept.throw fault) other :=
  ⟨.fault fault⟩

theorem fail {fault another : SyntaxFault} :
    Unison goal (Parser.fail fault) cursor (Parser.fail another) other :=
  ⟨.grammar fault another⟩

theorem unexpected {expected : String} :
    Unison goal (Parser.unexpected expected) cursor (Parser.unexpected expected) other :=
  ⟨.grammar _ _⟩

/-- Both fail, whatever was to come. -/
theorem faults {parser twin : Parser α} {next nextTwin : α → Parser β} {fault another : SyntaxFault}
    (failed : parser cursor = .error (.grammar fault)) (failedTwin : twin other = .error (.grammar another)) :
    Unison goal (parser >>= next) cursor (twin >>= nextTwin) other :=
  .of_eq (bind_of_error failed) (bind_of_error failedTwin) (.grammar fault another)

theorem weaken {weaker : β → β → Cursor → Cursor → Prop} {parser twin : Parser β}
    (unison : Unison goal parser cursor twin other)
    (weak : ∀ value another after afterTwin, goal value another after afterTwin →
      weaker value another after afterTwin) : Unison weaker parser cursor twin other := by
  have outcome := unison.outcome
  refine .of_eq rfl rfl ?_
  generalize parser cursor = result at outcome
  generalize twin other = twinResult at outcome
  cases outcome with
  | ok results => exact .ok (weak _ _ _ _ results)
  | grammar fault another => exact .grammar fault another
  | fault fault => exact .fault fault
  | bounded result => exact .bounded _
  | boundedTwin result => exact .boundedTwin _

theorem bind {middle : α → α → Cursor → Cursor → Prop} {parser twin : Parser α}
    {next nextTwin : α → Parser β} (first : Unison middle parser cursor twin other)
    (second : ∀ value another after afterTwin, middle value another after afterTwin →
      Unison goal (next value) after (nextTwin another) afterTwin) :
    Unison goal (parser >>= next) cursor (twin >>= nextTwin) other := by
  have outcome := first.outcome
  generalize run : parser cursor = result at outcome
  generalize runTwin : twin other = twinResult at outcome
  cases outcome with
  | ok results =>
    exact .of_eq (bind_of_ok run) (bind_of_ok runTwin) (second _ _ _ _ results).outcome
  | grammar fault another => exact .of_eq (bind_of_error run) (bind_of_error runTwin) (.grammar fault another)
  | fault fault => exact .of_eq (bind_of_error run) (bind_of_error runTwin) (.fault fault)
  | bounded result => exact .of_eq (bind_of_error run) rfl (.bounded _)
  | boundedTwin result => exact .of_eq rfl (bind_of_error runTwin) (.boundedTwin _)

/-- Both take the same branch. -/
theorem ite {p q : Prop} [Decidable p] [Decidable q] (both : p ↔ q) {yes no yesTwin noTwin : Parser β}
    (of_yes : p → Unison goal yes cursor yesTwin other) (of_no : ¬p → Unison goal no cursor noTwin other) :
    Unison goal (if p then yes else no) cursor (if q then yesTwin else noTwin) other := by
  by_cases holds : p
  · rw [if_pos holds, if_pos (both.mp holds)]
    exact of_yes holds
  · rw [if_neg holds, if_neg (holds ∘ both.mpr)]
    exact of_no holds

theorem current {next nextTwin : Token → Parser β}
    (rest : Unison goal (next cursor.current) cursor (nextTwin other.current) other) :
    Unison goal (Parser.current >>= next) cursor (Parser.current >>= nextTwin) other :=
  ⟨rest.outcome⟩

theorem peek {offset : Nat} {next nextTwin : Token → Parser β}
    (rest : Unison goal (next (cursor.peek offset)) cursor (nextTwin (other.peek offset)) other) :
    Unison goal (Parser.peek offset >>= next) cursor (Parser.peek offset >>= nextTwin) other :=
  ⟨rest.outcome⟩

theorem significant {offset : Nat} {next nextTwin : Token → Parser β}
    (rest : Unison goal (next (cursor.significant offset)) cursor
      (nextTwin (other.significant offset)) other) :
    Unison goal (Parser.significant offset >>= next) cursor (Parser.significant offset >>= nextTwin) other :=
  ⟨rest.outcome⟩

theorem skipBlank {next nextTwin : Unit → Parser β}
    (rest : Unison goal (next ()) cursor.skipBlank (nextTwin ()) other.skipBlank) :
    Unison goal (Parser.skipBlank >>= next) cursor (Parser.skipBlank >>= nextTwin) other :=
  ⟨rest.outcome⟩

theorem get {next nextTwin : Cursor → Parser β}
    (rest : Unison goal (next cursor) cursor (nextTwin other) other) :
    Unison goal (MonadState.get >>= next) cursor (MonadState.get >>= nextTwin) other :=
  ⟨rest.outcome⟩

/-- Both go back. -/
theorem set {saved savedTwin : Cursor} {next nextTwin : PUnit → Parser β}
    (rest : Unison goal (next ⟨⟩) saved (nextTwin ⟨⟩) savedTwin) :
    Unison goal (MonadState.set saved >>= next) cursor (MonadState.set savedTwin >>= nextTwin) other :=
  ⟨rest.outcome⟩

theorem advance {count : Nat} {next nextTwin : Unit → Parser β}
    (rest : Unison goal (next ()) (cursor.advance count) (nextTwin ()) (other.advance count)) :
    Unison goal (Parser.advance count >>= next) cursor (Parser.advance count >>= nextTwin) other :=
  ⟨rest.outcome⟩

/-- Both see whether the input ends. -/
theorem atEnd (kinds : cursor.current.kind = other.current.kind) {next nextTwin : Bool → Parser β}
    (rest : ∀ ended, cursor.atEnd = ended → Unison goal (next ended) cursor (nextTwin ended) other) :
    Unison goal (Parser.atEnd >>= next) cursor (Parser.atEnd >>= nextTwin) other := by
  have same : cursor.atEnd = other.atEnd := by rw [Cursor.atEnd, Cursor.atEnd, kinds]
  constructor
  change Agrees _ (next cursor.atEnd cursor) (nextTwin other.atEnd other)
  rw [← same]
  exact (rest _ rfl).outcome

/-- Both pass a token of one of some kinds, or neither can. -/
theorem expectAny {kinds : List TokenKind} {next nextTwin : Token → Parser β}
    (both : cursor.current.kind ∈ kinds ↔ other.current.kind ∈ kinds)
    (rest : cursor.current.kind ∈ kinds →
      Unison goal (next cursor.current) (cursor.advance 1) (nextTwin other.current) (other.advance 1)) :
    Unison goal (Parser.expectAny kinds >>= next) cursor (Parser.expectAny kinds >>= nextTwin) other := by
  have passes {cursor : Cursor} (found : cursor.current.kind ∈ kinds) :
      Parser.expectAny kinds cursor = .ok (cursor.current, cursor.advance 1) := by
    rw [Parser.expectAny, get_bind, Cursor.expectAny, if_pos (by simpa [Cursor.matchesAny] using found)]
    rfl
  have fails {cursor : Cursor} (missing : cursor.current.kind ∉ kinds) :
      ∃ fault, Parser.expectAny kinds cursor = .error (.grammar fault) := by
    rw [Parser.expectAny, get_bind, Cursor.expectAny, if_neg (by simpa [Cursor.matchesAny] using missing)]
    exact ⟨_, rfl⟩
  by_cases found : cursor.current.kind ∈ kinds
  · exact .of_eq (bind_of_ok (passes found)) (bind_of_ok (passes (both.mp found))) (rest found).outcome
  · obtain ⟨fault, failed⟩ := fails found
    obtain ⟨another, failedTwin⟩ := fails (mt both.mpr found)
    exact .faults failed failedTwin

/-- Results that do not depend on the cursors. -/
theorem lift {agree : α → α → Prop} {result twin : Except Fault α} {next nextTwin : α → Parser β}
    (both : Agrees agree result twin)
    (rest : ∀ value another, agree value another →
      Unison goal (next value) cursor (nextTwin another) other) :
    Unison goal ((liftM result : Parser α) >>= next) cursor ((liftM twin : Parser α) >>= nextTwin) other := by
  cases both with
  | ok results => exact ⟨(rest _ _ results).outcome⟩
  | grammar fault another => exact ⟨.grammar fault another⟩
  | fault fault => exact ⟨.fault fault⟩
  | bounded result => exact ⟨.bounded _⟩
  | boundedTwin result => exact .of_eq rfl (bind_of_error rfl) (.boundedTwin _)

/-- Rounds that go on in unison to the last, or to where what is left of them is known to be in unison. -/
theorem rounds {step twin : σ → Parser (Next σ β)} (inv : σ → Cursor → Cursor → Prop)
    (round : ∀ state cursor other, inv state cursor other →
      Unison (Round inv goal) (step state) cursor (twin state) other ∨
      ∀ bound boundTwin, Unison goal (loopWithin step bound state) cursor
        (loopWithin twin boundTwin state) other) {state : σ} (start : inv state cursor other)
    (bound boundTwin : List Token) :
    Unison goal (loopWithin step bound state) cursor (loopWithin twin boundTwin state) other := by
  induction bound generalizing boundTwin state cursor other with
  | nil =>
    rcases round state cursor other start with once | known
    · cases boundTwin <;>
      · rw [loopWithin, loopWithin]
        apply once.bind
        intro next also after afterTwin holds
        cases next <;> cases also
        · exact ⟨.bounded _⟩
        · exact holds.elim
        · exact holds.elim
        · exact .done holds
    · exact known _ _
  | cons token bound ih =>
    rcases round state cursor other start with once | known
    · cases boundTwin <;>
      · rw [loopWithin, loopWithin]
        apply once.bind
        intro next also after afterTwin holds
        cases next <;> cases also
        · obtain ⟨rfl, still⟩ := holds
          first
          | exact ih still _
          | exact ⟨.boundedTwin _⟩
        · exact holds.elim
        · exact holds.elim
        · exact .done holds
    · exact known _ _

theorem loopUntil {step twin : σ → Parser (Next σ β)} (inv : σ → Cursor → Cursor → Prop)
    (round : ∀ state cursor other, inv state cursor other →
      Unison (Round inv goal) (step state) cursor (twin state) other ∨
      ∀ bound boundTwin, Unison goal (loopWithin step bound state) cursor
        (loopWithin twin boundTwin state) other) {init : σ} (start : inv init cursor other) :
    Unison goal (Parser.loop init step) cursor (Parser.loop init twin) other :=
  ⟨(rounds inv round start cursor.ahead other.ahead).outcome⟩

theorem loop {step twin : σ → Parser (Next σ β)} (inv : σ → Cursor → Cursor → Prop)
    (round : ∀ state cursor other, inv state cursor other →
      Unison (Round inv goal) (step state) cursor (twin state) other) {init : σ}
    (start : inv init cursor other) :
    Unison goal (Parser.loop init step) cursor (Parser.loop init twin) other :=
  loopUntil inv (fun state cursor other holds => .inl (round state cursor other holds)) start

/-- A loop, and what comes behind it. -/
theorem loopThen {step twin : σ → Parser (Next σ α)} {next nextTwin : α → Parser β}
    (inv : σ → Cursor → Cursor → Prop) (middle : α → α → Cursor → Cursor → Prop)
    (round : ∀ state cursor other, inv state cursor other →
      Unison (Round inv middle) (step state) cursor (twin state) other) {init : σ}
    (start : inv init cursor other)
    (rest : ∀ value another after afterTwin, middle value another after afterTwin →
      Unison goal (next value) after (nextTwin another) afterTwin) :
    Unison goal (Parser.loop init step >>= next) cursor (Parser.loop init twin >>= nextTwin) other :=
  (loop inv round start).bind rest

end Unison

end Parser

namespace Cursor.Near

open Scss.Parser (Unison Meets Level)

variable {α β : Type} {seams : Seams} {lined : Prop} {opened : List TokenKind} {cursor other : Cursor}
  {goal : β → β → Cursor → Cursor → Prop} (near : cursor.Near seams lined opened other)

include near

theorem skip {next nextTwin : Unit → Parser β}
    (rest : cursor.skipTrivia.Near seams lined opened other.skipTrivia →
      Unison goal (next ()) cursor.skipTrivia (nextTwin ()) other.skipTrivia) :
    Unison goal (Parser.skipTrivia >>= next) cursor (Parser.skipTrivia >>= nextTwin) other :=
  ⟨(rest near.skipTrivia).outcome⟩

theorem at_ {kind : TokenKind} (fertile : kind.isBarren = false) {next nextTwin : Bool → Parser β}
    (rest : ∀ found, decide (cursor.current.kind = kind) = found →
      Unison goal (next found) cursor (nextTwin found) other) :
    Unison goal (Parser.at_ kind >>= next) cursor (Parser.at_ kind >>= nextTwin) other := by
  apply Unison.of_eq (Parser.bind_of_ok (Parser.at_apply kind)) (Parser.bind_of_ok (Parser.at_apply kind))
  rw [← decide_eq_decide.mpr (near.kind_iff fertile)]
  exact (rest _ rfl).outcome

theorem atWord {word : String} {next nextTwin : Bool → Parser β}
    (rest : ∀ found, cursor.current.isWord word = found →
      Unison goal (next found) cursor (nextTwin found) other) :
    Unison goal (Parser.atWord word >>= next) cursor (Parser.atWord word >>= nextTwin) other := by
  constructor
  change Parser.Agrees _ (next (cursor.current.isWord word) cursor) (nextTwin (other.current.isWord word) other)
  rw [← near.isWord]
  exact (rest _ rfl).outcome

/-- Both pass a word. -/
theorem passWord {word : String} (found : cursor.current.isWord word = true) :
    (cursor.advance 1).Near seams lined opened (other.advance 1) := by
  simp only [Token.isWord, Bool.and_eq_true, decide_eq_true_eq] at found
  exact (near.pass rfl found.1).2

theorem acceptWord {word : String} {next nextTwin : Bool → Parser β}
    (yes : cursor.current.isWord word = true →
      (cursor.advance 1).skipTrivia.Near seams lined opened (other.advance 1).skipTrivia →
      Unison goal (next true) (cursor.advance 1).skipTrivia (nextTwin true) (other.advance 1).skipTrivia)
    (no : Unison goal (next false) cursor (nextTwin false) other) :
    Unison goal (Parser.acceptWord word >>= next) cursor (Parser.acceptWord word >>= nextTwin) other := by
  have shape (cursor : Cursor) : Parser.acceptWord word cursor = .ok (cursor.current.isWord word,
      if cursor.current.isWord word then (cursor.advance 1).skipTrivia else cursor) := by
    cases found : cursor.current.isWord word <;>
    · change (if cursor.current.isWord word then _ else _ : Parser Bool) cursor = _
      rw [found]
      rfl
  apply Unison.of_eq (Parser.bind_of_ok (shape cursor)) (Parser.bind_of_ok (shape other))
  rw [← near.isWord]
  cases found : cursor.current.isWord word with
  | true => exact (yes found (near.passWord found).skipTrivia).outcome
  | false => exact no.outcome

theorem accept {kind : TokenKind} (fertile : kind.isBarren = false) {next nextTwin : Bool → Parser β}
    (yes : (cursor.advance 1).Near seams lined (Grammar.openBehind opened kind) (other.advance 1) →
      Unison goal (next true) (cursor.advance 1) (nextTwin true) (other.advance 1))
    (no : Unison goal (next false) cursor (nextTwin false) other) :
    Unison goal (Parser.accept kind >>= next) cursor (Parser.accept kind >>= nextTwin) other := by
  have both := near.kind_iff fertile
  by_cases found : cursor.current.kind = kind
  · exact .of_eq (Parser.bind_of_ok (Parser.accept_of_eq found))
      (Parser.bind_of_ok (Parser.accept_of_eq (both.mp found))) (yes (near.pass fertile found).2).outcome
  · exact .of_eq (Parser.bind_of_ok (Parser.accept_of_ne found))
      (Parser.bind_of_ok (Parser.accept_of_ne (mt both.mpr found))) no.outcome

/-- A token of one of some kinds, each of which belongs to expressions. -/
theorem expectAny {kinds : List TokenKind} (fertile : ∀ kind ∈ kinds, kind.isBarren = false)
    {next nextTwin : Token → Parser β}
    (rest : cursor.current.kind ∈ kinds →
      (cursor.advance 1).Near seams lined (Grammar.openBehind opened cursor.current.kind) (other.advance 1) →
      Unison goal (next cursor.current) (cursor.advance 1) (nextTwin cursor.current) (other.advance 1)) :
    Unison goal (Parser.expectAny kinds >>= next) cursor (Parser.expectAny kinds >>= nextTwin) other := by
  apply Unison.expectAny
  · constructor
    · intro found
      exact (near.pass (fertile _ found) rfl).1 ▸ found
    · intro also
      exact (near.kind_iff (fertile _ also)).mpr rfl ▸ also
  · intro found
    obtain ⟨same, behind⟩ := near.pass (fertile _ found) rfl
    rw [same]
    exact rest found behind

theorem expect {kind : TokenKind} (fertile : kind.isBarren = false) {next nextTwin : Token → Parser β}
    (rest : cursor.current.kind = kind →
      (cursor.advance 1).Near seams lined (Grammar.openBehind opened kind) (other.advance 1) →
      Unison goal (next cursor.current) (cursor.advance 1) (nextTwin cursor.current) (other.advance 1)) :
    Unison goal (Parser.expect kind >>= next) cursor (Parser.expect kind >>= nextTwin) other := by
  apply near.expectAny (by simpa using fertile)
  intro found behind
  rw [List.mem_singleton] at found
  exact rest found (found ▸ behind)

theorem andThen {parser twin : Parser α} {next nextTwin : α → Parser β} (level : Level parser twin)
    (rest : ∀ value after afterTwin, after.Near seams lined opened afterTwin →
      Unison goal (next value) after (nextTwin value) afterTwin) :
    Unison goal (parser >>= next) cursor (twin >>= nextTwin) other := by
  apply (level seams lined opened cursor other near).bind
  rintro value _ after afterTwin ⟨rfl, behind⟩
  exact rest value after afterTwin behind

/-- The last step. -/
theorem last {parser twin : Parser β} (level : Level parser twin)
    (enough : ∀ value after afterTwin, after.Near seams lined opened afterTwin →
      goal value value after afterTwin) : Unison goal parser cursor twin other := by
  apply (level seams lined opened cursor other near).weaken
  rintro value _ after afterTwin ⟨rfl, behind⟩
  exact enough value after afterTwin behind

end Cursor.Near

end Scss
