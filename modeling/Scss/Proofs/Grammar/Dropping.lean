import Mathlib.Logic.Relation
import Scss.Proofs.Grammar.Lookahead

/-! Leaving out parts of a text. A blank or a semicolon can go if the token in front of it does not take, or
see, anything else for it: then all other tokens are read as before. -/
namespace Scss.Lexer

open Chars (isBlank)

def marks : List Char := ['\x7b', '\x7d', '(', ')', '[', ']', ':', ';', ',']

/-- A token, or one of the blanks between tokens. -/
structure Piece where
  kind : TokenKind
  text : List Char
deriving DecidableEq

namespace Piece

def blank (c : Char) : Piece := ⟨.whitespace, [c]⟩

def IsBlank (piece : Piece) : Prop := ∃ c, isBlank c = true ∧ piece = blank c

def texts (pieces : List Piece) : List Char := pieces.flatMap text

def strings (pieces : List Piece) : List (List Char) := (pieces.filter (·.kind = .string)).map text

/-- A piece that ends where it does whatever is behind it: a blank, a string or a mark. -/
def Closed (piece : Piece) : Prop :=
  piece.IsBlank ∨ piece.kind = .string ∨ ∃ c ∈ marks, piece.text = [c]

/-- A hash that would open an expression if a brace followed. -/
def IsHash (piece : Piece) : Prop := piece.text.dropWhile (fun c => c = '.' || c = '-') = ['#']

instance (piece : Piece) : Decidable piece.IsHash := inferInstanceAs (Decidable (_ = _))

@[simp]
theorem texts_nil : texts [] = [] := rfl

@[simp]
theorem texts_cons (piece : Piece) (rest : List Piece) : texts (piece :: rest) = piece.text ++ texts rest := rfl

@[simp]
theorem texts_append (first second : List Piece) : texts (first ++ second) = texts first ++ texts second :=
  List.flatMap_append

theorem strings_cons (piece : Piece) (rest : List Piece) : strings (piece :: rest) =
    (if piece.kind = .string then [piece.text] else []) ++ strings rest := by
  rw [strings, List.filter_cons]
  split <;> simp_all [strings]

theorem strings_append (first second : List Piece) :
    strings (first ++ second) = strings first ++ strings second := by
  simp [strings]

end Piece

def cut (token : Token) : List Piece :=
  match token.text.toList with
  | [] => []
  | c :: rest => if isBlank c then (c :: rest).map .blank else [⟨token.kind, c :: rest⟩]

def pieces (tokens : List Token) : List Piece := tokens.flatMap cut

def strings (tokens : List Token) : List String := (tokens.filter (·.kind = .string)).map Token.text

open Piece (texts)

/-- The lexer reads these pieces off their text, and none is a comment. -/
inductive Reads : List Piece → Prop where
  | nil : Reads []
  | blank {c : Char} {rest : List Piece} (blank : isBlank c = true) (more : Reads rest) :
      Reads (.blank c :: rest)
  | token {kind : TokenKind} {c : Char} {part : List Char} {rest : List Piece} (visible : isBlank c = false)
      (plain : kind ≠ .comment)
      (measured : ∀ position, measure position c (part ++ texts rest) = .ok (kind, part.length))
      (more : Reads rest) : Reads (⟨kind, c :: part⟩ :: rest)

theorem strings_cons (token : Token) (rest : List Token) : (strings (token :: rest)).map String.toList =
    (if token.kind = .string then [token.text.toList] else []) ++ (strings rest).map String.toList := by
  rw [strings, List.filter_cons]
  split <;> simp_all [strings]

section Reading

variable {kind : TokenKind} {c : Char} {rest gap : List Char} {length : Nat} {ps qs : List Piece}

theorem measure_blank (position : Position) (blank : isBlank c = true) (rest : List Char) :
    measure position c rest = .ok (.whitespace, run isBlank rest) := by
  rw [measure, if_pos blank]

/-- What the lexer takes does not depend on the place. -/
theorem measure_of_measure {here : Position} (measured : measure here c rest = .ok (kind, length))
    (there : Position) : measure there c rest = .ok (kind, length) := by
  have both := measure_anywhere here there c rest
  rw [measured] at both
  generalize measure there c rest = other at both
  cases both with
  | ok same => rw [same]

theorem Reads.blanks (blank : ∀ b ∈ gap, isBlank b = true) (more : Reads ps) :
    Reads (gap.map .blank ++ ps) := by
  induction gap with
  | nil => exact more
  | cons c gap ih =>
    obtain ⟨here, behind⟩ := List.forall_mem_cons.mp blank
    exact .blank here (ih behind)

theorem texts_blanks (gap : List Char) : texts (gap.map .blank) = gap := by
  induction gap with
  | nil => rfl
  | cons c gap ih => exact congrArg (c :: ·) ih

theorem strings_blanks (gap : List Char) : Piece.strings (gap.map .blank) = [] := by
  induction gap with
  | nil => rfl
  | cons c gap ih => rwa [List.map_cons, Piece.strings_cons]

theorem Reads.behind {piece : Piece} (reads : Reads (piece :: ps)) : Reads ps := by
  cases reads with
  | blank _ more => exact more
  | token _ _ _ more => exact more

theorem Reads.of_append {front : List Piece} (reads : Reads (front ++ ps)) : Reads ps := by
  induction front with
  | nil => exact reads
  | cons piece front ih => exact ih reads.behind

theorem Reads.exists_cons {piece : Piece} (reads : Reads (piece :: ps)) : ∃ c rest, piece.text = c :: rest := by
  cases reads <;> exact ⟨_, _, rfl⟩

/-- The blanks in front can go. -/
theorem Reads.dropBlanks (reads : Reads ps) : ∃ qs, Reads qs ∧ qs.length ≤ ps.length ∧
    texts qs = (texts ps).drop (run isBlank (texts ps)) ∧ Piece.strings qs = Piece.strings ps := by
  induction reads with
  | nil => exact ⟨[], .nil, le_rfl, rfl, rfl⟩
  | @blank c rest blank more ih =>
    obtain ⟨qs, reads, shorter, texts, strings⟩ := ih
    refine ⟨qs, reads, shorter.trans (Nat.le_succ _), ?_, strings⟩
    have counted : run isBlank (c :: Piece.texts rest) = run isBlank (Piece.texts rest) + 1 := by
      rw [run_cons, if_pos blank]
    exact texts.trans (by rw [Piece.texts_cons, Piece.blank, List.singleton_append, counted, List.drop_succ_cons])
  | @token kind c part rest visible plain measured more ih =>
    refine ⟨_, .token visible plain measured more, le_rfl, ?_, rfl⟩
    have none : run isBlank (c :: (part ++ texts rest)) = 0 := by
      rw [run_cons, if_neg (by simp [visible])]
    rw [Piece.texts_cons, List.cons_append, none, List.drop_zero]

/-- What the lexer reads piece by piece it reads token by token. -/
theorem Reads.exists_tokens {ps : List Piece} (reads : Reads ps) (position : Position) :
    ∃ tokens, tokensAt position (texts ps) = .ok tokens ∧
      (strings tokens).map String.toList = Piece.strings ps := by
  match ps, reads with
  | _, .nil => exact ⟨_, tokensAt_nil position, rfl⟩
  | _, @Reads.blank c rest here more =>
    obtain ⟨qs, reads, shorter, behind, same⟩ := more.dropBlanks
    obtain ⟨tokens, lexed, strings⟩ := reads.exists_tokens
      (position.after (c :: (texts rest).take (run isBlank (texts rest))))
    rw [behind] at lexed
    refine ⟨⟨.whitespace, String.ofList (c :: (texts rest).take (run isBlank (texts rest))), position⟩ :: tokens,
      ?_, ?_⟩
    · rw [Piece.texts_cons, Piece.blank, List.singleton_append, tokensAt_cons, measure_blank _ here]
      simp only [bind, Except.bind, lexed]
    · rw [strings_cons, strings, same, Piece.strings_cons]
      rfl
  | _, @Reads.token kind c part rest visible plain measured more =>
    obtain ⟨tokens, lexed, strings⟩ := more.exists_tokens (position.after (c :: part))
    refine ⟨⟨kind, String.ofList (c :: part), position⟩ :: tokens, ?_, ?_⟩
    · rw [Piece.texts_cons, List.cons_append, tokensAt_cons, measured]
      simp only [bind, Except.bind, List.take_left, List.drop_left, lexed]
    · rw [strings_cons, strings, Piece.strings_cons, String.toList_ofList]
termination_by ps.length
decreasing_by
  · exact Nat.lt_succ_of_le shorter
  · exact Nat.lt_succ_self _

/-- What the lexer reads token by token it reads piece by piece. -/
theorem reads_pieces {position : Position} {text : List Char} {tokens : List Token}
    (lexed : tokensAt position text = .ok tokens) (plain : ∀ token ∈ tokens, token.kind ≠ .comment) :
    Reads (pieces tokens) ∧ texts (pieces tokens) = text ∧
      (strings tokens).map String.toList = Piece.strings (pieces tokens) := by
  induction position, text using tokensAt.induct generalizing tokens with
  | case1 position =>
    rw [tokensAt_nil] at lexed
    cases lexed
    exact ⟨.nil, rfl, rfl⟩
  | case2 position c rest ih =>
    rw [tokensAt_cons] at lexed
    rcases measured : measure position c rest with fault | ⟨kind, length⟩ <;> rw [measured] at lexed
    · cases lexed
    rcases tail : tokensAt (position.after (c :: rest.take length)) (rest.drop length) with fault | others
    · simp only [bind, Except.bind, tail, reduceCtorEq] at lexed
    simp only [bind, Except.bind, tail, Except.ok.injEq] at lexed
    subst lexed
    obtain ⟨loud, behind⟩ := List.forall_mem_cons.mp plain
    obtain ⟨reads, texts, strings⟩ := ih length tail behind
    rw [pieces, List.flatMap_cons, ← pieces, Piece.texts_append, texts, strings_cons, Piece.strings_append,
      ← strings]
    cases visible : isBlank c with
    | true =>
      rw [measure_blank position visible] at measured
      obtain ⟨rfl, rfl⟩ := Prod.mk.inj (Except.ok.inj measured)
      have taken : rest.take (run isBlank rest) = rest.takeWhile isBlank :=
        (List.prefix_iff_eq_take.mp (List.takeWhile_prefix isBlank)).symm
      have all : ∀ b ∈ c :: rest.take (run isBlank rest), isBlank b = true := by
        rw [taken]
        exact List.forall_mem_cons.mpr ⟨visible, fun _ => List.mem_takeWhile_imp⟩
      have own : cut ⟨.whitespace, String.ofList (c :: rest.take (run isBlank rest)), position⟩ =
          (c :: rest.take (run isBlank rest)).map .blank := by
        rw [cut, String.toList_ofList]
        exact if_pos visible
      rw [own, texts_blanks, strings_blanks]
      exact ⟨reads.blanks all, by simp, rfl⟩
    | false =>
      have own : cut ⟨kind, String.ofList (c :: rest.take length), position⟩ =
          [⟨kind, c :: rest.take length⟩] := by
        rw [cut, String.toList_ofList]
        exact if_neg (by simp [visible])
      have whole : (rest.take length).length = length := List.length_take_of_le (measure_le measured)
      rw [own, List.singleton_append]
      refine ⟨.token visible loud (fun there => ?_) reads, by simp, ?_⟩
      · rw [texts, List.take_append_drop, whole]
        exact measure_of_measure measured there
      · rw [Piece.strings_cons, String.toList_ofList]
        simp [Piece.strings]

end Reading

section Closed

variable {c : Char} {part rest : List Char} {kind : TokenKind}

theorem measure_mark (position : Position) (mark : c ∈ marks) (rest other : List Char) :
    measure position c rest = measure position c other := by
  simp only [marks, List.mem_cons, List.not_mem_nil, or_false] at mark
  rcases mark with rfl | rfl | rfl | rfl | rfl | rfl | rfl | rfl | rfl <;> rfl

theorem look_of_mark (mark : c ∈ marks) (bracket : c ≠ '(') (rest : List Char) : look (c :: rest) = [] := by
  refine look_of_still ?_ rest
  simp only [marks, List.mem_cons, List.not_mem_nil, or_false] at mark
  rcases mark with rfl | rfl | rfl | rfl | rfl | rfl | rfl | rfl | rfl <;> first | rfl | contradiction

end Closed

theorem look_blank {c : Char} (blank : isBlank c = true) (rest : List Char) :
    look (c :: rest) = if isStill c then [] else [c] := by
  have other {d : Char} (visible : isBlank d = false) : c ≠ d := by
    rintro rfl
    rw [visible] at blank
    cases blank
  rw [look_cons (other rfl) fun same => absurd same (other rfl),
    if_neg (not_or.mpr ⟨other (d := '.') rfl, other (d := '-') rfl⟩)]

section Passes

variable {c : Char} {text rest other : List Char} {piece : Piece} {ps qs : List Piece}

theorem opensUrl_blank (blank : isBlank c = true) (rest : List Char) :
    opensUrl ('(' :: c :: rest) = opensUrl ('(' :: rest) := by
  rw [opensUrl, opensUrl, List.dropWhile_cons_of_pos blank]

theorem opensUrl_congr (url : opensUrl ('(' :: rest) = opensUrl ('(' :: other)) (text : List Char) :
    opensUrl ('(' :: (text ++ rest)) = opensUrl ('(' :: (text ++ other)) := by
  induction text with
  | nil => exact url
  | cons c text ih =>
    cases blank : isBlank c with
    | true => rwa [List.cons_append, List.cons_append, opensUrl_blank blank, opensUrl_blank blank]
    | false =>
      have shows : ∃ d ∈ c :: text, isBlank d = false := ⟨c, List.mem_cons_self .., blank⟩
      rw [opensUrl_append shows, opensUrl_append shows]

/-- Texts that look the same look the same behind a text. -/
theorem look_append (nonempty : text ≠ []) (url : opensUrl ('(' :: rest) = opensUrl ('(' :: other))
    (same : look rest = look other) (hash : text.dropWhile (fun c => c = '.' || c = '-') = ['#'] →
      (rest.head? = some '\x7b' ↔ other.head? = some '\x7b')) :
    look (text ++ rest) = look (text ++ other) := by
  induction text with
  | nil => contradiction
  | cons c text ih =>
    by_cases sees : c = '.' ∨ c = '-'
    · have behind : look (text ++ rest) = look (text ++ other) := by
        cases text with
        | nil => exact same
        | cons d text =>
          refine ih (List.cons_ne_nil d text) fun final => hash ?_
          rwa [List.dropWhile_cons_of_pos (by simpa using sees)]
      rcases sees with rfl | rfl <;> exact congrArg (_ :: ·) behind
    have next : c = '#' → ((text ++ rest).head? = some '\x7b' ↔ (text ++ other).head? = some '\x7b') := by
      rintro rfl
      cases text with
      | nil => exact hash rfl
      | cons d text => rfl
    by_cases bracket : c = '('
    · subst bracket
      rw [List.cons_append, List.cons_append, look, look, opensUrl_congr url text]
    by_cases brace : c = '#' ∧ (text ++ rest).head? = some '\x7b'
    · obtain ⟨rfl, first⟩ := brace
      obtain ⟨_, first'⟩ := List.head?_eq_some_iff.mp first
      obtain ⟨_, second⟩ := List.head?_eq_some_iff.mp ((next rfl).mp first)
      rw [List.cons_append, List.cons_append, first', second]
      rfl
    · rw [not_and] at brace
      rw [List.cons_append, List.cons_append, look_cons bracket brace, look_cons bracket, if_neg sees,
        if_neg sees]
      exact fun hash => mt (next hash).mpr (brace hash)

/-- In place of a text another can stand behind a piece, and all pieces in front of it are read as before. -/
structure Passes (before : Option Piece) (rest other : List Char) : Prop where
  url : opensUrl ('(' :: rest) = opensUrl ('(' :: other)
  sight : ∀ piece ∈ before, piece.Closed ∨ look rest = look other ∧ (rest = [] → other = []) ∧
    (piece.IsHash → (rest.head? = some '\x7b' ↔ other.head? = some '\x7b'))

theorem Passes.exchange (passes : Passes (some piece) (texts ps) (texts qs)) (reads : Reads (piece :: ps))
    (others : Reads qs) : Reads (piece :: qs) := by
  cases reads with
  | blank blank more => exact .blank blank others
  | @token kind c part _ visible plain measured more =>
    refine .token visible plain (fun position => ?_) others
    rcases passes.sight _ rfl with (⟨b, blank, same⟩ | string | ⟨d, mark, single⟩) | ⟨same, last, hash⟩
    · obtain ⟨rfl, -⟩ := List.cons_eq_cons.mp (congrArg Piece.text same)
      rw [visible] at blank
      cases blank
    · obtain rfl : kind = .string := string
      exact measure_string_kept (measured position) _
    · obtain ⟨rfl, rfl⟩ := List.cons_eq_cons.mp single
      exact (measure_mark position mark _ _).trans (measured position)
    · exact measure_kept same last visible plain (by rintro rfl rfl; exact hash rfl) (measured position)

theorem Passes.cons (passes : Passes (some piece) rest other) (reads : Reads (piece :: ps))
    (before : Option Piece) : Passes before (piece.text ++ rest) (piece.text ++ other) := by
  obtain ⟨url, sight⟩ := passes
  have some : piece.text ≠ [] := by
    cases reads <;> exact List.cons_ne_nil _ _
  have first : (piece.text ++ rest).head? = (piece.text ++ other).head? := by
    rw [List.head?_append_of_ne_nil _ some, List.head?_append_of_ne_nil _ some]
  have same : look (piece.text ++ rest) = look (piece.text ++ other) := by
    rcases sight piece rfl with (⟨b, blank, rfl⟩ | string | ⟨d, mark, single⟩) | ⟨same, -, hash⟩
    · exact (look_blank blank rest).trans (look_blank blank other).symm
    · cases reads with
      | blank => cases string
      | @token kind c part _ _ _ measured =>
        obtain rfl : kind = .string := string
        have still : isStill c = true := by
          rcases (measure_found (measured Position.start)).1 with rfl | rfl <;> rfl
        exact (look_of_still still _).trans (look_of_still still _).symm
    · rw [single, List.singleton_append, List.singleton_append]
      by_cases bracket : d = '('
      · rw [bracket, look, look, url]
      · rw [look_of_mark mark bracket, look_of_mark mark bracket]
    · exact look_append some url same hash
  exact ⟨opensUrl_congr url _, fun _ _ => .inr ⟨same, fun none => absurd (List.append_eq_nil_iff.mp none).1 some,
    fun _ => by rw [first]⟩⟩

end Passes

/-- A piece that can go: white space or a semicolon that the piece in front of it does not need. -/
inductive Spare : Option Piece → Piece → Option Piece → Prop where
  | closed {before after : Option Piece} {piece : Piece} (blank : piece.IsBlank)
      (closed : ∀ piece ∈ before, piece.Closed) : Spare before piece after
  | still {before after : Option Piece} {c : Char} (blank : isBlank c = true) (still : isStill c = true)
      (next : ∀ piece ∈ after, ∀ d ∈ piece.text.head?, isStill d = true ∧
        (d = '\x7b' → ∀ last ∈ before, ¬ last.IsHash)) : Spare before (.blank c) after
  | semicolon {before after : Option Piece} {piece : Piece} (semicolon : piece.text = [';'])
      (brace : ∃ piece ∈ after, piece.text.head? = some '\x7d') : Spare before piece after

/-- One piece is left out. -/
inductive Drop : List Piece → List Piece → Prop where
  | intro (front : List Piece) (piece : Piece) (back : List Piece)
      (spare : Spare front.getLast? piece back.head?) : Drop (front ++ piece :: back) (front ++ back)

def Drops : List Piece → List Piece → Prop := Relation.ReflTransGen Drop

theorem Spare.passes {before : Option Piece} {piece : Piece} {back : List Piece}
    (spare : Spare before piece back.head?) (reads : Reads back) :
    Passes before (texts (piece :: back)) (texts back) := by
  generalize next : back.head? = after at spare
  cases spare with
  | closed blank closed =>
    obtain ⟨c, blank, rfl⟩ := blank
    exact ⟨opensUrl_blank blank _, fun piece member => .inl (closed piece member)⟩
  | @still _ c blank still quiet =>
    refine ⟨opensUrl_blank blank _, fun last member =>
      .inr ⟨(look_of_still still _).trans ?_, nofun, fun hash => ?_⟩⟩
    · cases back with
      | nil => rfl
      | cons piece back =>
        obtain ⟨d, rest, text⟩ := reads.exists_cons
        have behind := (quiet piece next.symm d (by rw [text]; rfl)).1
        rw [Piece.texts_cons, text, List.cons_append, look_of_still behind]
    · have own : c ≠ '\x7b' := by
        rintro rfl
        cases blank
      cases back with
      | nil => simp [Piece.blank, own]
      | cons piece back =>
        obtain ⟨d, rest, text⟩ := reads.exists_cons
        have other : d ≠ '\x7b' := fun brace =>
          (quiet piece next.symm d (by rw [text]; rfl)).2 brace last member hash
        simp [Piece.blank, own, text, other]
  | semicolon semicolon brace =>
    obtain ⟨first, member, brace⟩ := brace
    cases back with
    | nil => cases next.trans member
    | cons own back =>
      obtain rfl : own = first := Option.some.inj (next.trans member)
      obtain ⟨rest, text⟩ := List.head?_eq_some_iff.mp brace
      rw [Piece.texts_cons, Piece.texts_cons, semicolon, text]
      exact ⟨rfl, fun _ _ => .inr ⟨rfl, nofun, fun _ => by simp⟩⟩

/-- What is left when one piece is left out is read as before. The induction is on the pieces in front. -/
theorem reads_drop {front back : List Piece} {piece : Piece} (reads : Reads (front ++ piece :: back))
    (passes : Passes front.getLast? (texts (piece :: back)) (texts back)) :
    Reads (front ++ back) ∧
      (front ≠ [] → ∀ before, Passes before (texts (front ++ piece :: back)) (texts (front ++ back))) := by
  induction front with
  | nil => exact ⟨reads.behind, fun none => absurd rfl none⟩
  | cons first front ih =>
    have behind : Reads (front ++ piece :: back) := reads.behind
    obtain ⟨others, own⟩ : Reads (front ++ back) ∧
        Passes (some first) (texts (front ++ piece :: back)) (texts (front ++ back)) := by
      cases front with
      | nil => exact ⟨(ih behind ⟨passes.url, nofun⟩).1, passes⟩
      | cons next front =>
        obtain ⟨others, all⟩ := ih behind (by rwa [List.getLast?_cons_cons] at passes)
        exact ⟨others, all (List.cons_ne_nil _ _) _⟩
    exact ⟨own.exchange reads others, fun _ before => own.cons reads before⟩

theorem Drop.reads {ps qs : List Piece} (drop : Drop ps qs) (reads : Reads ps) :
    Reads qs ∧ Piece.strings qs = Piece.strings ps := by
  obtain ⟨front, piece, back, spare⟩ := drop
  have behind := reads.of_append
  have plain : piece.kind ≠ .string := by
    rcases spare with ⟨⟨c, -, rfl⟩, -⟩ | ⟨-, -, -⟩ | ⟨semicolon, -⟩
    · nofun
    · nofun
    · intro string
      cases behind with
      | blank => cases string
      | @token kind c part _ _ _ measured =>
        obtain ⟨rfl, rfl⟩ := List.cons_eq_cons.mp semicolon
        obtain rfl : kind = .string := string
        cases measured Position.start
  refine ⟨(reads_drop reads (spare.passes behind.behind)).1, ?_⟩
  rw [Piece.strings_append, Piece.strings_append, Piece.strings_cons, if_neg plain, List.nil_append]

theorem Drops.reads {ps qs : List Piece} (drops : Drops ps qs) (reads : Reads ps) :
    Reads qs ∧ Piece.strings qs = Piece.strings ps := by
  induction drops with
  | refl => exact ⟨reads, rfl⟩
  | tail _ drop ih =>
    obtain ⟨middle, same⟩ := ih
    obtain ⟨last, strings⟩ := drop.reads middle
    exact ⟨last, strings.trans same⟩

end Scss.Lexer
