import Scss.Proofs.Compression.Sheets
import Scss.Proofs.Grammar.Dropping

/-! Strings in compressed output. Compressing cuts in the text without regard to quotes. Where all that it
takes out is white space between tokens, or a semicolon that is a token, the text is read as before, and its
strings are the same. -/
namespace Scss.Compress

open Chars (isBlank replace)
open Lexer (Piece Drop Drops Spare Reads isStill)
open Lexer.Piece (texts)

/-- What is behind a row can move up to it: its last piece is not read otherwise for it. -/
def Joins (row behind : List Piece) : Prop :=
  ∀ last ∈ row.getLast?, last.Closed ∨
    (∀ c ∈ (texts behind).head?, isStill c = true) ∧
      ∀ c ∈ ((texts behind).dropWhile isBlank).head?, isStill c = true ∧ (c = '\x7b' → ¬ last.IsHash)

/-- These rows of pieces are the text: blanks stand around them, with a line feed among those between two
rows, and each row can move up to the one in front of it. -/
inductive Laid : List (List Piece) → List Piece → Prop where
  | none {gap : List Char} (blank : ∀ b ∈ gap, isBlank b = true) : Laid [] (gap.map .blank)
  | row {gap : List Char} {row behind : List Piece} {others : List (List Piece)}
      (blank : ∀ b ∈ gap, isBlank b = true) (broken : others ≠ [] → '\n' ∈ (texts behind).takeWhile isBlank)
      (joins : Joins row behind) (rest : Laid others behind) :
      Laid (row :: others) (gap.map .blank ++ (row ++ behind))

/-- The pair does not hide in the piece: neither does it stand in it, nor does the piece end with its first
character, unless it is that character. -/
structure Bare (a b : Char) (piece : Piece) : Prop where
  absent : ¬ [a, b] <:+: piece.text
  last : piece.text.getLast? = some a → piece.text = [a]

instance {a b : Char} {piece : Piece} : Decidable (Bare a b piece) :=
  decidable_of_iff (¬ [a, b] <:+: piece.text ∧ (piece.text.getLast? = some a → piece.text = [a]))
    ⟨fun ⟨absent, last⟩ => ⟨absent, last⟩, fun ⟨absent, last⟩ => ⟨absent, last⟩⟩

/-- What compressing takes out of the row stands between tokens, or is one. -/
structure Fit (row : List Piece) : Prop where
  regular : Regular (texts row)
  semicolon : ∀ piece ∈ row, Bare ';' '\x7d' piece
  header : (texts row).getLast? = some '\x7b' →
    ∀ piece ∈ row, Bare ',' ' ' piece ∧ Bare ' ' '\x7b' piece ∧ ¬ piece.IsHash
  colon : (texts row).getLast? ≠ some '\x7b' → ∀ property b value, texts row = property ++ ':' :: b :: value →
    property ≠ [] → (∀ c ∈ property, isBlank c = false ∧ c ≠ ':') → isBlank b = true →
    ∃ front mark back, row = front ++ mark :: back ∧ texts front = property ∧ mark.text = [':']

/-- A blank is a piece of its own, and no other piece begins with one. -/
def Shaped (piece : Piece) : Prop :=
  piece.IsBlank ∨ ∃ c part, isBlank c = false ∧ piece.text = c :: part

section Pieces

variable {a b : Char} {piece : Piece} {ps row : List Piece}

theorem shaped_of_reads (reads : Reads ps) : ∀ piece ∈ ps, Shaped piece := by
  induction reads with
  | nil => nofun
  | @blank c rest blank more ih => exact List.forall_mem_cons.mpr ⟨.inl ⟨c, blank, rfl⟩, ih⟩
  | @token kind c part rest visible plain measured more ih =>
    exact List.forall_mem_cons.mpr ⟨.inr ⟨c, part, visible, rfl⟩, ih⟩

theorem Shaped.nonempty (shaped : Shaped piece) : piece.text ≠ [] := by
  rcases shaped with ⟨c, -, rfl⟩ | ⟨c, part, -, text⟩
  · exact List.cons_ne_nil c []
  · exact text ▸ List.cons_ne_nil c part

/-- A piece that begins with a blank is that blank. -/
theorem Shaped.eq_blank (shaped : Shaped piece) {c : Char} (blank : isBlank c = true)
    (first : piece.text.head? = some c) : piece = .blank c := by
  rcases shaped with ⟨d, -, rfl⟩ | ⟨d, part, visible, text⟩
  · exact congrArg Piece.blank (Option.some.inj first)
  · rw [text] at first
    obtain rfl := Option.some.inj first
    rw [visible] at blank
    cases blank

theorem laid_spaced {rows : List (List Piece)} (laid : Laid rows ps) : Spaced (rows.map texts) (texts ps) := by
  induction laid with
  | none blank =>
    rw [Lexer.texts_blanks]
    exact .none blank
  | row blank broken joins rest ih =>
    rw [Piece.texts_append, Lexer.texts_blanks, Piece.texts_append]
    exact .row blank (fun more => broken (by simpa using more)) ih

theorem exists_head (shaped : ∀ piece ∈ ps, Shaped piece) (first : (texts ps).head? = some b) :
    ∃ next rest, ps = next :: rest ∧ next.text.head? = some b := by
  cases ps with
  | nil => cases first
  | cons next rest =>
    rw [Piece.texts_cons, List.head?_append_of_ne_nil _ (shaped next (List.mem_cons_self ..)).nonempty] at first
    exact ⟨next, rest, rfl, first⟩

end Pieces

section Pairs

variable {a b : Char} {ps : List Piece}

/-- The pieces without those that are the first character of a pair, when the second follows. -/
def closeUp (a b : Char) : List Piece → List Piece
  | [] => []
  | piece :: rest =>
    if piece.text = [a] ∧ (texts rest).head? = some b then closeUp a b rest else piece :: closeUp a b rest

theorem texts_closeUp (differ : a ≠ b) (bare : ∀ piece ∈ ps, Bare a b piece) :
    texts (closeUp a b ps) = replace [a, b] [b] (texts ps) := by
  induction ps with
  | nil => rfl
  | cons piece rest ih =>
    obtain ⟨⟨absent, last⟩, behind⟩ := List.forall_mem_cons.mp bare
    rw [closeUp]
    split
    · rename_i pair
      obtain ⟨more, next⟩ := List.head?_eq_some_iff.mp pair.2
      rw [ih behind, Piece.texts_cons, pair.1, next]
      exact (Chars.replace_pair_first differ more).symm
    · rename_i other
      rw [Piece.texts_cons, Piece.texts_cons, ih behind,
        Chars.replace_append fun ends next => other ⟨last ends, next⟩, Chars.replace_of_absent absent]

theorem closeUp_subset (ps : List Piece) : closeUp a b ps ⊆ ps := by
  induction ps with
  | nil => exact List.Subset.refl []
  | cons piece rest ih =>
    rw [closeUp]
    split
    · exact List.subset_cons_of_subset _ ih
    · exact List.cons_subset_cons _ ih

theorem getLast?_closeUp (ps : List Piece) : (closeUp a b ps).getLast? = ps.getLast? := by
  induction ps with
  | nil => rfl
  | cons piece rest ih =>
    rw [closeUp]
    split
    · rename_i pair
      cases rest with
      | nil => cases pair.2
      | cons next rest => rw [ih, List.getLast?_cons_cons]
    · rw [List.getLast?_cons, List.getLast?_cons, ih]

/-- Each of these pieces can go, whatever is in front of the first and behind the last. -/
theorem drops_closeUp (clear : Option Piece → Prop) (shaped : ∀ piece ∈ ps, Shaped piece)
    (kept : ∀ piece ∈ ps, clear (some piece))
    (spare : ∀ before piece next, clear before → piece ∈ ps → piece.text = [a] → next.text.head? = some b →
      Spare before piece (some next))
    (front : List Piece) (start : clear front.getLast?) (back : List Piece) :
    Drops (front ++ (ps ++ back)) (front ++ (closeUp a b ps ++ back)) := by
  induction ps generalizing front with
  | nil => exact .refl
  | cons piece rest ih =>
    obtain ⟨own, behind⟩ := List.forall_mem_cons.mp shaped
    have others (front : List Piece) := ih behind (fun piece member => kept piece (List.mem_cons_of_mem _ member))
      (fun before piece next ready member => spare before piece next ready (List.mem_cons_of_mem _ member)) front
    rw [closeUp]
    split
    · rename_i pair
      obtain ⟨next, more, rfl, first⟩ := exists_head behind pair.2
      have gone := spare _ piece next start (List.mem_cons_self ..) pair.1 first
      exact .head (.intro front piece _ gone) (others front start)
    · have longer := others (front ++ [piece]) (by simpa using kept piece (List.mem_cons_self ..))
      simpa only [List.append_assoc, List.cons_append, List.nil_append] using longer

def unspaced : List Piece → List Piece
  | comma :: space :: rest =>
    if comma.text = [','] ∧ space = .blank ' ' then comma :: unspaced rest else comma :: unspaced (space :: rest)
  | others => others

theorem texts_unspaced (shaped : ∀ piece ∈ ps, Shaped piece) (bare : ∀ piece ∈ ps, Bare ',' ' ' piece) :
    texts (unspaced ps) = replace [',', ' '] [','] (texts ps) := by
  fun_induction unspaced ps with
  | case1 comma space rest pair ih =>
    obtain ⟨comma', space'⟩ := pair
    subst space'
    simp only [List.forall_mem_cons] at shaped bare
    rw [Piece.texts_cons, Piece.texts_cons, Piece.texts_cons, comma', ih shaped.2.2 bare.2.2]
    exact (Chars.replace_pair _).symm
  | case2 comma space rest other ih =>
    obtain ⟨-, behind⟩ := List.forall_mem_cons.mp shaped
    obtain ⟨⟨absent, last⟩, others⟩ := List.forall_mem_cons.mp bare
    rw [Piece.texts_cons, Piece.texts_cons comma, ih behind others, Chars.replace_append,
      Chars.replace_of_absent absent]
    intro ends next
    obtain ⟨_, _, same, first⟩ := exists_head behind next
    obtain ⟨rfl, -⟩ := List.cons_eq_cons.mp same
    exact other ⟨last ends, (behind space (List.mem_cons_self ..)).eq_blank rfl first⟩
  | case3 ps single =>
    refine (Chars.replace_of_absent ?_).symm
    match ps with
    | [] => simp
    | [piece] => simpa using (bare piece (List.mem_cons_self ..)).absent
    | comma :: space :: rest => exact absurd rfl (single comma space rest)

theorem unspaced_subset (ps : List Piece) : unspaced ps ⊆ ps := by
  fun_induction unspaced ps with
  | case1 comma space rest pair ih => exact List.cons_subset_cons _ (List.subset_cons_of_subset _ ih)
  | case2 comma space rest other ih => exact List.cons_subset_cons _ ih
  | case3 ps single => exact List.Subset.refl ps

theorem head?_unspaced (ps : List Piece) : (unspaced ps).head? = ps.head? := by
  fun_induction unspaced ps <;> rfl

theorem getLast?_unspaced (last : ps.getLast? ≠ some (.blank ' ')) : (unspaced ps).getLast? = ps.getLast? := by
  fun_induction unspaced ps with
  | case1 comma space rest pair ih =>
    obtain ⟨-, rfl⟩ := pair
    cases rest with
    | nil => exact absurd rfl last
    | cons next rest =>
      rw [List.getLast?_cons_cons, List.getLast?_cons_cons] at last ⊢
      rw [List.getLast?_cons, ih last, List.getLast?_cons]
      rfl
  | case2 comma space rest other ih =>
    rw [List.getLast?_cons_cons] at last ⊢
    rw [List.getLast?_cons, ih last, List.getLast?_cons]
    rfl
  | case3 ps single => rfl

theorem drops_unspaced (front ps back : List Piece) :
    Drops (front ++ (ps ++ back)) (front ++ (unspaced ps ++ back)) := by
  fun_induction unspaced ps generalizing front with
  | case1 comma space rest pair ih =>
    obtain ⟨comma', rfl⟩ := pair
    have closed : comma.Closed := .inr (.inr ⟨',', by decide, comma'⟩)
    have step : Drop ((front ++ [comma]) ++ .blank ' ' :: (rest ++ back))
        ((front ++ [comma]) ++ (rest ++ back)) :=
      .intro _ _ _ (.closed ⟨' ', rfl, rfl⟩ (by simpa using closed))
    have others : Drops _ _ := .head step (ih (front ++ [comma]))
    simpa only [List.append_assoc, List.cons_append, List.nil_append] using others
  | case2 comma space rest other ih =>
    simpa only [List.append_assoc, List.cons_append, List.nil_append] using ih (front ++ [comma])
  | case3 ps single => exact .refl

end Pairs

section Gaps

variable {gap : List Char} {front back : List Piece}

theorem blank_closed {b : Char} (blank : isBlank b = true) : (Piece.blank b).Closed := .inl ⟨b, blank, rfl⟩

/-- Behind a closed piece all blanks can go. -/
theorem drops_gap (blank : ∀ b ∈ gap, isBlank b = true) (closed : ∀ last ∈ front.getLast?, last.Closed)
    (back : List Piece) : Drops (front ++ (gap.map .blank ++ back)) (front ++ back) := by
  induction gap with
  | nil => exact .refl
  | cons b gap ih =>
    obtain ⟨here, behind⟩ := List.forall_mem_cons.mp blank
    exact .head (.intro front (.blank b) _ (.closed ⟨b, here, rfl⟩ closed)) (ih behind)

/-- All blanks can go if what is behind them can move up. -/
theorem drops_joined (blank : ∀ b ∈ gap, isBlank b = true) (joins : Joins front (gap.map .blank ++ back))
    (visible : ∀ piece ∈ back.head?, ∃ c part, isBlank c = false ∧ piece.text = c :: part) :
    Drops (front ++ (gap.map .blank ++ back)) (front ++ back) := by
  cases gap with
  | nil => exact .refl
  | cons b gap =>
    obtain ⟨here, behind⟩ := List.forall_mem_cons.mp blank
    -- The first blank is the last to go: those behind it are behind a closed piece.
    have others : Drops ((front ++ [.blank b]) ++ (gap.map .blank ++ back)) ((front ++ [.blank b]) ++ back) :=
      drops_gap behind (by simpa using blank_closed here) back
    have spare : Spare front.getLast? (.blank b) back.head? := by
      by_cases closed : ∀ last ∈ front.getLast?, last.Closed
      · exact .closed ⟨b, here, rfl⟩ closed
      · simp only [not_forall] at closed
        obtain ⟨last, member, opened⟩ := closed
        obtain ⟨first, next⟩ := (joins last member).resolve_left opened
        refine .still here (first b rfl) fun piece ahead d start => ?_
        obtain ⟨c, part, shows, text⟩ := visible piece ahead
        obtain ⟨more, rfl⟩ := List.head?_eq_some_iff.mp ahead
        obtain rfl : c = d := by
          rw [text] at start
          exact Option.some.inj start
        have seen : ((texts ((b :: gap).map .blank ++ piece :: more)).dropWhile isBlank).head? = some c := by
          rw [Piece.texts_append, Lexer.texts_blanks, List.dropWhile_append_of_pos blank, Piece.texts_cons, text,
            List.cons_append, List.dropWhile_cons_of_neg (by simp [shows])]
          rfl
        obtain ⟨still, apart⟩ := next c seen
        refine ⟨still, fun brace other same => ?_⟩
        obtain rfl := Option.some.inj (member.symm.trans same)
        exact apart brace
    have step : Drop (front ++ .blank b :: back) (front ++ back) := .intro front _ back spare
    have together : Drops _ _ := .tail others (by simpa using step)
    simpa using together

end Gaps

section Lines

variable {row : List Piece}

/-- A row begins with a piece that is no blank. -/
theorem Fit.exists_first (fit : Fit row) (shaped : ∀ piece ∈ row, Shaped piece) :
    ∃ first rest c part, row = first :: rest ∧ isBlank c = false ∧ first.text = c :: part := by
  obtain ⟨c, _, text⟩ := List.exists_cons_of_ne_nil fit.regular.nonempty
  obtain ⟨first, rest, rfl, start⟩ := exists_head shaped (by rw [text]; rfl)
  obtain ⟨part, own⟩ := List.head?_eq_some_iff.mp start
  exact ⟨first, rest, c, part, rfl, fit.regular.flush.head c (by rw [text]; rfl), own⟩

/-- It does not end with a blank. -/
theorem Fit.last_ne_blank (fit : Fit row) {b : Char} (blank : isBlank b = true) :
    row.getLast? ≠ some (.blank b) := by
  intro last
  obtain ⟨front, rfl⟩ := List.getLast?_eq_some_iff.mp last
  have visible := fit.regular.flush.last b (by simp [Piece.blank])
  rw [visible] at blank
  cases blank

/-- A row is changed only if a blank stands behind its first colon and in front of the colon a word. -/
theorem tightenColon_cases (text : List Char) : tightenColon text = text ∨
    ∃ property b value, text = property ++ ':' :: b :: value ∧ property ≠ [] ∧
      (∀ c ∈ property, isBlank c = false ∧ c ≠ ':') ∧ isBlank b = true ∧
      tightenColon text = property ++ ':' :: Chars.trimStart (b :: value) := by
  have whole := List.takeWhile_append_dropWhile (p := fun c => c ≠ ':' && !isBlank c) (l := text)
  have word : ∀ c ∈ text.takeWhile fun c => c ≠ ':' && !isBlank c, isBlank c = false ∧ c ≠ ':' := by
    intro c member
    have inside := List.mem_takeWhile_imp member
    simpa [and_comm] using inside
  rw [tightenColon, drop_word]
  generalize text.takeWhile (fun c => c ≠ ':' && !isBlank c) = property at *
  generalize text.dropWhile (fun c => c ≠ ':' && !isBlank c) = behind at *
  split
  · rename_i rest
    split
    · exact .inl rfl
    · rename_i some
      cases rest with
      | nil => exact .inl whole
      | cons b value =>
        cases blank : isBlank b with
        | false =>
          have still : Chars.trimStart (b :: value) = b :: value := Chars.trimStart_of_head (by simpa using blank)
          exact .inl (still.symm ▸ whole)
        | true => exact .inr ⟨property, b, value, whole.symm, by simpa using some, word, blank, rfl⟩
  · exact .inl rfl

/-- The first colon of a text has one place in it. -/
theorem first_colon {front rest property value : List Char} (plain : ':' ∉ front) (word : ∀ c ∈ property, c ≠ ':')
    (same : front ++ ':' :: rest = property ++ ':' :: value) : front = property := by
  have ahead {part : List Char} (free : ∀ c ∈ part, c ≠ ':') (rest : List Char) :
      (part ++ ':' :: rest).takeWhile (· ≠ ':') = part := by
    rw [List.takeWhile_append_of_pos fun c member => by simpa using free c member,
      List.takeWhile_cons_of_neg (by simp), List.append_nil]
  rw [← ahead (fun c member => ne_of_mem_of_not_mem member plain) rest, same, ahead word]

/-- The blanks in front of the other pieces. -/
theorem exists_gap {ps : List Piece} (shaped : ∀ piece ∈ ps, Shaped piece) : ∃ (gap : List Char) (others : _),
    ps = gap.map .blank ++ others ∧ (∀ b ∈ gap, isBlank b = true) ∧
      texts others = Chars.trimStart (texts ps) := by
  induction ps with
  | nil => exact ⟨[], [], rfl, nofun, rfl⟩
  | cons piece rest ih =>
    obtain ⟨own, behind⟩ := List.forall_mem_cons.mp shaped
    rcases own with ⟨c, blank, rfl⟩ | ⟨c, part, visible, text⟩
    · obtain ⟨gap, others, rfl, blanks, same⟩ := ih behind
      refine ⟨c :: gap, others, rfl, List.forall_mem_cons.mpr ⟨blank, blanks⟩, same.trans ?_⟩
      exact (List.dropWhile_cons_of_pos blank).symm
    · refine ⟨[], piece :: rest, rfl, nofun, ?_⟩
      rw [Piece.texts_cons, text, List.cons_append]
      exact (List.dropWhile_cons_of_neg (by simp [visible])).symm

/-- The line of a header: no space stands behind its commas and in front of its brace. -/
theorem Fit.exists_header (fit : Fit row) (shaped : ∀ piece ∈ row, Shaped piece)
    (header : (texts row).getLast? = some '\x7b') :
    ∃ others, texts others = line (texts row) ∧ others ⊆ row ∧ others.getLast? = row.getLast? ∧
      ∀ front back, Drops (front ++ (row ++ back)) (front ++ (others ++ back)) := by
  have bare := fit.header header
  have kept := unspaced_subset row
  have last := getLast?_unspaced (fit.last_ne_blank rfl)
  refine ⟨closeUp ' ' '\x7b' (unspaced row), ?_, List.Subset.trans (closeUp_subset _) kept,
    (getLast?_closeUp _).trans last, fun front back => ?_⟩
  · rw [texts_closeUp (by decide) fun piece member => (bare piece (kept member)).2.1,
      texts_unspaced shaped fun piece member => (bare piece member).1, line, if_pos header]
    rfl
  · obtain ⟨first, rest, c, part, rfl, visible, start⟩ := fit.exists_first shaped
    obtain ⟨tail, same⟩ := List.head?_eq_some_iff.mp ((head?_unspaced (first :: rest)).trans rfl)
    have stays : closeUp ' ' '\x7b' (unspaced (first :: rest)) = first :: closeUp ' ' '\x7b' tail := by
      rw [same, closeUp, if_neg]
      rintro ⟨space, -⟩
      rw [start] at space
      obtain ⟨rfl, -⟩ := List.cons_eq_cons.mp space
      cases visible
    have within : tail ⊆ first :: rest := List.Subset.trans (List.subset_cons_self first tail) (same ▸ kept)
    have commas := drops_unspaced front (first :: rest) back
    rw [same] at commas
    rw [stays]
    have clear (piece : Piece) (member : piece ∈ first :: rest) :
        ∀ last ∈ some piece, ¬ last.IsHash := by
      rintro _ ⟨⟩
      exact (bare piece member).2.2
    have spare (before : Option Piece) (piece next : Piece) (ready : ∀ last ∈ before, ¬ last.IsHash)
        (member : piece ∈ tail) (space : piece.text = [' ']) (brace : next.text.head? = some '\x7b') :
        Spare before piece (some next) := by
      obtain rfl := (shaped piece (within member)).eq_blank (c := ' ') rfl (by rw [space]; rfl)
      refine .still rfl rfl ?_
      rintro _ ⟨⟩ d first
      obtain rfl := Option.some.inj (brace.symm.trans first)
      exact ⟨rfl, fun _ => ready⟩
    have others := drops_closeUp (fun before => ∀ last ∈ before, ¬ last.IsHash)
      (fun piece member => shaped piece (within member)) (fun piece member => clear piece (within member)) spare
      (front ++ [first]) (by simpa using clear first (List.mem_cons_self ..)) back
    simp only [List.append_assoc, List.cons_append, List.nil_append] at others commas ⊢
    exact commas.trans others

/-- The line of a declaration: no blank stands behind the colon. -/
theorem Fit.exists_declaration (fit : Fit row) (shaped : ∀ piece ∈ row, Shaped piece)
    (other : (texts row).getLast? ≠ some '\x7b') :
    ∃ others, texts others = tightenColon (texts row) ∧ others ⊆ row ∧ others.getLast? = row.getLast? ∧
      ∀ front back, Drops (front ++ (row ++ back)) (front ++ (others ++ back)) := by
  rcases tightenColon_cases (texts row) with same | ⟨property, b, value, text, some, word, blank, tight⟩
  · exact ⟨row, same.symm, List.Subset.refl row, rfl, fun _ _ => .refl⟩
  obtain ⟨before, mark, behind, rfl, front, colon⟩ := fit.colon other property b value text some word blank
  obtain ⟨gap, others, rfl, blanks, shown⟩ :=
    exists_gap fun piece member => shaped piece (List.mem_append_right _ (List.mem_cons_of_mem _ member))
  have value_eq : texts (gap.map .blank ++ others) = b :: value := by
    rw [Piece.texts_append, Piece.texts_cons, front, colon] at text
    exact List.append_cancel_left (List.append_cancel_left text)
  -- The row does not end with a blank, so there is something behind the blanks.
  have more : others ≠ [] := by
    rintro rfl
    rw [List.append_nil, Lexer.texts_blanks] at value_eq
    subst value_eq
    have ends : (b :: value).getLast (List.cons_ne_nil b value) ∈ b :: value := List.getLast_mem _
    refine fit.last_ne_blank (blanks _ ends) ?_
    rw [List.append_nil, List.getLast?_append_of_ne_nil _ (by simp), List.getLast?_cons_of_ne_nil (by simp),
      List.getLast?_map, List.getLast?_eq_some_getLast]
    rfl
  have closed : mark.Closed := .inr (.inr ⟨':', by decide, colon⟩)
  refine ⟨before ++ mark :: others, ?_, ?_, ?_, fun front back => ?_⟩
  · rw [tight, Piece.texts_append, Piece.texts_cons, front, colon, shown, value_eq]
    rfl
  · refine List.append_subset.mpr ⟨List.subset_append_left .., List.subset_append_of_subset_right _ ?_⟩
    exact List.cons_subset_cons _ (List.subset_append_right ..)
  · obtain ⟨next, rest, rfl⟩ := List.exists_cons_of_ne_nil more
    simp [List.getLast?_append, List.getLast?_cons]
  · have drops : Drops (front ++ before ++ [mark] ++ _) _ :=
      drops_gap blanks (by simpa using closed) (others ++ back)
    simpa only [List.append_assoc, List.cons_append, List.nil_append] using drops

/-- What compressing makes of a row are the pieces of the row without some that can go. -/
theorem Fit.exists_line (fit : Fit row) (shaped : ∀ piece ∈ row, Shaped piece) :
    ∃ others, texts others = line (texts row) ∧ others ⊆ row ∧ others.getLast? = row.getLast? ∧
      ∀ front back, Drops (front ++ (row ++ back)) (front ++ (others ++ back)) := by
  by_cases header : (texts row).getLast? = some '\x7b'
  · exact fit.exists_header shaped header
  rw [line, if_neg header]
  split
  · exact ⟨row, rfl, List.Subset.refl row, rfl, fun _ _ => .refl⟩
  · exact fit.exists_declaration shaped header

end Lines

/-- The lines that compressing makes are what is left of the text when some pieces go that can go. The
induction is on the rows; what is in front of the first matters by its last piece only. -/
theorem drops_rows {rows : List (List Piece)} {ps : List Piece} (laid : Laid rows ps)
    (fit : ∀ row ∈ rows, Fit row) (shaped : ∀ piece ∈ ps, Shaped piece) (front : List Piece)
    (joins : Joins front ps) :
    ∃ qs, texts qs = (rows.map texts).flatMap line ∧ (∀ piece ∈ qs, Bare ';' '\x7d' piece ∧ Shaped piece) ∧
      Drops (front ++ ps) (front ++ qs) := by
  induction laid generalizing front with
  | @none gap blank =>
    have gone : Drops (front ++ (gap.map .blank ++ [])) (front ++ []) :=
      drops_joined blank (by simpa using joins) nofun
    exact ⟨[], rfl, nofun, by simpa using gone⟩
  | @row gap row behind others blank broken own rest ih =>
    obtain ⟨here, later⟩ := List.forall_mem_cons.mp fit
    obtain ⟨-, shaped⟩ := List.forall_mem_append.mp shaped
    obtain ⟨within, after⟩ := List.forall_mem_append.mp shaped
    obtain ⟨kept, texts_kept, subset, last, cuts⟩ := here.exists_line within
    obtain ⟨first, tail, c, part, row_eq, visible, start⟩ := here.exists_first within
    have last_eq : (front ++ kept).getLast? = row.getLast? := by
      have some : kept ≠ [] := by
        rintro rfl
        rw [row_eq] at last
        cases List.getLast?_eq_none_iff.mp last.symm
      rw [List.getLast?_append_of_ne_nil _ some, last]
    obtain ⟨qs, texts_qs, all, drops⟩ :=
      ih later after (front ++ kept) fun piece member => own piece (last_eq ▸ member)
    refine ⟨kept ++ qs, ?_, List.forall_mem_append.mpr ⟨fun piece member => ?_, all⟩, ?_⟩
    · rw [Piece.texts_append, texts_kept, texts_qs, List.map_cons, List.flatMap_cons]
    · exact ⟨here.semicolon piece (subset member), within piece (subset member)⟩
    · have up : Drops (front ++ (gap.map .blank ++ (row ++ behind))) (front ++ (row ++ behind)) := by
        refine drops_joined blank joins fun piece ahead => ?_
        rw [row_eq, List.cons_append] at ahead
        obtain rfl := Option.some.inj ahead
        exact ⟨c, part, visible, start⟩
      rw [List.append_assoc, List.append_assoc] at drops
      exact (up.trans (cuts front behind)).trans drops

/-- A text without comments, the rows of which are fit, is compressed to a text with the same strings. -/
theorem strings_kept {css : String} {tokens : List Token} (lexed : Lexer.tokens css = .ok tokens)
    (plain : ∀ token ∈ tokens, token.kind ≠ .comment) (silent : ¬ Opens css.toList [])
    {rows : List (List Piece)} (laid : Laid rows (Lexer.pieces tokens)) (fit : ∀ row ∈ rows, Fit row) :
    ∃ others, Lexer.tokens (text css) = .ok others ∧ Lexer.strings others = Lexer.strings tokens := by
  obtain ⟨reads, whole, strings⟩ := Lexer.reads_pieces lexed plain
  obtain ⟨lines, texts_lines, all, drops⟩ := drops_rows laid fit (shaped_of_reads reads) [] nofun
  -- A semicolon that is a token goes if a brace follows, whatever is in front of it.
  have closed : Drops lines (closeUp ';' '\x7d' lines) := by
    have close := drops_closeUp (fun _ => True) (fun piece member => (all piece member).2) (fun _ _ => trivial)
      (fun _ _ next _ _ semicolon brace => .semicolon semicolon ⟨next, rfl, brace⟩) [] trivial []
    simpa using close
  have shortened : texts (closeUp ';' '\x7d' lines) = chars css.toList := by
    have still : strip css.toList = css.toList := by
      have apart := strip_append silent (by simp)
      rwa [List.append_nil, strip_nil, List.append_nil] at apart
    have found : Compress.rows css.toList = rows.map texts :=
      (whole ▸ laid_spaced laid).rows_eq (List.forall_mem_map.mpr fun row member => (fit row member).regular)
    rw [texts_closeUp (by decide) fun piece member => (all piece member).1, texts_lines, chars_eq, still, found]
  obtain ⟨last, same⟩ := Drops.reads (drops.trans closed) reads
  obtain ⟨others, read, kept⟩ := last.exists_tokens Position.start
  refine ⟨others, ?_, ?_⟩
  · rwa [Lexer.tokens, text, String.toList_ofList, ← shortened]
  · refine List.map_injective_iff.mpr (fun _ _ => String.toList_injective) ?_
    rw [kept, same, List.nil_append, strings]

/-- A value with what compressing looks for in its strings. -/
theorem strings_kept_marks :
    let css := ".a, .b[c=\"d\"] \x7b\n  e: \"f, g \x7b\" \"h: i\";\n\x7d\n"
    let header : List Piece := [⟨.dot, ['.']⟩, ⟨.ident, ['a']⟩, ⟨.comma, [',']⟩, .blank ' ', ⟨.dot, ['.']⟩,
      ⟨.ident, ['b']⟩, ⟨.leftBracket, ['[']⟩, ⟨.ident, ['c']⟩, ⟨.assign, ['=']⟩, ⟨.string, "\"d\"".toList⟩,
      ⟨.rightBracket, [']']⟩, .blank ' ', ⟨.leftBrace, ['\x7b']⟩]
    let declaration : List Piece := [⟨.ident, ['e']⟩, ⟨.colon, [':']⟩, .blank ' ',
      ⟨.string, "\"f, g \x7b\"".toList⟩, .blank ' ', ⟨.string, "\"h: i\"".toList⟩, ⟨.semicolon, [';']⟩]
    let rows := [header, declaration, [⟨.rightBrace, ['\x7d']⟩]]
    ∃ tokens, Lexer.tokens css = .ok tokens ∧ (∀ token ∈ tokens, token.kind ≠ .comment) ∧
      ¬ Opens css.toList [] ∧ Laid rows (Lexer.pieces tokens) ∧ (∀ row ∈ rows, Fit row) ∧
      text css = ".a,.b[c=\"d\"]\x7be:\"f, g \x7b\" \"h: i\"\x7d" ∧
      ∃ others, Lexer.tokens (text css) = .ok others ∧
        Lexer.strings others = ["\"d\"", "\"f, g \x7b\"", "\"h: i\""] := by
  intro css header declaration rows
  have cut : Lexer.pieces <$> Lexer.tokens css = .ok ([].map .blank ++ (header ++ (['\n', ' ', ' '].map .blank ++
      (declaration ++ (['\n'].map .blank ++ ([⟨.rightBrace, ['\x7d']⟩] ++ ['\n'].map .blank)))))) := by
    decide +kernel
  have quiet : (·.all (·.kind ≠ .comment)) <$> Lexer.tokens css = .ok true := by decide +kernel
  have quoted : Lexer.strings <$> Lexer.tokens css = .ok ["\"d\"", "\"f, g \x7b\"", "\"h: i\""] := by
    decide +kernel
  rcases lexed : Lexer.tokens css with fault | tokens <;> rw [lexed] at cut quiet quoted
  · cases cut
  have pieces := Except.ok.inj cut
  have plain : ∀ token ∈ tokens, token.kind ≠ .comment := by
    simpa using Except.ok.inj quiet
  have silent : ¬ Opens css.toList [] := by decide +kernel
  have laid : Laid rows (Lexer.pieces tokens) := by
    have marked {row behind : List Piece} {kind : TokenKind} {c : Char} (last : row.getLast? = some ⟨kind, [c]⟩)
        (mark : c ∈ Lexer.marks) : Joins row behind := by
      intro other same
      obtain rfl := Option.some.inj (last.symm.trans same)
      exact .inl (.inr (.inr ⟨c, mark, rfl⟩))
    have blanks {gap : List Char} (all : gap.all isBlank = true) : ∀ b ∈ gap, isBlank b = true :=
      List.all_eq_true.mp all
    rw [pieces]
    refine .row (blanks ?_) ?_ (marked rfl ?_) (.row (blanks ?_) ?_ (marked rfl ?_)
      (.row (blanks ?_) ?_ (marked rfl ?_) (.none (blanks ?_)))) <;> decide +kernel
  have fit : ∀ row ∈ rows, Fit row := by
    have regular : ∀ row ∈ rows, Regular (texts row) := by decide +kernel
    have semicolon : ∀ row ∈ rows, ∀ piece ∈ row, Bare ';' '\x7d' piece := by decide +kernel
    have opening : ∀ row ∈ rows, (texts row).getLast? = some '\x7b' →
        ∀ piece ∈ row, Bare ',' ' ' piece ∧ Bare ' ' '\x7b' piece ∧ ¬ piece.IsHash := by
      decide +kernel
    intro row member
    refine ⟨regular row member, semicolon row member, opening row member, ?_⟩
    simp only [rows, List.mem_cons, List.not_mem_nil, or_false] at member
    rcases member with rfl | rfl | rfl
    · exact fun other => absurd (by decide +kernel) other
    · intro _ property b value same _ word _
      have front := first_colon (by decide +kernel) (fun c member => (word c member).2) same
      exact ⟨[⟨.ident, ['e']⟩], _, _, rfl, front, rfl⟩
    · intro _ property b value same
      have inside : ':' ∈ texts [⟨.rightBrace, ['\x7d']⟩] := by simp [same]
      exact absurd inside (by decide +kernel)
  obtain ⟨others, read, same⟩ := strings_kept lexed plain silent laid fit
  exact ⟨tokens, rfl, plain, silent, laid, fit, by decide +kernel, others, read,
    same.trans (Except.ok.inj quoted)⟩

/-- A semicolon in a string goes if a brace follows it there. A text of numbers, two of which make one when
they move up to each other, is no text of tokens any more. -/
theorem semicolon_in_string_lost :
    let css := "a \x7b\n  b: \"c;\x7dd\";\n\x7d\n"
    (·.all (·.kind ≠ .comment)) <$> Lexer.tokens css = .ok true ∧
      Lexer.strings <$> Lexer.tokens css = .ok ["\"c;\x7dd\""] ∧
      Lexer.strings <$> Lexer.tokens (text css) = .ok ["\"c\x7dd\""] ∧
      (Lexer.tokens "1\n.5\n.5").isOk = true ∧ (Lexer.tokens (text "1\n.5\n.5")).isOk = false := by
  decide +kernel

end Scss.Compress
