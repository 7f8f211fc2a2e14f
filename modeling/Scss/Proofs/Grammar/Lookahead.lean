import Scss.Proofs.Grammar.Numbers
import Scss.Proofs.Grammar.Strings
import Scss.Proofs.Pairs
import Scss.Proofs.Quoting
import Scss.Proofs.Texts

/-! How far a token sees. Which characters the lexer takes for a token depends on the text behind them, but
only by a few characters of it, and most characters are as good as the end of the text. -/
namespace Scss.Lexer

/-- A character that no rule looks for behind the first character of a token. -/
def isStill (c : Char) : Bool :=
  c.toNat < 128 && !isNameChar c && c ∉ ['(', '.', '#', '\\', '=', '*', '/', '+', '%']

/-- What a token can see of the text behind it. -/
def look : List Char → List Char
  | [] => []
  | '#' :: '\x7b' :: _ => ['#', '\x7b']
  | '(' :: rest => if opensUrl ('(' :: rest) then ['('] else ['(', ')']
  | c :: rest => if isStill c then [] else if c = '.' ∨ c = '-' then c :: look rest else [c]

section Still

variable {c : Char}

theorem not_name_of_still (still : isStill c = true) : isNameChar c = false := by
  simp only [isStill, Bool.and_eq_true, Bool.not_eq_true'] at still
  exact still.1.2

theorem not_alpha_of_still (still : isStill c = true) : c.isAlpha = false := by
  have plain := not_name_of_still still
  simp only [isNameChar, Char.isAlphanum, Bool.or_eq_false_iff] at plain
  exact plain.1.1.1.1

theorem not_digit_of_still (still : isStill c = true) : c.isDigit = false := by
  have plain := not_name_of_still still
  simp only [isNameChar, Char.isAlphanum, Bool.or_eq_false_iff] at plain
  exact plain.1.1.1.2

theorem not_start_of_still (still : isStill c = true) : isNameStart c = false := by
  have plain := not_name_of_still still
  simp only [isNameChar, Bool.or_eq_false_iff] at plain
  simp [isNameStart, not_alpha_of_still still, plain.1.1.2, plain.2]

/-- The characters that rules look for by themselves are not still. -/
theorem ne_of_still (still : isStill c = true) {d : Char} (sought : isStill d = false) : c ≠ d := by
  rintro rfl
  rw [still] at sought
  cases sought

end Still

section Look

variable {p : Char → Bool} {c : Char} {part rest other : List Char}

theorem look_cons (bracket : c ≠ '(') (hash : c = '#' → rest.head? ≠ some '\x7b') :
    look (c :: rest) = if isStill c then [] else if c = '.' ∨ c = '-' then c :: look rest else [c] := by
  rw [look.eq_def]
  split
  · contradiction
  · rename_i same
    obtain ⟨rfl, rfl⟩ := List.cons_eq_cons.mp same
    exact absurd rfl (hash rfl)
  · rename_i same
    exact absurd (List.cons_eq_cons.mp same).1 bracket
  · rename_i same
    obtain ⟨rfl, rfl⟩ := List.cons_eq_cons.mp same
    rfl

theorem look_of_still (still : isStill c = true) (rest : List Char) : look (c :: rest) = [] := by
  rw [look_cons (ne_of_still still rfl) fun same => absurd same (ne_of_still still rfl), if_pos still]

/-- The first character is seen, unless it is still. -/
theorem head?_look (loud : isStill c = false) (rest : List Char) : (look (c :: rest)).head? = some c := by
  by_cases bracket : c = '('
  · subst bracket
    rw [look]
    split <;> rfl
  by_cases hash : c = '#' ∧ rest.head? = some '\x7b'
  · obtain ⟨rfl, brace⟩ := hash
    obtain ⟨more, rfl⟩ := List.head?_eq_some_iff.mp brace
    rfl
  · rw [look_cons bracket (not_and.mp hash), loud]
    split <;> [contradiction; split <;> rfl]

theorem headIs_look (quiet : ∀ c, isStill c = true → p c = false) (text : List Char) :
    headIs p (look text) = headIs p text := by
  cases text with
  | nil => rfl
  | cons c rest =>
    cases still : isStill c with
    | true => rw [look_of_still still, headIs, headIs, quiet c still]
    | false =>
      obtain ⟨more, seen⟩ := List.head?_eq_some_iff.mp (head?_look still rest)
      rw [seen, headIs, headIs]

/-- What is behind a point or a hyphen is seen as well. -/
theorem look_eq_cons (sees : c = '.' ∨ c = '-') {text seen : List Char} :
    look text = c :: seen ↔ ∃ rest, text = c :: rest ∧ look rest = seen := by
  have own (rest : List Char) : look (c :: rest) = c :: look rest := by
    rcases sees with rfl | rfl <;> rfl
  constructor
  · intro found
    cases text with
    | nil => cases found
    | cons d rest =>
      cases still : isStill d with
      | true =>
        rw [look_of_still still] at found
        cases found
      | false =>
        have first := head?_look still rest
        rw [found] at first
        obtain rfl := Option.some.inj first
        rw [own] at found
        exact ⟨rest, rfl, (List.cons_eq_cons.mp found).2⟩
  · rintro ⟨rest, rfl, rfl⟩
    exact own rest

theorem opensUrl_iff_look (text : List Char) : opensUrl text = true ↔ look text = ['('] := by
  cases text with
  | nil => simp [opensUrl, look]
  | cons c rest =>
    by_cases bracket : c = '('
    · subst bracket
      rw [look]
      split <;> simp_all
    · have closed : opensUrl (c :: rest) = false := by
        rw [opensUrl.eq_def]
        split
        · rename_i same
          exact absurd (List.cons_eq_cons.mp same).1 bracket
        · rfl
      rw [closed]
      cases still : isStill c with
      | true => simp [look_of_still still]
      | false =>
        have first := head?_look still rest
        refine iff_of_false Bool.false_ne_true fun seen => bracket ?_
        rw [seen] at first
        exact (Option.some.inj first).symm

theorem look_eq_hash {text : List Char} : look text = ['#', '\x7b'] ↔ ['#', '\x7b'] <+: text := by
  constructor
  · intro seen
    cases text with
    | nil => cases seen
    | cons c rest =>
      cases still : isStill c with
      | true =>
        rw [look_of_still still] at seen
        cases seen
      | false =>
        have first := head?_look still rest
        rw [seen] at first
        obtain rfl := Option.some.inj first
        by_contra other
        have apart : rest.head? ≠ some '\x7b' := fun brace => other (Chars.pair_prefix_cons.mpr ⟨rfl, brace⟩)
        rw [look_cons (by decide) fun _ => apart] at seen
        cases seen
  · rintro ⟨more, rfl⟩
    rfl

end Look

section Kept

variable {p : Char → Bool} {part rest other : List Char} (same : look rest = look other)
  (last : rest = [] → other = [])

include same in
theorem headIs_eq (quiet : ∀ c, isStill c = true → p c = false) : headIs p rest = headIs p other := by
  rw [← headIs_look quiet rest, same, headIs_look quiet other]

include same in
theorem headIs_kept (quiet : ∀ c, isStill c = true → p c = false) (part : List Char) :
    headIs p (part ++ rest) = headIs p (part ++ other) := by
  cases part with
  | nil => exact headIs_eq same quiet
  | cons c part => rfl

theorem run_cons (p : Char → Bool) (c : Char) (rest : List Char) :
    run p (c :: rest) = if p c then run p rest + 1 else 0 := by
  rw [run, List.takeWhile_cons]
  split <;> rfl

theorem run_eq_zero_iff {text : List Char} : run p text = 0 ↔ headIs p text = false := by
  cases text with
  | nil => simp [run, headIs]
  | cons c text => rw [run_cons, headIs]; split <;> simp_all

/-- A run that ends within a part of the text does not depend on what is behind the part. -/
theorem run_kept (first : headIs p rest = headIs p other) (within : run p (part ++ rest) ≤ part.length) :
    run p (part ++ other) = run p (part ++ rest) := by
  induction part with
  | nil =>
    have none := Nat.le_zero.mp within
    exact (run_eq_zero_iff.mpr (first ▸ run_eq_zero_iff.mp none)).trans none.symm
  | cons c part ih =>
    rw [List.cons_append, run_cons] at within ⊢
    rw [List.cons_append, run_cons]
    split
    · rw [if_pos ‹_›] at within
      rw [ih (Nat.le_of_succ_le_succ within)]
    · rfl

section Names

def goesOn (text : List Char) : Bool :=
  ['#', '\x7b'].isPrefixOf text || headIs (fun c => isNameChar c || c = '\\') text

include same in
theorem goesOn_kept (part : List Char) (hash : part ≠ ['#']) :
    goesOn (part ++ rest) = goesOn (part ++ other) := by
  have head : headIs (fun c => isNameChar c || c = '\\') (part ++ rest) =
      headIs (fun c => isNameChar c || c = '\\') (part ++ other) := by
    refine headIs_kept same (fun c still => ?_) part
    simp [not_name_of_still still, ne_of_still still (d := '\\') rfl]
  have embeds : ['#', '\x7b'].isPrefixOf (part ++ rest) = ['#', '\x7b'].isPrefixOf (part ++ other) := by
    rw [Bool.eq_iff_iff, List.isPrefixOf_iff_prefix, List.isPrefixOf_iff_prefix]
    match part with
    | [] => rw [List.nil_append, List.nil_append, ← look_eq_hash, ← look_eq_hash, same]
    | [c] =>
      have other : c ≠ '#' := fun same => hash (by rw [same])
      simp [Ne.symm other]
    | c :: d :: part => simp
  rw [goesOn, goesOn, head, embeds]

theorem nameLength_hyphen (rest : List Char) :
    nameLength ('-' :: rest) = if goesOn rest then nameLength rest + 1 else 0 := by
  cases rest with
  | nil => rfl
  | cons c more =>
    by_cases embeds : c = '#' ∧ more.head? = some '\x7b'
    · obtain ⟨rfl, brace⟩ := embeds
      obtain ⟨more, rfl⟩ := List.head?_eq_some_iff.mp brace
      rfl
    · have chosen : nameLength ('-' :: c :: more) =
          if isNameChar c || c = '\\' then nameLength (c :: more) + 1 else 0 := by
        rw [nameLength]
        rintro rest rfl rfl
        exact embeds ⟨rfl, rfl⟩
      have bare : ['#', '\x7b'].isPrefixOf (c :: more) = false := by
        rw [← Bool.not_eq_true, Chars.isPrefixOf_pair]
        exact embeds
      rw [chosen, goesOn, bare, Bool.false_or, headIs]

theorem nameLength_char {c : Char} (plain : c ≠ '\\' ∧ c ≠ '-') (rest : List Char) :
    nameLength (c :: rest) = if isNameChar c then nameLength rest + 1 else 0 := by
  rw [nameLength]
  · exact fun same _ => plain.1 same
  · exact fun _ _ same _ => plain.1 same
  · exact fun same => plain.2 same

theorem nameLength_eq_zero_iff {text : List Char} : nameLength text = 0 ↔
    headIs (fun c => c = '\\' || (c ≠ '-' && isNameChar c)) text = false ∧
      ∀ rest, text = '-' :: rest → goesOn rest = false := by
  cases text with
  | nil => simp [nameLength, headIs]
  | cons c rest =>
    by_cases hyphen : c = '-'
    · subst hyphen
      rw [nameLength_hyphen]
      simp [headIs]
    · by_cases backslash : c = '\\'
      · subst backslash
        cases rest <;> simp [nameLength, headIs]
      · rw [nameLength_char ⟨backslash, hyphen⟩]
        simp [headIs, hyphen, backslash]

include same in
theorem nameLength_none (none : nameLength rest = 0) : nameLength other = 0 := by
  rw [nameLength_eq_zero_iff] at none ⊢
  constructor
  · refine (headIs_eq same fun c still => ?_).symm.trans none.1
    simp [not_name_of_still still, ne_of_still still (d := '\\') rfl]
  · rintro more rfl
    obtain ⟨first, rfl, alike⟩ := (look_eq_cons (.inr rfl)).mp same
    exact (goesOn_kept alike [] nofun).symm.trans (none.2 first rfl)

include same last in
/-- A name that ends where a part of the text ends does so whatever is behind the part. -/
theorem nameLength_kept (part : List Char) (whole : nameLength (part ++ rest) = part.length) :
    nameLength (part ++ other) = part.length := by
  match part with
  | [] => exact nameLength_none same whole
  | c :: part =>
    by_cases backslash : c = '\\'
    · subst backslash
      cases part with
      | nil =>
        cases rest with
        | nil => rw [last rfl, whole]
        | cons d more => simp [nameLength] at whole
      | cons d part =>
        have behind : nameLength (part ++ rest) + 2 = part.length + 2 := whole
        exact congrArg (· + 2) (nameLength_kept part (Nat.add_right_cancel behind))
    by_cases hyphen : c = '-'
    · subst hyphen
      rw [List.cons_append, nameLength_hyphen] at whole ⊢
      split at whole
      · rename_i goes
        have behind := Nat.add_right_cancel whole
        have hash : part ≠ ['#'] := by
          rintro rfl
          rw [List.cons_append, nameLength_char (by decide)] at behind
          cases behind
        rw [if_pos ((goesOn_kept same part hash).symm.trans goes), nameLength_kept part behind, List.length_cons]
      · cases whole
    · rw [List.cons_append, nameLength_char ⟨backslash, hyphen⟩] at whole ⊢
      split at whole
      · rename_i name
        rw [if_pos name, nameLength_kept part (Nat.add_right_cancel whole), List.length_cons]
      · cases whole

end Names

section Urls

theorem urlLength_cons (depth : Nat) (c : Char) (rest : List Char) : urlLength depth (c :: rest) =
    if c = '(' then urlLength (depth + 1) rest + 1
    else if c = ')' then if depth ≤ 1 then 1 else urlLength (depth - 1) rest + 1
    else urlLength depth rest + 1 := by
  by_cases opens : c = '('
  · subst opens
    rfl
  by_cases closes : c = ')'
  · subst closes
    rfl
  rw [if_neg opens, if_neg closes, urlLength]
  · exact fun same => opens same
  · exact fun same => closes same

/-- A url that does not go to the end of the text is closed, and what is behind it does not matter. -/
theorem urlLength_kept (more : rest ≠ []) {part : List Char} {depth : Nat}
    (whole : urlLength depth (part ++ rest) = part.length) (other : List Char) :
    urlLength depth (part ++ other) = part.length ∧ ')' ∈ part := by
  induction part generalizing depth with
  | nil =>
    obtain ⟨c, rest, rfl⟩ := List.exists_cons_of_ne_nil more
    rw [List.nil_append, urlLength_cons] at whole
    split at whole <;> [cases whole; skip]
    split at whole <;> [skip; cases whole]
    split at whole <;> cases whole
  | cons c part ih =>
    rw [List.cons_append, urlLength_cons] at whole ⊢
    split at whole
    · rename_i opens
      obtain ⟨behind, closed⟩ := ih (Nat.add_right_cancel whole)
      rw [if_pos opens, behind]
      exact ⟨rfl, List.mem_cons_of_mem _ closed⟩
    rename_i opens
    rw [if_neg opens]
    split at whole
    · rename_i closes
      rw [if_pos closes]
      subst closes
      split at whole
      · rename_i shallow
        rw [if_pos shallow]
        exact ⟨whole, List.mem_cons_self ..⟩
      · rename_i deep
        rw [if_neg deep, (ih (Nat.add_right_cancel whole)).1]
        exact ⟨rfl, List.mem_cons_self ..⟩
    · rename_i closes
      obtain ⟨behind, closed⟩ := ih (Nat.add_right_cancel whole)
      rw [if_neg closes, behind]
      exact ⟨rfl, List.mem_cons_of_mem _ closed⟩

end Urls

section Numbers

theorem fractionLength_eq_zero_iff {text : List Char} : fractionLength text = 0 ↔
    ∀ rest, text = '.' :: rest → headIs Char.isDigit rest = false := by
  rw [fractionLength.eq_def]
  split
  · simp
  · rename_i other
    simpa using fun rest same => absurd same (other rest)

include same in
theorem fractionLength_kept (within : fractionLength (part ++ rest) ≤ part.length) :
    fractionLength (part ++ other) = fractionLength (part ++ rest) := by
  have quiet : ∀ c, isStill c = true → Char.isDigit c = false := fun _ => not_digit_of_still
  cases part with
  | nil =>
    have none := Nat.le_zero.mp within
    refine (fractionLength_eq_zero_iff.mpr ?_).trans none.symm
    rintro more rfl
    obtain ⟨first, rfl, alike⟩ := (look_eq_cons (.inl rfl)).mp same
    exact (headIs_eq alike quiet).symm.trans (fractionLength_eq_zero_iff.mp none first rfl)
  | cons c part =>
    by_cases point : c = '.'
    · subst point
      rw [List.cons_append, fractionLength, headIs_kept same quiet part] at within
      rw [List.cons_append, List.cons_append, fractionLength, fractionLength, headIs_kept same quiet part]
      split
      · rw [if_pos ‹_›] at within
        rw [run_kept (headIs_eq same quiet) (Nat.le_of_succ_le_succ within)]
      · rfl
    · have none (text : List Char) : fractionLength (c :: text) = 0 := by
        rw [fractionLength]
        exact fun _ same => point (List.cons_eq_cons.mp same).1
      exact (none _).trans (none _).symm

theorem isPrefixOf_points (c : Char) (rest : List Char) :
    ['.', '.'].isPrefixOf (c :: rest) = (decide (c = '.') && headIs (fun d => d = '.') rest) := by
  rw [Bool.eq_iff_iff, Chars.isPrefixOf_pair]
  cases rest <;> simp [headIs]

include same in
theorem points_kept (part : List Char) :
    ['.', '.'].isPrefixOf (part ++ rest) = ['.', '.'].isPrefixOf (part ++ other) := by
  have quiet : ∀ c, isStill c = true → decide (c = '.') = false := fun c still => by
    simp [ne_of_still still (d := '.') rfl]
  cases part with
  | nil =>
    have onward {first second : List Char} (alike : look first = look second)
        (found : ['.', '.'].isPrefixOf first = true) : ['.', '.'].isPrefixOf second = true := by
      rw [List.isPrefixOf_iff_prefix] at found
      obtain ⟨more, rfl⟩ := found
      obtain ⟨behind, rfl, next⟩ := (look_eq_cons (.inl rfl)).mp alike.symm
      rw [isPrefixOf_points, headIs_eq next quiet]
      rfl
    exact Bool.eq_iff_iff.mpr ⟨onward same, onward same.symm⟩
  | cons c part => rw [List.cons_append, List.cons_append, isPrefixOf_points, isPrefixOf_points,
      headIs_kept same quiet part]

theorem exponentLength_cons (c : Char) (rest : List Char) : exponentLength (c :: rest) =
    if c = 'e' ∨ c = 'E' then
      if headIs (fun d => d = '+' || d = '-') rest then
        if headIs Char.isDigit rest.tail then some (run Char.isDigit rest.tail + 2) else none
      else if headIs Char.isDigit rest then some (run Char.isDigit rest + 1)
      else some 0
    else some 0 := rfl

include same in
/-- An exponent that ends within a part of the text does so whatever is behind the part, unless the part is
empty and a letter follows. -/
theorem exponentLength_kept (stops : part = [] → headIs Char.isAlpha rest = false) {length : Nat}
    (found : exponentLength (part ++ rest) = some length) (within : length ≤ part.length) :
    exponentLength (part ++ other) = some length := by
  have digits : ∀ c, isStill c = true → Char.isDigit c = false := fun _ => not_digit_of_still
  cases part with
  | nil =>
    obtain rfl := Nat.le_zero.mp within
    have letters : headIs Char.isAlpha other = false :=
      (headIs_eq same fun _ => not_alpha_of_still).symm.trans (stops rfl)
    cases other with
    | nil => rfl
    | cons c more =>
      rw [List.nil_append, exponentLength_cons, if_neg]
      rintro (rfl | rfl) <;> cases letters
  | cons c part =>
    rw [List.cons_append, exponentLength_cons] at found ⊢
    split at found
    · rename_i letter
      have signs : headIs (fun d => d = '+' || d = '-') (part ++ rest) =
          headIs (fun d => d = '+' || d = '-') (part ++ other) := by
        refine headIs_kept same (fun c still => ?_) part
        simp [ne_of_still still (d := '+') rfl, ne_of_still still (d := '-') rfl]
      rw [if_pos letter, ← signs]
      split at found
      · rename_i signed
        rw [if_pos signed]
        split at found <;> cases found
        rename_i starts
        cases part with
        | nil => exact absurd within (by simp)
        | cons d part =>
          rw [List.cons_append, List.tail_cons] at starts within ⊢
          rw [List.cons_append, List.tail_cons, if_pos ((headIs_kept same digits part).symm.trans starts),
            run_kept (headIs_eq same digits)]
          exact Nat.le_of_succ_le_succ (Nat.le_of_succ_le_succ within)
      · rename_i unsigned
        rw [if_neg unsigned, ← headIs_kept same digits part]
        split at found <;> cases found
        · rename_i starts
          rw [if_pos starts, run_kept (headIs_eq same digits) (Nat.le_of_succ_le_succ within)]
        · rename_i none
          rw [if_neg none]
    · rename_i letter
      rw [if_neg letter, found]

theorem unitLength_cons (c : Char) (rest : List Char) :
    unitLength (c :: rest) = if c = '%' then 1 else run Char.isAlpha (c :: rest) := by
  by_cases percent : c = '%'
  · subst percent
    rfl
  · rw [if_neg percent, unitLength]
    exact fun _ same => percent (List.cons_eq_cons.mp same).1

theorem unitLength_eq_zero_iff {text : List Char} :
    unitLength text = 0 ↔ headIs (fun c => c = '%' || c.isAlpha) text = false := by
  cases text with
  | nil => simp [unitLength, run, headIs]
  | cons c text =>
    rw [unitLength_cons]
    by_cases percent : c = '%'
    · simp [percent, headIs]
    · rw [if_neg percent, run_eq_zero_iff]
      simp [percent, headIs]

include same in
theorem unitLength_kept (whole : unitLength (part ++ rest) = part.length) :
    unitLength (part ++ other) = part.length := by
  cases part with
  | nil =>
    refine unitLength_eq_zero_iff.mpr ((headIs_eq same fun c still => ?_).symm.trans
      (unitLength_eq_zero_iff.mp whole))
    simp [not_alpha_of_still still, ne_of_still still (d := '%') rfl]
  | cons c part =>
    rw [List.cons_append, unitLength_cons] at whole ⊢
    split at whole
    · rename_i percent
      rw [if_pos percent, whole]
    · rename_i letter
      rw [if_neg letter, ← whole]
      rw [← List.cons_append] at whole ⊢
      exact run_kept (headIs_eq same fun _ => not_alpha_of_still) whole.le

def mantissaLength (text : List Char) : Nat :=
  run Char.isDigit text + fractionLength (text.drop (run Char.isDigit text))

/-- The parts of a number that is not malformed. -/
theorem numericLength_eq_ok_iff {text : List Char} {length : Nat} : numericLength text = .ok length ↔
    ['.', '.'].isPrefixOf (text.drop (run Char.isDigit text)) = false ∧
      (∃ exponent, exponentLength (text.drop (mantissaLength text)) = some exponent ∧
        length = mantissaLength text + exponent) ∧
      fractionLength (text.drop length) = 0 := by
  unfold mantissaLength
  unfold numericLength
  dsimp only
  split
  · rename_i points
    rw [points]
    simp
  rename_i pointless
  rw [Bool.not_eq_true] at pointless
  split
  · rename_i none
    refine iff_of_false nofun fun ⟨_, ⟨_, found, _⟩, _⟩ => ?_
    rw [none] at found
    cases found
  · rename_i exponent found
    split
    · rename_i none
      constructor
      · rintro ⟨⟩
        exact ⟨pointless, ⟨exponent, found, rfl⟩, none⟩
      · rintro ⟨-, ⟨other, again, rfl⟩, -⟩
        obtain rfl := Option.some.inj (found.symm.trans again)
        rfl
    · rename_i extra
      refine iff_of_false nofun fun ⟨_, ⟨other, again, same⟩, last⟩ => ?_
      obtain rfl := Option.some.inj (found.symm.trans again)
      exact extra (same ▸ last)

include same in
theorem numericLength_kept {length : Nat} (found : numericLength (part ++ rest) = .ok length)
    (within : length ≤ part.length) (stops : length = part.length → headIs Char.isAlpha rest = false) :
    numericLength (part ++ other) = .ok length := by
  obtain ⟨pointless, ⟨exponent, scaled, rfl⟩, none⟩ := numericLength_eq_ok_iff.mp found
  have cut {count : Nat} (short : count ≤ part.length) (text : List Char) :
      (part ++ text).drop count = part.drop count ++ text := List.drop_append_of_le_length short
  have short : mantissaLength (part ++ rest) ≤ part.length := by omega
  have whole : run Char.isDigit (part ++ rest) ≤ part.length := (Nat.le_add_right _ _).trans short
  have digits : run Char.isDigit (part ++ other) = run Char.isDigit (part ++ rest) :=
    run_kept (headIs_eq same fun _ => not_digit_of_still) whole
  rw [mantissaLength, cut whole] at short
  have mantissa : mantissaLength (part ++ other) = mantissaLength (part ++ rest) := by
    rw [mantissaLength, mantissaLength, digits, cut whole, cut whole, fractionLength_kept same]
    rw [List.length_drop]
    omega
  rw [cut whole] at pointless
  rw [cut within] at none
  have scale : exponentLength (part.drop (mantissaLength (part ++ rest)) ++ other) = some exponent := by
    rw [cut (by omega)] at scaled
    refine exponentLength_kept same (fun empty => stops ?_) scaled ?_
    · have all := List.drop_eq_nil_iff.mp empty
      omega
    · rw [List.length_drop]
      omega
  refine numericLength_eq_ok_iff.mpr ⟨?_, ⟨exponent, ?_, by rw [mantissa]⟩, ?_⟩
  · rw [digits, cut whole, ← points_kept same, pointless]
  · rw [mantissa, cut (by omega), scale]
  · rw [cut within, fractionLength_kept same, none]
    rw [none]
    exact Nat.zero_le _

include same in
theorem numberLength_kept {position : Position} (found : numberLength position (part ++ rest) = .ok part.length) :
    numberLength position (part ++ other) = .ok part.length := by
  obtain ⟨length, numeric, total⟩ := numberLength_cuts found
  have within : length ≤ part.length := by omega
  rw [List.drop_append_of_le_length within] at total
  have unit : unitLength (part.drop length ++ rest) = (part.drop length).length := by
    rw [List.length_drop]
    omega
  have stops : length = part.length → headIs Char.isAlpha rest = false := by
    rintro rfl
    rw [List.drop_length, List.nil_append] at unit
    cases rest with
    | nil => rfl
    | cons c more =>
      have letterless := unitLength_eq_zero_iff.mp unit
      exact (Bool.or_eq_false_iff.mp letterless).2
  rw [numberLength, numericLength_kept same numeric within stops]
  dsimp only
  rw [List.drop_append_of_le_length within, unitLength_kept same unit, List.length_drop]
  exact congrArg Except.ok (by omega)

end Numbers

/-- A number is the digits and signs of a numeral and the letters behind it. -/
theorem numberLength_eq {position : Position} {c : Char} {total : Nat}
    (starts : c.isDigit = true ∨ c = '.' ∧ headIs Char.isDigit rest = true)
    (found : numberLength position (c :: rest) = .ok total) :
    ∃ numeral behind, c :: rest = numeral ++ behind ∧ numeral ≠ [] ∧
      total = numeral.length + unitLength behind := by
  have first : headIs Char.isDigit (c :: rest) = true ∨
      ∃ more, c :: rest = '.' :: more ∧ headIs Char.isDigit more = true := by
    rcases starts with digit | ⟨rfl, digit⟩
    · exact .inl digit
    · exact .inr ⟨rest, rfl, digit⟩
  obtain ⟨length, numeric, rfl⟩ := numberLength_cuts found
  obtain ⟨numeral, behind, whole, rfl, written⟩ := begins_numeral numeric first
  obtain ⟨d, digits, rfl, -⟩ := written.head
  exact ⟨d :: digits, behind, whole, List.cons_ne_nil d digits, by rw [whole, List.drop_left]⟩

include same in
/-- The number at the start of a text, counted without its first character. -/
theorem number_kept {position : Position} {c : Char} {total : Nat}
    (starts : c.isDigit = true ∨ c = '.' ∧ headIs Char.isDigit (part ++ rest) = true)
    (found : numberLength position (c :: (part ++ rest)) = .ok total) (whole : total - 1 = part.length) :
    numberLength position (c :: (part ++ other)) = .ok total := by
  obtain ⟨numeral, behind, -, some, counted⟩ := numberLength_eq starts found
  have positive := List.length_pos_iff.mpr some
  obtain rfl : total = (c :: part).length := by
    rw [List.length_cons]
    omega
  rw [← List.cons_append] at found ⊢
  exact numberLength_kept same found

section Words

theorem name_of_start {c : Char} (starts : isNameStart c = true) :
    isNameChar c = true ∧ c ≠ '\\' ∧ c ≠ '-' := by
  refine ⟨?_, ?_, ?_⟩
  · simp only [isNameStart, Bool.or_eq_true] at starts
    simp only [isNameChar, Char.isAlphanum, Bool.or_eq_true]
    tauto
  · rintro rfl
    cases starts
  · rintro rfl
    cases starts

theorem nameLength_ne_zero {c : Char}
    (starts : c = '-' ∧ headIs (fun d => d = '-' || d = '\\' || isNameStart d) rest = true ∨ c = '\\') :
    nameLength (c :: rest) ≠ 0 := by
  rw [Ne, nameLength_eq_zero_iff]
  rintro ⟨head, hyphen⟩
  rcases starts with ⟨rfl, starts⟩ | rfl
  · have goes := (Bool.or_eq_false_iff.mp (hyphen rest rfl)).2
    cases rest with
    | nil => cases starts
    | cons d more =>
      simp only [headIs, Bool.or_eq_true, decide_eq_true_eq] at starts
      simp only [headIs, Bool.or_eq_false_iff, decide_eq_false_iff_not] at goes
      rcases starts with (rfl | backslash) | name
      · exact absurd goes.1 (by decide)
      · exact goes.2 backslash
      · rw [(name_of_start name).1] at goes
        cases goes.1
  · cases head

include same last in
/-- The name at the start of a text, counted without its first character. -/
theorem name_kept {c : Char}
    (starts : c = '-' ∧ headIs (fun d => d = '-' || d = '\\' || isNameStart d) (part ++ rest) = true ∨ c = '\\')
    (whole : nameLength (c :: (part ++ rest)) - 1 = part.length) :
    nameLength (c :: (part ++ other)) - 1 = part.length := by
  have positive := nameLength_ne_zero starts
  have all : nameLength (c :: part ++ rest) = (c :: part).length := by
    rw [List.cons_append, List.length_cons]
    omega
  rw [← List.cons_append, nameLength_kept same last (c :: part) all]
  rfl

theorem wordToken_pos {c : Char} (starts : isNameStart c = true) (rest : List Char) :
    0 < (wordToken (c :: rest)).2 := by
  obtain ⟨name, backslash, hyphen⟩ := name_of_start starts
  have positive : 0 < nameLength (c :: rest) := by
    rw [nameLength_char ⟨backslash, hyphen⟩, if_pos name]
    exact Nat.succ_pos _
  unfold wordToken
  dsimp only
  split
  · exact Nat.add_pos_left positive _
  · exact positive

theorem opensUrl_append {body : List Char} (shows : ∃ c ∈ body, Chars.isBlank c = false) (rest : List Char) :
    opensUrl ('(' :: (body ++ rest)) = opensUrl ('(' :: body) := by
  have start : (body ++ rest).dropWhile Chars.isBlank = body.dropWhile Chars.isBlank ++ rest :=
    Chars.trimStart_append shows
  obtain ⟨c, member, visible⟩ := shows
  cases kept : body.dropWhile Chars.isBlank with
  | nil =>
    have blank := List.dropWhile_eq_nil_iff.mp kept c member
    rw [visible] at blank
    cases blank
  | cons d more =>
    rw [kept] at start
    rw [opensUrl, opensUrl, start, kept]
    rfl

include same last in
theorem wordToken_kept {kind : TokenKind} (whole : wordToken (part ++ rest) = (kind, part.length)) :
    wordToken (part ++ other) = (kind, part.length) := by
  by_cases final : rest = []
  · rw [last final, ← final, whole]
  unfold wordToken at whole ⊢
  dsimp only at whole ⊢
  split at whole
  · rename_i url
    obtain ⟨rfl, total⟩ := Prod.mk.inj whole
    generalize named : nameLength (part ++ rest) = length at url total
    have within : length ≤ part.length := by omega
    obtain ⟨name, body, rfl, rfl⟩ : ∃ name body, part = name ++ body ∧ length = name.length :=
      ⟨part.take length, part.drop length, (List.take_append_drop ..).symm, by simp [within]⟩
    have front (text : List Char) : (name ++ body ++ text).take name.length = name := by simp
    have back (text : List Char) : (name ++ body ++ text).drop name.length = body ++ text := by simp
    rw [front, back, Bool.and_eq_true] at url
    rw [back, List.length_append] at total
    obtain ⟨closed, bracket⟩ := urlLength_kept final (Nat.add_left_cancel total) other
    cases body with
    | nil => cases bracket
    | cons opening body =>
      obtain rfl : opening = '(' := by
        by_contra bracketless
        have closed : opensUrl (opening :: body ++ rest) = false := by
          rw [List.cons_append, opensUrl]
          exact fun _ same => bracketless (List.cons_eq_cons.mp same).1
        rw [closed] at url
        exact Bool.false_ne_true url.2
      have shows : ∃ c ∈ body, Chars.isBlank c = false :=
        ⟨')', (List.mem_cons.mp bracket).resolve_left (by decide), rfl⟩
      have opens : opensUrl ('(' :: body ++ other) = opensUrl ('(' :: body ++ rest) :=
        (opensUrl_append shows other).trans (opensUrl_append shows rest).symm
      have alike : look ('(' :: body ++ rest) = look ('(' :: body ++ other) := by
        rw [(opensUrl_iff_look _).mp url.2, (opensUrl_iff_look _).mp (opens.trans url.2)]
      have again : nameLength (name ++ ('(' :: body ++ other)) = name.length :=
        nameLength_kept alike nofun name (List.append_assoc .. ▸ named)
      rw [List.append_assoc name, again, List.take_left, List.drop_left, opens, url.1, url.2, closed]
      simp
  · rename_i word
    obtain ⟨rfl, total⟩ := Prod.mk.inj whole
    rw [total, List.take_left, List.drop_left] at word
    have unopened : opensUrl rest = opensUrl other := by
      rw [Bool.eq_iff_iff, opensUrl_iff_look, opensUrl_iff_look, same]
    rw [nameLength_kept same last part total, List.take_left, List.drop_left, ← unopened, if_neg word]

include same last in
/-- The word at the start of a text, counted without its first character. -/
theorem word_kept {c : Char} (starts : isNameStart c = true)
    (whole : (wordToken (c :: (part ++ rest))).2 - 1 = part.length) :
    wordToken (c :: (part ++ other)) = wordToken (c :: (part ++ rest)) := by
  have positive := wordToken_pos starts (part ++ rest)
  have all : wordToken (c :: part ++ rest) = ((wordToken (c :: part ++ rest)).1, (c :: part).length) := by
    refine Prod.ext rfl ?_
    rw [List.cons_append, List.length_cons]
    omega
  exact (wordToken_kept same last all).trans all.symm

end Words

/-- An expression is opened by two characters that stand side by side. -/
theorem brace_kept {c : Char}
    (hash : c = '#' → part = [] → (rest.head? = some '\x7b' ↔ other.head? = some '\x7b')) :
    (decide (c = '#') && headIs (fun d => d = '\x7b') (part ++ rest)) =
      (decide (c = '#') && headIs (fun d => d = '\x7b') (part ++ other)) := by
  by_cases mark : c = '#'
  · cases part with
    | nil =>
      have opens (text : List Char) : headIs (fun d => d = '\x7b') text = true ↔ text.head? = some '\x7b' := by
        cases text <;> simp [headIs]
      rw [List.nil_append, List.nil_append, Bool.eq_iff_iff, Bool.and_eq_true, Bool.and_eq_true, opens, opens,
        hash mark rfl]
    | cons d part => rfl
  · simp [mark]

theorem punctuation_congr (c : Char) (equals : headIs (fun d => d = '=') rest = headIs (fun d => d = '=') other) :
    punctuation c rest = punctuation c other := by
  unfold punctuation
  dsimp only
  rw [equals]

/-- What follows from a choice follows from the same choice between others. -/
private theorem ite_kept {α : Type} {p : Prop} [Decidable p] {yes no yes' no' result : α}
    (found : (if p then yes else no) = result) (of_yes : yes = result → yes' = result)
    (of_no : no = result → no' = result) : (if p then yes' else no') = result := by
  by_cases holds : p
  · rw [if_pos holds] at found ⊢
    exact of_yes found
  · rw [if_neg holds] at found ⊢
    exact of_no found

/-- A string ends with its closing mark, whatever follows. -/
theorem measure_string_kept {position : Position} {c : Char}
    (measured : measure position c (part ++ rest) = .ok (.string, part.length)) (other : List Char) :
    measure position c (part ++ other) = .ok (.string, part.length) := by
  obtain ⟨quote, closed⟩ := measure_found measured
  have proper : ∀ current ∈ [(⟨.quoted c, position⟩ : OpenRegion)], current.region.Proper :=
    List.forall_mem_singleton.mpr quote
  obtain ⟨whole, more, same, length, inside, last, nested, rfl, rfl⟩ := quotedLength_takes proper _ _ _ closed
  obtain ⟨rfl, rfl⟩ := List.append_inj same.symm length
  have marked : inside ++ [closer (some c)] ++ other = inside ++ c :: other := List.append_assoc ..
  rw [marked, measure_string quote nested, List.length_append]
  rfl

include same last in
/-- A token that is no comment is read the same whatever follows, if what follows looks the same to it. -/
theorem measure_kept {position : Position} {c : Char} {kind : TokenKind} (visible : Chars.isBlank c = false)
    (plain : kind ≠ .comment)
    (hash : c = '#' → part = [] → (rest.head? = some '\x7b' ↔ other.head? = some '\x7b'))
    (measured : measure position c (part ++ rest) = .ok (kind, part.length)) :
    measure position c (part ++ other) = .ok (kind, part.length) := by
  by_cases string : kind = .string
  · subst string
    exact measure_string_kept measured other
  have heads {p : Char → Bool} (quiet : ∀ c, isStill c = true → p c = false) := headIs_kept same quiet part
  have sought {d : Char} (loud : isStill d = false) : ∀ c, isStill c = true → decide (c = d) = false :=
    fun c still => decide_eq_false (ne_of_still still loud)
  have starts : ∀ c, isStill c = true → isNameStart c = false := fun _ => not_start_of_still
  have named : ∀ c, isStill c = true → (isNameStart c || decide (c = '-')) = false := fun c still => by
    simp [starts c still, ne_of_still still (d := '-') rfl]
  have hyphened : ∀ c, isStill c = true → (decide (c = '-') || decide (c = '\\') || isNameStart c) = false :=
    fun c still => by
      simp [starts c still, ne_of_still still (d := '-') rfl, ne_of_still still (d := '\\') rfl]
  unfold measure at measured ⊢
  rw [← heads (sought (d := '*') rfl), ← heads (sought (d := '/') rfl), ← heads (sought (d := '=') rfl),
    ← brace_kept hash, ← heads fun _ => not_name_of_still, ← heads named, ← heads starts,
    ← heads fun _ => not_digit_of_still, ← heads hyphened]
  have counted (own : TokenKind) {length count : Nat} (kept : length = part.length → count = part.length)
      (found : (.ok (own, length) : Except LexicalFault (TokenKind × Nat)) = .ok (kind, part.length)) :
      (.ok (own, count) : Except LexicalFault (TokenKind × Nat)) = .ok (kind, part.length) := by
    obtain ⟨rfl, whole⟩ := Prod.mk.inj (Except.ok.inj found)
    rw [kept whole]
  have name (own : TokenKind) := counted own (nameLength_kept same last part)
  -- The rules in the order in which they are tried; the token is no comment and no string.
  rw [if_neg (by simp [visible])] at measured ⊢
  refine ite_kept measured (fun comment => ?_) fun measured => ?_
  · cases closed : commentLength (part ++ rest).tail <;> rw [closed] at comment
    · cases comment
    · exact absurd (Prod.mk.inj (Except.ok.inj comment)).1.symm plain
  refine ite_kept measured (fun comment => ?_) fun measured => ?_
  · exact absurd (Prod.mk.inj (Except.ok.inj comment)).1.symm plain
  by_cases quote : c = '"' ∨ c = '\''
  · rw [if_pos quote] at measured
    cases closed : quotedLength [⟨.quoted c, position⟩] (position.next c) (part ++ rest) <;>
      rw [closed] at measured
    · cases measured
    · exact absurd (Prod.mk.inj (Except.ok.inj measured)).1.symm string
  rw [if_neg quote] at measured ⊢
  refine ite_kept measured (counted _ id) fun measured => ?_
  refine ite_kept measured (counted _ fun whole => ?_) fun measured => ?_
  · rw [run_kept (headIs_eq same fun _ => not_name_of_still) whole.le, whole]
  refine ite_kept measured (name _) fun measured => ?_
  refine ite_kept measured (name _) fun measured => ?_
  refine ite_kept measured (counted _ id) fun measured => ?_
  refine ite_kept measured (name _) fun measured => ?_
  by_cases numeric : (c.isDigit || (decide (c = '.') && headIs Char.isDigit (part ++ rest))) = true
  · rw [if_pos numeric] at measured ⊢
    rcases found : numberLength position (c :: (part ++ rest)) with fault | total <;> rw [found] at measured
    · cases measured
    · rw [number_kept same (by simpa using numeric) found (Prod.mk.inj (Except.ok.inj measured)).2]
      exact measured
  rw [if_neg numeric] at measured ⊢
  by_cases hyphen : (decide (c = '-') && headIs (fun d => d = '-' || d = '\\' || isNameStart d) (part ++ rest) ||
      decide (c = '\\')) = true
  · rw [if_pos hyphen] at measured ⊢
    exact counted _ (name_kept same last (by simpa using hyphen)) measured
  rw [if_neg hyphen] at measured ⊢
  by_cases word : isNameStart c = true
  · rw [if_pos word] at measured ⊢
    rw [word_kept same last word (Prod.mk.inj (Except.ok.inj measured)).2]
    exact measured
  rw [if_neg word] at measured ⊢
  rw [← punctuation_congr c (heads (sought rfl)), measured]

end Kept

section Within

variable {rest : List Char}

theorem run_le (p : Char → Bool) (text : List Char) : run p text ≤ text.length := by
  rw [run]
  exact (List.takeWhile_prefix p).length_le

theorem nameLength_le (text : List Char) : nameLength text ≤ text.length := by
  fun_induction nameLength text <;> simp_all

theorem urlLength_le (depth : Nat) (text : List Char) : urlLength depth text ≤ text.length := by
  fun_induction urlLength depth text <;> simp_all

theorem numberLength_le {position : Position} {c : Char} {total : Nat}
    (starts : c.isDigit = true ∨ c = '.' ∧ headIs Char.isDigit rest = true)
    (found : numberLength position (c :: rest) = .ok total) : total ≤ rest.length + 1 := by
  obtain ⟨numeral, behind, whole, -, rfl⟩ := numberLength_eq starts found
  obtain ⟨unit, more, rfl, unitLength, -⟩ := begins_suffix behind
  have total := congrArg List.length whole
  simp only [List.length_cons, List.length_append] at total
  omega

theorem wordToken_le (text : List Char) : (wordToken text).2 ≤ text.length := by
  have named := nameLength_le text
  unfold wordToken
  dsimp only
  split
  · have url := urlLength_le 0 (text.drop (nameLength text))
    rw [List.length_drop] at url
    exact Nat.add_le_of_le_sub' named url
  · exact named

theorem punctuation_le (c : Char) (rest : List Char) : (punctuation c rest).2 ≤ rest.length := by
  cases rest with
  | nil =>
    unfold punctuation
    split <;> exact le_rfl
  | cons d more =>
    have one : 1 ≤ (d :: more).length := Nat.succ_le_succ (Nat.zero_le _)
    unfold punctuation
    dsimp only
    split <;> first | exact Nat.zero_le _ | (split <;> first | exact one | exact Nat.zero_le _)

theorem commentLength_le {text : List Char} {length : Nat} (closed : commentLength text = some length) :
    length ≤ text.length := by
  induction text using commentLength.induct generalizing length with
  | case1 => cases closed
  | case2 => cases closed; exact Nat.le_add_left 2 _
  | case3 c rest other ih =>
    rw [commentLength] at closed
    · obtain ⟨count, found, rfl⟩ := Option.map_eq_some_iff.mp closed
      exact Nat.succ_le_succ (ih found)
    · exact other

/-- A token has no more characters than the text. -/
theorem measure_le {position : Position} {c : Char} {kind : TokenKind} {length : Nat}
    (measured : measure position c rest = .ok (kind, length)) : length ≤ rest.length := by
  have second {p : Char → Bool} (found : headIs p rest = true) : 1 ≤ rest.length := by
    cases rest with
    | nil => cases found
    | cons d more => exact Nat.succ_le_succ (Nat.zero_le _)
  cases rule_of_measure measured with
  | whitespace => exact run_le _ _
  | comment slash star closed =>
    have short := commentLength_le closed
    have some := second star
    rw [List.length_tail] at short
    omega
  | silent => exact run_le _ _
  | string quote closed =>
    have proper : ∀ current ∈ [(⟨.quoted c, position⟩ : OpenRegion)], current.region.Proper :=
      List.forall_mem_singleton.mpr quote
    obtain ⟨part, more, rfl, rfl, -⟩ := quotedLength_takes proper _ _ _ closed
    simp
  | interpolation brace => exact second brace
  | hash => exact run_le _ _
  | dollar => exact nameLength_le _
  | atKeyword => exact nameLength_le _
  | notEqual equals => exact second equals
  | flag => exact nameLength_le _
  | number numeric counted => exact Nat.sub_le_of_le_add (numberLength_le numeric counted)
  | ident => exact Nat.sub_le_of_le_add (nameLength_le _)
  | word word => exact Nat.sub_le_of_le_add ((congrArg Prod.snd word).ge.trans (wordToken_le (c :: rest)))
  | punctuation sign => exact (congrArg Prod.snd sign).ge.trans (punctuation_le c rest)

end Within

end Scss.Lexer
