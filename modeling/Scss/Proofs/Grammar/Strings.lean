import Scss.Proofs.Tiling

/-! What the lexer takes for a quoted string: text in quotes with expressions inside, which hold strings
with expressions inside, to any depth. `Nested` is that grammar, and the lexer, which reads it with a
stack of open regions, reads nothing else. -/
namespace Scss

/-- What stands between the marks of a string. -/
theorem interior_of_marked {text inside : List Char} {mark : Char} (marked : text = mark :: (inside ++ [mark])) :
    text.tail.dropLast = inside := by
  rw [marked, List.tail_cons, List.dropLast_concat]

theorem Token.content_eq {token : Token} {mark : Char} {inside : List Char}
    (text : token.text.toList = mark :: (inside ++ [mark])) : token.content = String.ofList inside := by
  rw [Token.content, Text.interior, interior_of_marked text]

namespace Lexer

/-- Text that stands inside the quotes of a mark, or, without a mark, inside an embedded expression. In
quotes a backslash takes the next character along, and a line feed has to stand behind one or inside
an expression. In an expression the braces are balanced, and a backslash is a character like any
other. -/
inductive Nested : Option Char → List Char → Prop where
  | nil (mark : Option Char) : Nested mark []
  | escape {mark c : Char} {rest : List Char} (more : Nested (some mark) rest) :
      Nested (some mark) ('\\' :: c :: rest)
  | expression {mark : Char} {text rest : List Char} (inner : Nested none text)
      (more : Nested (some mark) rest) : Nested (some mark) ('#' :: '\x7b' :: (text ++ '\x7d' :: rest))
  | letter {mark c : Char} {rest : List Char} (plain : c ≠ '\n' ∧ c ≠ '\\' ∧ c ≠ mark)
      (whole : c = '#' → rest.head? ≠ some '\x7b') (more : Nested (some mark) rest) :
      Nested (some mark) (c :: rest)
  | string {mark : Char} {inside rest : List Char} (quote : mark = '"' ∨ mark = '\'')
      (inner : Nested (some mark) inside) (more : Nested none rest) :
      Nested none (mark :: (inside ++ mark :: rest))
  | block {text rest : List Char} (inner : Nested none text) (more : Nested none rest) :
      Nested none ('\x7b' :: (text ++ '\x7d' :: rest))
  | code {c : Char} {rest : List Char} (plain : (c ≠ '"' ∧ c ≠ '\'') ∧ c ≠ '\x7b' ∧ c ≠ '\x7d')
      (more : Nested none rest) : Nested none (c :: rest)

def closer (mark : Option Char) : Char := mark.getD '\x7d'

namespace Region

def marks : Region → List (Option Char)
  | .quoted mark => [some mark]
  | .embedded depth => List.replicate depth none

/-- A region that the lexer opens. -/
def Proper : Region → Prop
  | .quoted mark => mark = '"' ∨ mark = '\''
  | .embedded depth => 1 ≤ depth

def mark? : Region → Option Char
  | .quoted mark => some mark
  | .embedded _ => none

end Region

section Steps

variable {mark c : Char} {opened : Position} {outer : List OpenRegion} {position : Position}
  {depth : Nat} {rest : List Char}

theorem quotedLength_nil (position : Position) (text : List Char) :
    quotedLength [] position text = .ok 0 := by
  cases text <;> rfl

/-- A step inside quotes. -/
theorem quotedLength_quoted : quotedLength (⟨.quoted mark, opened⟩ :: outer) position (c :: rest) =
    if c = '\n' then .error (.unterminatedString opened)
    else if c = '\\' then
      match rest with
      | [] => .error (.unterminatedString opened)
      | d :: more =>
        (quotedLength (⟨.quoted mark, opened⟩ :: outer) ((position.next c).next d) more).map (· + 2)
    else if c = mark then (quotedLength outer (position.next c) rest).map (· + 1)
    else
      match rest with
      | '\x7b' :: more =>
        if c = '#' then
          (quotedLength (⟨.embedded 1, opened⟩ :: ⟨.quoted mark, opened⟩ :: outer)
            ((position.next c).next '\x7b') more).map (· + 2)
        else
          (quotedLength (⟨.quoted mark, opened⟩ :: outer) (position.next c) ('\x7b' :: more)).map
            (· + 1)
      | rest => (quotedLength (⟨.quoted mark, opened⟩ :: outer) (position.next c) rest).map (· + 1) :=
  quotedLength.eq_def ..

/-- A step inside an expression. -/
theorem quotedLength_embedded :
    quotedLength (⟨.embedded depth, opened⟩ :: outer) position (c :: rest) =
      if c = '"' ∨ c = '\'' then
        (quotedLength (⟨.quoted c, position⟩ :: ⟨.embedded depth, opened⟩ :: outer) (position.next c)
          rest).map (· + 1)
      else if c = '\x7b' then
        (quotedLength (⟨.embedded (depth + 1), opened⟩ :: outer) (position.next c) rest).map (· + 1)
      else if c = '\x7d' then
        if depth ≤ 1 then (quotedLength outer (position.next c) rest).map (· + 1)
        else
          (quotedLength (⟨.embedded (depth - 1), opened⟩ :: outer) (position.next c) rest).map (· + 1)
      else (quotedLength (⟨.embedded depth, opened⟩ :: outer) (position.next c) rest).map (· + 1) := rfl

theorem quotedLength_newline : quotedLength (⟨.quoted mark, opened⟩ :: outer) position ('\n' :: rest) =
    .error (.unterminatedString opened) := by
  rw [quotedLength_quoted]
  simp

theorem quotedLength_backslash : quotedLength (⟨.quoted mark, opened⟩ :: outer) position ['\\'] =
    .error (.unterminatedString opened) := by
  rw [quotedLength_quoted]
  simp

theorem quotedLength_escape : quotedLength (⟨.quoted mark, opened⟩ :: outer) position ('\\' :: c :: rest) =
    (quotedLength (⟨.quoted mark, opened⟩ :: outer) ((position.next '\\').next c) rest).map (· + 2) := by
  rw [quotedLength_quoted]
  simp

theorem quotedLength_mark (quote : mark = '"' ∨ mark = '\'') :
    quotedLength (⟨.quoted mark, opened⟩ :: outer) position (mark :: rest) =
      (quotedLength outer (position.next mark) rest).map (· + 1) := by
  rw [quotedLength_quoted]
  rcases quote with rfl | rfl <;> simp

theorem quotedLength_expression (quote : mark = '"' ∨ mark = '\'') :
    quotedLength (⟨.quoted mark, opened⟩ :: outer) position ('#' :: '\x7b' :: rest) =
      (quotedLength (⟨.embedded 1, opened⟩ :: ⟨.quoted mark, opened⟩ :: outer)
        ((position.next '#').next '\x7b') rest).map (· + 2) := by
  rw [quotedLength_quoted]
  rcases quote with rfl | rfl <;> simp

theorem quotedLength_letter (plain : c ≠ '\n' ∧ c ≠ '\\' ∧ c ≠ mark)
    (whole : c = '#' → rest.head? ≠ some '\x7b') :
    quotedLength (⟨.quoted mark, opened⟩ :: outer) position (c :: rest) =
      (quotedLength (⟨.quoted mark, opened⟩ :: outer) (position.next c) rest).map (· + 1) := by
  rw [quotedLength_quoted]
  rw [if_neg plain.1, if_neg plain.2.1, if_neg plain.2.2]
  split
  · rename_i more
    rw [if_neg fun hash => whole hash rfl]
  · rfl

theorem quotedLength_string (quote : mark = '"' ∨ mark = '\'') :
    quotedLength (⟨.embedded depth, opened⟩ :: outer) position (mark :: rest) =
      (quotedLength (⟨.quoted mark, position⟩ :: ⟨.embedded depth, opened⟩ :: outer)
        (position.next mark) rest).map (· + 1) := by
  rw [quotedLength_embedded]
  rw [if_pos quote]

theorem quotedLength_block :
    quotedLength (⟨.embedded depth, opened⟩ :: outer) position ('\x7b' :: rest) =
      (quotedLength (⟨.embedded (depth + 1), opened⟩ :: outer) (position.next '\x7b') rest).map
        (· + 1) := by
  rw [quotedLength_embedded]
  simp

theorem quotedLength_unblock :
    quotedLength (⟨.embedded (depth + 2), opened⟩ :: outer) position ('\x7d' :: rest) =
      (quotedLength (⟨.embedded (depth + 1), opened⟩ :: outer) (position.next '\x7d') rest).map
        (· + 1) := by
  rw [quotedLength_embedded]
  simp

theorem quotedLength_last :
    quotedLength (⟨.embedded 1, opened⟩ :: outer) position ('\x7d' :: rest) =
      (quotedLength outer (position.next '\x7d') rest).map (· + 1) := by
  rw [quotedLength_embedded]
  simp

theorem quotedLength_code (plain : (c ≠ '"' ∧ c ≠ '\'') ∧ c ≠ '\x7b' ∧ c ≠ '\x7d') :
    quotedLength (⟨.embedded depth, opened⟩ :: outer) position (c :: rest) =
      (quotedLength (⟨.embedded depth, opened⟩ :: outer) (position.next c) rest).map (· + 1) := by
  rw [quotedLength_embedded]
  rw [if_neg (not_or.mpr plain.1), if_neg plain.2.1, if_neg plain.2.2]

end Steps

/-- Texts for all that is open, innermost first, each with the character that closes it. -/
def Shut : List (Option Char) → List Char → Prop
  | [], text => text = []
  | mark :: outer, text =>
    ∃ inside rest, Nested mark inside ∧ Shut outer rest ∧ text = inside ++ closer mark :: rest

section Shut

variable {mark : Option Char} {outer : List (Option Char)} {rest : List Char}

theorem Shut.close (shut : Shut outer rest) : Shut (mark :: outer) (closer mark :: rest) :=
  ⟨[], rest, .nil mark, shut, rfl⟩

/-- A text goes in front of what is open if it goes in front of a text of that kind. -/
theorem Shut.behind (front : List Char) (shut : Shut (mark :: outer) rest)
    (more : ∀ inside, inside <+: rest → Nested mark inside → Nested mark (front ++ inside)) :
    Shut (mark :: outer) (front ++ rest) := by
  obtain ⟨inside, last, nested, closed, rfl⟩ := shut
  exact ⟨front ++ inside, last, more inside (List.prefix_append _ _) nested, closed,
    (List.append_assoc ..).symm⟩

/-- A plain letter goes in front of any start of a text that does not make it open an expression. -/
theorem Shut.letter {quote c : Char} {text : List Char} (plain : c ≠ '\n' ∧ c ≠ '\\' ∧ c ≠ quote)
    (whole : c = '#' → text.head? ≠ some '\x7b') (first : rest <+: text)
    (shut : Shut (some quote :: outer) rest) : Shut (some quote :: outer) (c :: rest) := by
  refine shut.behind [c] fun inside second => .letter plain fun hash brace => whole hash ?_
  obtain ⟨last, rfl⟩ := second.trans first
  rw [List.head?_append, brace, Option.some_or]

/-- What is closed inside becomes a part of what is open around it. -/
theorem Shut.enclose {within : Option Char} (front : List Char)
    (shut : Shut (within :: mark :: outer) rest)
    (more : ∀ inner inside, Nested within inner → Nested mark inside →
      Nested mark (front ++ (inner ++ closer within :: inside))) :
    Shut (mark :: outer) (front ++ rest) := by
  obtain ⟨inner, last, nested, ⟨inside, behind, around, closed, rfl⟩, rfl⟩ := shut
  exact ⟨_, behind, more inner inside nested around, closed, by simp⟩

end Shut

/-- A start of the text closes all that is open, if a length is found at all. -/
def Takes (marks : List (Option Char)) (text : List Char) (result : Except LexicalFault Nat) : Prop :=
  ∀ length, result = .ok length → Begins (Shut marks) text length

section Takes

variable {marks inner : List (Option Char)} {rest : List Char} {result : Except LexicalFault Nat}

theorem Takes.error (text : List Char) (fault : LexicalFault) : Takes marks text (.error fault) := nofun

theorem Takes.behind (takes : Takes inner rest result) (front : List Char)
    (more : ∀ part, part <+: rest → Shut inner part → Shut marks (front ++ part)) :
    Takes marks (front ++ rest) (result.map (· + front.length)) := by
  intro length found
  cases result with
  | error fault => cases found
  | ok count =>
    cases found
    obtain ⟨part, last, rfl, rfl, shut⟩ := takes count rfl
    exact ⟨front ++ part, last, (List.append_assoc ..).symm, by simp [Nat.add_comm],
      more part (List.prefix_append _ _) shut⟩

end Takes

def openMarks (opened : List OpenRegion) : List (Option Char) :=
  opened.flatMap fun current => current.region.marks

/-- Of every text that is at most as long as this one, the lexer takes what closes the open regions. -/
def TakesBehind (rest : List Char) : Prop :=
  ∀ opened position left, left.length ≤ rest.length → (∀ current ∈ opened, current.region.Proper) →
    Takes (openMarks opened) left (quotedLength opened position left)

section Step

variable {mark c : Char} {rest : List Char} {place position : Position} {outer : List OpenRegion}

/-- One step inside the quotes of a string. -/
theorem takes_quoted (shorter : TakesBehind rest)
    (proper : ∀ current ∈ ⟨.quoted mark, place⟩ :: outer, current.region.Proper) :
    Takes (openMarks (⟨.quoted mark, place⟩ :: outer)) (c :: rest)
      (quotedLength (⟨.quoted mark, place⟩ :: outer) position (c :: rest)) := by
  obtain ⟨own, around⟩ := List.forall_mem_cons.mp proper
  by_cases newline : c = '\n'
  · subst newline
    rw [quotedLength_newline]
    exact .error _ _
  by_cases backslash : c = '\\'
  · subst backslash
    cases rest with
    | nil =>
      rw [quotedLength_backslash]
      exact .error _ _
    | cons d more =>
      rw [quotedLength_escape]
      exact (shorter _ _ more (by simp) proper).behind ['\\', d] fun part _ shut =>
        shut.behind ['\\', d] fun _ _ => .escape
  by_cases closes : c = mark
  · subst closes
    rw [quotedLength_mark own]
    exact (shorter _ _ rest le_rfl around).behind [c] fun part _ shut => shut.close
  by_cases embeds : c = '#' ∧ rest.head? = some '\x7b'
  · obtain ⟨rfl, brace⟩ := embeds
    obtain ⟨more, rfl⟩ := List.head?_eq_some_iff.mp brace
    have deeper : ∀ current ∈ ⟨.embedded 1, place⟩ :: ⟨.quoted mark, place⟩ :: outer,
        current.region.Proper := List.forall_mem_cons.mpr ⟨Nat.le_refl 1, proper⟩
    rw [quotedLength_expression own]
    exact (shorter _ _ more (by simp) deeper).behind ['#', '\x7b'] fun part _ shut =>
      shut.enclose ['#', '\x7b'] fun _ _ => .expression
  · have whole : c = '#' → rest.head? ≠ some '\x7b' := fun hash brace => embeds ⟨hash, brace⟩
    rw [quotedLength_letter ⟨newline, backslash, closes⟩ whole]
    exact (shorter _ _ rest le_rfl proper).behind [c] fun part first shut =>
      shut.letter ⟨newline, backslash, closes⟩ whole first

/-- One step inside an embedded expression. -/
theorem takes_embedded (shorter : TakesBehind rest) {depth : Nat}
    (proper : ∀ current ∈ ⟨.embedded depth, place⟩ :: outer, current.region.Proper) :
    Takes (openMarks (⟨.embedded depth, place⟩ :: outer)) (c :: rest)
      (quotedLength (⟨.embedded depth, place⟩ :: outer) position (c :: rest)) := by
  obtain ⟨own, around⟩ := List.forall_mem_cons.mp proper
  obtain ⟨below, rfl⟩ : ∃ below, depth = below + 1 := Nat.exists_eq_succ_of_ne_zero (Nat.ne_of_gt own)
  have within (depth : Nat) : ∀ current ∈ ⟨.embedded (depth + 1), place⟩ :: outer, current.region.Proper :=
    List.forall_mem_cons.mpr ⟨Nat.le_add_left 1 depth, around⟩
  by_cases quote : c = '"' ∨ c = '\''
  · have deeper : ∀ current ∈ ⟨.quoted c, position⟩ :: ⟨.embedded (below + 1), place⟩ :: outer,
        current.region.Proper := List.forall_mem_cons.mpr ⟨quote, proper⟩
    rw [quotedLength_string quote]
    exact (shorter _ _ rest le_rfl deeper).behind [c] fun part _ shut =>
      shut.enclose [c] fun _ _ => .string quote
  by_cases opens : c = '\x7b'
  · subst opens
    rw [quotedLength_block]
    exact (shorter _ _ rest le_rfl (within (below + 1))).behind ['\x7b'] fun part _ shut =>
      shut.enclose ['\x7b'] fun _ _ => .block
  by_cases closes : c = '\x7d'
  · subst closes
    cases below with
    | zero =>
      rw [quotedLength_last]
      exact (shorter _ _ rest le_rfl around).behind ['\x7d'] fun part _ shut => shut.close
    | succ below =>
      rw [quotedLength_unblock]
      exact (shorter _ _ rest le_rfl (within below)).behind ['\x7d'] fun part _ shut => shut.close
  · have plain : (c ≠ '"' ∧ c ≠ '\'') ∧ c ≠ '\x7b' ∧ c ≠ '\x7d' := ⟨not_or.mp quote, opens, closes⟩
    rw [quotedLength_code plain]
    exact (shorter _ _ rest le_rfl proper).behind [c] fun part _ shut =>
      shut.behind [c] fun _ _ => .code plain

end Step

/-- What the lexer takes closes every region that is open, each with a nested text. -/
theorem quotedLength_takes {opened : List OpenRegion} (proper : ∀ current ∈ opened, current.region.Proper)
    (position : Position) (text : List Char) :
    Takes (openMarks opened) text (quotedLength opened position text) := by
  match opened, text with
  | [], text =>
    rw [quotedLength_nil]
    rintro _ ⟨⟩
    exact ⟨[], text, rfl, rfl, rfl⟩
  | current :: outer, [] =>
    rw [quotedLength]
    exact .error _ _
  | current :: outer, c :: rest =>
    have shorter : TakesBehind rest := fun opened place left short within =>
      quotedLength_takes within place left
    obtain ⟨⟨mark⟩ | ⟨depth⟩, place⟩ := current
    · exact takes_quoted shorter proper
    · exact takes_embedded shorter proper
termination_by text.length
decreasing_by exact Nat.lt_succ_of_le short

theorem map_add_add (result : Except LexicalFault Nat) (first second : Nat) :
    (result.map (· + first)).map (· + second) = result.map (· + (first + second)) := by
  cases result with
  | error fault => rfl
  | ok length => exact congrArg Except.ok (Nat.add_assoc length first second)

/-- A nested text is stepped over: the lexer is behind it in the region in which it was before it. -/
theorem quotedLength_nested {mark : Option Char} {text : List Char} (nested : Nested mark text)
    (region : Region) (within : region.mark? = mark) (proper : region.Proper) (opened : Position)
    (outer : List OpenRegion) (position : Position) {rest : List Char}
    (apart : mark ≠ none → rest.head? ≠ some '\x7b') :
    quotedLength (⟨region, opened⟩ :: outer) position (text ++ rest) =
      (quotedLength (⟨region, opened⟩ :: outer) (position.after text) rest).map (· + text.length) := by
  induction nested generalizing region opened outer position rest with
  | nil =>
    rw [List.nil_append, Position.after_nil]
    cases quotedLength (⟨region, opened⟩ :: outer) position rest <;> rfl
  | escape more ih =>
    obtain ⟨mark⟩ | _ := region <;> cases within
    rw [List.cons_append, List.cons_append, quotedLength_escape, ih _ rfl proper _ _ _ apart, map_add_add]
    rfl
  | @expression mark inner text _ _ inside behind =>
    obtain ⟨mark⟩ | _ := region <;> cases within
    have shape : '#' :: '\x7b' :: (inner ++ '\x7d' :: text) ++ rest =
        '#' :: '\x7b' :: (inner ++ '\x7d' :: (text ++ rest)) := by simp
    rw [shape, quotedLength_expression proper, inside (.embedded 1) rfl (Nat.le_refl 1) _ _ _ (absurd rfl),
      quotedLength_last, behind _ rfl proper _ _ _ apart]
    simp only [map_add_add, Position.after_cons, Position.after_append, List.length_cons, List.length_append]
    exact congrArg (fun total => Except.map (· + total) _) (by omega)
  | @letter mark c text plain whole more ih =>
    obtain ⟨mark⟩ | _ := region <;> cases within
    have closed : c = '#' → (text ++ rest).head? ≠ some '\x7b' := by
      intro hash
      cases text with
      | nil => exact apart nofun
      | cons d text => exact whole hash
    rw [List.cons_append, quotedLength_letter plain closed, ih _ rfl proper _ _ _ apart, map_add_add]
    rfl
  | @string mark inner text quote _ _ inside behind =>
    obtain _ | ⟨depth⟩ := region <;> cases within
    have shape : mark :: (inner ++ mark :: text) ++ rest = mark :: (inner ++ mark :: (text ++ rest)) := by
      simp
    have stops : mark ≠ '\x7b' := by rcases quote with rfl | rfl <;> decide
    rw [shape, quotedLength_string quote,
      inside (.quoted mark) rfl quote _ _ _ fun _ => by simpa using stops,
      quotedLength_mark quote, behind _ rfl proper _ _ _ (absurd rfl)]
    simp only [map_add_add, Position.after_cons, Position.after_append, List.length_cons, List.length_append]
    exact congrArg (fun total => Except.map (· + total) _) (by omega)
  | @block inner text _ _ inside behind =>
    obtain _ | ⟨depth⟩ := region <;> cases within
    obtain ⟨below, rfl⟩ : ∃ below, depth = below + 1 := Nat.exists_eq_succ_of_ne_zero (Nat.ne_of_gt proper)
    have shape : '\x7b' :: (inner ++ '\x7d' :: text) ++ rest =
        '\x7b' :: (inner ++ '\x7d' :: (text ++ rest)) := by simp
    rw [shape, quotedLength_block,
      inside (.embedded (below + 2)) rfl (by simp [Region.Proper]) _ _ _ (absurd rfl),
      quotedLength_unblock, behind _ rfl proper _ _ _ (absurd rfl)]
    simp only [map_add_add, Position.after_cons, Position.after_append, List.length_cons, List.length_append]
    exact congrArg (fun total => Except.map (· + total) _) (by omega)
  | code plain more ih =>
    obtain _ | ⟨depth⟩ := region <;> cases within
    rw [List.cons_append, quotedLength_code plain, ih _ rfl proper _ _ _ (absurd rfl), map_add_add]
    rfl

theorem quotedLength_closed {mark : Char} (quote : mark = '"' ∨ mark = '\'') {inside : List Char}
    (nested : Nested (some mark) inside) (opened : Position) (outer : List OpenRegion) (position : Position)
    (rest : List Char) :
    quotedLength (⟨.quoted mark, opened⟩ :: outer) position (inside ++ mark :: rest) =
      (quotedLength outer (position.after (inside ++ [mark])) rest).map (· + (inside.length + 1)) := by
  have stops : mark ≠ '\x7b' := by rcases quote with rfl | rfl <;> decide
  rw [quotedLength_nested nested (.quoted mark) rfl quote _ _ _ fun _ => by simpa using stops,
    quotedLength_mark quote, map_add_add, Nat.add_comm 1, Position.after_append]
  rfl

theorem quotedLength_finished {text : List Char} (nested : Nested none text) (opened : Position)
    (outer : List OpenRegion) (position : Position) (rest : List Char) :
    quotedLength (⟨.embedded 1, opened⟩ :: outer) position (text ++ '\x7d' :: rest) =
      (quotedLength outer (position.after (text ++ ['\x7d'])) rest).map (· + (text.length + 1)) := by
  rw [quotedLength_nested nested (.embedded 1) rfl (Nat.le_refl 1) _ _ _ (absurd rfl),
    quotedLength_last, map_add_add, Nat.add_comm 1, Position.after_append]
  rfl

/-- A string token is a nested text between two marks. -/
theorem string_nested {start : Position} {text : List Char} {tokens before after : List Token}
    {token : Token} (lexed : tokensAt start text = .ok tokens) (cut : tokens = before ++ token :: after)
    (string : token.kind = .string) :
    ∃ mark inside rest, (mark = '"' ∨ mark = '\'') ∧ Nested (some mark) inside ∧
      text = spelled before ++ mark :: (inside ++ mark :: rest) ∧
      token.text.toList = mark :: (inside ++ [mark]) := by
  obtain ⟨mark, behind, length, whole, text, found⟩ := token_found lexed cut (by rw [string]; decide)
  rw [string] at found
  obtain ⟨quote, taken⟩ := found
  have proper : ∀ current ∈ [(⟨.quoted mark, token.position⟩ : OpenRegion)], current.region.Proper :=
    List.forall_mem_singleton.mpr quote
  obtain ⟨part, rest, rfl, rfl, inside, last, nested, rfl, rfl⟩ := quotedLength_takes proper _ _ _ taken
  refine ⟨mark, inside, rest, quote, nested, by simpa [closer] using whole, ?_⟩
  rw [text, List.take_left]
  rfl

end Lexer

end Scss
