/-!
Cutting and replacing by fixed text: pieces between separators, and every occurrence of a pattern,
found from left to right without overlap. Texts are cut between characters, but for the slices by
bytes, of which there are none where one would begin or end inside of a character.
-/
namespace Scss

namespace Chars

/-- One step of `splitOn`, from the end of the text to its front. -/
def pushPiece (separator c : Char) (after : List (List Char)) : List (List Char) :=
  if c = separator then [] :: after
  else
    match after with
    | [] => [[c]]
    | piece :: rest => (c :: piece) :: rest

/-- The pieces between the occurrences of `separator`: one more than there are occurrences. -/
def splitOn (separator : Char) (text : List Char) : List (List Char) :=
  text.foldr (pushPiece separator) [[]]

/-- `replace` inside a text of which the next `skip` characters belong to an occurrence already
replaced. -/
def replaceFrom (pattern replacement : List Char) : Nat → List Char → List Char
  | _, [] => []
  | skip + 1, _ :: rest => replaceFrom pattern replacement skip rest
  | 0, c :: rest =>
    if pattern.isPrefixOf (c :: rest) then
      replacement ++ replaceFrom pattern replacement (pattern.length - 1) rest
    else c :: replaceFrom pattern replacement 0 rest

/-- Every occurrence of a pattern, which is not empty, replaced. -/
def replace (pattern replacement text : List Char) : List Char :=
  replaceFrom pattern replacement 0 text

/-- Whether `pattern` occurs in the text. -/
def hasInfix (pattern : List Char) : List Char → Bool
  | [] => pattern.isEmpty
  | c :: rest => pattern.isPrefixOf (c :: rest) || hasInfix pattern rest

def size : List Char → Nat
  | [] => 0
  | c :: rest => c.utf8Size + size rest

/-- The first `count` bytes. -/
def takeBytes? : Nat → List Char → Option (List Char)
  | 0, _ => some []
  | _ + 1, [] => none
  | count + 1, c :: rest =>
    if c.utf8Size ≤ count + 1 then
      (takeBytes? (count + 1 - c.utf8Size) rest).map (fun taken => c :: taken)
    else none

/-- What follows the first `count` bytes. -/
def dropBytes? : Nat → List Char → Option (List Char)
  | 0, text => some text
  | _ + 1, [] => none
  | count + 1, c :: rest =>
    if c.utf8Size ≤ count + 1 then dropBytes? (count + 1 - c.utf8Size) rest else none

/-- The bytes from `start` up to `stop`. -/
def bytes? (start stop : Nat) (text : List Char) : Option (List Char) :=
  (takeBytes? stop text).bind (dropBytes? start)

@[simp]
theorem size_nil : size [] = 0 := rfl

@[simp]
theorem size_cons (c : Char) (rest : List Char) : size (c :: rest) = c.utf8Size + size rest := rfl

@[simp]
theorem size_append (front back : List Char) : size (front ++ back) = size front + size back := by
  induction front with
  | nil => simp
  | cons c front ih => rw [List.cons_append, size_cons, size_cons, ih, Nat.add_assoc]

@[simp]
theorem takeBytes?_zero (text : List Char) : takeBytes? 0 text = some [] := by
  rw [takeBytes?]

@[simp]
theorem dropBytes?_zero (text : List Char) : dropBytes? 0 text = some text := by
  rw [dropBytes?]

/-- A character whose bytes are all taken. -/
theorem takeBytes?_cons (c : Char) (count : Nat) (rest : List Char) :
    takeBytes? (c.utf8Size + count) (c :: rest) = (takeBytes? count rest).map (fun taken => c :: taken) := by
  obtain ⟨less, width⟩ := Nat.exists_eq_succ_of_ne_zero (Nat.ne_of_gt c.utf8Size_pos)
  have sum : c.utf8Size + count = (less + count) + 1 := by omega
  have left : less + count + 1 - c.utf8Size = count := by omega
  rw [sum, takeBytes?, if_pos (by omega), left]

theorem dropBytes?_cons (c : Char) (count : Nat) (rest : List Char) :
    dropBytes? (c.utf8Size + count) (c :: rest) = dropBytes? count rest := by
  obtain ⟨less, width⟩ := Nat.exists_eq_succ_of_ne_zero (Nat.ne_of_gt c.utf8Size_pos)
  have sum : c.utf8Size + count = (less + count) + 1 := by omega
  have left : less + count + 1 - c.utf8Size = count := by omega
  rw [sum, dropBytes?, if_pos (by omega), left]

/-- Where the slice ends between two characters. -/
theorem takeBytes?_size (front back : List Char) :
    takeBytes? (size front) (front ++ back) = some front := by
  induction front with
  | nil => simp
  | cons c front ih => rw [size_cons, List.cons_append, takeBytes?_cons, ih, Option.map_some]

theorem dropBytes?_size (front back : List Char) :
    dropBytes? (size front) (front ++ back) = some back := by
  induction front with
  | nil => simp
  | cons c front ih => rw [size_cons, List.cons_append, dropBytes?_cons, ih]

/-- Where the slice ends inside of a character. -/
theorem takeBytes?_inside {c : Char} {more : Nat} (begun : more ≠ 0) (inside : more < c.utf8Size)
    (front back : List Char) : takeBytes? (size front + more) (front ++ c :: back) = none := by
  induction front with
  | nil =>
    obtain ⟨less, rfl⟩ := Nat.exists_eq_succ_of_ne_zero begun
    rw [size_nil, Nat.zero_add, List.nil_append, takeBytes?, if_neg (Nat.not_le_of_lt inside)]
  | cons first front ih =>
    rw [size_cons, Nat.add_assoc, List.cons_append, takeBytes?_cons, ih, Option.map_none]

/-- What is taken is the front of the text. -/
theorem prefix_of_takeBytes? {count : Nat} {text taken : List Char}
    (found : takeBytes? count text = some taken) : taken <+: text := by
  induction count, text using takeBytes?.induct generalizing taken with
  | case1 text =>
    rw [takeBytes?] at found
    exact Option.some.inj found ▸ List.nil_prefix
  | case2 => cases found
  | case3 count c rest fits ih =>
    rw [takeBytes?, if_pos fits] at found
    obtain ⟨others, own, rfl⟩ := Option.map_eq_some_iff.mp found
    exact List.cons_prefix_cons.mpr ⟨rfl, ih own⟩
  | case4 count c rest cut =>
    rw [takeBytes?, if_neg cut] at found
    cases found

/-- What is left is the back of the text. -/
theorem suffix_of_dropBytes? {count : Nat} {text left : List Char}
    (found : dropBytes? count text = some left) : left <:+ text := by
  induction count, text using dropBytes?.induct with
  | case1 text =>
    rw [dropBytes?] at found
    exact Option.some.inj found ▸ List.suffix_rfl
  | case2 => cases found
  | case3 count c rest fits ih =>
    rw [dropBytes?, if_pos fits] at found
    exact (ih found).trans (List.suffix_cons c rest)
  | case4 count c rest cut =>
    rw [dropBytes?, if_neg cut] at found
    cases found

/-- A slice stands in the text as it is. -/
theorem infix_of_bytes? {start stop : Nat} {text slice : List Char}
    (found : bytes? start stop text = some slice) : slice <:+: text := by
  obtain ⟨taken, front, back⟩ := Option.bind_eq_some_iff.mp found
  obtain ⟨before, rfl⟩ := suffix_of_dropBytes? back
  obtain ⟨after, rfl⟩ := prefix_of_takeBytes? front
  exact ⟨before, after, rfl⟩

end Chars

namespace Text

def splitOn (separator : Char) (text : String) : List String :=
  (Chars.splitOn separator text.toList).map String.ofList

def replace (pattern replacement text : String) : String :=
  String.ofList (Chars.replace pattern.toList replacement.toList text.toList)

def contains (pattern text : String) : Bool := Chars.hasInfix pattern.toList text.toList

def startsWith (start text : String) : Bool := start.toList.isPrefixOf text.toList

def endsWith (final text : String) : Bool := final.toList.isSuffixOf text.toList

/-- What follows `start`, if the text starts with it. -/
def dropStart? (start text : String) : Option String :=
  if startsWith start text then some (String.ofList (text.toList.drop start.length)) else none

/-- What precedes `final`, if the text ends with it. -/
def dropEnd? (final text : String) : Option String :=
  if endsWith final text then
    some (String.ofList (text.toList.take (text.length - final.length)))
  else none

/-- The text without its first `n` characters. -/
def dropFirst (n : Nat) (text : String) : String := String.ofList (text.toList.drop n)

def interior (text : String) : String := String.ofList (text.toList.tail.dropLast)

def join (separator : String) (parts : List String) : String := String.intercalate separator parts

end Text

end Scss
