import Mathlib.Tactic
import Scss.Dialect

/-! Forests of statements, written by indentation and by braces. The conversion is one pass over lines
with a stack of open blocks; it gives back the forest that the lines were written from. A block that a
line opens stays on the stack until a line comes that is not deeper, so what is said of a part of the
lines has to take the line behind it into account. -/
namespace Scss

namespace Chars

variable {line : List Char}

theorem lineCut_append_newline (single : '\n' ∉ line) (rest : List Char) :
    lineCut (line ++ '\n' :: rest) = ⟨line, true⟩ :: lineCut rest := by
  induction line with
  | nil => rfl
  | cons c line ih =>
    obtain ⟨other, behind⟩ := not_or.mp (mt List.mem_cons.mpr single)
    have step : lineCut (c :: line ++ '\n' :: rest) = pushLine c (lineCut (line ++ '\n' :: rest)) := rfl
    rw [step, ih behind, pushLine, if_neg fun same => other same.symm]

theorem lineCut_of_single (single : '\n' ∉ line) (nonempty : line ≠ []) :
    lineCut line = [⟨line, false⟩] := by
  induction line with
  | nil => contradiction
  | cons c line ih =>
    obtain ⟨other, behind⟩ := not_or.mp (mt List.mem_cons.mpr single)
    have step : lineCut (c :: line) = pushLine c (lineCut line) := rfl
    have here : c ≠ '\n' := fun same => other same.symm
    cases line with
    | nil => simp [lineCut, pushLine, here]
    | cons d line => rw [step, ih behind (List.cons_ne_nil d line), pushLine, if_neg here]

theorem dropReturn_of_not_mem (plain : '\r' ∉ line) : dropReturn line = line :=
  if_neg fun last => plain (List.mem_of_getLast? last)

/-- A text is cut into the lines that it was joined from. -/
theorem lines_intercalate {lines : List (List Char)} (some : lines ≠ [])
    (each : ∀ line ∈ lines, line ≠ [] ∧ '\n' ∉ line ∧ '\r' ∉ line) (ended : Bool) :
    Chars.lines (List.intercalate ['\n'] lines ++ if ended then ['\n'] else []) = lines := by
  induction lines with
  | nil => contradiction
  | cons line rest ih =>
    obtain ⟨⟨nonempty, single, plain⟩, others⟩ := List.forall_mem_cons.mp each
    cases rest with
    | nil =>
      cases ended with
      | true =>
        have cut := lineCut_append_newline single []
        simp only [if_true, List.intercalate_singleton, Chars.lines, cut]
        simp [Line.text, dropReturn_of_not_mem plain, lineCut]
      | false =>
        simp [Chars.lines, lineCut_of_single single nonempty, Line.text]
    | cons next rest =>
      have behind := ih (List.cons_ne_nil next rest) others
      rw [List.intercalate_cons_cons, List.append_assoc, List.append_assoc, List.singleton_append,
        Chars.lines, lineCut_append_newline single, List.map_cons, ← Chars.lines, behind, Line.text,
        if_pos rfl, dropReturn_of_not_mem plain]

theorem hasInfix_of_not_mem {c : Char} {pattern text : List Char} (absent : c ∉ text) :
    hasInfix (c :: pattern) text = false := by
  induction text with
  | nil => rfl
  | cons d text ih =>
    obtain ⟨other, behind⟩ := not_or.mp (mt List.mem_cons.mpr absent)
    simp [hasInfix, ih behind, List.isPrefixOf, other]

end Chars

namespace Indented

/-- Statements one behind the other, each with those inside it. -/
inductive Forest where
  | none
  | statement (text : List Char) (inside behind : Forest)

/-- A text that can stand in a line of its own, and that nothing else than a statement reads like. -/
structure Writable (text : List Char) : Prop where
  nonempty : text ≠ []
  trimmed : Chars.trim text = text
  single : '\n' ∉ text ∧ '\r' ∉ text
  comment : ¬ ['/', '*'] <+: text ∧ ¬ ['/', '/'] <+: text
  first : text.head? ≠ some '=' ∧ text.head? ≠ some '+'
  last : ∀ c ∈ [',', ';', '\x7b', '\x7d'], text.getLast? ≠ some c

namespace Forest

def Writable : Forest → Prop
  | none => True
  | statement text inside behind => Indented.Writable text ∧ inside.Writable ∧ behind.Writable

/-- One line for each statement, under `unit` more spaces than the statement around it. -/
def lines (unit depth : Nat) : Forest → List (List Char)
  | none => []
  | statement text inside behind =>
    (List.replicate (unit * depth) ' ' ++ text) ::
      (inside.lines unit (depth + 1) ++ behind.lines unit depth)

def braced (depth : Nat) : Forest → List (List Char)
  | none => []
  | statement text inside behind =>
    let indent := List.replicate (2 * depth) ' '
    let own :=
      match inside with
      | none => [indent ++ text ++ [';']]
      | statement _ _ _ =>
        (indent ++ text ++ [' ', '\x7b']) :: (inside.braced (depth + 1) ++ [indent ++ ['\x7d']])
    own ++ behind.braced depth

def depths (depth : Nat) : Forest → List Nat
  | none => []
  | statement _ inside behind => depth :: (inside.depths (depth + 1) ++ behind.depths depth)

end Forest

def joined (lines : List (List Char)) (ended : Bool) : String :=
  String.ofList (List.intercalate ['\n'] lines ++ if ended then ['\n'] else [])

namespace Writable

variable {text : List Char}

/-- A trimmed text begins with a character that is not blank. -/
theorem exists_visible (writable : Writable text) :
    ∃ c rest, text = c :: rest ∧ Chars.isBlank c = false := by
  obtain ⟨c, rest, rfl⟩ := List.exists_cons_of_ne_nil writable.nonempty
  refine ⟨c, rest, rfl, ?_⟩
  by_contra blank
  have start : Chars.trimStart (c :: rest) = Chars.trimStart rest := by
    simp [Chars.trimStart, Bool.not_eq_false _ ▸ blank]
  have shorter : (Chars.trim (c :: rest)).length ≤ rest.length := by
    have kept : (Chars.trimStart rest).length ≤ rest.length :=
      (List.dropWhile_suffix _).length_le
    have cut : (Chars.trimEnd (Chars.trimStart rest)).length ≤ (Chars.trimStart rest).length := by
      simpa [Chars.trimEnd] using
        (List.dropWhile_suffix (l := (Chars.trimStart rest).reverse) Chars.isBlank).length_le
    rw [Chars.trim, start]
    exact cut.trans kept
  rw [writable.trimmed, List.length_cons] at shorter
  omega

variable (writable : Writable text) (indent : Nat)

include writable

theorem isBlankLine_eq : isBlankLine (List.replicate indent ' ' ++ text) = false := by
  obtain ⟨c, rest, rfl, visible⟩ := writable.exists_visible
  simp [isBlankLine, visible]

theorem width_eq : width (List.replicate indent ' ' ++ text) = indent := by
  obtain ⟨c, rest, rfl, visible⟩ := writable.exists_visible
  have other : c ≠ ' ' ∧ c ≠ '\t' := by
    constructor <;> (rintro rfl; revert visible; decide)
  rw [width, List.takeWhile_append_of_pos (by simp)]
  simp [other]

theorem trim_eq : Chars.trim (List.replicate indent ' ' ++ text) = text := by
  have spaces : ∀ c ∈ List.replicate indent ' ', Chars.isBlank c = true := by
    intro c member
    rw [List.eq_of_mem_replicate member]
    rfl
  rw [Chars.trim, Chars.trimStart, List.dropWhile_append_of_pos spaces]
  exact writable.trimmed

omit indent in
theorem statement_eq : statement text = text := by
  obtain ⟨mixin, included⟩ := writable.first
  unfold statement
  split
  · exact absurd rfl mixin
  · exact absurd rfl included
  · rfl

end Writable

/-- What may follow statements at a depth: nothing, or a line that is not as deep. -/
def Ends (unit depth : Nat) (following : List (List Char)) : Prop :=
  ∀ line ∈ following.head?, isBlankLine line = false ∧ Indented.depth unit line < depth

namespace Ends

variable {unit depth : Nat} {following : List (List Char)}

theorem nil (unit depth : Nat) : Ends unit depth [] := by
  rintro line ⟨⟩

/-- The line behind a statement opens no block in it. -/
theorem opensBlock_eq (ends : Ends unit (depth + 1) following) :
    opensBlock unit depth following = false := by
  unfold opensBlock
  cases following with
  | nil => rfl
  | cons line rest =>
    obtain ⟨visible, shallow⟩ := ends line rfl
    simpa [visible] using Nat.le_of_lt_succ shallow

/-- The line behind a block closes it. -/
theorem convert_eq (ends : Ends unit (depth + 1) following) (opened : List Nat) :
    convert unit ⟨depth :: opened, 0, 0⟩ following =
      closing depth :: convert unit ⟨opened, 0, 0⟩ following := by
  cases following with
  | nil => rfl
  | cons line rest =>
    obtain ⟨visible, shallow⟩ := ends line rfl
    have closes : decide (Indented.depth unit line ≤ depth) = true := by simpa using Nat.le_of_lt_succ shallow
    unfold convert
    simp only [visible, closes, List.takeWhile_cons_of_pos, List.dropWhile_cons_of_pos, Nat.lt_irrefl,
      if_false, Bool.false_eq_true, List.map_cons, List.cons_append]
    split
    · rfl
    · split <;> rfl

end Ends

/-- A line of a statement. Blocks that are open around it stay open. -/
theorem convert_statement {unit depth : Nat} (positive : 0 < unit) {text : List Char}
    (writable : Writable text) {opened : List Nat} (around : ∀ outer ∈ opened, outer < depth)
    (rest : List (List Char)) :
    convert unit ⟨opened, 0, 0⟩ ((List.replicate (unit * depth) ' ' ++ text) :: rest) =
      if opensBlock unit depth rest then
        (List.replicate (2 * depth) ' ' ++ text ++ [' ', '\x7b']) ::
          convert unit ⟨depth :: opened, 0, 0⟩ rest
      else
        (List.replicate (2 * depth) ' ' ++ text ++ [';']) :: convert unit ⟨opened, 0, 0⟩ rest := by
  have own : Indented.depth unit (List.replicate (unit * depth) ' ' ++ text) = depth := by
    rw [Indented.depth, writable.width_eq, Nat.mul_div_cancel_left _ positive]
  have open_ : ∀ outer ∈ opened, ¬ decide (depth ≤ outer) = true := by
    intro outer member
    simpa using around outer member
  have closed : opened.takeWhile (fun outer => decide (depth ≤ outer)) = [] := by
    cases opened with
    | nil => rfl
    | cons outer others => exact List.takeWhile_cons_of_neg (open_ outer (List.mem_cons_self ..))
  have kept : opened.dropWhile (fun outer => decide (depth ≤ outer)) = opened := by
    cases opened with
    | nil => rfl
    | cons outer others => exact List.dropWhile_cons_of_neg (open_ outer (List.mem_cons_self ..))
  have block : ['/', '*'].isPrefixOf text = false := by
    rw [← Bool.not_eq_true, List.isPrefixOf_iff_prefix]
    exact writable.comment.1
  have silent : ['/', '/'].isPrefixOf text = false := by
    rw [← Bool.not_eq_true, List.isPrefixOf_iff_prefix]
    exact writable.comment.2
  have line : (['/', '/'].isPrefixOf text || text.getLast? = some ',') = false := by
    simpa [silent] using writable.last ',' (by simp)
  have bare : [some ';', some '\x7b', some '\x7d'].contains text.getLast? = false := by
    have semicolon := writable.last ';' (by simp)
    have opening := writable.last '\x7b' (by simp)
    have closing := writable.last '\x7d' (by simp)
    simp [semicolon, opening, closing]
  rw [convert]
  simp only [Nat.lt_irrefl, if_false, writable.isBlankLine_eq, Bool.false_eq_true, writable.trim_eq, own,
    closed, kept, block, line, List.map_nil, List.replicate_zero, List.nil_append]
  unfold statementLine
  rw [writable.statement_eq]
  dsimp only
  cases opensBlock unit depth rest with
  | true => simp [pad]
  | false => simp only [bare, Bool.false_eq_true, if_false, pad]

namespace Forest

variable {unit : Nat} (positive : 0 < unit)

include positive in
/-- The first line of a forest is one of its own depth. -/
theorem ends_lines {forest : Forest} (writable : forest.Writable) {depth : Nat}
    {following : List (List Char)} (ends : Ends unit depth following) :
    Ends unit (depth + 1) (forest.lines unit depth ++ following) := by
  cases forest with
  | none =>
    intro line first
    obtain ⟨visible, shallow⟩ := ends line first
    exact ⟨visible, Nat.lt_succ_of_lt shallow⟩
  | statement text inside behind =>
    rintro _ ⟨rfl⟩
    refine ⟨writable.1.isBlankLine_eq _, ?_⟩
    rw [Indented.depth, writable.1.width_eq, Nat.mul_div_cancel_left _ positive]
    exact Nat.lt_succ_self depth

include positive in
/-- Statements inside a statement make it a block. -/
theorem opensBlock_lines {text : List Char} {inside behind : Forest} {depth : Nat}
    (writable : Indented.Writable text) (following : List (List Char)) :
    opensBlock unit depth ((statement text inside behind).lines unit (depth + 1) ++ following) = true := by
  have deeper : Indented.depth unit (List.replicate (unit * (depth + 1)) ' ' ++ text) = depth + 1 := by
    rw [Indented.depth, writable.width_eq, Nat.mul_div_cancel_left _ positive]
  have visible := writable.isBlankLine_eq (unit * (depth + 1))
  simp [opensBlock, lines, visible, deeper]

include positive in
/-- The lines of a forest come out as the forest by braces, whatever is open around them and whatever
follows them. The induction goes along the statements: those inside a statement are followed by those
behind it, and the first line of these closes its block. -/
theorem convert_lines {forest : Forest} (writable : forest.Writable) {depth : Nat} {opened : List Nat}
    (around : ∀ outer ∈ opened, outer < depth) {following : List (List Char)}
    (ends : Ends unit depth following) :
    convert unit ⟨opened, 0, 0⟩ (forest.lines unit depth ++ following) =
      forest.braced depth ++ convert unit ⟨opened, 0, 0⟩ following := by
  induction forest generalizing depth opened following with
  | none => rfl
  | statement text inside behind insideIh behindIh =>
    obtain ⟨own, within, others⟩ := writable
    have next := ends_lines positive others ends
    rw [lines, List.cons_append, List.append_assoc, convert_statement positive own around]
    cases inside with
    | none =>
      have leaf : opensBlock unit depth ((none.lines unit (depth + 1)) ++
          (behind.lines unit depth ++ following)) = false := next.opensBlock_eq
      rw [leaf, if_neg (by simp), braced, List.append_assoc]
      exact congrArg _ (behindIh others around ends)
    | statement first inner later =>
      have block := insideIh within (List.forall_mem_cons.mpr
        ⟨Nat.lt_succ_self depth, fun outer member => Nat.lt_succ_of_lt (around outer member)⟩) next
      rw [opensBlock_lines positive within.1, if_pos rfl, block, next.convert_eq,
        behindIh others around ends]
      conv_rhs => rw [braced]
      simp [closing, pad]

/-- The lines depend on the unit only where they are indented. -/
theorem lines_congr {forest : Forest} {depth first second : Nat}
    (same : ∀ deep ∈ forest.depths depth, first * deep = second * deep) :
    forest.lines first depth = forest.lines second depth := by
  induction forest generalizing depth with
  | none => rfl
  | statement text inside behind insideIh behindIh =>
    obtain ⟨here, others⟩ := List.forall_mem_cons.mp same
    obtain ⟨within, later⟩ := List.forall_mem_append.mp others
    rw [lines, lines, here, insideIh within, behindIh later]

theorem map_width_lines {forest : Forest} (writable : forest.Writable) (unit depth : Nat) :
    ((forest.lines unit depth).filter fun line => !isBlankLine line).map width =
      (forest.depths depth).map (unit * ·) := by
  induction forest generalizing depth with
  | none => rfl
  | statement text inside behind insideIh behindIh =>
    obtain ⟨own, within, others⟩ := writable
    have visible := own.isBlankLine_eq (unit * depth)
    rw [lines, List.filter_cons_of_pos (by simp [visible]), List.filter_append, List.map_cons,
      List.map_append, insideIh within, behindIh others, own.width_eq, depths, List.map_cons,
      List.map_append]

/-- Statements stand no deeper than one block, or some stand in a block that is in none. -/
theorem flat_or_one_mem_depths (forest : Forest) :
    (∀ deep ∈ forest.depths 0, deep = 0) ∨ 1 ∈ forest.depths 0 := by
  induction forest with
  | none => exact .inl (by simp [depths])
  | statement text inside behind insideIh behindIh =>
    cases inside with
    | statement => exact .inr (by simp [depths])
    | none =>
      rcases behindIh with flat | deep
      · exact .inl (by simpa [depths] using flat)
      · exact .inr (by simp [depths, deep])

include positive in
/-- The unit is found again wherever it was used. -/
theorem unitOf_lines {forest : Forest} (writable : forest.Writable) (deep : 1 ∈ forest.depths 0) :
    unitOf (forest.lines unit 0) = unit := by
  unfold unitOf
  dsimp only
  rw [map_width_lines writable]
  have least : (((forest.depths 0).map (unit * ·)).filter (0 < ·)).min? = some unit := by
    rw [List.min?_eq_some_iff]
    constructor
    · simp only [List.mem_filter, List.mem_map, decide_eq_true_eq]
      exact ⟨⟨1, deep, Nat.mul_one unit⟩, positive⟩
    · intro other member
      simp only [List.mem_filter, List.mem_map, decide_eq_true_eq] at member
      obtain ⟨⟨steps, -, rfl⟩, indented⟩ := member
      exact Nat.le_mul_of_pos_right unit (Nat.pos_of_mul_pos_left indented)
  rw [least]
  rfl

/-- Without blocks nothing is indented. -/
theorem unitOf_lines_of_flat {forest : Forest} (writable : forest.Writable)
    (flat : ∀ deep ∈ forest.depths 0, deep = 0) : unitOf (forest.lines unit 0) = 2 := by
  unfold unitOf
  dsimp only
  rw [map_width_lines writable]
  have none : ((forest.depths 0).map (unit * ·)).filter (0 < ·) = [] := by
    rw [List.filter_eq_nil_iff]
    intro width member
    obtain ⟨deep, listed, rfl⟩ := List.mem_map.mp member
    simp [flat deep listed]
  rw [none]
  rfl

include positive in
/-- All lines together, with the unit that is found in them. -/
theorem convert_unitOf_lines {forest : Forest} (writable : forest.Writable) :
    convert (unitOf (forest.lines unit 0)) ⟨[], 0, 0⟩ (forest.lines unit 0) = forest.braced 0 := by
  have whole {unit : Nat} (positive : 0 < unit) :
      convert unit ⟨[], 0, 0⟩ (forest.lines unit 0) = forest.braced 0 := by
    have all : convert unit ⟨[], 0, 0⟩ (forest.lines unit 0 ++ []) =
        forest.braced 0 ++ convert unit ⟨[], 0, 0⟩ [] :=
      convert_lines positive writable (by simp) (.nil unit 0)
    simpa [convert] using all
  rcases flat_or_one_mem_depths forest with flat | deep
  · have same : forest.lines unit 0 = forest.lines 2 0 := by
      apply lines_congr
      intro deep listed
      rw [flat deep listed, Nat.mul_zero, Nat.mul_zero]
    rw [unitOf_lines_of_flat writable flat, same]
    exact whole Nat.two_pos
  · rw [unitOf_lines positive writable deep]
    exact whole positive

/-- No line is empty, and none has an end inside. -/
theorem mem_lines {forest : Forest} (writable : forest.Writable) {unit depth : Nat} {line : List Char}
    (member : line ∈ forest.lines unit depth) : line ≠ [] ∧ '\n' ∉ line ∧ '\r' ∉ line := by
  induction forest generalizing depth with
  | none => cases member
  | statement text inside behind insideIh behindIh =>
    obtain ⟨own, within, others⟩ := writable
    rcases List.mem_cons.mp member with rfl | member
    · simp [own.nonempty, own.single]
    · rcases List.mem_append.mp member with member | member
      · exact insideIh within member
      · exact behindIh others member

end Forest

/-- A text of lines has the characters of the lines, and line feeds. -/
theorem mem_intercalate {c : Char} {lines : List (List Char)}
    (member : c ∈ List.intercalate ['\n'] lines) : c = '\n' ∨ ∃ line ∈ lines, c ∈ line := by
  induction lines with
  | nil => cases member
  | cons line rest ih =>
    cases rest with
    | nil => exact .inr ⟨line, List.mem_cons_self .., by simpa using member⟩
    | cons next rest =>
      rw [List.intercalate_cons_cons, List.mem_append, List.mem_append] at member
      rcases member with (here | newline) | behind
      · exact .inr ⟨line, List.mem_cons_self .., here⟩
      · exact .inl (List.mem_singleton.mp newline)
      · obtain newline | ⟨other, listed, inside⟩ := ih behind
        · exact .inl newline
        · exact .inr ⟨other, List.mem_cons_of_mem _ listed, inside⟩

/-- It ends with one of the lines. -/
theorem exists_intercalate_eq {lines : List (List Char)} (some : lines ≠ []) :
    ∃ before, ∃ last ∈ lines, List.intercalate ['\n'] lines = before ++ last := by
  induction lines with
  | nil => contradiction
  | cons line rest ih =>
    cases rest with
    | nil => exact ⟨[], line, by simp, by simp⟩
    | cons next rest =>
      obtain ⟨before, last, listed, whole⟩ := ih (List.cons_ne_nil next rest)
      refine ⟨line ++ ['\n'] ++ before, last, List.mem_cons_of_mem _ listed, ?_⟩
      simp [List.intercalate_cons_cons, whole]

/-- A forest that is written by indentation is converted into the same forest written by braces, for
every unit of indentation and with or without a line feed at the end. -/
theorem toScss_forest {unit : Nat} (positive : 0 < unit) {forest : Forest} (writable : forest.Writable)
    (ended : Bool) :
    toScss (joined (forest.lines unit 0) ended) = joined (forest.braced 0) ended := by
  have each : ∀ line ∈ forest.lines unit 0, line ≠ [] ∧ '\n' ∉ line ∧ '\r' ∉ line :=
    fun line member => Forest.mem_lines writable member
  have converted := forest.convert_unitOf_lines positive writable
  generalize forest.lines unit 0 = lines at each converted
  generalize same : List.intercalate ['\n'] lines ++ (if ended then ['\n'] else []) = chars
  have returnless : '\r' ∉ chars := by
    rw [← same, List.mem_append, not_or]
    constructor
    · intro member
      obtain newline | ⟨line, listed, inside⟩ := mem_intercalate member
      · cases newline
      · exact (each line listed).2.2 inside
    · cases ended <;> simp
  have final : (chars.getLast? = some '\n') = (ended = true) := by
    subst same
    cases ended with
    | true => simp
    | false =>
      rw [if_neg (by simp), List.append_nil, eq_iff_iff, iff_false_right (by simp)]
      intro newline
      by_cases empty : lines = []
      · simp [empty] at newline
      · obtain ⟨before, last, listed, whole⟩ := exists_intercalate_eq empty
        obtain ⟨nonempty, single, -⟩ := each last listed
        rw [whole, List.getLast?_append_of_ne_nil _ nonempty] at newline
        exact single (List.mem_of_getLast? newline)
  have cut : convert (unitOf (Chars.lines chars)) ⟨[], 0, 0⟩ (Chars.lines chars) = forest.braced 0 := by
    by_cases empty : lines = []
    · -- An empty forest has no line, or one that is blank.
      rw [← converted, ← same, empty]
      cases ended <;> rfl
    · rw [← same, Chars.lines_intercalate empty each, converted]
  unfold toScss joined
  rw [same, String.toList_ofList]
  dsimp only
  simp only [Chars.hasInfix_of_not_mem returnless, Bool.false_eq_true, if_false, cut, final]

/-- A rule with a declaration, a rule inside it and a rule behind it, under three spaces each. -/
theorem toScss_forest_nav :
    let leaf (text : String) := Forest.statement text.toList .none
    let forest := Forest.statement ".nav".toList
      (leaf "color: red" (.statement "&:hover".toList (leaf "color: blue" .none) .none))
      (.statement ".b".toList (leaf "top: 0" .none) .none)
    forest.Writable ∧
      joined (forest.lines 3 0) true =
        ".nav\n   color: red\n   &:hover\n      color: blue\n.b\n   top: 0\n" ∧
      toScss (joined (forest.lines 3 0) true) =
        ".nav \x7b\n  color: red;\n  &:hover \x7b\n    color: blue;\n  \x7d\n\x7d\n.b \x7b\n  top: 0;\n\x7d\n" := by
  intro leaf forest
  have writable (text : List Char) (checked : text ≠ [] ∧ Chars.trim text = text ∧
      ('\n' ∉ text ∧ '\r' ∉ text) ∧ (¬ ['/', '*'] <+: text ∧ ¬ ['/', '/'] <+: text) ∧
      (text.head? ≠ some '=' ∧ text.head? ≠ some '+') ∧
      ([',', ';', '\x7b', '\x7d'].all fun c => text.getLast? ≠ some c) = true) : Writable text := by
    obtain ⟨nonempty, trimmed, single, comment, first, last⟩ := checked
    exact ⟨nonempty, trimmed, single, comment, first, by simpa using last⟩
  have all : forest.Writable := by
    refine ⟨writable _ ?_, ⟨writable _ ?_, trivial, writable _ ?_, ⟨writable _ ?_, trivial, trivial⟩, trivial⟩,
      writable _ ?_, ⟨writable _ ?_, trivial, trivial⟩, trivial⟩ <;> decide +kernel
  refine ⟨all, by decide +kernel, ?_⟩
  rw [toScss_forest (by decide) all]
  decide +kernel

end Indented

end Scss
