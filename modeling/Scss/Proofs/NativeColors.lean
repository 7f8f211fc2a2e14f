import Scss.Builtin.Native
import Scss.Proofs.Grammar.Numbers

/-! Nested calls in the browser's own colour functions. Channels are cut out of the written arguments at
every blank, slash and comma. Outside of parentheses these are the ends of channels; inside of them they
belong to a nested call, which is then cut apart. So cutting everywhere and cutting outside agree just if
no parentheses have such a character inside, and then every nested call is part of one channel. -/
namespace Scss

namespace Decimal

/-- A character behind those that something is read from is still there. -/
theorem mem_drop_takeWhile {p : Char → Bool} {c : Char} {text : List Char} (other : p c = false)
    (member : c ∈ text) : c ∈ text.drop (text.takeWhile p).length := by
  have whole := List.take_append_drop (text.takeWhile p).length text
  rw [← List.prefix_iff_eq_take.mp (List.takeWhile_prefix p)] at whole
  rw [← whole, List.mem_append] at member
  refine member.resolve_left fun inside => ?_
  have all := List.all_takeWhile (p := p) (l := text)
  rw [List.all_eq_true.mp all c inside] at other
  cases other

variable {text : List Char} (paren : '(' ∈ text)

include paren

theorem readExponent?_of_paren : readExponent? text = none := by
  have digits {part : List Char} (inside : '(' ∈ part) : part.all Char.isDigit = false := by
    rw [List.all_eq_false]
    exact ⟨'(', inside, by decide⟩
  unfold readExponent?
  split
  rename_i negative magnitude same
  have inside : '(' ∈ magnitude := by
    split at same <;> obtain ⟨-, rfl⟩ := Prod.mk.inj same <;> simpa using paren
  simp [digits inside]

theorem readScaled_of_paren (digits places : Nat) : readScaled digits places text = none := by
  cases text with
  | nil => cases paren
  | cons c exponent =>
    rw [readScaled]
    split
    · rename_i letter
      have inside : '(' ∈ exponent := by
        refine (List.mem_cons.mp paren).resolve_left fun same => ?_
        subst same
        revert letter
        decide
      rw [readExponent?_of_paren inside]
      rfl
    · rfl

theorem mem_cutPlaces : '(' ∈ (cutPlaces text).2 := by
  unfold cutPlaces
  split
  · rename_i more
    have inside : '(' ∈ more := by simpa using paren
    have whole := List.takeWhile_append_dropWhile (p := Char.isDigit) (l := more)
    rw [← whole, List.mem_append] at inside
    refine inside.resolve_left fun taken => ?_
    have digit := List.all_eq_true.mp List.all_takeWhile _ taken
    revert digit
    decide
  · exact paren

/-- A text with a parenthesis is no number. -/
theorem read?_of_paren : read? text = none := by
  have unsigned {magnitude : List Char} (inside : '(' ∈ magnitude) : readUnsigned? magnitude = none := by
    rw [readUnsigned_eq]
    split
    · rfl
    · exact readScaled_of_paren (mem_cutPlaces (mem_drop_takeWhile (by decide) inside)) _ _
  have magnitude (negative : Bool) {magnitude : List Char} (inside : '(' ∈ magnitude) :
      (if Chars.lower magnitude = "inf".toList ∨ Chars.lower magnitude = "infinity".toList then
          some (1.0 / 0.0 : Float)
        else if Chars.lower magnitude = "nan".toList then some (0.0 / 0.0)
        else readUnsigned? magnitude).map (fun value => if negative then -value else value) = none := by
    have lowered : '(' ∈ Chars.lower magnitude := List.mem_map.mpr ⟨'(', inside, by decide⟩
    have worded (word : List Char) (plain : '(' ∉ word) : Chars.lower magnitude ≠ word := by
      rintro rfl
      exact plain lowered
    rw [if_neg (not_or.mpr ⟨worded _ (by decide), worded _ (by decide)⟩), if_neg (worded _ (by decide)),
      unsigned inside, Option.map_none]
  obtain ⟨c, rest, rfl⟩ := List.exists_cons_of_ne_nil (List.ne_nil_of_mem paren)
  by_cases minus : c = '-'
  · subst minus
    rw [read?]
    exact magnitude true (by simpa using paren)
  · by_cases plus : c = '+'
    · subst plus
      rw [read?]
      exact magnitude false (by simpa using paren)
    · rw [read?]
      · exact magnitude false paren
      · exact fun rest same => minus (List.cons.inj same).1
      · exact fun rest same => plus (List.cons.inj same).1

end Decimal

namespace Builtin.Native

open Chars (extendFirst pushWord)

def levelBehind (level : Nat) (c : Char) : Nat :=
  if c = '(' then level + 1 else if c = ')' then level - 1 else level

def WellNested : Nat → List Char → Prop
  | level, [] => level = 0
  | level, c :: rest => (c = ')' → level ≠ 0) ∧ WellNested (levelBehind level c) rest

/-- No channel ends inside of parentheses. -/
def Undivided : Nat → List Char → Prop
  | _, [] => True
  | level, c :: rest => (level ≠ 0 → isDivider c = false) ∧ Undivided (levelBehind level c) rest

instance decidableWellNested : (level : Nat) → (text : List Char) → Decidable (WellNested level text)
  | level, [] => inferInstanceAs (Decidable (level = 0))
  | level, c :: rest =>
    have := decidableWellNested (levelBehind level c) rest
    inferInstanceAs (Decidable (_ ∧ _))

instance decidableUndivided : (level : Nat) → (text : List Char) → Decidable (Undivided level text)
  | _, [] => inferInstanceAs (Decidable True)
  | level, c :: rest =>
    have := decidableUndivided (levelBehind level c) rest
    inferInstanceAs (Decidable (_ ∧ _))

/-- A name and, right behind it, parentheses around a well nested text. -/
def IsCall (call : List Char) : Prop :=
  ∃ name inside, name ≠ [] ∧ (∀ c ∈ name, isDivider c = false ∧ c ≠ '(' ∧ c ≠ ')') ∧ WellNested 0 inside ∧
    call = name ++ '(' :: (inside ++ [')'])

def outerPieces : Nat → List Char → List (List Char)
  | _, [] => [[]]
  | level, c :: rest =>
    if level = 0 && isDivider c then [] :: outerPieces level rest
    else extendFirst c (outerPieces (levelBehind level c) rest)

def outerParts (text : String) : List String :=
  ((outerPieces 0 text.toList).filter fun piece => !piece.isEmpty).map String.ofList

def allPieces (text : List Char) : List (List Char) :=
  (text.map fun c => if isDivider c then ' ' else c).foldr pushWord [[]]

/-- A call with these channels: three or four are written in one form, any other number of them leaves the
arguments as they are. -/
def written (name : String) (arguments channels : List String) : String :=
  let hsl := name = "hsl" || name = "hsla"
  match channels with
  | [a, b, c] => if hsl then s!"hsl({a}, {b}, {c})" else s!"{name}({a} {b} {c})"
  | [a, b, c, alpha] =>
    if hsl then s!"hsla({a}, {b}, {c}, {opacity alpha})"
    else s!"{name}({a} {b} {c} / {opacity alpha})"
  | _ => callText name arguments

theorem color_eq (name : String) (args : Slots) :
    color name args = written name (texts args) ((texts args).flatMap parts) := rfl

section Pieces

variable {c : Char} {level : Nat} {text rest : List Char}

theorem parts_eq (text : String) :
    parts text = ((allPieces text.toList).filter fun piece => !piece.isEmpty).map String.ofList := rfl

theorem pushWord_eq (c : Char) (pieces : List (List Char)) :
    pushWord (if isDivider c then ' ' else c) pieces =
      if isDivider c then [] :: pieces else extendFirst c pieces := by
  have space : Chars.isBlank ' ' = true := rfl
  cases divider : isDivider c with
  | true => cases pieces <;> simp [pushWord, space]
  | false =>
    have visible : Chars.isBlank c = false := by
      simp only [isDivider, Bool.or_eq_false_iff] at divider
      exact divider.1.1
    cases pieces <;> simp [pushWord, visible, extendFirst]

theorem allPieces_cons (c : Char) (rest : List Char) :
    allPieces (c :: rest) = if isDivider c then [] :: allPieces rest else extendFirst c (allPieces rest) :=
  pushWord_eq c (allPieces rest)

theorem levelBehind_of_divider (divider : isDivider c = true) (level : Nat) : levelBehind level c = level := by
  have other : c ≠ '(' ∧ c ≠ ')' := by
    constructor <;> (rintro rfl; revert divider; decide)
  simp [levelBehind, other]

theorem outerPieces_of_undivided (undivided : Undivided level text) :
    outerPieces level text = allPieces text := by
  induction text generalizing level with
  | nil => rfl
  | cons c rest ih =>
    obtain ⟨here, others⟩ := undivided
    rw [outerPieces, allPieces_cons]
    cases divider : isDivider c with
    | true =>
      have outside : level = 0 := by
        by_contra inside
        rw [here inside] at divider
        cases divider
      rw [levelBehind_of_divider divider] at others
      simp [outside, ← ih others]
    | false => simp [ih others]

/-- A piece of an extended row of pieces is one of the row, or the first with the character before it. -/
theorem mem_extendFirst {piece : List Char} {pieces : List (List Char)} (member : piece ∈ pieces) :
    ∃ extended ∈ extendFirst c pieces, piece <:+ extended := by
  cases pieces with
  | nil => cases member
  | cons first others =>
    rcases List.mem_cons.mp member with rfl | member
    · exact ⟨c :: piece, List.mem_cons_self .., List.suffix_cons c piece⟩
    · exact ⟨piece, List.mem_cons_of_mem _ member, List.suffix_rfl⟩

/-- A divider inside of parentheses stays in its piece. -/
theorem exists_divided (divided : ¬ Undivided level text) :
    ∃ piece ∈ outerPieces level text, ∃ c ∈ piece, isDivider c = true := by
  induction text generalizing level with
  | nil => exact absurd trivial divided
  | cons c rest ih =>
    rw [outerPieces]
    by_cases inside : level ≠ 0 ∧ isDivider c = true
    · rw [if_neg (by simp [inside.1])]
      cases outerPieces (levelBehind level c) rest with
      | nil => exact ⟨[c], by simp [extendFirst], c, by simp, inside.2⟩
      | cons first others => exact ⟨c :: first, by simp [extendFirst], c, by simp, inside.2⟩
    · have later : ¬ Undivided (levelBehind level c) rest := by
        intro undivided
        refine divided ⟨fun deep => ?_, undivided⟩
        by_contra divider
        exact inside ⟨deep, by simpa using divider⟩
      obtain ⟨piece, member, d, shown, divider⟩ := ih later
      split
      · rename_i cut
        simp only [Bool.and_eq_true, decide_eq_true_eq] at cut
        rw [levelBehind_of_divider cut.2] at member
        exact ⟨piece, List.mem_cons_of_mem _ member, d, shown, divider⟩
      · obtain ⟨extended, found, suffix⟩ := mem_extendFirst member
        exact ⟨extended, found, d, suffix.subset shown, divider⟩

/-- No divider is left in the pieces between all of them. -/
theorem plain_of_mem_allPieces : ∀ piece ∈ allPieces text, ∀ c ∈ piece, isDivider c = false := by
  induction text with
  | nil => simp [allPieces]
  | cons c rest ih =>
    rw [allPieces_cons]
    cases divider : isDivider c with
    | true => simpa using ih
    | false =>
      cases pieces : allPieces rest with
      | nil => simp [extendFirst, divider]
      | cons first others =>
        rw [pieces, List.forall_mem_cons] at ih
        simpa [extendFirst, divider] using ih

/-- Cutting everywhere and cutting outside of parentheses agree just if nothing is cut inside of them. -/
theorem parts_eq_outerParts_iff (text : String) : parts text = outerParts text ↔ Undivided 0 text.toList := by
  constructor
  · intro same
    by_contra divided
    obtain ⟨piece, member, c, shown, divider⟩ := exists_divided divided
    have outer : String.ofList piece ∈ outerParts text := by
      refine List.mem_map_of_mem (List.mem_filter.mpr ⟨member, ?_⟩)
      simpa using List.ne_nil_of_mem shown
    rw [← same, parts_eq] at outer
    obtain ⟨part, among, equal⟩ := List.mem_map.mp outer
    obtain rfl := String.ofList_injective equal
    rw [plain_of_mem_allPieces part (List.mem_of_mem_filter among) c shown] at divider
    cases divider
  · intro undivided
    rw [parts_eq, outerParts, outerPieces_of_undivided undivided]

/-- A text without dividers is inside of a piece, whatever stands around it. -/
theorem exists_piece {call : List Char} (plain : ∀ c ∈ call, isDivider c = false) (before after : List Char) :
    ∃ piece ∈ allPieces (before ++ (call ++ after)), call <:+: piece := by
  induction before with
  | nil =>
    rw [List.nil_append]
    have front : ∃ first others, allPieces (call ++ after) = (call ++ first) :: others := by
      induction call with
      | nil =>
        cases pieces : allPieces after with
        | nil =>
          cases after with
          | nil => cases pieces
          | cons d after =>
            rw [allPieces_cons] at pieces
            cases divider : isDivider d <;> cases others : allPieces after <;>
              simp [divider, others, extendFirst] at pieces
        | cons first others => exact ⟨first, others, by simpa using pieces⟩
      | cons c call ih =>
        obtain ⟨here, others⟩ := List.forall_mem_cons.mp plain
        obtain ⟨first, more, same⟩ := ih others
        exact ⟨first, more, by simp [allPieces_cons, here, same, extendFirst]⟩
    obtain ⟨first, others, same⟩ := front
    exact ⟨call ++ first, by simp [same], List.infix_append [] call first⟩
  | cons c before ih =>
    obtain ⟨piece, member, within⟩ := ih
    rw [List.cons_append, allPieces_cons]
    cases isDivider c with
    | true => exact ⟨piece, List.mem_cons_of_mem _ member, within⟩
    | false =>
      obtain ⟨extended, found, suffix⟩ := mem_extendFirst member
      exact ⟨extended, found, within.trans suffix.isInfix⟩

end Pieces

section Calls

variable {level : Nat} {call before inside rest : List Char}

theorem Undivided.of_append (undivided : Undivided level (before ++ rest)) : ∃ behind, Undivided behind rest := by
  induction before generalizing level with
  | nil => exact ⟨level, undivided⟩
  | cons c before ih => exact ih undivided.2

/-- What stands inside of well nested parentheses, with so many more around them, has no divider. -/
theorem Undivided.plain_of_nested {own : Nat} (undivided : Undivided (level + 1 + own) (inside ++ rest))
    (nested : WellNested own inside) : ∀ c ∈ inside, isDivider c = false := by
  induction inside generalizing own with
  | nil => exact nofun
  | cons c inside ih =>
    obtain ⟨here, others⟩ := undivided
    obtain ⟨opened, nested⟩ := nested
    have deeper : levelBehind (level + 1 + own) c = level + 1 + levelBehind own c := by
      unfold levelBehind
      split
      · omega
      · split
        · rename_i closes
          have some := opened closes
          omega
        · rfl
    refine List.forall_mem_cons.mpr ⟨here (by omega), ?_⟩
    exact ih (deeper ▸ others) nested

/-- Where no channel ends inside of parentheses, none ends inside of a call. -/
theorem IsCall.plain (isCall : IsCall call) (undivided : Undivided level (before ++ (call ++ rest))) :
    ∀ c ∈ call, isDivider c = false := by
  obtain ⟨name, inside, -, letters, nested, rfl⟩ := isCall
  obtain ⟨_, behind⟩ := undivided.of_append
  rw [List.append_assoc] at behind
  obtain ⟨outer, parentheses⟩ := behind.of_append
  have within : Undivided (outer + 1 + 0) (inside ++ ([')'] ++ rest)) := by
    have step : levelBehind outer '(' = outer + 1 := rfl
    have further := parentheses.2
    rw [step] at further
    simpa using further
  have plain := within.plain_of_nested nested
  intro c member
  simp only [List.mem_append, List.mem_cons, List.not_mem_nil, or_false] at member
  rcases member with named | rfl | contained | rfl
  · exact (letters c named).1
  · decide
  · exact plain c contained
  · decide

theorem IsCall.paren (isCall : IsCall call) : '(' ∈ call := by
  obtain ⟨name, inside, -, -, -, rfl⟩ := isCall
  simp

/-- So a call is inside of one part. -/
theorem IsCall.exists_part {text : String} (isCall : IsCall call) (undivided : Undivided 0 text.toList)
    (within : call <:+: text.toList) : ∃ part ∈ parts text, call <:+: part.toList := by
  obtain ⟨before, after, whole⟩ := within
  rw [List.append_assoc] at whole
  obtain ⟨piece, member, inside⟩ := exists_piece (isCall.plain (whole ▸ undivided)) before after
  rw [whole] at member
  have nonempty : piece ≠ [] := List.ne_nil_of_mem (inside.subset isCall.paren)
  refine ⟨String.ofList piece, ?_, by simpa using inside⟩
  rw [parts_eq]
  exact List.mem_map_of_mem (List.mem_filter.mpr ⟨member, by simpa using nonempty⟩)

end Calls

section Written

variable {name : String} {arguments channels : List String} {text : String}

theorem infix_join (separator : String) (member : text ∈ arguments) :
    text.toList <:+: (Text.join separator arguments).toList := by
  rw [Text.join, String.toList_intercalate]
  induction arguments with
  | nil => cases member
  | cons first others ih =>
    cases others with
    | nil =>
      obtain rfl := List.mem_singleton.mp member
      simp
    | cons next others =>
      rw [List.map_cons, List.map_cons, List.intercalate_cons_cons]
      rcases List.mem_cons.mp member with rfl | member
      · rw [List.append_assoc]
        exact List.infix_append [] _ _
      · exact (ih member).trans (List.suffix_append _ _).isInfix

theorem written_of_other (other : channels.length ∉ [3, 4]) :
    written name arguments channels = callText name arguments := by
  unfold written
  dsimp only
  split
  · simp at other
  · simp at other
  · rfl

/-- Arguments that stay as they are are written whole. -/
theorem infix_callText (member : text ∈ arguments) : text.toList <:+: (callText name arguments).toList := by
  rw [callText, String.toList_append, String.toList_append]
  exact (infix_join ", " member).trans (List.infix_append _ _ _)

/-- Three or four channels are written as they are, with something between them; of an opacity only a number
changes. -/
theorem written_pieces (count : channels.length ∈ [3, 4]) :
    ∃ pieces : List (List Char), (written name arguments channels).toList = pieces.flatten ∧
      ∀ channel ∈ channels, '(' ∈ channel.toList → channel.toList ∈ pieces := by
  have kept {alpha : String} (paren : '(' ∈ alpha.toList) : opacity alpha = alpha := by
    rw [opacity, Decimal.read?_of_paren paren]
  unfold written
  dsimp only
  split
  · rename_i a b c
    split
    · refine ⟨["hsl(".toList, a.toList, [',', ' '], b.toList, [',', ' '], c.toList, [')']], by simp [toString], ?_⟩
      simp
    · refine ⟨[name.toList, ['('], a.toList, [' '], b.toList, [' '], c.toList, [')']], by simp [toString], ?_⟩
      simp
  · rename_i a b c alpha
    split
    · refine ⟨["hsla(".toList, a.toList, [',', ' '], b.toList, [',', ' '], c.toList, [',', ' '],
        (opacity alpha).toList, [')']], by simp [toString], ?_⟩
      simp +contextual [kept]
    · refine ⟨[name.toList, ['('], a.toList, [' '], b.toList, [' '], c.toList, " / ".toList,
        (opacity alpha).toList, [')']], by simp [toString], ?_⟩
      simp +contextual [kept]
  · rename_i other more
    -- The count leaves only the two forms that were split off.
    rcases channels with _ | ⟨a, _ | ⟨b, _ | ⟨c, _ | ⟨alpha, _ | ⟨e, rest⟩⟩⟩⟩⟩
    · simp at count
    · simp at count
    · simp at count
    · exact absurd rfl (other a b c)
    · exact absurd rfl (more a b c alpha)
    · simp at count

/-- A channel with parentheses is written as it is, also as the opacity. -/
theorem infix_written (channel : text ∈ channels) (paren : '(' ∈ text.toList)
    (count : channels.length ∈ [3, 4]) : text.toList <:+: (written name arguments channels).toList := by
  obtain ⟨pieces, same, whole⟩ := written_pieces count
  rw [same]
  exact List.infix_of_mem_flatten (whole text channel paren)

end Written

/-- The browser's colour functions and nested calls, for all names and arguments. Cutting everywhere gives
the same parts as cutting outside of parentheses just for an argument that has no divider inside of
parentheses. If all arguments are like that, the number of channels and the opacity are those of the parts
outside of parentheses, and every call in an argument, nested ones included, is in the result as it
stands. It is in any case if there are not three or four parts, since the arguments then stay as they are. -/
theorem nested_calls_kept (name : String) (args : Slots) :
    ∃ result, colors.run name args = .ok (.plain (.unquoted result)) ∧
      (∀ text ∈ texts args, parts text = outerParts text ↔ Undivided 0 text.toList) ∧
      ((∀ text ∈ texts args, Undivided 0 text.toList) →
        result = written name (texts args) ((texts args).flatMap outerParts)) ∧
      (((texts args).flatMap parts).length ∉ [3, 4] → result = callText name (texts args)) ∧
      ((∀ text ∈ texts args, Undivided 0 text.toList) ∨ ((texts args).flatMap parts).length ∉ [3, 4] →
        ∀ text ∈ texts args, ∀ call, IsCall call → call <:+: text.toList → call <:+: result.toList) := by
  have outer (undivided : ∀ text ∈ texts args, Undivided 0 text.toList) :
      (texts args).flatMap parts = (texts args).flatMap outerParts := by
    apply List.flatMap_congr
    intro text member
    exact (parts_eq_outerParts_iff text).mpr (undivided text member)
  refine ⟨color name args, rfl, fun text _ => parts_eq_outerParts_iff text, ?_, ?_, ?_⟩
  · intro undivided
    rw [color_eq, outer undivided]
  · intro count
    rw [color_eq, written_of_other count]
  · intro whole text member call isCall within
    rw [color_eq]
    by_cases count : ((texts args).flatMap parts).length ∈ [3, 4]
    · obtain ⟨part, among, inside⟩ :=
        isCall.exists_part (whole.resolve_right (not_not_intro count) text member) within
      have channel : part ∈ (texts args).flatMap parts := List.mem_flatMap.mpr ⟨text, member, among⟩
      exact inside.trans (infix_written channel (inside.subset isCall.paren) count)
    · rw [written_of_other count]
      exact within.trans (infix_callText member)

/-- An opacity with a call in a call, behind channels from one argument and from another. -/
theorem nested_calls_kept_opacity :
    let args : Slots := [.unquoted "calc(1em*2) var(--a)", .unquoted "50%", .unquoted "abs(sign(--b))"]
    let call := "abs(sign(--b))".toList
    (∀ text ∈ texts args, Undivided 0 text.toList) ∧ IsCall call ∧ call <:+: (color "lab" args).toList ∧
      color "lab" args = "lab(calc(1em*2) var(--a) 50% / abs(sign(--b)))" := by
  intro args call
  have undivided : ∀ text ∈ texts args, Undivided 0 text.toList := by decide +kernel
  have isCall : IsCall call := ⟨"abs".toList, "sign(--b)".toList, by decide, by simp [isDivider]; decide,
    by decide, by decide⟩
  obtain ⟨result, ran, -, -, -, kept⟩ := nested_calls_kept "lab" args
  have same : result = color "lab" args := by
    have equal : (Except.ok (.plain (.string (color "lab" args) false)) : Except Cause Computed) =
        .ok (.plain (.string result false)) := ran
    injection equal with plain
    injection plain with value
    injection value with text
    exact text.symm
  subst same
  have member : "abs(sign(--b))" ∈ texts args := by decide +kernel
  exact ⟨undivided, isCall, kept (.inl undivided) _ member call isCall List.infix_rfl, by decide +kernel⟩

/-- A call with a fallback is cut at its comma. What follows the comma then counts as a channel of its own,
and the third channel as the opacity. -/
theorem nested_call_cut_apart :
    let args : Slots := [.unquoted "var(--l, 50%) 10 var(--b)"]
    let call := "var(--l, 50%)".toList
    (∀ text ∈ texts args, WellNested 0 text.toList) ∧ IsCall call ∧ (∃ text ∈ texts args, call <+: text.toList) ∧
      ¬ call <:+: (color "lab" args).toList ∧ color "lab" args = "lab(var(--l 50%) 10 / var(--b))" ∧
      written "lab" (texts args) ((texts args).flatMap outerParts) = "lab(var(--l, 50%) 10 var(--b))" := by
  intro args call
  have isCall : IsCall call := ⟨"var".toList, "--l, 50%".toList, by decide, by simp [isDivider]; decide,
    by decide, by decide⟩
  exact ⟨by decide +kernel, isCall, by decide +kernel, by decide +kernel, by decide +kernel, by decide +kernel⟩

end Builtin.Native

end Scss
