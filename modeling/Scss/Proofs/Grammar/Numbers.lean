import Mathlib.Data.List.TakeWhile
import Scss.Proofs.Grammar.Reading
import Scss.Proofs.Tiling

/-! Numbers are cut into a decimal and a unit twice: the lexer looks ahead in the text, the grammar goes
over what the lexer has kept. Both cut at the same place, because no unit goes on like a decimal. -/
namespace Scss

namespace Decimal

structure Digits (text : List Char) : Prop where
  nonempty : text ≠ []
  all : ∀ c ∈ text, c.isDigit = true

inductive Fraction : List Char → Prop where
  | none : Fraction []
  | point {digits : List Char} (shown : Digits digits) : Fraction ('.' :: digits)

inductive Exponent : List Char → Prop where
  | none : Exponent []
  | power {e : Char} {sign digits : List Char} (letter : e = 'e' ∨ e = 'E')
      (mark : sign = [] ∨ sign = ['+'] ∨ sign = ['-']) (shown : Digits digits) :
      Exponent (e :: (sign ++ digits))

/-- A decimal as it is written: digits with a fraction or without, or a fraction alone, and an exponent
or none. -/
inductive Numeral : List Char → Prop where
  | parts {whole fraction exponent : List Char} (digits : ∀ c ∈ whole, c.isDigit = true)
      (places : Fraction fraction) (scale : Exponent exponent) (some : whole ++ fraction ≠ []) :
      Numeral (whole ++ fraction ++ exponent)

/-- A unit as it is written, or none: a percent sign or letters. -/
inductive Suffix : List Char → Prop where
  | none : Suffix []
  | percent : Suffix ['%']
  | letters {name : List Char} (nonempty : name ≠ []) (all : ∀ c ∈ name, c.isAlpha = true) : Suffix name

end Decimal

namespace Lexer

section Runs

variable {p : Char → Bool} {body rest : List Char}

theorem takeWhile_behind (inside : ∀ c ∈ body, p c = true) (stops : headIs p rest = false) :
    (body ++ rest).takeWhile p = body := by
  rw [List.takeWhile_append_of_pos inside]
  cases rest with
  | nil => exact List.append_nil body
  | cons c more => rw [List.takeWhile_cons_of_neg (by simpa [headIs] using stops), List.append_nil]

theorem run_behind (inside : ∀ c ∈ body, p c = true) (stops : headIs p rest = false) :
    run p (body ++ rest) = body.length := by
  rw [run, takeWhile_behind inside stops]

end Runs

section Parts

open Decimal (Digits Fraction Exponent Numeral Suffix)

variable {text : List Char} {length : Nat}

theorem begins_nothing {shape : List Char → Prop} (none : shape []) : Begins shape text 0 :=
  ⟨[], text, rfl, rfl, none⟩

theorem begins_run (p : Char → Bool) (text : List Char) :
    Begins (fun part => ∀ c ∈ part, p c = true) text (run p text) :=
  ⟨_, _, List.takeWhile_append_dropWhile.symm, rfl, fun _ => List.mem_takeWhile_imp⟩

theorem run_pos {p : Char → Bool} (starts : headIs p text = true) : 0 < run p text := by
  cases text with
  | nil => cases starts
  | cons c more =>
    rw [run, List.takeWhile_cons_of_pos (p := p) starts]
    exact Nat.succ_pos _

theorem begins_digits (starts : headIs Char.isDigit text = true) :
    Begins Digits text (run Char.isDigit text) := by
  obtain ⟨digits, rest, whole, length, all⟩ := begins_run Char.isDigit text
  exact ⟨digits, rest, whole, length, List.ne_nil_of_length_pos (length ▸ run_pos starts), all⟩

theorem begins_fraction (text : List Char) : Begins Fraction text (fractionLength text) := by
  unfold fractionLength
  split
  · split
    · rename_i starts
      obtain ⟨digits, rest, rfl, length, shown⟩ := begins_digits starts
      exact ⟨'.' :: digits, rest, rfl, by rw [List.length_cons, length], .point shown⟩
    · exact begins_nothing .none
  · exact begins_nothing .none

theorem begins_exponent (found : exponentLength text = some length) : Begins Exponent text length := by
  cases text with
  | nil =>
    cases found
    exact begins_nothing .none
  | cons e rest =>
    rw [exponentLength] at found
    split at found
    · rename_i letter
      split at found
      · rename_i signed
        split at found
        · rename_i starts
          cases found
          cases rest with
          | nil => cases signed
          | cons sign more =>
            have mark : [sign] = [] ∨ [sign] = ['+'] ∨ [sign] = ['-'] := by
              simpa [headIs] using signed
            rw [List.tail_cons] at starts ⊢
            obtain ⟨digits, rest, rfl, length, shown⟩ := begins_digits starts
            exact ⟨e :: ([sign] ++ digits), rest, rfl, by simp [← length], .power letter mark shown⟩
        · cases found
      · split at found
        · rename_i starts
          cases found
          obtain ⟨digits, rest, rfl, length, shown⟩ := begins_digits starts
          exact ⟨e :: ([] ++ digits), rest, rfl, by simp [← length], .power letter (.inl rfl) shown⟩
        · cases found
          exact begins_nothing .none
    · cases found
      exact begins_nothing .none

theorem begins_suffix (text : List Char) : Begins Suffix text (unitLength text) := by
  unfold unitLength
  split
  · rename_i rest
    exact ⟨['%'], rest, rfl, rfl, .percent⟩
  · obtain ⟨name, rest, whole, length, all⟩ := begins_run Char.isAlpha text
    refine ⟨name, rest, whole, length, ?_⟩
    by_cases none : name = []
    · exact none ▸ .none
    · exact .letters none all

/-- What the lexer takes for a number without its unit is a decimal. -/
theorem begins_numeral (found : numericLength text = .ok length)
    (starts : headIs Char.isDigit text = true ∨
      ∃ rest, text = '.' :: rest ∧ headIs Char.isDigit rest = true) :
    Begins Numeral text length := by
  have some : 0 < run Char.isDigit text + fractionLength (text.drop (run Char.isDigit text)) := by
    obtain digit | ⟨rest, rfl, digit⟩ := starts
    · exact Nat.add_pos_left (run_pos digit) _
    · refine Nat.add_pos_right _ ?_
      change 0 < fractionLength ('.' :: rest)
      rw [fractionLength, if_pos digit]
      exact Nat.succ_pos _
  unfold numericLength at found
  dsimp only at found
  split at found
  · cases found
  split at found
  · cases found
  rename_i scale scaled
  split at found
  · cases found
    obtain ⟨whole, afterWhole, rfl, wholeLength, digits⟩ := begins_run Char.isDigit text
    rw [← wholeLength, List.drop_left] at some scaled ⊢
    obtain ⟨fraction, afterFraction, rfl, fractionLength, places⟩ := begins_fraction afterWhole
    rw [← fractionLength, ← List.length_append] at some scaled ⊢
    rw [← List.append_assoc, List.drop_left] at scaled
    obtain ⟨exponent, rest, rfl, exponentLength, scale⟩ := begins_exponent scaled
    refine ⟨whole ++ fraction ++ exponent, rest, by simp, by simp [← exponentLength]; omega, ?_⟩
    exact .parts digits places scale (List.ne_nil_of_length_pos some)
  · cases found

end Parts

end Lexer

namespace Decimal

open Lexer (headIs run)

variable {fraction exponent suffix text : List Char}

theorem le_nine_of_isDigit {c : Char} (digit : c.isDigit = true) : c.val.toNat ≤ 57 :=
  UInt32.le_iff_toNat_le.mp (of_decide_eq_true (Bool.and_eq_true_iff.mp digit).2)

theorem not_isDigit_of_isAlpha {c : Char} (letter : c.isAlpha = true) : c.isDigit = false := by
  have capital : 'A'.val.toNat = 65 := rfl
  have small : 'a'.val.toNat = 97 := rfl
  refine Bool.eq_false_iff.mpr fun digit => ?_
  have last := le_nine_of_isDigit digit
  rcases (Bool.or_eq_true ..).mp letter with upper | lower
  · have first := UInt32.le_iff_toNat_le.mp (of_decide_eq_true upper).1
    omega
  · have first := UInt32.le_iff_toNat_le.mp (of_decide_eq_true (Bool.and_eq_true_iff.mp lower).1)
    omega

theorem unsigned_of_isDigit {c : Char} (digit : c.isDigit = true) : c ≠ '+' ∧ c ≠ '-' := by
  constructor <;> (rintro rfl; revert digit; decide)

/-- No unit goes on like the digits of a decimal. -/
theorem Suffix.stops {p : Char → Bool} (suffix : Suffix text) (percent : p '%' = false)
    (letters : ∀ c, c.isAlpha = true → p c = false) : headIs p text = false := by
  cases suffix with
  | none => rfl
  | percent => exact percent
  | letters nonempty all =>
    cases text with
    | nil => rfl
    | cons c more => exact letters c (all c (by simp))

theorem Suffix.not_digit (suffix : Suffix text) : headIs Char.isDigit text = false :=
  suffix.stops rfl fun _ => not_isDigit_of_isAlpha

/-- No unit goes on like an exponent, though its first letter may be an e. -/
theorem Suffix.exponentLength (suffix : Suffix text) : Lexer.exponentLength text = some 0 := by
  cases suffix with
  | none => rfl
  | percent => rfl
  | letters nonempty all =>
    cases text with
    | nil => rfl
    | cons c more =>
      have unsigned : headIs (fun d => d = '+' || d = '-') more = false := by
        cases more with
        | nil => rfl
        | cons d others =>
          have letter : d.isAlpha = true := all d (by simp)
          have plus : d ≠ '+' := by rintro rfl; revert letter; decide
          have minus : d ≠ '-' := by rintro rfl; revert letter; decide
          simp [headIs, plus, minus]
      have digitless : headIs Char.isDigit more = false := by
        cases more with
        | nil => rfl
        | cons d others => exact not_isDigit_of_isAlpha (all d (by simp))
      rw [Lexer.exponentLength, unsigned, digitless]
      simp

theorem Exponent.length_behind (scale : Exponent exponent) (unit : Suffix suffix) :
    Lexer.exponentLength (exponent ++ suffix) = some exponent.length := by
  cases scale with
  | none => exact unit.exponentLength
  | @power e sign digits letter mark shown =>
    have counted : run Char.isDigit (digits ++ suffix) = digits.length :=
      Lexer.run_behind shown.all unit.not_digit
    obtain ⟨d, more, rfl⟩ := List.exists_cons_of_ne_nil shown.nonempty
    have starts : headIs Char.isDigit (d :: more ++ suffix) = true := shown.all d (by simp)
    have signed (mark : Char) (is_mark : (mark = '+' || mark = '-') = true) :
        Lexer.exponentLength (e :: mark :: (d :: more ++ suffix)) = some ((d :: more).length + 2) := by
      rw [Lexer.exponentLength, if_pos letter, headIs, if_pos is_mark, List.tail_cons, if_pos starts,
        counted]
    rw [List.cons_append, List.append_assoc]
    rcases mark with rfl | rfl | rfl
    · obtain ⟨plus, minus⟩ := unsigned_of_isDigit (shown.all d (by simp))
      rw [List.nil_append, Lexer.exponentLength, if_pos letter, if_neg (by simp [headIs, plus, minus]),
        if_pos starts, counted]
      rfl
    · exact signed '+' rfl
    · exact signed '-' rfl

theorem Fraction.digits_or_points (places : Fraction fraction) :
    ∀ c ∈ fraction, (c.isDigit || c = '.') = true := by
  cases places with
  | none => nofun
  | point shown =>
    intro c member
    rcases List.mem_cons.mp member with rfl | member
    · rfl
    · rw [shown.all c member, Bool.true_or]

theorem Exponent.stops {p : Char → Bool} (scale : Exponent exponent) (small : p 'e' = false)
    (capital : p 'E' = false) (suffix_stops : headIs p suffix = false) :
    headIs p (exponent ++ suffix) = false := by
  cases scale with
  | none => exact suffix_stops
  | power letter mark shown =>
    rcases letter with rfl | rfl
    · exact small
    · exact capital

/-- Digits and points end where the exponent or the unit begins, so the grammar cuts a number where the
lexer does. -/
theorem Numeral.split (numeral : Numeral text) (unit : Suffix suffix) :
    Grammar.numberSplit (text ++ suffix) = (text, suffix) := by
  cases numeral with
  | @parts whole fraction exponent digits places scale some =>
    have inside : ∀ c ∈ whole ++ fraction, (c.isDigit || c = '.') = true := by
      intro c member
      rcases List.mem_append.mp member with member | member
      · rw [digits c member, Bool.true_or]
      · exact places.digits_or_points c member
    have behind : headIs (fun c => c.isDigit || c = '.') (exponent ++ suffix) = false := by
      refine scale.stops rfl rfl (unit.stops rfl fun c letter => ?_)
      have point : c ≠ '.' := by rintro rfl; revert letter; decide
      simp [not_isDigit_of_isAlpha letter, point]
    have length : (whole ++ fraction).length + exponent.length = (whole ++ fraction ++ exponent).length :=
      List.length_append.symm
    rw [Grammar.numberSplit, List.append_assoc _ exponent, Lexer.takeWhile_behind inside behind,
      List.drop_left, scale.length_behind unit, Option.getD_some, length, ← List.append_assoc,
      List.take_left, List.drop_left]

theorem isSome_readExponent (shown : Digits text) {sign : List Char}
    (mark : sign = [] ∨ sign = ['+'] ∨ sign = ['-']) : (readExponent? (sign ++ text)).isSome = true := by
  have proper : (text.isEmpty || !text.all Char.isDigit) = false := by
    rw [List.all_eq_true.mpr shown.all, List.isEmpty_eq_false_iff.mpr shown.nonempty]
    rfl
  rcases mark with rfl | rfl | rfl
  · obtain ⟨d, more, rfl⟩ := List.exists_cons_of_ne_nil shown.nonempty
    obtain ⟨plus, minus⟩ := unsigned_of_isDigit (shown.all d (by simp))
    rw [List.nil_append, readExponent?, if_neg (by rw [proper]; exact Bool.false_ne_true)]
    · rfl
    · exact fun rest same => minus (List.cons.inj same).1
    · exact fun rest same => plus (List.cons.inj same).1
  · rw [List.singleton_append, readExponent?]
    simp only [proper]
    rfl
  · rw [List.singleton_append, readExponent?]
    simp only [proper]
    rfl

theorem Numeral.head (numeral : Numeral text) :
    ∃ c rest, text = c :: rest ∧ (c.isDigit = true ∨ c = '.') := by
  cases numeral with
  | @parts whole fraction exponent digits places scale some =>
    cases whole with
    | cons c more => exact ⟨c, _, rfl, .inl (digits c (by simp))⟩
    | nil =>
      cases places with
      | none => exact absurd rfl some
      | point shown => exact ⟨'.', _, rfl, .inr rfl⟩

theorem toLower_of_isDigit {c : Char} (digit : c.isDigit = true) : c.toLower = c := by
  have capital : 'A'.val.toNat = 65 := rfl
  have last := le_nine_of_isDigit digit
  refine dif_neg fun upper => ?_
  have first := UInt32.le_iff_toNat_le.mp upper.1
  omega

/-- The digits behind a point, if one stands there, and what follows. -/
def cutPlaces : List Char → List Char × List Char
  | '.' :: more => (more.takeWhile Char.isDigit, more.dropWhile Char.isDigit)
  | more => ([], more)

/-- A decimal of so many digits behind its point, by its digits and what follows them. -/
def readScaled (digits places : Nat) : List Char → Option Float
  | [] => some (nearest digits (-(places : Int)))
  | c :: exponent =>
    if c = 'e' ∨ c = 'E' then
      (readExponent? exponent).map fun e => nearest digits (e - places)
    else none

theorem readUnsigned_eq (text : List Char) : readUnsigned? text =
    if (text.takeWhile Char.isDigit).isEmpty &&
        (cutPlaces (text.drop (text.takeWhile Char.isDigit).length)).1.isEmpty then none
    else
      readScaled
        (Chars.decimalValue (text.takeWhile Char.isDigit ++
          (cutPlaces (text.drop (text.takeWhile Char.isDigit).length)).1))
        (cutPlaces (text.drop (text.takeWhile Char.isDigit).length)).1.length
        (cutPlaces (text.drop (text.takeWhile Char.isDigit).length)).2 := rfl

theorem Exponent.not_digit (scale : Exponent exponent) : headIs Char.isDigit exponent = false := by
  rw [← List.append_nil exponent]
  exact scale.stops rfl rfl rfl

theorem cutPlaces_append (places : Fraction fraction) (scale : Exponent exponent) :
    cutPlaces (fraction ++ exponent) = (fraction.tail, exponent) := by
  cases places with
  | none =>
    cases scale with
    | none => rfl
    | power letter mark shown => rcases letter with rfl | rfl <;> rfl
  | @point digits shown =>
    have kept := Lexer.takeWhile_behind shown.all scale.not_digit
    have whole := List.takeWhile_append_dropWhile (p := Char.isDigit) (l := digits ++ exponent)
    rw [kept] at whole
    exact Prod.ext kept (List.append_cancel_left whole)

theorem Exponent.isSome_readScaled (scale : Exponent exponent) (digits places : Nat) :
    (readScaled digits places exponent).isSome = true := by
  cases scale with
  | none => rfl
  | power letter mark shown =>
    rw [readScaled, if_pos letter, Option.isSome_map]
    exact isSome_readExponent shown mark

theorem Numeral.isSome_readUnsigned (numeral : Numeral text) : (readUnsigned? text).isSome = true := by
  cases numeral with
  | @parts whole fraction exponent digits places scale some =>
    have behind : headIs Char.isDigit (fraction ++ exponent) = false := by
      cases places with
      | none => exact scale.not_digit
      | point shown => rfl
    have shown : (whole.isEmpty && fraction.tail.isEmpty) = false := by
      cases places with
      | none => simpa using some
      | point shown => simp [shown.nonempty]
    rw [readUnsigned_eq, List.append_assoc, Lexer.takeWhile_behind digits behind, List.drop_left,
      cutPlaces_append places scale, shown]
    exact scale.isSome_readScaled _ _

/-- Every decimal that is written so can be read. -/
theorem Numeral.isSome_read (numeral : Numeral text) : (read? text).isSome = true := by
  obtain ⟨c, rest, rfl, first⟩ := numeral.head
  have unsigned : c ≠ '+' ∧ c ≠ '-' := by
    rcases first with digit | rfl
    · exact unsigned_of_isDigit digit
    · decide
  have wordless (d : Char) (word : List Char) (letter : d = 'i' ∨ d = 'n') :
      Chars.lower (c :: rest) ≠ d :: word := by
    intro same
    have head : c.toLower = d := (List.cons.inj same).1
    rcases first with digit | rfl
    · rw [toLower_of_isDigit digit] at head
      subst head
      rcases letter with rfl | rfl <;> (revert digit; decide)
    · subst head
      revert letter
      decide
  rw [read?]
  · rw [if_neg, if_neg]
    · rw [Option.isSome_map]
      exact numeral.isSome_readUnsigned
    · exact wordless 'n' _ (.inr rfl)
    · rintro (same | same)
      · exact wordless 'i' _ (.inl rfl) same
      · exact wordless 'i' _ (.inl rfl) same
  · exact fun rest same => unsigned.2 (List.cons.inj same).1
  · exact fun rest same => unsigned.1 (List.cons.inj same).1

end Decimal

namespace Lexer

open Decimal (Numeral Suffix)

theorem numberLength_cuts {position : Position} {text : List Char} {total : Nat}
    (found : numberLength position text = .ok total) :
    ∃ length, numericLength text = .ok length ∧ total = length + unitLength (text.drop length) := by
  unfold numberLength at found
  split at found
  · cases found
  · rename_i length numeric
    cases found
    exact ⟨length, numeric, rfl⟩

/-- A number that is read off a text is a decimal and a unit, cut where the lexer starts to look for the
unit; and the grammar, which sees only the token, cuts it there again. -/
theorem numbers_cut_alike (start : Position) (source : String) {tokens before after : List Token}
    {token : Token} (lexed : tokensAt start source.toList = .ok tokens)
    (cut : tokens = before ++ token :: after) (number : token.kind = .number) :
    ∃ numeral unit rest value,
      source.toList = spelled before ++ (numeral ++ unit ++ rest) ∧
      token.text = String.ofList (numeral ++ unit) ∧
      numericLength (numeral ++ unit ++ rest) = .ok numeral.length ∧
      Numeral numeral ∧ Suffix unit ∧ Decimal.read? numeral = some value ∧
      Grammar.splitNumber? token.text =
        some (value, if unit = [] then none else some (String.ofList unit)) ∧
      ∀ (self : Grammar.Self) (cursor : Cursor), cursor.current = token →
        Grammar.primary self cursor =
          .ok (.number value (if unit = [] then none else some (String.ofList unit)) token.position,
            cursor.advance 1) := by
  have proper : token.kind ≠ .endOfInput := by rw [number]; decide
  obtain ⟨c, behind, count, whole, text, found⟩ := token_found lexed cut proper
  rw [number] at found
  obtain ⟨starts, total, counted, rfl⟩ := found
  obtain ⟨length, numeric, rfl⟩ := numberLength_cuts counted
  have first : headIs Char.isDigit (c :: behind) = true ∨
      ∃ rest, c :: behind = '.' :: rest ∧ headIs Char.isDigit rest = true := by
    rcases starts with digit | ⟨rfl, digit⟩
    · exact .inl digit
    · exact .inr ⟨behind, rfl, digit⟩
  obtain ⟨numeral, afterNumeral, split, rfl, written⟩ := begins_numeral numeric first
  obtain ⟨d, digits, nonempty, -⟩ := written.head
  have positive : 0 < numeral.length + unitLength ((c :: behind).drop numeral.length) := by
    rw [nonempty, List.length_cons]
    omega
  rw [← List.take_cons positive, split, List.drop_left] at text
  obtain ⟨unit, rest, rfl, unitLength, suffix⟩ := begins_suffix afterNumeral
  have kept : token.text.toList = numeral ++ unit := by
    rw [text, ← unitLength, ← List.append_assoc, ← List.length_append, List.take_left]
  obtain ⟨value, read⟩ := Option.isSome_iff_exists.mp written.isSome_read
  have cut_again : Grammar.splitNumber? token.text =
      some (value, if unit = [] then none else some (String.ofList unit)) := by
    rw [Grammar.splitNumber?, kept, written.split suffix]
    simp [read]
  refine ⟨numeral, unit, rest, value, ?_, ?_, ?_, written, suffix, read, cut_again, ?_⟩
  · rw [whole, split, List.append_assoc]
  · rw [← kept, String.ofList_toList]
  · rw [List.append_assoc, ← split]
    exact numeric
  · intro self cursor here
    rw [Grammar.primary, Parser.bind_of_ok Parser.current_apply, here, number]
    dsimp only
    rw [Parser.bind_of_ok (Parser.advance_apply 1), cut_again]
    rfl

/-- Of two numbers behind each other the second has a fraction, an exponent and a percent sign. -/
theorem numbers_cut_alike_percent :
    ∃ value, Grammar.splitNumber? ".5E-2%" = some (value, some "%") ∧
      ∀ self cursor, cursor.current = ⟨.number, ".5E-2%", ⟨1, 4⟩⟩ →
        Grammar.primary self cursor =
          .ok (.number value (some "%") ⟨1, 4⟩, cursor.advance 1) := by
  have lexed : tokensAt ⟨1, 1⟩ "1em.5E-2%".toList =
      .ok ([⟨.number, "1em", ⟨1, 1⟩⟩] ++ ⟨.number, ".5E-2%", ⟨1, 4⟩⟩ :: [⟨.endOfInput, "", ⟨1, 10⟩⟩]) := by
    decide +kernel
  obtain ⟨numeral, unit, rest, value, whole, text, length, -, -, -, split, read⟩ :=
    numbers_cut_alike _ _ lexed rfl rfl
  have joined : numeral ++ unit = ".5E-2".toList ++ "%".toList := by
    rw [← String.toList_ofList (l := numeral ++ unit), ← text]
    rfl
  have behind : numeral ++ unit ++ rest = ".5E-2%".toList := List.append_cancel_left whole.symm
  have five : numericLength ".5E-2%".toList = .ok 5 := by decide +kernel
  rw [behind, five] at length
  obtain ⟨-, rfl⟩ := List.append_inj joined (Except.ok.inj length).symm
  exact ⟨value, split, read⟩

end Lexer

end Scss
