import Mathlib.Tactic
import Scss.Text.Cut

/-! Two characters in a row: where they stand in a text, and what is left of the text when each such pair is
replaced. Replacing goes part by part unless a pair stands across the border of two parts. -/
namespace Scss.Chars

variable {a b c : Char} {text rest replacement : List Char}

theorem pair_prefix_cons : [a, b] <+: c :: text ↔ c = a ∧ text.head? = some b := by
  cases text with
  | nil => simp
  | cons d text => simp [eq_comm]

theorem pair_infix_cons : [a, b] <:+: c :: text ↔ c = a ∧ text.head? = some b ∨ [a, b] <:+: text := by
  rw [List.infix_cons_iff, pair_prefix_cons]

theorem pair_infix_append : [a, b] <:+: text ++ rest ↔
    [a, b] <:+: text ∨ text.getLast? = some a ∧ rest.head? = some b ∨ [a, b] <:+: rest := by
  induction text with
  | nil => simp
  | cons c text ih =>
    rw [List.cons_append, pair_infix_cons, ih, pair_infix_cons, List.head?_append]
    cases text with
    | nil => simp
    | cons d text => simp [or_assoc]

theorem isPrefixOf_pair : [a, b].isPrefixOf (c :: text) = true ↔ c = a ∧ text.head? = some b := by
  rw [List.isPrefixOf_iff_prefix, pair_prefix_cons]

private theorem replaceFrom_append (skip : Nat) (within : skip ≤ text.length)
    (apart : text.getLast? = some a → rest.head? ≠ some b) :
    replaceFrom [a, b] replacement skip (text ++ rest) =
      replaceFrom [a, b] replacement skip text ++ replaceFrom [a, b] replacement 0 rest := by
  induction text generalizing skip with
  | nil =>
    obtain rfl : skip = 0 := Nat.le_zero.mp within
    rfl
  | cons c text ih =>
    have later : text.getLast? = some a → rest.head? ≠ some b := fun last =>
      apart (by rw [List.getLast?_cons, last]; rfl)
    cases skip with
    | succ skip => exact ih skip (Nat.le_of_succ_le_succ within) later
    | zero =>
      have same : [a, b].isPrefixOf (c :: (text ++ rest)) = [a, b].isPrefixOf (c :: text) := by
        rw [Bool.eq_iff_iff, isPrefixOf_pair, isPrefixOf_pair]
        cases text with
        | nil =>
          simp only [List.nil_append, List.head?_nil, reduceCtorEq, and_false, iff_false, not_and]
          rintro rfl
          exact apart rfl
        | cons d text => simp
      rw [List.cons_append, replaceFrom, replaceFrom, same]
      split
      · rename_i pair
        have more : 1 ≤ text.length := by
          cases text with
          | nil => simp at pair
          | cons d text => simp
        rw [List.append_assoc]
        exact congrArg (replacement ++ ·) (ih 1 more later)
      · exact congrArg (c :: ·) (ih 0 (Nat.zero_le _) later)

theorem replace_append (apart : text.getLast? = some a → rest.head? ≠ some b) :
    replace [a, b] replacement (text ++ rest) =
      replace [a, b] replacement text ++ replace [a, b] replacement rest :=
  replaceFrom_append 0 (Nat.zero_le _) apart

theorem replace_pair (rest : List Char) :
    replace [a, b] replacement (a :: b :: rest) = replacement ++ replace [a, b] replacement rest := by
  rw [replace, replaceFrom, if_pos (isPrefixOf_pair.mpr ⟨rfl, rfl⟩)]
  rfl

/-- A pair that only loses its first character is left out by leaving out that character. -/
theorem replace_pair_first (differ : a ≠ b) (rest : List Char) :
    replace [a, b] [b] (a :: b :: rest) = replace [a, b] [b] (b :: rest) := by
  have other : ¬ [a, b].isPrefixOf (b :: rest) = true := fun found => differ (isPrefixOf_pair.mp found).1.symm
  rw [replace_pair, replace, replace, replaceFrom, if_neg other, List.singleton_append]

theorem replace_of_absent (absent : ¬ [a, b] <:+: text) : replace [a, b] replacement text = text := by
  induction text with
  | nil => rfl
  | cons c text ih =>
    rw [pair_infix_cons, not_or] at absent
    rw [replace, replaceFrom, if_neg (mt isPrefixOf_pair.mp absent.1)]
    exact congrArg (c :: ·) (ih absent.2)

end Scss.Chars
