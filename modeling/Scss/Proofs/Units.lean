import Mathlib.Tactic.SplitIfs
import Scss.Number

/-! Units in arithmetic. Two units go together if they are the same up to case or measure one dimension;
a unit that stands alone goes along with anything. An operation fails only on units that do not go
together, and says which. -/
namespace Scss

def Dimension.units : Dimension → List String
  | length => ["px", "in", "cm", "mm", "pt", "pc"]
  | angle => ["deg", "rad", "grad", "turn"]
  | time => ["s", "ms"]

namespace Unit

/-- The same unit in other letters, or another unit of the same dimension. -/
inductive Convertible (own other : String) : Prop where
  | same (letters : Text.lower own = Text.lower other)
  | measured (dimension : Dimension) (first : Text.lower own ∈ dimension.units)
      (second : Text.lower other ∈ dimension.units)

theorem exists_factor_iff {unit : String} {dimension : Dimension} :
    (∃ factor, factor? unit = some (dimension, factor)) ↔ Text.lower unit ∈ dimension.units := by
  unfold factor?
  cases dimension <;> split <;> simp_all [Dimension.units]

theorem compatible_iff {own other : String} : compatible own other = true ↔ Convertible own other := by
  unfold compatible
  constructor
  · intro fits
    rcases Bool.or_eq_true_iff.mp fits with letters | grouped
    · exact .same (by simpa [Text.same] using letters)
    · split at grouped
      · rename_i a _ b _ first second
        obtain rfl : a = b := of_decide_eq_true grouped
        exact .measured a (exists_factor_iff.mp ⟨_, first⟩) (exists_factor_iff.mp ⟨_, second⟩)
      · cases grouped
  · rintro (letters | ⟨dimension, first, second⟩)
    · simp [Text.same, letters]
    · obtain ⟨_, first⟩ := exists_factor_iff.mpr first
      obtain ⟨_, second⟩ := exists_factor_iff.mpr second
      simp [first, second]

end Unit

namespace Number

/-- Both numbers have a unit, and the two units do not go together. -/
structure Clash (a b : Number) (left right : String) : Prop where
  left_eq : a.unit = some left
  right_eq : b.unit = some right
  apart : ¬ Unit.Convertible left right

/-- What an operation on two numbers gives: the fault that names their units if these clash, and else a
result as it is said. -/
def Regular {α : Type} (a b : Number) (said : α → Prop) : Except Cause α → Prop
  | .ok result => (∀ left right, ¬ Clash a b left right) ∧ said result
  | .error cause => ∃ left right, Clash a b left right ∧ cause = .incompatibleUnits left right

/-- The same for an operation that has no result for a second number of zero, with or without units. -/
def RegularOffZero (a b : Number) (said : Number → Prop) (outcome : Except Cause Number) : Prop :=
  if b.value == 0.0 then outcome = .error .divisionByZero else Regular a b said outcome

section Operands

variable {a b : Number} {left right : String}

theorem compatible_eq_false_iff : a.compatible b = false ↔ ∃ left right, Clash a b left right := by
  unfold compatible
  constructor
  · intro apart
    split at apart
    · rename_i left right first second
      exact ⟨left, right, first, second, fun fits => by simp [Unit.compatible_iff.mpr fits] at apart⟩
    · cases apart
  · rintro ⟨left, right, first, second, apart⟩
    simpa [first, second, ← Unit.compatible_iff] using apart

theorem compatible_eq_true_iff : a.compatible b = true ↔ ∀ left right, ¬ Clash a b left right := by
  rw [← Bool.not_eq_false, compatible_eq_false_iff, not_exists]
  exact forall_congr' fun _ => not_exists

/-- A number converts just into the units that its own goes together with. -/
theorem convert_isOk_iff (own : a.unit = some left) (unit : String) :
    (∃ c, a.convert unit = .ok c) ↔ Unit.Convertible left unit := by
  rw [← Unit.compatible_iff, Unit.compatible, convert, own]
  dsimp only
  by_cases same : Text.same left unit = true
  · simp [same]
  · cases Unit.factor? left <;> cases Unit.factor? unit <;> simp [same]
    split <;> simp [*]

/-- The unit of the second number goes together with that of the first just if the first one's does with
it, so its conversion does not fail. -/
theorem exists_convert (fits : a.compatible b = true) (first : a.unit = some left)
    (second : b.unit = some right) : ∃ c, b.convert left = .ok c := by
  rw [convert_isOk_iff second, ← Unit.compatible_iff, Unit.compatible_comm]
  simpa [compatible, first, second] using fits

theorem exists_operand (fits : a.compatible b = true) : ∃ value, a.operand b = .ok value := by
  unfold operand
  rw [if_pos fits]
  split
  · rename_i left right first second
    obtain ⟨c, converted⟩ := exists_convert fits first second
    exact ⟨c.value, by rw [converted]; rfl⟩
  · exact ⟨b.value, rfl⟩

theorem operand_of_clash (clash : Clash a b left right) :
    a.operand b = .error (.incompatibleUnits left right) := by
  have apart : a.compatible b = false := compatible_eq_false_iff.mpr ⟨left, right, clash⟩
  simp [operand, apart, incompatible, unitText, clash.left_eq, clash.right_eq]

end Operands

section Operations

variable {α : Type} {a b : Number}

/-- What is computed from the second operand fails just if the operand does. -/
theorem regular_operand {said : α → Prop} {compute : Float → Except Cause α}
    (computes : ∀ value, ∃ result, compute value = .ok result ∧ said result) :
    Regular a b said (a.operand b >>= compute) := by
  by_cases fits : a.compatible b = true
  · obtain ⟨value, converted⟩ := exists_operand fits
    obtain ⟨result, computed, holds⟩ := computes value
    have finished : (a.operand b >>= compute) = .ok result := by rw [converted]; exact computed
    rw [finished]
    exact ⟨compatible_eq_true_iff.mp fits, holds⟩
  · obtain ⟨left, right, clash⟩ := compatible_eq_false_iff.mp (Bool.eq_false_iff.mpr fits)
    have failed : (a.operand b >>= compute) = .error (.incompatibleUnits left right) := by
      rw [operand_of_clash clash]
      rfl
    rw [failed]
    exact ⟨left, right, clash, rfl⟩

theorem regular_compare (a b : Number) : Regular a b (fun _ => True) (a.compare b) := by
  refine regular_operand fun value => ?_
  split_ifs <;> exact ⟨_, rfl, trivial⟩

/-- Units cancel where there are two; a unit of the divisor alone is dropped. -/
theorem regular_div (a b : Number) :
    RegularOffZero a b (fun c => c.unit = if b.unit.isNone then a.unit else none) (a.div b) := by
  unfold RegularOffZero div
  by_cases zero : (b.value == 0.0) = true
  · rw [if_pos zero, if_pos zero]
  · rw [if_neg zero, if_neg zero]
    cases second : b.unit with
    | none => exact ⟨fun left right clash => (by cases clash.right_eq.symm.trans second), rfl⟩
    | some right =>
      cases first : a.unit with
      | none => exact ⟨fun left right clash => (by cases clash.left_eq.symm.trans first), rfl⟩
      | some left => exact regular_operand fun value => ⟨_, rfl, rfl⟩

theorem regular_mod (a b : Number) :
    RegularOffZero a b (fun c => c.unit = a.unit.or b.unit) (a.mod b) := by
  unfold RegularOffZero mod
  by_cases zero : (b.value == 0.0) = true
  · rw [if_pos zero, if_pos zero]
  · rw [if_neg zero, if_neg zero]
    exact regular_operand fun value => ⟨_, rfl, rfl⟩

end Operations

/-- Which operations fail on which units, and the unit of what they give. -/
theorem units_govern_arithmetic (a b : Number) :
    (a.compatible a = true ∧ a.compatible b = b.compatible a ∧
      (a.compatible b = true ↔ ∀ left right, ¬ Clash a b left right)) ∧
    (Regular a b (fun c => c.unit = a.unit.or b.unit) (a.add b) ∧
      Regular a b (fun c => c.unit = a.unit.or b.unit) (a.sub b) ∧
      Regular a b (fun _ => True) (a.compare b)) ∧
    (RegularOffZero a b (fun c => c.unit = if b.unit.isNone then a.unit else none) (a.div b) ∧
      RegularOffZero a b (fun c => c.unit = a.unit.or b.unit) (a.mod b)) ∧
    (a.mul b).unit = a.unit.or b.unit ∧
    (∀ own unit, a.unit = some own →
      ((∃ c, a.convert unit = .ok c) ↔ Unit.Convertible own unit)) ∧
    ∀ left right, a.unit = some left → b.unit = some right → a.compatible b = true →
      ∃ c, b.convert left = .ok c := by
  refine ⟨⟨compatible_refl a, compatible_comm a b, compatible_eq_true_iff⟩,
    ⟨?_, ?_, regular_compare a b⟩, ⟨regular_div a b, regular_mod a b⟩, rfl,
    fun own unit has => convert_isOk_iff has unit,
    fun left right first second fits => exists_convert fits first second⟩
  · exact regular_operand fun value => ⟨_, rfl, rfl⟩
  · exact regular_operand fun value => ⟨_, rfl, rfl⟩

/-- Inches and centimetres go together; a quotient of lengths has no unit. -/
theorem units_govern_arithmetic_lengths :
    ((⟨1.0, some "IN"⟩ : Number).unit = some "IN" ∧ (⟨2.0, some "cm"⟩ : Number).unit = some "cm" ∧
      (⟨1.0, some "IN"⟩ : Number).compatible ⟨2.0, some "cm"⟩ = true) ∧
    (∃ c, (⟨2.0, some "cm"⟩ : Number).convert "IN" = .ok c) ∧
    Unit.Convertible "IN" "cm" := by
  have fits : (⟨1.0, some "IN"⟩ : Number).compatible ⟨2.0, some "cm"⟩ = true := by decide +kernel
  obtain ⟨-, -, -, -, conversion, converts⟩ :=
    units_govern_arithmetic ⟨1.0, some "IN"⟩ ⟨2.0, some "cm"⟩
  refine ⟨⟨rfl, rfl, fits⟩, converts "IN" "cm" rfl rfl fits, (conversion "IN" "cm" rfl).mp ?_⟩
  exact ⟨_, rfl⟩

end Number

end Scss
