import Scss.Builtin.Math
import Scss.Proofs.Units

/-! Calls on numbers that are left to the browser. The guard in front of a function compares any two of its
arguments, and the function only converts between arguments of its own. So what passes the guard never fails
for its units, though compatibility is not transitive. -/
namespace Scss

namespace Number

variable {a b : Number}

/-- Operands that go together have a result. -/
theorem Regular.exists_ok {α : Type} {said : α → Prop} {outcome : Except Cause α}
    (regular : Regular a b said outcome) (fits : a.compatible b = true) : ∃ result, outcome = .ok result := by
  cases outcome with
  | ok result => exact ⟨result, rfl⟩
  | error cause =>
    obtain ⟨left, right, clash, -⟩ := regular
    exact absurd clash (compatible_eq_true_iff.mp fits left right)

/-- Division fails for a divisor of zero only. -/
theorem div_cases (fits : a.compatible b = true) :
    (∃ c, a.div b = .ok c) ∨ (b.value == 0.0) = true ∧ a.div b = .error .divisionByZero := by
  have regular := regular_div a b
  unfold RegularOffZero at regular
  split at regular
  · rename_i zero
    exact .inr ⟨zero, regular⟩
  · exact .inl (regular.exists_ok fits)

end Number

namespace Builtin.Math

variable {name : String} {args : Slots}

/-- Arguments that pass the guard: numbers or `null`, and any two of the numbers are compatible. -/
structure Fits (args : Slots) : Prop where
  only : ∀ value ∈ args, value = .null ∨ ∃ n, value = .number n
  pairs : ∀ a b, Value.number a ∈ args → Value.number b ∈ args → a.compatible b = true

theorem fits_of_combine (passed : combine args = true) : Fits args := by
  simp only [combine, Bool.and_eq_true, decide_eq_true_eq, List.filterMap_length_eq_length, List.all_eq_true,
    List.mem_filterMap, List.mem_filter, Bool.not_eq_true'] at passed
  obtain ⟨only, pairs⟩ := passed
  refine ⟨fun value member => ?_, fun a b first second => ?_⟩
  · have number := only value
    cases value with
    | null => exact .inl rfl
    | number n => exact .inr ⟨n, rfl⟩
    | _ => cases number ⟨member, rfl⟩
  · exact pairs a ⟨_, ⟨first, rfl⟩, rfl⟩ b ⟨_, ⟨second, rfl⟩, rfl⟩

/-- What a computation comes to: a number, or a fault that does not come from units. -/
inductive Comes (name : String) (args : Slots) : Except Cause Value → Prop where
  | number (n : Number) : Comes name args (.ok (.number n))
  | missing {index : Nat} (gone : args.get? index = none) (param : String) :
      Comes name args (.error (.invalidArgument s!"Missing argument ${param}"))
  | null (present : Value.null ∈ args) :
      Comes name args (.error (Slots.typeFault "numbers" "number" .null))
  | zero {n : Number} (division : name = "div") (divisor : args.get? 1 = some (.number n))
      (zero : (n.value == 0.0) = true) : Comes name args (.error .divisionByZero)

theorem mem_of_get? {index : Nat} {value : Value} (found : args.get? index = some value) :
    value ∈ args ∧ value ≠ .null := by
  unfold Slots.get? at found
  split at found
  · cases found
  · rename_i other
    exact ⟨List.mem_of_getElem? found, fun null => other (null ▸ found)⟩

/-- A number is taken from its place. -/
theorem Fits.number (fits : Fits args) (index : Nat) (param : String) {next : Number → Except Cause Value}
    (goes : ∀ n, args.get? index = some (.number n) → Comes name args (next n)) :
    Comes name args (args.number index param >>= next) := by
  unfold Slots.number Slots.required
  cases found : args.get? index with
  | none => exact .missing found param
  | some value =>
    obtain ⟨member, some⟩ := mem_of_get? found
    obtain ⟨n, rfl⟩ := (fits.only value member).resolve_left some
    exact goes n found

section Computations

variable (fits : Fits args)

include fits

/-- The best number so far is one of the arguments, like all that it is compared with. -/
theorem comes_best {wanted : Ordering} {current : Number} {rest : Slots} (among : Value.number current ∈ args)
    (more : ∀ value ∈ rest, value ∈ args) : Comes name args (best wanted (some current) rest) := by
  induction rest generalizing current with
  | nil => exact .number current
  | cons value rest ih =>
    obtain ⟨here, behind⟩ := List.forall_mem_cons.mp more
    rcases fits.only value here with rfl | ⟨n, rfl⟩
    · exact .null here
    · obtain ⟨order, compared⟩ := (Number.regular_compare n current).exists_ok (fits.pairs n current here among)
      rw [best, compared]
      refine ih ?_ behind
      split
      · exact here
      · exact among

theorem comes_extremum (wanted : Ordering) : Comes name args (extremum wanted args) := by
  unfold extremum Slots.required
  cases found : args.get? 0 with
  | none => exact .missing found "numbers"
  | some first =>
    obtain ⟨member, some⟩ := mem_of_get? found
    obtain ⟨n, rfl⟩ := (fits.only first member).resolve_left some
    cases args with
    | nil => cases member
    | cons value rest =>
      have start : value = .number n := by
        unfold Slots.get? at found
        split at found
        · cases found
        · exact Option.some.inj found
      subst start
      exact comes_best fits member fun value => List.mem_cons_of_mem _

theorem comes_clamp : Comes name args (clamp args) := by
  refine fits.number 0 "min" fun low first => fits.number 1 "number" fun n second =>
    fits.number 2 "max" fun high third => ?_
  have among {index : Nat} {n : Number} (found : args.get? index = some (.number n)) : Value.number n ∈ args :=
    (mem_of_get? found).1
  obtain ⟨below, compared⟩ :=
    (Number.regular_compare n low).exists_ok (fits.pairs n low (among second) (among first))
  obtain ⟨above, also⟩ :=
    (Number.regular_compare n high).exists_ok (fits.pairs n high (among second) (among third))
  rw [compared, also]
  change Comes name args (if below = .lt then .ok (.number low) else if above = .gt then .ok (.number high)
    else .ok (.number n))
  split_ifs <;> exact .number _

theorem exists_inUnitOf {base n : Number} (first : Value.number base ∈ args) (second : Value.number n ∈ args) :
    ∃ value, inUnitOf base n = .ok value := by
  unfold inUnitOf
  split
  · rename_i unit other own given
    obtain ⟨c, converted⟩ := Number.exists_convert (fits.pairs base n first second) own given
    rw [converted]
    exact ⟨_, rfl⟩
  · exact ⟨_, rfl⟩

/-- The sum is taken over the arguments themselves. -/
theorem squares_cases {first : Number} {rest : Slots} (among : Value.number first ∈ args)
    (more : ∀ value ∈ rest, value ∈ args) (sum : Float) :
    (∃ total, squares first sum rest = .ok total) ∨
      Value.null ∈ args ∧ squares first sum rest = .error (Slots.typeFault "numbers" "number" .null) := by
  induction rest generalizing sum with
  | nil => exact .inl ⟨sum, rfl⟩
  | cons value rest ih =>
    obtain ⟨here, behind⟩ := List.forall_mem_cons.mp more
    rcases fits.only value here with rfl | ⟨n, rfl⟩
    · exact .inr ⟨here, rfl⟩
    · obtain ⟨v, converted⟩ := exists_inUnitOf fits among here
      rw [squares, converted]
      exact ih behind (sum + v * v)

theorem comes_hypot : Comes name args (hypot args) := by
  refine fits.number 0 "numbers" fun first found => ?_
  rcases squares_cases fits (mem_of_get? found).1 (fun _ => id) 0.0 with ⟨total, summed⟩ | ⟨present, failed⟩
  · rw [summed]
    exact .number _
  · rw [failed]
    exact .null present

theorem comes_quotient : Comes "div" args (compute "div" args) := by
  refine fits.number 0 "number1" fun left first => fits.number 1 "number2" fun right second => ?_
  have pair := fits.pairs left right (mem_of_get? first).1 (mem_of_get? second).1
  rcases Number.div_cases pair with ⟨quotient, divided⟩ | ⟨zero, failed⟩
  · rw [divided]
    exact .number quotient
  · rw [failed]
    exact .zero rfl second zero

theorem comes_angle : Comes name args (compute "atan2" args) := by
  refine fits.number 0 "y" fun y first => fits.number 1 "x" fun x second => ?_
  obtain ⟨value, converted⟩ := exists_inUnitOf fits (mem_of_get? first).1 (mem_of_get? second).1
  rw [converted]
  exact .number _

end Computations

/-- A call that passes the guard comes to a number, or to a fault for an argument that is missing or `null` or
for a divisor of zero; any other call is left to the browser. None fails for its units. -/
theorem guard_complete (guarded : name ∈ ["max", "min", "clamp", "hypot", "atan2", "div"]) (args : Slots) :
    (if combine args then ∃ result, Comes name args result ∧ run name args = result.map Computed.plain
      else run name args =
        .ok (.value (.unquoted (callText name args))
          (some s!"deferring {name} to the browser: {callText name args}"))) ∧
      ∀ left right, run name args ≠ .error (.incompatibleUnits left right) := by
  have guard : alwaysComputed.contains name = false := by
    revert name
    decide
  have undrawn : name ≠ "random" := by
    rintro rfl
    exact absurd guarded (by decide)
  by_cases passed : combine args = true
  · have fits := fits_of_combine passed
    have comes : Comes name args (compute name args) := by
      simp only [List.mem_cons, List.not_mem_nil, or_false] at guarded
      rcases guarded with rfl | rfl | rfl | rfl | rfl | rfl
      · exact comes_extremum fits .gt
      · exact comes_extremum fits .lt
      · exact comes_clamp fits
      · exact comes_hypot fits
      · exact comes_angle fits
      · exact comes_quotient fits
    have ran : run name args = (compute name args).map Computed.plain := by
      rw [run, passed, Bool.or_true, if_pos rfl, if_neg undrawn]
      cases compute name args <;> rfl
    rw [if_pos passed]
    refine ⟨⟨_, comes, ran⟩, fun left right failed => ?_⟩
    rw [ran] at failed
    generalize compute name args = result at comes failed
    cases comes <;> cases failed
  · rw [if_neg passed]
    have ran : run name args =
        .ok (.value (.unquoted (callText name args))
          (some s!"deferring {name} to the browser: {callText name args}")) := by
      rw [run, guard, Bool.false_or, if_neg passed]
      rfl
    refine ⟨ran, fun left right failed => ?_⟩
    rw [ran] at failed
    cases failed

/-- A number without a unit goes along with both of its neighbours, which do not go along with each other. -/
theorem guard_complete_mixed :
    "max" ∈ ["max", "min", "clamp", "hypot", "atan2", "div"] ∧
      (Number.compatible ⟨1.0, some "px"⟩ ⟨2.0, none⟩ = true ∧ Number.compatible ⟨2.0, none⟩ ⟨3.0, some "em"⟩ = true) ∧
      combine [.number ⟨1.0, some "px"⟩, .number ⟨2.0, none⟩, .number ⟨3.0, some "em"⟩] = false ∧
      ∀ left right, run "max" [.number ⟨1.0, some "px"⟩, .number ⟨2.0, none⟩, .number ⟨3.0, some "em"⟩] ≠
        .error (.incompatibleUnits left right) :=
  ⟨by decide, ⟨rfl, rfl⟩, by decide +kernel, (guard_complete (by decide) _).2⟩

end Builtin.Math

end Scss
