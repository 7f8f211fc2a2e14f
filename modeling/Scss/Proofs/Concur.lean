import Mathlib.Tactic

/-! Two results that concur: both are there and agree, or both are failures. -/
namespace Scss

/-- Results that agree, or failures that do. -/
inductive Concur {ε α : Type} (failures : ε → ε → Prop) (agree : α → α → Prop) :
    Except ε α → Except ε α → Prop where
  | ok {value other : α} (results : agree value other) : Concur failures agree (.ok value) (.ok other)
  | error {failure other : ε} (both : failures failure other) :
      Concur failures agree (.error failure) (.error other)

namespace Concur

variable {ε α β : Type} {failures : ε → ε → Prop} {agree : α → α → Prop} {also : β → β → Prop}
  {result other : Except ε α}

theorem bind {next nextOther : α → Except ε β} (first : Concur failures agree result other)
    (second : ∀ {value twin}, agree value twin → Concur failures also (next value) (nextOther twin)) :
    Concur failures also (result >>= next) (other >>= nextOther) := by
  cases first with
  | ok both => exact second both
  | error both => exact .error both

theorem map {f g : α → β} (first : Concur failures agree result other)
    (step : ∀ {value twin}, agree value twin → f value = g twin) :
    Concur failures Eq (f <$> result) (g <$> other) := by
  cases first with
  | ok both => exact .ok (step both)
  | error both => exact .error both

theorem imp {weaker : ε → ε → Prop} (both : Concur failures agree result other)
    (step : ∀ {failure also}, failures failure also → weaker failure also) :
    Concur weaker agree result other := by
  cases both with
  | ok results => exact .ok results
  | error faults => exact .error (step faults)

theorem isOk (both : Concur failures agree result other) : other.isOk = result.isOk := by
  cases both <;> rfl

/-- Both choices fall the same way. -/
theorem ite {p : Prop} [Decidable p] {no noOther : Except ε α}
    (yes : Concur failures agree result other) (otherwise : Concur failures agree no noOther) :
    Concur failures agree (if p then result else no) (if p then other else noOther) := by
  by_cases holds : p
  · rwa [if_pos holds, if_pos holds]
  · rwa [if_neg holds, if_neg holds]

theorem mapM {γ : Type} {step stepOther : γ → Except ε β} {items : List γ}
    (each : ∀ item ∈ items, Concur failures also (step item) (stepOther item)) :
    Concur failures (List.Forall₂ also) (items.mapM step) (items.mapM stepOther) := by
  induction items with
  | nil => exact .ok .nil
  | cons item rest ih =>
    obtain ⟨first, others⟩ := List.forall_mem_cons.mp each
    rw [List.mapM_cons, List.mapM_cons]
    exact first.bind fun both => (ih others).bind fun more => .ok (.cons both more)

end Concur

end Scss
