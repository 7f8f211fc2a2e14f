import Scss.Text.Ascii

/-!
Units of numbers. Units of one dimension convert into each other by a factor to the dimension's
base unit; any other unit stands for itself. Letters count in any case.
-/
namespace Scss

inductive Dimension where
  | length
  | angle
  | time
deriving DecidableEq

namespace Unit

def degreesPerRadian : Float := 180.0 / 3.141592653589793

/-- The dimension of a unit and its factor to `px`, `deg` or `s`. -/
def factor? (unit : String) : Option (Dimension × Float) :=
  match Text.lower unit with
  | "px" => some (.length, 1.0)
  | "in" => some (.length, 96.0)
  | "cm" => some (.length, 96.0 / 2.54)
  | "mm" => some (.length, 96.0 / 25.4)
  | "pt" => some (.length, 4.0 / 3.0)
  | "pc" => some (.length, 16.0)
  | "deg" => some (.angle, 1.0)
  | "rad" => some (.angle, degreesPerRadian)
  | "grad" => some (.angle, 0.9)
  | "turn" => some (.angle, 360.0)
  | "s" => some (.time, 1.0)
  | "ms" => some (.time, 0.001)
  | _ => none

def compatible (left right : String) : Bool :=
  Text.same left right ||
    match factor? left, factor? right with
    | some (a, _), some (b, _) => a = b
    | _, _ => false

theorem compatible_refl (unit : String) : compatible unit unit = true := by
  simp [compatible, Text.same_refl]

theorem compatible_comm (left right : String) : compatible left right = compatible right left := by
  unfold compatible
  rw [Text.same_symm]
  cases factor? left <;> cases factor? right <;> simp [eq_comm]

end Unit

end Scss
