import Scss.Grammar.Statement
import Scss.Proofs.Concur
import Scss.Proofs.Tiling

/-! Expressions apart from the places they stand at. A text is cut into the same tokens wherever it
starts: only their positions, and those in its faults, move along with it. -/
namespace Scss

mutual

/-- The same expression with all that it holds at no place in particular. -/
def Expr.unplaced : Expr → Expr
  | .number value unit _ => .number value unit ⟨0, 0⟩
  | .string value _ => .string (unplacedTemplate value) 0
  | .identifier name _ => .identifier name ⟨0, 0⟩
  | .interpolated value => .interpolated (unplacedTemplate value)
  | .hexColor text _ => .hexColor text ⟨0, 0⟩
  | .namedColor name _ => .namedColor name ⟨0, 0⟩
  | .boolean value _ => .boolean value 0
  | .null _ => .null 0
  | .var name _ => .var name 0
  | .member qualifier name _ => .member qualifier name 0
  | .list items separator bracketed _ => .list (unplacedItems items) separator bracketed 0
  | .map pairs _ => .map (unplacedPairs pairs) 0
  | .binary op left right _ => .binary op left.unplaced right.unplaced 0
  | .unary op operand _ => .unary op operand.unplaced 0
  | .paren inner _ => .paren inner.unplaced 0
  | .call qualifier name args _ => .call qualifier name (unplacedArguments args) 0
  | .url value _ => .url (unplacedTemplate value) 0
  | .parent _ => .parent 0
  | .important _ => .important 0

def unplacedTemplate : Template → Template
  | ⟨parts, _⟩ => ⟨unplacedParts parts, 0⟩

def unplacedParts : List (Fragment Expr) → List (Fragment Expr)
  | [] => []
  | .literal text :: rest => .literal text :: unplacedParts rest
  | .expr value :: rest => .expr value.unplaced :: unplacedParts rest

def unplacedItems : List Expr → List Expr
  | [] => []
  | item :: rest => item.unplaced :: unplacedItems rest

def unplacedPairs : List (Expr × Expr) → List (Expr × Expr)
  | [] => []
  | (key, value) :: rest => (key.unplaced, value.unplaced) :: unplacedPairs rest

def unplacedArguments : List (Argument Expr) → List (Argument Expr)
  | [] => []
  | ⟨name, value, spread⟩ :: rest => ⟨name, value.unplaced, spread⟩ :: unplacedArguments rest

end

/-- What a value is apart from the places in it. -/
class Placed (α : Type) where
  unplaced : α → α

open Placed (unplaced)

namespace Placed

instance : Placed Expr := ⟨Expr.unplaced⟩

instance : Placed Template := ⟨unplacedTemplate⟩

instance : Placed Token := ⟨fun token => { token with position := ⟨0, 0⟩ }⟩

instance : Placed Unit := ⟨id⟩

instance : Placed Bool := ⟨id⟩

instance : Placed BinaryOp := ⟨id⟩

instance {α : Type} [Placed α] : Placed (List α) := ⟨List.map unplaced⟩

instance {α : Type} [Placed α] : Placed (Option α) := ⟨Option.map unplaced⟩

instance {α β : Type} [Placed α] [Placed β] : Placed (α × β) := ⟨Prod.map unplaced unplaced⟩

instance : Placed (Argument Expr) := ⟨fun arg => { arg with value := arg.value.unplaced }⟩

instance : Placed (Fragment Expr) where
  unplaced
    | .literal text => .literal text
    | .expr value => .expr value.unplaced

end Placed

section Values

variable {α β : Type} [Placed α] [Placed β]

@[simp]
theorem unplaced_expr (expr : Expr) : unplaced expr = expr.unplaced := rfl

@[simp]
theorem unplaced_bool (value : Bool) : unplaced value = value := rfl

@[simp]
theorem unplaced_pair (first : α) (second : β) :
    unplaced (first, second) = (unplaced first, unplaced second) := rfl

@[simp]
theorem unplaced_nil : unplaced ([] : List α) = [] := rfl

@[simp]
theorem unplaced_cons (first : α) (rest : List α) :
    unplaced (first :: rest) = unplaced first :: unplaced rest := rfl

@[simp]
theorem unplaced_append (first second : List α) :
    unplaced (first ++ second) = unplaced first ++ unplaced second := List.map_append

theorem isEmpty_unplaced (items : List α) : (unplaced items).isEmpty = items.isEmpty :=
  List.isEmpty_map

@[simp]
theorem unplaced_argument (name : Option String) (value : Expr) (rest : Bool) :
    unplaced (⟨name, value, rest⟩ : Argument Expr) = ⟨name, value.unplaced, rest⟩ := rfl

end Values

@[simp]
theorem unplacedItems_eq (items : List Expr) : unplacedItems items = unplaced items := by
  induction items with
  | nil => rfl
  | cons item rest ih => rw [unplacedItems, ih]; rfl

@[simp]
theorem unplacedPairs_eq (pairs : List (Expr × Expr)) : unplacedPairs pairs = unplaced pairs := by
  induction pairs with
  | nil => rfl
  | cons pair rest ih => rw [unplacedPairs, ih]; rfl

@[simp]
theorem unplacedArguments_eq (args : List (Argument Expr)) :
    unplacedArguments args = unplaced args := by
  induction args with
  | nil => rfl
  | cons arg rest ih => rw [unplacedArguments, ih]; rfl

theorem unplacedParts_eq (parts : List (Fragment Expr)) : unplacedParts parts = unplaced parts := by
  induction parts with
  | nil => rfl
  | cons part rest ih => cases part <;> rw [unplacedParts, ih] <;> rfl

@[simp]
theorem unplacedTemplate_def (template : Template) : unplacedTemplate template = unplaced template := rfl

theorem unplaced_template (parts : List (Fragment Expr)) (line : Nat) :
    unplaced (⟨parts, line⟩ : Template) = ⟨unplaced parts, 0⟩ := by
  change unplacedTemplate _ = _
  rw [unplacedTemplate, unplacedParts_eq]

@[simp]
theorem unplaced_pushLiteral (template : Template) (text : String) :
    unplaced (template.pushLiteral text) = (unplaced template).pushLiteral text := by
  obtain ⟨parts, line⟩ := template
  have last : (unplaced parts).getLast? = parts.getLast?.map unplaced := List.getLast?_map
  simp only [unplaced_template, Interpolation.pushLiteral, last]
  rcases parts.getLast? with _ | ⟨literal | expr⟩
  · exact (unplaced_template _ _).trans (by simp; rfl)
  · exact (unplaced_template _ _).trans (by simp [unplaced, List.map_dropLast])
  · exact (unplaced_template _ _).trans (by simp; rfl)

@[simp]
theorem unplaced_pushExpr (template : Template) (value : Expr) :
    unplaced (template.pushExpr value) = (unplaced template).pushExpr value.unplaced := by
  obtain ⟨parts, line⟩ := template
  simp only [unplaced_template, Interpolation.pushExpr, unplaced_append]
  rfl

theorem parts_isEmpty_unplaced (template : Template) :
    (unplaced template).parts.isEmpty = template.parts.isEmpty := by
  obtain ⟨parts, line⟩ := template
  rw [unplaced_template]
  exact isEmpty_unplaced parts

/-- The same results apart from places, or a fault each. -/
abbrev Coincide {ε α : Type} [Placed α] : Except ε α → Except ε α → Prop :=
  Concur (fun _ _ => True) fun value other => unplaced value = unplaced other

theorem unplaced_of_forall₂ {α : Type} [Placed α] {items others : List α}
    (each : List.Forall₂ (fun item other => unplaced item = unplaced other) items others) :
    unplaced items = unplaced others := by
  induction each with
  | nil => rfl
  | cons first _ ih => exact List.cons_eq_cons.mpr ⟨first, ih⟩

namespace Lexer

def SameRegions : List OpenRegion → List OpenRegion → Prop :=
  List.Forall₂ fun own other => own.region = other.region

theorem SameRegions.enter {opened others : List OpenRegion} (same : SameRegions opened others)
    (region : Region) (here there : Position) :
    SameRegions (⟨region, here⟩ :: opened) (⟨region, there⟩ :: others) :=
  .cons rfl same

/-- How far a quoted string goes does not depend on where it stands. -/
theorem quotedLength_anywhere {opened others : List OpenRegion} (regions : SameRegions opened others)
    (here there : Position) (text : List Char) :
    Concur (fun _ _ => True) Eq (quotedLength opened here text) (quotedLength others there text) := by
  have further {result other : Except LexicalFault Nat} (count : Nat)
      (both : Concur (fun _ _ => True) Eq result other) :
      Concur (fun _ _ => True) Eq (result.map (· + count)) (other.map (· + count)) :=
    both.map fun same => same ▸ rfl
  match regions, text with
  | .nil, text =>
    rw [quotedLength, quotedLength]
    exact .ok rfl
  | .cons _ _, [] => exact .error trivial
  | @List.Forall₂.cons _ _ _ own other outer beyond same rest, c :: text =>
    rw [quotedLength.eq_def (own :: outer), quotedLength.eq_def (other :: beyond)]
    dsimp only
    rw [← same]
    have outside : SameRegions outer beyond := rest
    have stays : SameRegions (own :: outer) (other :: beyond) := .cons same rest
    cases own.region with
    | quoted mark =>
      refine .ite (.error trivial) (.ite ?_ (.ite ?_ ?_))
      · cases text with
        | nil => exact .error trivial
        | cons d more => exact further 2 (quotedLength_anywhere stays _ _ more)
      · exact further 1 (quotedLength_anywhere outside _ _ text)
      · split
        · refine .ite (further 2 ?_) (further 1 ?_)
          · exact quotedLength_anywhere (stays.enter _ _ _) _ _ _
          · exact quotedLength_anywhere stays _ _ _
        · exact further 1 (quotedLength_anywhere stays _ _ text)
    | embedded depth =>
      refine .ite (further 1 ?_) (.ite (further 1 ?_) (.ite (.ite ?_ ?_) ?_))
      · exact quotedLength_anywhere (stays.enter _ _ _) _ _ text
      · exact quotedLength_anywhere (outside.enter _ _ _) _ _ text
      · exact further 1 (quotedLength_anywhere outside _ _ text)
      · exact further 1 (quotedLength_anywhere (outside.enter _ _ _) _ _ text)
      · exact further 1 (quotedLength_anywhere stays _ _ text)
termination_by text.length

theorem measure_anywhere (here there : Position) (c : Char) (rest : List Char) :
    Concur (fun _ _ => True) Eq (measure here c rest) (measure there c rest) := by
  have regions : SameRegions [⟨.quoted c, here⟩] [⟨.quoted c, there⟩] := .cons rfl .nil
  unfold measure
  -- The rules in the order in which they are tried; three of them can fail.
  refine .ite (.ok rfl) (.ite ?_ (.ite (.ok rfl) (.ite ?_ ?_)))
  · split
    · exact .error trivial
    · exact .ok rfl
  · exact (quotedLength_anywhere regions _ _ rest).bind fun same => .ok (same ▸ rfl)
  · refine .ite (.ok rfl) (.ite (.ok rfl) (.ite (.ok rfl) (.ite (.ok rfl) (.ite (.ok rfl)
      (.ite (.ok rfl) (.ite ?_ (.ite (.ok rfl) (.ite (.ok rfl) (.ok rfl)))))))))
    have numbered : Concur (fun _ _ => True) Eq (numberLength here (c :: rest))
        (numberLength there (c :: rest)) := by
      unfold numberLength
      split
      · exact .error trivial
      · exact .ok rfl
    exact numbered.bind fun same => .ok (same ▸ rfl)

/-- A text is cut into the same tokens wherever it stands. -/
theorem tokensAt_anywhere (here there : Position) (text : List Char) :
    Coincide (tokensAt here text) (tokensAt there text) := by
  match text with
  | [] =>
    rw [tokensAt_nil, tokensAt_nil]
    exact .ok rfl
  | c :: rest =>
    rw [tokensAt_cons, tokensAt_cons]
    refine (measure_anywhere here there c rest).bind ?_
    rintro ⟨kind, length⟩ _ rfl
    refine (tokensAt_anywhere _ _ (rest.drop length)).bind fun same => .ok ?_
    exact List.cons_eq_cons.mpr ⟨rfl, same⟩
termination_by text.length
decreasing_by simp only [List.length_drop, List.length_cons]; omega

end Lexer

end Scss
