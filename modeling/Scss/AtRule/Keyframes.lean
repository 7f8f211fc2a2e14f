import Scss.AtRule.Services
import Scss.Text.Cut

/-!
`@keyframes`, with and without a vendor's name before it. Its blocks hold declarations only.
-/
namespace Scss.Keyframes

variable {m : Type → Type} [Monad m] [MonadExceptOf Fault m]

def required : List Capability := [.evaluate, .format, .interpolation]

/-- One line, or none for a declaration without a value or whose value has no text. -/
def declaration (context : Context m) (level : Nat) (d : Declaration Statement) : m String := do
  match d.value with
  | none => return ""
  | some expr =>
    let property ← context.interpolate d.property
    let text ← context.format (← context.evaluate expr)
    if text.isEmpty then return ""
    else
      let important := if d.important then " !important" else ""
      return indent level ++ property ++ ": " ++ text ++ important ++ ";\n"

def keyframe (context : Context m) (level : Nat) (k : KeyframeBlock Statement) : m String := do
  let lines ← k.declarations.mapM (declaration context (level + 1))
  return block (Text.join ", " k.selectors) (String.join lines) level

def compile (context : Context m) (node : Statement) (level : Nat) : m String := do
  match node with
  | .keyframes keyword name blocks _ =>
    let name ← context.interpolate name
    let frames ← blocks.mapM (keyframe context (level + 1))
    return block ("@" ++ keyword ++ " " ++ name) (String.join frames) level
  | _ => return ""

end Scss.Keyframes
