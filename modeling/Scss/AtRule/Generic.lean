import Scss.AtRule.Services
import Scss.Grammar.Statement

/-!
All other at-rules, and the definitions of mixins. An at-rule is written out again, with its value
evaluated if it is an expression, and as it is otherwise.
-/
namespace Scss.Generic

variable {m : Type → Type} [Monad m] [MonadExceptOf Fault m]

def required : List Capability :=
  [.evaluate, .format, .interpolation, .blocks, .declarations, .mixins]

/-- The text of a value, or the value as it is written if evaluating it fails. -/
def evaluateValue (context : Context m) (written : String) : m String :=
  if written.isEmpty then pure ""
  else
    tryCatch
      (do
        let expr ← MonadExcept.ofExcept (Grammar.expression written)
        context.format (← context.evaluate expr))
      (fun fault =>
        match fault with
        | .configuration fault => throw (.configuration fault)
        | .exhausted => throw .exhausted
        | .torn => throw .torn
        | _ => pure written)

def head (name value : String) : String :=
  if value.isEmpty then "@" ++ name else "@" ++ name ++ " " ++ value

def compile (context : Context m) (node : Statement) (parent : Option String) (level : Nat) :
    m String := do
  match node with
  | .mixinDef name params body _ =>
    context.registerMixin name params body
    return ""
  | .atRule name value body _ =>
    let written ← context.interpolate value
    if name = "mixin" then
      let (name, params) ← MonadExcept.ofExcept (Grammar.signature written)
      context.registerMixin name params (body.getD [])
      return ""
    else
      let value ← evaluateValue context written
      match body with
      | none => return indent level ++ head name value ++ ";\n"
      | some nodes =>
        let compiled ← context.compileBody nodes parent (level + 1)
        let contents ← context.renderBody compiled parent (level + 1)
        return wrapBlock (head name value) contents level
  | _ => return ""

end Scss.Generic
