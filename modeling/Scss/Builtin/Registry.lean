import Scss.Builtin.Color
import Scss.Builtin.List
import Scss.Builtin.Map
import Scss.Builtin.Math
import Scss.Builtin.Native

/-!
The functions of the library by name. Some names are listed only: their functions look at the
scopes of the caller, so the evaluator runs them itself.
-/
namespace Scss

/-- Underscores and hyphens are the same in names. -/
def normalizeName (name : String) : String :=
  String.ofList (name.toList.map (fun c => if c = '_' then '-' else c))

structure Registry where
  families : List Family
  /-- Modules with functions that the evaluator runs, which need no module either. -/
  intrinsics : List (String × List String)

namespace Registry

def empty : Registry := ⟨[], []⟩

def builtin : Registry where
  families :=
    [Builtin.Math.family, Builtin.List.family, Builtin.Map.family, Builtin.Color.family,
      Builtin.Native.colors, Builtin.Native.gradients]
  intrinsics :=
    [("meta",
        ["type-of", "inspect", "variable-exists", "global-variable-exists", "function-exists",
          "mixin-exists", "get-function", "call"]),
      ("string", ["unquote", "quote", "to-upper-case", "to-lower-case"])]

def isIntrinsic (registry : Registry) (qualifier : Option String) (name : String) : Bool :=
  registry.intrinsics.any fun (owner, names) =>
    (qualifier = none || qualifier = some owner) && names.contains (normalizeName name)

def hasModule (registry : Registry) (name : String) : Bool :=
  registry.families.any (fun family => family.module_ = some name) ||
    registry.intrinsics.any (fun entry => entry.1 = name)

def constants (registry : Registry) (name : String) : List (String × Value) :=
  (registry.families.filter (fun family => family.module_ = some name)).flatMap Family.constants

def functionNames (registry : Registry) (name : String) : List String :=
  (registry.families.filter (fun family => family.module_ = some name)).flatMap Family.members ++
    (registry.intrinsics.filter (fun entry => entry.1 = name)).flatMap Prod.snd

/-- The family that has a function, and the name that the family knows it by. -/
def find? (registry : Registry) (qualifier : Option String) (name : String) :
    Option (Family × String) :=
  let name := normalizeName name
  let owner := registry.families.find? fun family =>
    match qualifier with
    | some _ => family.module_ = qualifier && family.members.contains name
    | none => family.globals.contains name
  owner.map (fun family => (family, (family.aliases.lookup name).getD name))

def contains (registry : Registry) (qualifier : Option String) (name : String) : Bool :=
  (registry.find? qualifier name).isSome || registry.isIntrinsic qualifier name

/-- Call a function of a family; `none` if no family has it. -/
def call? (registry : Registry) (qualifier : Option String) (name : String) (args : CallArgs)
    (format : Format) : Option (Except Cause Computed) :=
  (registry.find? qualifier name).map fun (family, name) => do
    let values ← args.normalize (family.signature name)
    let values :=
      if family.raw then values else values.map (fun value => .unquoted (format.value value))
    family.run name values

end Registry

end Scss
