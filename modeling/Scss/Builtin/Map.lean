import Scss.Builtin.Arguments

/-!
Functions on maps. The empty list counts as the empty map.
-/
namespace Scss.Builtin.Map

/-- The value at the end of a path of keys through nested maps. -/
def lookup? (entries : Entries) : List Value → Option Value
  | [] => none
  | [key] => entries.get? key
  | key :: rest =>
    match entries.get? key with
    | some (.map inner) => lookup? inner rest
    | _ => none

/-- The value at the path that the arguments behind the first give, of which one is required. -/
def find (args : Slots) : Except Cause (Option Value) := do
  let entries ← args.map 0 "map"
  let _ ← args.required 1 "key"
  return lookup? entries args.tail

def compute (name : String) (args : Slots) : Except Cause Value :=
  match name with
  | "get" => do return (← find args).getD .null
  | "has-key" => do return .bool (← find args).isSome
  | "merge" => do
    let first ← args.map 0 "map1"
    let second ← args.map 1 "map2"
    return .map (first.merge second)
  | "deep-merge" => do
    let first ← args.map 0 "map1"
    let second ← args.map 1 "map2"
    return .map (first.deepMerge second)
  | "remove" => do
    let entries ← args.map 0 "map"
    return .map (args.tail.foldl Entries.erase entries)
  | "keys" => do return .listOf (← args.map 0 "map").keys .comma
  | "values" => do return .listOf (← args.map 0 "map").values .comma
  | _ => .error (.invalidArgument s!"Unknown map function: {name}")

def signature : String → List String
  | "merge" | "deep-merge" => ["map1", "map2"]
  | "get" | "has-key" => ["map", "key"]
  | _ => ["map"]

def family : Family where
  module_ := some "map"
  members := ["get", "merge", "deep-merge", "remove", "keys", "values", "has-key"]
  globals := ["map-get", "map-merge", "map-remove", "map-keys", "map-values", "map-has-key"]
  aliases :=
    [("map-get", "get"), ("map-merge", "merge"), ("map-remove", "remove"), ("map-keys", "keys"),
      ("map-values", "values"), ("map-has-key", "has-key")]
  signature := signature
  raw := true
  constants := []
  run := fun name args => (compute name args).map .plain

end Scss.Builtin.Map
