import Scss.CommandLine
import Scss.Tree.Address

/-!
The program. It reads what a stylesheet may need into memory, compiles it there, and prints or writes
what comes out.
-/
namespace Scss.Program

/-- The text of a file, if it can be read. -/
def readFile? (path : String) : IO (Option String) := do
  try
    return some (← IO.FS.readFile path)
  catch _ => return none

/-- What the addresses in a file may stand for. -/
def needs (directories : List String) (file : LoadedFile) : List String :=
  match Eval.statementsOf file with
  | .error _ => []
  | .ok nodes =>
    (Statement.addressesIn nodes).flatMap fun url =>
      (Eval.addresses file.path url).flatMap (Loader.searchPaths directories)

/-- Read the files of some paths, and what these may need. `known` has what is tried already. -/
partial def gather (directories : List String) (known : List (String × Option String)) :
    List String → IO (List (String × Option String))
  | [] => return known
  | path :: rest => do
    if (known.lookup path).isSome then gather directories known rest
    else
      let text ← readFile? path
      let more :=
        match text with
        | some text => needs directories ⟨path, text⟩
        | none => []
      gather directories ((path, text) :: known) (more ++ rest)

def startPaths (invocation : CommandLine.Invocation) (stdin : String) : List String :=
  match invocation.input with
  | some path => Loader.searchPaths invocation.loadPaths path
  | none =>
    let dialect := if invocation.indented then "stdin.sass" else "stdin.scss"
    needs invocation.loadPaths ⟨dialect, stdin⟩

def warn (entry : LogEntry) : IO PUnit :=
  match entry.level with
  | .warn => IO.eprintln ("WARN " ++ entry.text)
  | .debug => return ⟨⟩

/-- Report a failure; its code is one. -/
def report (failure : CommandLine.Report) : IO UInt32 := do
  match failure.label with
  | some label => IO.eprintln ("Error: " ++ failure.title ++ "\n" ++ label)
  | none => IO.eprintln ("Error: " ++ failure.title)
  return 1

def run (invocation : CommandLine.Invocation) : IO UInt32 := do
  let stdin ← if invocation.input.isSome then pure "" else do (← IO.getStdin).readToEnd
  let known ← gather invocation.loadPaths [] (startPaths invocation stdin)
  let (action, log) :=
    CommandLine.perform invocation stdin (fun path => (known.lookup path).join)
  log.forM warn
  match action with
  | .print text =>
    IO.print text
    return 0
  | .write path text =>
    try
      IO.FS.writeFile path text
      return 0
    catch _ => report .unwritable
  | .fail failure => report failure

end Scss.Program

open Scss in
def main (args : List String) : IO UInt32 := do
  match CommandLine.read args with
  | .compile invocation => Program.run invocation
  | .help =>
    IO.print CommandLine.helpText
    return 0
  | .version =>
    IO.print CommandLine.versionText
    return 0
  | .usage =>
    IO.eprintln "error: the arguments cannot be read\n\nFor more information, try '--help'."
    return 2
