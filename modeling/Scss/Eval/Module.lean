import Scss.Eval.Sheet

/-!
Modules and files. A module is compiled the first time it is used or forwarded, in an environment of
its own, and is known by its path from then on; only that first time gives output. An imported file
is compiled in place, every time. A file that is being loaded already cannot be loaded inside
itself.
-/
namespace Scss.Eval

variable (setup : Setup) (self : Perform)

/-- The name of a module that is given none: the file's name up to its first point, without an
underscore at its start. -/
def defaultNamespace (url : String) : String :=
  let address := (Text.dropStart? "sass:" url).getD url
  let file := ((Text.splitOn '/' address).getLast?).getD address
  let name := (Text.dropStart? "_" file).getD file
  ((Text.splitOn '.' name).head?).getD name

/-- What an address may mean in a file: beside the file first, and then as it is written. -/
def addresses (file url : String) : List String :=
  match Path.parent? file with
  | none | some "" => [url]
  | some directory => [Path.join directory url, url]

def findSheet (loader : Loader) (file url : String) : Except Cause LoadedFile :=
  let found := (addresses file url).findSome? fun address => (loader.load address).toOption
  match found with
  | some sheet => .ok sheet
  | none => .error (.fileNotFound url)

def statementsOf (file : LoadedFile) : Except Fault (List Statement) :=
  Grammar.stylesheet (file.dialect.toScss file.contents)

/-- Fail for a file that is being loaded. -/
def checkLoop (path : String) : Run PUnit := do
  if (← get).loading.contains path then Run.fail (.moduleLoop path) else return ⟨⟩

def configuration (config : List (String × Expr)) : Run (Bindings Value) :=
  config.foldlM
    (fun done (name, expr) => do
      return done.set (normalizeName name) (← self (.evaluate expr false)))
    []

/-- Compile a module that is not known yet. -/
def compileModule (file : LoadedFile) (configured : Bindings Value) :
    Run (ModuleRef × Option String) := do
  checkLoop file.path
  let nodes ← MonadExcept.ofExcept (statementsOf file)
  let (env, machine) := (← get).addEnvironment { Environment.empty with vars := configured }
  set machine
  let parts ← Run.inModule env file.path (chunks self nodes)
  modify fun machine => { machine with modules := machine.modules.set file.path env }
  let css := Text.join "\n" parts
  return (.user env, if css.isEmpty then none else some css)

/-- The module of an address, and its output if it is compiled for this. -/
def resolveModule (url : String) (config : List (String × Expr)) :
    Run (ModuleRef × Option String) := do
  match Text.dropStart? "sass:" url with
  | some name =>
    if setup.registry.hasModule name then return (.builtin name, none)
    else Run.fail (.unknownModule url)
  | none =>
    let configured ← configuration self config
    let file ← Run.ofCause (findSheet setup.loader (← get).file url)
    match (← get).modules.get? file.path with
    | some env =>
      if !configured.isEmpty then
        Run.log .warn (url ++ " was already loaded, so its configuration is ignored")
      return (.user env, none)
    | none => compileModule self file configured

/-- The output of a module, if it has any. -/
def moduleBody (css : Option String) : Body := ⟨[], css.toList⟩

/-- Use a module under a name, or without one for the name `*`. -/
def useModule (url : String) (given : Option String) (config : List (String × Expr)) :
    Run Body := do
  let (module_, css) ← resolveModule setup self url config
  let name := given.getD (defaultNamespace url)
  modify fun machine => machine.modifyEnvironment machine.env fun environment =>
    if name = "*" then { environment with stars := environment.stars ++ [module_] }
    else { environment with namespaces := environment.namespaces.set name module_ }
  return moduleBody css

def forwardModule (url : String) (affix : Option String) (filter : Option ForwardFilter) :
    Run Body := do
  let (module_, css) ← resolveModule setup self url []
  modify fun machine => machine.modifyEnvironment machine.env fun environment =>
    { environment with forwards := environment.forwards ++ [⟨module_, affix, filter⟩] }
  return moduleBody css

def importSheet (level : Nat) (url : String) : Run Body := do
  let file ← Run.ofCause (findSheet setup.loader (← get).file url)
  checkLoop file.path
  let nodes ← MonadExcept.ofExcept (statementsOf file)
  let outcome ← Run.inFile file.path (self (.block (.style level) nodes))
  return outcome.body

end Scss.Eval
