import Scss.Eval
import Scss.Reflow.Compress

/-!
The compiler as a caller of the library has it: settings, functions of the caller's own, and what the
last compilation that succeeded leaves behind for its source map.
-/
namespace Scss

/-- A main stylesheet: what messages call it, and its text. -/
structure Entry where
  file : String
  text : String
deriving DecidableEq

structure Compiler where
  setup : Setup
  /-- Where the heads of rules stand in the last output. -/
  mappings : List Mapping
  /-- The main stylesheet of the last output. -/
  entry : Option Entry

/-- A compilation: the output or a fault, the messages on the way, and the compiler for the next. -/
structure Compilation where
  result : Except Fault String
  log : List LogEntry
  compiler : Compiler

namespace Compiler

def create (options : Options) (loader : Loader) : Compiler where
  setup :=
    { options := options
      registry := .builtin
      callbacks := []
      loader := loader
      strategies := Strategy.all
      chance := .turning }
  mappings := []
  entry := none

def withChance (compiler : Compiler) (chance : Chance) : Compiler :=
  { compiler with setup := { compiler.setup with chance := chance } }

/-- Add a function, which stylesheets call without a module. One of the same name is replaced. -/
def addFunction (compiler : Compiler) (name : String)
    (callback : List Value → Except Cause Value) : Compiler :=
  let callbacks := compiler.setup.callbacks.set (normalizeName name) callback
  { compiler with setup := { compiler.setup with callbacks := callbacks } }

/-- The comment that points to the source map, if one is asked for. -/
def mapComment (options : Options) : String :=
  match options.sourceMap, options.sourceMapFile with
  | true, some file =>
    (if options.isCompressed then "" else "\n") ++ "/*# sourceMappingURL=" ++ file ++ " */"
  | _, _ => ""

/-- The compiler behind a compilation that has drawn numbers. -/
def spend (compiler : Compiler) (drawn : Nat) : Compiler :=
  { compiler with setup := { compiler.setup with chance := compiler.setup.chance.behind drawn } }

/-- Compile a text. After a fault, the compiler has only spent what was drawn. -/
def compile (compiler : Compiler) (entry : Entry) (dialect : Dialect) : Compilation :=
  match Grammar.stylesheet (dialect.toScss entry.text) with
  | .error fault => ⟨.error fault, [], compiler⟩
  | .ok nodes =>
    let (result, machine) := Eval.stylesheet compiler.setup nodes (Machine.start entry.file)
    match result with
    | .error fault => ⟨.error fault, machine.log, compiler.spend machine.drawn⟩
    | .ok text =>
      let options := compiler.setup.options
      let css := if options.isCompressed then Compress.text text else text
      let mappings :=
        if options.sourceMap then PendingMapping.resolve css machine.pending else []
      let next := { compiler.spend machine.drawn with mappings := mappings, entry := some entry }
      ⟨.ok (css ++ mapComment options), machine.log, next⟩

/-- Compile a text that comes from nowhere in particular. -/
def compileString (compiler : Compiler) (source : String) (dialect : Dialect) : Compilation :=
  compiler.compile ⟨compiler.setup.options.sourceFile, source⟩ dialect

def compileFile (compiler : Compiler) (address : String) : Compilation :=
  match compiler.setup.loader.load address with
  | .error cause => ⟨.error (.because cause), [], compiler⟩
  | .ok file => compiler.compile ⟨file.path, file.contents⟩ file.dialect

/-- The text of a source, if texts are asked for and it can be found. -/
def sourceText? (compiler : Compiler) (source : String) : Option String :=
  let load := ((compiler.setup.loader.load source).toOption).map LoadedFile.contents
  if compiler.setup.options.includeSources then
    match compiler.entry with
    | some entry => if entry.file = source then some entry.text else load
    | none => load
  else none

def sourceMap (compiler : Compiler) : SourceMap :=
  let sources := compiler.mappings.foldl
    (fun map mapping => map.addSource mapping.source (compiler.sourceText? mapping.source))
    (SourceMap.empty compiler.setup.options.outputFile)
  { sources with mappings := compiler.mappings }

end Compiler

end Scss
