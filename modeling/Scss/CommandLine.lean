import Scss.Compiler

/-!
The command line: how arguments are read, and what a call comes to. Files are read through a function
and written by the caller, so all of it can be run without a file system.
-/
namespace Scss.CommandLine

structure Invocation where
  /-- The stylesheet; the standard input if there is none. -/
  input : Option String := none
  output : Option String := none
  style : Option OutputStyle := none
  loadPaths : List String := []
  /-- Whether the standard input has blocks by indentation. -/
  indented : Bool := false
deriving DecidableEq

inductive Request where
  | compile (invocation : Invocation)
  | help
  | version
  /-- Arguments that cannot be read. -/
  | usage
deriving DecidableEq

inductive Setting where
  | output
  | style
  | loadPath
deriving DecidableEq

def Setting.ofLong? : String → Option Setting
  | "output" => some .output
  | "style" => some .style
  | "load-path" => some .loadPath
  | _ => none

def Setting.ofShort? : Char → Option Setting
  | 'o' => some .output
  | 's' => some .style
  | 'I' => some .loadPath
  | _ => none

namespace Invocation

def path? (text : String) : Option String := if text.isEmpty then none else some text

def set? (invocation : Invocation) (setting : Setting) (value : String) : Option Invocation :=
  match setting with
  | .output =>
    match invocation.output, path? value with
    | none, some path => some { invocation with output := some path }
    | _, _ => none
  | .style =>
    match invocation.style, OutputStyle.ofName? value with
    | none, some style => some { invocation with style := some style }
    | _, _ => none
  | .loadPath =>
    (path? value).map fun path =>
      { invocation with loadPaths := invocation.loadPaths ++ [path] }

def setInput? (invocation : Invocation) (value : String) : Option Invocation :=
  match invocation.input, path? value with
  | none, some path => some { invocation with input := some path }
  | _, _ => none

/-- Say that the standard input is indented, once. -/
def setIndented? (invocation : Invocation) : Option Invocation :=
  if invocation.indented then none else some { invocation with indented := true }

def options (invocation : Invocation) : Options where
  style := invocation.style.getD .expanded
  loadPaths := invocation.loadPaths
  sourceFile := invocation.input.getD "stdin"
  outputFile := invocation.output

end Invocation

inductive Word where
  /-- Two hyphens: no options follow. -/
  | separator
  /-- A long option, with the text behind its equals sign. -/
  | long (name : String) (value : Option String)
  /-- A letter behind a hyphen, with the text behind it. -/
  | short (letter : Char) (rest : List Char)
  | plain (text : String)
deriving DecidableEq

def Word.ofText (text : String) : Word :=
  match text.toList with
  | ['-', '-'] => .separator
  | '-' :: '-' :: name =>
    match name.span (· ≠ '=') with
    | (name, _ :: value) => .long (String.ofList name) (some (String.ofList value))
    | (name, []) => .long (String.ofList name) none
  | '-' :: letter :: rest => .short letter rest
  | _ => .plain text

/-- The value that stands in the same argument as a short option, behind an equals sign or not. -/
def attached : List Char → Option String
  | [] => none
  | '=' :: value => some (String.ofList value)
  | value => some (String.ofList value)

def readPlain (invocation : Invocation) : List String → Request
  | [] => .compile invocation
  | text :: rest =>
    match invocation.setInput? text with
    | some next => readPlain next rest
    | none => .usage

/-- Read arguments. `pending` is an option whose value has to come next. -/
def readFrom (invocation : Invocation) (pending : Option Setting) : List String → Request
  | [] => if pending.isSome then .usage else .compile invocation
  | text :: rest =>
    let set (setting : Setting) (value : Option String) : Request :=
      match value with
      | none => readFrom invocation (some setting) rest
      | some value =>
        match invocation.set? setting value with
        | some next => readFrom next none rest
        | none => .usage
    match Word.ofText text, pending with
    | .plain value, some setting => set setting (some value)
    | .plain value, none =>
      match invocation.setInput? value with
      | some next => readFrom next none rest
      | none => .usage
    | _, some _ => .usage
    | .separator, none => readPlain invocation rest
    | .long "help" none, none => .help
    | .long "version" none, none => .version
    | .long "indented" none, none =>
      match invocation.setIndented? with
      | some next => readFrom next none rest
      | none => .usage
    | .long name value, none =>
      match Setting.ofLong? name with
      | some setting => set setting value
      | none => .usage
    | .short letter value, none =>
      match letter, Setting.ofShort? letter with
      | 'h', _ => .help
      | 'V', _ => .version
      | _, some setting => set setting (attached value)
      | _, none => .usage

def read (args : List String) : Request := readFrom {} none args

def versionText : String := "sassc 0.1.0\n"

def helpText : String :=
  "Compile Sass and SCSS stylesheets to CSS\n\n" ++
  "Usage: sassc [OPTIONS] [INPUT]\n\n" ++
  "Arguments:\n" ++
  "  [INPUT]  Stylesheet to compile; reads stdin when omitted\n\n" ++
  "Options:\n" ++
  "  -o, --output <OUTPUT>         Write CSS here instead of stdout\n" ++
  "  -s, --style <STYLE>           [default: expanded] [possible values: expanded, compressed]\n" ++
  "  -I, --load-path <LOAD_PATHS>  Directory searched for `@use` and `@import` targets. Repeatable\n" ++
  "      --indented                Treat stdin as the indented syntax\n" ++
  "  -h, --help                    Print help\n" ++
  "  -V, --version                 Print version\n"

/-- Why a call fails: a heading, and for a stylesheet a place and a message. -/
structure Report where
  title : String
  label : Option String
deriving DecidableEq

def Report.unreadable : Report := ⟨"cannot read input", none⟩

def Report.unwritable : Report := ⟨"cannot write output", none⟩

/-- The report of a fault. A fault without a place is reported at the start. -/
def Report.ofFault (fault : Fault) : Report :=
  let position := fault.position?.getD ⟨1, 1⟩
  ⟨fault.title, some (position.text ++ ": " ++ fault.message)⟩

inductive Action where
  | print (text : String)
  | write (path text : String)
  | fail (report : Report)
deriving DecidableEq

/-- What a call comes to, and the messages on the way. Its input is read in any case, and compiled
as it is found by address. -/
def perform (invocation : Invocation) (stdin : String) (read? : String → Option String) :
    Action × List LogEntry :=
  let compiler :=
    Compiler.create invocation.options (.search read? invocation.loadPaths)
  let compilation? : Option Compilation :=
    match invocation.input with
    | some path => (read? path).map fun _ => compiler.compileFile path
    | none =>
      some (compiler.compileString stdin (if invocation.indented then .indented else .scss))
  match compilation? with
  | none => (.fail .unreadable, [])
  | some compilation =>
    let action :=
      match compilation.result, invocation.output with
      | .error fault, _ => .fail (.ofFault fault)
      | .ok css, some path => .write path css
      | .ok css, none => .print css
    (action, compilation.log)

end Scss.CommandLine
