import Scss.Document
import Scss.Options

/-!
Settings as documents. Keys that no setting has count for nothing; a value of a wrong kind cannot be
read. Whole settings take `null` only where a setting may be none, changes everywhere.
-/
namespace Scss

/-- A style by name, or as an object with the name as its only key and nothing under it. -/
def OutputStyle.read? : Document → Option OutputStyle
  | .text name => ofName? name
  | .object [(name, .null)] => ofName? name
  | _ => none

def optionKeys : List String :=
  ["style", "sourceMap", "includeSources", "loadPaths", "sourceFile", "sourceMapFile", "outputFile"]

namespace Options

/-- Read settings; a missing one has its default. -/
def read? (document : Document) : Option Options := do
  let defaults : Options := {}
  match ← document.record? optionKeys 0 with
  | [style, sourceMap, includeSources, loadPaths, sourceFile, sourceMapFile, outputFile] =>
    return {
      style := ← Document.field? OutputStyle.read? defaults.style style
      sourceMap := ← Document.field? Document.bool? defaults.sourceMap sourceMap
      includeSources := ← Document.field? Document.bool? defaults.includeSources includeSources
      loadPaths := ← Document.field? Document.texts? defaults.loadPaths loadPaths
      sourceFile := ← Document.field? Document.text? defaults.sourceFile sourceFile
      sourceMapFile := ← Document.field? (Document.optional Document.text?) none sourceMapFile
      outputFile := ← Document.field? (Document.optional Document.text?) none outputFile }
  | _ => none

def document (options : Options) : Document :=
  let optional (text : Option String) : Document :=
    match text with
    | some text => .text text
    | none => .null
  .object
    [("style", .text options.style.name),
      ("sourceMap", .bool options.sourceMap),
      ("includeSources", .bool options.includeSources),
      ("loadPaths", .array (options.loadPaths.map Document.text)),
      ("sourceFile", .text options.sourceFile),
      ("sourceMapFile", optional options.sourceMapFile),
      ("outputFile", optional options.outputFile)]

end Options

/-- Read changes; what is missing or `null` is left open. -/
def OptionsPatch.read? (document : Document) : Option OptionsPatch := do
  match ← document.record? optionKeys optionKeys.length with
  | [style, sourceMap, includeSources, loadPaths, sourceFile, sourceMapFile, outputFile] =>
    return {
      style := ← Document.field? (Document.optional OutputStyle.read?) none style
      sourceMap := ← Document.field? (Document.optional Document.bool?) none sourceMap
      includeSources := ← Document.field? (Document.optional Document.bool?) none includeSources
      loadPaths := ← Document.field? (Document.optional Document.texts?) none loadPaths
      sourceFile := ← Document.field? (Document.optional Document.text?) none sourceFile
      sourceMapFile := ← Document.field? (Document.optional Document.text?) none sourceMapFile
      outputFile := ← Document.field? (Document.optional Document.text?) none outputFile }
  | _ => none

end Scss
