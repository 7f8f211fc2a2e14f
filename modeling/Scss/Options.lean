/-!
Settings of a compilation, and changes to them.
-/
namespace Scss

inductive OutputStyle where
  | expanded
  | compressed
deriving DecidableEq

def OutputStyle.name : OutputStyle → String
  | expanded => "expanded"
  | compressed => "compressed"

def OutputStyle.ofName? : String → Option OutputStyle
  | "expanded" => some expanded
  | "compressed" => some compressed
  | _ => none

structure Options where
  style : OutputStyle := .expanded
  /-- Note where the head of each rule comes from. -/
  sourceMap : Bool := false
  /-- Put the sources' text into the source map. -/
  includeSources : Bool := false
  /-- Directories to search for stylesheets. -/
  loadPaths : List String := []
  /-- What messages call the main stylesheet. -/
  sourceFile : String := "input.scss"
  /-- The source map's address, which a last comment points to. -/
  sourceMapFile : Option String := none
  outputFile : Option String := none
deriving DecidableEq

/-- Settings of which any may be left open. -/
structure OptionsPatch where
  style : Option OutputStyle := none
  sourceMap : Option Bool := none
  includeSources : Option Bool := none
  loadPaths : Option (List String) := none
  sourceFile : Option String := none
  sourceMapFile : Option String := none
  outputFile : Option String := none
deriving DecidableEq

namespace Options

/-- Replace what the patch does not leave open. -/
def merge (options : Options) (patch : OptionsPatch) : Options where
  style := patch.style.getD options.style
  sourceMap := patch.sourceMap.getD options.sourceMap
  includeSources := patch.includeSources.getD options.includeSources
  loadPaths := patch.loadPaths.getD options.loadPaths
  sourceFile := patch.sourceFile.getD options.sourceFile
  sourceMapFile := patch.sourceMapFile.or options.sourceMapFile
  outputFile := patch.outputFile.or options.outputFile

def isCompressed (options : Options) : Bool := options.style = .compressed

end Options

end Scss
