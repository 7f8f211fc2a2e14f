import Scss.Dialect
import Scss.Fault

/-!
Where stylesheets come from. An address stands for several paths: as it is written, with an
extension, and the same with an underscore before the name. The first that has a file is loaded.
-/
namespace Scss

structure LoadedFile where
  path : String
  contents : String
deriving DecidableEq

def LoadedFile.dialect (file : LoadedFile) : Dialect := .ofPath file.path

def sheetExtensions : List String := ["scss", "sass", "css"]

def partialPath (path : String) : String :=
  let name := (Path.fileName? path).getD path
  match Path.parent? path with
  | none => "_" ++ name
  | some "" => "_" ++ name
  | some directory => Path.join directory ("_" ++ name)

/-- The paths that an address stands for, in the order in which they are tried. -/
def candidates (path : String) : List String :=
  let extended :=
    match Path.extension? path with
    | some ext => sheetExtensions.contains ext
    | none => false
  let variants (base : String) : List String :=
    if extended then [base] else base :: sheetExtensions.map (fun ext => base ++ "." ++ ext)
  let name := (Path.fileName? path).getD path
  if Text.startsWith "_" name then variants path else variants path ++ variants (partialPath path)

structure Loader where
  load : String → Except Cause LoadedFile

namespace Loader

/-- Files by the path that each is registered under. A point and a slash at the start of an address
count for nothing. -/
def memory (files : List (String × String)) : Loader where
  load address :=
    let path := (Text.dropStart? "./" address).getD address
    let found := (candidates path).findSome? fun candidate =>
      (files.lookup candidate).map (LoadedFile.mk candidate)
    match found with
    | some file => .ok file
    | none => .error (.fileNotFound path)

/-- The paths that an address stands for: from the working directory, and then from each of
`directories`. -/
def searchPaths (directories : List String) (address : String) : List String :=
  let bases :=
    if Path.isAbsolute address then [address]
    else address :: directories.map (Path.join · address)
  bases.flatMap candidates

/-- Files that `read?` finds by path. -/
def search (read? : String → Option String) (directories : List String) : Loader where
  load address :=
    let found := (searchPaths directories address).findSome? fun candidate =>
      (read? candidate).map (LoadedFile.mk candidate)
    match found with
    | some file => .ok file
    | none => .error (.fileNotFound address)

end Loader

end Scss
