import Scss.Path

/-!
A directory with files in it, by the names on the way to each. Directories are there if files are
in them. Paths are followed step by step: a step into a directory that is not there fails, and
nothing above the directory itself is known.
-/
namespace Scss

/-- Files by the names that lead to them. -/
structure FileTree where
  files : List (List String × String)

namespace FileTree

/-- Whether a directory is there: the top, or what leads to a file. -/
def isDirectory (tree : FileTree) (names : List String) : Bool :=
  names.isEmpty || tree.files.any fun file =>
    names.isPrefixOf file.1 && names.length < file.1.length

/-- Follow segments from the directory `here`. Behind the last, nothing has to be there. -/
def follow (tree : FileTree) (here : List String) : List String → Option (List String)
  | [] => some here
  | segment :: rest =>
    if !tree.isDirectory here then none
    else if Path.isIdle segment then follow tree here rest
    else if segment = ".." then if here.isEmpty then none else follow tree here.dropLast rest
    else follow tree (here ++ [segment]) rest

/-- The names that a relative path leads to. -/
def locate? (tree : FileTree) (path : String) : Option (List String) :=
  if path = "" || Path.isAbsolute path then none else tree.follow [] (Text.splitOn '/' path)

def read? (tree : FileTree) (path : String) : Option String := do
  let names ← tree.locate? path
  tree.files.lookup names

/-- Put a file at a path. Its directory has to be there, and no directory may be in its place. -/
def write? (tree : FileTree) (path contents : String) : Option FileTree := do
  let names ← tree.locate? path
  if tree.isDirectory names || !tree.isDirectory names.dropLast then none
  else
    let others := tree.files.filter (fun file => file.1 ≠ names)
    return ⟨others ++ [(names, contents)]⟩

/-- The tree of files by path, with the directories that they need. -/
def ofFiles (files : List (String × String)) : FileTree :=
  ⟨files.map fun (path, contents) =>
    ((Text.splitOn '/' path).filter (fun segment => !Path.isIdle segment), contents)⟩

end FileTree

end Scss
