import Scss.Text.Cut

/-!
File paths with slashes. Empty segments and single points count for nothing, except a slash or a
point at the very start; what remains is a sequence of names and steps to the parent.
-/
namespace Scss

/-- A path cut at its slashes: whether it starts at the root, whether it starts with a point, and
the segments behind, of which empty ones and points are kept as they are written. -/
structure Path where
  rooted : Bool
  dotted : Bool
  segments : List String
deriving DecidableEq

namespace Path

def ofText (text : String) : Path :=
  match Text.splitOn '/' text with
  | "" :: rest => if rest.isEmpty then ⟨false, false, []⟩ else ⟨true, false, rest⟩
  | "." :: rest => ⟨false, true, rest⟩
  | segments => ⟨false, false, segments⟩

/-- A segment that stays where it is. -/
def isIdle (segment : String) : Bool := segment = "" || segment = "."

/-- The segments up to the last that is not idle. -/
def trimmed (segments : List String) : List String := (segments.reverse.dropWhile isIdle).reverse

def text (path : Path) : String :=
  let body := Text.join "/" path.segments
  if path.rooted then "/" ++ body
  else if path.dotted then if path.segments.isEmpty then "." else "./" ++ body
  else body

/-- The last name, if the path does not end at the root, at its own start or at a parent. -/
def fileName? (text : String) : Option String :=
  match (trimmed (ofText text).segments).getLast? with
  | some ".." => none
  | name => name

/-- The path without its last step. The root, and a path without steps, has none. -/
def parent? (text : String) : Option String :=
  let path := ofText text
  match trimmed path.segments with
  | [] => if path.dotted then some "" else none
  | steps => some { path with segments := trimmed steps.dropLast }.text

/-- What follows the last point of the last name, if something comes before it. -/
def extension? (text : String) : Option String :=
  match fileName? text with
  | none => none
  | some name =>
    match (Text.splitOn '.' name).reverse with
    | [] => none
    | [_] => none
    | [final, stem] => if stem = "" then none else some final
    | final :: _ => some final

def isAbsolute (text : String) : Bool := Text.startsWith "/" text

def join (directory path : String) : String :=
  if isAbsolute path then path
  else if directory = "" || Text.endsWith "/" directory then directory ++ path
  else directory ++ "/" ++ path

end Path

end Scss
