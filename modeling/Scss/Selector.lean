import Scss.Text.Cut
import Scss.Text.TopLevel
import Scss.Text.Word

/-!
Selectors as text. A selector is a list of groups with commas between them. A nested selector is
crossed with the one around it, group by group.
-/
namespace Scss.Selector

def groups (selector : String) : List String := Text.splitTopLevel ',' selector

/-- One group inside another: the ampersand stands for the outer one, which comes first if there is
none. -/
def nestGroup (outer inner : String) : String :=
  if inner.toList.contains '&' then Text.replace "&" outer inner else outer ++ " " ++ inner

/-- Every group of `inner` inside every group of `outer`, the outer ones varying slowest. -/
def nest (outer inner : String) : String :=
  Text.join ", " ((groups outer).flatMap fun p => (groups inner).map (nestGroup p))

/-- A selector as it is written, inside the selector around it, if there is one. -/
def resolve (outer : Option String) (own : String) : String :=
  let own := Text.collapse (Text.trim own)
  match outer with
  | none => Text.join ", " (groups own)
  | some outer => if outer = "" then Text.join ", " (groups own) else nest outer own

/-- Whether a percent sign with a name behind it occurs. -/
def hasPlaceholder : List Char → Bool
  | [] => false
  | c :: rest =>
    (c = '%' && (match rest with
      | d :: _ => Chars.isWord d || d = '-'
      | [] => false)) || hasPlaceholder rest

/-- The groups that can match an element; placeholders match none. -/
def visible (selector : String) : String :=
  Text.join ", " ((groups selector).filter (fun group => !hasPlaceholder group.toList))

end Scss.Selector
