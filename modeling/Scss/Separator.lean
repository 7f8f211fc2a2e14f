/-!
What stands between the members of a list.
-/
namespace Scss

inductive Separator where
  | space
  | comma
  | slash
deriving DecidableEq

namespace Separator

def text : Separator → String
  | space => " "
  | comma => ", "
  | slash => " / "

def name : Separator → String
  | space => "space"
  | comma => "comma"
  | slash => "slash"

end Separator

end Scss
