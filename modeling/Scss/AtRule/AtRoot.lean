import Scss.AtRule.Services
import Scss.Selector

/-!
`@at-root`, which leaves the rules around it, or the media query around it, or both. What is around
it comes as one text: each group of the selector may have the query behind it.

| query          | rules  | media query |
|----------------|--------|-------------|
| none           | left   | kept        |
| without rule   | left   | kept        |
| without media  | kept   | left        |
| without all    | left   | left        |
| with media     | kept   | kept        |
| with rule      | kept   | left        |
-/
namespace Scss.AtRoot

variable {m : Type → Type} [Monad m] [MonadExceptOf Fault m]

def required : List Capability := [.blocks, .interpolation, .declarations]

inductive Surrounding where
  | rule
  | media
deriving DecidableEq

def Surrounding.keyword : Surrounding → String
  | rule => "rule"
  | media => "media"

/-- A group with its media query cut off. -/
structure Group where
  rule : String
  media : Option String
deriving DecidableEq

def mark : List Char := "@media".toList

/-- The text before the mark and from the mark on, if the mark occurs. -/
def cutAtMark : List Char → Option (List Char × List Char)
  | [] => none
  | c :: rest =>
    if mark.isPrefixOf (c :: rest) then some ([], c :: rest)
    else (cutAtMark rest).map (fun (before, after) => (c :: before, after))

def Group.ofText (group : String) : Group :=
  match cutAtMark group.toList with
  | some (rule, media) =>
    ⟨Text.trim (String.ofList rule), some (Text.trim (String.ofList media))⟩
  | none => ⟨group, none⟩

def groups (around : String) : List Group :=
  ((Selector.groups around).filter (fun group => group ≠ "")).map Group.ofText

/-- Whether a query leaves a surrounding. Without a query the rules are left; a list of what to keep
never leaves the rules. -/
def leaves (query : Option AtRootQuery) (surrounding : Surrounding) : Bool :=
  let listed (names : List String) : Bool :=
    names.any (fun name => name = "all" || name = surrounding.keyword)
  match query with
  | none => surrounding = .rule
  | some (.leave names) => listed names
  | some (.keep names) => surrounding = .media && !listed names

/-- The selector that is kept, and whether a media query is left. -/
def filter (around : Option String) (query : Option AtRootQuery) : String × Bool :=
  let groups := (around.map groups).getD []
  let inMedia := groups.any (fun group => group.media.isSome)
  let selector :=
    if leaves query .rule then ""
    else Text.join ", " ((groups.map Group.rule).filter (fun rule => rule ≠ ""))
  (selector, inMedia && leaves query .media)

/-- The selector of the body: the rule's own, inside what is kept. -/
def effective (kept : String) : Option String → String
  | none => kept
  | some own => if kept = "" then own else Selector.nest kept own

def compile (context : Context m) (node : Statement) (around : Option String) (level : Nat) :
    m String := do
  match node with
  | .atRoot selector query body _ =>
    let (kept, leavesMedia) := filter around query
    let own ←
      match selector with
      | some selector => some <$> context.interpolate selector.text
      | none => pure none
    let selector := effective kept own
    let level := if leavesMedia then 0 else level
    let compiled ← context.compileBody body (if selector = "" then none else some selector) level
    let css ← context.renderBody compiled (some selector) level
    if leavesMedia then
      context.hoist css
      return ""
    else return css
  | _ => return ""

end Scss.AtRoot
