import Mathlib.Tactic
import Scss.Tree.Statement

/-! Statements inside statements: which of them run in the place of the statement around them, which
stand in a block of their own, and which are kept for later. -/
namespace Scss

namespace Statement

/-- The statements inside a statement that run in its place: what is nested in a declaration, and the
bodies of branches and loops. -/
def within : Statement → List Statement
  | property d => d.nested
  | ifElse tests _ => tests.flatMap Branch.body
  | eachLoop _ _ body _ | forLoop _ _ _ _ body _ | whileLoop _ body _ => body
  | _ => []

/-- The block of a style rule or an at-rule, if the statement is one and has a block. -/
def block? : Statement → Option (List Statement)
  | rule _ body _ | atRoot _ _ body _ | media _ body _ | supports _ body _ | container _ body _ =>
    some body
  | atRule _ _ body _ => body
  | _ => none

/-- The body of the mixin that a statement defines, if it defines one. -/
def mixin? : Statement → Option (List Statement)
  | mixinDef _ _ body _ => some body
  | atRule name _ body _ => if name = "mixin" then some (body.getD []) else none
  | _ => none

def urls : Statement → List String
  | useModule url _ _ _ | forwardModule url _ _ _ => [url]
  | importSheets urls _ => urls
  | _ => []

/-- All statements right inside a statement. The declarations of keyframes are none. -/
def children : Statement → List Statement
  | rule _ body _ | atRoot _ _ body _ | media _ body _ | supports _ body _ | container _ body _ => body
  | property d => d.nested
  | atRule _ _ body _ => body.getD []
  | ifElse tests _ => tests.flatMap Branch.body
  | eachLoop _ _ body _ | forLoop _ _ _ _ body _ | whileLoop _ body _ => body
  | mixinDef _ _ body _ | functionDef _ _ body _ => body
  | includeMixin _ _ _ content _ => (content.map ContentBlock.body).getD []
  | _ => []

/-- The statements inside a statement that it keeps for later: the body of a function or a mixin, and
the block that a mixin is included with. -/
def kept : Statement → List Statement
  | functionDef _ _ body _ | mixinDef _ _ body _ => body
  | atRule name _ body _ => if name = "mixin" then body.getD [] else []
  | includeMixin _ _ _ content _ => (content.map ContentBlock.body).getD []
  | _ => []

variable {node : Statement} {body : List Statement}

theorem within_subset_children : node.within ⊆ node.children := by
  cases node <;> simp [within, children]

theorem block_subset_children (block : node.block? = some body) : body ⊆ node.children := by
  cases node <;> simp_all [block?, children]

theorem mixin_subset_children (defined : node.mixin? = some body) : body ⊆ node.children := by
  cases node <;> simp_all [mixin?, children]

theorem kept_subset_children : node.kept ⊆ node.children := by
  cases node with
  | atRule name value body line =>
    unfold kept
    dsimp only
    split
    · exact List.Subset.refl _
    · exact List.nil_subset _
  | _ => simp [kept, children]

theorem kept_of_mixin (defined : node.mixin? = some body) : node.kept = body := by
  cases node <;> simp_all [mixin?, kept]

end Statement

/-- A statement that stands in a block, at any depth. -/
inductive Occurs : List Statement → Statement → Prop where
  | here {nodes : List Statement} {node : Statement} (member : node ∈ nodes) : Occurs nodes node
  | deeper {nodes : List Statement} {outer node : Statement} (member : outer ∈ nodes)
      (inside : Occurs outer.children node) : Occurs nodes node

namespace Occurs

variable {nodes more : List Statement} {node inner : Statement}

theorem of_subset (occurs : Occurs nodes node) (subset : nodes ⊆ more) : Occurs more node := by
  cases occurs with
  | here member => exact .here (subset member)
  | deeper member inside => exact .deeper (subset member) inside

/-- What stands right inside a statement stands where it does. -/
theorem child (occurs : Occurs nodes node) (member : inner ∈ node.children) : Occurs nodes inner := by
  induction occurs with
  | here listed => exact .deeper listed (.here member)
  | deeper listed _ ih => exact .deeper listed (ih member)

theorem trans {outer : Statement} (occurs : Occurs nodes outer) (inside : Occurs outer.children node) :
    Occurs nodes node := by
  induction occurs with
  | here listed => exact .deeper listed inside
  | deeper listed _ ih => exact .deeper listed (ih inside)

theorem append_cases (occurs : Occurs (nodes ++ more) node) : Occurs nodes node ∨ Occurs more node := by
  cases occurs with
  | here member => exact (List.mem_append.mp member).imp .here .here
  | deeper member inside =>
    exact (List.mem_append.mp member).imp (.deeper · inside) (.deeper · inside)

end Occurs

/-- What holds of all statements that stand in a block, at any depth. -/
def Throughout (good : Statement → Prop) (nodes : List Statement) : Prop :=
  ∀ node, Occurs nodes node → good node

namespace Throughout

variable {good : Statement → Prop} {nodes more : List Statement} {node : Statement}

theorem of_subset (holds : Throughout good more) (subset : nodes ⊆ more) : Throughout good nodes :=
  fun node occurs => holds node (occurs.of_subset subset)

theorem child (holds : Throughout good nodes) (member : node ∈ nodes) :
    Throughout good node.children :=
  fun inner occurs => holds inner (.deeper member occurs)

theorem alone (holds : Throughout good nodes) (member : node ∈ nodes) : Throughout good [node] :=
  holds.of_subset (List.cons_subset.mpr ⟨member, List.nil_subset _⟩)

/-- What holds throughout a statement holds throughout one right inside it. -/
theorem inside {inner : Statement} (holds : Throughout good [node]) (member : inner ∈ node.children) :
    Throughout good [inner] :=
  (holds.child (List.mem_singleton_self node)).alone member

theorem self (holds : Throughout good [node]) : good node := holds node (.here (List.mem_singleton_self _))

end Throughout

/-- A check of all statements that stand in a block, which is no more than `depth` blocks deep. -/
def everywhere (check : Statement → Bool) : Nat → List Statement → Bool
  | 0, nodes => nodes.isEmpty
  | depth + 1, nodes => nodes.all fun node => check node && everywhere check depth node.children

theorem Occurs.check {check : Statement → Bool} {depth : Nat} {nodes : List Statement}
    {node : Statement} (occurs : Occurs nodes node) (passed : everywhere check depth nodes = true) :
    check node = true := by
  induction depth generalizing nodes with
  | zero =>
    have empty : nodes = [] := by simpa [everywhere] using passed
    subst empty
    cases occurs with
    | here member => cases member
    | deeper member => cases member
  | succ depth ih =>
    simp only [everywhere, List.all_eq_true, Bool.and_eq_true] at passed
    cases occurs with
    | here member => exact (passed node member).1
    | deeper member inside => exact ih inside (passed _ member).2

/-- A statement that stands in something that a statement of a block keeps for later. -/
def Deferred (nodes : List Statement) (node : Statement) : Prop :=
  ∃ outer, Occurs nodes outer ∧ Occurs outer.kept node

namespace Deferred

variable {nodes : List Statement} {node inner : Statement}

theorem occurs (deferred : Deferred nodes node) : Occurs nodes node := by
  obtain ⟨outer, around, inside⟩ := deferred
  exact around.trans (inside.of_subset Statement.kept_subset_children)

theorem child (deferred : Deferred nodes node) (member : inner ∈ node.children) :
    Deferred nodes inner := by
  obtain ⟨outer, around, inside⟩ := deferred
  exact ⟨outer, around, inside.child member⟩

end Deferred

end Scss
