import Scss.Proofs.Moves
import Scss.Proofs.Run

/-! The parts of the evaluator that look at loaded modules or at the blocks that wait, case by case.
However the jobs inside them are performed, they do what is said here. -/
namespace Scss.Eval

variable {setup : Setup}

section Modules

/-- A file that is being loaded is not loaded inside itself. -/
theorem compileModule_opened (self : Perform) {sheet : LoadedFile} {before : Machine}
    (opened : sheet.path ∈ before.loading) (configured : Bindings Value) :
    compileModule self sheet configured before =
      (.error (.because (.moduleLoop sheet.path)), before) := by
  change ((if before.loading.contains sheet.path then Run.fail _ else pure ⟨⟩ : Run PUnit) >>= _)
    before = _
  rw [if_pos (by simpa using opened)]
  rfl

theorem compileModule_unreadable (self : Perform) {sheet : LoadedFile} {before : Machine}
    (unopened : sheet.path ∉ before.loading) {fault : Fault}
    (parsed : statementsOf sheet = .error fault) (configured : Bindings Value) :
    compileModule self sheet configured before = (.error fault, before) := by
  change ((if before.loading.contains sheet.path then Run.fail _ else pure ⟨⟩ : Run PUnit) >>= _)
    before = _
  rw [if_neg (by simpa using unopened), parsed]
  rfl

/-- The statements of a new module run in a place of its own; if they succeed, the module is known
behind them. -/
theorem compileModule_apply (self : Perform) {sheet : LoadedFile} {before : Machine}
    (unopened : sheet.path ∉ before.loading) {nodes : List Statement}
    (parsed : statementsOf sheet = .ok nodes) (configured : Bindings Value) :
    compileModule self sheet configured before =
      match chunks self nodes (before.enterModule sheet.path configured) with
      | (.error fault, after) => (.error fault, before.leaveModule after)
      | (.ok parts, after) =>
        (.ok (.user before.environments.size,
            if (Text.join "\n" parts).isEmpty then none else some (Text.join "\n" parts)),
          (before.leaveModule after).learn sheet.path before.environments.size) := by
  change ((if before.loading.contains sheet.path then Run.fail _ else pure ⟨⟩ : Run PUnit) >>= _)
    before = _
  rw [if_neg (by simpa using unopened), parsed]
  change (Run.inModule before.environments.size sheet.path (chunks self nodes) >>= _)
    (before.addEnvironment { Environment.empty with vars := configured }).2 = _
  have entered : Run.inModule before.environments.size sheet.path (chunks self nodes)
      (before.addEnvironment { Environment.empty with vars := configured }).2 =
        ((chunks self nodes (before.enterModule sheet.path configured)).1,
          before.leaveModule (chunks self nodes (before.enterModule sheet.path configured)).2) := rfl
  rw [Run.bind_apply, entered]
  cases chunks self nodes (before.enterModule sheet.path configured) with
  | mk result after => cases result <;> rfl

/-- What is compiled is offered from then on. -/
theorem compileModule_offers (self : Perform) {sheet : LoadedFile} {configured : Bindings Value}
    {module_ : ModuleRef} {css : Option String} {before after : Machine}
    (done : compileModule self sheet configured before = (.ok (module_, css), after)) :
    after.Offers module_ := by
  by_cases opened : sheet.path ∈ before.loading
  · rw [compileModule_opened self opened] at done
    cases done
  cases parsed : statementsOf sheet with
  | error fault =>
    rw [compileModule_unreadable self opened parsed] at done
    cases done
  | ok nodes =>
    rw [compileModule_apply self opened parsed] at done
    split at done
    · cases done
    · cases done
      exact ⟨sheet.path, Bindings.get?_set_self _ _ _⟩

/-- An address is resolved in the state that its configuration has left: a module that is known is
taken as it is, and another one is compiled. -/
theorem resolveModule_apply (self : Perform) {url : String}
    (plain : Text.dropStart? "sass:" url = none) (config : List (String × Expr)) (before : Machine) :
    resolveModule setup self url config before =
      match configuration self config before with
      | (.error fault, after) => (.error fault, after)
      | (.ok configured, after) =>
        match findSheet setup.loader after.file url with
        | .error cause => (.error (.because cause), after)
        | .ok sheet =>
          match after.modules.get? sheet.path with
          | some env =>
            (.ok (.user env, none),
              if configured.isEmpty then after
              else { after with log := after.log ++
                [⟨.warn, url ++ " was already loaded, so its configuration is ignored"⟩] })
          | none => compileModule self sheet configured after := by
  unfold resolveModule
  rw [plain]
  dsimp only
  rw [Run.bind_apply]
  cases configuration self config before with
  | mk result after =>
    cases result with
    | error fault => rfl
    | ok configured =>
      dsimp only
      rw [Run.get_bind_apply]
      cases findSheet setup.loader after.file url with
      | error cause => rfl
      | ok sheet =>
        change (match after.modules.get? sheet.path with
          | some env => _
          | none => _ : Run (ModuleRef × Option String)) after = _
        dsimp only
        cases after.modules.get? sheet.path with
        | none => rfl
        | some env => cases configured <;> rfl

theorem resolveModule_offers (self : Perform) {url : String} {config : List (String × Expr)}
    {resolved : ModuleRef × Option String} {before after : Machine}
    (done : resolveModule setup self url config before = (.ok resolved, after)) :
    after.Offers resolved.1 := by
  cases plain : Text.dropStart? "sass:" url with
  | some library =>
    unfold resolveModule at done
    rw [plain] at done
    dsimp only at done
    split at done
    · cases done
      exact trivial
    · cases done
  | none =>
    rw [resolveModule_apply self plain] at done
    cases outcome : configuration self config before with
    | mk result middle =>
      rw [outcome] at done
      cases result with
      | error fault => cases done
      | ok configured =>
        dsimp only at done
        cases found : findSheet setup.loader middle.file url with
        | error cause =>
          rw [found] at done
          cases done
        | ok sheet =>
          rw [found] at done
          dsimp only at done
          cases known : middle.modules.get? sheet.path with
          | none =>
            rw [known] at done
            exact compileModule_offers self done
          | some env =>
            rw [known] at done
            cases done
            refine ⟨sheet.path, ?_⟩
            split <;> exact known

theorem useModule_apply (self : Perform) (url : String) (given : Option String)
    (config : List (String × Expr)) (before : Machine) :
    useModule setup self url given config before =
      match resolveModule setup self url config before with
      | (.error fault, after) => (.error fault, after)
      | (.ok (module_, css), after) =>
        (.ok (moduleBody css), after.useAs (given.getD (defaultNamespace url)) module_) := by
  unfold useModule
  rw [Run.bind_apply]
  cases resolveModule setup self url config before with
  | mk result after => cases result <;> rfl

theorem forwardModule_apply (self : Perform) (url : String) (affix : Option String)
    (filter : Option ForwardFilter) (before : Machine) :
    forwardModule setup self url affix filter before =
      match resolveModule setup self url [] before with
      | (.error fault, after) => (.error fault, after)
      | (.ok (module_, css), after) =>
        (.ok (moduleBody css), after.passOn ⟨module_, affix, filter⟩) := by
  unfold forwardModule
  rw [Run.bind_apply]
  cases resolveModule setup self url [] before with
  | mk result after => cases result <;> rfl

theorem importSheet_missing (self : Perform) {url : String} {before : Machine} {cause : Cause}
    (missing : findSheet setup.loader before.file url = .error cause) (level : Nat) :
    importSheet setup self level url before = (.error (.because cause), before) := by
  unfold importSheet
  rw [Run.get_bind_apply, missing]
  rfl

theorem importSheet_opened (self : Perform) {url : String} {before : Machine} {sheet : LoadedFile}
    (found : findSheet setup.loader before.file url = .ok sheet) (opened : sheet.path ∈ before.loading)
    (level : Nat) :
    importSheet setup self level url before =
      (.error (.because (.moduleLoop sheet.path)), before) := by
  unfold importSheet
  rw [Run.get_bind_apply, found]
  change ((if before.loading.contains sheet.path then Run.fail _ else pure ⟨⟩ : Run PUnit) >>= _)
    before = _
  rw [if_pos (by simpa using opened)]
  rfl

/-- The statements of an imported file run in place. -/
theorem importSheet_apply (self : Perform) {url : String} {before : Machine} {sheet : LoadedFile}
    (found : findSheet setup.loader before.file url = .ok sheet)
    (unopened : sheet.path ∉ before.loading) (level : Nat) :
    importSheet setup self level url before =
      (do
        let nodes ← MonadExcept.ofExcept (statementsOf sheet)
        let outcome ← Run.inFile sheet.path (self (.block (.style level) nodes))
        return outcome.body : Run Body) before := by
  unfold importSheet
  rw [Run.get_bind_apply, found]
  change ((if before.loading.contains sheet.path then Run.fail _ else pure ⟨⟩ : Run PUnit) >>= _)
    before = _
  rw [if_neg (by simpa using unopened)]
  rfl

end Modules

section Blocks

/-- The body of a mixin runs in the state that its arguments have left, with the includer's module
and frames put aside. -/
theorem includeMixin_apply (self : Perform) {qualifier : Option String} {name : String}
    {before : Machine} {mixin : Callable}
    (found : before.mixin? qualifier name = .ok (some mixin)) (args : List (Argument Expr))
    (block : Option (ContentBlock Statement)) (level : Nat) :
    includeMixin self qualifier name args block level before =
      (do
        let values ← arguments self args
        let outcome ← Run.inMixin mixin.env block (runMixin self mixin values level)
        return outcome.body : Run Body) before := by
  unfold includeMixin
  rw [Run.get_bind_apply, found]
  rfl

/-- Why a mixin is not found. -/
def missingMixin (machine : Machine) (qualifier : Option String) (name : String) : Fault :=
  match machine.mixin? qualifier name with
  | .error cause => .because cause
  | .ok _ => .because (.undefinedMixin name)

theorem includeMixin_missing (self : Perform) {qualifier : Option String} {name : String}
    {before : Machine} (missing : ∀ mixin, before.mixin? qualifier name ≠ .ok (some mixin))
    (args : List (Argument Expr)) (block : Option (ContentBlock Statement)) (level : Nat) :
    includeMixin self qualifier name args block level before =
      (.error (missingMixin before qualifier name), before) := by
  unfold includeMixin missingMixin
  rw [Run.get_bind_apply]
  cases found : before.mixin? qualifier name with
  | error cause => rfl
  | ok target =>
    cases target with
    | some mixin => exact absurd found (missing mixin)
    | none => rfl

theorem contentSlot_empty (self : Perform) {before : Machine}
    (empty : before.contents.head?.bind ContentFrame.block = none) (args : List (Argument Expr))
    (level : Nat) : contentSlot self args level before = (.ok .empty, before) := by
  unfold contentSlot
  rw [Run.get_bind_apply, empty]
  rfl

/-- Run a block that waits: its arguments have their values first, and its frame is taken off the stack
that they have left. -/
def fillSlot (self : Perform) (block : ContentBlock Statement) (args : List (Argument Expr))
    (level : Nat) : Run Body := do
  let values ← arguments self args
  match (← get).contents with
  | [] => return .empty
  | content :: _ =>
    let outcome ← Run.inContent content (runBlock self block values level)
    return outcome.body

theorem contentSlot_apply (self : Perform) {before : Machine} {content : ContentFrame}
    {outer : List ContentFrame} {block : ContentBlock Statement}
    (handed : before.contents = content :: outer) (given : content.block = some block)
    (args : List (Argument Expr)) (level : Nat) :
    contentSlot self args level before = fillSlot self block args level before := by
  unfold contentSlot
  rw [Run.get_bind_apply, handed, List.head?_cons, Option.bind_some, given]
  rfl

theorem fillSlot_error {self : Perform} {args : List (Argument Expr)} {fault : Fault}
    {before after : Machine} (failed : arguments self args before = (.error fault, after))
    (block : ContentBlock Statement) (level : Nat) :
    fillSlot self block args level before = (.error fault, after) := by
  unfold fillSlot
  rw [Run.bind_apply, failed]

theorem fillSlot_apply {self : Perform} {args : List (Argument Expr)} {values : CallArgs}
    {before after : Machine} (valued : arguments self args before = (.ok values, after))
    {content : ContentFrame} {outer : List ContentFrame} (handed : after.contents = content :: outer)
    (block : ContentBlock Statement) (level : Nat) :
    fillSlot self block args level before =
      (do
        let outcome ← Run.inContent content (runBlock self block values level)
        return outcome.body : Run Body) after := by
  unfold fillSlot
  rw [Run.bind_apply, valued]
  dsimp only
  rw [Run.get_bind_apply, handed]

end Blocks

end Scss.Eval
