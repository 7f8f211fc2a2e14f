import Scss.Compiler
import Scss.Proofs.ContentScope
import Scss.Proofs.Modules.Links
import Scss.Proofs.Scopes.Sparing

/-! Blocks do not leak variables. A body that runs in a frame of its own leaves the names in all other
frames as they are, and names a variable of a module that is there only by an assignment with `!global`,
whether it succeeds or fails and whatever runs inside. What is assigned without `!global` is what the
name stands for right behind the assignment. -/
namespace Scss

namespace Machine

variable {machine : Machine} {name : String}

theorem findSome?_of_setInFrames {value : Value} {frames changed : List Frame}
    (found : setInFrames? name value frames = some changed) :
    changed.findSome? (fun frame => frame.vars.get? name) = some value := by
  induction frames generalizing changed with
  | nil => cases found
  | cons frame rest ih =>
    unfold setInFrames? at found
    split at found
    · obtain rfl := Option.some.inj found
      rw [List.findSome?_cons, Bindings.get?_set_self]
    · rename_i absent
      obtain ⟨inner, search, rfl⟩ := Option.map_eq_some_iff.mp found
      have unset : frame.vars.get? name = none := by simpa [Bindings.contains] using absent
      rw [List.findSome?_cons, unset]
      exact ih search

theorem findSome?_of_setInFrames_eq_none {value : Value} {frames : List Frame}
    (missing : setInFrames? name value frames = none) :
    frames.findSome? (fun frame => frame.vars.get? name) = none := by
  induction frames with
  | nil => rfl
  | cons frame rest ih =>
    unfold setInFrames? at missing
    split at missing
    · cases missing
    · rename_i absent
      have unset : frame.vars.get? name = none := by simpa [Bindings.contains] using absent
      rw [List.findSome?_cons, unset]
      exact ih (Option.map_eq_none_iff.mp missing)

/-- Outside of the frames that have a name, the module's own variable is what the name stands for. -/
theorem lookup?_setGlobal (real : machine.env < machine.environments.size)
    (unbound : machine.frames.findSome? (fun frame => frame.vars.get? (normalizeName name)) = none)
    (registry : Registry) (value : Value) :
    (machine.setGlobal (normalizeName name) value).lookup? registry name = some value := by
  have own : (machine.setGlobal (normalizeName name) value).current.vars.get? (normalizeName name) =
      some value := by
    change ((machine.modifyEnvironment machine.env _).environment machine.env).vars.get? _ = _
    rw [environment_modify_self _ real]
    exact Bindings.get?_set_self ..
  have frames : (machine.setGlobal (normalizeName name) value).frames = machine.frames := rfl
  rw [lookup?, frames, unbound]
  simp only [here?, own]

/-- What is assigned without `!global` is found. -/
theorem lookup?_assign (real : machine.env < machine.environments.size) (registry : Registry)
    (name : String) (value : Value) :
    (machine.assign name value false).lookup? registry name = some value := by
  unfold assign
  dsimp only
  split
  · rename_i outside
    have bare : machine.frames = [] := by simpa using outside
    exact lookup?_setGlobal real (by rw [bare]; rfl) registry value
  · rename_i inside
    split
    · rename_i changed found
      unfold lookup?
      simp only [findSome?_of_setInFrames found]
    · rename_i missing
      split
      · exact lookup?_setGlobal real (findSome?_of_setInFrames_eq_none missing) registry value
      · cases frames : machine.frames with
        | nil => simp [frames] at inside
        | cons frame rest =>
          simp only [define, frames, lookup?, List.findSome?_cons, normalizeName_idem,
            Bindings.get?_set_self]

end Machine

/-- What is made of a result can be made of it outside. -/
theorem Run.enclosed_map {α β : Type} (enter : Machine → Machine) (leave : Machine → Machine → Machine)
    (f : α → β) (action : Run α) :
    Run.enclosed enter leave (do return f (← action)) =
      (do return f (← Run.enclosed enter leave action) : Run β) := by
  funext before
  rw [Run.bind_apply]
  unfold Run.enclosed
  rw [Run.bind_apply]
  rcases action (enter before) with ⟨_ | _, _⟩ <;> rfl

namespace Eval

inductive FramedBody where
  /-- The body of a rule, under its selector. -/
  | rule (selector : Option String) (level : Nat) (nodes : List Statement)
  /-- A branch of `@if`, or the body of `@while`. -/
  | branch (mode : Mode) (semiGlobal : Bool) (nodes : List Statement)
  /-- The body of `@each` or `@for`, with the variables of the loop. -/
  | round (mode : Mode) (semiGlobal : Bool) (definitions : List (String × Value))
      (nodes : List Statement)

namespace FramedBody

def semiGlobal : FramedBody → Bool
  | rule _ _ _ => false
  | branch _ semiGlobal _ | round _ semiGlobal _ _ => semiGlobal

def mode : FramedBody → Mode
  | rule _ level _ => .style level
  | branch mode _ _ | round mode _ _ _ => mode

def nodes : FramedBody → List Statement
  | rule _ _ nodes | branch _ _ nodes | round _ _ _ nodes => nodes

def inside (self : Perform) : FramedBody → Run Yield
  | rule selector level nodes => Run.withSelector selector (self (.block (.style level) nodes))
  | branch mode _ nodes => self (.block mode nodes)
  | round mode _ definitions nodes => do
    modify fun machine => definitions.foldl (fun m (name, value) => m.define name value) machine
    self (.block mode nodes)

def run (self : Perform) (body : FramedBody) : Run Yield :=
  Run.withFrame body.semiGlobal (body.inside self)

theorem runScoped_eq (self : Perform) (mode : Mode) (nodes : List Statement) :
    runScoped self mode nodes =
      (do (branch mode (← get).isSemiGlobal nodes).run self : Run Yield) := rfl

theorem overDefinitions_eq (self : Perform) (mode : Mode) (rounds : List (List (String × Value)))
    (nodes : List Statement) :
    overDefinitions self mode rounds nodes =
      (do
        let semiGlobal := (← get).isSemiGlobal
        Run.untilReturn (fun definitions => (round mode semiGlobal definitions nodes).run self) rounds :
        Run Yield) := rfl

theorem rule_eq (self : Perform) (selector : Option String) (level : Nat) (nodes : List Statement) :
    Run.withFrame false (blockUnder self selector level nodes) =
      (do return (← (rule selector level nodes).run self).body : Run Body) :=
  Run.enclosed_map _ _ Yield.body (Run.withSelector selector (self (.block (.style level) nodes)))

variable {setup : Setup} {depth : Nat} {before : Machine}

/-- The insides of a body are related if jobs are. -/
theorem inside_related {regime : Regime} {left right : Perform} {related : Run.Relation}
    (blocks : BlockLogic setup regime left right related) (body : FramedBody)
    (admitted : ∀ node ∈ body.nodes, regime.admits node) :
    related body.mode.realm (body.inside left) (body.inside right) := by
  have block (mode : Mode) := blocks.job (.block mode body.nodes) admitted
  cases body with
  | rule selector level nodes => exact blocks.withSelector selector (block (.style level))
  | branch mode semiGlobal nodes => exact block mode
  | round mode semiGlobal definitions nodes =>
    exact blocks.bind (blocks.toLogic.defineAll mode definitions) fun _ => block mode

theorem inside_reaches (body : FramedBody) (before : Machine) :
    before.Reaches (body.inside (perform setup depth) before).2 := by
  have blocks := blockLogic_follow (perform_follow setup depth)
  exact (body.inside_related blocks (fun _ _ => trivial) before trivial).2.reaches

end FramedBody

/-- What an assignment without `!global` does: it leaves a value as it is for `!default`, or its value is
found behind it. -/
theorem assignment_found {setup : Setup} {depth : Nat} {name : String} {expr : Expr} {default : Bool}
    {start finish : Machine} (real : start.env < start.environments.size)
    (done : assignment setup (perform setup depth) none name expr default false start =
      (.ok ⟨⟩, finish)) :
    default = true ∧ isSet setup start name false = true ∧ finish = start ∨
      ∃ value middle, perform setup depth (.evaluate expr false) start = (.ok value, middle) ∧
        finish = middle.assign name value false ∧
        finish.lookup? setup.registry name = some value := by
  unfold assignment at done
  dsimp only at done
  rw [Run.get_bind_apply] at done
  split at done
  · rename_i kept
    obtain ⟨flagged, isSet⟩ := Bool.and_eq_true_iff.mp kept
    cases done
    exact .inl ⟨flagged, isSet, rfl⟩
  · obtain ⟨value, middle, evaluated, written⟩ := Run.bind_eq_ok.mp done
    have moves : Machine.Moves setup .value start middle := by
      have moves := perform_moves setup depth (.evaluate expr false) start
      rwa [evaluated] at moves
    have still : middle.env < middle.environments.size :=
      moves.env_eq ▸ real.trans_le moves.size_le
    cases written
    exact .inr ⟨value, middle, evaluated, rfl, Machine.lookup?_assign still setup.registry name value⟩

/-- A body that runs in a frame of its own leaves the names in all other frames as they are, and a module
that was there gets a variable only by an assignment to it with `!global`. What is assigned without
`!global` is found under its name. -/
theorem bodies_leak_nothing (setup : Setup) (depth : Nat) (body : FramedBody) (before : Machine) :
    let after := (body.run (perform setup depth) before).2
    after.frames.map Frame.names = before.frames.map Frame.names ∧
    after.waitingNames = before.waitingNames ∧
    (∀ id < before.environments.size, ∀ name ∈ after.namesOf id, name ∉ before.namesOf id →
      AssignsGlobal setup depth id name body.run before) ∧
    ∀ (name : String) (expr : Expr) (default : Bool) (start finish : Machine),
      start.env < start.environments.size →
      assignment setup (perform setup depth) none name expr default false start = (.ok ⟨⟩, finish) →
      default = true ∧ isSet setup start name false = true ∧ finish = start ∨
        ∃ value middle, perform setup depth (.evaluate expr false) start = (.ok value, middle) ∧
          finish = middle.assign name value false ∧
          finish.lookup? setup.registry name = some value := by
  intro after
  let start : Machine := { before with frames := .fresh body.semiGlobal :: before.frames }
  have reaches : start.Reaches (body.inside (perform setup depth) start).2 := body.inside_reaches start
  have frames := reaches.map_names
  refine ⟨frames.1, frames.2, fun id real name named unnamed => ?_, fun _ _ _ _ _ => assignment_found⟩
  by_contra unassigned
  -- Leaving out the writes of the name makes no difference, and without them it is spared.
  have same : body.run (performWriting setup (Machine.withhold id name) depth) before =
      body.run (perform setup depth) before := by
    by_contra differs
    exact unassigned ⟨Machine.withhold id name, fun _ _ _ apart => if_neg apart, differs⟩
  have logic : Logic setup .sparing _ _ (Run.Sparing id name) :=
    logic_sparing (performWriting_sparing setup depth id name)
  have spared := body.inside_related (blockLogic_sparing logic) (fun _ _ => trivial) start
  have left : name ∈ (body.run (performWriting setup (Machine.withhold id name) depth)
      before).2.namesOf id := same ▸ named
  exact unnamed (spared.unnamed real (fun _ => List.cons_ne_nil _ _) left)

/-- A branch assigns a variable of the rule around it, one of its own and one of the module. -/
theorem bodies_leak_nothing_branch :
    let setup := (Compiler.create {} (Loader.memory [])).setup
    let before := { Machine.start "main.scss" with frames := [⟨[("a", .null)], false⟩] }
    let body := FramedBody.branch (.style 1) false
      [.assign none "a" (.boolean true 1) false false 1, .assign none "b" (.null 1) false false 2,
        .assign none "c" (.null 1) false true 3]
    let after := (body.run (perform setup 2) before).2
    let finish := before.assign "a" (.bool true) false
    after.frames.map Frame.names = [["a"]] ∧ after.namesOf 0 = ["c"] ∧
      AssignsGlobal setup 2 0 "c" body.run before ∧
      finish.lookup? setup.registry "a" = some (.bool true) := by
  intro setup before body after finish
  have named : after.namesOf 0 = ["c"] := by rfl
  have unnamed : "c" ∉ before.namesOf 0 := List.not_mem_nil
  have evaluated : perform setup 2 (.evaluate (.boolean true 1) false) before =
      (.ok (.bool true), before) := rfl
  obtain ⟨frames, -, globals, found⟩ := bodies_leak_nothing setup 2 body before
  refine ⟨frames, named, globals 0 (by decide) "c" (named ▸ List.mem_singleton.mpr rfl) unnamed, ?_⟩
  rcases found "a" (.boolean true 1) false before finish (by decide) rfl with
    ⟨flagged, -⟩ | ⟨value, middle, same, -, looked⟩
  · cases flagged
  · cases evaluated.symm.trans same
    exact looked

end Eval

end Scss
