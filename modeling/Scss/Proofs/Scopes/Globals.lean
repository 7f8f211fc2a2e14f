import Scss.Proofs.Parts
import Scss.Proofs.Scopes.Names
import Scss.Proofs.Surroundings

/-! Frames keep their names. A move of the machine names variables in the innermost frame at most; so
behind a part that runs in a frame of its own, all other frames bind what they have bound before,
those on the stack and those that wait with a block.

Which assignments name variables of a module. From inside a block these are the ones with `!global`.
So a run with something else in the place of those that assign one name of one module leaves the
module without the name; and where it would be the same run, it is left without the name as well. -/
namespace Scss

namespace Machine

def waitingNames (machine : Machine) : List (List (List String)) :=
  machine.contents.map fun content => content.frames.map Frame.names

theorem Reaches.map_names {before after : Machine} (moves : Reaches before after) :
    after.frames.tail.map Frame.names = before.frames.tail.map Frame.names ∧
      after.waitingNames = before.waitingNames := by
  induction moves with
  | refl | log | draw | note | hoist | change | extend | learn => exact ⟨rfl, rfl⟩
  | trans _ _ first second => exact ⟨second.1.trans first.1, second.2.trans first.2⟩
  | define machine name value =>
    refine ⟨map_names_define machine name value, ?_⟩
    rw [waitingNames, (steady_define machine name value).contents, waitingNames]
  | assign machine name value global =>
    refine ⟨map_names_assign machine name value global, ?_⟩
    rw [waitingNames, (steady_assign machine name value global).contents, waitingNames]
  | frame semiGlobal inside ih =>
    refine ⟨?_, ih.2⟩
    rw [List.map_tail, ih.1, List.tail_cons, List.map_tail]
  | selector | media | file => assumption
  | function | module => exact ⟨rfl, ‹_ ∧ _›.2⟩
  | @mixin machine after env block inside ih =>
    -- The includer's frames come back from the block that waits.
    obtain ⟨own, outer, stack, names, others⟩ := List.map_eq_cons_iff.mp ih.2
    refine ⟨?_, ?_⟩
    · simp only [stack, List.head?_cons, Option.map_some, Option.getD_some, List.map_tail, names]
    · simpa only [waitingNames, stack, List.tail_cons] using others
  | @content machine after content outer handed inside ih =>
    refine ⟨rfl, ?_⟩
    simp only [waitingNames, handed, List.map_cons, List.cons.injEq]
    exact ih

theorem Reaches.size_le {before after : Machine} (moves : Reaches before after) :
    before.environments.size ≤ after.environments.size := by
  induction moves with
  | refl | log | draw | note | hoist | learn => exact le_rfl
  | trans _ _ first second => exact first.trans second
  | define machine name value => exact (steady_define machine name value).size.ge
  | assign machine name value global => exact (steady_assign machine name value global).size.ge
  | change machine id f => exact (Array.size_modify ..).ge
  | extend machine environment => exact (Array.size_push ..).ge.trans' (Nat.le_succ _)
  | frame | selector | media | function | mixin | content | module | file => assumption

/-- Where a module runs inside blocks, it does so behind every move. -/
theorem Reaches.enclosed {before after : Machine} (moves : Reaches before after) {id : EnvId}
    (enclosed : before.Enclosed id) : after.Enclosed id := by
  obtain ⟨env, -, -, -, -, frames, -⟩ := surroundings_eq_iff.mp moves.surroundings_eq
  intro running bare
  have none_ : frameKinds before.frames = [] := by rw [← frames, bare]; rfl
  exact enclosed (env.symm.trans running) (List.map_eq_nil_iff.mp none_)

end Machine

/-- What runs in the place of an assignment with `!global`. -/
abbrev GlobalWrite := String → Value → Machine → Machine

namespace Eval

/-- The write of an assignment with `!global` itself. -/
def globalWrite : GlobalWrite := fun name value machine => machine.assign name value true

section Writing

variable (setup : Setup) (write : GlobalWrite)

def assignmentWriting (self : Perform) (name : String) (expr : Expr) (default : Bool) : Run PUnit := do
  if default && isSet setup (← get) name true then return ⟨⟩
  else
    let value ← self (.evaluate expr false)
    modify (write name value)

/-- A statement, with something else in the place of the write of an assignment with `!global`. -/
def statementWriting (self : Perform) (mode : Mode) (node : Statement) : Run Yield :=
  match node with
  | .assign none name expr default true line =>
    Run.located line do
      assignmentWriting setup write self name expr default
      return .nothing
  | node => statement setup self mode node

/-- Perform a job, with something else in the place of the writes of assignments with `!global`. -/
def stepWriting (self : Perform) {α : Type} : Job α → Run α
  | .block mode nodes => Run.untilReturn (statementWriting setup write self mode) nodes
  | job => step setup self job

/-- Perform a job with jobs nested at most `depth` deep, and something else in the place of the writes of
assignments with `!global`. -/
def performWriting : Nat → Perform
  | 0, _, _ => throw .exhausted
  | depth + 1, _, job => stepWriting setup write (fun inner => performWriting depth inner) job

end Writing

/-- An assignment with `!global` to this name runs in this module: what it writes makes a difference. -/
def AssignsGlobal (setup : Setup) (depth : Nat) (id : EnvId) (name : String) {α : Type}
    (action : Perform → Run α) (before : Machine) : Prop :=
  ∃ write : GlobalWrite,
    (∀ machine other value, ¬ (machine.env = id ∧ normalizeName other = name) →
      write other value machine = globalWrite other value machine) ∧
    action (performWriting setup write depth) before ≠ action (perform setup depth) before

theorem statementWriting_globalWrite (setup : Setup) (self : Perform) (mode : Mode)
    (node : Statement) : statementWriting setup globalWrite self mode node =
      statement setup self mode node := by
  unfold statementWriting
  split
  · rename_i name expr default line
    unfold statement
    congr 1
    cases mode with
    | function => rfl
    | style level =>
      funext before
      change (assignment setup self none name expr default true >>= _) before =
        ((assignment setup self none name expr default true >>= fun _ => pure Body.empty) >>= _) before
      rw [bind_assoc]
      rfl
  · rfl

/-- With the writes themselves in their place, nothing changes. -/
theorem performWriting_globalWrite (setup : Setup) (depth : Nat) {α : Type} (job : Job α) :
    performWriting setup globalWrite depth job = perform setup depth job := by
  induction depth generalizing α with
  | zero => rfl
  | succ depth ih =>
    have same : @performWriting setup globalWrite depth = @perform setup depth := by
      funext α job
      exact ih job
    change stepWriting setup globalWrite (performWriting setup globalWrite depth) job =
      step setup (perform setup depth) job
    rw [same]
    cases job with
    | block mode nodes =>
      exact congrArg (Run.untilReturn · nodes)
        (funext (statementWriting_globalWrite setup (perform setup depth) mode))
    | evaluate | calculate | call | declare | «repeat» => rfl

/-- A block of one assignment with `!global`, whose value is the same whatever is written. -/
theorem performWriting_block {setup : Setup} {depth : Nat} {name : String} {expr : Expr} {value : Value}
    {before middle : Machine} {write : GlobalWrite}
    (evaluated : performWriting setup write depth (.evaluate expr false) before = (.ok value, middle))
    (mode : Mode) (line : Nat) :
    (performWriting setup write (depth + 1) (.block mode [.assign none name expr false true line])
      before).2 = write name value middle := by
  have written : statementWriting setup write (performWriting setup write depth) mode
      (.assign none name expr false true line) before = (.ok .nothing, write name value middle) := by
    have assigned : assignmentWriting setup write (performWriting setup write depth) name expr false
        before = (.ok ⟨⟩, write name value middle) := by
      change (performWriting setup write depth (.evaluate expr false) >>= fun value =>
        modify (write name value)) before = _
      rw [Run.bind_apply, evaluated]
      rfl
    change Run.located line (do
      assignmentWriting setup write (performWriting setup write depth) name expr false
      return Yield.nothing) before = _
    unfold Run.located
    rw [Run.bind_apply, assigned]
    rfl
  change (Run.untilReturn (statementWriting setup write (performWriting setup write depth) mode)
    [.assign none name expr false true line] before).2 = _
  unfold Run.untilReturn
  rw [Run.bind_apply, written]
  rfl

/-- An assignment with `!global` that runs assigns. -/
theorem assignsGlobal_block {setup : Setup} {depth : Nat} {name : String} {expr : Expr} {value : Value}
    {before middle : Machine}
    (evaluated : ∀ write, performWriting setup write depth (.evaluate expr false) before =
      (.ok value, middle)) (mode : Mode) (line : Nat) :
    AssignsGlobal setup (depth + 1) middle.env (normalizeName name)
      (fun self => self (.block mode [.assign none name expr false true line])) before := by
  let write : GlobalWrite := fun other value machine =>
    if machine.env = middle.env ∧ normalizeName other = normalizeName name then
      { globalWrite other value machine with env := machine.env + 1 }
    else globalWrite other value machine
  refine ⟨write, fun machine other value apart => if_neg apart, fun same => ?_⟩
  have states : write name value middle = globalWrite name value middle := by
    have ends := congrArg Prod.snd same
    dsimp only at ends
    rwa [← performWriting_globalWrite, performWriting_block (evaluated write),
      performWriting_block (evaluated globalWrite)] at ends
  have marked : write name value middle =
      { globalWrite name value middle with env := middle.env + 1 } := if_pos ⟨rfl, rfl⟩
  have env : middle.env + 1 = (globalWrite name value middle).env :=
    congrArg Machine.env (marked.symm.trans states)
  have still : (globalWrite name value middle).env = middle.env :=
    (middle.steady_assign name value true).env
  exact absurd (env.trans still) (Nat.succ_ne_self _)

end Eval

namespace Machine

/-- A run moves the machine, and names no variable like this in a module that runs inside blocks. -/
structure Sparing (id : EnvId) (name : String) (before after : Machine) : Prop where
  reaches : before.Reaches after
  unnamed : id < before.environments.size → before.Enclosed id → name ∈ after.namesOf id →
    name ∈ before.namesOf id

namespace Sparing

variable {id : EnvId} {name : String} {before middle after : Machine}

theorem refl (id : EnvId) (name : String) (machine : Machine) : Sparing id name machine machine :=
  ⟨.refl machine, fun _ _ named => named⟩

theorem trans (head : Sparing id name before middle) (tail : Sparing id name middle after) :
    Sparing id name before after where
  reaches := head.reaches.trans tail.reaches
  unnamed real enclosed named :=
    head.unnamed real enclosed
      (tail.unnamed (real.trans_le head.reaches.size_le) (head.reaches.enclosed enclosed) named)

theorem of_namesOf (reaches : before.Reaches after)
    (same : id < before.environments.size → before.Enclosed id → after.namesOf id = before.namesOf id) :
    Sparing id name before after :=
  ⟨reaches, fun real enclosed named => same real enclosed ▸ named⟩

/-- A part in a place of its own. -/
theorem place {start next : Machine} (inside : Sparing id name start after)
    (reaches : before.Reaches next)
    (entered : id < before.environments.size → before.Enclosed id →
      id < start.environments.size ∧ start.Enclosed id ∧ start.namesOf id = before.namesOf id)
    (left : next.namesOf id = after.namesOf id) : Sparing id name before next where
  reaches := reaches
  unnamed real enclosed named := by
    obtain ⟨still, within, same⟩ := entered real enclosed
    rw [left] at named
    exact same ▸ inside.unnamed still within named

end Sparing

/-- The write that leaves out one name of one module. -/
def withhold (id : EnvId) (name : String) : GlobalWrite := fun other value machine =>
  if machine.env = id ∧ normalizeName other = name then machine
  else Eval.globalWrite other value machine

theorem sparing_withhold (id : EnvId) (name other : String) (value : Value) (machine : Machine) :
    Sparing id name machine (withhold id name other value machine) := by
  unfold withhold
  split
  · exact .refl id name machine
  · rename_i apart
    refine ⟨.assign machine other value true, fun _ _ named => ?_⟩
    rcases mem_namesOf_setGlobal named with own | ⟨running, same⟩
    · exact own
    · exact absurd ⟨running, same.symm⟩ apart

end Machine

namespace Run

variable {id : EnvId} {name : String} {realm : Realm} {α β : Type}

/-- From every state, a computation spares a name of a module. -/
def Sparing (id : EnvId) (name : String) : Run.Relation := fun _ _ action _ =>
  ∀ before, Machine.Sparing id name before (action before).2

namespace Sparing

variable {action other : Run α}

theorem same {outcome : Machine → Except Fault α} :
    Sparing id name realm (fun before => (outcome before, before)) other :=
  fun before => .refl id name before

theorem bind {next nextOther : α → Run β} (first : Sparing id name realm action other)
    (then_ : ∀ value, Sparing id name realm (next value) (nextOther value)) :
    Sparing id name realm (action >>= next) (other >>= nextOther) := by
  intro before
  have head := first before
  rw [bind_apply]
  rcases outcome : action before with ⟨fault | result, after⟩
  all_goals rw [outcome] at head
  · exact head
  · exact head.trans (then_ result after)

/-- What is made of a result changes nothing. -/
theorem map_apply {before : Machine} (inside : Machine.Sparing id name before (action before).2)
    (f : α → β) : Machine.Sparing id name before ((do return f (← action) : Run β) before).2 := by
  rw [bind_apply]
  rcases outcome : action before with ⟨fault | result, after⟩
  all_goals rw [outcome] at inside
  all_goals exact inside

theorem tryCatch {handler handlerOther : Fault → Run α} (first : Sparing id name realm action other)
    (handled : ∀ fault, Sparing id name realm (handler fault) (handlerOther fault)) :
    Sparing id name realm (MonadExcept.tryCatch action handler)
      (MonadExcept.tryCatch other handlerOther) := by
  intro before
  have head := first before
  rw [tryCatch_apply]
  rcases outcome : action before with ⟨fault | result, after⟩
  all_goals rw [outcome] at head
  · exact head.trans (handled fault after)
  · exact head

theorem look {next nextOther : Machine → Run β}
    (each : ∀ machine, Sparing id name realm (next machine) (nextOther machine)) :
    Sparing id name realm (MonadState.get >>= next) (MonadState.get >>= nextOther) :=
  fun before => each before before

theorem located {line : Nat} (inside : Sparing id name realm action other) :
    Sparing id name realm (Run.located line action) (Run.located line other) := by
  intro before
  have within := inside before
  unfold Run.located
  rcases outcome : action before with ⟨_ | _, _⟩
  all_goals rw [outcome] at within
  all_goals exact within

/-- A change of an environment that leaves the variables as they are. -/
theorem change {target : Machine → EnvId} {f : Machine → Environment → Environment}
    (kept : ∀ machine environment, (f machine environment).vars = environment.vars) :
    Sparing id name realm
      (modify fun machine : Machine => machine.modifyEnvironment (target machine) (f machine))
      (modify fun machine : Machine => machine.modifyEnvironment (target machine) (f machine)) :=
  fun before => .of_namesOf (.change before (target before) (f before)) fun _ _ =>
    before.namesOf_modify (target before) (kept before) id

/-- A part whose place has the environments of the state around. -/
theorem enclosed {enter : Machine → Machine} {leave : Machine → Machine → Machine}
    (reaches : ∀ before after, (enter before).Reaches after → before.Reaches (leave before after))
    (entered : ∀ before, (enter before).environments = before.environments)
    (sheltered : ∀ before : Machine, before.Enclosed id → (enter before).Enclosed id)
    (left : ∀ before after, (leave before after).environments = after.environments)
    (inside : Sparing id name realm action other) :
    Sparing id name realm (Run.enclosed enter leave action) (Run.enclosed enter leave other) := by
  intro before
  have within := inside (enter before)
  refine within.place (reaches before _ within.reaches) (fun real enclosed => ?_) ?_
  · exact ⟨by rwa [entered], sheltered before enclosed,
      congrArg (fun environments => ((environments[id]?).getD .empty).vars.names) (entered before)⟩
  · exact congrArg (fun environments : Array Environment =>
      ((environments[id]?).getD .empty).vars.names) (left before _)

end Sparing

end Run

end Scss
