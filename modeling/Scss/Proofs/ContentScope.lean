import Mathlib.Logic.Relation
import Scss.Compiler
import Scss.Proofs.Moves.Watch
import Scss.Proofs.Surroundings

/-! Blocks that are handed to a mixin run in the includer's scope. While the mixin runs, the
includer's module and frames wait in an entry of the stack of blocks; whatever is above, that entry
is changed by runs of its own block alone. So whenever the block runs, it runs in the includer's
module, over the includer's frames as its earlier runs have left them, and in one new frame that
holds its parameters. -/
namespace Scss

theorem normalizeName_idem (name : String) :
    normalizeName (normalizeName name) = normalizeName name := by
  simp only [normalizeName, String.toList_ofList, List.map_map]
  congr 2
  funext c
  by_cases underscore : c = '_'
  · subst underscore
    decide
  · simp [underscore]

def Parameters.names (params : Parameters) : List String :=
  params.params.map (fun param => normalizeName param.name) ++ params.rest.toList.map normalizeName

namespace Machine

/-- The innermost frame holds variables of these names and no others, over other frames in a module.
-/
structure Holds (env : EnvId) (frames : List Frame) (contents : List ContentFrame)
    (names : List String) (machine : Machine) : Prop where
  env : machine.env = env
  frames : ∃ vars, machine.frames = ⟨vars, false⟩ :: frames ∧ ∀ name, name ∈ vars.names ↔ name ∈ names
  contents : machine.contents = contents

/-- A run of a block leads from the frames and the waiting blocks that it starts with to those that
it leaves. -/
def Revises (setup : Setup) (block : ContentBlock Statement) (env : EnvId)
    (scope next : List Frame × List ContentFrame) : Prop :=
  ∃ start after, start.env = env ∧ start.frames = .fresh false :: scope.1 ∧
    start.contents = scope.2 ∧ RunsBlock setup block start after ∧
    next = (after.frames.tail, after.contents)

/-- Frames and waiting blocks as any number of runs of a block have left them. -/
def Revised (setup : Setup) (block : ContentBlock Statement) (env : EnvId) :
    List Frame × List ContentFrame → List Frame × List ContentFrame → Prop :=
  Relation.ReflTransGen (Revises setup block env)

section Entries

variable {setup : Setup} {realm : Realm} {machine next after : Machine}
  {block : ContentBlock Statement} {env : EnvId}

theorem Revised.length_eq {scope next : List Frame × List ContentFrame}
    (revised : Revised setup block env scope next) : next.2.length = scope.2.length := by
  induction revised with
  | refl => rfl
  | tail _ last ih =>
    obtain ⟨start, after, -, -, contents, ⟨depth, values, level, rfl⟩, rfl⟩ := last
    have moves := Eval.runBlock_moves setup depth start block values level
    rw [← ih, ← contents]
    exact Moves.length_contents moves

/-- An entry of the stack stays where it is, and runs of its block alone change its frames and what
is below. -/
theorem Moves.entry {above outer : List ContentFrame} {frames : List Frame}
    (moves : Moves setup realm machine after)
    (stack : machine.contents = above ++ ⟨some block, env, frames⟩ :: outer) :
    ∃ above' frames' outer', after.contents = above' ++ ⟨some block, env, frames'⟩ :: outer' ∧
      above'.length = above.length ∧
      Revised setup block env (frames, outer) (frames', outer') := by
  induction moves generalizing above frames outer with
  | refl => exact ⟨above, frames, outer, stack, rfl, .refl⟩
  | trans _ _ first second =>
    obtain ⟨above₁, frames₁, outer₁, stack₁, length₁, revised₁⟩ := first stack
    obtain ⟨above₂, frames₂, outer₂, stack₂, length₂, revised₂⟩ := second stack₁
    exact ⟨above₂, frames₂, outer₂, stack₂, length₂.trans length₁, revised₁.trans revised₂⟩
  | change change => exact ⟨above, frames, outer, change.contents_eq.trans stack, rfl, .refl⟩
  | @place realm inner machine start after next exit place inside left ih =>
    cases place with
    | frame | selector | media | function | file =>
      subst left
      exact ih stack
    | @module _ url sheet found unknown unopened configured complete =>
      subst left
      cases complete <;> exact ih stack
    | mixin found handed =>
      subst left
      obtain ⟨above', frames', outer', stack', length', revised'⟩ :=
        @ih (⟨handed, machine.env, machine.frames⟩ :: above) outer frames (congrArg (_ :: ·) stack)
      cases above' with
      | nil => cases length'
      | cons top above' =>
        refine ⟨above', frames', outer', ?_, Nat.succ.inj length', revised'⟩
        rw [leaveMixin, stack']
        rfl
    | @content _ content below handedBlock handed given =>
      obtain ⟨run, rfl⟩ := left
      have same := handed.symm.trans stack
      cases above with
      | nil =>
        -- The block of the entry itself runs, so the entry is the top of the stack.
        obtain ⟨rfl, rfl⟩ := List.cons.inj same
        obtain rfl := Option.some.inj given
        exact ⟨[], _, _, rfl, rfl, .single ⟨_, _, rfl, rfl, rfl, run, rfl⟩⟩
      | cons top above =>
        obtain ⟨rfl, rfl⟩ := List.cons.inj same
        obtain ⟨above', frames', outer', stack', length', revised'⟩ := ih rfl
        refine ⟨{ content with frames := after.frames.tail } :: above', frames', outer', ?_,
          congrArg (· + 1) length', revised'⟩
        rw [leaveContent, stack']
        rfl

end Entries

section Scopes

variable {setup : Setup} {machine after : Machine} {env : EnvId} {frames : List Frame}
  {contents : List ContentFrame} {names : List String}

theorem Holds.define (holds : machine.Holds env frames contents names) (name : String)
    (value : Value) :
    (machine.define name value).Holds env frames contents (names ++ [normalizeName name]) := by
  obtain ⟨running, ⟨vars, top, members⟩, waiting⟩ := holds
  have defined : machine.define name value =
      { machine with frames := ⟨vars.set (normalizeName name) value, false⟩ :: frames } := by
    rw [Machine.define, top]
  refine ⟨by rw [defined, ← running], ⟨vars.set (normalizeName name) value, by rw [defined], ?_⟩,
    by rw [defined, ← waiting]⟩
  intro other
  rw [Bindings.mem_names_set, members, List.mem_append, List.mem_singleton]

theorem Holds.moves (holds : machine.Holds env frames contents names)
    (moves : Moves setup .value machine after) : after.Holds env frames contents names := by
  have steady : Steady machine after := moves.steady (by decide)
  exact ⟨steady.env.trans holds.env, moves.frames_eq ▸ holds.frames,
    steady.contents.trans holds.contents⟩

end Scopes

end Machine

/-- From a state, two computations do the same, and what they result in is good. -/
def Run.AgreeAt {α : Type} (post : α → Machine → Prop) (action other : Run α) (before : Machine) :
    Prop :=
  action before = other before ∧
  ∀ value after, other before = (.ok value, after) → post value after

theorem Run.AgreeAt.bind {α β : Type} {action other : Run α} {next nextOther : α → Run β}
    {middle : α → Machine → Prop} {post : β → Machine → Prop} {before : Machine}
    (first : AgreeAt middle action other before)
    (second : ∀ value after, middle value after → AgreeAt post (next value) (nextOther value) after) :
    AgreeAt post (action >>= next) (other >>= nextOther) before := by
  obtain ⟨same, results⟩ := first
  unfold AgreeAt
  rw [bind_apply, bind_apply, same]
  cases outcome : other before with
  | mk result after =>
    cases result with
    | error fault => exact ⟨rfl, fun _ _ done => nomatch done⟩
    | ok value => exact second value after (results value after outcome)

namespace Eval

open Machine (Moves Holds Revised)
open Run (AgreeAt Follow)

section Binding

variable {setup : Setup} {left right : Perform} {machine : Machine} {env : EnvId}
  {frames : List Frame} {contents : List ContentFrame} {names : List String}
  (agree : ∀ {expr names machine}, machine.Holds env frames contents names →
    left (.evaluate expr false) machine = right (.evaluate expr false) machine)
  (moves : ∀ expr machine, Moves setup .value machine (right (.evaluate expr false) machine).2)

include agree moves

theorem bindOne_agreeAt (holds : machine.Holds env frames contents names) (callee : String)
    (args : CallArgs) (param : Parameter) :
    AgreeAt (fun _ after => after.Holds env frames contents (names ++ [normalizeName param.name]))
      (bindOne left callee args param) (bindOne right callee args param) machine := by
  have defines {state : Machine} (still : state.Holds env frames contents names) (value : Value) :
      (state.define (normalizeName param.name) value).Holds env frames contents
        (names ++ [normalizeName param.name]) := by
    have held := still.define (normalizeName param.name) value
    rwa [normalizeName_idem] at held
  unfold bindOne
  dsimp only
  split
  · refine ⟨rfl, fun _ _ done => ?_⟩
    cases done
    exact defines holds _
  · refine ⟨rfl, fun _ _ done => ?_⟩
    cases done
    exact defines holds _
  · split
    · rename_i expr _
      have evaluated : AgreeAt (fun _ after => after.Holds env frames contents names)
          (left (.evaluate expr false)) (right (.evaluate expr false)) machine := by
        refine ⟨agree holds, fun value after done => ?_⟩
        have reached := moves expr machine
        rw [done] at reached
        exact holds.moves reached
      refine evaluated.bind fun value after still => ⟨rfl, fun _ _ done => ?_⟩
      cases done
      exact defines still value
    · exact ⟨rfl, fun _ _ done => nomatch done⟩

theorem bindAll_agreeAt (params : List Parameter) (holds : machine.Holds env frames contents names)
    (callee : String) (args : CallArgs) :
    AgreeAt
      (fun _ after => after.Holds env frames contents
        (names ++ params.map fun param => normalizeName param.name))
      (params.foldlM (bindOne left callee) args) (params.foldlM (bindOne right callee) args)
      machine := by
  induction params generalizing machine names args with
  | nil =>
    refine ⟨rfl, fun _ _ done => ?_⟩
    cases done
    rwa [List.map_nil, List.append_nil]
  | cons param rest ih =>
    rw [List.foldlM_cons, List.foldlM_cons]
    refine (bindOne_agreeAt agree moves holds callee args param).bind fun values after still => ?_
    simpa only [List.append_assoc, List.map_cons, List.singleton_append] using ih still values

/-- Behind its definition the parameters of a block, and nothing else, are in the innermost frame.
-/
theorem bind_agreeAt (params : Parameters) (holds : machine.Holds env frames contents [])
    (args : CallArgs) (callee : String) :
    AgreeAt (fun _ after => after.Holds env frames contents params.names)
      (bind left params args callee) (bind right params args callee) machine := by
  refine (bindAll_agreeAt agree moves params.params holds callee args).bind
    fun remaining after still => ?_
  rw [List.nil_append] at still
  unfold Parameters.names
  cases params.rest with
  | some rest =>
    refine ⟨rfl, fun _ _ done => ?_⟩
    cases done
    exact still.define rest _
  | none =>
    obtain ⟨positional, named⟩ := remaining
    cases positional with
    | cons => exact ⟨rfl, fun _ _ done => nomatch done⟩
    | nil =>
      cases named with
      | cons => exact ⟨rfl, fun _ _ done => nomatch done⟩
      | nil =>
        refine ⟨rfl, fun _ _ done => ?_⟩
        cases done
        simpa using still

end Binding

section Watching

variable (setup : Setup) (block : ContentBlock Statement) (includer : Machine)

/-- The scope of a block that an includer has handed over: the includer's module, the includer's
frames as earlier runs of the block have left them, and one frame more that holds variables of these
names. -/
def InScope (names : List String) (machine : Machine) : Prop :=
  ∃ frames,
    Revised setup block includer.env (includer.frames, includer.contents) (frames, machine.contents) ∧
    machine.Holds includer.env frames machine.contents names

/-- The watch over a block that an includer has handed to a mixin. While more blocks wait than wait
for the includer, the mixin runs, and the watch goes on. Otherwise the block runs: its statements
are expected to start with its parameters, and before them the defaults of parameters may have their
values. -/
def blockWatch : Watch where
  stays machine := includer.contents.length < machine.contents.length
  expects job machine := includer.contents.length < machine.contents.length ∨
    match job with
    | .block (.style _) nodes =>
      nodes = block.body ∧ InScope setup block includer block.params.names machine
    | .evaluate _ _ => ∃ names, InScope setup block includer names machine
    | _ => False

/-- The entry of the block is in the stack, with frames that runs of the block have left. -/
def Waits (machine : Machine) : Prop :=
  ∃ above frames outer,
    machine.contents = above ++ ⟨some block, includer.env, frames⟩ :: outer ∧
    Revised setup block includer.env (includer.frames, includer.contents) (frames, outer)

variable {setup block includer}

theorem Waits.length_lt {machine : Machine} (waits : Waits setup block includer machine) :
    includer.contents.length < machine.contents.length := by
  obtain ⟨above, frames, outer, stack, revised⟩ := waits
  have below : outer.length = includer.contents.length := revised.length_eq
  rw [stack, List.length_append, List.length_cons]
  omega

theorem guard_waits : Machine.Guard setup fun _ => Waits setup block includer where
  moves moves waits := by
    obtain ⟨above, frames, outer, stack, revised⟩ := waits
    obtain ⟨above', frames', outer', stack', -, revised'⟩ := moves.entry stack
    exact ⟨above', frames', outer', stack', revised.trans revised'⟩
  value waits := waits
  enter _ same waits := by
    obtain ⟨above, frames, outer, stack, revised⟩ := waits
    exact ⟨above, frames, outer, same.trans stack, revised⟩

/-- The block itself starts as expected, and its run is left alone. -/
theorem runBlock_watched {machine : Machine} {frames : List Frame} {outer : List ContentFrame}
    (revised : Revised setup block includer.env (includer.frames, includer.contents) (frames, outer))
    (alarm : Perform) (depth : Nat) (values : CallArgs) (level : Nat) :
    runBlock (watched setup (blockWatch setup block includer) alarm depth) block values level
        (machine.enterContent ⟨some block, includer.env, frames⟩ outer) =
      runBlock (perform setup depth) block values level
        (machine.enterContent ⟨some block, includer.env, frames⟩ outer) := by
  have below : outer.length = includer.contents.length := revised.length_eq
  have starts {names : List String} {state : Machine}
      (holds : state.Holds includer.env frames outer names) :
      InScope setup block includer names state ∧
        ¬ (blockWatch setup block includer).stays state := by
    refine ⟨⟨frames, ?_, ?_⟩, ?_⟩
    · rwa [holds.contents]
    · rwa [holds.contents]
    · change ¬ includer.contents.length < state.contents.length
      rw [holds.contents, below]
      exact lt_irrefl _
  have fresh : (machine.enterContent ⟨some block, includer.env, frames⟩ outer).Holds includer.env
      frames outer [] := ⟨rfl, ⟨[], rfl, by simp [Bindings.names]⟩, rfl⟩
  have agree {expr : Expr} {names : List String} {state : Machine}
      (holds : state.Holds includer.env frames outer names) :
      watched setup (blockWatch setup block includer) alarm depth (.evaluate expr false) state =
        perform setup depth (.evaluate expr false) state :=
    watched_unwatched (Or.inr ⟨names, (starts holds).1⟩) (starts holds).2 depth
  have moves (expr : Expr) (state : Machine) :
      Moves setup .value state (perform setup depth (.evaluate expr false) state).2 :=
    perform_moves setup depth (.evaluate expr false) state
  have bound := bind_agreeAt agree moves block.params fresh values "@content"
  have statements (state : Machine)
      (holds : state.Holds includer.env frames outer block.params.names) :
      AgreeAt (fun _ _ => True)
        (watched setup (blockWatch setup block includer) alarm depth
          (.block (.style level) block.body))
        (perform setup depth (.block (.style level) block.body)) state :=
    ⟨watched_unwatched (Or.inr ⟨rfl, (starts holds).1⟩) (starts holds).2 depth, fun _ _ _ => trivial⟩
  exact (bound.bind fun _ state holds => statements state holds).1

/-- Whenever the block runs inside the mixin, it starts as expected. -/
theorem blockWatch_follow (alarm : Perform) (depth : Nat) {α : Type} (job : Job α) :
    Follow setup (fun _ => Waits setup block includer) job.realm
      (watched setup (blockWatch setup block includer) alarm depth job)
      (perform setup depth job) := by
  refine watched_follow (fun job _ waits => Or.inl waits.length_lt) (fun depth ih => ?_) depth job
  have guard : Machine.Guard setup fun _ => Waits setup block includer := guard_waits
  refine { guard with mixin := ?_, content := ?_ }
  · intro machine qualifier name mixin handed _ waits
    obtain ⟨above, frames, outer, stack, revised⟩ := waits
    exact ⟨⟨handed, machine.env, machine.frames⟩ :: above, frames, outer,
      congrArg (_ :: ·) stack, revised⟩
  · intro machine content below handedBlock values level handed given waits
    obtain ⟨above, frames, outer, stack, revised⟩ := waits
    have same := handed.symm.trans stack
    cases above with
    | nil =>
      obtain ⟨rfl, rfl⟩ := List.cons.inj same
      obtain rfl := Option.some.inj given
      refine ⟨runBlock_watched revised alarm depth values level, ?_⟩
      exact runBlock_moves setup depth _ _ values level
    | cons top above =>
      obtain ⟨rfl, rfl⟩ := List.cons.inj same
      exact runBlock_related (guard.logic ih) handedBlock (fun _ _ => trivial) values level _
        ⟨above, frames, outer, rfl, revised⟩

end Watching

section Slots

variable {setup : Setup} {depth : Nat} {args : List (Argument Expr)} {values : CallArgs}
  {machine middle : Machine}
  (valued : arguments (perform setup depth) args machine = (.ok values, middle))

include valued

/-- The values of arguments leave the scope as it is. -/
theorem arguments_steady : Machine.Steady machine middle ∧ middle.frames = machine.frames := by
  obtain ⟨-, moves⟩ := arguments_related (logic_always setup depth) args machine trivial
  rw [valued] at moves
  exact ⟨Moves.steady moves (by decide), Moves.frames_eq moves⟩

/-- An `@include` with a block: whenever the block runs, it starts as expected, and the includer
goes on with what the runs of the block have left. -/
theorem includeMixin_scope {qualifier : Option String} {name : String} {mixin : Callable}
    (found : machine.mixin? qualifier name = .ok (some mixin)) (block : ContentBlock Statement)
    (level : Nat) :
    ∃ result after frames outer,
      (∀ alarm, runMixin (watched setup (blockWatch setup block machine) alarm depth) mixin values
        level (middle.enterMixin mixin.env (some block)) = (result, after)) ∧
      runMixin (perform setup depth) mixin values level
        (middle.enterMixin mixin.env (some block)) = (result, after) ∧
      after.contents = ⟨some block, machine.env, frames⟩ :: outer ∧
      Revised setup block machine.env (machine.frames, machine.contents) (frames, outer) ∧
      includeMixin (perform setup depth) qualifier name args (some block) level machine =
        (result.map Yield.body,
          { after with env := machine.env, frames := frames, contents := outer }) := by
  obtain ⟨steady, same⟩ := arguments_steady valued
  let start := middle.enterMixin mixin.env (some block)
  let run := runMixin (perform setup depth) mixin values level
  have stack : start.contents = [] ++ ⟨some block, machine.env, machine.frames⟩ ::
      machine.contents := by
    rw [← steady.env, ← same, ← steady.contents]
    rfl
  have moves : Moves setup .style start (run start).2 :=
    runMixin_moves setup depth start mixin values level
  obtain ⟨above, frames, outer, stack', length, revised⟩ := moves.entry stack
  obtain rfl := List.eq_nil_of_length_eq_zero length
  refine ⟨(run start).1, (run start).2, frames, outer, fun alarm => ?_, rfl, stack', revised, ?_⟩
  · have waits : Waits setup block machine start := ⟨[], _, _, stack, .refl⟩
    have guard : Machine.Guard setup fun _ => Waits setup block machine := guard_waits
    have logic := guard.logic (blockWatch_follow alarm depth)
    exact (runMixin_related logic mixin (fun _ _ => trivial) values level start waits).1
  · have included : Run.inMixin mixin.env (some block) run middle =
        ((run start).1,
          { (run start).2 with env := machine.env, frames := frames, contents := outer }) := by
      change ((run start).1, middle.leaveMixin (run start).2) = _
      rw [Machine.leaveMixin, stack', steady.env]
      rfl
    rw [includeMixin_apply _ found, Run.bind_apply, valued]
    dsimp only
    rw [Run.bind_apply, included]
    cases (run start).1 <;> rfl

/-- An `@content` where a block waits: whether the block succeeds or fails, the mixin's module,
frames and stack of blocks are in place again. -/
theorem contentSlot_scope {content : ContentFrame} {outer : List ContentFrame}
    {block : ContentBlock Statement} (handed : machine.contents = content :: outer)
    (given : content.block = some block) (level : Nat) :
    ∃ result after,
      runBlock (perform setup depth) block values level (middle.enterContent content outer) =
        (result, after) ∧
      after.contents.map (fun other => (other.block, other.env)) =
        outer.map (fun other => (other.block, other.env)) ∧
      contentSlot (perform setup depth) args level machine =
        (result.map Yield.body,
          { after with
            env := machine.env
            frames := machine.frames
            contents := { content with frames := after.frames.tail } :: after.contents }) := by
  obtain ⟨steady, same⟩ := arguments_steady valued
  let start := middle.enterContent content outer
  let run := runBlock (perform setup depth) block values level
  have moves : Moves setup .style start (run start).2 :=
    runBlock_moves setup depth start block values level
  have stack : middle.contents = content :: outer := steady.contents.trans handed
  refine ⟨(run start).1, (run start).2, rfl, moves.blocks_eq, ?_⟩
  · have entered : Run.inContent content run middle =
        ((run start).1,
          { (run start).2 with
            env := machine.env
            frames := machine.frames
            contents := { content with frames := (run start).2.frames.tail } ::
              (run start).2.contents }) := by
      have tail : middle.enterContent content middle.contents.tail = start := by
        rw [stack]
        rfl
      change ((run (middle.enterContent content middle.contents.tail)).1,
        middle.leaveContent content
          (run (middle.enterContent content middle.contents.tail)).2) = _
      rw [tail, Machine.leaveContent, steady.env, same]
    rw [contentSlot_apply _ handed given, fillSlot_apply valued stack, Run.bind_apply, entered]
    cases (run start).1 <;> rfl

end Slots

/-- Blocks that are handed to a mixin run in the includer's scope. The values of arguments leave the
scope as it is; then, for an `@include` with a block, whenever the block runs it starts in the
includer's module, in one new frame that holds its parameters, over the includer's frames as earlier
runs of it have left them, so that no alarm of the watch is heard; behind the mixin the includer
goes on with the frames that the runs of the block have left. And for an `@content` where a block
waits, the mixin's module, frames and stack of blocks are in place again behind the block, whether
it succeeds or fails. -/
theorem content_in_includer_scope (setup : Setup) (depth level : Nat)
    (block : ContentBlock Statement) {args : List (Argument Expr)} {values : CallArgs}
    {machine middle : Machine}
    (valued : arguments (perform setup depth) args machine = (.ok values, middle)) :
    (middle.env = machine.env ∧ middle.frames = machine.frames ∧
      middle.contents = machine.contents) ∧
    (∀ qualifier name mixin, machine.mixin? qualifier name = .ok (some mixin) →
      ∃ result after frames outer,
        (∀ alarm, runMixin (watched setup (blockWatch setup block machine) alarm depth) mixin values
          level (middle.enterMixin mixin.env (some block)) = (result, after)) ∧
        runMixin (perform setup depth) mixin values level
          (middle.enterMixin mixin.env (some block)) = (result, after) ∧
        after.contents = ⟨some block, machine.env, frames⟩ :: outer ∧
        Revised setup block machine.env (machine.frames, machine.contents) (frames, outer) ∧
        includeMixin (perform setup depth) qualifier name args (some block) level machine =
          (result.map Yield.body,
            { after with env := machine.env, frames := frames, contents := outer })) ∧
    (∀ content outer, machine.contents = content :: outer → content.block = some block →
      ∃ result after,
        runBlock (perform setup depth) block values level (middle.enterContent content outer) =
          (result, after) ∧
        after.contents.map (fun other => (other.block, other.env)) =
          outer.map (fun other => (other.block, other.env)) ∧
        contentSlot (perform setup depth) args level machine =
          (result.map Yield.body,
            { after with
              env := machine.env
              frames := machine.frames
              contents := { content with frames := after.frames.tail } :: after.contents })) := by
  obtain ⟨steady, same⟩ := arguments_steady valued
  refine ⟨⟨steady.env, same, steady.contents⟩, ?_, ?_⟩
  · intro qualifier name mixin found
    exact includeMixin_scope valued found block level
  · intro content outer handed given
    exact contentSlot_scope valued handed given level

/-- `@include card using ($size)` in a block with a variable `$size` of its own, where the mixin is
one `@content`: the block of the include starts in the includer's scope. -/
theorem content_in_includer_scope_card :
    let setup := (Compiler.create {} (Loader.memory [])).setup
    let machine :=
      { (Machine.start "a.scss").defineMixin "card" .none [.contentSlot [] 1] with
        frames := [⟨[("size", .null)], false⟩] }
    let block : ContentBlock Statement := ⟨⟨[⟨"size", some (.null 1)⟩], none⟩, [.comment "/* size */" 1]⟩
    let mixin : Callable := ⟨"card", .none, [.contentSlot [] 1], 0⟩
    arguments (perform setup 5) [] machine = (.ok ⟨[], []⟩, machine) ∧
    machine.mixin? none "card" = .ok (some mixin) ∧
    ∃ result after frames outer,
      (∀ alarm, runMixin (watched setup (blockWatch setup block machine) alarm 5) mixin ⟨[], []⟩ 0
        (machine.enterMixin 0 (some block)) = (result, after)) ∧
      Revised setup block 0 (machine.frames, []) (frames, outer) ∧
      includeMixin (perform setup 5) none "card" [] (some block) 0 machine =
        (result.map Yield.body, { after with env := 0, frames := frames, contents := outer }) := by
  intro setup machine block mixin
  have valued : arguments (perform setup 5) [] machine = (.ok ⟨[], []⟩, machine) := rfl
  have found : machine.mixin? none "card" = .ok (some mixin) := rfl
  obtain ⟨-, included, -⟩ := content_in_includer_scope setup 5 0 block valued
  obtain ⟨result, after, frames, outer, watched, -, -, revised, run⟩ := included none "card" mixin found
  exact ⟨valued, found, result, after, frames, outer, watched, revised, run⟩

end Eval

end Scss
