import Scss.Proofs.Evolution

/-! What is around a statement when it starts is around it when it ends. Every part that runs in a
place of its own puts its surroundings back, on success and on failure, and no other move touches
them. The values of variables are no surroundings, so of a frame only its kind counts. -/
namespace Scss

/-- A block that waits for `@content`, and the kinds of the frames that it will run in. -/
structure WaitingBlock where
  block : Option (ContentBlock Statement)
  env : EnvId
  frames : List Bool

/-- What is around a statement: the running module, the selector and the media query, the file and
the files that load it, the kinds of the frames, and the blocks that wait. -/
structure Surroundings where
  env : EnvId
  selector : Option String
  media : Option String
  file : String
  loading : List String
  frames : List Bool
  contents : List WaitingBlock

def frameKinds (frames : List Frame) : List Bool := frames.map Frame.semiGlobal

def ContentFrame.waiting (content : ContentFrame) : WaitingBlock :=
  ⟨content.block, content.env, frameKinds content.frames⟩

namespace Machine

def surroundings (machine : Machine) : Surroundings where
  env := machine.env
  selector := machine.selector
  media := machine.media
  file := machine.file
  loading := machine.loading
  frames := frameKinds machine.frames
  contents := machine.contents.map ContentFrame.waiting

theorem frameKinds_setInFrames {name : String} {value : Value} {frames changed : List Frame}
    (found : setInFrames? name value frames = some changed) :
    frameKinds changed = frameKinds frames := by
  induction frames generalizing changed with
  | nil => simp [setInFrames?] at found
  | cons frame rest ih =>
    unfold setInFrames? at found
    split at found
    · obtain rfl := Option.some.inj found
      rfl
    · obtain ⟨inner, search, rfl⟩ := Option.map_eq_some_iff.mp found
      simp only [frameKinds, List.map_cons] at ih ⊢
      rw [ih search]

theorem surroundings_define (machine : Machine) (name : String) (value : Value) :
    (machine.define name value).surroundings = machine.surroundings := by
  cases frames : machine.frames with
  | nil => simp [define, frames, setGlobal, modifyEnvironment, surroundings]
  | cons frame rest => simp [define, frames, surroundings, frameKinds]

theorem surroundings_assign (machine : Machine) (name : String) (value : Value) (global : Bool) :
    (machine.assign name value global).surroundings = machine.surroundings := by
  unfold assign
  dsimp only
  split
  · rfl
  · split
    · rename_i changed found
      simp only [surroundings, frameKinds_setInFrames found]
    · split
      · rfl
      · exact surroundings_define machine _ value

theorem surroundings_eq_iff {first second : Machine} :
    first.surroundings = second.surroundings ↔
      first.env = second.env ∧ first.selector = second.selector ∧ first.media = second.media ∧
      first.file = second.file ∧ first.loading = second.loading ∧
      frameKinds first.frames = frameKinds second.frames ∧
      first.contents.map ContentFrame.waiting = second.contents.map ContentFrame.waiting := by
  simp only [surroundings, Surroundings.mk.injEq]

/-- No move of the machine changes what is around. -/
theorem Reaches.surroundings_eq {before after : Machine} (moves : Reaches before after) :
    after.surroundings = before.surroundings := by
  induction moves with
  | refl => rfl
  | trans _ _ first second => exact second.trans first
  | log | draw | note | hoist | change | extend | learn => rfl
  | define machine name value => exact surroundings_define machine name value
  | assign machine name value global => exact surroundings_assign machine name value global
  | frame semiGlobal inside ih =>
    obtain ⟨env, selector, media, file, loading, frames, contents⟩ := surroundings_eq_iff.mp ih
    refine surroundings_eq_iff.mpr ⟨env, selector, media, file, loading, ?_, contents⟩
    simpa only [frameKinds, List.map_tail, List.map_cons, List.tail_cons] using
      congrArg List.tail frames
  | selector selector inside ih =>
    obtain ⟨env, _, media, file, loading, frames, contents⟩ := surroundings_eq_iff.mp ih
    exact surroundings_eq_iff.mpr ⟨env, rfl, media, file, loading, frames, contents⟩
  | media query inside ih =>
    obtain ⟨env, selector, _, file, loading, frames, contents⟩ := surroundings_eq_iff.mp ih
    exact surroundings_eq_iff.mpr ⟨env, selector, rfl, file, loading, frames, contents⟩
  | function env inside ih =>
    obtain ⟨_, selector, media, file, loading, _, contents⟩ := surroundings_eq_iff.mp ih
    exact surroundings_eq_iff.mpr ⟨rfl, selector, media, file, loading, rfl, contents⟩
  | @mixin machine after env block inside ih =>
    obtain ⟨_, selector, media, file, loading, _, contents⟩ := surroundings_eq_iff.mp ih
    -- The includer's frames come back from the block that waits, not from the state before.
    obtain ⟨own, outer, stack, waiting, others⟩ := List.map_eq_cons_iff.mp contents
    have kinds : frameKinds own.frames = frameKinds machine.frames :=
      congrArg WaitingBlock.frames waiting
    refine surroundings_eq_iff.mpr ⟨rfl, selector, media, file, loading, ?_, ?_⟩
    · simpa only [stack, List.head?_cons, Option.map_some, Option.getD_some] using kinds
    · simpa only [stack, List.tail_cons] using others
  | @content machine after content outer handed inside ih =>
    obtain ⟨_, selector, media, file, loading, frames, contents⟩ := surroundings_eq_iff.mp ih
    refine surroundings_eq_iff.mpr ⟨rfl, selector, media, file, loading, rfl, ?_⟩
    have kinds : frameKinds after.frames.tail = frameKinds content.frames := by
      simpa only [frameKinds, List.map_tail, List.map_cons, List.tail_cons] using
        congrArg List.tail frames
    simp only [handed, List.map_cons, ContentFrame.waiting, kinds, contents]
  | module env path inside ih =>
    obtain ⟨_, _, _, _, loading, _, contents⟩ := surroundings_eq_iff.mp ih
    refine surroundings_eq_iff.mpr ⟨rfl, rfl, rfl, rfl, ?_, rfl, contents⟩
    exact congrArg List.tail loading
  | file path inside ih =>
    obtain ⟨env, selector, media, _, loading, frames, contents⟩ := surroundings_eq_iff.mp ih
    refine surroundings_eq_iff.mpr ⟨env, selector, media, rfl, ?_, frames, contents⟩
    exact congrArg List.tail loading

section Moves

variable {setup : Setup} {realm : Realm} {before after : Machine}
  (moves : Moves setup realm before after)

include moves

theorem Moves.env_eq : after.env = before.env := by
  obtain ⟨env, -, -, -, -, -, -⟩ := surroundings_eq_iff.mp moves.reaches.surroundings_eq
  exact env

theorem Moves.selector_eq : after.selector = before.selector := by
  obtain ⟨-, selector, -, -, -, -, -⟩ := surroundings_eq_iff.mp moves.reaches.surroundings_eq
  exact selector

theorem Moves.file_eq : after.file = before.file := by
  obtain ⟨-, -, -, file, -, -, -⟩ := surroundings_eq_iff.mp moves.reaches.surroundings_eq
  exact file

/-- The same files are being loaded as before. -/
theorem Moves.loading_eq : after.loading = before.loading := by
  obtain ⟨-, -, -, -, loading, -, -⟩ := surroundings_eq_iff.mp moves.reaches.surroundings_eq
  exact loading

/-- The same blocks wait as before, for the same modules. -/
theorem Moves.blocks_eq :
    after.contents.map (fun content => (content.block, content.env)) =
      before.contents.map (fun content => (content.block, content.env)) := by
  obtain ⟨-, -, -, -, -, -, contents⟩ := surroundings_eq_iff.mp moves.reaches.surroundings_eq
  simpa only [List.map_map, Function.comp_def, ContentFrame.waiting] using
    congrArg (List.map fun waiting => (waiting.block, waiting.env)) contents

theorem Moves.envs_eq :
    after.contents.map ContentFrame.env = before.contents.map ContentFrame.env := by
  simpa only [List.map_map, Function.comp_def] using congrArg (List.map Prod.snd) moves.blocks_eq

theorem Moves.length_contents : after.contents.length = before.contents.length := by
  simpa only [List.length_map] using congrArg List.length moves.blocks_eq

end Moves

end Machine

/-- Statements put back what is around them, whether they succeed or a fault leaves them at any depth:
the running module, the selector, the media query, the file, the files that are being loaded, the
number and kinds of the frames, and the waiting blocks with their modules. -/
theorem Eval.block_restores_surroundings (setup : Setup) (depth : Nat) (level : Nat)
    (nodes : List Statement) (before : Machine) :
    let after := (perform setup depth (.block (.style level) nodes) before).2
    after.env = before.env ∧ after.selector = before.selector ∧ after.media = before.media ∧
    after.file = before.file ∧ after.loading = before.loading ∧
    after.frames.map Frame.semiGlobal = before.frames.map Frame.semiGlobal ∧
    after.contents.map (fun content => (content.block, content.env)) =
      before.contents.map (fun content => (content.block, content.env)) := by
  intro after
  have moves : before.Reaches after :=
    (perform_evolves setup depth (.block (.style level) nodes)).reaches before
  obtain ⟨env, selector, media, file, loading, frames, contents⟩ :=
    Machine.surroundings_eq_iff.mp moves.surroundings_eq
  refine ⟨env, selector, media, file, loading, frames, ?_⟩
  simpa only [List.map_map, Function.comp_def, ContentFrame.waiting] using
    congrArg (List.map fun waiting => (waiting.block, waiting.env)) contents

end Scss
