import Scss.Proofs.Conduct

/-! Every job moves the machine by its moves alone, whether it succeeds or fails. Good states that are
kept by every move and at every entrance need no other conduct: from them, two performances do the same
if they do so wherever a block that waits is run. -/
namespace Scss

open Machine (Moves Place)

/-- From a state, two computations do the same, and move the machine by its moves. -/
def Run.FollowAt (setup : Setup) (realm : Realm) {α : Type} (action other : Run α)
    (before : Machine) : Prop :=
  action before = other before ∧ Moves setup realm before (other before).2

def Run.Follow (setup : Setup) (good : Realm → Machine → Prop) : Run.Relation :=
  fun realm _ action other => ∀ before, good realm before → FollowAt setup realm action other before

/-- Good states are kept by moves and at the entrances of places that leave the waiting blocks. -/
structure Machine.Guard (setup : Setup) (good : Realm → Machine → Prop) : Prop where
  moves : ∀ {realm machine after}, Moves setup realm machine after → good realm machine →
    good realm after
  value : ∀ {realm machine}, good realm machine → good .value machine
  enter : ∀ {realm machine inner start exit}, Place setup realm machine inner start exit →
    start.contents = machine.contents → good realm machine → good inner start

/-- Good states are kept at the entrance of a mixin too; and where a block that waits is run from a
good state, the two performances do the same. -/
structure Machine.FullGuard (setup : Setup) (left right : Perform)
    (good : Realm → Machine → Prop) : Prop extends Machine.Guard setup good where
  mixin : ∀ {machine qualifier name mixin} (block : Option (ContentBlock Statement)),
    machine.mixin? qualifier name = .ok (some mixin) → good .style machine →
    good .style (machine.enterMixin mixin.env block)
  content : ∀ {machine content outer block} values level, machine.contents = content :: outer →
    content.block = some block → good .style machine →
    Run.FollowAt setup .style (Eval.runBlock left block values level)
      (Eval.runBlock right block values level) (machine.enterContent content outer)

/-- The conduct that asks for good states only. -/
def Conduct.ofGood (good : Realm → Machine → Prop) : Conduct Unit where
  admits _ _ := True
  good _ := good
  fine _ := True
  within _ _ _ := trivial
  bare _ := trivial

namespace Machine.Guard

open Run (Obeys Follow FollowAt)

variable {setup : Setup} {left right : Perform} {good : Realm → Machine → Prop}
  {realm inner : Realm} {machine start : Machine} {exit : Machine → Machine → Prop}
  (guard : Machine.Guard setup good)

include guard

theorem passage (place : Place setup realm machine inner start exit) (holds : good realm machine)
    (entered : good inner start) :
    (Conduct.ofGood good).Passage setup () realm () inner start exit :=
  ⟨entered, fun moves _ left => guard.moves (.place place moves left) holds⟩

/-- Where the waiting blocks are left alone, a place is entered in a good state. -/
theorem passage_same (place : Place setup realm machine inner start exit)
    (same : start.contents = machine.contents) (holds : good realm machine) :
    (Conduct.ofGood good).Passage setup () realm () inner start exit :=
  guard.passage place holds (guard.enter place same holds)

theorem kept : (Conduct.ofGood good).Kept setup right where
  value := guard.value
  behind moves holds _ := guard.moves (moves.ofValue _) holds
  located _ _ _ _ _ := trivial
  raised _ _ _ _ := trivial
  unhandled _ := trivial
  change change _ := guard.moves (.change change)
  defineFunction _ := guard.moves (.change (.defineFunction _ _ _ _))
  defineMixin _ _ holds _ _ := guard.moves (.change (.defineMixin _ _ _ _)) holds
  use offered holds name := guard.moves (.change (.use offered name)) holds
  forward _ offered :=
    have passed : Change .style _ (passOn _ ⟨_, _, _⟩) := .forward offered
    guard.moves (.change passed)
  frame mode semiGlobal := guard.passage_same (.frame mode _ semiGlobal) rfl
  outside := guard.passage_same (.selector _ none) rfl
  function found holds :=
    ⟨(), fun _ _ => trivial, guard.passage_same (.function _ found) rfl holds⟩
  module _ _ found unknown unopened _ holds :=
    ⟨(), fun _ _ => trivial, fun complete =>
      guard.passage_same (.module found unknown unopened _ complete) rfl holds⟩
  file _ _ found unopened _ holds :=
    ⟨(), fun _ _ => trivial, guard.passage_same (.file found unopened) rfl holds⟩

theorem opened : (Conduct.ofGood good).Open setup where
  inside _ _ _ _ := trivial
  selector selector := guard.passage_same (.selector _ selector) rfl
  media query := guard.passage_same (.media _ query) rfl

/-- Keeping to good states is doing the same from good states. -/
theorem obeys_eq : @Obeys Unit setup (.ofGood good) () = @Follow setup good := by
  funext realm α action other
  refine propext (forall₂_congr fun before holds => ?_)
  constructor
  · intro obeys
    exact ⟨obeys.same, obeys.ends.moves⟩
  · intro follows
    exact ⟨follows.1, follows.2, guard.moves follows.2 holds, fun _ _ => trivial⟩

/-- Doing the same from good states goes along with the evaluator's ways. -/
theorem logic
    (inner : ∀ {α : Type} (job : Job α), Follow setup good job.realm (left job) (right job)) :
    Eval.Logic setup .free left right (Follow setup good) := by
  rw [← guard.obeys_eq] at inner ⊢
  exact guard.kept.logic fun job _ => inner job

end Machine.Guard

namespace Machine.FullGuard

open Run (Obeys Follow)

variable {setup : Setup} {left : Perform} {good : Realm → Machine → Prop} {depth : Nat}
  (guard : Machine.FullGuard setup left (fun job => Eval.perform setup depth job) good)

include guard

theorem served :
    (Conduct.ofGood good).Served setup left (fun job => Eval.perform setup depth job) where
  toKept := guard.kept
  mixin _ found holds :=
    ⟨(), fun _ _ => trivial, guard.passage (.mixin found _) holds (guard.mixin _ found holds)⟩
  content values level _ handed given holds := by
    obtain ⟨same, moves⟩ := guard.content values level handed given holds
    refine ⟨RunsBlock setup _ _, ⟨same, moves, ⟨depth, values, level, rfl⟩, fun _ _ => trivial⟩, ?_⟩
    intro after moves runs
    exact guard.moves (.place (.content handed given) moves ⟨runs, rfl⟩) holds

/-- Doing the same from good states goes along with the whole evaluator. -/
theorem blockLogic
    (inner : ∀ {α : Type} (job : Job α),
      Follow setup good job.realm (left job) (Eval.perform setup depth job)) :
    Eval.BlockLogic setup .free left (fun job => Eval.perform setup depth job) (Follow setup good) := by
  rw [← guard.obeys_eq] at inner ⊢
  exact Eval.blockLogic_of_conduct guard.served (fun _ _ job _ => inner job) guard.opened

end Machine.FullGuard

namespace Eval

open Run (Follow FollowAt)

theorem guard_always (setup : Setup) : Machine.Guard setup fun _ _ => True :=
  ⟨fun _ _ => trivial, fun _ => trivial, fun _ _ _ => trivial⟩

theorem blockLogic_follow {setup : Setup} {depth : Nat}
    (inner : ∀ {α : Type} (job : Job α), Follow setup (fun _ _ => True) job.realm
      (perform setup depth job) (perform setup depth job)) :
    BlockLogic setup .free (fun job => perform setup depth job) (fun job => perform setup depth job)
      (Follow setup fun _ _ => True) := by
  have guard : Machine.FullGuard setup (fun job => perform setup depth job)
      (fun job => perform setup depth job) fun _ _ => True :=
    { guard_always setup with
      mixin := fun _ _ _ => trivial
      content := fun values level _ _ _ =>
        runBlock_related ((guard_always setup).logic inner) _ (fun _ _ => trivial) values level _ trivial }
  exact guard.blockLogic inner

theorem perform_follow (setup : Setup) (depth : Nat) {α : Type} (job : Job α) :
    Follow setup (fun _ _ => True) job.realm (perform setup depth job) (perform setup depth job) := by
  induction depth generalizing α with
  | zero => exact fun before _ => ⟨rfl, .refl _ before⟩
  | succ depth ih => exact step_related (blockLogic_follow ih) (Regime.fits_free job) trivial

/-- Every job moves the machine by its moves, whether it succeeds or fails. -/
theorem perform_moves (setup : Setup) (depth : Nat) {α : Type} (job : Job α) (before : Machine) :
    Moves setup job.realm before (perform setup depth job before).2 :=
  (perform_follow setup depth job before trivial).2

/-- So do the parts that jobs are made of. -/
theorem logic_always (setup : Setup) (depth : Nat) :
    Logic setup .free (fun job => perform setup depth job) (fun job => perform setup depth job)
      (Follow setup fun _ _ => True) :=
  (guard_always setup).logic (perform_follow setup depth)

section Parts

variable (setup : Setup) (depth : Nat) (before : Machine)

theorem runFunction_moves (function : Callable) (args : CallArgs) :
    Moves setup .function before (runFunction (perform setup depth) function args before).2 :=
  (runFunction_related (logic_always setup depth) function (fun _ _ => trivial) args before trivial).2

theorem runMixin_moves (mixin : Callable) (values : CallArgs) (level : Nat) :
    Moves setup .style before (runMixin (perform setup depth) mixin values level before).2 :=
  (runMixin_related (logic_always setup depth) mixin (fun _ _ => trivial) values level before trivial).2

theorem runBlock_moves (block : ContentBlock Statement) (values : CallArgs) (level : Nat) :
    Moves setup .style before (runBlock (perform setup depth) block values level before).2 :=
  (runBlock_related (logic_always setup depth) block (fun _ _ => trivial) values level before trivial).2

theorem chunks_moves (nodes : List Statement) :
    Moves setup .style before (chunks (perform setup depth) nodes before).2 :=
  (chunks_related (logic_always setup depth) (fun _ _ => trivial) before trivial).2

theorem resolveModule_moves (url : String) (config : List (String × Expr)) :
    Moves setup .style before (resolveModule setup (perform setup depth) url config before).2 := by
  have kept : (Conduct.ofGood fun _ _ => True).Kept setup (fun job => perform setup depth job) :=
    (guard_always setup).kept
  have inner (role : Unit) {α : Type} (job : Job α) : Run.Obeys setup (.ofGood fun _ _ => True) role
      job.realm (perform setup depth job) (perform setup depth job) := by
    rw [(guard_always setup).obeys_eq]
    exact perform_follow setup depth job
  have loads : url ∈ (Statement.useModule url none config 0).urls := List.mem_singleton_self url
  have resolved : Run.Obeys setup (.ofGood fun _ _ => True) () .style _ _ :=
    resolveModule_obeys kept (fun role _ job _ => inner role job) trivial loads config
  exact (resolved before trivial).ends.moves

end Parts

end Eval

end Scss
