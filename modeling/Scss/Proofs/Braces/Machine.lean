import Scss.Proofs.Braces.Library
import Scss.Proofs.Braces.Tree

/-! States of a compilation without braces: no value, no body of a mixin and no selector has any.
Lookups find what has none, and every change of the state keeps it so. -/
namespace Scss

open Text (Braceless)

namespace Bindings

variable {α : Type} {good : α → Prop} {bindings : Bindings α}

def All (good : α → Prop) (bindings : Bindings α) : Prop := ∀ entry ∈ bindings, good entry.2

theorem All.get? (all : bindings.All good) (name : String) : ∀ value ∈ bindings.get? name, good value :=
  fun _ found => all _ (mem_of_lookup found)

theorem All.set (all : bindings.All good) (name : String) {value : α} (added : good value) :
    (bindings.set name value).All good := by
  induction bindings with
  | nil => simpa [Bindings.set, All] using added
  | cons entry rest ih =>
    obtain ⟨first, others⟩ := List.forall_mem_cons.mp all
    rw [Bindings.set]
    split
    · exact List.forall_mem_cons.mpr ⟨added, others⟩
    · exact List.forall_mem_cons.mpr ⟨first, ih others⟩

end Bindings

structure Callable.Clean (callable : Callable) : Prop where
  params : callable.params.Braceless
  body : ∀ node ∈ callable.body, node.SelfContained

structure Environment.Clean (environment : Environment) : Prop where
  vars : environment.vars.All Value.Braceless
  mixins : environment.mixins.All Callable.Clean
  functions : environment.functions.All Callable.Clean

theorem Environment.clean_empty : Environment.empty.Clean := by
  constructor <;> simp [Bindings.All, Environment.empty]

def Frame.Clean (frame : Frame) : Prop := frame.vars.All Value.Braceless

theorem Frame.clean_fresh (semiGlobal : Bool) : (Frame.fresh semiGlobal).Clean := by
  simp [Frame.Clean, Bindings.All, Frame.fresh]

structure ContentBlock.Clean (block : ContentBlock Statement) : Prop where
  params : block.params.Braceless
  body : ∀ node ∈ block.body, node.SelfContained

structure ContentFrame.Clean (content : ContentFrame) : Prop where
  block : ∀ block ∈ content.block, block.Clean
  frames : ∀ frame ∈ content.frames, frame.Clean

structure Machine.Clean (machine : Machine) : Prop where
  environments : ∀ (id : EnvId) (environment : Environment),
    machine.environments[id]? = some environment → environment.Clean
  frames : ∀ frame ∈ machine.frames, frame.Clean
  contents : ∀ content ∈ machine.contents, content.Clean
  selector : ∀ text ∈ machine.selector, Text.Braceless text
  media : ∀ text ∈ machine.media, Text.Braceless text

namespace Machine

variable {α : Type} {machine : Machine}

theorem clean_start (file : String) : (start file).Clean where
  environments := by
    intro id environment found
    have inside := Array.mem_of_getElem? found
    simp only [start, List.mem_toArray, List.mem_singleton] at inside
    rw [inside]
    exact Environment.clean_empty
  frames := by simp [start]
  contents := by simp [start]
  selector := by simp [start]
  media := by simp [start]

theorem Clean.environment (clean : machine.Clean) (id : EnvId) : (machine.environment id).Clean := by
  unfold Machine.environment
  cases found : machine.environments[id]? with
  | none => exact Environment.clean_empty
  | some environment => exact clean.environments id environment found

theorem Clean.member {good : α → Prop} (clean : machine.Clean) {sigil : String}
    {library : String → String → Option α} {own : Environment → String → Option α}
    (libraries : ∀ module_ name, ∀ found ∈ library module_ name, good found)
    (owns : ∀ environment : Environment, environment.Clean → ∀ name, ∀ found ∈ own environment name,
      good found) (depth : Nat) (module_ : ModuleRef) (name : String) :
    ∀ found ∈ machine.member? sigil library own depth module_ name, good found := by
  induction depth generalizing module_ name with
  | zero => simp [Machine.member?]
  | succ depth ih =>
    cases module_ with
    | builtin module_ => exact libraries module_ name
    | user id =>
      intro found member
      rw [Machine.member?] at member
      split at member
      · rename_i value present
        obtain rfl := Option.some.inj member
        exact owns _ (clean.environment id) name _ present
      · obtain ⟨forward, -, passed⟩ := List.exists_of_findSome?_eq_some member
        split at passed
        · exact ih _ _ found passed
        · cases passed

theorem here_cases {good : α → Prop} {own : Option α} {inModule : ModuleRef → Option α}
    (stars : List ModuleRef) (first : ∀ found ∈ own, good found)
    (second : ∀ module_, ∀ found ∈ inModule module_, good found) :
    ∀ found ∈ here? own inModule stars, good found := by
  intro found member
  unfold here? at member
  split at member
  · rename_i value
    obtain rfl := Option.some.inj member
    exact first _ rfl
  · obtain ⟨module_, -, passed⟩ := List.exists_of_findSome?_eq_some member
    exact second module_ found passed

theorem Clean.moduleVariable (clean : machine.Clean) (module_ : ModuleRef) (name : String) :
    ∀ found ∈ machine.moduleVariable? .builtin module_ name, found.Braceless := by
  refine clean.member (fun library name found member => ?_) (fun environment own name => ?_) _ _ _
  · exact Registry.braceless_constants library _ (mem_of_lookup member)
  · exact own.vars.get? name

theorem Clean.lookup (clean : machine.Clean) (name : String) :
    ∀ found ∈ machine.lookup? .builtin name, found.Braceless := by
  intro found member
  unfold Machine.lookup? at member
  dsimp only at member
  split at member
  · rename_i value present
    obtain rfl := Option.some.inj member
    obtain ⟨frame, inside, bound⟩ := List.exists_of_findSome?_eq_some present
    exact Bindings.All.get? (clean.frames frame inside) _ _ bound
  · exact here_cases _ ((clean.environment machine.env).vars.get? _)
      (fun module_ => clean.moduleVariable module_ _) found member

theorem Clean.qualifiedVariable (clean : machine.Clean) (qualifier name : String) :
    Yields Value.Braceless (machine.qualifiedVariable .builtin qualifier name) := by
  refine .bind (.any _) fun module_ _ => ?_
  split
  · rename_i value found
    exact .ok (clean.moduleVariable module_ _ value found)
  · exact .error _

end Machine

def FunctionTarget.Clean : FunctionTarget → Prop
  | .user callable => callable.Clean
  | .builtin _ => True

namespace Machine

variable {machine : Machine}

theorem Clean.moduleFunction (clean : machine.Clean) (registry : Registry) (module_ : ModuleRef)
    (name : String) :
    ∀ found ∈ machine.moduleFunction? registry module_ name, found.Clean := by
  refine clean.member (fun library name found member => ?_) (fun environment own name => ?_) _ _ _
  · split at member
    · obtain rfl := Option.some.inj member
      exact trivial
    · cases member
  · intro found member
    obtain ⟨callable, bound, rfl⟩ := Option.map_eq_some_iff.mp member
    exact own.functions.get? name callable bound

theorem Clean.function (clean : machine.Clean) (registry : Registry) (qualifier : Option String)
    (name : String) :
    Yields (fun target => ∀ found ∈ target, FunctionTarget.Clean found)
      (machine.function? registry qualifier name) := by
  cases qualifier with
  | some qualifier =>
    exact .bind (.any _) fun module_ _ => .ok (clean.moduleFunction registry module_ _)
  | none =>
    refine .ok (here_cases _ (fun found member => ?_) fun module_ => ?_)
    · obtain ⟨callable, bound, rfl⟩ := Option.map_eq_some_iff.mp member
      exact (clean.environment machine.env).functions.get? _ callable bound
    · exact clean.moduleFunction registry module_ _

theorem Clean.mixin (clean : machine.Clean) (qualifier : Option String) (name : String) :
    Yields (fun target => ∀ found ∈ target, Callable.Clean found) (machine.mixin? qualifier name) := by
  have modules (module_ : ModuleRef) (name : String) :
      ∀ found ∈ machine.moduleMixin? module_ name, found.Clean :=
    clean.member (by simp) (fun environment own name => own.mixins.get? name) _ _ _
  cases qualifier with
  | some qualifier => exact .bind (.any _) fun module_ _ => .ok (modules module_ _)
  | none =>
    exact .ok (here_cases _ ((clean.environment machine.env).mixins.get? _) fun module_ =>
      modules module_ _)

theorem Clean.modifyEnvironment (clean : machine.Clean) (id : EnvId) {f : Environment → Environment}
    (kept : ∀ environment : Environment, environment.Clean → (f environment).Clean) :
    (machine.modifyEnvironment id f).Clean := by
  refine { clean with environments := fun other environment found => ?_ }
  rw [Machine.modifyEnvironment, Array.getElem?_modify] at found
  split at found
  · obtain ⟨original, present, rfl⟩ := Option.map_eq_some_iff.mp found
    exact kept original (clean.environments other original present)
  · exact clean.environments other environment found

theorem Clean.setGlobal (clean : machine.Clean) (name : String) {value : Value}
    (added : value.Braceless) : (machine.setGlobal name value).Clean :=
  clean.modifyEnvironment _ fun _ own => { own with vars := own.vars.set name added }

theorem Clean.define (clean : machine.Clean) (name : String) {value : Value}
    (added : value.Braceless) : (machine.define name value).Clean := by
  unfold Machine.define
  dsimp only
  split
  · rename_i frame rest frames
    obtain ⟨first, others⟩ := List.forall_mem_cons.mp (frames ▸ clean.frames)
    exact { clean with frames := List.forall_mem_cons.mpr ⟨first.set _ added, others⟩ }
  · exact clean.setGlobal _ added

theorem clean_setInFrames {name : String} {value : Value} (added : value.Braceless)
    {frames : List Frame} (clean : ∀ frame ∈ frames, frame.Clean) :
    ∀ changed ∈ setInFrames? name value frames, ∀ frame ∈ changed, Frame.Clean frame := by
  induction frames with
  | nil => simp [setInFrames?]
  | cons frame rest ih =>
    obtain ⟨first, others⟩ := List.forall_mem_cons.mp clean
    intro changed found
    rw [setInFrames?] at found
    split at found
    · obtain rfl := Option.some.inj found
      exact List.forall_mem_cons.mpr ⟨first.set _ added, others⟩
    · obtain ⟨inner, present, rfl⟩ := Option.map_eq_some_iff.mp found
      exact List.forall_mem_cons.mpr ⟨first, ih others inner present⟩

theorem Clean.assign (clean : machine.Clean) (name : String) {value : Value}
    (added : value.Braceless) (global : Bool) : (machine.assign name value global).Clean := by
  unfold Machine.assign
  dsimp only
  split
  · exact clean.setGlobal _ added
  · split
    · rename_i frames changed
      exact { clean with frames := clean_setInFrames added clean.frames frames changed }
    · split
      · exact clean.setGlobal _ added
      · exact clean.define _ added

theorem Clean.assignQualified (clean : machine.Clean) (qualifier name : String) {value : Value}
    (added : value.Braceless) : Yields Machine.Clean (machine.assignQualified qualifier name value) := by
  refine .bind (.any _) fun module_ _ => ?_
  cases module_ with
  | builtin library => exact .error _
  | user id =>
    dsimp only
    split
    · exact .ok (clean.modifyEnvironment _ fun _ own => { own with vars := own.vars.set _ added })
    · exact .error _

theorem Clean.defineFunction (clean : machine.Clean) (name : String) {params : Parameters}
    {body : List Statement} (defaults : params.Braceless) (inner : ∀ node ∈ body, node.SelfContained) :
    (machine.defineFunction name params body).Clean :=
  clean.modifyEnvironment _ fun _ own =>
    { own with functions := own.functions.set _ ⟨defaults, inner⟩ }

theorem Clean.defineMixin (clean : machine.Clean) (name : String) {params : Parameters}
    {body : List Statement} (defaults : params.Braceless) (inner : ∀ node ∈ body, node.SelfContained) :
    (machine.defineMixin name params body).Clean :=
  clean.modifyEnvironment _ fun _ own => { own with mixins := own.mixins.set _ ⟨defaults, inner⟩ }

end Machine

end Scss
