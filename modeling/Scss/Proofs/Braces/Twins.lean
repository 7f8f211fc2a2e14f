import Scss.Proofs.Braces.Machine
import Scss.Proofs.Braces.Marks
import Scss.Proofs.Lookup
import Scss.Proofs.Run

/-! Runs side by side: one that writes plain text, and its twin, which marks the blocks of style rules.
Starting from states that differ in marks alone they come to results, and to states, that differ in
marks alone; and they fail together. -/
namespace Scss

open Text (Braceless)

namespace Machine

def ending (machine : Machine) (hoisted : List String) : Machine := { machine with hoisted := hoisted }

@[simp]
theorem ending_self (machine : Machine) : machine.ending machine.hoisted = machine := rfl

@[simp]
theorem hoisted_ending (machine : Machine) (hoisted : List String) :
    (machine.ending hoisted).hoisted = hoisted := rfl

section Ending

variable (machine : Machine) (hoisted : List String)

@[simp]
theorem lookup?_ending (registry : Registry) (name : String) :
    (machine.ending hoisted).lookup? registry name = machine.lookup? registry name :=
  lookup?_congr (by rfl) (by rfl) (by rfl) registry name

@[simp]
theorem qualifiedVariable_ending (registry : Registry) (qualifier name : String) :
    (machine.ending hoisted).qualifiedVariable registry qualifier name =
      machine.qualifiedVariable registry qualifier name :=
  qualifiedVariable_congr (by rfl) (by rfl) registry qualifier name

@[simp]
theorem function?_ending (registry : Registry) (qualifier : Option String) (name : String) :
    (machine.ending hoisted).function? registry qualifier name =
      machine.function? registry qualifier name :=
  function?_congr (by rfl) (by rfl) registry qualifier name

@[simp]
theorem mixin?_ending (qualifier : Option String) (name : String) :
    (machine.ending hoisted).mixin? qualifier name = machine.mixin? qualifier name :=
  mixin?_congr (by rfl) (by rfl) qualifier name

theorem define_ending (name : String) (value : Value) :
    (machine.ending hoisted).define name value = (machine.define name value).ending hoisted := by
  cases machine with
  | mk environments env frames => cases frames <;> rfl

theorem assign_ending (name : String) (value : Value) (global : Bool) :
    (machine.ending hoisted).assign name value global =
      (machine.assign name value global).ending hoisted := by
  have frames : (machine.ending hoisted).frames = machine.frames := rfl
  have current : (machine.ending hoisted).current = machine.current := rfl
  have outside : (machine.ending hoisted).isSemiGlobal = machine.isSemiGlobal := rfl
  simp only [assign, define_ending, frames, current, outside]
  split
  · rfl
  · split
    · rfl
    · split <;> rfl

theorem assignQualified_ending (qualifier name : String) (value : Value) :
    (machine.ending hoisted).assignQualified qualifier name value =
      (machine.assignQualified qualifier name value).map fun after => after.ending hoisted := by
  have named : (machine.ending hoisted).module? qualifier = machine.module? qualifier := rfl
  have inner (id : EnvId) : (machine.ending hoisted).environment id = machine.environment id := rfl
  simp only [assignQualified, named, inner]
  cases machine.module? qualifier with
  | error cause => rfl
  | ok module_ =>
    cases module_ with
    | builtin library => rfl
    | user id =>
      dsimp only [bind, Except.bind]
      split <;> rfl

end Ending

/-- Two states that differ in the marks of text for the end of the output. The first has no braces. -/
structure Alike (machine twin : Machine) : Prop where
  clean : machine.Clean
  same : twin = machine.ending twin.hoisted
  hoisted : List.Forall₂ Text.Alike machine.hoisted twin.hoisted

variable {machine twin : Machine}

theorem alike_start (file : String) : (start file).Alike (start file) := ⟨clean_start file, rfl, .nil⟩

theorem alike_ending {hoisted : List String} (clean : machine.Clean)
    (marks : List.Forall₂ Text.Alike machine.hoisted hoisted) : machine.Alike (machine.ending hoisted) :=
  ⟨clean, rfl, marks⟩

/-- A change that leaves text for the end of the output alone keeps states alike. -/
theorem Alike.change {f : Machine → Machine} (alike : machine.Alike twin) (kept : (f machine).Clean)
    (apart : ∀ machine hoisted, f (machine.ending hoisted) = (f machine).ending hoisted) :
    (f machine).Alike (f twin) := by
  have put : (f machine).hoisted = machine.hoisted := by
    have same := congrArg Machine.hoisted (apart machine machine.hoisted)
    rwa [ending_self, hoisted_ending] at same
  rw [alike.same, apart]
  exact alike_ending kept (put ▸ alike.hoisted)

end Machine

namespace Run

variable {α β : Type} {agree : α → α → Prop} {also : β → β → Prop} {good : α → Prop} {fine : β → Prop}

inductive Agree (agree : α → α → Prop) : Except Fault α → Except Fault α → Prop where
  | ok {value other : α} (results : agree value other) : Agree agree (.ok value) (.ok other)
  | error (fault : Fault) : Agree agree (.error fault) (.error fault)

/-- From states that are alike, two actions come to results that agree and to states that are alike. -/
def Together (agree : α → α → Prop) (action twin : Run α) : Prop :=
  ∀ before other, before.Alike other →
    (action before).2.Alike (twin other).2 ∧ Agree agree (action before).1 (twin other).1

/-- Two actions come to the same result, and it is good. -/
abbrev Cleanly (good : α → Prop) (action twin : Run α) : Prop :=
  Together (fun value other => other = value ∧ good value) action twin

variable {action twin : Run α}

namespace Together

/-- Both have results, or both fail. -/
theorem outcomes (alike : Together agree action twin) {before other : Machine}
    (states : before.Alike other) :
    (∃ value another after afterTwin, action before = (.ok value, after) ∧
      twin other = (.ok another, afterTwin) ∧ agree value another ∧ after.Alike afterTwin) ∨
    ∃ fault after afterTwin, action before = (.error fault, after) ∧
      twin other = (.error fault, afterTwin) ∧ after.Alike afterTwin := by
  obtain ⟨after, results⟩ := alike before other states
  generalize action before = run at after results ⊢
  generalize twin other = runTwin at after results ⊢
  obtain ⟨result, machine⟩ := run
  obtain ⟨resultTwin, machineTwin⟩ := runTwin
  cases results with
  | ok both => exact .inl ⟨_, _, _, _, rfl, rfl, both, after⟩
  | error fault => exact .inr ⟨_, _, _, rfl, rfl, after⟩

theorem weaken {weaker : α → α → Prop} (alike : Together agree action twin)
    (step : ∀ value other, agree value other → weaker value other) : Together weaker action twin := by
  intro before other states
  rcases alike.outcomes states with
    ⟨_, _, _, _, run, runTwin, both, after⟩ | ⟨_, _, _, run, runTwin, after⟩
  · rw [run, runTwin]
    exact ⟨after, .ok (step _ _ both)⟩
  · rw [run, runTwin]
    exact ⟨after, .error _⟩

theorem pure {value other : α} (results : agree value other) :
    Together agree (Pure.pure value) (Pure.pure other) :=
  fun _ _ states => ⟨states, .ok results⟩

theorem throw (fault : Fault) :
    Together agree (MonadExcept.throw fault : Run α) (MonadExcept.throw fault : Run α) :=
  fun _ _ states => ⟨states, .error fault⟩

theorem fail (cause : Cause) : Together agree (Run.fail cause : Run α) (Run.fail cause : Run α) :=
  throw _

theorem bind {next nextTwin : α → Run β} (first : Together agree action twin)
    (second : ∀ value other, agree value other → Together also (next value) (nextTwin other)) :
    Together also (action >>= next) (twin >>= nextTwin) := by
  intro before other states
  rw [bind_apply, bind_apply]
  rcases first.outcomes states with
    ⟨_, _, _, _, run, runTwin, both, after⟩ | ⟨_, _, _, run, runTwin, after⟩
  · rw [run, runTwin]
    exact second _ _ both _ _ after
  · rw [run, runTwin]
    exact ⟨after, .error _⟩

/-- A look at the state that does not see the text for the end of the output. -/
theorem get_bind {next nextTwin : Machine → Run β}
    (blind : ∀ machine hoisted, nextTwin (machine.ending hoisted) = nextTwin machine)
    (second : ∀ machine, machine.Clean → Together also (next machine) (nextTwin machine)) :
    Together also (MonadState.get >>= next) (MonadState.get >>= nextTwin) := by
  intro before other states
  have step := second before states.clean before other states
  rw [← blind before other.hoisted, ← states.same] at step
  exact step

theorem tryCatch {handler handlerTwin : Fault → Run α} (first : Together agree action twin)
    (second : ∀ fault, Together agree (handler fault) (handlerTwin fault)) :
    Together agree (MonadExcept.tryCatch action handler) (MonadExcept.tryCatch twin handlerTwin) := by
  intro before other states
  rw [tryCatch_apply, tryCatch_apply]
  rcases first.outcomes states with
    ⟨_, _, _, _, run, runTwin, both, after⟩ | ⟨fault, _, _, run, runTwin, after⟩
  · rw [run, runTwin]
    exact ⟨after, .ok both⟩
  · rw [run, runTwin]
    exact second fault _ _ after

theorem located {line : Nat} (alike : Together agree action twin) :
    Together agree (Run.located line action) (Run.located line twin) := by
  intro before other states
  unfold Run.located
  rcases alike.outcomes states with
    ⟨_, _, _, _, run, runTwin, both, after⟩ | ⟨fault, machine, machineTwin, run, runTwin, after⟩
  · rw [run, runTwin]
    exact ⟨after, .ok both⟩
  · have file : machineTwin.file = machine.file := by
      rw [after.same]
      rfl
    rw [run, runTwin]
    dsimp only
    rw [file]
    exact ⟨after, .error _⟩

theorem mapM {step stepTwin : α → Run β} {items : List α}
    (alike : ∀ item ∈ items, Together also (step item) (stepTwin item)) :
    Together (List.Forall₂ also) (items.mapM step) (items.mapM stepTwin) := by
  induction items with
  | nil => exact pure .nil
  | cons item rest ih =>
    rw [List.mapM_cons, List.mapM_cons]
    refine (alike item (by simp)).bind fun value other head => ?_
    refine (ih fun other member => alike other (by simp [member])).bind fun values others tail => ?_
    exact pure (.cons head tail)

/-- Steps until one returns: both runs stop at the same one. -/
theorem untilReturn {agree : Yield → Yield → Prop} {step stepTwin : α → Run Yield} {items : List α}
    (nothing : agree .nothing .nothing)
    (append : ∀ first other second also, agree first other → agree second also →
      agree (first.append second) (other.append also))
    (returned : ∀ value other, agree value other → other.returned = value.returned)
    (alike : ∀ item ∈ items, Together agree (step item) (stepTwin item)) :
    Together agree (Run.untilReturn step items) (Run.untilReturn stepTwin items) := by
  induction items with
  | nil => exact pure nothing
  | cons item rest ih =>
    refine (alike item (by simp)).bind fun first other result => ?_
    rw [returned first other result]
    split
    · exact pure result
    · refine (ih fun other member => alike other (by simp [member])).bind fun second also tail => ?_
      exact pure (append first other second also result tail)

/-- What is put in place for a part, and taken away behind it, is the same on both sides. -/
theorem enclosed {enter : Machine → Machine} {leave : Machine → Machine → Machine}
    (entered : ∀ before, before.Clean → (enter before).Clean)
    (apart : ∀ before hoisted, enter (before.ending hoisted) = (enter before).ending hoisted)
    (left : ∀ before after, before.Clean → after.Clean → (leave before after).Clean)
    (apartAfter : ∀ before after seen hoisted,
      leave (before.ending seen) (after.ending hoisted) = (leave before after).ending hoisted)
    (inside : Together agree action twin) :
    Together agree (Run.enclosed enter leave action) (Run.enclosed enter leave twin) := by
  intro before other states
  obtain ⟨after, results⟩ := inside _ _ (states.change (entered before states.clean) apart)
  refine ⟨?_, results⟩
  have put : (leave before (action (enter before)).2).hoisted = (action (enter before)).2.hoisted := by
    have same := congrArg Machine.hoisted (apartAfter before
      (action (enter before)).2 before.hoisted (action (enter before)).2.hoisted)
    rwa [Machine.ending_self, Machine.ending_self, Machine.hoisted_ending] at same
  have same : leave other (twin (enter other)).2 =
      (leave before (action (enter before)).2).ending (twin (enter other)).2.hoisted := by
    rw [← apartAfter before _ other.hoisted, ← states.same, ← after.same]
  change (leave before (action (enter before)).2).Alike (leave other (twin (enter other)).2)
  rw [same]
  exact Machine.alike_ending (left before _ states.clean after.clean) (put ▸ after.hoisted)

end Together

namespace Cleanly

theorem pure {value : α} (result : good value) : Cleanly good (Pure.pure value) (Pure.pure value) :=
  Together.pure ⟨rfl, result⟩

/-- Behind a result that is the same on both sides. -/
theorem andThen {next nextTwin : α → Run β} (first : Cleanly good action twin)
    (second : ∀ value, good value → Together also (next value) (nextTwin value)) :
    Together also (action >>= next) (twin >>= nextTwin) := by
  refine Together.bind first fun value other results => ?_
  rw [results.1]
  exact second value results.2

theorem bind {next nextTwin : α → Run β} (first : Cleanly good action twin)
    (second : ∀ value, good value → Cleanly fine (next value) (nextTwin value)) :
    Cleanly fine (action >>= next) (twin >>= nextTwin) :=
  andThen first second

theorem get_bind {next nextTwin : Machine → Run β}
    (blind : ∀ machine hoisted, nextTwin (machine.ending hoisted) = nextTwin machine)
    (second : ∀ machine, machine.Clean → Cleanly fine (next machine) (nextTwin machine)) :
    Cleanly fine (MonadState.get >>= next) (MonadState.get >>= nextTwin) :=
  Together.get_bind blind second

theorem tryCatch {handler handlerTwin : Fault → Run α} (first : Cleanly good action twin)
    (second : ∀ fault, Cleanly good (handler fault) (handlerTwin fault)) :
    Cleanly good (MonadExcept.tryCatch action handler) (MonadExcept.tryCatch twin handlerTwin) :=
  Together.tryCatch first second

theorem weaken {weaker : α → Prop} (alike : Cleanly good action twin)
    (step : ∀ value, good value → weaker value) : Cleanly weaker action twin :=
  Together.weaken alike fun value _ results => ⟨results.1, step value results.2⟩

theorem map {f : α → β} (alike : Cleanly (fun value => fine (f value)) action twin) :
    Cleanly fine (f <$> action) (f <$> twin) := by
  rw [map_eq_pure_bind, map_eq_pure_bind]
  exact alike.bind fun value result => pure result

theorem ofCause {result : Except Cause α} (results : ∀ value, result = .ok value → good value) :
    Cleanly good (Run.ofCause result) (Run.ofCause result) := by
  cases result with
  | ok value => exact pure (results value rfl)
  | error cause => exact Together.fail cause

theorem ofExcept {result : Except Fault α} (results : ∀ value, result = .ok value → good value) :
    Cleanly good (MonadExcept.ofExcept result : Run α) (MonadExcept.ofExcept result : Run α) := by
  cases result with
  | ok value => exact pure (results value rfl)
  | error fault => exact Together.throw fault

theorem modify {f : Machine → Machine} (step : ∀ machine, machine.Clean → (f machine).Clean)
    (apart : ∀ machine hoisted, f (machine.ending hoisted) = (f machine).ending hoisted) :
    Cleanly (fun _ => True) (modify f : Run PUnit) (modify f : Run PUnit) :=
  fun before _ states => ⟨states.change (step before states.clean) apart, .ok ⟨rfl, trivial⟩⟩

/-- A state that is made from the one before it, or a failure. -/
theorem setFrom {f : Machine → Except Cause Machine}
    (step : ∀ machine, machine.Clean → ∀ after, f machine = .ok after → after.Clean)
    (apart : ∀ machine hoisted, f (machine.ending hoisted) =
      (f machine).map fun after => after.ending hoisted) :
    Cleanly (fun _ => True) (do MonadState.set (← Run.ofCause (f (← MonadState.get))))
      (do MonadState.set (← Run.ofCause (f (← MonadState.get)))) := by
  have run (machine : Machine) :
      (do MonadState.set (← Run.ofCause (f (← MonadState.get))) : Run PUnit) machine =
        match f machine with
        | .ok after => (.ok ⟨⟩, after)
        | .error cause => (.error (.because cause), machine) := by
    change (Run.ofCause (f machine) >>= fun after => MonadState.set after : Run PUnit) machine = _
    cases f machine <;> rfl
  intro before other states
  have made : f other = (f before).map fun after => after.ending other.hoisted := by
    rw [← apart, ← states.same]
  rw [run, run, made]
  cases done : f before with
  | error cause => exact ⟨states, .error _⟩
  | ok after =>
    have put : after.hoisted = before.hoisted := by
      have same := apart before before.hoisted
      rw [Machine.ending_self, done] at same
      have whole : after = after.ending before.hoisted := Except.ok.inj same
      rw [whole, Machine.hoisted_ending]
    exact ⟨Machine.alike_ending (step before states.clean after done) (put ▸ states.hoisted),
      .ok ⟨rfl, trivial⟩⟩

theorem log (level : LogLevel) (text : String) :
    Cleanly (fun _ => True) (Run.log level text) (Run.log level text) :=
  modify (fun _ clean => { clean with }) fun _ _ => rfl

theorem draw {good : Value → Prop} (chance : Chance) (limit : Option Int)
    (each : ∀ x, good (.ofFloat x)) :
    Cleanly good (Run.draw chance limit) (Run.draw chance limit) :=
  get_bind (fun _ _ => rfl) fun _ _ => by
    refine bind (?counted : Cleanly (fun _ => True) _ _) fun _ _ => pure (each _)
    exact modify (fun _ clean => { clean with }) fun _ _ => rfl

theorem mapM {step stepTwin : α → Run β} {items : List α}
    (alike : ∀ item ∈ items, Cleanly fine (step item) (stepTwin item)) :
    Cleanly (fun values => ∀ value ∈ values, fine value) (items.mapM step) (items.mapM stepTwin) := by
  refine (Together.mapM alike).weaken fun values others results => ?_
  induction results with
  | nil => exact ⟨rfl, by simp⟩
  | cons head _ ih =>
    obtain ⟨rfl, first⟩ := head
    obtain ⟨rfl, rest⟩ := ih
    exact ⟨rfl, List.forall_mem_cons.mpr ⟨first, rest⟩⟩

theorem foldlM {step stepTwin : β → α → Run β} {items : List α} {init : β} (start : fine init)
    (alike : ∀ state, fine state → ∀ item ∈ items,
      Cleanly fine (step state item) (stepTwin state item)) :
    Cleanly fine (items.foldlM step init) (items.foldlM stepTwin init) := by
  induction items generalizing init with
  | nil => exact pure start
  | cons item rest ih =>
    rw [List.foldlM_cons, List.foldlM_cons]
    refine (alike init start item (by simp)).bind fun state next => ?_
    exact ih next fun other result item member => alike other result item (by simp [member])

end Cleanly

namespace Together

theorem withFrame (semiGlobal : Bool) (inside : Together agree action twin) :
    Together agree (Run.withFrame semiGlobal action) (Run.withFrame semiGlobal twin) := by
  refine enclosed (fun before clean => ?_) (fun _ _ => rfl) (fun before after _ left => ?_)
    (fun _ _ _ _ => rfl) inside
  · exact { clean with frames := List.forall_mem_cons.mpr ⟨Frame.clean_fresh _, clean.frames⟩ }
  · exact { left with frames := fun frame member => left.frames frame (List.mem_of_mem_tail member) }

theorem withSelector {selector : Option String} (own : ∀ text ∈ selector, Braceless text)
    (inside : Together agree action twin) :
    Together agree (Run.withSelector selector action) (Run.withSelector selector twin) :=
  enclosed (fun _ clean => { clean with selector := own }) (fun _ _ => rfl)
    (fun _ _ clean left => { left with selector := clean.selector }) (fun _ _ _ _ => rfl) inside

theorem withMedia {query : String} (own : Braceless query) (inside : Together agree action twin) :
    Together agree (Run.withMedia query action) (Run.withMedia query twin) :=
  enclosed (fun _ clean => { clean with media := by simpa using own }) (fun _ _ => rfl)
    (fun _ _ clean left => { left with media := clean.media }) (fun _ _ _ _ => rfl) inside

theorem inFunction (env : EnvId) (inside : Together agree action twin) :
    Together agree (Run.inFunction env action) (Run.inFunction env twin) :=
  enclosed (fun _ clean => { clean with frames := by simpa using Frame.clean_fresh false })
    (fun _ _ => rfl) (fun _ _ clean left => { left with frames := clean.frames })
    (fun _ _ _ _ => rfl) inside

theorem inMixin (env : EnvId) {block : Option (ContentBlock Statement)}
    (content : ∀ own ∈ block, own.Clean) (inside : Together agree action twin) :
    Together agree (Run.inMixin env block action) (Run.inMixin env block twin) := by
  refine enclosed (fun before clean => ?_) (fun _ _ => rfl) (fun before after _ left => ?_)
    (fun _ _ _ _ => rfl) inside
  · exact { clean with
      frames := by simpa using Frame.clean_fresh false
      contents := List.forall_mem_cons.mpr ⟨⟨content, clean.frames⟩, clean.contents⟩ }
  · have waiting : ∀ frame ∈ (after.contents.head?.map ContentFrame.frames).getD [],
        frame.Clean := by
      cases found : after.contents.head? with
      | none => simp
      | some waiting => exact (left.contents waiting (List.mem_of_head? found)).frames
    exact { left with
      frames := waiting
      contents := fun content member => left.contents content (List.mem_of_mem_tail member) }

theorem inContent {content : ContentFrame} (own : content.Clean) (inside : Together agree action twin) :
    Together agree (Run.inContent content action) (Run.inContent content twin) := by
  refine enclosed (fun before clean => ?_) (fun _ _ => rfl) (fun before after clean left => ?_)
    (fun _ _ _ _ => rfl) inside
  · exact { clean with
      frames := List.forall_mem_cons.mpr ⟨Frame.clean_fresh _, own.frames⟩
      contents := fun content member => clean.contents content (List.mem_of_mem_tail member) }
  · have resumed : ContentFrame.Clean { content with frames := after.frames.tail } :=
      { own with frames := fun frame member => left.frames frame (List.mem_of_mem_tail member) }
    exact { left with
      frames := clean.frames
      contents := List.forall_mem_cons.mpr ⟨resumed, left.contents⟩ }

end Together

end Run

end Scss
