import Scss.Proofs.Logic.Statements
import Scss.Proofs.Run
import Scss.Proofs.SourceMaps.Tagged

/-! A run beside its twin that writes tags before the heads of rules. Both come to the same, up to the
tags. Heads are counted as they go: those in a result and those in the text at the end are all noted,
and none is counted twice. A run takes some heads with it, which those in its result replace, and leaves
the heads alone that are counted elsewhere, whichever these are. -/
namespace Scss

variable {tag : PendingMapping → String}

/-- A value that is the same in both runs and has no heads. -/
inductive Headless {α : Type} (value : α) : α → Multiset PendingMapping → Prop where
  | same : Headless value value 0

def Machine.withHoisted (machine : Machine) (texts : List String) : Machine :=
  machine.withMargin ⟨machine.contents, texts⟩

/-- A state and its twin, in which the text at the end has tags. The heads of that text are noted, and
so are `spare` heads that are counted elsewhere. -/
inductive Machine.Tagged (tag : PendingMapping → String) (spare : Multiset PendingMapping) :
    Machine → Machine → Prop where
  | mk {machine : Machine} {texts : List String} {heads : Multiset PendingMapping}
      (laid : Text.AllLaid tag machine.hoisted texts heads) (noted : heads + spare ≤ ↑machine.pending) :
      Tagged tag spare machine (machine.withHoisted texts)

theorem Machine.Tagged.weaken {spare fewer : Multiset PendingMapping} {machine twin : Machine}
    (states : machine.Tagged tag spare twin) (fewer_le : fewer ≤ spare) :
    machine.Tagged tag fewer twin := by
  cases states with
  | mk laid noted => exact .mk laid ((add_le_add_right fewer_le _).trans noted)

/-- A change of anything but notes and the text at the end. -/
theorem Machine.Tagged.change {spare : Multiset PendingMapping} {machine twin : Machine}
    {f : Machine → Machine}
    (blind : ∀ machine texts, f (machine.withHoisted texts) = (f machine).withHoisted texts)
    (kept : ∀ machine, (f machine).pending = machine.pending) (states : machine.Tagged tag spare twin) :
    (f machine).Tagged tag spare (f twin) := by
  cases states with
  | @mk texts heads laid noted =>
    have hoisted : (f machine).hoisted = machine.hoisted := by
      have same : f machine = (f machine).withHoisted machine.hoisted := blind machine machine.hoisted
      rw [same]
      rfl
    rw [blind]
    exact .mk (hoisted ▸ laid) (kept machine ▸ noted)

namespace Run

variable {α β : Type} {agree : α → α → Multiset PendingMapping → Prop}
  {also : β → β → Multiset PendingMapping → Prop} {spare given more : Multiset PendingMapping}

/-- What a run and its twin come to: results that agree, with their heads noted, or the same fault. -/
inductive Outcomes (tag : PendingMapping → String) (spare : Multiset PendingMapping)
    (agree : α → α → Multiset PendingMapping → Prop) :
    Except Fault α × Machine → Except Fault α × Machine → Prop where
  | ok {value other : α} {heads : Multiset PendingMapping} {after twin : Machine}
      (results : agree value other heads) (states : after.Tagged tag (spare + heads) twin) :
      Outcomes tag spare agree (.ok value, after) (.ok other, twin)
  | error {fault : Fault} {after twin : Machine} (states : after.Tagged tag spare twin) :
      Outcomes tag spare agree (.error fault, after) (.error fault, twin)

/-- A run and its twin, which take the heads `given` with them. -/
structure Tagged (tag : PendingMapping → String) (given : Multiset PendingMapping)
    (agree : α → α → Multiset PendingMapping → Prop) (action twin : Run α) : Prop where
  outcomes : ∀ {spare before other}, before.Tagged tag (spare + given) other →
    Outcomes tag spare agree (action before) (twin other)

abbrev TaggedSame (tag : PendingMapping → String) (action twin : Run α) : Prop :=
  Tagged tag 0 Headless action twin

namespace Tagged

variable {action twin : Run α}

theorem pure {value other : α} (results : agree value other given) :
    Tagged tag given agree (Pure.pure value) (Pure.pure other) :=
  ⟨fun states => .ok results states⟩

theorem throw (fault : Fault) :
    Tagged tag given agree (MonadExcept.throw fault : Run α) (MonadExcept.throw fault) :=
  ⟨fun states => .error (states.weaken (Multiset.le_add_right _ _))⟩

theorem fail (cause : Cause) : Tagged tag given agree (Run.fail cause : Run α) (Run.fail cause) :=
  throw _

/-- Heads may be lost on the way. -/
theorem weaken (run : Tagged tag more agree action twin) (more_le : more ≤ given) :
    Tagged tag given agree action twin :=
  ⟨fun states => run.outcomes (states.weaken (add_le_add_right more_le _))⟩

/-- Heads that a run does not take stay where they are. -/
theorem frame (run : Tagged tag 0 agree action twin) (more : Multiset PendingMapping) :
    Tagged tag more (fun value other heads => ∃ own, agree value other own ∧ heads = more + own)
      action twin := by
  refine ⟨fun {spare before other} states => ?_⟩
  have outcomes : Outcomes tag (spare + more) agree (action before) (twin other) :=
    run.outcomes (by rwa [add_zero])
  generalize action before = done at outcomes ⊢
  generalize twin other = doneToo at outcomes ⊢
  cases outcomes with
  | ok results states =>
    rw [add_assoc] at states
    exact .ok ⟨_, results, rfl⟩ states
  | error states => exact .error (states.weaken (Multiset.le_add_right _ _))

theorem bind {next nextTwin : α → Run β} (first : Tagged tag given agree action twin)
    (second : ∀ {value other heads}, agree value other heads →
      Tagged tag heads also (next value) (nextTwin other)) :
    Tagged tag given also (action >>= next) (twin >>= nextTwin) := by
  refine ⟨fun {spare before other} states => ?_⟩
  have outcomes := first.outcomes states
  rw [bind_apply, bind_apply]
  generalize action before = done at outcomes ⊢
  generalize twin other = doneToo at outcomes ⊢
  cases outcomes with
  | ok results states => exact (second results).outcomes states
  | error states => exact .error states

/-- Behind a result that is the same. -/
theorem andThen {next nextTwin : α → Run β} (first : TaggedSame tag action twin)
    (second : ∀ value, Tagged tag given also (next value) (nextTwin value)) :
    Tagged tag given also (action >>= next) (twin >>= nextTwin) := by
  refine (first.frame given).bind ?_
  rintro value _ _ ⟨_, ⟨⟩, rfl⟩
  rw [add_zero]
  exact second value

theorem tryCatch {handler handlerTwin : Fault → Run α} (first : Tagged tag 0 agree action twin)
    (second : ∀ fault, Tagged tag 0 agree (handler fault) (handlerTwin fault)) :
    Tagged tag 0 agree (MonadExcept.tryCatch action handler)
      (MonadExcept.tryCatch twin handlerTwin) := by
  refine ⟨fun {spare before other} states => ?_⟩
  have outcomes := first.outcomes states
  rw [tryCatch_apply, tryCatch_apply]
  generalize action before = done at outcomes ⊢
  generalize twin other = doneToo at outcomes ⊢
  cases outcomes with
  | ok results states => exact .ok results states
  | error states => exact (second _).outcomes (by rwa [add_zero])

theorem located (line : Nat) (inside : Tagged tag given agree action twin) :
    Tagged tag given agree (Run.located line action) (Run.located line twin) := by
  refine ⟨fun {spare before other} states => ?_⟩
  have outcomes := inside.outcomes states
  unfold Run.located
  generalize action before = done at outcomes ⊢
  generalize twin other = doneToo at outcomes ⊢
  cases outcomes with
  | ok results states => exact .ok results states
  | error states =>
    cases states with
    | mk laid noted => exact .error (.mk laid noted)

/-- A look at the state, but not at the text at the end. -/
theorem look {next nextTwin : Machine → Run β}
    (blind : ∀ machine texts, nextTwin (machine.withHoisted texts) = nextTwin machine)
    (second : ∀ machine, Tagged tag given also (next machine) (nextTwin machine)) :
    Tagged tag given also (MonadState.get >>= next) (MonadState.get >>= nextTwin) := by
  refine ⟨fun {spare before other} states => ?_⟩
  have outcomes := (second before).outcomes states
  cases states with
  | mk laid noted =>
    rw [get_bind_apply, get_bind_apply, blind]
    exact outcomes

theorem change {f : Machine → Machine}
    (blind : ∀ machine texts, f (machine.withHoisted texts) = (f machine).withHoisted texts)
    (kept : ∀ machine, (f machine).pending = machine.pending) :
    TaggedSame tag (modify f : Run PUnit) (modify f) :=
  ⟨fun states => .ok .same (states.change blind kept)⟩

/-- A look at the state, and a change that goes with it. -/
theorem lookSet {f : Machine → Machine} {next nextTwin : Machine → Run β}
    (blind : ∀ machine texts, f (machine.withHoisted texts) = (f machine).withHoisted texts)
    (kept : ∀ machine, (f machine).pending = machine.pending)
    (blindNext : ∀ machine texts, nextTwin (machine.withHoisted texts) = nextTwin machine)
    (second : ∀ machine, Tagged tag given also (next machine) (nextTwin machine)) :
    Tagged tag given also
      (MonadState.get >>= fun machine => MonadState.set (f machine) >>= fun _ => next machine)
      (MonadState.get >>= fun machine => MonadState.set (f machine) >>= fun _ => nextTwin machine) := by
  refine ⟨fun {spare before other} states => ?_⟩
  have outcomes := (second before).outcomes (states.change blind kept)
  cases states with
  | @mk texts heads laid noted =>
    change Outcomes tag spare also (next before (f before))
      (nextTwin (before.withHoisted texts) (f (before.withHoisted texts)))
    rw [blindNext]
    exact outcomes

/-- A variable of a module is set by the name of the module. -/
theorem assignQualified (qualifier name : String) (value : Value) :
    TaggedSame tag
      (do MonadState.set (← Run.ofCause ((← MonadState.get).assignQualified qualifier name value)))
      (do MonadState.set (← Run.ofCause ((← MonadState.get).assignQualified qualifier name value))) := by
  refine ⟨fun {spare before other} states => ?_⟩
  cases states with
  | mk laid noted =>
    rw [get_bind_apply, get_bind_apply, Machine.withHoisted, Machine.assignQualified_withMargin]
    cases assigned : before.assignQualified qualifier name value with
    | error cause => exact .error (.mk laid (by rwa [add_zero] at noted))
    | ok after =>
      obtain ⟨id, -, rfl⟩ := Machine.assignQualified_cases assigned
      exact .ok .same (.mk laid noted)

theorem ofCause (result : Except Cause α) :
    TaggedSame tag (Run.ofCause result) (Run.ofCause result) := by
  cases result with
  | ok value => exact pure .same
  | error cause => exact fail cause

theorem ofExcept (result : Except Fault α) :
    TaggedSame tag (MonadExcept.ofExcept result : Run α) (MonadExcept.ofExcept result) := by
  cases result with
  | ok value => exact pure .same
  | error fault => exact throw fault

/-- A place that leaves notes and the text at the end alone. -/
theorem enclosed {enter : Machine → Machine} {leave : Machine → Machine → Machine}
    (entered : ∀ {before other : Machine} {spare}, before.Tagged tag spare other →
      (enter before).Tagged tag spare (enter other))
    (left : ∀ {before other after twin : Machine} {spare more}, before.Tagged tag spare other →
      after.Tagged tag more twin → (leave before after).Tagged tag more (leave other twin))
    (inside : Tagged tag given agree action twin) :
    Tagged tag given agree (Run.enclosed enter leave action) (Run.enclosed enter leave twin) := by
  refine ⟨fun {spare before other} states => ?_⟩
  have outcomes := inside.outcomes (entered states)
  unfold Run.enclosed
  generalize action (enter before) = done at outcomes ⊢
  generalize twin (enter other) = doneToo at outcomes ⊢
  cases outcomes with
  | ok results after => exact .ok results (left states after)
  | error after => exact .error (left states after)

theorem withFrame (semiGlobal : Bool) (inside : Tagged tag given agree action twin) :
    Tagged tag given agree (Run.withFrame semiGlobal action) (Run.withFrame semiGlobal twin) :=
  enclosed (fun | .mk laid noted => .mk laid noted) (fun | _, .mk laid noted => .mk laid noted) inside

theorem withSelector (selector : Option String) (inside : Tagged tag given agree action twin) :
    Tagged tag given agree (Run.withSelector selector action) (Run.withSelector selector twin) :=
  enclosed (fun | .mk laid noted => .mk laid noted) (fun | .mk _ _, .mk laid noted => .mk laid noted)
    inside

theorem withMedia (query : String) (inside : Tagged tag given agree action twin) :
    Tagged tag given agree (Run.withMedia query action) (Run.withMedia query twin) :=
  enclosed (fun | .mk laid noted => .mk laid noted) (fun | .mk _ _, .mk laid noted => .mk laid noted)
    inside

theorem inFunction (env : EnvId) (inside : Tagged tag given agree action twin) :
    Tagged tag given agree (Run.inFunction env action) (Run.inFunction env twin) :=
  enclosed (fun | .mk laid noted => .mk laid noted) (fun | .mk _ _, .mk laid noted => .mk laid noted)
    inside

theorem inMixin (env : EnvId) (block : Option (ContentBlock Statement))
    (inside : Tagged tag given agree action twin) :
    Tagged tag given agree (Run.inMixin env block action) (Run.inMixin env block twin) :=
  enclosed (fun | .mk laid noted => .mk laid noted) (fun | .mk _ _, .mk laid noted => .mk laid noted)
    inside

theorem inContent (content : ContentFrame) (inside : Tagged tag given agree action twin) :
    Tagged tag given agree (Run.inContent content action) (Run.inContent content twin) :=
  enclosed (fun | .mk laid noted => .mk laid noted) (fun | .mk _ _, .mk laid noted => .mk laid noted)
    inside

theorem inModule (env : EnvId) (path : String) (inside : Tagged tag given agree action twin) :
    Tagged tag given agree (Run.inModule env path action) (Run.inModule env path twin) :=
  enclosed (fun | .mk laid noted => .mk laid noted) (fun | .mk _ _, .mk laid noted => .mk laid noted)
    inside

theorem inFile (path : String) (inside : Tagged tag given agree action twin) :
    Tagged tag given agree (Run.inFile path action) (Run.inFile path twin) :=
  enclosed (fun | .mk laid noted => .mk laid noted) (fun | .mk _ _, .mk laid noted => .mk laid noted)
    inside

/-- One more head is noted, and counted. -/
theorem note {next nextTwin : PUnit → Run β} (mapping : PendingMapping)
    (second : Tagged tag (given + {mapping}) also (next ⟨⟩) (nextTwin ⟨⟩)) :
    Tagged tag given also
      (modify (fun machine => { machine with pending := machine.pending ++ [mapping] }) >>= next)
      (modify (fun machine => { machine with pending := machine.pending ++ [mapping] }) >>= nextTwin) := by
  refine ⟨fun {spare before other} states => ?_⟩
  cases states with
  | mk laid noted =>
    have all : (↑(before.pending ++ [mapping]) : Multiset PendingMapping) =
        ↑before.pending + {mapping} := (Multiset.coe_add _ _).symm
    refine second.outcomes (.mk laid ?_)
    rw [all, ← add_assoc, ← add_assoc]
    rw [← add_assoc] at noted
    exact add_le_add_left noted {mapping}

/-- A text is put to the end, with its heads. -/
theorem hoist {css twinCss : String} (laid : Text.Laid tag css twinCss given) :
    Tagged tag given Headless
      (modify fun machine => { machine with hoisted := machine.hoisted ++ [css] } : Run PUnit)
      (modify fun machine => { machine with hoisted := machine.hoisted ++ [twinCss] }) := by
  refine ⟨fun {spare before other} states => ?_⟩
  cases states with
  | @mk texts heads own noted =>
    have after : Machine.Tagged tag (spare + 0) { before with hoisted := before.hoisted ++ [css] }
        { before with hoisted := texts ++ [twinCss] } := by
      refine .mk (own.append (.singleton laid)) ?_
      rwa [add_zero, add_assoc, add_comm given]
    exact .ok .same after

end Tagged

end Run

end Scss
