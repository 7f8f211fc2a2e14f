import Scss.Eval.Job
import Scss.Proofs.Run
import Scss.Proofs.Spelling.Machine

/-! Computations in step: from states that two spellings come to, they come to such states again, and
to results that agree; or both fail, with failures of one kind in one place. One rule for each way to
put computations together. -/
namespace Scss.Run

variable {α β γ : Type} {agree : α → α → Prop} {also : β → β → Prop} {r : γ → γ → Prop}

def InStep (agree : α → α → Prop) (action twin : Run α) : Prop :=
  ∀ before other, before.Respelled other →
    (action before).2.Respelled (twin other).2 ∧
      Concur Fault.Respelled agree (action before).1 (twin other).1

abbrev Same (action twin : Run α) : Prop := InStep Eq action twin

variable {action twin : Run α}

namespace InStep

/-- Both have results, or both fail. -/
theorem outcomes (both : InStep agree action twin) {before other : Machine}
    (states : before.Respelled other) :
    (∃ value another after afterTwin, action before = (.ok value, after) ∧
      twin other = (.ok another, afterTwin) ∧ agree value another ∧ after.Respelled afterTwin) ∨
    ∃ fault faultTwin after afterTwin, action before = (.error fault, after) ∧
      twin other = (.error faultTwin, afterTwin) ∧ fault.Respelled faultTwin ∧
        after.Respelled afterTwin := by
  obtain ⟨after, results⟩ := both before other states
  generalize action before = run at after results ⊢
  generalize twin other = runTwin at after results ⊢
  obtain ⟨result, machine⟩ := run
  obtain ⟨resultTwin, machineTwin⟩ := runTwin
  cases results with
  | ok results => exact .inl ⟨_, _, _, _, rfl, rfl, results, after⟩
  | error faults => exact .inr ⟨_, _, _, _, rfl, rfl, faults, after⟩

theorem pure {value other : α} (results : agree value other) :
    InStep agree (Pure.pure value) (Pure.pure other) :=
  fun _ _ states => ⟨states, .ok results⟩

theorem throw {fault other : Fault} (faults : fault.Respelled other) :
    InStep agree (MonadExcept.throw fault : Run α) (MonadExcept.throw other : Run α) :=
  fun _ _ states => ⟨states, .error faults⟩

theorem fail {cause other : Cause} (kinds : cause.SameKind other) :
    InStep agree (Run.fail cause : Run α) (Run.fail other : Run α) :=
  throw (.evaluation kinds none)

theorem bind {next nextTwin : α → Run β} (first : InStep agree action twin)
    (second : ∀ value other, agree value other → InStep also (next value) (nextTwin other)) :
    InStep also (action >>= next) (twin >>= nextTwin) := by
  intro before other states
  rw [bind_apply, bind_apply]
  rcases first.outcomes states with
    ⟨_, _, _, _, run, runTwin, both, after⟩ | ⟨_, _, _, _, run, runTwin, faults, after⟩
  · rw [run, runTwin]
    exact second _ _ both _ _ after
  · rw [run, runTwin]
    exact ⟨after, .error faults⟩

/-- A look at the states. -/
theorem get_bind {next nextTwin : Machine → Run β}
    (second : ∀ machine other, machine.Respelled other →
      InStep also (next machine) (nextTwin other)) :
    InStep also (MonadState.get >>= next) (MonadState.get >>= nextTwin) :=
  fun before other states => second before other states before other states

theorem tryCatch {handler handlerTwin : Fault → Run α} (first : InStep agree action twin)
    (second : ∀ fault other, fault.Respelled other →
      InStep agree (handler fault) (handlerTwin other)) :
    InStep agree (MonadExcept.tryCatch action handler) (MonadExcept.tryCatch twin handlerTwin) := by
  intro before other states
  rw [tryCatch_apply, tryCatch_apply]
  rcases first.outcomes states with
    ⟨_, _, _, _, run, runTwin, both, after⟩ | ⟨_, _, _, _, run, runTwin, faults, after⟩
  · rw [run, runTwin]
    exact ⟨after, .ok both⟩
  · rw [run, runTwin]
    exact second _ _ faults _ _ after

/-- Both faults name the same statement: the files that run are the same. -/
theorem located (line : Nat) (both : InStep agree action twin) :
    InStep agree (Run.located line action) (Run.located line twin) := by
  intro before other states
  unfold Run.located
  rcases both.outcomes states with
    ⟨_, _, _, _, run, runTwin, results, after⟩ | ⟨_, _, _, _, run, runTwin, faults, after⟩
  · rw [run, runTwin]
    exact ⟨after, .ok results⟩
  · rw [run, runTwin]
    dsimp only
    rw [after.file]
    exact ⟨after, .error (faults.locate _ line)⟩

theorem ofCause {result other : Except Cause α} (results : Concur Cause.SameKind agree result other) :
    InStep agree (Run.ofCause result) (Run.ofCause other) := by
  cases results with
  | ok both => exact pure both
  | error kinds => exact fail kinds

theorem ofExcept {result other : Except Fault α} (results : Concur Fault.Respelled agree result other) :
    InStep agree (MonadExcept.ofExcept result : Run α) (MonadExcept.ofExcept other : Run α) := by
  cases results with
  | ok both => exact pure both
  | error faults => exact throw faults

theorem foldlM {step stepTwin : β → γ → Run β} {items others : List γ}
    (each : List.Forall₂ r items others) {init other : β} (start : also init other)
    (both : ∀ {state twin item second}, also state twin → r item second →
      InStep also (step state item) (stepTwin twin second)) :
    InStep also (items.foldlM step init) (others.foldlM stepTwin other) := by
  induction each generalizing init other with
  | nil => exact pure start
  | cons first _ ih =>
    rw [List.foldlM_cons, List.foldlM_cons]
    exact (both start first).bind fun _ _ next => ih next

/-- What is put in place for a part, and taken away behind it, keeps the states together. -/
theorem enclosed {enter enterTwin : Machine → Machine} {leave leaveTwin : Machine → Machine → Machine}
    (entered : ∀ {before other : Machine}, before.Respelled other →
      (enter before).Respelled (enterTwin other))
    (left : ∀ {before other after afterTwin : Machine}, before.Respelled other →
      after.Respelled afterTwin → (leave before after).Respelled (leaveTwin other afterTwin))
    (inside : InStep agree action twin) :
    InStep agree (Run.enclosed enter leave action) (Run.enclosed enterTwin leaveTwin twin) := by
  intro before other states
  obtain ⟨after, results⟩ := inside _ _ (entered states)
  exact ⟨left states after, results⟩

theorem withFrame (semiGlobal : Bool) (inside : InStep agree action twin) :
    InStep agree (Run.withFrame semiGlobal action) (Run.withFrame semiGlobal twin) :=
  enclosed (fun states => { states with frames := by rw [states.frames] })
    (fun _ after => { after with frames := by rw [after.frames] }) inside

theorem withSelector (selector : Option String) (inside : InStep agree action twin) :
    InStep agree (Run.withSelector selector action) (Run.withSelector selector twin) :=
  enclosed (fun states => { states with selector := rfl })
    (fun states after => { after with selector := states.selector }) inside

theorem withMedia (query : String) (inside : InStep agree action twin) :
    InStep agree (Run.withMedia query action) (Run.withMedia query twin) :=
  enclosed (fun states => { states with media := rfl })
    (fun states after => { after with media := states.media }) inside

theorem inFunction (env : EnvId) (inside : InStep agree action twin) :
    InStep agree (Run.inFunction env action) (Run.inFunction env twin) :=
  enclosed (fun states => { states with env := rfl, frames := rfl })
    (fun states after => { after with env := states.env, frames := states.frames }) inside

theorem inMixin (env : EnvId) {block other : Option (ContentBlock Statement)}
    (blocks : Option.Rel (ContentBlock.Rel Statement.Respelled) block other)
    (inside : InStep agree action twin) :
    InStep agree (Run.inMixin env block action) (Run.inMixin env other twin) := by
  refine enclosed (fun states => ?_) (fun states left => ?_) inside
  · refine { states with env := rfl, frames := rfl, contents := .cons ?_ states.contents }
    rw [states.env, states.frames]
    exact .mk blocks _ _
  · exact { left with
      env := states.env
      frames := ContentFrame.frames_eq left.contents
      contents := ContentFrame.respelled_tail left.contents }

theorem inContent {content other : ContentFrame} (waiting : content.Respelled other)
    (inside : InStep agree action twin) :
    InStep agree (Run.inContent content action) (Run.inContent other twin) := by
  cases waiting with
  | mk blocks env frames =>
    refine enclosed (fun states => ?_) (fun states left => ?_) inside
    · exact { states with
        env := rfl
        frames := rfl
        contents := ContentFrame.respelled_tail states.contents }
    · refine { left with
        env := states.env
        frames := states.frames
        contents := .cons ?_ left.contents }
      rw [left.frames]
      exact .mk blocks env _

theorem inModule (env : EnvId) (path : String) (inside : InStep agree action twin) :
    InStep agree (Run.inModule env path action) (Run.inModule env path twin) :=
  enclosed
    (fun states => { states with
      env := rfl
      frames := rfl
      file := rfl
      selector := rfl
      media := rfl
      loading := by rw [states.loading] })
    (fun states after => { after with
      env := states.env
      frames := states.frames
      file := states.file
      selector := states.selector
      media := states.media
      loading := by rw [after.loading] })
    inside

theorem inFile (path : String) (inside : InStep agree action twin) :
    InStep agree (Run.inFile path action) (Run.inFile path twin) :=
  enclosed (fun states => { states with file := rfl, loading := by rw [states.loading] })
    (fun states after => { after with file := states.file, loading := by rw [after.loading] }) inside

/-- Behind a result that is the same. -/
theorem andThen {next nextTwin : α → Run β} (first : Same action twin)
    (second : ∀ value, InStep also (next value) (nextTwin value)) :
    InStep also (action >>= next) (twin >>= nextTwin) := by
  refine first.bind fun value other same => ?_
  subst same
  exact second value

theorem map {f : α → β} (both : Same action twin) : Same (f <$> action) (f <$> twin) := by
  rw [map_eq_pure_bind, map_eq_pure_bind]
  exact both.andThen fun value => pure rfl

theorem mapM {step stepTwin : γ → Run β} {items others : List γ} (each : List.Forall₂ r items others)
    (both : ∀ {item other}, r item other → Same (step item) (stepTwin other)) :
    Same (items.mapM step) (others.mapM stepTwin) := by
  induction each with
  | nil => exact pure rfl
  | cons first _ ih =>
    rw [List.mapM_cons, List.mapM_cons]
    exact (both first).andThen fun value => ih.andThen fun values => pure rfl

/-- Steps until one returns: both stop at the same one. -/
theorem untilReturn {step stepTwin : γ → Run Yield} {items others : List γ}
    (each : List.Forall₂ r items others)
    (both : ∀ {item other}, r item other → Same (step item) (stepTwin other)) :
    Same (Run.untilReturn step items) (Run.untilReturn stepTwin others) := by
  induction each with
  | nil => exact pure rfl
  | cons first _ ih =>
    refine (both first).andThen fun value => ?_
    split
    · exact pure rfl
    · exact ih.andThen fun rest => pure rfl

theorem modify {f g : Machine → Machine}
    (step : ∀ {machine other : Machine}, machine.Respelled other → (f machine).Respelled (g other)) :
    Same (modify f : Run PUnit) (modify g : Run PUnit) :=
  fun _ _ states => ⟨step states, .ok rfl⟩

theorem set {machine other : Machine} (states : machine.Respelled other) :
    Same (MonadState.set machine : Run PUnit) (MonadState.set other : Run PUnit) :=
  fun _ _ _ => ⟨states, .ok rfl⟩

theorem log (level : LogLevel) (text : String) : Same (Run.log level text) (Run.log level text) :=
  modify fun states => { states with log := by rw [states.log] }

theorem draw (chance : Chance) (limit : Option Int) :
    Same (Run.draw chance limit) (Run.draw chance limit) :=
  get_bind fun before other states => by
    rw [states.drawn]
    refine andThen ?_ fun _ => pure rfl
    exact modify fun later => { later with drawn := congrArg (· + 1) later.drawn }

end InStep

end Scss.Run
