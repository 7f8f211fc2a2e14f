import Scss.Proofs.Moves.Jobs

/-! Runs under watch. A watched run looks at the state in which each job inside it starts, and where
that is not as expected, anything may happen instead. A watched run that does what the plain run
does, whatever the alarm, is therefore one in which every job starts as expected. Good states that
all moves and entrances keep are enough for that. -/
namespace Scss.Eval

open Machine (Moves Meets Place Guard FullGuard)
open Run (Follow)

/-- What a watch expects when a job starts, and the states in which it goes on inside the job. -/
structure Watch where
  expects : {α : Type} → Job α → Machine → Prop
  stays : Machine → Prop

def Watch.always (inv : Machine → Prop) : Watch := ⟨fun _ => inv, fun _ => True⟩

open Classical in
/-- Perform a job under watch, and let an alarm take over if it does not start as expected. -/
noncomputable def watched (setup : Setup) (watch : Watch) (alarm : Perform) : Nat → Perform
  | 0, _, job => fun before =>
    if watch.expects job before then perform setup 0 job before else alarm job before
  | depth + 1, _, job => fun before =>
    if watch.expects job before then
      if watch.stays before then
        step setup (fun inner => watched setup watch alarm depth inner) job before
      else perform setup (depth + 1) job before
    else alarm job before

variable {setup : Setup} {watch : Watch} {alarm : Perform} {good : Realm → Machine → Prop}

/-- Where the watch ends, the plain run goes on. -/
theorem watched_unwatched {α : Type} {job : Job α} {before : Machine}
    (expected : watch.expects job before) (ends : ¬ watch.stays before) (depth : Nat) :
    watched setup watch alarm depth job before = perform setup depth job before := by
  cases depth with
  | zero => simp only [watched, if_pos expected]
  | succ depth => simp only [watched, if_pos expected, if_neg ends]

/-- A watched job does the same as a plain one, if good states are kept and all jobs are expected in
them. -/
theorem watched_follow
    (expected : ∀ {α : Type} (job : Job α) {machine : Machine}, good job.realm machine →
      watch.expects job machine)
    (full : ∀ depth,
      (∀ {α : Type} (job : Job α), Follow setup good job.realm
        (watched setup watch alarm depth job) (perform setup depth job)) →
      FullGuard setup (fun job => watched setup watch alarm depth job)
        (fun job => perform setup depth job) good)
    (depth : Nat) {α : Type} (job : Job α) :
    Follow setup good job.realm (watched setup watch alarm depth job) (perform setup depth job) := by
  induction depth generalizing α with
  | zero =>
    intro before holds
    refine ⟨?_, .refl _ before⟩
    simp only [watched, if_pos (expected job holds)]
  | succ depth ih =>
    intro before holds
    refine ⟨?_, perform_moves setup (depth + 1) job before⟩
    simp only [watched, if_pos (expected job holds)]
    split
    · have logic := (full depth ih).blockLogic ih
      exact (step_related logic (Regime.fits_free job) trivial before holds).1
    · rfl

section Meeting

variable {origin : Realm} {first : Machine}

/-- A run from a state has come to a realm and a state. The value of an expression has no place of
its own: it is computed wherever a run has come to. -/
def Seen (setup : Setup) (origin : Realm) (first : Machine) (realm : Realm) (machine : Machine) :
    Prop :=
  ∃ outer, Meets setup origin first outer machine ∧ (realm = .value ∨ outer = realm)

theorem Seen.enter {realm inner : Realm} {machine start : Machine} {exit : Machine → Machine → Prop}
    (place : Place setup realm machine inner start exit)
    (seen : Seen setup origin first realm machine) : Seen setup origin first inner start := by
  obtain ⟨outer, met, value | rfl⟩ := seen
  · cases place with
    | function realm found =>
      exact ⟨_, met.trans (.inside (.function outer found) (.here _ _)), .inr rfl⟩
    | frame mode => cases mode <;> cases value
    | selector | media | mixin | content | module | file => cases value
  · exact ⟨inner, met.trans (.inside place (.here inner start)), .inr rfl⟩

theorem guard_seen : Guard setup (Seen setup origin first) where
  moves := by
    rintro realm machine after moves ⟨outer, met, rfl | rfl⟩
    · exact ⟨outer, met.trans (.later (moves.ofValue outer) (.here outer after)), .inl rfl⟩
    · exact ⟨outer, met.trans (.later moves (.here outer after)), .inr rfl⟩
  value := by
    rintro realm machine ⟨outer, met, -⟩
    exact ⟨outer, met, .inl rfl⟩
  enter := by
    rintro realm machine inner start exit place - seen
    exact seen.enter place

/-- What holds in all states that a run meets holds whenever a job inside it starts. -/
theorem watched_meets {check : Machine → Prop}
    (implied : ∀ realm machine, Meets setup origin first realm machine → check machine)
    (alarm : Perform) (depth : Nat) {α : Type} (job : Job α) :
    Follow setup (Seen setup origin first) job.realm (watched setup (.always check) alarm depth job)
      (perform setup depth job) := by
  refine watched_follow (fun job machine seen => ?_) (fun depth ih => ?_) depth job
  · obtain ⟨outer, met, -⟩ := seen
    exact implied outer machine met
  · have guard : Guard setup (Seen setup origin first) := guard_seen
    exact
      { guard with
        mixin := fun block found seen => seen.enter (.mixin found block)
        content := fun values level handed given seen =>
          runBlock_related (guard.logic ih) _ (fun _ _ => trivial) values level _
            (seen.enter (.content handed given)) }

/-- What holds in all states that a compilation meets holds whenever one of its jobs starts. -/
theorem sheet_watched {file : String} {check : Machine → Prop}
    (implied : ∀ realm machine, Meets setup .style (Machine.start file) realm machine → check machine)
    (alarm : Perform) (depth : Nat) (nodes : List Statement) :
    sheet (watched setup (.always check) alarm depth) nodes (Machine.start file) =
      sheet (perform setup depth) nodes (Machine.start file) := by
  have guard : Guard setup (Seen setup .style (Machine.start file)) := guard_seen
  have logic := guard.logic (watched_meets implied alarm depth)
  have seen : Seen setup .style (Machine.start file) .style (Machine.start file) :=
    ⟨.style, .here .style _, .inr rfl⟩
  obtain ⟨same, -⟩ := chunks_related logic (fun _ _ => trivial) (Machine.start file) seen
  unfold sheet
  rw [Run.bind_apply, Run.bind_apply, same]

end Meeting

end Scss.Eval
