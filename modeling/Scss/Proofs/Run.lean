import Mathlib.Tactic
import Scss.Eval.Sheet

/-! How computations on the machine run. A fault keeps the state it has come to, so what is promised
of the state is promised behind a fault too; only what is promised of the result needs one. -/
namespace Scss.Run

variable {α β σ : Type}

/-- One action behind another: a fault of the first keeps the state that it has come to. -/
theorem bind_apply (action : ExceptT Fault (StateM σ) α) (next : α → ExceptT Fault (StateM σ) β)
    (before : σ) :
    (action >>= next) before = match action before with
      | (.ok value, after) => next value after
      | (.error fault, after) => (.error fault, after) := by
  change ExceptT.bindCont next (action before).1 (action before).2 = _
  rcases action before with ⟨_ | _, _⟩ <;> rfl

/-- A result behind two actions is one of the second, behind one of the first. -/
theorem bind_eq_ok {action : Run α} {next : α → Run β} {before after : Machine}
    {result : β} :
    (action >>= next) before = (.ok result, after) ↔
      ∃ value middle, action before = (.ok value, middle) ∧ next value middle = (.ok result, after) := by
  rw [bind_apply]
  rcases action before with ⟨fault | value, middle⟩
  · exact ⟨nofun, nofun⟩
  · refine ⟨fun done => ⟨value, middle, rfl, done⟩, ?_⟩
    rintro ⟨_, _, same, done⟩
    cases same
    exact done

/-- A look at the state sees the one that there is. -/
theorem get_bind_apply (next : Machine → Run β) (before : Machine) :
    (MonadState.get >>= next) before = next before before := rfl

/-- A handler goes on in the state of the fault. -/
theorem tryCatch_apply (action : ExceptT Fault (StateM σ) α)
    (handler : Fault → ExceptT Fault (StateM σ) α) (before : σ) :
    (tryCatch action handler : ExceptT Fault (StateM σ) α) before = match action before with
      | (.ok value, after) => (.ok value, after)
      | (.error fault, after) => handler fault after := by
  simp only [tryCatch, tryCatchThe, MonadExceptOf.tryCatch, ExceptT.tryCatch, ExceptT.mk, bind,
    StateT.bind]
  rcases action before with ⟨_ | _, _⟩ <;> rfl

/-- What follows a handler may as well be run inside it. -/
theorem tryCatch_bind {γ : Type} (action : Run α) (f : α → β) (handler : Fault → Run β)
    (next : β → Run γ) :
    (tryCatch (f <$> action) handler >>= next) =
      tryCatch (Sum.inr <$> action) (fun fault => Sum.inl <$> (handler fault >>= next)) >>=
        fun | .inl value => pure value
            | .inr value => next (f value) := by
  funext before
  simp only [bind_apply, tryCatch_apply, map_eq_pure_bind]
  rcases action before with ⟨fault | value, after⟩
  · dsimp only
    rcases handler fault after with ⟨_ | value, later⟩
    · rfl
    · dsimp only
      rcases next value later with ⟨_ | _, _⟩ <;> rfl
  · rfl

/-- From every state of `pre` an action ends in a state of `post`, and its result, if it has one, is
good. -/
def Ensures (pre post : Machine → Prop) (good : α → Prop) (action : Run α) : Prop :=
  ∀ before, pre before →
    post (action before).2 ∧ ∀ value, (action before).1 = .ok value → good value

abbrev Keeps (inv : Machine → Prop) (good : α → Prop) (action : Run α) : Prop :=
  Ensures inv inv good action

end Scss.Run
