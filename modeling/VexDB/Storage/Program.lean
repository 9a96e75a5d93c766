import VexDB.Storage.Transaction

/-!
# Programs of atomic steps

A program carries out one transaction after another.  Each step is atomic; the
choice of the next step may depend on what the step saw.  A failing step ends
the program and undoes nothing that came before it.
-/

namespace VexDB.Storage

open Tx

universe u

/-- A program either is finished or has a step to make: the step changes the
state, and the rest of the program may depend on the state the step found. -/
inductive Program (σ ε α : Type u) : Type u
  | done (result : Except ε α)
  | step (act : σ -> σ) (next : σ -> Program σ ε α)

namespace Program

variable {σ ε α β : Type u} {value : α} {after : σ} {tx : Tx σ ε α} {state : σ} {next : α -> Program
  σ ε β} {first : Program σ ε α} {error : ε}

/-- Continue with a second program unless the first one fails. -/
protected def bind : Program σ ε α -> (α -> Program σ ε β) -> Program σ ε β
  | .done (.ok value), next => next value
  | .done (.error error), _ => .done (.error error)
  | .step act rest, next => .step act fun state => (rest state).bind next

instance : Monad (Program σ ε) where
  pure value := .done (.ok value)
  bind := Program.bind

/-- The state after a transaction: a transaction that fails has no effect. -/
def effect (tx : Tx σ ε α) (state : σ) : σ :=
  match tx state with
  | .ok (_, after) => after
  | .error _ => state

/-- A transaction as a program of one step. -/
def exec (tx : Tx σ ε α) : Program σ ε α :=
  .step (effect tx) fun state => .done ((tx state).map Prod.fst)

/-- Run a program to its end without interference. -/
def run : Program σ ε α -> σ -> Except ε α × σ
  | .done result, state => (result, state)
  | .step act next, state => (next state).run (act state)

/-- A program as one transaction: if it fails, all its steps are undone. -/
def savepoint (program : Program σ ε α) : Tx σ ε α := fun state =>
  match program.run state with
  | (.ok value, after) => .ok (value, after)
  | (.error error, _) => .error error

@[simp] theorem run_pure (value : α) (state : σ) :
    (pure value : Program σ ε α).run state = (.ok value, state) := rfl

theorem run_bind (first : Program σ ε α) (next : α -> Program σ ε β) (state : σ) :
    (first >>= next).run state =
      match first.run state with
      | (.ok value, between) => (next value).run between
      | (.error error, between) => (.error error, between) := by
  induction first generalizing state with
  | done result => cases result <;> rfl
  | step act rest ih =>
    exact ih state (act state)

theorem run_bind_ok (ran : first.run state = (.ok value, between)) :
    (first >>= next).run state = (next value).run between := by
  rw [run_bind, ran]

theorem run_bind_eq_ok :
    (first >>= next).run state = (.ok result, after) ↔
      ∃ value between, first.run state = (.ok value, between) ∧
        (next value).run between = (.ok result, after) := by
  rw [run_bind]
  rcases ran : first.run state with ⟨_ | value, between⟩
  · simp
  · simp only [Prod.mk.injEq, Except.ok.injEq]
    constructor
    · intro rest
      exact ⟨value, between, ⟨rfl, rfl⟩, rest⟩
    · rintro ⟨_, _, ⟨rfl, rfl⟩, rest⟩
      exact rest

theorem run_pure_eq_ok :
    (pure value : Program σ ε α).run state = (.ok other, after) ↔
      other = value ∧ after = state := by
  rw [run_pure, Prod.mk.injEq, Except.ok.injEq]
  exact and_congr eq_comm eq_comm

theorem run_exec (tx : Tx σ ε α) (state : σ) :
    (exec tx).run state = ((tx state).map Prod.fst, effect tx state) := rfl

theorem run_exec_ok (returned : tx state = .ok (value, after)) :
    (exec tx).run state = (.ok value, after) := by
  rw [run_exec, effect, returned]
  rfl

theorem run_exec_error (failed : tx state = .error error) :
    (exec tx).run state = (.error error, state) := by
  rw [run_exec, effect, failed]
  rfl

theorem run_exec_eq_ok :
    (exec tx).run state = (.ok value, after) ↔ tx state = .ok (value, after) := by
  rw [run_exec, effect]
  cases tx state with
  | error => simp [Except.map]
  | ok => simp [Except.map, Prod.ext_iff]

@[simp] theorem run_reading (look : σ → α) (state : σ) :
    (exec (reading look) : Program σ ε α).run state = (.ok (look state), state) := rfl

@[simp] theorem run_write (change : σ → σ) (state : σ) :
    (exec (write change) : Program σ ε PUnit).run state = (.ok ⟨⟩, change state) := rfl

theorem run_require (found : look state = some value) :
    (exec (require look error)).run state = (.ok value, state) :=
  run_exec_ok (require_ok.2 ⟨found, rfl⟩)

theorem run_rejectIf [Decidable condition] (fails : ¬ condition) :
    (exec (rejectIf condition error)).run state = (.ok ⟨⟩, state) :=
  run_exec_ok (rejectIf_ok.2 ⟨fails, rfl⟩)

theorem savepoint_ok :
    savepoint program state = .ok (value, after) ↔ program.run state = (.ok value, after) := by
  unfold savepoint
  rcases program.run state with ⟨outcome | _, _⟩ <;> simp

/-- A program that runs alone makes a number of steps of a relation, whether or
not it fails. -/
def Traces (step : σ -> σ -> Prop) (program : Program σ ε α) : Prop :=
  ∀ state, Relation.ReflTransGen step state (program.run state).2

namespace Traces

variable {step : σ -> σ -> Prop} {next : α -> Program σ ε β} {first program : Program σ ε α}

/-- The steps of a relation are steps of a larger one. -/
protected theorem mono (traces : Traces step program)
    (larger : ∀ {state after}, step state after -> other state after) : Traces other program :=
  fun state => Relation.ReflTransGen.mono (fun _ _ one => larger one) _ _ (traces state)

protected theorem pure (value : α) : Traces step (pure value : Program σ ε α) :=
  fun _ => .refl

/-- The steps of a sequence from one state, where the second part may use what the
first part returned there. -/
theorem bind_at (begun : Relation.ReflTransGen step state (first.run state).2)
    (rest : ∀ value between, first.run state = (.ok value, between) ->
      Relation.ReflTransGen step between ((next value).run between).2) :
    Relation.ReflTransGen step state ((first >>= next).run state).2 := by
  rw [run_bind]
  rcases ran : first.run state with ⟨_ | value, between⟩
  · rw [ran] at begun
    exact begun
  · rw [ran] at begun
    exact begun.trans (rest value between ran)

protected theorem bind
    (firstTraces : Traces step first) (nextTraces : ∀ value, Traces step (next value)) :
    Traces step (first >>= next) :=
  fun state => bind_at (firstTraces state) fun value between _ => nextTraces value between

protected theorem exec (traces : Tx.Traces step tx) : Traces step (exec tx) := by
  intro state
  rcases returned : tx state with _ | ⟨value, after⟩
  · rw [run_exec_error returned]
  · rw [run_exec_ok returned]
    exact traces state value after returned

/-- A transaction is made first. -/
protected theorem call (traces : Tx.Traces step tx)
    (rest : ∀ value, Traces step (next value)) : Traces step (exec tx >>= next) :=
  .bind (.exec traces) rest

protected theorem look [Tx.ReadOnly tx]
    (rest : ∀ value, Traces step (next value)) : Traces step (exec tx >>= next) :=
  .call .of_readOnly rest

protected theorem guard [Decidable condition] {next : Program σ ε β} (traces : Traces step next) :
    Traces step (exec (rejectIf condition error) >>= fun _ => next) :=
  .look fun _ => traces

protected theorem reads (traces : ∀ value, Traces step (next value)) :
    Traces step (exec (reading look) >>= next) :=
  .look traces

protected theorem ite [Decidable condition]
    (firstTraces : Traces step first) (secondTraces : Traces step second) :
    Traces step (if condition then first else second) := by
  split_ifs
  · exact firstTraces
  · exact secondTraces

/-- Two writes after each other as one step. -/
theorem pair {first second : σ -> σ} {next : Program σ ε α}
    (steps : ∀ state, step state (second (first state))) (rest : Traces step next) :
    Traces step (do
      exec (write first)
      exec (write second)
      next : Program σ ε α) :=
  fun state => .head (steps state) (rest (second (first state)))

protected theorem savepoint (traces : Traces step program) :
    Tx.Traces step (savepoint program) := by
  intro state _ _ returned
  have ran := traces state
  rw [savepoint_ok.1 returned] at ran
  exact ran

end Traces

end Program
end VexDB.Storage
