import Mathlib.Data.List.Basic

/-!
# Runs under a condition

A run folds a step function over a list of operations.  What every operation
keeps that meets a condition in its state, a run keeps whose operations all
meet it.
-/

namespace VexDB.Storage

variable {σ ι : Type*}

/-- Every operation of a run is allowed in the state it meets. -/
def Along (step : σ -> ι -> σ) (allowed : σ -> ι -> Prop) : σ -> List ι -> Prop
  | _, [] => True
  | state, op :: rest => allowed state op ∧ Along step allowed (step state op) rest

instance instDecidableAlong (step : σ -> ι -> σ) (allowed : σ -> ι -> Prop)
    [∀ state op, Decidable (allowed state op)] :
    (state : σ) -> (ops : List ι) -> Decidable (Along step allowed state ops)
  | _, [] => inferInstanceAs (Decidable True)
  | state, op :: rest =>
    have := instDecidableAlong step allowed (step state op) rest
    inferInstanceAs (Decidable (_ ∧ _))

/-- What every allowed operation keeps, a run keeps. -/
theorem Along.foldl {step : σ -> ι -> σ} {allowed : σ -> ι -> Prop} {inv : σ -> Prop}
    (keeps : ∀ state op, inv state -> allowed state op -> inv (step state op)) {state : σ}
    (holds : inv state) {ops : List ι} (along : Along step allowed state ops) :
    inv (ops.foldl step state) := by
  induction ops generalizing state with
  | nil => exact holds
  | cons op rest ih =>
    exact ih (keeps state op holds along.1) along.2

end VexDB.Storage
