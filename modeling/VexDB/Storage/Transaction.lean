import Mathlib.Data.List.Forall2
import Mathlib.Logic.Relation

/-!
# Transactions and programs of transactions

A transaction reads and writes a state and either returns a value or fails; a
transaction that fails leaves the state as it found it.  A program is a
sequence of transactions, each of them atomic: what it does next may depend on
what the earlier ones returned, and if one of them fails the program ends there
with the effects of the earlier ones in place.  Programs can be run alone, cut
off after any number of steps, or interleaved with other programs.
-/

namespace VexDB.Storage

open List Prod Except

universe u

/-- What every step of a relation keeps holds after any number of them. -/
theorem keep_of_steps {σ : Type u} {step : σ -> σ -> Prop} (property : σ -> Prop)
    (keeps : ∀ state after, property state -> step state after -> property after) {state after : σ}
    (holds : property state) (steps : Relation.ReflTransGen step state after) : property after := by
  induction steps with
  | refl => exact holds
  | tail _ last kept => exact keeps _ _ kept last

/-- Read and write a state of type `σ`, or fail with an error. -/
abbrev Tx (σ ε α : Type u) := StateT σ (Except ε) α

namespace Tx

variable {σ ε α β : Type u}

/-- Look at the state. -/
def reading (look : σ -> α) : Tx σ ε α := fun state => .ok (look state, state)

/-- Look for something in the state and fail if it is not there. -/
def require (look : σ -> Option α) (error : ε) : Tx σ ε α := fun state =>
  match look state with
  | some value => .ok (value, state)
  | none => .error error

/-- Change the state. -/
def write (change : σ -> σ) : Tx σ ε PUnit := fun state => .ok (⟨⟩, change state)

/-- Change the state, or fail. -/
def attempt (change : σ -> Except ε σ) : Tx σ ε PUnit := fun state =>
  (change state).map fun after => (⟨⟩, after)

/-- Fail if a condition holds. -/
def rejectIf (condition : Prop) [Decidable condition] (error : ε) : Tx σ ε PUnit := fun state =>
  if condition then .error error else .ok (⟨⟩, state)

/-- Fail. -/
def fail (error : ε) : Tx σ ε α := fun _ => .error error

/-- Do something if a condition holds. -/
def onlyIf (condition : Prop) [Decidable condition] (body : Tx σ ε PUnit) : Tx σ ε PUnit :=
  if condition then body else pure ⟨⟩

/-- Forget the value. -/
def discard (tx : Tx σ ε α) : Tx σ ε PUnit := do
  let _ <- tx

variable {state after : σ} {value : α} {first : Tx σ ε α} {next : α -> Tx σ ε β} {between : α -> σ →
  Prop} {tx : Tx σ ε α} {condition : Prop} [Decidable condition] {error : ε} {start : σ -> Prop}
  {finish : β -> σ -> Prop} {change : σ -> σ}

theorem pure_ok :
    (pure value : Tx σ ε α) state = .ok (other, after) ↔ other = value ∧ after = state := by
  constructor
  · intro returned
    cases returned
    exact ⟨rfl, rfl⟩
  · rintro ⟨rfl, rfl⟩
    rfl

theorem bind_ok :
    (first >>= next) state = .ok (result, after) ↔
      ∃ value between, first state = .ok (value, between) ∧
        next value between = .ok (result, after) := by
  change (Except.bind (first state) fun pair => next pair.1 pair.2) = _ ↔ _
  cases outcome : first state with
  | error => simp [Except.bind]
  | ok pair =>
    obtain ⟨value, between⟩ := pair
    simp only [ok.injEq, mk.injEq]
    constructor
    · intro returned
      exact ⟨value, between, ⟨rfl, rfl⟩, returned⟩
    · rintro ⟨_, _, ⟨rfl, rfl⟩, returned⟩
      exact returned

theorem reading_ok :
    (reading look : Tx σ ε α) state = .ok (value, after) ↔
      value = look state ∧ after = state := by
  unfold reading
  simp only [ok.injEq, mk.injEq]
  exact and_congr eq_comm eq_comm

theorem require_ok :
    require look error state = .ok (value, after) ↔
      look state = some value ∧ after = state := by
  unfold require
  cases look state with
  | none => simp
  | some =>
    simp only [ok.injEq, mk.injEq, Option.some.injEq]
    exact and_congr Iff.rfl eq_comm

theorem write_ok :
    (write change : Tx σ ε PUnit) state = .ok (nothing, after) ↔ after = change state := by
  unfold write
  simp only [ok.injEq, mk.injEq, true_and]
  exact eq_comm

theorem attempt_ok {change : σ -> Except ε σ} :
    attempt change state = .ok (nothing, after) ↔ change state = .ok after := by
  unfold attempt
  cases change state with
  | error => simp [Except.map]
  | ok => simp [Except.map]

/-- A change that a row already there prevents. -/
theorem attempt_unless_ok {taken : σ -> Prop} [DecidablePred taken] :
    attempt (fun state => if taken state then .error error else .ok (change state)) state =
        .ok (nothing, after) ↔ ¬ taken state ∧ after = change state := by
  rw [attempt_ok]
  split_ifs with holds
  · simp [holds]
  · simp only [ok.injEq, holds, not_false_eq_true, true_and]
    exact eq_comm

theorem rejectIf_ok :
    rejectIf condition error state = .ok (nothing, after) ↔ ¬ condition ∧ after = state := by
  unfold rejectIf
  split_ifs with holds
  · simp [holds]
  · simp only [ok.injEq, mk.injEq, true_and, holds, not_false_eq_true]
    exact eq_comm

theorem onlyIf_ok :
    onlyIf condition body state = .ok (nothing, after) ↔
      (condition ∧ body state = .ok (nothing, after)) ∨ (¬ condition ∧ after = state) := by
  unfold onlyIf
  split_ifs with holds
  · simp [holds]
  · rw [pure_ok]
    simp [holds]

theorem discard_ok :
    discard tx state = .ok (nothing, after) ↔ ∃ value, tx state = .ok (value, after) := by
  unfold discard
  rw [bind_ok]
  constructor
  · rintro ⟨value, _, returned, last⟩
    obtain ⟨_, rfl⟩ := pure_ok.1 last
    exact ⟨value, returned⟩
  · rintro ⟨value, returned⟩
    exact ⟨value, after, returned, pure_ok.2 ⟨rfl, rfl⟩⟩

theorem fail_ok : (fail error : Tx σ ε α) state = .ok (value, after) ↔ False := by
  simp [fail]

/-- A transaction that leaves the state as it is when it succeeds. -/
class ReadOnly (tx : Tx σ ε α) : Prop where
  same : ∀ {state value after}, tx state = .ok (value, after) -> after = state

instance : ReadOnly (pure value : Tx σ ε α) := ⟨fun returned => (pure_ok.1 returned).2⟩

instance : ReadOnly (fail error : Tx σ ε α) := ⟨fun returned => (fail_ok.1 returned).elim⟩

instance {look : σ -> α} : ReadOnly (reading look : Tx σ ε α) :=
  ⟨fun returned => (reading_ok.1 returned).2⟩

instance {look : σ -> Option α} : ReadOnly (require look error) :=
  ⟨fun returned => (require_ok.1 returned).2⟩

instance : ReadOnly (rejectIf condition error : Tx σ ε PUnit) :=
  ⟨fun returned => (rejectIf_ok.1 returned).2⟩

instance [ReadOnly first] [∀ value, ReadOnly (next value)] : ReadOnly (first >>= next) where
  same returned := by
    obtain ⟨_, _, looked, rest⟩ := bind_ok.1 returned
    exact (ReadOnly.same rest).trans (ReadOnly.same looked)

instance {other : Tx σ ε α} [ReadOnly tx] [ReadOnly other] :
    ReadOnly (if condition then tx else other) := by
  split_ifs
  · assumption
  · assumption

/-- A transaction that succeeds makes a number of steps of a relation. -/
def Traces (step : σ -> σ -> Prop) (tx : Tx σ ε α) : Prop :=
  ∀ state value after, tx state = .ok (value, after) -> Relation.ReflTransGen step state after

namespace Traces

variable {step : σ -> σ -> Prop} {change : σ -> σ}

/-- The steps of a relation are steps of a larger one. -/
protected theorem mono (traces : Traces step tx)
    (larger : ∀ {state after}, step state after -> other state after) : Traces other tx :=
  fun state value after returned =>
    Relation.ReflTransGen.mono (fun _ _ one => larger one) _ _ (traces state value after returned)

/-- A transaction that leaves the state as it is makes no step. -/
protected theorem of_readOnly [ReadOnly tx] : Traces step tx := by
  intro _ _ _ returned
  rw [ReadOnly.same returned]

protected theorem pure (value : α) : Traces step (pure value : Tx σ ε α) := .of_readOnly

protected theorem bind
    (firstTraces : Traces step first) (nextTraces : ∀ value, Traces step (next value)) :
    Traces step (first >>= next) := by
  intro state result after returned
  obtain ⟨value, between, firstReturned, nextReturned⟩ := bind_ok.1 returned
  exact (firstTraces state value between firstReturned).trans
    (nextTraces value between result after nextReturned)

/-- A part that leaves the state as it is comes first. -/
protected theorem look [ReadOnly first] (traces : ∀ value, Traces step (next value)) :
    Traces step (first >>= next) :=
  .bind .of_readOnly traces

protected theorem guard {next : Tx σ ε β}
    (traces : Traces step next) : Traces step (rejectIf condition error >>= fun _ => next) :=
  .look fun _ => traces

protected theorem reads
    (traces : ∀ value, Traces step (next value)) : Traces step (reading look >>= next) :=
  .look traces

protected theorem write (steps : ∀ state, step state (change state)) :
    Traces step (write change : Tx σ ε PUnit) := by
  intro state _ _ returned
  rw [write_ok.1 returned]
  exact .single (steps state)

/-- A change that a row already there prevents. -/
protected theorem attempt_unless [DecidablePred taken]
    (steps : ∀ state, ¬ taken state -> step state (change state)) :
    Traces step (attempt fun state =>
      if taken state then .error error else .ok (change state)) := by
  intro state _ _ returned
  obtain ⟨free, rfl⟩ := attempt_unless_ok.1 returned
  exact .single (steps state free)

protected theorem ite (firstTraces : Traces step first) (secondTraces : Traces step second) :
    Traces step (if condition then first else second) := by
  split_ifs
  · exact firstTraces
  · exact secondTraces

protected theorem onlyIf (bodyTraces : Traces step body) : Traces step (onlyIf condition body) :=
  Traces.ite bodyTraces (.pure _)

protected theorem discard (traces : Traces step tx) : Traces step (discard tx) :=
  Traces.bind traces fun _ => .pure _

/-- A loop over a list makes the steps of its rounds. -/
protected theorem forM (list : List α)
    (rounds : ∀ item ∈ list, Traces step (body item)) : Traces step (list.forM body) := by
  induction list with
  | nil => exact .pure _
  | cons item list ih =>
    exact .bind (rounds item mem_cons_self) fun _ =>
      ih fun other member => rounds other (mem_cons_of_mem _ member)

protected theorem mapM (list : List α)
    (rounds : ∀ item ∈ list, Traces step (body item)) : Traces step (list.mapM body) := by
  induction list with
  | nil => exact .pure _
  | cons item list ih =>
    rw [mapM_cons]
    exact .bind (rounds item mem_cons_self) fun _ =>
      Traces.bind (ih fun other member => rounds other (mem_cons_of_mem _ member))
        fun _ => .pure _

end Traces

/-- A transaction that succeeds from a state with a property makes a number of steps of a
relation. -/
def TracesFrom (step : σ -> σ -> Prop) (start : σ -> Prop) (tx : Tx σ ε α) : Prop :=
  ∀ state value after, start state -> tx state = .ok (value, after) ->
    Relation.ReflTransGen step state after

/-- A transaction that succeeds from a state with a property ends with a value and a state
that belong together. -/
def Ensures (start : σ -> Prop) (tx : Tx σ ε α) (finish : α -> σ -> Prop) : Prop :=
  ∀ state value after, start state -> tx state = .ok (value, after) -> finish value after

protected theorem Ensures.pure {finish : α -> σ -> Prop} {value : α}
    (holds : ∀ state, start state -> finish value state) :
    Ensures start (pure value : Tx σ ε α) finish := by
  intro _ _ _ starts returned
  obtain ⟨rfl, rfl⟩ := pure_ok.1 returned
  exact holds _ starts

protected theorem Ensures.bind (firstEnsures : Ensures start first between)
    (nextEnsures : ∀ value, Ensures (between value) (next value) finish) :
    Ensures start (first >>= next) finish := by
  intro state result after starts returned
  obtain ⟨value, middle, firstReturned, nextReturned⟩ := bind_ok.1 returned
  exact nextEnsures value middle result after
    (firstEnsures state value middle starts firstReturned) nextReturned

/-- Whatever a first part does, the rest ensures what is needed. -/
protected theorem Ensures.bind_last
    (nextEnsures : ∀ value, Ensures (fun _ => True) (next value) finish) :

    Ensures start (first >>= next) finish :=
  Ensures.bind (fun _ _ _ _ _ => trivial) nextEnsures

/-- A loop keeps what its rounds keep. -/
theorem Ensures.forM (start : σ -> Prop) (list : List α)
    (rounds : ∀ item ∈ list, Ensures start (body item) fun _ => start) :
    Ensures start (list.forM body) fun _ => start := by
  induction list with
  | nil =>
    intro state value after holds returned
    rw [(pure_ok.1 returned).2]
    exact holds
  | cons item list step =>
    intro state value after holds returned
    obtain ⟨_, between, first, rest⟩ := bind_ok.1 returned
    exact step (fun other member => rounds other (mem_cons_of_mem _ member)) between value
      after (rounds item mem_cons_self state _ between holds first) rest

namespace TracesFrom

variable {step : σ -> σ -> Prop} {start : σ -> Prop} {body : α -> Tx σ ε PUnit}

protected theorem of_traces (traces : Traces step tx) : TracesFrom step start tx :=
  fun state value after _ => traces state value after

section

variable (keeps : ∀ state after, start state -> step state after -> start after)
include keeps

/-- A property that the steps keep is kept. -/
protected theorem ensures (traces : TracesFrom step start tx) : Ensures start tx fun _ => start :=
  fun state value after holds returned =>
    keep_of_steps start keeps holds (traces state value after holds returned)

omit keeps in
protected theorem bind
    (firstTraces : TracesFrom step start first) (ensures : Ensures start first between)
    (nextTraces : ∀ value, TracesFrom step (between value) (next value)) :
    TracesFrom step start (first >>= next) := by
  intro state result after holds returned
  obtain ⟨value, middle, firstReturned, nextReturned⟩ := bind_ok.1 returned
  exact (firstTraces state value middle holds firstReturned).trans
    (nextTraces value middle result after (ensures state value middle holds firstReturned)
      nextReturned)

/-- Steps that keep a property can come before what needs it. -/
protected theorem bind_keeping (firstTraces : Traces step first)
    (nextTraces : ∀ value, TracesFrom step start (next value)) :
    TracesFrom step start (first >>= next) :=
  .bind (.of_traces firstTraces) (TracesFrom.ensures keeps (.of_traces firstTraces)) nextTraces

end

protected theorem bind_last
    (firstTraces : TracesFrom step start first) (nextTraces : ∀ value, Traces step (next value)) :
    TracesFrom step start (first >>= next) :=
  TracesFrom.bind firstTraces
    (show Ensures start first fun _ _ => True from fun _ _ _ _ _ => trivial)
    fun value => .of_traces (nextTraces value)

protected theorem forM (list : List α) (rounds : ∀ item ∈ list, TracesFrom step start (body item))
    (keeps : ∀ item ∈ list, Ensures start (body item) fun _ => start) :
    TracesFrom step start (list.forM body) := by
  induction list with
  | nil => exact .of_traces (.pure _)
  | cons item list ih =>
    exact .bind (rounds item mem_cons_self) (keeps item mem_cons_self) fun _ =>
      ih (fun other member => rounds other (mem_cons_of_mem _ member))
        fun other member => keeps other (mem_cons_of_mem _ member)

/-- A loop whose steps keep what its rounds need. -/
protected theorem forM_keeping (list : List α)
    (keeps : ∀ state after, start state -> step state after -> start after)
    (rounds : ∀ item ∈ list, TracesFrom step start (body item)) :
    TracesFrom step start (list.forM body) :=
  .forM list rounds fun item member => TracesFrom.ensures keeps (rounds item member)

end TracesFrom

/-- What a first part ensures is there for the second. -/
protected theorem Traces.bind_ensuring (firstTraces : Traces step first)
    (ensures : Ensures (fun _ => True) first between)
    (nextTraces : ∀ value, TracesFrom step (between value) (next value)) :
    Traces step (first >>= next) := fun state result after returned =>
  TracesFrom.bind (.of_traces firstTraces) ensures nextTraces state result after trivial returned

/-- A transaction that succeeds from a state with a property makes a number of steps of a
relation, and ends with a value and a state that belong together. -/
def Reaches (step : σ -> σ -> Prop) (start : σ -> Prop) (tx : Tx σ ε α) (finish : α -> σ -> Prop) :
    Prop :=
  ∀ state value after, start state -> tx state = .ok (value, after) ->
    Relation.ReflTransGen step state after ∧ finish value after

namespace Reaches

variable {step : σ -> σ -> Prop} {start : σ -> Prop} {finish : β -> σ -> Prop}

protected theorem pure {finish : α -> σ -> Prop} {value : α}
    (holds : ∀ state, start state -> finish value state) :
    Reaches step start (pure value : Tx σ ε α) finish := by
  intro _ _ _ starts returned
  obtain ⟨rfl, rfl⟩ := pure_ok.1 returned
  exact ⟨.refl, holds _ starts⟩

protected theorem bind (firstReaches : Reaches step start first between)
    (nextReaches : ∀ value, Reaches step (between value) (next value) finish) :
    Reaches step start (first >>= next) finish := by
  intro state result after starts returned
  obtain ⟨value, middle, firstReturned, nextReturned⟩ := bind_ok.1 returned
  obtain ⟨firstSteps, holds⟩ := firstReaches state value middle starts firstReturned
  obtain ⟨nextSteps, ends⟩ := nextReaches value middle result after holds nextReturned
  exact ⟨firstSteps.trans nextSteps, ends⟩

protected theorem bind_keeping (keeps : ∀ state after, start state → step state after → start after)
    (firstTraces : Traces step first)
    (nextReaches : ∀ value, Reaches step start (next value) finish) :
    Reaches step start (first >>= next) finish :=
  Reaches.bind
    (fun state value after starts returned =>
      have steps := firstTraces state value after returned
      ⟨steps, keep_of_steps start keeps starts steps⟩)
    nextReaches

/-- A part that leaves the state as it is comes first. -/
protected theorem look [ReadOnly first]
    (nextReaches : ∀ value, Reaches step start (next value) finish) :
    Reaches step start (first >>= next) finish := by
  intro _ result after starts returned
  obtain ⟨value, _, looked, rest⟩ := bind_ok.1 returned
  obtain rfl := ReadOnly.same looked
  exact nextReaches value _ result after starts rest

/-- What is done with the value of a first part. -/
protected theorem bind_from (firstReaches : Reaches step start first between)
    (nextTraces : ∀ value, TracesFrom step (between value) (next value)) :
    TracesFrom step start (first >>= next) :=
  .bind (fun state value after starts returned =>
      (firstReaches state value after starts returned).1)
    (fun state value after starts returned =>
      (firstReaches state value after starts returned).2) nextTraces

protected theorem traces_bind (firstReaches : Reaches step (fun _ => True) first between)
    (nextTraces : ∀ value, TracesFrom step (between value) (next value)) :
    Traces step (first >>= next) := fun state value after returned =>
  firstReaches.bind_from nextTraces state value after trivial returned

end Reaches

/-- A transaction that fails in a state does so with one of some errors. -/
def FailsWith (tx : Tx σ ε α) (state : σ) (possible : ε -> Prop) : Prop :=
  ∀ error, tx state = .error error -> possible error

namespace FailsWith

variable {possible : ε -> Prop}

protected theorem pure (value : α) : FailsWith (pure value : Tx σ ε α) state possible := by
  rintro _ ⟨⟩

protected theorem bind (firstFails : FailsWith first state possible)
    (nextFails : ∀ value between, first state = .ok (value, between) ->
      FailsWith (next value) between possible) : FailsWith (first >>= next) state possible := by
  intro error failed
  change (Except.bind (first state) fun pair => next pair.1 pair.2) = _ at failed
  cases outcome : first state with
  | error =>
    rw [outcome] at failed
    cases failed
    exact firstFails _ outcome
  | ok pair =>
    rw [outcome] at failed
    exact nextFails pair.1 pair.2 outcome error failed

protected theorem reading (look : σ -> α) : FailsWith (reading look : Tx σ ε α) state possible :=
  fun _ failed => absurd failed (by simp [reading])

protected theorem write (change : σ → σ) : FailsWith (write change : Tx σ ε PUnit) state possible :=
  fun _ failed => absurd failed (by simp [write])

protected theorem require (fits : possible error) :
    FailsWith (require look error) state possible := by
  intro _ failed
  unfold require at failed
  split at failed
  · cases failed
  · rw [<- Except.error.inj failed]
    exact fits

protected theorem rejectIf
    (fits : possible error) : FailsWith (rejectIf condition error) state possible := by
  intro _ failed
  unfold rejectIf at failed
  split_ifs at failed
  rw [<- Except.error.inj failed]
  exact fits

protected theorem attempt {change : σ -> Except ε σ}
    (fits : ∀ error, change state = .error error -> possible error) :
    FailsWith (attempt change) state possible := by
  intro _ failed
  unfold attempt at failed
  cases changed : change state with
  | error error =>
    rw [changed] at failed
    rw [<- Except.error.inj failed]
    exact fits error changed
  | ok =>
    rw [changed] at failed
    exact absurd failed (by simp [Except.map])

end FailsWith

/-- From related states a transaction fails with one error, or it returns one value with a
property and leads to related states. -/
def Alike (related : σ -> σ -> Prop) (tx : Tx σ ε α) (property : α -> Prop) : Prop :=
  ∀ left right, related left right ->
    (∃ error, tx left = .error error ∧ tx right = .error error) ∨
      ∃ value leftAfter rightAfter, tx left = .ok (value, leftAfter) ∧
        tx right = .ok (value, rightAfter) ∧ property value ∧ related leftAfter rightAfter

namespace Alike

variable {related : σ -> σ -> Prop} {property : α -> Prop}

/-- The results are the same. -/
theorem map_fst (alike : Alike related tx property)
    (holds : related left right) : (tx left).map fst = (tx right).map fst := by
  rcases alike left right holds with ⟨_, leftFails, rightFails⟩ |
    ⟨value, _, _, leftReturns, rightReturns, _⟩
  · rw [leftFails, rightFails]
  · rw [leftReturns, rightReturns]
    rfl

protected theorem pure (value : α) : Alike related (pure value : Tx σ ε α) fun _ => True :=
  fun left right holds => .inr ⟨value, left, right, rfl, rfl, trivial, holds⟩

protected theorem bind (firstAlike : Alike related first property)
    (nextAlike : ∀ value, property value -> Alike related (next value) final) :
    Alike related (first >>= next) final := by
  intro left right holds
  rcases firstAlike left right holds with ⟨error, leftFails, rightFails⟩ |
    ⟨value, leftAfter, rightAfter, leftReturns, rightReturns, fits, still⟩
  · left
    refine ⟨error, ?_, ?_⟩
    · change (Except.bind (first left) _) = _
      rw [leftFails]
      rfl
    · change (Except.bind (first right) _) = _
      rw [rightFails]
      rfl
  · have leftRest : (first >>= next) left = next value leftAfter := by
      change (Except.bind (first left) _) = _
      rw [leftReturns]
      rfl
    have rightRest : (first >>= next) right = next value rightAfter := by
      change (Except.bind (first right) _) = _
      rw [rightReturns]
      rfl
    rw [leftRest, rightRest]
    exact nextAlike value fits leftAfter rightAfter still

protected theorem require (same : ∀ left right, related left right -> look left = look right)
    (fits : ∀ left right value, related left right -> look left = some value -> property value) :
    Alike related (require look error) property := by
  intro left right holds
  unfold require
  rw [<- same left right holds]
  cases found : look left with
  | none => exact .inl ⟨error, rfl, rfl⟩
  | some value =>
    exact .inr ⟨value, left, right, rfl, rfl, fits left right value holds found, holds⟩

protected theorem rejectIf (condition : Prop) [Decidable condition] (error : ε) :
    Alike related (rejectIf condition error) fun _ => True := by
  intro left right holds
  unfold rejectIf
  split_ifs
  · exact .inl ⟨error, rfl, rfl⟩
  · exact .inr ⟨⟨⟩, left, right, rfl, rfl, trivial, holds⟩

protected theorem write
    (keeps : ∀ left right, related left right -> related (change left) (change right)) :
    Alike related (write change : Tx σ ε PUnit) fun _ => True :=
  fun left right holds => .inr ⟨⟨⟩, _, _, rfl, rfl, trivial, keeps left right holds⟩

end Alike

end Tx

/-! ## Computations that may fail -/

theorem except_bind_ok {ε α β : Type} {first : Except ε α} {next : α -> Except ε β} {result : β} :
    (first >>= next) = .ok result ↔ ∃ value, first = .ok value ∧ next value = .ok result := by
  cases first with
  | error => simp [bind, Except.bind]
  | ok => simp [bind, Except.bind]

/-- What `mapM` gives in `Except`, item by item. -/
theorem mapM_except_ok {ε α β : Type} {body : α -> Except ε β} {list : List α} {results : List β}
    (mapped : list.mapM body = .ok results) :
    List.Forall₂ (fun item result => body item = .ok result) list results := by
  induction list generalizing results with
  | nil =>
    cases mapped
    exact .nil
  | cons item list step =>
    rw [mapM_cons] at mapped
    obtain ⟨result, first, rest⟩ := except_bind_ok.1 mapped
    obtain ⟨_, found, last⟩ := except_bind_ok.1 rest
    cases last
    exact .cons first (step found)

theorem mapM_except_of_forall₂ {ε α β : Type} {body : α -> Except ε β} {list : List α}
    {results : List β}
    (each : List.Forall₂ (fun item result => body item = .ok result) list results) :
    list.mapM body = .ok results := by
  induction each with
  | nil => rfl
  | cons first _ step =>
    rw [mapM_cons, first, step]
    rfl

/-- Every result of `mapM` in `Except` is the result of an item. -/
theorem exists_of_mapM_ok {ε α β : Type} {body : α -> Except ε β} {list : List α}
    {results : List β} (mapped : list.mapM body = .ok results) {result : β}
    (member : result ∈ results) : ∃ item ∈ list, body item = .ok result := by
  have each := mapM_except_ok mapped
  clear mapped
  induction each with
  | nil => cases member
  | @cons item first list results returned _ step =>
    rcases mem_cons.1 member with rfl | later
    · exact ⟨item, mem_cons_self, returned⟩
    · obtain ⟨other, inList, found⟩ := step later
      exact ⟨other, mem_cons_of_mem _ inList, found⟩

end VexDB.Storage
