import VexDB.Storage.Runs

/-!
# What a mount session sees of its workspace

A SQLite mount session keeps the last workspace head it observed and reads it
again only when it has a reason to: `PRAGMA data_version` moved, which commits
of other connections do, or the session's own `mutation_epoch` moved, which
the durability helpers of its own calls do.  `UseFullDurability` moves nothing,
so a restore or a publication with full durability is seen only if something
else has moved in the meantime.
-/

namespace VexDB.VexFs
namespace Mount

open Storage

/-- The visibility fields of `vexfs_mount_session` with their initial values.  The synchronous
mode the durability helpers also set decides only whether a `PRAGMA` is issued. -/
structure Session where
  observedDataVersion : Int := -1
  observedWorkspaceHead : Nat := 0
  cacheGeneration : UInt64 := 1
  mutationEpoch : UInt64 := 0
  observedMutationEpoch : UInt64 := 0
  visibilityInitialized : Bool := false
  deriving DecidableEq

def useOrdinaryDurability (session : Session) : Session :=
  { session with mutationEpoch := session.mutationEpoch + 1 }

def useRelaxedDurability (session : Session) : Session :=
  { session with mutationEpoch := session.mutationEpoch + 1 }

def useFullDurability (session : Session) : Session := session

def useRequestedDurability (durability : String) (session : Session) : Session :=
  if durability = "full" then useFullDurability session
  else if durability = "none" then useRelaxedDurability session
  else useOrdinaryDurability session

/-- The epilogue of the batch publications; `none` is a call that failed before it. -/
def countPublished (published : Option Nat) (session : Session) : Session :=
  if 0 < published.getD 0 then { session with mutationEpoch := session.mutationEpoch + 1 }
  else session

/-- The mutating entry points, by the durability helper they begin with. -/
inductive Call
  /-- `mkdir`, `create`, `set_mode`, `set_times`, `symlink`, `link`, `chown`, `write_file`,
  `append_file`, `move`, `rename`, `remove`, `xattr_set`, `acl_set`, `handle_open`,
  `handle_create`, `handle_truncate`, `handle_stage_write`, `handle_append`, `handle_close` and
  `reclaim`. -/
  | write
  /-- `handle_publish`, `handle_publish_close`, `write_file_range`,
  `handle_create_owned_durable`, `handle_create_owned_stat_durable` and
  `handle_stage_write_durable`. -/
  | publish (durability : String)
  | restoreVersion
  | snapshotRestore
  /-- The other snapshot calls, `quota_set`, `retention_set`, `gc` and `gc_pause`. -/
  | administer
  | synchronize
  /-- `publish_close_all` and `publish_close_batch`. -/
  | publishCloseAll (durability : String)
  deriving DecidableEq

/-- What a call does to the session. -/
def Call.enter (published : Option Nat) (session : Session) : Call -> Session
  | .write => useOrdinaryDurability session
  | .publish durability => useRequestedDurability durability session
  | .restoreVersion | .snapshotRestore | .administer => useFullDurability session
  | .synchronize => countPublished published (useFullDurability session)
  | .publishCloseAll durability =>
    countPublished published (useRequestedDurability durability session)

structure Visibility where
  workspaceHead : Nat
  cacheGeneration : UInt64
  externalCommit : Bool
  deriving DecidableEq

/-- The mounted workspace: the head commit in the database, the data version as the session's
connection reads it, and the last refresh with the head at that moment. -/
structure State where
  session : Session := {}
  head : Nat
  dataVersion : Nat
  refreshed : Option (Visibility × Nat) := none
  deriving DecidableEq

namespace State

/-- The session has something to look at: it reads the head again. -/
def Noticed (state : State) : Prop :=
  state.session.visibilityInitialized = false ∨
    (state.dataVersion : Int) ≠ state.session.observedDataVersion ∨
      state.session.mutationEpoch ≠ state.session.observedMutationEpoch

instance (state : State) : Decidable state.Noticed :=
  inferInstanceAs (Decidable (_ ∨ _ ∨ _))

/-- `vexfs_mount_refresh_visibility` on SQLite. -/
def refreshVisibility (state : State) : Session × Visibility :=
  let session := state.session
  let externalDatabaseCommit :=
    session.visibilityInitialized && (state.dataVersion : Int) != session.observedDataVersion
  if state.Noticed then
    let changed :=
      session.visibilityInitialized && state.head != session.observedWorkspaceHead
    let generation := if changed then session.cacheGeneration + 1 else session.cacheGeneration
    ({ session with
        cacheGeneration := generation
        observedWorkspaceHead := state.head
        observedDataVersion := state.dataVersion
        observedMutationEpoch := session.mutationEpoch
        visibilityInitialized := true },
      ⟨state.head, generation, changed && externalDatabaseCommit⟩)
  else
    (session, ⟨session.observedWorkspaceHead, session.cacheGeneration, false⟩)

/-- What can happen to a mounted workspace.  Commit ids only grow, so a call moves the head by
`advance`, which is 0 for one that commits nothing to this workspace; `published` is the count
a batch publication returns. -/
inductive Event
  | call (call : Call) (advance : Nat) (published : Option Nat)
  | foreignCommit (advance : Nat)
  | refresh
  deriving DecidableEq

def step (state : State) : Event -> State
  | .call call advance published =>
    { state with
      session := call.enter published state.session
      head := state.head + advance }
  | .foreignCommit advance =>
    { state with head := state.head + advance, dataVersion := state.dataVersion + 1 }
  | .refresh =>
    { state with
      session := state.refreshVisibility.1
      refreshed := some (state.refreshVisibility.2, state.head) }

/-- A refresh now returns the head, under a generation that differs from the one of the refresh
before exactly if the head has moved since. -/
def Current (state : State) : Prop :=
  state.refreshVisibility.2.workspaceHead = state.head ∧
    ∀ before ∈ state.refreshed,
      (state.refreshVisibility.2.cacheGeneration ≠ before.1.cacheGeneration ↔
        state.head ≠ before.2)

instance (state : State) : Decidable state.Current :=
  inferInstanceAs (Decidable (_ ∧ _))

end State

/-- By how much a call moves the mutation epoch. -/
def Call.bumps (published : Option Nat) : Call -> UInt64
  | .write => 1
  | .publish durability => if durability = "full" then 0 else 1
  | .restoreVersion | .snapshotRestore | .administer => 0
  | .synchronize => if 0 < published.getD 0 then 1 else 0
  | .publishCloseAll durability =>
    (if durability = "full" then 0 else 1) + if 0 < published.getD 0 then 1 else 0

theorem useRequestedDurability_eq (durability : String) (session : Session) :
    useRequestedDurability durability session =
      { session with
        mutationEpoch := session.mutationEpoch + if durability = "full" then 0 else 1 } := by
  unfold useRequestedDurability
  split_ifs <;> simp [useFullDurability, useRelaxedDurability, useOrdinaryDurability]

theorem countPublished_eq (published : Option Nat) (session : Session) :
    countPublished published session =
      { session with
        mutationEpoch := session.mutationEpoch + if 0 < published.getD 0 then 1 else 0 } := by
  unfold countPublished
  split_ifs <;> simp

/-- A call leaves everything of the session but the epoch alone. -/
theorem Call.enter_eq (call : Call) (published : Option Nat) (session : Session) :
    call.enter published session =
      { session with mutationEpoch := session.mutationEpoch + call.bumps published } := by
  cases call <;>
    simp [Call.enter, Call.bumps, useRequestedDurability_eq, countPublished_eq,
      useOrdinaryDurability, useFullDurability, UInt64.add_assoc]

namespace State

/-- A call moves the head only if the session takes notice of it, or has noticed something
already, and does not bring the epoch back round to the observed one. -/
def Announced (state : State) : Event -> Prop
  | .call call advance published =>
    (advance = 0 ∨ state.Noticed ∨ call.bumps published ≠ 0) ∧
      (call.bumps published = 0 ∨ state.session.mutationEpoch + call.bumps published ≠
        state.session.observedMutationEpoch)
  | .foreignCommit _ | .refresh => True

instance (state : State) : (event : Event) -> Decidable (state.Announced event)
  | .call _ _ _ => inferInstanceAs (Decidable (_ ∧ _))
  | .foreignCommit _ | .refresh => inferInstanceAs (Decidable True)

/-- What the session has observed is the present, unless it will notice that it is not. -/
structure Fresh (state : State) : Prop where
  observed : ¬ state.Noticed -> state.session.observedWorkspaceHead = state.head
  observedDataVersion_le : state.session.observedDataVersion <= state.dataVersion
  refreshed_eq : ∀ before ∈ state.refreshed,
    state.session.visibilityInitialized = true ∧
      before.2 = state.session.observedWorkspaceHead ∧
      before.1.cacheGeneration = state.session.cacheGeneration

variable {state : State}

theorem Fresh.refresh (fresh : state.Fresh) : (state.step .refresh).Fresh := by
  unfold step refreshVisibility
  split_ifs with noticed
  · exact ⟨fun _ => rfl, Int.le_refl _, by simp⟩
  · exact ⟨fun _ => fresh.observed noticed, fresh.observedDataVersion_le, by
      have initialized : state.session.visibilityInitialized = true := by
        simpa using fun idle => noticed (.inl idle)
      simp [initialized, fresh.observed noticed]⟩

theorem Fresh.step (fresh : state.Fresh)
    (announced : state.Announced event) : (state.step event).Fresh := by
  cases event with
  | refresh => exact fresh.refresh
  | foreignCommit =>
    refine ⟨fun unnoticed => ?_, ?_, fresh.refreshed_eq⟩
    · -- the data version has just left every number the session can have observed
      have moved : ((state.dataVersion + 1 : Nat) : Int) ≠ state.session.observedDataVersion := by
        have := fresh.observedDataVersion_le
        omega
      exact absurd (.inr (.inl moved)) unnoticed
    · have := fresh.observedDataVersion_le
      show state.session.observedDataVersion <= ((state.dataVersion + 1 : Nat) : Int)
      omega
  | call call advance published =>
    obtain ⟨noticedOrSame, notRound⟩ := announced
    simp only [State.step, Call.enter_eq]
    refine ⟨fun unnoticed => ?_, fresh.observedDataVersion_le, fresh.refreshed_eq⟩
    have noBump : call.bumps published = 0 := by
      by_contra bumps
      exact unnoticed (.inr (.inr (notRound.resolve_left bumps)))
    have unnoticedBefore : ¬ state.Noticed := by
      simpa [Noticed, noBump] using unnoticed
    have still : advance = 0 := by
      simpa [unnoticedBefore, noBump] using noticedOrSame
    simpa [still] using fresh.observed unnoticedBefore

theorem Fresh.current (fresh : state.Fresh) : state.Current := by
  unfold Current refreshVisibility
  split_ifs with noticed
  · refine ⟨rfl, fun before member => ?_⟩
    obtain ⟨initialized, sameHead, sameGeneration⟩ := fresh.refreshed_eq before member
    by_cases moved : state.head = state.session.observedWorkspaceHead
    · simp [moved, sameHead, sameGeneration]
    · simp [initialized, sameHead, sameGeneration]
  · refine ⟨fresh.observed noticed, fun before member => ?_⟩
    obtain ⟨-, sameHead, sameGeneration⟩ := fresh.refreshed_eq before member
    simp [sameGeneration, sameHead, fresh.observed noticed]

/-- Along every run of a session whose calls announce what they commit, a refresh returns the
head of that moment, under a new generation exactly if the head has moved. -/
theorem refreshVisibility_current (head dataVersion : Nat) (events : List Event)
    (announced : Along step Announced { head, dataVersion } events) :
    (events.foldl step { head, dataVersion }).Current := by
  have start : Fresh { head, dataVersion } := ⟨by simp [Noticed], by simp, by simp⟩
  exact (Along.foldl (fun _ _ fresh allowed => Fresh.step fresh allowed) start announced).current

/-- A publication with full durability after a write that no refresh has seen yet. -/
theorem refreshVisibility_current_publish :
    (([.refresh, .call .write 1 none, .call (.publish "full") 1 none, .foreignCommit 0,
      .refresh, .call .synchronize 2 (some 2)] : List Event).foldl step
      { head := 1, dataVersion := 1 }).Current :=
  refreshVisibility_current 1 1 _ (by decide +kernel)

/-- A version restore between two refreshes leaves both counters where they are, and the second
refresh returns the head of the first. -/
theorem refreshVisibility_stale_restore :
    ¬ ∀ (head dataVersion : Nat) (events : List Event),
      (events.foldl step { head, dataVersion }).Current := by
  intro current
  exact absurd (current 1 1 [.refresh, .call .restoreVersion 1 none]) (by decide +kernel)

end State

end Mount
end VexDB.VexFs
