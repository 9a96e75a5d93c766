import Mathlib.Data.List.Induction
import VexDB.GraphIndex.MemStore

/-!
# The memory budget of a build

The memory phase ends at an estimated number of tuples, which only builds with parallel
workers have; the pools take their memory in chunks.
-/

namespace VexDB.GraphIndex

open List

/-- What a build fixes.  `vectorSize` is without padding. -/
structure MemoryPlan where
  maintenanceWorkMemKb : Nat
  parallelWorkers : Nat
  vectorSize : Nat
  alignment : Nat
  m : Nat

/-- The numbers of tuples and, while in memory, of points and upper records. -/
structure MemoryPhase where
  tuplesDone : Nat
  store : Option (Nat × Nat)

namespace MemoryPlan

variable (plan : MemoryPlan)

/-- `get_base_point_size` -/
def baseSize : Nat := 4 * MemStore.basePointWords plan.m

/-- `get_upper_point_size` -/
def upperSize : Nat := 4 * MemStore.upperPointWords plan.m

/-- `per_tuple` -/
def perTuple : Nat := plan.vectorSize + plan.baseSize + plan.upperSize / (plan.m - 1)

/-- `estimated_limit` -/
def estimatedLimit : Nat :=
  if 0 < plan.parallelWorkers then
    (plan.maintenanceWorkMemKb * 1024 - 200 * 1024 * 1024) / plan.perTuple
  else 0

/-- `init_single_thread_memstore` -/
def init : MemoryPhase :=
  ⟨0, if plan.maintenanceWorkMemKb < 1024 * 1024 then none else some (0, 0)⟩

/-- `build_callback`: a tuple adds a point with upper records, unless its vector is there. -/
def buildCallback (phase : MemoryPhase) (added : Option Nat) : MemoryPhase :=
  let done := phase.tuplesDone + 1
  match phase.store with
  | none => ⟨done, none⟩
  | some (points, uppers) =>
    if 0 < plan.parallelWorkers ∧ 0 < plan.estimatedLimit ∧ plan.estimatedLimit <= done then
      ⟨done, none⟩
    else
      match added with
      | none => ⟨done, some (points, uppers)⟩
      | some levels => ⟨done, some (points + 1, uppers + levels)⟩

/-- The phase after some tuples. -/
def run (tuples : List (Option Nat)) : MemoryPhase := tuples.foldl plan.buildCallback plan.init

/-- `calculate_pow` -/
def calculatePow (elemSize targetSizeMb : Nat) : Nat :=
  Nat.log2 (max targetSizeMb 1 * 1024 * 1024 / elemSize)

/-- The size of a chunk of the pool that has the given share of the bytes of a tuple. -/
def chunkSizeMb (share : Nat) : Nat := 100 * share / plan.perTuple

/-- The bytes of the chunks of a pool, the first of which is there from the start. -/
def poolBytes (elemSize share count : Nat) : Nat :=
  let chunkElems := 2 ^ calculatePow elemSize (plan.chunkSizeMb share)
  max 1 ((count + chunkElems - 1) / chunkElems) * (elemSize * chunkElems)

/-- The bytes of the three pools. -/
def held (points uppers : Nat) : Nat :=
  plan.poolBytes (alignElemSize plan.alignment plan.vectorSize) plan.vectorSize points +
    plan.poolBytes plan.baseSize plan.baseSize points +
    plan.poolBytes plan.upperSize (plan.upperSize / (plan.m - 1)) uppers

/-- The memory phase ends at the estimate. -/
abbrev Limited : Prop := 0 < plan.parallelWorkers ∧ 0 < plan.estimatedLimit

/-- The tuples that a memory phase takes in. -/
def taken (tuples : List (Option Nat)) : List (Option Nat) :=
  if plan.Limited then tuples.take (plan.estimatedLimit - 1) else tuples

/-- The numbers of points and of upper records that some tuples add. -/
def added (tuples : List (Option Nat)) : Nat × Nat :=
  ((tuples.filterMap id).length, (tuples.filterMap id).sum)

theorem run_eq (memory : ¬ plan.maintenanceWorkMemKb < 1024 * 1024) (tuples : List (Option Nat)) :
    plan.run tuples = ⟨tuples.length,
      if plan.Limited ∧ plan.estimatedLimit <= tuples.length then none else some (added tuples)⟩ := by
  induction tuples using reverseRecOn with
  | nil =>
    have open_ : ¬ (plan.Limited ∧ plan.estimatedLimit <= 0) := fun reached =>
      absurd reached.1.2 (by omega)
    rw [run, foldl_nil, init, if_neg memory, length_nil, if_neg open_]
    rfl
  | append_singleton tuples tuple ih =>
    rw [run, foldl_append, <- run, foldl, foldl, ih, buildCallback,
      length_append, length_singleton]
    by_cases reached : plan.Limited ∧ plan.estimatedLimit <= tuples.length
    · rw [if_pos reached, if_pos ⟨reached.1, reached.2.trans (Nat.le_succ _)⟩]
    · rw [if_neg reached]
      simp only [added, <- and_assoc]
      split_ifs with reaches
      · rfl
      · cases tuple <;> simp

theorem poolBytes_mono {elemSize share few many : Nat} (fewer : few <= many) :
    plan.poolBytes elemSize share few <= plan.poolBytes elemSize share many := by
  refine Nat.mul_le_mul_right _ (max_le_max_left _ (Nat.div_le_div_right ?_))
  exact Nat.sub_le_sub_right (Nat.add_le_add_right fewer _) _

theorem held_mono {earlier later : List (Option Nat)} (before : earlier <+: later) :
    plan.held (added earlier).1 (added earlier).2 <= plan.held (added later).1 (added later).2 := by
  obtain ⟨rest, rfl⟩ := before
  have points : (added earlier).1 <= (added (earlier ++ rest)).1 := by simp [added]
  have uppers : (added earlier).2 <= (added (earlier ++ rest)).2 := by simp [added]
  exact Nat.add_le_add (Nat.add_le_add (plan.poolBytes_mono points)
    (plan.poolBytes_mono points)) (plan.poolBytes_mono uppers)

theorem taken_isPrefix (tuples : List (Option Nat)) : plan.taken tuples <+: tuples := by
  rw [taken]
  split_ifs
  · exact take_prefix _ _
  · exact prefix_rfl

theorem added_replicate (count : Nat) : added (.replicate count (some 0)) = (count, 0) := by
  simp [added]

end MemoryPlan

end VexDB.GraphIndex
