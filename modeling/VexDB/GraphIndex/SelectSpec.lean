import Mathlib.Data.List.Perm.Subperm
import VexDB.GraphIndex.Select

/-!
# What the selections return

The forward selection returns distinct candidates among those it was given, at
most as many as the record has slots.  The backward selection names a slot in
use or the first free one.
-/

namespace VexDB.GraphIndex

open Vtl List
open PriorityQueue (top pop_perm mem_of_top pop mem_of_mem_pop push mem_push)

section Forward

variable {V D : Type*} [Inhabited V] (params : Params V D) {candidates : List (Candidate V D)}

/-- The forward loop moves candidates from the heap to the chosen and discarded
ones, and never chooses too many. -/
structure ForwardInvariant (nbrNum : Nat) (candidates : List (Candidate V D))
    (state : ForwardState V D) : Prop where
  perm : (state.chosen ++ state.discarded ++ state.closest.toList).Perm candidates
  bounded : state.chosen.length <= nbrNum

theorem ForwardInvariant.step {nbrNum : Nat} {state next : ForwardState V D}
    (invariant : ForwardInvariant nbrNum candidates state)
    (step : forwardStep params nbrNum state = some next) :
    ForwardInvariant nbrNum candidates next := by
  rw [forwardStep] at step
  cases found : top state.closest with
  | none =>
    rw [found] at step
    cases step
  | some cur =>
    rw [found] at step
    have popped := pop_perm (closestCompare params) found
    have moved := (List.Perm.append_left (state.chosen ++ state.discarded) popped).trans
      invariant.perm
    by_cases full : nbrNum <= state.chosen.length
    · exact absurd step (by simp [full])
    · simp only [full, if_false] at step
      split at step
      · cases step
        refine ⟨List.Perm.trans ?_ moved, by simp; omega⟩
        simp only [append_assoc, singleton_append]
        refine .append_left _ ?_
        exact (perm_middle).symm
      · cases step
        refine ⟨.trans ?_ moved, invariant.bounded⟩
        simp only [append_assoc]
        exact .refl _

theorem ForwardInvariant.loop (fuel : Nat) (invariant : ForwardInvariant nbrNum candidates state) :
    ForwardInvariant nbrNum candidates (forwardLoop params nbrNum fuel state) := by
  induction fuel generalizing state with
  | zero => exact invariant
  | succ fuel ih =>
    rw [forwardLoop]
    cases step : forwardStep params nbrNum state with
    | none => exact invariant
    | some => exact ih (invariant.step params step)

/-- Selected neighbours are candidates, none of them twice. -/
theorem selectNeighbors_subperm (layer : Layer) (candidates : List (Candidate V D)) :
    (selectNeighbors params layer candidates).Subperm candidates := by
  rw [selectNeighbors]
  split
  · exact .refl _
  · have invariant := ForwardInvariant.loop params candidates.length
      (⟨by simp, Nat.zero_le _⟩ : ForwardInvariant (params.nbrNum layer) candidates
        ⟨candidates.toArray, [], []⟩)
    refine List.Subperm.trans (List.Sublist.subperm ?_) invariant.perm.subperm
    rw [append_assoc]
    exact (List.Sublist.refl _).append ((take_sublist _ _).trans (sublist_append_left _ _))

/-- There are at most as many as the record has slots. -/
theorem length_selectNeighbors_le (layer : Layer) (candidates : List (Candidate V D)) :
    (selectNeighbors params layer candidates).length <= params.nbrNum layer := by
  rw [selectNeighbors]
  split
  next few => exact few
  next =>
    have invariant := ForwardInvariant.loop params candidates.length
      (⟨by simp, Nat.zero_le _⟩ : ForwardInvariant (params.nbrNum layer) candidates
        ⟨candidates.toArray, [], []⟩)
    have := invariant.bounded
    simp only [length_append, length_take]
    omega

theorem mem_of_mem_selectNeighbors
    (present : cand ∈ selectNeighbors params layer candidates) : cand ∈ candidates :=
  (selectNeighbors_subperm params layer candidates).subset present

theorem selectNeighbors_distinct (distinct : (candidates.map Candidate.id).Nodup) :
    ((selectNeighbors params layer candidates).map Candidate.id).Nodup := by
  obtain ⟨_, perm, sublist⟩ := selectNeighbors_subperm params layer candidates
  exact (perm.map Candidate.id).nodup_iff.1 ((sublist.map Candidate.id).nodup distinct)

end Forward

section Backward

variable {P V D : Type*} (params : Params V D) {state : PruneState V D}

theorem judge_fields
    (hasStat : Bool) (selfId : Nat) (state : PruneState V D) (cur : PruneNeighbor V D) :
    (judge params hasStat selfId state cur).2.closest = state.closest ∧
      (judge params hasStat selfId state cur).2.chosen = state.chosen ∧
      (judge params hasStat selfId state cur).2.discarded = state.discarded := by
  rw [judge]
  split_ifs <;> exact ⟨rfl, rfl, rfl⟩

/-- The slot of a point, if it has one, is below the bound. -/
def SlotBelow (bound : Nat) (point : PruneNeighbor V D) : Prop :=
  ∀ slot, point.idx = some slot -> slot < bound

/-- Every point the backward selection handles has a slot below the bound. -/
structure PruneInvariant (bound : Nat) (state : PruneState V D) : Prop where
  closest : ∀ point ∈ state.closest, SlotBelow bound point
  discarded : ∀ point ∈ state.discarded, SlotBelow bound point

theorem PruneInvariant.loop (nbrNum : Nat) (hasStat : Bool) (selfId fuel : Nat)
    (invariant : PruneInvariant bound state) :
    PruneInvariant bound (pruneLoop params nbrNum hasStat selfId fuel state) := by
  induction fuel generalizing state with
  | zero => exact invariant
  | succ fuel ih =>
    rw [pruneLoop]
    cases found : top state.closest with
    | none => exact invariant
    | some cur =>
      obtain ⟨sameClosest, _, sameDiscarded⟩ :=
        judge_fields params hasStat selfId state cur
      have curBelow := invariant.closest cur (mem_of_top found)
      have popped : ∀ point ∈ pop (PruneNeighbor.less params) state.closest,
          SlotBelow bound point := fun point present =>
        invariant.closest point (mem_of_mem_pop _ present)
      simp only
      split
      · split
        · refine ⟨?_, ?_⟩
          · rw [sameClosest]
            exact invariant.closest
          · rw [sameDiscarded]
            exact invariant.discarded
        · refine ih ⟨popped, ?_⟩
          rw [sameDiscarded]
          exact invariant.discarded
      · refine ih ⟨popped, ?_⟩
        rw [sameDiscarded]
        intro point present
        rcases mem_append.1 present with earlier | last
        · exact invariant.discarded point earlier
        · rw [mem_singleton.1 last]
          exact curBelow

theorem lastPopped_mem (found : lastPopped params fuel closest = some last) : last ∈ closest := by
  induction fuel generalizing closest with
  | zero => exact mem_of_top found
  | succ fuel ih =>
    rw [lastPopped] at found
    split at found
    · exact mem_of_mem_pop _ (ih found)
    · exact mem_of_top found

theorem prunedSlot_lt (invariant : PruneInvariant bound state)
    (pruned : prunedSlot params nbrNum state = some slot) : slot < bound := by
  rw [prunedSlot] at pruned
  split at pruned
  next discarded found =>
    exact invariant.discarded discarded (mem_of_getElem? found) slot pruned
  next =>
    split at pruned
    next last found => exact invariant.closest last (lastPopped_mem params found) slot pruned
    next => cases pruned

variable [Inhabited V]

/-- The queued points are the neighbours in their slots, and the new point. -/
theorem pruneQueue_below
    (store : GraphStore P V D) (neighbors : List (Candidate V D)) (newPointId : Nat)
    (self : Candidate V D) :
    ∀ point ∈ pruneQueue params store neighbors newPointId self,
      SlotBelow neighbors.length point := by
  have queued : ∀ (indexed : List (Candidate V D × Nat)) (closest : Array (PruneNeighbor V D)),
      (∀ pair ∈ indexed, pair.2 < neighbors.length) ->
      (∀ point ∈ closest, SlotBelow neighbors.length point) ->
      ∀ point ∈ indexed.foldl (fun closest (neighbor, idx) =>
        let val := store.readData neighbor.id
        let dist := if params.useDistCache then params.distance (store.readData self.id) val
          else neighbor.dist
        push (PruneNeighbor.less params) closest
          ⟨val, some idx, dist, neighbor.id⟩) closest, SlotBelow neighbors.length point := by
    intro indexed
    induction indexed with
    | nil => exact fun closest _ below => below
    | cons pair indexed ih =>
      intro _ indices below
      refine ih _ (fun other present => indices other (by simp [present])) ?_
      intro point present
      rcases (mem_push _).1 present with rfl | earlier
      · intro _ isSlot
        rw [<- Option.some.inj isSlot]
        exact indices pair mem_cons_self
      · exact below point earlier
  intro point present
  rcases (mem_push _).1 present with rfl | earlier
  · exact nofun
  · refine queued neighbors.zipIdx #[] ?_ (by simp) point earlier
    intro _ inZip
    simpa using snd_lt_of_mem_zipIdx inZip

/-- The backward selection names a slot in use or the first free one. -/
theorem selectPruned_slot (fits : neighbors.length <= params.nbrNum layer)
    (pruned : (selectPruned params checkExist store layer neighbors newPointId point self).1 =
      some slot) : slot < params.nbrNum layer ∧ slot <= neighbors.length := by
  rw [selectPruned] at pruned
  split at pruned
  · cases pruned
  · split at pruned
    next free =>
      rw [<- Option.some.inj pruned]
      exact ⟨free, Nat.le_refl _⟩
    next =>
      have below := pruneQueue_below params store neighbors newPointId self
      have final := PruneInvariant.loop params (params.nbrNum layer) point.hasStat self.id
        (pruneQueue params store neighbors newPointId self).size
        (⟨below, by simp⟩ : PruneInvariant neighbors.length
          ⟨pruneQueue params store neighbors newPointId self, [], [], [], point.stat, false, false⟩)
      have := prunedSlot_lt params final pruned
      omega

end Backward

end VexDB.GraphIndex
