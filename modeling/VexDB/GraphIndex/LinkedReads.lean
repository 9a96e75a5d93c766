import VexDB.GraphIndex.Algorithm
import VexDB.GraphIndex.Linked

/-!
# Searching a graph in order

The searches of an insert and of a repair go from points of one level to points
of the level below, and what they return on a level are distinct points of it.
-/

namespace VexDB.GraphIndex

open List

variable {P V D : Type*} {params : Params V D} {store after : GraphStore P V D}
  {levels levelsAfter : Nat -> Nat} {level : Nat} {candidates : List (Candidate V D)}

/-- Distinct points of one level. -/
structure PointsOf (store : GraphStore P V D) (levels : Nat -> Nat) (level : Nat)
    (candidates : List (Candidate V D)) : Prop where
  related : ∀ cand ∈ candidates, Related store levels level cand.id cand.curLayerIdx
  distinct : (candidates.map Candidate.id).Nodup

theorem PointsOf.singleton (related : Related store levels level cand.id cand.curLayerIdx) :
    PointsOf store levels level [cand] := by
  refine ⟨?_, nodup_singleton _⟩
  intro _ present
  rwa [mem_singleton.1 present]

section

variable (points : PointsOf store levels level candidates)
include points

theorem PointsOf.mono (extension : Extends store levels after levelsAfter) :
    PointsOf after levelsAfter level candidates :=
  ⟨fun cand present => (points.related cand present).mono extension, points.distinct⟩

theorem PointsOf.getNeighborsData [Inhabited V] :
    PointsOf store levels level (getNeighborsData source candidates) := by
  constructor
  · intro _ present
    obtain ⟨before, found, rfl⟩ := mem_map.1 present
    exact points.related before found
  · simpa [GraphIndex.getNeighborsData, Function.comp_def] using points.distinct

end

theorem PointsOf.selectNeighbors [Inhabited V] (layer : Layer)
    (points : PointsOf store levels level candidates) :
    PointsOf store levels level (selectNeighbors params layer candidates) :=
  ⟨fun cand present => points.related cand (mem_of_mem_selectNeighbors params present),
    selectNeighbors_distinct params points.distinct⟩

/-- Two points of a level have different records. -/
theorem PointsOf.distinct_idx (points : PointsOf store levels level candidates) :
    (candidates.map Candidate.curLayerIdx).Nodup := by
  have distinct := points.distinct
  rw [List.Nodup, pairwise_map] at distinct ⊢
  refine distinct.imp_of_mem ?_
  intro left right leftPresent rightPresent different same
  refine different ((points.related left leftPresent).id_eq ?_)
  rw [same]
  exact points.related right rightPresent

section Searches

variable [Inhabited V] {filter : Nat -> Bool}

section

variable (graph : Linked params strict store levels)
include graph

theorem searchLayer_pointsOf (start : PointsOf store levels level entrypoint) :
    PointsOf store levels level
      (searchLayer params store (layerOf level) query ef filter entrypoint) :=
  ⟨fun _ found => (searchLayer_spec (graph.closed level) start.related start.distinct found).1,
    searchLayer_distinct (graph.closed level) start.related start.distinct⟩

/-- The lower indices of found points lead to the same points one level below. -/
theorem searchLayer_lower_pointsOf (start : PointsOf store levels (level + 1) entrypoint) :
    PointsOf store levels level
      ((searchLayer params store .upper query ef filter entrypoint).map replaceLowerLayerIdx) := by
  constructor
  · intro _ present
    obtain ⟨found, foundPresent, rfl⟩ := mem_map.1 present
    obtain ⟨related, -, lower⟩ :=
      searchLayer_spec (graph.closed (level + 1)) start.related start.distinct foundPresent
    obtain ⟨low, lowEq, lowRelated⟩ := graph.lower_related related
    have lowerEq : found.lowerLayerIdx = some low := lower.trans lowEq
    simpa only [replaceLowerLayerIdx, lowerEq, Option.getD_some] using lowRelated
  · have distinct : ((searchLayer params store .upper query ef filter entrypoint).map
        Candidate.id).Nodup :=
      searchLayer_distinct (graph.closed (level + 1)) start.related start.distinct
    simpa [replaceLowerLayerIdx, Function.comp_def] using distinct

/-- The greedy descent goes down one level a round. -/
theorem descend_related (rounds : Nat)
    (related : Related store levels (level + rounds) cand.id cand.curLayerIdx) :
    Related store levels level (descend params store query rounds cand).id
      (descend params store query rounds cand).curLayerIdx := by
  induction rounds generalizing cand with
  | zero => exact related
  | succ rounds ih =>
    have reached := graph.closed (level + rounds + 1)
    obtain ⟨found, lower⟩ : _ ∧ (searchUpperLayer params store query cand).lowerLayerIdx = _ :=
      searchUpperLayer_spec reached related
    obtain ⟨low, lowEq, lowRelated⟩ := graph.lower_related found
    have lowerEq : (searchUpperLayer params store query cand).lowerLayerIdx = some low :=
      lower.trans lowEq
    refine ih ?_
    simpa only [replaceLowerLayerIdx, lowerEq, Option.getD_some] using lowRelated

end

/-- Points of the levels above a given one, level by level. -/
inductive PointsAbove (store : GraphStore P V D) (levels : Nat -> Nat) :
    Nat -> List (List (Candidate V D)) -> Prop
  | nil (level : Nat) : PointsAbove store levels level []
  | cons {level : Nat} {found : List (Candidate V D)} {rest : List (List (Candidate V D))} :
      PointsOf store levels (level + 1) found -> PointsAbove store levels (level + 1) rest ->
      PointsAbove store levels level (found :: rest)

section

omit [Inhabited V]

variable {found : List (List (Candidate V D))}

variable (points : PointsAbove store levels level found)
include points

theorem PointsAbove.mono (extension : Extends store levels after levelsAfter) :
    PointsAbove after levelsAfter level found := by
  induction points with
  | nil level => exact .nil level
  | cons here _ ih => exact .cons (here.mono extension) ih

theorem PointsAbove.concat (last : PointsOf store levels (level + found.length + 1) top) :
    PointsAbove store levels level (found ++ [top]) := by
  induction points with
  | nil => exact .cons last (.nil _)
  | cons here rest ih =>
    refine .cons here (ih ?_)
    rw [Nat.add_right_comm _ 1]
    exact last

end

/-- The searches of an insert return points of each level. -/
theorem searchLevels_spec (graph : Linked params strict store levels) (level : Nat)
    (start : PointsOf store levels level ep) :
    (searchLevels params store query level ep).1.length = level ∧
      PointsAbove store levels 0 (searchLevels params store query level ep).1 ∧
      PointsOf store levels 0 (searchLevels params store query level ep).2 := by
  induction level generalizing ep with
  | zero => exact ⟨rfl, .nil 0, searchLayer_pointsOf graph start⟩
  | succ level ih =>
    have lower : PointsOf store levels level ((searchLayer params store .upper query
        params.efConstruction (fun _ => true) ep).map replaceLowerLayerIdx) :=
      searchLayer_lower_pointsOf graph start
    obtain ⟨length, above, base⟩ := ih lower
    refine ⟨?_, above.concat ?_, base⟩
    · simp only [searchLevels, length_append, length, length_singleton]
    · rw [length, Nat.zero_add]
      have here : PointsOf store levels (level + 1) (searchLayer params store
          (layerOf (level + 1)) query params.efConstruction (fun _ => true) ep) :=
        searchLayer_pointsOf graph start
      exact here

/-- What an insert finds below the entry point. -/
theorem insertSearch_spec (graph : Linked params strict store levels)
    (isEntry : store.entry = some entry) (query : V) (insertLevel : Nat) :
    (insertSearch params store entry query insertLevel).1.length = min insertLevel entry.level ∧
      PointsAbove store levels 0 (insertSearch params store entry query insertLevel).1 ∧
      PointsOf store levels 0 (insertSearch params store entry query insertLevel).2 := by
  have reached : min insertLevel entry.level + (entry.level - insertLevel) = entry.level := by
    omega
  refine searchLevels_spec graph _ (PointsOf.singleton (descend_related graph _ ?_))
  rw [reached]
  exact graph.entered entry isEntry

end Searches

end VexDB.GraphIndex
