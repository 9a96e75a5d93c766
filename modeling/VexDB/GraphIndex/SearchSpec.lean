import Mathlib.Algebra.Order.BigOperators.Group.List
import Mathlib.Algebra.Order.Ring.Nat
import Mathlib.Data.Multiset.UnionInter
import VexDB.GraphIndex.Search

/-!
# What a search returns

Whatever relation between ids and layer indices holds of the entry points and is
kept by following neighbour slots holds of every result.  Results pass the
filter, carry distinct ids and the lower index of their own record, and the
loops always run to their end within the number of rounds they are given.
-/

namespace VexDB.GraphIndex

open Vtl List
open PriorityQueue (push push_perm top top_eq_none_iff size_push pop_perm pop size_pop sort_perm)

section Visit

variable {neighbor : Nat × Nat}

theorem mem_validNeighbors (present : neighbor ∈ validNeighbors slots) : some neighbor ∈ slots := by
  induction slots with
  | nil => exact absurd present (by simp [validNeighbors])
  | cons slot slots ih =>
    cases slot with
    | none => exact absurd present (by simp [validNeighbors])
    | some =>
      rcases mem_cons.1 present with rfl | later
      · exact mem_cons_self
      · exact mem_cons_of_mem _ (ih later)

/-- Fresh neighbours are among the neighbours. -/
theorem visitNew_sublist (visited : List Nat) (neighbors : List (Nat × Nat)) :
    (visitNew visited neighbors).1.Sublist neighbors := by
  induction neighbors generalizing visited with
  | nil => exact .slnil
  | cons neighbor neighbors ih =>
    rw [visitNew]
    split
    · exact (ih visited).cons _
    · exact (ih _).cons_cons _

variable {neighbors : List (Nat × Nat)} {visited : List Nat}

/-- The visited set afterwards is the one before with the neighbours. -/
theorem mem_visitNew_visited {id : Nat} :
    id ∈ (visitNew visited neighbors).2 ↔
      id ∈ visited ∨ id ∈ (visitNew visited neighbors).1.map Prod.fst := by
  induction neighbors generalizing visited with
  | nil => simp [visitNew]
  | cons neighbor neighbors ih =>
    rw [visitNew]
    split
    · exact ih
    · simp only [ih, mem_cons, map_cons]
      tauto

/-- Every neighbour is visited afterwards. -/
theorem mem_visitNew_of_mem
    (present : neighbor ∈ neighbors) : neighbor.1 ∈ (visitNew visited neighbors).2 := by
  induction neighbors generalizing visited with
  | nil => cases present
  | cons first neighbors ih =>
    rw [visitNew]
    split
    next seen =>
      rcases mem_cons.1 present with rfl | later
      · exact mem_visitNew_visited.2 (.inl seen)
      · exact ih later
    next =>
      rcases mem_cons.1 present with rfl | later
      · exact mem_visitNew_visited.2 (.inl mem_cons_self)
      · exact ih later

/-- Fresh neighbours were not visited, and no id is fresh twice. -/
theorem visitNew_fresh (visited : List Nat) (neighbors : List (Nat × Nat)) :
    ((visitNew visited neighbors).1.map Prod.fst).Nodup ∧
      ∀ id ∈ (visitNew visited neighbors).1.map Prod.fst, id ∉ visited := by
  induction neighbors generalizing visited with
  | nil => simp [visitNew]
  | cons neighbor neighbors ih =>
    rw [visitNew]
    split
    · exact ih visited
    next unseen =>
      obtain ⟨distinct, outside⟩ := ih (neighbor.1 :: visited)
      simp only [map_cons, nodup_cons, mem_cons]
      refine ⟨⟨fun again => outside _ again mem_cons_self, distinct⟩, ?_⟩
      rintro id (rfl | later)
      · exact unseen
      · exact fun seen => outside id later (mem_cons_of_mem _ seen)

end Visit

section Layer

variable {P V D : Type*} [Inhabited V] (params : Params V D) (store : GraphStore P V D) (layer :
  Layer) (query : V) (ef : Nat) (filter : Nat -> Bool) {state next : SearchState V D} {related : Nat
  -> Nat -> Prop} {entrypoint : List (Candidate V D)}

/-- The candidate a fresh neighbour is queued as. -/
def queuedCandidate (neighbor : Nat × Nat) : Candidate V D :=
  ⟨neighbor.1, neighbor.2, none, getDistance params store query neighbor.1, none⟩

/-- Queuing adds the fresh neighbours below the threshold and nothing else. -/
theorem pushCloser_perm
    (threshold : D) (closest : Array (Candidate V D)) (fresh : List (Nat × Nat)) :
    (pushCloser params store query threshold closest fresh).toList.Perm
      (((fresh.filter fun neighbor =>
        !params.le threshold (getDistance params store query neighbor.1)).map
          (queuedCandidate params store query)) ++ closest.toList) := by
  induction fresh generalizing closest with
  | nil => simp [pushCloser]
  | cons neighbor fresh ih =>
    have step := ih (if params.le threshold (getDistance params store query neighbor.1) then closest
      else push (closestCompare params) closest (queuedCandidate params store query neighbor))
    refine step.trans ?_
    by_cases beyond : params.le threshold (getDistance params store query neighbor.1)
    · simp [beyond]
    · simp only [beyond, Bool.not_false, filter_cons_of_pos]
      exact (List.Perm.append_left _ (push_perm _ _ _)).trans perm_middle

omit [Inhabited V] in
/-- Keeping a result drops at most one. -/
theorem keepResult_subperm (furthest : Array (Candidate V D)) (cand : Candidate V D) :
    (keepResult params ef furthest cand).toList.Subperm (cand :: furthest.toList) := by
  have pushed := push_perm (furthestCompare params) furthest cand
  rw [keepResult]
  split
  next =>
    cases found : top (push (furthestCompare params) furthest cand) with
    | none =>
      have size := top_eq_none_iff.1 found
      rw [size_push] at size
      omega
    | some =>
      have popped := pop_perm (furthestCompare params) found
      exact ((sublist_cons_self _ _).subperm.trans popped.subperm).trans pushed.subperm
  next => exact pushed.subperm

/-- The result a round adds when the filter accepts the point. -/
def resultCandidate (cur : Candidate V D) : Candidate V D :=
  ⟨cur.id, cur.curLayerIdx, (store.pointInfo params layer cur.curLayerIdx).lowerLayerIdx,
    cur.dist, none⟩

/-- The neighbours a round visits for the first time. -/
def freshNeighbors (state : SearchState V D) (cur : Candidate V D) : List (Nat × Nat) :=
  (visitNew state.visited
    (validNeighbors (store.pointInfo params layer cur.curLayerIdx).neighbors)).1

/-- A round takes the closest candidate, queues its fresh neighbours and keeps
it as a result if the filter accepts it. -/
structure SearchRound (state next : SearchState V D) (cur : Candidate V D) : Prop where
  top : top state.closest = some cur
  closest : next.closest = pushCloser params store query (searchThreshold params ef state.furthest)
    (pop (closestCompare params) state.closest)
    (freshNeighbors params store layer state cur)
  furthest : next.furthest = if filter cur.id then
    keepResult params ef state.furthest (resultCandidate params store layer cur)
    else state.furthest
  visited : next.visited = (visitNew state.visited
    (validNeighbors (store.pointInfo params layer cur.curLayerIdx).neighbors)).2

section Round

variable {params store layer query ef filter}

theorem searchStep_eq_some
    (step : searchStep params store layer query ef filter state = some next) :
    ∃ cur, SearchRound params store layer query ef filter state next cur := by
  rw [searchStep] at step
  cases found : top state.closest with
  | none =>
    rw [found] at step
    cases step
  | some cur =>
    rw [found] at step
    cases done : searchDone params ef state.furthest cur with
    | true => exact absurd step (by simp [done])
    | false =>
      simp only [done, Bool.false_eq_true, if_false, Option.some.injEq] at step
      subst step
      exact ⟨cur, found, rfl, rfl, rfl⟩

variable {cur cand : Candidate V D}
  (round : SearchRound params store layer query ef filter state next cur)
include round

theorem SearchRound.queued : next.closest.toList.Perm
    ((((freshNeighbors params store layer state cur).filter fun neighbor =>
      !params.le (searchThreshold params ef state.furthest)
        (getDistance params store query neighbor.1)).map (queuedCandidate params store query)) ++
      (pop (closestCompare params) state.closest).toList) :=
  round.closest ▸ pushCloser_perm params store query _ _ _

theorem SearchRound.mem_closest_iff : cand ∈ state.closest.toList ↔
    cand = cur ∨ cand ∈ (pop (closestCompare params) state.closest).toList :=
  (pop_perm _ round.top).mem_iff.symm.trans mem_cons

/-- A queued candidate is a fresh neighbour or was queued before. -/
theorem SearchRound.closest_cases (present : cand ∈ next.closest.toList) :
    (∃ neighbor ∈ freshNeighbors params store layer state cur,
      params.le (searchThreshold params ef state.furthest)
        (getDistance params store query neighbor.1) = false ∧
        queuedCandidate params store query neighbor = cand) ∨ cand ∈ state.closest.toList := by
  rcases mem_append.1 (round.queued.mem_iff.1 present) with fresh | earlier
  · obtain ⟨neighbor, inFilter, rfl⟩ := mem_map.1 fresh
    obtain ⟨isFresh, close⟩ := mem_filter.1 inFilter
    exact .inl ⟨neighbor, isFresh, by simpa using close, rfl⟩
  · exact .inr (round.mem_closest_iff.2 (.inr earlier))

/-- A result is the candidate of the round or was kept before. -/
theorem SearchRound.furthest_cases (present : cand ∈ next.furthest.toList) :
    cand = resultCandidate params store layer cur ∧ filter cur.id ∨
      cand ∈ state.furthest.toList := by
  rw [round.furthest] at present
  split at present
  next accepted =>
    rcases mem_cons.1 ((keepResult_subperm params ef state.furthest _).subset present)
      with equal | earlier
    · exact .inl ⟨equal, accepted⟩
    · exact .inr earlier
  next => exact .inr present

end Round

/-- The ids in a heap. -/
def heapIds (data : Array (Candidate V D)) : Multiset Nat := data.toList.map Candidate.id

section

omit [Inhabited V]

variable {data : Array (Candidate V D)}

theorem mem_heapIds {id : Nat} : id ∈ heapIds data ↔ ∃ cand ∈ data.toList, cand.id = id := by
  simp [heapIds]

theorem heapIds_pop (found : top data = some root) :
    root.id ::ₘ heapIds (pop (closestCompare params) data) = heapIds data :=
  Multiset.coe_eq_coe.2 ((pop_perm _ found).map Candidate.id)

end

theorem heapIds_pushCloser_le
    (threshold : D) (closest : Array (Candidate V D)) (fresh : List (Nat × Nat)) :
    heapIds (pushCloser params store query threshold closest fresh) <=
      (fresh.map Prod.fst : Multiset Nat) + heapIds closest := by
  have queued := (pushCloser_perm params store query threshold closest fresh).map Candidate.id
  rw [heapIds, Multiset.coe_eq_coe.2 queued, map_append, map_map, <- Multiset.coe_add, heapIds]
  exact Multiset.add_le_add_right (Multiset.coe_le.2 (filter_sublist.map _).subperm)

omit [Inhabited V] in
theorem heapIds_keep_le (furthest : Array (Candidate V D)) (cur : Candidate V D) :
    heapIds (if filter cur.id then
      keepResult params ef furthest (resultCandidate params store layer cur)
      else furthest) <= cur.id ::ₘ heapIds furthest := by
  split
  · exact Multiset.map_le_map (Multiset.coe_le.2
      (keepResult_subperm params ef furthest (resultCandidate params store layer cur)))
  · exact Multiset.le_cons_self _ _

/-- What holds of the heaps in every round: queued and kept candidates are
related, kept ones pass the filter and know their lower index, and no id is in
the heaps twice or unvisited. -/
structure SearchInvariant (related : Nat -> Nat -> Prop) (state : SearchState V D) : Prop where
  closest_related : ∀ cand ∈ state.closest.toList, related cand.id cand.curLayerIdx
  furthest_related : ∀ cand ∈ state.furthest.toList, related cand.id cand.curLayerIdx
  furthest_filter : ∀ cand ∈ state.furthest.toList, filter cand.id
  furthest_lower : ∀ cand ∈ state.furthest.toList,
    cand.lowerLayerIdx = (store.pointInfo params layer cand.curLayerIdx).lowerLayerIdx
  distinct : (heapIds state.closest + heapIds state.furthest).Nodup
  visited : ∀ id ∈ heapIds state.closest + heapIds state.furthest, id ∈ state.visited

/-- Following a slot keeps the relation. -/
def Closed (related : Nat -> Nat -> Prop) : Prop :=
  ∀ id idx, related id idx ->
    ∀ neighbor ∈ validNeighbors (store.pointInfo params layer idx).neighbors,
      related neighbor.1 neighbor.2

variable {params store layer query ef filter}

/-- The ids in the heaps after a round: fresh ones, and those that were there. -/
theorem SearchRound.heapIds_le
    (round : SearchRound params store layer query ef filter state next cur) :
    heapIds next.closest + heapIds next.furthest <=
      ((freshNeighbors params store layer state cur).map Prod.fst : Multiset Nat) +
        (heapIds state.closest + heapIds state.furthest) := by
  have queued := heapIds_pushCloser_le params store query (searchThreshold params ef state.furthest)
    (pop (closestCompare params) state.closest)
    (freshNeighbors params store layer state cur)
  have kept := heapIds_keep_le params store layer ef filter state.furthest cur
  rw [<- round.closest] at queued
  rw [<- round.furthest] at kept
  refine ((Multiset.add_le_add_right queued).trans (Multiset.add_le_add_left kept)).trans_eq ?_
  rw [<- heapIds_pop params round.top, Multiset.cons_add, Multiset.add_cons, Multiset.add_cons,
    Multiset.add_assoc]

theorem SearchInvariant.step (closed : Closed params store layer related)
    (invariant : SearchInvariant params store layer filter related state)
    (step : searchStep params store layer query ef filter state = some next) :
    SearchInvariant params store layer filter related next := by
  obtain ⟨cur, round⟩ := searchStep_eq_some step
  have idsLe := round.heapIds_le
  have curRelated := invariant.closest_related cur (round.mem_closest_iff.2 (.inl rfl))
  obtain ⟨freshDistinct, freshUnseen⟩ := visitNew_fresh state.visited
    (validNeighbors (store.pointInfo params layer cur.curLayerIdx).neighbors)
  constructor
  case closest_related =>
    intro cand present
    rcases round.closest_cases present with ⟨neighbor, fresh, -, rfl⟩ | earlier
    · exact closed _ _ curRelated neighbor ((visitNew_sublist _ _).subset fresh)
    · exact invariant.closest_related cand earlier
  case furthest_related =>
    intro cand present
    rcases round.furthest_cases present with ⟨rfl, -⟩ | earlier
    · exact curRelated
    · exact invariant.furthest_related cand earlier
  case furthest_filter =>
    intro cand present
    rcases round.furthest_cases present with ⟨rfl, accepted⟩ | earlier
    · exact accepted
    · exact invariant.furthest_filter cand earlier
  case furthest_lower =>
    intro cand present
    rcases round.furthest_cases present with ⟨rfl, -⟩ | earlier
    · rfl
    · exact invariant.furthest_lower cand earlier
  case distinct =>
    refine Multiset.nodup_of_le idsLe ?_
    rw [Multiset.nodup_add]
    refine ⟨freshDistinct, invariant.distinct, ?_⟩
    rw [Multiset.disjoint_left]
    intro id isFresh queuedOrKept
    exact freshUnseen id isFresh (invariant.visited id queuedOrKept)
  case visited =>
    intro id present
    rw [round.visited, mem_visitNew_visited]
    rcases Multiset.mem_add.1 (Multiset.mem_of_le idsLe present) with fresh | earlier
    · exact .inr fresh
    · exact .inl (invariant.visited id earlier)

/-- What every round keeps holds when the loop ends. -/
theorem searchLoop_invariant {holds : SearchState V D -> Prop} (kept : ∀ state next, holds state ->
      searchStep params store layer query ef filter state = some next -> holds next) (fuel : Nat)
    (initially : holds state) :
    holds (searchLoop params store layer query ef filter fuel state) := by
  induction fuel generalizing state with
  | zero => exact initially
  | succ fuel ih =>
    rw [searchLoop]
    cases step : searchStep params store layer query ef filter state with
    | none => exact initially
    | some next => exact ih (kept state next initially step)

variable (store layer) in
/-- The ids in the neighbour slots of a layer. -/
def slotIds : List Nat :=
  (store.layer layer).flatMap fun point => (validNeighbors point.neighbors).map Prod.fst

omit [Inhabited V] in
theorem mem_slotIds_of_mem_pointInfo
    (present : neighbor ∈ validNeighbors (store.pointInfo params layer idx).neighbors) :
    neighbor.1 ∈ slotIds store layer := by
  rw [GraphStore.pointInfo, getD_eq_getElem?_getD] at present
  cases found : (store.layer layer)[idx]? with
  | none =>
    rw [found] at present
    have nothing := mem_validNeighbors present
    simp [GraphStore.cleared] at nothing
  | some point =>
    rw [found] at present
    exact mem_flatMap.2 ⟨point, mem_of_getElem? found, mem_map_of_mem present⟩

theorem length_validNeighbors_le (slots : List (Option (Nat × Nat))) :
    (validNeighbors slots).length <= slots.length := by
  induction slots with
  | nil => exact le_rfl
  | cons slot slots ih =>
    cases slot with
    | none => exact Nat.zero_le _
    | some => exact Nat.succ_le_succ ih

omit [Inhabited V] in
theorem length_slotIds_le : (slotIds store layer).length <= slotCount store layer := by
  rw [slotIds, slotCount, length_flatMap]
  refine sum_le_sum fun point _ => ?_
  rw [length_map]
  exact length_validNeighbors_le _

variable (store layer) in
/-- The number of slots whose id was not visited. -/
def unseen (visited : List Nat) : Nat :=
  (slotIds store layer).countP fun id => !visited.contains id

/-- Disjoint parts of a list count at most as much as the whole. -/
private theorem countP_add_le (ids : List Nat)
    (firstLe : ∀ id, first id -> whole id) (secondLe : ∀ id, second id -> whole id)
    (disjoint : ∀ id, first id -> ¬ second id) :
    ids.countP first + ids.countP second <= ids.countP whole := by
  induction ids with
  | nil => exact le_rfl
  | cons id =>
    simp only [countP_cons]
    by_cases inFirst : first id
    · simp [inFirst, firstLe id inFirst, disjoint id inFirst]
      omega
    · by_cases inSecond : second id
      · simp [inFirst, inSecond, secondLe id inSecond]
        omega
      · simp [inFirst, inSecond]
        omega

variable (params store layer) in
omit [Inhabited V] in
/-- A round visits as many slots for the first time as it finds fresh ids. -/
theorem unseen_visitNew (visited : List Nat) (idx : Nat) :
    unseen store layer (visitNew visited
        (validNeighbors (store.pointInfo params layer idx).neighbors)).2 +
      (visitNew visited (validNeighbors (store.pointInfo params layer idx).neighbors)).1.length <=
      unseen store layer visited := by
  obtain ⟨distinct, outside⟩ := visitNew_fresh visited
    (validNeighbors (store.pointInfo params layer idx).neighbors)
  have within : (visitNew visited
      (validNeighbors (store.pointInfo params layer idx).neighbors)).1.map Prod.fst ⊆
        slotIds store layer := by
    intro id present
    obtain ⟨_, isFresh, rfl⟩ := mem_map.1 present
    exact mem_slotIds_of_mem_pointInfo ((visitNew_sublist _ _).subset isFresh)
  generalize seenEq : (visitNew visited
    (validNeighbors (store.pointInfo params layer idx).neighbors)) = seen at *
  have counted := (subperm_of_subset distinct within).countP_le
    (fun id => (seen.1.map Prod.fst).contains id)
  have all : (seen.1.map Prod.fst).countP (fun id => (seen.1.map Prod.fst).contains id) =
      seen.1.length := by
    rw [countP_eq_length.2 (fun id present => by simpa using present), length_map]
  rw [all] at counted
  have memSeen : ∀ id, id ∈ seen.2 ↔ id ∈ visited ∨ id ∈ seen.1.map Prod.fst := by
    intro id
    rw [<- seenEq]
    exact mem_visitNew_visited
  refine (Nat.add_le_add_left counted _).trans (countP_add_le _ ?_ ?_ ?_)
  · intro id notSeen
    simp only [Bool.not_eq_true', contains_eq_mem, decide_eq_false_iff_not] at *
    exact fun inVisited => notSeen ((memSeen id).2 (.inl inVisited))
  · intro id isFresh
    simp only [contains_eq_mem, decide_eq_true_eq, Bool.not_eq_true', decide_eq_false_iff_not] at *
    exact outside id isFresh
  · intro id notSeen isFresh
    simp only [contains_eq_mem, decide_eq_true_eq, Bool.not_eq_true', decide_eq_false_iff_not] at *
    exact notSeen ((memSeen id).2 (.inr isFresh))

/-- A round shortens the queue by one more than the slots it uses up. -/
theorem searchStep_measure
    (step : searchStep params store layer query ef filter state = some next) :
    next.closest.size + unseen store layer next.visited + 1 <=
      state.closest.size + unseen store layer state.visited := by
  obtain ⟨cur, round⟩ := searchStep_eq_some step
  have := size_pop (closestCompare params) round.top
  have queued := round.queued.length_eq
  rw [length_append, length_map] at queued
  have := length_filter_le (fun neighbor =>
    !params.le (searchThreshold params ef state.furthest)
      (getDistance params store query neighbor.1)) (freshNeighbors params store layer state cur)
  have used := unseen_visitNew params store layer state.visited cur.curLayerIdx
  rw [<- round.visited, <- freshNeighbors] at used
  simp only [Array.length_toList] at queued
  omega

/-- Enough rounds run the loop to its end. -/
theorem searchLoop_ends (enough : state.closest.size + unseen store layer state.visited <= fuel) :
    searchStep params store layer query ef filter
      (searchLoop params store layer query ef filter fuel state) = none := by
  induction fuel generalizing state with
  | zero =>
    have empty : top state.closest = none :=
      top_eq_none_iff.2 (by omega)
    rw [searchLoop, searchStep, empty]
  | succ fuel ih =>
    rw [searchLoop]
    cases step : searchStep params store layer query ef filter state with
    | none => exact step
    | some =>
      have := searchStep_measure step
      exact ih (by omega)

variable (params store layer query ef filter) in
/-- The state in which the loop of `search_layer` ends. -/
def searchFinal (entrypoint : List (Candidate V D)) : SearchState V D :=
  searchLoop params store layer query ef filter (entrypoint.length + slotCount store layer)
    ⟨entrypoint.toArray, #[], (entrypoint.map Candidate.id).reverse⟩

/-- The loop of `search_layer` is over in its final state. -/
theorem searchStep_searchFinal (entrypoint : List (Candidate V D)) :
    searchStep params store layer query ef filter
      (searchFinal params store layer query ef filter entrypoint) = none := by
  refine searchLoop_ends ?_
  have slots := (countP_le_length (p := fun id =>
    !(entrypoint.map Candidate.id).reverse.contains id) (l := slotIds store layer)).trans
      length_slotIds_le
  exact Nat.add_le_add_left slots _

section

variable (closed : Closed params store layer related)
  (start : ∀ cand ∈ entrypoint, related cand.id cand.curLayerIdx)
  (distinct : (entrypoint.map Candidate.id).Nodup)
include closed start distinct

/-- The search invariant holds at the end. -/
theorem searchFinal_invariant :
    SearchInvariant params store layer filter related
      (searchFinal params store layer query ef filter entrypoint) := by
  refine searchLoop_invariant (fun state next invariant step => invariant.step closed step) _ ?_
  constructor
  case closest_related => exact start
  case distinct => simpa [heapIds] using distinct
  case visited =>
    intro _ present
    simpa [heapIds] using present
  all_goals simp

omit closed start distinct in
theorem mem_searchLayer :
    cand ∈ searchLayer params store layer query ef filter entrypoint ↔
      cand ∈ (searchFinal params store layer query ef filter entrypoint).furthest.toList :=
  (sort_perm _ _).mem_iff

/-- Results of a search are related, pass the filter and carry the lower index
of their record. -/
theorem searchLayer_spec
    (found : cand ∈ searchLayer params store layer query ef filter entrypoint) :
    related cand.id cand.curLayerIdx ∧ filter cand.id ∧
      cand.lowerLayerIdx = (store.pointInfo params layer cand.curLayerIdx).lowerLayerIdx := by
  have invariant : SearchInvariant params store layer filter related
      (searchFinal params store layer query ef filter entrypoint) :=
    searchFinal_invariant closed start distinct
  have kept := mem_searchLayer.1 found
  exact ⟨invariant.furthest_related cand kept, invariant.furthest_filter cand kept,
    invariant.furthest_lower cand kept⟩

/-- No id is found twice. -/
theorem searchLayer_distinct :
    ((searchLayer params store layer query ef filter entrypoint).map Candidate.id).Nodup := by
  have invariant : SearchInvariant params store layer filter related
      (searchFinal params store layer query ef filter entrypoint) :=
    searchFinal_invariant closed start distinct
  have sorted := (sort_perm (furthestCompare params)
    (searchFinal params store layer query ef filter entrypoint).furthest).map Candidate.id
  exact sorted.nodup_iff.2 (Multiset.nodup_add.1 invariant.distinct).2.1

end

end Layer

section Upper

variable {P V D : Type*} [Inhabited V] {params : Params V D} {store : GraphStore P V D}
  {query : V}

variable (params store query) in
/-- The moves of a round: none, or to one of the neighbours. -/
theorem foldl_moveCloser (fresh : List (Nat × Nat)) (state : UpperState V D × Bool) :
    fresh.foldl (moveCloser params store query) state = state ∨
      ∃ neighbor ∈ fresh, fresh.foldl (moveCloser params store query) state =
        (⟨{ state.1.cur with id := neighbor.1, curLayerIdx := neighbor.2 }, state.1.visited,
          getDistance params store query neighbor.1⟩, false) := by
  induction fresh generalizing state with
  | nil => exact .inl rfl
  | cons neighbor fresh ih =>
    rw [foldl_cons]
    by_cases closer : params.lt (getDistance params store query neighbor.1) state.1.closestDist
    · rw [moveCloser, if_pos closer]
      rcases ih _ with stays | ⟨other, present, moved⟩
      · exact .inr ⟨neighbor, mem_cons_self, stays⟩
      · exact .inr ⟨other, mem_cons_of_mem _ present, moved⟩
    · rw [moveCloser, if_neg closer]
      exact (ih state).imp_right fun ⟨other, present, moved⟩ =>
        ⟨other, mem_cons_of_mem _ present, moved⟩

variable (params store query) in
/-- One round of the greedy search: it stays, or moves to a neighbour it sees first. -/
theorem upperStep_cases (state : UpperState V D) :
    let point := store.pointInfo params .upper state.cur.curLayerIdx
    let visit := visitNew state.visited (validNeighbors point.neighbors)
    upperStep params store query state =
        (⟨{ state.cur with lowerLayerIdx := point.lowerLayerIdx }, visit.2, state.closestDist⟩,
          true) ∨
      ∃ neighbor ∈ visit.1, upperStep params store query state =
        (⟨⟨neighbor.1, neighbor.2, point.lowerLayerIdx, state.cur.dist, state.cur.val⟩, visit.2,
          getDistance params store query neighbor.1⟩, false) :=
  foldl_moveCloser params store query _ _

section

variable {holds : UpperState V D -> Prop}
  (kept : ∀ state, holds state -> (upperStep params store query state).2 = false ->
    holds (upperStep params store query state).1)
include kept

/-- The greedy search ends with a round that stays, from a state that has what every other round
keeps. -/
theorem upperLoop_converges (start : holds state)
    (enough : unseen store .upper state.visited < fuel) :
    ∃ last, holds last ∧
      upperStep params store query last = (upperLoop params store query fuel state, true) := by
  induction fuel generalizing state with
  | zero => exact absurd enough (Nat.not_lt_zero _)
  | succ fuel ih =>
    have := unseen_visitNew params store .upper state.visited state.cur.curLayerIdx
    rw [upperLoop]
    rcases upperStep_cases params store query state with
      stays | ⟨_, fresh, moved⟩
    · exact ⟨state, start, by simp [stays]⟩
    · have next := kept state start (by rw [moved])
      have := length_pos_of_mem fresh
      simp only [moved] at next ⊢
      exact ih next (by dsimp only; omega)

omit kept in
/-- A round that stays changes what it knows, not where it is. -/
theorem upperStep_eq_of_converged (converged : upperStep params store query state = (final, true)) :
    final = ⟨{ state.cur with lowerLayerIdx :=
        (store.pointInfo params .upper state.cur.curLayerIdx).lowerLayerIdx },
      (visitNew state.visited
        (validNeighbors (store.pointInfo params .upper state.cur.curLayerIdx).neighbors)).2,
      state.closestDist⟩ := by
  rcases upperStep_cases params store query state with stays | ⟨_, _, moved⟩
  · exact (Prod.mk.inj (converged.symm.trans stays)).1
  · cases (Prod.mk.inj (converged.symm.trans moved)).2

theorem searchUpperLayer_converges (cur : Candidate V D) (start : holds ⟨cur, [], params.fltMax⟩) :
    ∃ last, holds last ∧ upperStep params store query last =
      (upperLoop params store query (slotCount store .upper + 1) ⟨cur, [], params.fltMax⟩, true) :=
  upperLoop_converges kept start (Nat.lt_succ_of_le (countP_le_length.trans length_slotIds_le))

end

theorem searchUpperLayer_spec (closed : Closed params store .upper related)
    (start : related cur.id cur.curLayerIdx) :
    related (searchUpperLayer params store query cur).id
        (searchUpperLayer params store query cur).curLayerIdx ∧
      (searchUpperLayer params store query cur).lowerLayerIdx = (store.pointInfo params .upper
          (searchUpperLayer params store query cur).curLayerIdx).lowerLayerIdx := by
  have moves : ∀ state : UpperState V D, related state.cur.id state.cur.curLayerIdx ->
      (upperStep params store query state).2 = false ->
      related (upperStep params store query state).1.cur.id
        (upperStep params store query state).1.cur.curLayerIdx := by
    intro state before goes
    rcases upperStep_cases params store query state with stays | ⟨neighbor, fresh, moved⟩
    · rw [stays] at goes
      cases goes
    · rw [moved]
      exact closed _ _ before neighbor ((visitNew_sublist _ _).subset fresh)
  obtain ⟨_, ends, converged⟩ := searchUpperLayer_converges moves cur start
  have final := upperStep_eq_of_converged converged
  rw [searchUpperLayer, final]
  exact ⟨ends, rfl⟩

end Upper

end VexDB.GraphIndex
