import VexDB.GraphIndex.SearchSpec
import VexDB.Vtl.HeapOrder

/-!
# What a search has seen

While fewer results are kept than asked for, `search_layer` queues every neighbour
closer than the largest distance, so a search that ends with room for another
result has expanded every point it can reach through such neighbours.
-/

namespace VexDB.GraphIndex

open Vtl List Prod
open PriorityQueue (size_push top push top_eq_none_iff size_pop push_perm sort_perm HeapOn
  heapOn_pop)

variable {P V D : Type*} {state : SearchState V D}

/-- The points reached from a record through slots of admitted points. -/
inductive Reaches (params : Params V D) (store : GraphStore P V D) (layer : Layer)
    (allowed : Nat -> Prop) (start : Nat) : Nat -> Nat -> Prop
  | first {neighbor : Nat × Nat} :
      neighbor ∈ validNeighbors (store.pointInfo params layer start).neighbors ->
      allowed neighbor.1 -> Reaches params store layer allowed start neighbor.1 neighbor.2
  | next {id idx : Nat} {neighbor : Nat × Nat} :
      Reaches params store layer allowed start id idx ->
      neighbor ∈ validNeighbors (store.pointInfo params layer idx).neighbors ->
      allowed neighbor.1 -> Reaches params store layer allowed start neighbor.1 neighbor.2

theorem Reaches.admitted
    {start id idx : Nat} (reached : Reaches params store layer allowed start id idx) :
    allowed id := by
  cases reached with
  | first _ admitted => exact admitted
  | next _ _ admitted => exact admitted

section

variable [Inhabited V] (params : Params V D) (store : GraphStore P V D) (layer : Layer)
  (query : V) (ef : Nat) (filter : Nat -> Bool) (own start : Nat)
  (entrypoint : List (Candidate V D))

/-- Points other than the start, closer than the largest distance. -/
def Admitted (id : Nat) : Prop :=
  id ≠ own ∧ params.le params.fltMax (getDistance params store query id) = false

/-- The points a search expands if it has room: the entry points, and what these lead to
through other points closer than the largest distance. -/
inductive Explores : Nat -> Nat -> Prop
  | entry {cand : Candidate V D} : cand ∈ entrypoint -> Explores cand.id cand.curLayerIdx
  | next {id idx : Nat} {neighbor : Nat × Nat} : Explores id idx ->
      neighbor ∈ validNeighbors (store.pointInfo params layer idx).neighbors ->
      neighbor.1 ∉ entrypoint.map Candidate.id ->
      params.le params.fltMax (getDistance params store query neighbor.1) = false ->
      Explores neighbor.1 neighbor.2

/-- A search that has expanded some points and kept all of them that pass the filter. -/
structure Exploration (expanded : Set (Nat × Nat)) (state : SearchState V D) : Prop where
  entered : ∀ id ∈ entrypoint.map Candidate.id, id ∈ state.visited
  frontier : ∀ cand ∈ state.closest.toList,
    Explores params store layer query entrypoint cand.id cand.curLayerIdx
  kept : ∀ point ∈ expanded, filter point.1 -> point.1 ∈ heapIds state.furthest
  followed : ∀ point ∈ expanded,
    ∀ neighbor ∈ validNeighbors (store.pointInfo params layer point.2).neighbors,
      neighbor.1 ∈ state.visited
  seen : ∀ id ∈ state.visited, id ∈ entrypoint.map Candidate.id ∨
      params.le params.fltMax (getDistance params store query id) = false ->
    ∃ idx, Explores params store layer query entrypoint id idx ∧
      ((id, idx) ∈ expanded ∨
        ∃ cand ∈ state.closest.toList, (cand.id, cand.curLayerIdx) = (id, idx))

/-- What holds in every round of a search. -/
structure Searching (state : SearchState V D) : Prop where
  bounded : state.furthest.size <= ef
  found : state.furthest.size ≠ 0 ->
    ∃ id idx, Explores params store layer query entrypoint id idx ∧ filter id = true
  room : state.furthest.size < ef ->
    ∃ expanded, Exploration params store layer query filter entrypoint expanded state

variable {params store layer query ef filter own start entrypoint} {next : SearchState V D}

omit [Inhabited V] in
theorem size_keepResult (furthest : Array (Candidate V D)) (cand : Candidate V D) :
    (keepResult params ef furthest cand).size =
      if furthest.size < ef then furthest.size + 1 else furthest.size := by
  rw [keepResult, size_push]
  by_cases room : furthest.size < ef
  · rw [if_neg (by omega), if_pos room, size_push]
  · rw [if_pos (by omega), if_neg room]
    cases found : top
        (push (furthestCompare params) furthest cand) with
    | none =>
      have none := top_eq_none_iff.1 found
      rw [size_push] at none
      omega
    | some root =>
      have popped := size_pop (furthestCompare params) found
      rw [size_push] at popped
      omega

/-- One round with room for a result. -/
theorem Exploration.step
    (exploration : Exploration params store layer query filter entrypoint expanded state)
    (room : state.furthest.size < ef)
    (round : SearchRound params store layer query ef filter state next cur) :
    Exploration params store layer query filter entrypoint
      (Insert.insert (cur.id, cur.curLayerIdx) expanded) next := by
  have threshold : searchThreshold params ef state.furthest = params.fltMax := if_pos room
  have curExplored := exploration.frontier cur (round.mem_closest_iff.2 (.inl rfl))
  have unlisted : ∀ neighbor ∈ freshNeighbors params store layer state cur,
      neighbor.1 ∉ entrypoint.map Candidate.id := fun neighbor isFresh isEntry =>
    (visitNew_fresh _ _).2 neighbor.1 (mem_map_of_mem isFresh) (exploration.entered _ isEntry)
  -- A queued candidate is either expanded now or still queued.
  have stays : ∀ point, (point ∈ expanded ∨
      ∃ cand ∈ state.closest.toList, (cand.id, cand.curLayerIdx) = point) ->
        point ∈ Insert.insert (cur.id, cur.curLayerIdx) expanded ∨
          ∃ cand ∈ next.closest.toList, (cand.id, cand.curLayerIdx) = point := by
    rintro point (already | ⟨cand, present, rfl⟩)
    · exact .inl (Set.mem_insert_of_mem _ already)
    · rcases round.mem_closest_iff.1 present with rfl | rest
      · exact .inl (Set.mem_insert _ _)
      · exact .inr ⟨cand, round.queued.mem_iff.2 (mem_append_right _ rest), rfl⟩
  constructor
  case entered =>
    intro id isEntry
    rw [round.visited]
    exact mem_visitNew_visited.2 (.inl (exploration.entered id isEntry))
  case frontier =>
    intro cand present
    rcases round.closest_cases present with ⟨neighbor, isFresh, close, rfl⟩ | earlier
    · exact .next curExplored ((visitNew_sublist _ _).subset isFresh) (unlisted neighbor isFresh)
        (threshold ▸ close)
    · exact exploration.frontier cand earlier
  case kept =>
    have keeps : ∀ id, id ∈ heapIds state.furthest ∨ id = cur.id ∧ filter id ->
        id ∈ heapIds next.furthest := by
      intro id earlierOrNow
      rw [round.furthest]
      split
      next =>
        have all : (keepResult params ef state.furthest
            (resultCandidate params store layer cur)).toList.Perm
              (resultCandidate params store layer cur :: state.furthest.toList) := by
          rw [keepResult, size_push, if_neg (by omega)]
          exact push_perm _ _ _
        rw [heapIds, Multiset.coe_eq_coe.2 (all.map _), map_cons, <- Multiset.cons_coe,
          Multiset.mem_cons]
        exact earlierOrNow.symm.imp_left And.left
      next rejected =>
        exact earlierOrNow.resolve_right fun now => rejected (now.1 ▸ now.2)
    rintro point (rfl | earlier) passes
    · exact keeps _ (.inr ⟨rfl, passes⟩)
    · exact keeps _ (.inl (exploration.kept point earlier passes))
  case followed =>
    rintro point (rfl | earlier) neighbor present <;> rw [round.visited]
    · exact mem_visitNew_of_mem present
    · exact mem_visitNew_visited.2 (.inl (exploration.followed point earlier neighbor present))
  case seen =>
    intro id visited near
    rw [round.visited] at visited
    rcases mem_visitNew_visited.1 visited with before | new
    · obtain ⟨idx, explored, place⟩ := exploration.seen id before near
      exact ⟨idx, explored, stays _ place⟩
    · obtain ⟨neighbor, isFresh, rfl⟩ := mem_map.1 new
      have closer := near.resolve_left (unlisted neighbor isFresh)
      refine ⟨neighbor.2, .next curExplored ((visitNew_sublist _ _).subset isFresh)
        (unlisted neighbor isFresh) closer,
        .inr ⟨queuedCandidate params store query neighbor, ?_, rfl⟩⟩
      refine round.queued.mem_iff.2 (mem_append_left _ (mem_map_of_mem ?_))
      exact mem_filter.2 ⟨isFresh, by simpa [threshold] using closer⟩

theorem Searching.step (searching : Searching params store layer query ef filter entrypoint state)
    (step : searchStep params store layer query ef filter state = some next) :
    Searching params store layer query ef filter entrypoint next := by
  obtain ⟨cur, round⟩ := searchStep_eq_some step
  have size : next.furthest.size = if filter cur.id ∧ state.furthest.size < ef then
      state.furthest.size + 1 else state.furthest.size := by
    rw [round.furthest]
    split <;> simp_all [size_keepResult]
  have bounded := searching.bounded
  constructor
  case bounded =>
    rw [size]
    split_ifs <;> omega
  case found =>
    intro something
    by_cases already : state.furthest.size = 0
    · rw [size, already] at something
      split_ifs at something with passes
      · obtain ⟨expanded, exploration⟩ := searching.room (already ▸ passes.2)
        exact ⟨_, _, exploration.frontier cur (round.mem_closest_iff.2 (.inl rfl)), passes.1⟩
      · exact absurd rfl something
    · exact searching.found already
  case room =>
    intro room
    have before : state.furthest.size < ef := by
      rw [size] at room
      split_ifs at room <;> omega
    obtain ⟨expanded, exploration⟩ := searching.room before
    exact ⟨_, exploration.step before round⟩

/-- A search starts with its entry points queued. -/
theorem searching_searchFinal :
    Searching params store layer query ef filter entrypoint
      (searchFinal params store layer query ef filter entrypoint) := by
  refine searchLoop_invariant (fun _ _ before step => before.step step) _ ?_
  refine ⟨Nat.zero_le _, fun something => absurd rfl something, fun _ => ⟨∅, ?_⟩⟩
  constructor
  case entered => exact fun id => mem_reverse.2
  case frontier => exact fun cand => .entry
  case kept => exact fun _ none => absurd none (Set.notMem_empty _)
  case followed => exact fun _ none => absurd none (Set.notMem_empty _)
  case seen =>
    intro id visited _
    obtain ⟨cand, present, rfl⟩ := mem_map.1 (mem_reverse.1 visited)
    exact ⟨cand.curLayerIdx, .entry present, .inr ⟨cand, present, rfl⟩⟩

/-- A search with room for another result only ends when nothing is queued. -/
theorem closest_eq_empty (room : state.furthest.size < ef)
    (ended : searchStep params store layer query ef filter state = none) : state.closest = #[] := by
  rw [searchStep] at ended
  cases top : top state.closest with
  | none => exact Array.eq_empty_of_size_eq_zero (top_eq_none_iff.1 top)
  | some cur =>
    have unfinished : searchDone params ef state.furthest cur = false := by
      have different : (state.furthest.size == ef) = false := by simpa using Nat.ne_of_lt room
      rw [searchDone, different, Bool.false_and]
    rw [top] at ended
    simp [unfinished] at ended

/-- A search that ends with room for another result has kept every point it can reach that
passes the filter. -/
theorem mem_heapIds_searchFinal (unique : ∀ id idx other,
      Explores params store layer query entrypoint id idx ->
      Explores params store layer query entrypoint id other -> idx = other)
    (room : (searchFinal params store layer query ef filter entrypoint).furthest.size < ef)
    {id idx : Nat} (explored : Explores params store layer query entrypoint id idx)
    (passes : filter id) :
    id ∈ heapIds (searchFinal params store layer query ef filter entrypoint).furthest := by
  obtain ⟨expanded, exploration⟩ := searching_searchFinal.room room
  have exhausted := closest_eq_empty room (searchStep_searchFinal entrypoint)
  have expands : ∀ id idx, Explores params store layer query entrypoint id idx ->
      id ∈ (searchFinal params store layer query ef filter entrypoint).visited ->
      id ∈ entrypoint.map Candidate.id ∨
        params.le params.fltMax (getDistance params store query id) = false ->
      (id, idx) ∈ expanded := by
    intro id idx explored visited near
    obtain ⟨other, alsoExplored, _ | ⟨_, queued, -⟩⟩ :=
      exploration.seen id visited near
    · rwa [unique id idx other explored alsoExplored]
    · rw [exhausted] at queued
      cases queued
  refine exploration.kept (id, idx) ?_ passes
  clear passes
  induction explored with
  | entry present =>
    have isEntry : _ ∈ entrypoint.map Candidate.id := mem_map_of_mem present
    exact expands _ _ (.entry present) (exploration.entered _ isEntry) (.inl isEntry)
  | next before present other near ih =>
    exact expands _ _ (.next before present other near)
      (exploration.followed _ ih _ present) (.inr near)

/-- From a single entry point, a search expands it and what it reaches through other points. -/
theorem explores_singleton {dist : D} {id idx : Nat} :
    Explores params store layer query [⟨own, start, none, dist, none⟩] id idx ↔
      (id, idx) = (own, start) ∨
        Reaches params store layer (Admitted params store query own) start id idx := by
  constructor
  · intro explored
    induction explored with
    | entry present => simp [mem_singleton.1 present]
    | next _ present other near ih =>
      have admitted : Admitted params store query own _ := ⟨by simpa using other, near⟩
      rcases ih with same | reached
      · rw [(mk.inj same).2] at present
        exact .inr (.first present admitted)
      · exact .inr (.next reached present admitted)
  · rintro (same | reached)
    · cases same
      exact .entry (mem_singleton.2 rfl)
    · induction reached with
      | first present admitted =>
        exact .next (.entry (mem_singleton.2 rfl)) present
          (by simpa using admitted.1) admitted.2
      | next _ present admitted ih =>
        exact .next ih present (by simpa using admitted.1) admitted.2

/-- The results of a search are the heap it ends with, sorted. -/
theorem searchLayer_perm :
    (searchLayer params store layer query ef filter entrypoint).Perm
      (searchFinal params store layer query ef filter entrypoint).furthest.toList :=
  sort_perm _ _

/-- A search finds something exactly when a point that passes the filter can be
reached. -/
theorem searchLayer_ne_nil_iff (positive : 0 < ef) (rejectsOwn : filter own = false) (dist : D)
    (unique : ∀ id idx other,
      Reaches params store layer (Admitted params store query own) start id idx ->
      Reaches params store layer (Admitted params store query own) start id other -> idx = other) :
    searchLayer params store layer query ef filter [⟨own, start, none, dist, none⟩] ≠ [] ↔
      ∃ id idx, Reaches params store layer (Admitted params store query own) start id idx ∧
        filter id = true := by
  let entrypoint : List (Candidate V D) := [⟨own, start, none, dist, none⟩]
  have results : searchLayer params store layer query ef filter entrypoint ≠ [] ↔
      (searchFinal params store layer query ef filter entrypoint).furthest.size ≠ 0 := by
    rw [<- length_pos_iff, searchLayer_perm.length_eq, Array.length_toList, Nat.pos_iff_ne_zero]
  rw [results]
  constructor
  · intro something
    obtain ⟨id, idx, explored, passes⟩ := searching_searchFinal.found something
    rcases explores_singleton.1 explored with same | reached
    · rw [(mk.inj same).1, rejectsOwn] at passes
      cases passes
    · exact ⟨id, idx, reached, passes⟩
  · rintro ⟨id, idx, reached, passes⟩ nothing
    have oneRecord : ∀ id idx other, Explores params store layer query entrypoint id idx ->
        Explores params store layer query entrypoint id other -> idx = other := by
      intro id idx other first second
      rcases explores_singleton.1 first with one | one <;>
        rcases explores_singleton.1 second with two | two
      · exact (mk.inj one).2.trans (mk.inj two).2.symm
      · exact absurd (mk.inj one).1 two.admitted.1
      · exact absurd (mk.inj two).1 one.admitted.1
      · exact unique id idx other one two
    have kept := mem_heapIds_searchFinal oneRecord (nothing ▸ positive)
      (explores_singleton.2 (.inr reached)) passes
    rw [Array.eq_empty_of_size_eq_zero nothing] at kept
    cases kept

section

omit [Inhabited V]

theorem furthestCompare_weak (weak : StrictWeak params.lt) : StrictWeak (furthestCompare params) :=
  weak.flip Candidate.dist

theorem heapOn_keepResult (weak : StrictWeak params.lt)
    (heap : HeapOn (furthestCompare params) furthest furthest.size) (cand : Candidate V D) :
    HeapOn (furthestCompare params) (keepResult params ef furthest cand)
      (keepResult params ef furthest cand).size := by
  have pushed := PriorityQueue.heapOn_push (furthestCompare_weak weak) heap cand
  unfold keepResult
  dsimp only
  split
  · exact heapOn_pop (furthestCompare_weak weak) pushed
  · exact pushed

end

variable (params) in
/-- The results kept so far form a heap. -/
def KeptHeap (state : SearchState V D) : Prop :=
  HeapOn (furthestCompare params) state.furthest state.furthest.size

/-- `search_layer` returns its results in order of distance. -/
theorem pairwise_searchLayer (weak : StrictWeak params.lt) (entrypoint : List (Candidate V D)) :
    (searchLayer params store layer query ef filter entrypoint).Pairwise
      fun left right => params.lt right.dist left.dist = false := by
  have step : ∀ state next, KeptHeap params state ->
      searchStep params store layer query ef filter state = some next -> KeptHeap params next := by
    intro state next heap step
    obtain ⟨_, round⟩ := searchStep_eq_some step
    rw [KeptHeap, round.furthest]
    split
    · exact heapOn_keepResult weak heap _
    · exact heap
  have start : KeptHeap params ⟨entrypoint.toArray, #[], (entrypoint.map Candidate.id).reverse⟩ :=
    fun i _ inside => nomatch inside
  exact PriorityQueue.pairwise_sort (furthestCompare_weak weak) (searchLoop_invariant step _ start)

end

end VexDB.GraphIndex
