import VexDB.GraphIndex.VacuumRounds

/-!
# What the searches of one layer return

`search_layer` returns the reachable points that pass its filter when it has room for all of
them.  `repair_entry` searches the levels downwards for a new entry point, from the old one's
record on each level as long as it gets no further than the second.
-/

namespace VexDB.GraphIndex

open Vtl List Option GraphStore Prod

variable {P V D : Type*} [Inhabited V] {params : Params V D} {store : GraphStore P V D} {query : V}

section Layer

variable {layer : Layer} {ef : Nat} {filter : Nat -> Bool} {entrypoint : List (Candidate V D)}
  {state : SearchState V D}

variable (params store query) in
/-- Every candidate carries the distance of its point. -/
def Measured (state : SearchState V D) : Prop :=
  ∀ cand ∈ state.closest.toList ++ state.furthest.toList,
    cand.dist = getDistance params store query cand.id

theorem Measured.step {next : SearchState V D} (measured : Measured params store query state)
    (step : searchStep params store layer query ef filter state = some next) :
    Measured params store query next := by
  obtain ⟨cur, round⟩ := searchStep_eq_some step
  intro cand present
  rcases mem_append.1 present with queued | kept
  · rcases round.closest_cases queued with ⟨_, -, -, rfl⟩ | waiting
    · rfl
    · exact measured cand (mem_append_left _ waiting)
  · rcases round.furthest_cases kept with ⟨rfl, -⟩ | earlier
    · exact measured cur (mem_append_left _ (round.mem_closest_iff.2 (.inl rfl)))
    · exact measured cand (mem_append_right _ earlier)

variable (params store layer entrypoint) in
/-- The points of a layer that can be reached from an entry point. -/
def ReachableFrom (id idx : Nat) : Prop :=
  ∃ cand ∈ entrypoint, (id, idx) = (cand.id, cand.curLayerIdx) ∨
    Reaches params store layer (fun _ => True) cand.curLayerIdx id idx

omit [Inhabited V] in
theorem ReachableFrom.next {id idx : Nat}
    (reachable : ReachableFrom params store layer entrypoint id idx)
    (present : neighbor ∈ validNeighbors (store.pointInfo params layer idx).neighbors) :
    ReachableFrom params store layer entrypoint neighbor.1 neighbor.2 := by
  obtain ⟨cand, isEntry, same | reached⟩ := reachable
  · rw [(mk.inj same).2] at present
    exact ⟨cand, isEntry, .inr (.first present trivial)⟩
  · exact ⟨cand, isEntry, .inr (.next reached present trivial)⟩

/-- With every point closer than the largest distance, a search expands what can be reached. -/
theorem explores_iff_reachableFrom
    (near : ∀ id, params.le params.fltMax (getDistance params store query id) = false)
    (unique : ∀ id idx other, ReachableFrom params store layer entrypoint id idx ->
      ReachableFrom params store layer entrypoint id other -> idx = other) {id idx : Nat} :
    Explores params store layer query entrypoint id idx ↔
      ReachableFrom params store layer entrypoint id idx := by
  constructor
  · intro explored
    induction explored with
    | entry present => exact ⟨_, present, .inl rfl⟩
    | next _ present _ _ ih => exact ih.next present
  · rintro ⟨cand, isEntry, same | reached⟩
    · cases same
      exact .entry isEntry
    · have follow : ∀ id idx (neighbor : Nat × Nat),
          Explores params store layer query entrypoint id idx ->
          neighbor ∈ validNeighbors (store.pointInfo params layer idx).neighbors ->
          ReachableFrom params store layer entrypoint neighbor.1 neighbor.2 ->
          Explores params store layer query entrypoint neighbor.1 neighbor.2 := by
        intro id _ neighbor before present here
        by_cases listed : neighbor.1 ∈ entrypoint.map Candidate.id
        · obtain ⟨other, isEntry, same⟩ := mem_map.1 listed
          rw [<- unique _ _ _ ⟨other, isEntry, .inl (by rw [same])⟩ here, <- same]
          exact .entry isEntry
        · exact .next before present listed (near _)
      induction reached with
      | first present _ =>
        exact follow _ _ _ (.entry isEntry) present ⟨cand, isEntry, .inr (.first present trivial)⟩
      | next before present _ ih =>
        exact follow _ _ _ ih present ⟨cand, isEntry, .inr (.next before present trivial)⟩

/-- `search_layer` ends and returns at most `ef` points that can be reached and pass the filter,
in order of their distances, and all of them if there are no more than `ef`. -/
theorem searchLayer_exact (weak : StrictWeak params.lt)
    (near : ∀ id, params.le params.fltMax (getDistance params store query id) = false)
    (unique : ∀ id idx other, ReachableFrom params store layer entrypoint id idx ->
      ReachableFrom params store layer entrypoint id other -> idx = other)
    (distinct : (entrypoint.map Candidate.id).Nodup)
    (measured : ∀ cand ∈ entrypoint, cand.dist = getDistance params store query cand.id) :
    let results := searchLayer params store layer query ef filter entrypoint
    searchStep params store layer query ef filter
        (searchFinal params store layer query ef filter entrypoint) = none ∧
      results.length <= ef ∧
      results.Pairwise (fun left right => params.lt right.dist left.dist = false) ∧
      (results.map Candidate.id).Nodup ∧
      (∀ cand ∈ results, ReachableFrom params store layer entrypoint cand.id cand.curLayerIdx ∧
        filter cand.id ∧ cand.dist = getDistance params store query cand.id) ∧
      ∀ passing : List Nat, passing.length <= ef ->
        (∀ id idx, ReachableFrom params store layer entrypoint id idx -> filter id → id ∈ passing) →
        ∀ id idx, ReachableFrom params store layer entrypoint id idx -> filter id ->
          id ∈ results.map Candidate.id := by
  intro results
  have searching : Searching params store layer query ef filter entrypoint _ :=
    searching_searchFinal
  have sized : results.length = (searchFinal params store layer query ef filter
      entrypoint).furthest.size := by
    rw [searchLayer_perm.length_eq, Array.length_toList]
  have closed : Closed params store layer (ReachableFrom params store layer entrypoint) :=
    fun _ _ reachable _ present => reachable.next present
  have start : ∀ cand ∈ entrypoint,
      ReachableFrom params store layer entrypoint cand.id cand.curLayerIdx :=
    fun cand isEntry => ⟨cand, isEntry, .inl rfl⟩
  have allMeasured : Measured params store query
      (searchFinal params store layer query ef filter entrypoint) :=
    searchLoop_invariant (fun _ _ before step => before.step step) _ (by simpa [Measured])
  have once : (results.map Candidate.id).Nodup := searchLayer_distinct closed start distinct
  have sound : ∀ cand ∈ results,
      ReachableFrom params store layer entrypoint cand.id cand.curLayerIdx ∧ filter cand.id ∧
        cand.dist = getDistance params store query cand.id := by
    intro cand found
    obtain ⟨reachable, passes, -⟩ := searchLayer_spec closed start distinct found
    exact ⟨reachable, passes, allMeasured cand (mem_append_right _ (mem_searchLayer.1 found))⟩
  refine ⟨searchStep_searchFinal entrypoint, sized ▸ searching.bounded,
    pairwise_searchLayer weak entrypoint, once, sound, ?_⟩
  intro passing few all id idx reachable passes
  rcases searching.bounded.lt_or_eq with room | full
  · have kept := mem_heapIds_searchFinal
      (by simpa only [explores_iff_reachableFrom near unique] using unique) room
      ((explores_iff_reachableFrom near unique).2 reachable) passes
    obtain ⟨cand, present, rfl⟩ := mem_heapIds.1 kept
    exact mem_map_of_mem (mem_searchLayer.2 present)
  -- A full heap holds as many different passing ids as there are.
  · have among : results.map Candidate.id ⊆ passing := by
      intro _ found
      obtain ⟨cand, present, rfl⟩ := mem_map.1 found
      exact all _ _ (sound cand present).1 (sound cand present).2.1
    have same := (once.subperm among).perm_of_length_le (by
      rw [length_map, sized, full]
      exact few)
    exact same.mem_iff.2 (all id idx reachable passes)

/-- Two points on a line; the first has the other as its neighbour, but not the other way round. -/
def oneWay : GraphStore (List Nat) Int Nat where
  elems := [[7], [8]]
  base := [⟨[some (1, 1), none, none, none], none, none, [], [], false⟩,
    ⟨[none, none, none, none], none, none, [], [], false⟩]
  upper := []
  vectors := [0, 5]
  entry := some ⟨0, 0, 0⟩
  freeIds := []
  freeUppers := []
  underVacuum := false

theorem neighbor_oneWay
    (present : neighbor ∈ validNeighbors (oneWay.pointInfo (lineParams 2) .base idx).neighbors) :
    neighbor = (1, 1) := by
  match idx with
  | 0 => exact mem_singleton.1 present
  | 1 => cases present
  | idx + 2 => cases present

theorem strictWeak_lineParams (m : Nat) : StrictWeak (lineParams m).lt where
  asymm before := by simp only [lineParams, decide_eq_true_eq, decide_eq_false_iff_not] at *; omega
  negTrans first second := by simp only [lineParams, decide_eq_false_iff_not] at *; omega

theorem searchLayer_exact_oneWay :
    (searchLayer (lineParams 2) oneWay .base 0 2 (fun _ => true) [⟨0, 0, none, 0, none⟩]).length <=
      2 := by
  have same : ∀ id idx, ReachableFrom (lineParams 2) oneWay .base [⟨0, 0, none, 0, none⟩] id idx ->
      idx = id := by
    rintro id idx ⟨cand, isEntry, same | reached⟩
    · obtain rfl := mem_singleton.1 isEntry
      cases same
      rfl
    · cases reached with
      | first present => rw [neighbor_oneWay present]
      | next _ present => rw [neighbor_oneWay present]
  refine (searchLayer_exact (strictWeak_lineParams 2) ?_ ?_ (by decide) ?_).2.1
  · intro id
    match id with
    | 0 => decide
    | 1 => decide
    | id + 2 => rfl
  · intro id _ _ one two
    rw [same _ _ one, same _ _ two]
  · intro _ isEntry
    obtain rfl := mem_singleton.1 isEntry
    rfl

end Layer

section Entry

variable {strict : Bool} {levels : Nat -> Nat} {entry : EntryInfo} {deleted : List Nat}
  {level start : Nat}

/-- A point found from the entry point's record on a level is one that is kept. -/
theorem reaches_of_foundEntry
    (found : foundEntry params store entry deleted (level, start) = some info) :
    info.level = level ∧ info.id ∉ deleted ∧
      Reaches params store (layerOf level) (fun _ => True) start info.id info.curLayerIdx := by
  obtain ⟨_, head, rfl⟩ := map_eq_some_iff.1 found
  obtain ⟨⟨own, isEntry, place⟩, passes, -⟩ := searchLayer_spec
    (fun _ _ reachable _ present => ReachableFrom.next reachable present)
    (fun own isEntry => ⟨own, isEntry, .inl rfl⟩) (by exact nodup_singleton _)
    (mem_of_mem_head? head)
  obtain rfl := mem_singleton.1 isEntry
  obtain ⟨other, kept⟩ := (repairFilter_iff _ _ _).1 passes
  exact ⟨rfl, kept, place.resolve_left fun same => other (mk.inj same).1⟩

/-- If none is found from there, none that is kept can be reached. -/
theorem mem_deleted_of_foundEntry_eq_none (graph : Linked params strict store levels) (near : ∀ id,
      params.le params.fltMax (getDistance params store (store.readData entry.id) id) = false)
    (gone : entry.id ∈ deleted) (related : Related store levels level entry.id start)
    (nothing : foundEntry params store entry deleted (level, start) = none) {id idx : Nat}
    (reached : Reaches params store (layerOf level) (fun _ => True) start id idx) :
    id ∈ deleted := by
  let entrypoint : List (Candidate V D) := [⟨entry.id, start, none, params.zero, none⟩]
  have from_ : Related store levels (level, start).1 entry.id (level, start).2 ∨
      (level, start).1 = 0 := .inl related
  have levelPoint : ∀ id idx, ReachableFrom params store (layerOf level) entrypoint id idx ->
      Related store levels level id idx := by
    rintro id idx ⟨_, isEntry, place⟩
    obtain rfl := mem_singleton.1 isEntry
    rcases place with same | reached
    · cases same
      exact related
    · exact reached.related graph from_
  have explored := (explores_iff_reachableFrom near (fun id idx other one two =>
    graph.unique level id idx other (levelPoint _ _ one) (levelPoint _ _ two))).2
      ⟨_, mem_singleton.2 rfl, .inr reached⟩
  rcases explores_singleton.1 explored with same | admitted
  · rwa [(mk.inj same).1]
  · by_contra kept
    have found := (foundEntry_isSome_iff graph from_).2 ⟨id, idx, admitted, kept⟩
    rw [nothing] at found
    cases found

/-- The first of the results for the levels from the given one down. -/
def highest {α : Type*} (found : Nat -> Option α) : Nat -> Option α
  | 0 => found 0
  | level + 1 => (found (level + 1)).or (highest found level)

theorem highest_eq_some {α : Type*} {found : Nat -> Option α} {top : Nat} {result : α}
    (first : highest found top = some result) :
    ∃ level ≤ top, found level = some result ∧
      ∀ above, level < above -> above <= top -> found above = none := by
  induction top with
  | zero => exact ⟨0, le_rfl, first, fun above higher within => by omega⟩
  | succ top ih =>
    rcases or_eq_some_iff.1 first with here | ⟨nothing, below⟩
    · exact ⟨top + 1, le_rfl, here, fun above higher within => by omega⟩
    · obtain ⟨level, _, here, higher⟩ := ih below
      refine ⟨level, by omega, here, fun above isHigher isWithin => ?_⟩
      rcases isWithin.lt_or_eq with _ | rfl
      · exact higher above isHigher (by omega)
      · exact nothing

theorem highest_eq_none {α : Type*} {found : Nat -> Option α}
    (nothing : highest found top = none) : ∀ level ≤ top, found level = none := by
  induction top with
  | zero =>
    intro level within
    obtain rfl : level = 0 := by omega
    exact nothing
  | succ top ih =>
    obtain ⟨here, below⟩ := or_eq_none_iff.1 nothing
    intro level within
    rcases within.lt_or_eq with _ | rfl
    · exact ih below level (by omega)
    · exact here

variable (params store entry deleted) in
/-- The levels `repair_entry` searches, down to the first where it finds a point, each with
the record it starts from: below the entry point's level always the one record under it. -/
def entrySearches : Nat -> Nat -> List (Nat × Nat)
  | 0, start => [(0, start)]
  | level + 1, start => (level + 1, start) ::
    if (foundEntry params store entry deleted (level + 1, start)).isSome then []
    else entrySearches level
      ((store.pointInfo params .upper entry.curLayerIdx).lowerLayerIdx.getD invalidVectorId)

theorem findEntry_eq_entrySearches :
    findEntry params store entry deleted level [⟨entry.id, start, none, params.zero, none⟩] =
      (entrySearches params store entry deleted level start).findSome?
        (foundEntry params store entry deleted) := by
  induction level generalizing start with
  | zero =>
    rw [findEntry_zero, entrySearches, findSome?_cons]
    cases foundEntry params store entry deleted (0, start) <;> rfl
  | succ level ih =>
    rw [findEntry_succ, entrySearches, findSome?_cons]
    cases foundEntry params store entry deleted (level + 1, start) with
    | none => exact ih
    | some => rfl

/-- Searches that start from the records of one point end on the highest level with a result. -/
theorem findSome?_entrySearches {own : Nat -> Nat}
    (owned : ∀ search ∈ entrySearches params store entry deleted level start,
      search.2 = own search.1) :
    (entrySearches params store entry deleted level start).findSome?
        (foundEntry params store entry deleted) =
      highest (fun level => foundEntry params store entry deleted (level, own level)) level := by
  induction level generalizing start with
  | zero =>
    rw [entrySearches] at owned ⊢
    rw [findSome?_cons, highest, <- show start = own 0 from owned _ mem_cons_self]
    cases foundEntry params store entry deleted (0, start) <;> rfl
  | succ level ih =>
    rw [entrySearches] at owned ⊢
    obtain ⟨here, below⟩ := forall_mem_cons.1 owned
    rw [findSome?_cons, highest, <- show start = own (level + 1) from here]
    cases found : foundEntry params store entry deleted (level + 1, start) with
    | none =>
      rw [found] at below
      exact ih below
    | some => rfl

omit [Inhabited V] in
/-- A record belongs to one level above the base layer. -/
theorem Related.level_eq {id idx above : Nat} (related : Related store levels (level + 1) id idx)
    (related' : Related store levels (above + 1) id idx) : level = above :=
  Nat.succ.inj (related.1.1.symm.trans related'.1.1)

section

variable (graph : Linked params strict store levels) (isEntry : store.entry = some entry)
  (gone : entry.id ∈ deleted)
  (near : ∀ id,
    params.le params.fltMax (getDistance params store (store.readData entry.id) id) = false)
  (own : Nat -> Nat)
  (owned : ∀ level ≤ entry.level, Related store levels level entry.id (own level))
include graph isEntry gone near owned

/-- When the searches start from the entry point's own records. -/
theorem start_eq_own_iff :
    (∀ search ∈ entrySearches params store entry deleted entry.level entry.curLayerIdx,
      search.2 = own search.1) ↔
    entry.level <= 1 ∨
      (∃ level ≤ entry.level, entry.level <= level + 1 ∧
        ∃ id idx, Reaches params store (layerOf level) (fun _ => True) (own level) id idx ∧
          id ∉ deleted) ∨
      (entry.level = 2 ∧ own 1 = own 0) := by
  have top : entry.curLayerIdx = own entry.level :=
    graph.unique _ _ _ _ (graph.entered entry isEntry) (owned _ le_rfl)
  have below : ∀ level, entry.level = level + 1 ->
      (store.pointInfo params .upper entry.curLayerIdx).lowerLayerIdx.getD invalidVectorId =
        own level := by
    intro level isTop
    obtain ⟨low, lowEq, lowRelated⟩ := graph.lower_related (isTop ▸ graph.entered entry isEntry)
    rw [lowEq, getD_some]
    exact graph.unique _ _ _ _ lowRelated (owned level (by omega))
  rw [top]
  rcases height : entry.level with _ | _ | level
  · simp [entrySearches]
  · simp [entrySearches, below 0 height]
  rw [entrySearches, entrySearches, below (level + 1) height]
  cases first : foundEntry params store entry deleted (level + 2, own (level + 2)) with
  | some info =>
    obtain ⟨-, kept, reached⟩ := reaches_of_foundEntry first
    simp only [isSome_some, if_true, forall_mem_singleton, true_iff]
    exact .inr (.inl ⟨level + 2, le_rfl, by omega, _, _, reached, kept⟩)
  | none =>
    cases second : foundEntry params store entry deleted (level + 1, own (level + 1)) with
    | some info =>
      obtain ⟨-, kept, reached⟩ := reaches_of_foundEntry second
      simp only [isSome_none, isSome_some, Bool.false_eq_true, if_false, if_true,
        forall_mem_cons, not_mem_nil, false_imp_iff, implies_true, and_true, true_iff]
      exact .inr (.inl ⟨level + 1, by omega, by omega, _, _, reached, kept⟩)
    | none =>
      simp only [isSome_none, Bool.false_eq_true, if_false, forall_mem_cons, true_and]
      constructor
      -- The third search starts where the second did.
      · intro others
        cases level with
        | zero => exact .inr (.inr ⟨rfl, others (0, own 1) (by simp [entrySearches])⟩)
        | succ level =>
          have same : own (level + 2) = own (level + 1) :=
            others (level + 1, own (level + 2)) (by simp [entrySearches])
          have related := owned (level + 2) (by omega)
          rw [same] at related
          cases related.level_eq (owned (level + 1) (by omega))
      · rintro (low | ⟨reachedAt, within, _, id, idx, reached, kept⟩ | ⟨low, same⟩)
        · omega
        · refine absurd (mem_deleted_of_foundEntry_eq_none graph near gone
            (owned reachedAt (by omega)) ?_ reached) kept
          obtain rfl | rfl : reachedAt = level + 2 ∨ reachedAt = level + 1 := by omega
          · exact first
          · exact second
        · obtain rfl : level = 0 := by omega
          simp [entrySearches, same]

end

end Entry

end VexDB.GraphIndex
