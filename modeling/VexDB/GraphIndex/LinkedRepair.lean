import VexDB.GraphIndex.LinkedInsert

/-!
# Repairing keeps the graph in order

A repair gives a record new neighbours of its level and links them back; the
repair of the entry point moves it to a point the search of a layer found.
Linking back does not look whether the neighbour already lists the point.
-/

namespace VexDB.GraphIndex

open List GraphStore
open GraphStore (impl getElem?_layer_modifyPoint pointInfo layer)

variable {P V D Tid : Type*} [Inhabited V] {params : Params V D} {strict : Bool} {store : GraphStore
  P V D} {levels : Nat -> Nat} {deleted : List Nat} {layer : Layer} {idx : Nat}

section Neighbors

theorem repairFilter_iff (deleted : List Nat) (id other : Nat) :
    repairFilter deleted id other = true ↔ other ≠ id ∧ other ∉ deleted := by
  rw [repairFilter, Bool.and_eq_true, bne_iff_ne, Bool.not_eq_true', contains_eq_mem,
    decide_eq_false_iff_not]
  exact and_congr_left fun _ => ne_comm

/-- The neighbours a repair chooses are other live points of the level. -/
theorem repairNeighbors_spec (graph : Linked params strict store levels) (deleted : List Nat)
    {level id : Nat} (related : Related store levels level id idx) :
    PointsOf store levels level (repairNeighbors params store (layerOf level) deleted id idx) ∧
      ∀ nbr ∈ repairNeighbors params store (layerOf level) deleted id idx,
        nbr.id ≠ id ∧ nbr.id ∉ deleted := by
  have start : PointsOf store levels level
      [(⟨id, idx, none, params.zero, none⟩ : Candidate V D)] := .singleton related
  refine ⟨(searchLayer_pointsOf graph start).getNeighborsData.selectNeighbors _, ?_⟩
  intro _ present
  obtain ⟨found, foundPresent, rfl⟩ :=
    mem_map.1 (mem_of_mem_selectNeighbors params present)
  obtain ⟨-, passes, -⟩ :=
    searchLayer_spec (graph.closed level) start.related start.distinct foundPresent
  exact (repairFilter_iff deleted id found.id).1 passes

end Neighbors

section Points

variable [Inhabited P] {pt : PointType P Tid}

variable (params store) in
/-- No neighbour chosen by the repair of a record lists its point already. -/
def Unreciprocated (layer : Layer) (deleted : List Nat) (id idx : Nat) : Prop :=
  ∀ nbr ∈ repairNeighbors params store layer deleted id idx,
    id ∉ neighborIds (store.pointInfo params layer nbr.curLayerIdx)

instance (layer : Layer) (deleted : List Nat) (id idx : Nat) :
    Decidable (Unreciprocated params store layer deleted id idx) :=
  inferInstanceAs (Decidable (∀ nbr ∈ repairNeighbors params store layer deleted id idx,
    id ∉ neighborIds (store.pointInfo params layer nbr.curLayerIdx)))

/-- What the repair of a record changes: its own list, and slots of others that
now hold its point. -/
structure Repaired (layer : Layer) (deleted : List Nat) (id idx : Nat)
    (store after : GraphStore P V D) : Prop where
  skeleton : SameSkeleton store after
  entry : after.entry = store.entry
  elems : after.elems = store.elems
  vectors : after.vectors = store.vectors
  underVacuum : after.underVacuum = store.underVacuum
  other : ∀ other, other ≠ layer -> ∀ position : Nat,
    (after.layer other)[position]? = (store.layer other)[position]?
  free : ∀ position ∈ store.freeList layer,
    (after.layer layer)[position]? = (store.layer layer)[position]?
  own : ∀ point, (after.layer layer)[idx]? = some point ->
    ∀ neighbor ∈ validNeighbors point.neighbors, neighbor.1 ∉ deleted
  slots : ∀ (position : Nat) (point : Point D), position ≠ idx ->
    (after.layer layer)[position]? = some point ->
    ∃ before, (store.layer layer)[position]? = some before ∧
      ∀ neighbor ∈ validNeighbors point.neighbors,
        neighbor ∈ validNeighbors before.neighbors ∨ neighbor = (id, idx)

variable (pt) in
/-- Repairing one record keeps the graph in order. -/
theorem repairPoint_linked (graph : Linked params strict store levels) (deleted : List Nat)
    {level id : Nat} (related : Related store levels level id idx)
    (clean : strict -> Unreciprocated params store (layerOf level) deleted id idx) :
    Linked params strict (repairPoint params (impl params pt) (layerOf level) deleted
        id idx store) levels ∧
      Repaired (layerOf level) deleted id idx store
        (repairPoint params (impl params pt) (layerOf level) deleted id idx store) := by
  obtain ⟨points, others⟩ := repairNeighbors_spec graph deleted related
  obtain ⟨record, found, owned, sameLevel⟩ := related.exists_point
  let neighbors := repairNeighbors params store (layerOf level) deleted id idx
  let change : Point D -> Point D := fun point =>
    { point with neighbors := neighborSlots params (layerOf level) neighbors }
  have keepsId : ∀ point, (change point).id = point.id := fun _ => rfl
  let rewritten := store.modifyPoint (layerOf level) idx change
  have same : SameSkeleton store rewritten := sameSkeleton_modifyPoint _ _ _ (fun _ => keepsId)
  have rewrittenGraph : Linked params strict rewritten levels := by
    refine graph.modifyPoint (fun _ => keepsId) (fun _ _ => rfl) ?_ ?_ ?_
    · intro isUpper point pointFound unowned
      rw [isUpper] at found owned
      obtain rfl : record = point := Option.mem_unique found pointFound
      cases unowned.symm.trans owned
    · intro point pointFound
      cases found.symm.trans pointFound
      refine shaped_neighborSlots params _ neighbors rfl (length_selectNeighbors_le params _ _)
        points.distinct ?_
      intro own isOwn nbr present equal
      have owner : ownId (layerOf level) idx record = some own :=
        (ownId_of_same (keepsId record)).symm.trans isOwn
      obtain rfl : id = _ := Option.mem_unique owned owner
      exact (others nbr present).1 equal
    · intro point _ neighbor present
      rw [validNeighbors_neighborSlots] at present
      obtain ⟨nbr, nbrPresent, rfl⟩ := mem_map.1 present
      rw [sameLevel]
      exact points.related nbr nbrPresent
  -- The record just rewritten is not a chosen neighbour's.
  have different : ∀ nbr ∈ neighbors, nbr.curLayerIdx ≠ idx := by
    intro nbr present equal
    have nbrRelated := points.related nbr present
    rw [equal] at nbrRelated
    exact (others nbr present).1 (nbrRelated.id_eq related)
  obtain ⟨lastGraph, relinked⟩ : Linked params _ (updateReverseEdges params
        (impl params pt) (layerOf level) (id, idx) rewritten neighbors) levels ∧
      Relinked (layerOf level) (id, idx) (neighbors.map Candidate.curLayerIdx) rewritten
        (updateReverseEdges params (impl params pt) (layerOf level) (id, idx) rewritten
          neighbors) := by
    refine updateReverseEdges_linked rewrittenGraph (same.related_iff.2 related)
      (points.mono (same.extends levels)) (fun nbr present => (others nbr present).1) ?_
    intro isStrict nbr present point pointFound
    rw [getElem?_layer_modifyPoint, if_neg (fun both => different nbr present both.2)] at pointFound
    have unlisted := clean isStrict nbr present
    rwa [pointInfo_of_getElem? pointFound] at unlisted
  refine ⟨lastGraph, same.trans relinked.skeleton, relinked.entry.trans (entry_modifyPoint _ _ _ _),
    relinked.elems.trans (elems_modifyPoint _ _ _ _),
    relinked.vectors.trans (vectors_modifyPoint _ _ _ _),
    relinked.underVacuum.trans (underVacuum_modifyPoint _ _ _ _), ?_, ?_, ?_, ?_⟩
  · intro other otherLayer position
    refine (relinked.kept other position (fun both => otherLayer both.1)).trans ?_
    rw [getElem?_layer_modifyPoint, if_neg (fun both => otherLayer both.1)]
  · intro position free
    have unchanged : ¬ (layerOf level = layerOf level ∧
        position ∈ neighbors.map Candidate.curLayerIdx) := by
      rintro ⟨-, changed⟩
      obtain ⟨nbr, present, rfl⟩ := mem_map.1 changed
      exact (points.related nbr present).notMem_freeList free
    refine (relinked.kept _ position unchanged).trans ?_
    rw [getElem?_layer_modifyPoint, if_neg]
    rintro ⟨-, rfl⟩
    exact related.notMem_freeList free
  · intro point pointFound _ present
    have untouched := relinked.kept (layerOf level) idx (by
      rintro ⟨-, inList⟩
      obtain ⟨nbr, nbrPresent, equal⟩ := mem_map.1 inList
      exact different nbr nbrPresent equal)
    rw [getElem?_layer_modifyPoint, if_pos ⟨rfl, rfl⟩, found] at untouched
    obtain rfl : change record = point := Option.mem_unique untouched pointFound
    have slots : (change record).neighbors = neighborSlots params (layerOf level) neighbors := rfl
    rw [slots, validNeighbors_neighborSlots] at present
    obtain ⟨nbr, nbrPresent, rfl⟩ := mem_map.1 present
    exact (others nbr nbrPresent).2
  · intro position point elsewhere pointFound
    obtain ⟨before, beforeFound, slots⟩ := relinked.slots position point pointFound
    rw [getElem?_layer_modifyPoint, if_neg (fun both => elsewhere both.2)] at beforeFound
    exact ⟨before, beforeFound, slots⟩

omit [Inhabited P] [Inhabited V] in
theorem exists_point_of_needUpdate
    (update : needUpdate deleted (store.pointInfo params layer idx) = true) :
    ∃ point, (store.layer layer)[idx]? = some point ∧ validNeighbors point.neighbors ≠ [] := by
  rcases Nat.lt_or_ge idx (store.layer layer).length with inBounds | behind
  · refine ⟨_, getElem?_eq_getElem inBounds, ?_⟩
    intro empty
    rw [pointInfo_of_getElem? (getElem?_eq_getElem inBounds), needUpdate, empty] at update
    cases update
  · rw [pointInfo, getD_eq_getElem?_getD, getElem?_eq_none behind,
      Option.getD_none, needUpdate, GraphStore.cleared, validNeighbors_replicate_none] at update
    cases update

/-- A record that names none of the removed points. -/
def CleanAt (deleted : List Nat) (store : GraphStore P V D) (layer : Layer) (idx : Nat) : Prop :=
  ∀ point, (store.layer layer)[idx]? = some point ->
    ∀ neighbor ∈ validNeighbors point.neighbors, neighbor.1 ∉ deleted

section

omit [Inhabited P] [Inhabited V]

theorem cleanAt_of_not_needUpdate
    (settled : ¬ needUpdate deleted (store.pointInfo params layer idx) = true) :
    CleanAt deleted store layer idx := by
  intro _ found neighbor present gone
  rw [pointInfo_of_getElem? found] at settled
  exact settled (any_eq_true.2 ⟨neighbor, present, contains_iff_mem.2 gone⟩)

/-- The repair of a kept point leaves clean records clean, and its own is clean. -/
theorem Repaired.cleanAt {other : Layer} {id position : Nat} {after : GraphStore P V D}
    (repaired : Repaired layer deleted id idx store after) (kept : id ∉ deleted)
    (clean : CleanAt deleted store other position ∨ (other = layer ∧ position = idx)) :
    CleanAt deleted after other position := by
  intro point found neighbor present
  by_cases isOwn : other = layer ∧ position = idx
  · obtain ⟨rfl, rfl⟩ := isOwn
    exact repaired.own point found neighbor present
  · have before := clean.resolve_right isOwn
    by_cases sameLayer : other = layer
    · subst sameLayer
      obtain ⟨record, recordFound, slots⟩ :=
        repaired.slots position point (fun same => isOwn ⟨rfl, same⟩) found
      rcases slots neighbor present with earlier | rfl
      · exact before record recordFound neighbor earlier
      · exact kept
    · rw [repaired.other other sameLayer position] at found
      exact before point found neighbor present

/-- An owned record is a point on its level. -/
theorem Linked.related_of_owned (graph : Linked params strict store levels) {id : Nat}
    (found : store.upper[idx]? = some point) (owned : point.id = some id) :
    ∃ level, levels idx = level + 1 ∧ Related store levels (level + 1) id idx := by
  obtain ⟨level, _, levelEq, -, below⟩ :=
    (graph.points .upper idx point found).chained rfl id owned
  exact ⟨level, levelEq, ⟨levelEq, graph.notMem_freeUppers found owned, point, found, owned⟩,
    below.lt⟩

end

variable (pt) in
/-- `repair_basepoint` keeps the graph in order. -/
theorem repairBasepoint_linked
    (graph : Linked params strict store levels) (cleared : FreeCleared store)
    (deleted : List Nat) (id : Nat)
    (clean : strict -> needUpdate deleted (store.pointInfo params .base id) = true ->
      Unreciprocated params store .base deleted id id) :
    let after := repairBasepoint params (impl params pt) deleted id store
    Linked params strict after levels ∧ ((CleanAt deleted store .base id ∧ after = store) ∨
        Repaired .base deleted id id store after) := by
  by_cases update : needUpdate deleted (store.pointInfo params .base id) = true
  · have equation : repairBasepoint params (impl params pt) deleted id store =
        repairPoint params (impl params pt) .base deleted id id store := if_pos update
    simp only [equation]
    obtain ⟨point, found, nonempty⟩ := exists_point_of_needUpdate update
    have related : Related store levels 0 id id := by
      refine ⟨rfl, (List.getElem?_eq_some_iff.1 found).1, ?_⟩
      intro free
      exact nonempty (cleared id free point found)
    obtain ⟨after, repaired⟩ := repairPoint_linked pt graph deleted related
      (fun isStrict => clean isStrict update)
    exact ⟨after, .inr repaired⟩
  · have equation : repairBasepoint params (impl params pt) deleted id store = store :=
      if_neg update
    simp only [equation]
    exact ⟨graph, .inl ⟨cleanAt_of_not_needUpdate update, trivial⟩⟩

variable (pt) in
/-- `repair_upperpoint` keeps the graph in order. -/
theorem repairUpperpoint_linked
    (graph : Linked params strict store levels) (deleted : List Nat) (idx : Nat)
    (clean : strict -> ∀ id, (store.pointInfo params .upper idx).id = some id -> id ∉ deleted ->
      needUpdate deleted (store.pointInfo params .upper idx) = true ->
        Unreciprocated params store .upper deleted id idx) :
    let after := repairUpperpoint params (impl params pt) deleted idx store
    Linked params strict after levels ∧
      (((∀ id, (store.pointInfo params .upper idx).id = some id -> id ∉ deleted ->
          CleanAt deleted store .upper idx) ∧ after = store) ∨
        ∃ id, id ∉ deleted ∧ Repaired .upper deleted id idx store after) := by
  rw [repairUpperpoint]
  cases owned : (store.pointInfo params .upper idx).id with
  | none => exact ⟨graph, .inl ⟨nofun, rfl⟩⟩
  | some id =>
    simp only
    by_cases gone : deleted.contains id = true
    · rw [if_pos gone]
      refine ⟨graph, .inl ⟨?_, rfl⟩⟩
      intro _ isOwner kept
      cases isOwner
      exact absurd (contains_iff_mem.1 gone) kept
    · have notDeleted : id ∉ deleted := fun present => gone (contains_iff_mem.2 present)
      rw [if_neg gone]
      by_cases update : needUpdate deleted (store.pointInfo params .upper idx) = true
      · rw [if_pos update]
        obtain ⟨_, found, -⟩ := exists_point_of_needUpdate update
        have ownedPoint := owned
        rw [pointInfo_of_getElem? found] at ownedPoint
        obtain ⟨_, -, related⟩ := graph.related_of_owned found ownedPoint
        obtain ⟨after, repaired⟩ := repairPoint_linked pt graph deleted related
          (fun isStrict => clean isStrict id owned notDeleted update)
        exact ⟨after, .inr ⟨id, notDeleted, repaired⟩⟩
      · rw [if_neg update]
        exact ⟨graph, .inl ⟨fun _ _ _ => cleanAt_of_not_needUpdate update, rfl⟩⟩

end Points

section Entry

variable (params store) in
/-- Where `repair_entry` searches: the entry point's record, and its lower index
on every level below. -/
def entryStarts (entry : EntryInfo) : List (Nat × Nat) :=
  let low := (store.pointInfo params .upper entry.curLayerIdx).lowerLayerIdx.getD invalidVectorId
  match entry.level with
  | 0 => [(0, entry.curLayerIdx)]
  | 1 => [(1, entry.curLayerIdx), (0, low)]
  | level + 2 => [(level + 2, entry.curLayerIdx), (level + 1, low), (0, low)]

variable (params store) in
/-- The point a search of `repair_entry` ends on. -/
def foundEntry (entry : EntryInfo) (deleted : List Nat) (start : Nat × Nat) : Option EntryInfo :=
  (searchLayer params store (layerOf start.1) (store.readData entry.id) 1
    (repairFilter deleted entry.id) [⟨entry.id, start.2, none, params.zero, none⟩]).head?.map
      fun found => ⟨found.id, found.curLayerIdx, start.1⟩

section

variable (entry : EntryInfo)

theorem findEntry_zero (deleted : List Nat) (idx : Nat) :
    findEntry params store entry deleted 0 [⟨entry.id, idx, none, params.zero, none⟩] =
      foundEntry params store entry deleted (0, idx) := by
  rw [findEntry, foundEntry, layerOf]
  cases searchLayer params store .base (store.readData entry.id) 1
    (repairFilter deleted entry.id) [⟨entry.id, idx, none, params.zero, none⟩] <;> rfl

theorem findEntry_succ (deleted : List Nat) (level idx : Nat) :
    findEntry params store entry deleted (level + 1) [⟨entry.id, idx, none, params.zero, none⟩] =
      (foundEntry params store entry deleted (level + 1, idx)).or
        (findEntry params store entry deleted level [⟨entry.id,
          (store.pointInfo params .upper entry.curLayerIdx).lowerLayerIdx.getD invalidVectorId,
          none, params.zero, none⟩]) := by
  rw [findEntry, foundEntry, layerOf]
  cases searchLayer params store .upper (store.readData entry.id) 1
    (repairFilter deleted entry.id) [⟨entry.id, idx, none, params.zero, none⟩] <;> rfl

/-- Below the second level searched the start stays the same, so nothing new is
searched before the base layer. -/
theorem findEntry_stuck (deleted : List Nat) (level height : Nat)
    (isLower : (store.pointInfo params .upper entry.curLayerIdx).lowerLayerIdx.getD
      invalidVectorId = lower)
    (stuck : foundEntry params store entry deleted (height + 1, lower) = none) :
    findEntry params store entry deleted level [⟨entry.id, lower, none, params.zero, none⟩] =
      foundEntry params store entry deleted (0, lower) := by
  induction level with
  | zero => exact findEntry_zero entry deleted _
  | succ level ih =>
    rw [findEntry_succ, isLower, ih]
    have again : foundEntry params store entry deleted (level + 1, lower) = none := by
      rw [foundEntry, Option.map_eq_none_iff] at stuck ⊢
      exact stuck
    rw [again]
    rfl

/-- `repair_entry` takes the first point found from its starting records. -/
theorem findEntry_eq (deleted : List Nat) :
    findEntry params store entry deleted entry.level
        [⟨entry.id, entry.curLayerIdx, none, params.zero, none⟩] =
      (entryStarts params store entry).findSome? (foundEntry params store entry deleted) := by
  have searched : ∀ start rest, (start :: rest).findSome? (foundEntry params store entry deleted) =
      (foundEntry params store entry deleted start).or
        (rest.findSome? (foundEntry params store entry deleted)) := by
    intro start _
    rw [findSome?_cons]
    cases foundEntry params store entry deleted start <;> rfl
  rw [entryStarts]
  rcases height : entry.level with _ | _ | level
  · simp only [findEntry_zero, searched, findSome?_nil, Option.or_none]
  · simp only [findEntry_succ, findEntry_zero, searched, findSome?_nil, Option.or_none]
  · simp only [findEntry_succ, searched, findSome?_nil, Option.or_none]
    cases second : foundEntry params store entry deleted (level + 1,
        (store.pointInfo params .upper entry.curLayerIdx).lowerLayerIdx.getD invalidVectorId) with
    | none => rw [findEntry_stuck entry deleted level level rfl second]
    | some found => rfl

end

section

variable (graph : Linked params strict store levels)
include graph

omit [Inhabited V]

/-- Every start above the base layer is a record of the entry point. -/
theorem entryStarts_related {entry : EntryInfo}
    (related : Related store levels entry.level entry.id entry.curLayerIdx)
    (present : start ∈ entryStarts params store entry) :
    Related store levels start.1 entry.id start.2 ∨ start.1 = 0 := by
  rw [entryStarts] at present
  rcases height : entry.level with _ | _ | _ <;> rw [height] at related present
  · obtain rfl := mem_singleton.1 present
    exact .inl related
  · rcases mem_cons.1 present with rfl | rest
    · exact .inl related
    · obtain rfl := mem_singleton.1 rest
      exact .inr rfl
  · obtain ⟨_, lowEq, lowRelated⟩ := graph.lower_related related
    simp only [lowEq, mem_cons, not_mem_nil, or_false] at present
    rcases present with rfl | rfl | rfl
    · exact .inl related
    · exact .inl lowRelated
    · exact .inr rfl

/-- Whatever base record is read, it lists points of the base layer. -/
theorem Linked.neighbor_base
    (present : neighbor ∈ validNeighbors (store.pointInfo params .base idx).neighbors) :
    Related store levels 0 neighbor.1 neighbor.2 := by
  rcases Nat.lt_or_ge idx store.base.length with inBounds | behind
  · have found : (store.layer .base)[idx]? = some store.base[idx] :=
      getElem?_eq_getElem inBounds
    rw [pointInfo_of_getElem? found] at present
    exact (graph.points .base idx _ found).linked neighbor present
  · have cleared : store.pointInfo params .base idx = GraphStore.cleared params .base := by
      rw [pointInfo, layer, getD_eq_getElem?_getD, getElem?_eq_none behind]
      rfl
    rw [cleared, GraphStore.cleared, validNeighbors_replicate_none] at present
    cases present

theorem Linked.closed_base (own : Nat) :
    Closed params store .base (fun id idx => Related store levels 0 id idx ∨ id = own) :=
  fun _ _ _ _ present => .inl (graph.neighbor_base present)

end

/-- What `repair_entry` finds is another live point of the level. -/
theorem foundEntry_spec (graph : Linked params strict store levels) {entry : EntryInfo}
    (from_ : Related store levels start.1 entry.id start.2 ∨ start.1 = 0)
    (found : foundEntry params store entry deleted start = some info) :
    Related store levels info.level info.id info.curLayerIdx ∧
      info.id ≠ entry.id ∧ info.id ∉ deleted := by
  obtain ⟨_, head, rfl⟩ := Option.map_eq_some_iff.1 found
  have present := mem_of_mem_head? head
  obtain ⟨level, idx⟩ := start
  have single : ([(⟨entry.id, idx, none, params.zero, none⟩ : Candidate V D)].map
      Candidate.id).Nodup := nodup_singleton _
  rcases from_ with related | rfl
  · obtain ⟨foundRelated, passes, -⟩ := searchLayer_spec (graph.closed level)
      (PointsOf.singleton related).related single present
    exact ⟨foundRelated, (repairFilter_iff _ _ _).1 passes⟩
  · obtain ⟨foundRelated, passes, -⟩ := searchLayer_spec (graph.closed_base entry.id)
      (by simp) single present
    have other := (repairFilter_iff _ _ _).1 passes
    exact ⟨foundRelated.resolve_right other.1, other⟩

variable [Inhabited P] (pt : PointType P Tid)

variable (params store) in
/-- The entry point `repair_entry` leaves. -/
def repairedEntry (deleted : List Nat) : Option EntryInfo :=
  store.entry.bind fun entry =>
    if entry.id ∈ deleted then
      (entryStarts params store entry).findSome? (foundEntry params store entry deleted)
    else some entry

theorem repairEntry_eq (deleted : List Nat) :
    repairEntry params (impl params pt) deleted store =
      { store with entry := repairedEntry params store deleted } := by
  rw [repairEntry, repairedEntry]
  cases isEntry : store.entry with
  | none =>
    simp only [Option.bind_none]
    rw [<- isEntry]
  | some entry =>
    simp only [Option.bind_some]
    by_cases gone : entry.id ∈ deleted
    · rw [if_pos (contains_iff_mem.2 gone), if_pos gone, findEntry_eq]
      rfl
    · rw [if_neg (fun present => gone (contains_iff_mem.1 present)), if_neg gone,
        <- isEntry]

omit [Inhabited P] in
theorem repairedEntry_related (graph : Linked params strict store levels) (deleted : List Nat)
    (repaired : repairedEntry params store deleted = some info) :
    Related store levels info.level info.id info.curLayerIdx ∧ info.id ∉ deleted := by
  obtain ⟨entry, isEntry, here⟩ := Option.bind_eq_some_iff.1 repaired
  have related := graph.entered entry isEntry
  by_cases gone : entry.id ∈ deleted
  · rw [if_pos gone] at here
    obtain ⟨_, present, found⟩ := exists_of_findSome?_eq_some here
    obtain ⟨foundRelated, -, live⟩ :=
      foundEntry_spec graph (entryStarts_related graph related present) found
    exact ⟨foundRelated, live⟩
  · rw [if_neg gone] at here
    cases here
    exact ⟨related, gone⟩

/-- `repair_entry` keeps the graph in order. -/
theorem repairEntry_linked (graph : Linked params strict store levels) (deleted : List Nat) :
    Linked params strict (repairEntry params (impl params pt) deleted store) levels := by
  rw [repairEntry_eq]
  exact graph.setEntrypoint fun info repaired => (repairedEntry_related graph deleted repaired).1

end Entry

end VexDB.GraphIndex
