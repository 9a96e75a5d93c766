import VexDB.GraphIndex.Select

/-!
# Inserting and repairing points

`GraphIndexAlgorithm` over any store: a point is inserted by searching down to
its level, linking it on every layer it belongs to and linking the chosen
neighbours back; the repairs of a vacuum replace the entry point and the lists
that name removed points.
-/

namespace VexDB.GraphIndex

/-- The index an invalid vector id stands for when it is followed. -/
def invalidVectorId : Nat := 0xFFFFFFFF

section Reads

variable {P V D : Type*} [Inhabited V] (params : Params V D)

/-- `replace_lower_layer_idx` -/
def replaceLowerLayerIdx (cand : Candidate V D) : Candidate V D :=
  { cand with
    curLayerIdx := cand.lowerLayerIdx.getD invalidVectorId
    lowerLayerIdx := none }

variable (store : GraphStore P V D)

/-- `get_neighbors_data` -/
def getNeighborsData (candidates : List (Candidate V D)) : List (Candidate V D) :=
  candidates.map fun cand => { cand with val := some (store.readData cand.id) }

/-- The record `get_neighbors` reads: base records go by id. -/
def recordIdx (layer : Layer) (cand : Candidate V D) : Nat :=
  match layer with
  | .base => cand.id
  | .upper => cand.curLayerIdx

/-- `get_neighbors`: the neighbours of a candidate's record. -/
def getNeighbors (layer : Layer) (cand : Candidate V D) : List (Candidate V D) :=
  let point := store.pointInfo params layer (recordIdx layer cand)
  (validNeighbors point.neighbors).zipIdx.map fun (neighbor, slot) =>
    ⟨neighbor.1, neighbor.2, none,
      if params.useDistCache then params.invalidDist
      else point.dists.getD slot params.invalidDist, none⟩

/-- Greedy descent through the layers above the insert level. -/
def descend (query : V) : Nat -> Candidate V D -> Candidate V D
  | 0, cand => cand
  | levels + 1, cand =>
    descend query levels (replaceLowerLayerIdx (searchUpperLayer params store query cand))

/-- Search the layers from the insert level down to the base layer.  The first
component holds the candidates of the upper layers, lowest layer first. -/
def searchLevels (query : V) :
    Nat -> List (Candidate V D) -> List (List (Candidate V D)) × List (Candidate V D)
  | 0, ep => ([], searchLayer params store .base query params.efConstruction (fun _ => true) ep)
  | level + 1, ep =>
    let found := searchLayer params store .upper query params.efConstruction (fun _ => true) ep
    let (lower, base) := searchLevels query level (found.map replaceLowerLayerIdx)
    (lower ++ [found], base)

/-- `need_update`: a neighbour was removed. -/
def needUpdate (deleted : List Nat) (point : Point D) : Bool :=
  (validNeighbors point.neighbors).any fun neighbor => deleted.contains neighbor.1

/-- The points a repair may link to. -/
def repairFilter (deleted : List Nat) (id other : Nat) : Bool :=
  id != other && !deleted.contains other

/-- The layers of `repair_entry`, from the given level down.  Below the top layer
the search starts from the lower record of the entry's own top record. -/
def findEntry (entry : EntryInfo) (deleted : List Nat) :
    Nat -> List (Candidate V D) -> Option EntryInfo
  | 0, ep =>
    match searchLayer params store .base (store.readData entry.id) 1
        (repairFilter deleted entry.id) ep with
    | found :: _ => some ⟨found.id, found.curLayerIdx, 0⟩
    | [] => none
  | level + 1, ep =>
    match searchLayer params store .upper (store.readData entry.id) 1
        (repairFilter deleted entry.id) ep with
    | found :: _ => some ⟨found.id, found.curLayerIdx, level + 1⟩
    | [] =>
      let lower := (store.pointInfo params .upper entry.curLayerIdx).lowerLayerIdx
      findEntry entry deleted level
        [⟨entry.id, lower.getD invalidVectorId, none, params.zero, none⟩]

/-- The neighbours a repair gives to a record. -/
def repairNeighbors (layer : Layer) (deleted : List Nat) (id idx : Nat) :
    List (Candidate V D) :=
  selectNeighbors params layer (getNeighborsData store
    (searchLayer params store layer (store.readData id) params.efConstruction
      (repairFilter deleted id) [⟨id, idx, none, params.zero, none⟩]))

end Reads

section Writes

variable {S P V D Tid : Type*} [Inhabited P] [Inhabited V]
  (params : Params V D) (pt : PointType P Tid) (impl : StoreImpl S P V D Tid)

/-- Link one chosen neighbour back to the new point. -/
def updateReverseEdge (layer : Layer) (newPoint : Nat × Nat) (state : S)
    (nbr : Candidate V D) : S :=
  let store := impl.view state
  let point := store.pointInfo params layer nbr.curLayerIdx
  let (pruned, stat) := selectPruned params false store layer
    (getNeighbors params store layer nbr) newPoint.1 point nbr
  let state :=
    match stat with
    | some stat =>
      if params.useDistCache then state
      else impl.write state (.setStat layer nbr.curLayerIdx stat)
    | none => state
  match pruned with
  | some slot =>
    impl.write state (.setNeighbor layer nbr.curLayerIdx slot newPoint
      (if params.useDistCache then none else some nbr.dist))
  | none => state

/-- `update_reverse_edges` -/
def updateReverseEdges (layer : Layer) (newPoint : Nat × Nat) (state : S)
    (neighbors : List (Candidate V D)) : S :=
  neighbors.foldl (updateReverseEdge params impl layer newPoint) state

/-- Write a record with its neighbours. -/
def addPoint (layer : Layer) (idx : Nat) (lower id : Option Nat)
    (neighbors : List (Candidate V D)) (state : S) : S :=
  impl.write state (.addPoint layer idx lower id (neighborSlots params layer neighbors)
    (if params.useDistCache then none else some (neighborDists params layer neighbors)))

/-- Add the row to a point with the same vector, if one of the closest takes it. -/
def applyArrangement (query : V) (tid : Tid) :
    S -> List (Candidate V D) -> S × Option Nat
  | state, [] => (state, none)
  | state, cand :: rest =>
    if params.sameBytes (cand.val.getD default) query then
      let point := (impl.view state).elems.getD cand.id default
      if pt.empty point then applyArrangement query tid state rest
      else
        let state := impl.write state (.insertTid cand.id tid)
        if (pt.insertTid point tid).1 then (state, some cand.id)
        else applyArrangement query tid state rest
    else (state, none)

/-- The upper records of a new point, lowest layer first. -/
def insertUppers (id : Nat) : S -> Nat -> List (List (Candidate V D)) -> S × Nat
  | state, lower, [] => (state, lower)
  | state, lower, found :: rest =>
    let idx := (impl.view state).nextId .upper
    let state := impl.write state (.assign .upper)
    let neighbors := selectNeighbors params .upper (getNeighborsData (impl.view state) found)
    let state := addPoint params impl .upper idx (some lower) (some id) neighbors state
    let state := updateReverseEdges params impl .upper (id, idx) state neighbors
    insertUppers id state idx rest

/-- `insert_new_point` -/
def insertNewPoint (query : V) (tid : Tid) (state : S) (ep : List (Candidate V D))
    (nbrRecord : List (List (Candidate V D))) : S × Nat × Nat :=
  let id := (impl.view state).nextId .base
  let state := impl.write state (.assign .base)
  let state := impl.write state (.addElem id tid)
  let neighbors := selectNeighbors params .base ep
  let state := addPoint params impl .base id none none neighbors state
  let state := impl.write state (.addVector id query)
  let state := updateReverseEdges params impl .base (id, id) state neighbors
  let (state, idx) := insertUppers params impl id state id nbrRecord
  (state, id, idx)

/-- Records without neighbours for the levels above the old entry point. -/
def addFirstUpperpoints (id : Nat) : Nat -> S -> Nat -> S × Nat
  | 0, state, lower => (state, lower)
  | levels + 1, state, lower =>
    let idx := (impl.view state).nextId .upper
    let state := impl.write state (.assign .upper)
    let state := impl.write state (.addPoint .upper idx (some lower) (some id)
      (List.replicate (params.nbrNum .upper) none) none)
    addFirstUpperpoints id levels state idx

/-- `update_entry` -/
def updateEntry (state : S) (id idx entryLevel insertLevel : Nat) : S :=
  if entryLevel < insertLevel then
    let (state, idx) := addFirstUpperpoints params impl id (insertLevel - entryLevel) state idx
    impl.write state (.setEntrypoint (some ⟨id, idx, insertLevel⟩))
  else state

/-- The first point of a graph.  Its record is written at index zero. -/
def insertFirst (query : V) (tid : Tid) (state : S) : S × Nat :=
  let id := (impl.view state).nextId .base
  let state := impl.write state (.assign .base)
  let state := impl.write state (.addElem id tid)
  let state := impl.write state (.addPoint .base 0 none none
    (List.replicate (params.nbrNum .base) none) none)
  let state := impl.write state (.addVector id query)
  (impl.write state (.setEntrypoint (some ⟨id, id, 0⟩)), id)

/-- The searches of an insert below the entry point. -/
def insertSearch (store : GraphStore P V D) (entry : EntryInfo) (query : V)
    (insertLevel : Nat) : List (List (Candidate V D)) × List (Candidate V D) :=
  let start : Candidate V D :=
    ⟨entry.id, entry.curLayerIdx, none, getDistance params store query entry.id, none⟩
  searchLevels params store query (min insertLevel entry.level)
    [descend params store query (entry.level - insertLevel) start]

/-- `insert`: the store afterwards and the point that took the row. -/
def insert (query : V) (tid : Tid) (insertLevel : Nat) (state : S) : S × Nat :=
  match (impl.view state).entry with
  | none => insertFirst params impl query tid state
  | some entry =>
    let (nbrRecord, found) := insertSearch params (impl.view state) entry query insertLevel
    let ep := getNeighborsData (impl.view state) found
    match applyArrangement params pt impl query tid state ep with
    | (state, some id) => (state, id)
    | (state, none) =>
      let (state, id, idx) := insertNewPoint params impl query tid state ep nbrRecord
      (updateEntry params impl state id idx entry.level insertLevel, id)

/-- `repair_entry` -/
def repairEntry (deleted : List Nat) (state : S) : S :=
  match (impl.view state).entry with
  | none => state
  | some entry =>
    if deleted.contains entry.id then
      impl.write state (.setEntrypoint (findEntry params (impl.view state) entry deleted
        entry.level [⟨entry.id, entry.curLayerIdx, none, params.zero, none⟩]))
    else state

/-- Replace the neighbours of a record and link them back. -/
def repairPoint (layer : Layer) (deleted : List Nat) (id idx : Nat) (state : S) : S :=
  let neighbors := repairNeighbors params (impl.view state) layer deleted id idx
  let state := impl.write state (.setNeighbors layer idx (neighborSlots params layer neighbors))
  updateReverseEdges params impl layer (id, idx) state neighbors

/-- `repair_basepoint` -/
def repairBasepoint (deleted : List Nat) (id : Nat) (state : S) : S :=
  if needUpdate deleted ((impl.view state).pointInfo params .base id) then
    repairPoint params impl .base deleted id id state
  else state

/-- `repair_upperpoint` -/
def repairUpperpoint (deleted : List Nat) (idx : Nat) (state : S) : S :=
  match ((impl.view state).pointInfo params .upper idx).id with
  | none => state
  | some id =>
    if deleted.contains id then state
    else if needUpdate deleted ((impl.view state).pointInfo params .upper idx) then
      repairPoint params impl .upper deleted id idx state
    else state

end Writes

end VexDB.GraphIndex
