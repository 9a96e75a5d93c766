import VexDB.GraphIndex.Search

/-!
# Selecting neighbours

The forward selection chooses the neighbours of a new point among the
candidates of a search.  The backward selection chooses the slot in which an
existing point takes the new point, or none.
-/

namespace VexDB.GraphIndex

open Vtl PriorityQueue

section

variable {P V D : Type*} [Inhabited V] (params : Params V D)

/-- The heap, the chosen and the discarded candidates of the forward selection. -/
structure ForwardState (V D : Type*) where
  closest : Array (Candidate V D)
  chosen : List (Candidate V D)
  discarded : List (Candidate V D)

/-- The distance of two candidates whose vectors were read. -/
def candidateDistance (left right : Candidate V D) : D :=
  params.distance (left.val.getD default) (right.val.getD default)

/-- Take the closest candidate unless a chosen one occludes it. -/
def forwardStep (nbrNum : Nat) (state : ForwardState V D) : Option (ForwardState V D) :=
  match top state.closest with
  | none => none
  | some cur =>
    if nbrNum <= state.chosen.length then none
    else
      let closest := pop (closestCompare params) state.closest
      if state.chosen.all fun ri => !params.le (candidateDistance params cur ri) cur.dist then
        some ⟨closest, state.chosen ++ [cur], state.discarded⟩
      else some ⟨closest, state.chosen, state.discarded ++ [cur]⟩

/-- The loop of the forward selection. -/
def forwardLoop (nbrNum : Nat) : Nat -> ForwardState V D -> ForwardState V D
  | 0, state => state
  | fuel + 1, state =>
    match forwardStep params nbrNum state with
    | none => state
    | some next => forwardLoop nbrNum fuel next

/-- Forward `select_neighbors`: at most `nbrNum` candidates, discarded ones
filling up what the occlusion rule leaves free. -/
def selectNeighbors (layer : Layer) (candidates : List (Candidate V D)) :
    List (Candidate V D) :=
  if candidates.length <= params.nbrNum layer then candidates
  else
    let final := forwardLoop params (params.nbrNum layer) candidates.length
      ⟨candidates.toArray, [], []⟩
    final.chosen ++ final.discarded.take (params.nbrNum layer - final.chosen.length)

/-- The neighbour slots of a record: the selected candidates, then invalid ids. -/
def neighborSlots (layer : Layer) (selected : List (Candidate V D)) :
    List (Option (Nat × Nat)) :=
  selected.map (fun cand => some (cand.id, cand.curLayerIdx)) ++
    List.replicate (params.nbrNum layer - selected.length) none

/-- The neighbour distances of a record. -/
def neighborDists (layer : Layer) (selected : List (Candidate V D)) : List D :=
  selected.map Candidate.dist ++
    List.replicate (params.nbrNum layer - selected.length) params.invalidDist

/-- A neighbour of the record under change, or the new point when it has no slot. -/
structure PruneNeighbor (V D : Type*) where
  val : V
  idx : Option Nat
  dist : D
  id : Nat

/-- By distance, then by id. -/
def PruneNeighbor.less (left right : PruneNeighbor V D) : Bool :=
  params.lt left.dist right.dist || (params.eq left.dist right.dist && left.id < right.id)

/-- No point of the set occludes the given one. -/
def elemCloser (set : List (PruneNeighbor V D)) (point : PruneNeighbor V D) : Bool :=
  set.all fun ri => !params.le (params.distance point.val ri.val) point.dist

/-- What the loop of the backward selection carries. -/
structure PruneState (V D : Type*) where
  closest : Array (PruneNeighbor V D)
  chosen : List (PruneNeighbor V D)
  discarded : List (PruneNeighbor V D)
  /-- Points chosen now that the recorded occlusion bits do not reflect. -/
  added : List (PruneNeighbor V D)
  stat : List Bool
  hasRemove : Bool
  /-- The occlusion bit of the new point. -/
  closer : Bool

/-- The occlusion bit of a slot. -/
def statBit (stat : List Bool) (idx : Option Nat) : Bool :=
  match idx with
  | some idx => stat.getD idx false
  | none => false

/-- Set the occlusion bit of a slot. -/
def setStatBit (stat : List Bool) (idx : Option Nat) (bit : Bool) : List Bool :=
  match idx with
  | some idx => stat.set idx bit
  | none => stat

/-- Whether the next point is chosen, and the bookkeeping of that decision. -/
def judge (hasStat : Bool) (selfId : Nat) (state : PruneState V D) (cur : PruneNeighbor V D) :
    Bool × PruneState V D :=
  if params.useDistCache then (elemCloser params state.chosen cur, state)
  else if !hasStat then
    let closer := elemCloser params state.chosen cur
    if cur.id ≠ selfId then (closer, { state with stat := setStatBit state.stat cur.idx closer })
    else (closer, { state with closer := closer })
  else if !state.added.isEmpty then
    if statBit state.stat cur.idx then
      if elemCloser params state.added cur then (true, state)
      else (false, { state with
        hasRemove := true
        stat := setStatBit state.stat cur.idx true })
    else if state.hasRemove then
      if elemCloser params state.chosen cur then
        (true, { state with
          added := state.added ++ [cur]
          stat := setStatBit state.stat cur.idx true })
      else (false, state)
    else (false, state)
  else if cur.id = selfId then
    let closer := elemCloser params state.chosen cur
    (closer, { state with
      added := if closer then state.added ++ [cur] else state.added
      closer := closer })
  else (statBit state.stat cur.idx, state)

/-- The loop of the backward selection.  It stops, without removing the current
point from the heap, once enough points are chosen. -/
def pruneLoop (nbrNum : Nat) (hasStat : Bool) (selfId : Nat) :
    Nat -> PruneState V D -> PruneState V D
  | 0, state => state
  | fuel + 1, state =>
    match top state.closest with
    | none => state
    | some cur =>
      let (closer, judged) := judge params hasStat selfId state cur
      let closest := pop (PruneNeighbor.less params) state.closest
      if closer then
        if nbrNum <= judged.chosen.length + 1 then
          { judged with chosen := judged.chosen ++ [cur] }
        else pruneLoop nbrNum hasStat selfId fuel
          { judged with chosen := judged.chosen ++ [cur], closest := closest }
      else pruneLoop nbrNum hasStat selfId fuel
        { judged with discarded := judged.discarded ++ [cur], closest := closest }

/-- Pop until one point is left. -/
def lastPopped : Nat -> Array (PruneNeighbor V D) -> Option (PruneNeighbor V D)
  | 0, closest => top closest
  | fuel + 1, closest =>
    if 1 < closest.size then
      lastPopped fuel (pop (PruneNeighbor.less params) closest)
    else top closest

/-- The slot least worth keeping after the loop; `none` when it is the new
point itself. -/
def prunedSlot (nbrNum : Nat) (state : PruneState V D) : Option Nat :=
  match state.discarded[nbrNum - state.chosen.length]? with
  | some discarded => discarded.idx
  | none =>
    match lastPopped params state.closest.size state.closest with
    | some last => last.idx
    | none => none

/-- The heap of the backward selection: the neighbours with their slots, and the
new point. -/
def pruneQueue (store : GraphStore P V D) (neighbors : List (Candidate V D))
    (newPointId : Nat) (self : Candidate V D) : Array (PruneNeighbor V D) :=
  let queued := (neighbors.zipIdx).foldl
    (fun closest (neighbor, idx) =>
      let val := store.readData neighbor.id
      let dist := if params.useDistCache then params.distance (store.readData self.id) val
        else neighbor.dist
      push (PruneNeighbor.less params) closest ⟨val, some idx, dist, neighbor.id⟩)
    #[]
  push (PruneNeighbor.less params) queued
    ⟨store.readData newPointId, none, self.dist,
      if params.useDistCache then newPointId else self.id⟩

/-- Backward `select_neighbors`: the slot of the record that takes the new point,
and the occlusion bits when they were recomputed. -/
def selectPruned (checkExist : Bool) (store : GraphStore P V D) (layer : Layer)
    (neighbors : List (Candidate V D)) (newPointId : Nat) (point : Point D)
    (self : Candidate V D) : Option Nat × Option (List Bool) :=
  if checkExist && neighbors.any (·.id == newPointId) then (none, none)
  else if neighbors.length < params.nbrNum layer then (some neighbors.length, none)
  else
    let queue := pruneQueue params store neighbors newPointId self
    let final := pruneLoop params (params.nbrNum layer) point.hasStat self.id queue.size
      ⟨queue, [], [], [], point.stat, false, false⟩
    let pruned := prunedSlot params (params.nbrNum layer) final
    (pruned, some (setStatBit final.stat pruned final.closer))

end

end VexDB.GraphIndex
