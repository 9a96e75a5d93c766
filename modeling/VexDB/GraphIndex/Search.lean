import VexDB.GraphIndex.Store
import VexDB.Vtl.PriorityQueue

/-!
# Searching a layer

The greedy search of an upper layer and the best-first search of a layer with a
bounded result, as `GraphIndexAlgorithm` runs them: two heaps, a set of visited
ids, and loops that read neighbour lists up to the first invalid id.
-/

namespace VexDB.GraphIndex

open Vtl PriorityQueue

/-- A candidate of a search. -/
structure Candidate (V D : Type*) where
  id : Nat
  curLayerIdx : Nat
  lowerLayerIdx : Option Nat
  dist : D
  val : Option V
  deriving DecidableEq, Repr

/-- The neighbours of a record, up to the first invalid id. -/
def validNeighbors : List (Option (Nat × Nat)) -> List (Nat × Nat)
  | some neighbor :: rest => neighbor :: validNeighbors rest
  | _ => []

/-- The neighbours not visited before, and the visited set with them in it. -/
def visitNew (visited : List Nat) : List (Nat × Nat) -> List (Nat × Nat) × List Nat
  | [] => ([], visited)
  | neighbor :: rest =>
    if neighbor.1 ∈ visited then visitNew visited rest
    else
      let (fresh, seen) := visitNew (neighbor.1 :: visited) rest
      (neighbor :: fresh, seen)

section

variable {P V D : Type*} (params : Params V D)

/-- Closest candidate first. -/
def closestCompare (left right : Candidate V D) : Bool := params.lt left.dist right.dist

/-- Furthest candidate first. -/
def furthestCompare (left right : Candidate V D) : Bool := params.lt right.dist left.dist

variable [Inhabited V]

/-- The distance of a stored point to a query. -/
def getDistance (store : GraphStore P V D) (query : V) (id : Nat) : D :=
  params.distance query (store.readData id)

/-- The heaps and the visited set of `search_layer`. -/
structure SearchState (V D : Type*) where
  closest : Array (Candidate V D)
  furthest : Array (Candidate V D)
  visited : List Nat

variable (store : GraphStore P V D) (layer : Layer) (query : V) (ef : Nat) (filter : Nat -> Bool)

/-- Queue the fresh neighbours that are closer than the threshold. -/
def pushCloser (threshold : D) (closest : Array (Candidate V D)) (fresh : List (Nat × Nat)) :
    Array (Candidate V D) :=
  fresh.foldl
    (fun closest neighbor =>
      let dist := getDistance params store query neighbor.1
      if params.le threshold dist then closest
      else push (closestCompare params) closest
        ⟨neighbor.1, neighbor.2, none, dist, none⟩)
    closest

/-- Keep a visited point as a result, at most `ef` of them. -/
def keepResult (furthest : Array (Candidate V D)) (cand : Candidate V D) :
    Array (Candidate V D) :=
  let kept := push (furthestCompare params) furthest cand
  if ef < kept.size then pop (furthestCompare params) kept else kept

/-- The furthest result is closer than the next point, and there are enough. -/
def searchDone (furthest : Array (Candidate V D)) (cur : Candidate V D) : Bool :=
  furthest.size == ef &&
    match top furthest with
    | some worst => params.lt worst.dist cur.dist
    | none => false

/-- Neighbours at this distance or beyond are not followed. -/
def searchThreshold (furthest : Array (Candidate V D)) : D :=
  if furthest.size < ef then params.fltMax
  else match top furthest with
    | some worst => worst.dist
    | none => params.fltMax

/-- One round of `search_layer`; `none` when the loop ends. -/
def searchStep (state : SearchState V D) : Option (SearchState V D) :=
  match top state.closest with
  | none => none
  | some cur =>
    if searchDone params ef state.furthest cur then none
    else
      let point := store.pointInfo params layer cur.curLayerIdx
      let (fresh, visited) := visitNew state.visited (validNeighbors point.neighbors)
      let closest := pushCloser params store query (searchThreshold params ef state.furthest)
        (pop (closestCompare params) state.closest) fresh
      let furthest :=
        if filter cur.id then
          keepResult params ef state.furthest
            ⟨cur.id, cur.curLayerIdx, point.lowerLayerIdx, cur.dist, none⟩
        else state.furthest
      some ⟨closest, furthest, visited⟩

/-- The loop of `search_layer`. -/
def searchLoop : Nat -> SearchState V D -> SearchState V D
  | 0, state => state
  | fuel + 1, state =>
    match searchStep params store layer query ef filter state with
    | none => state
    | some next => searchLoop fuel next

/-- The number of neighbour slots of a layer: no search visits more new ids. -/
def slotCount : Nat := ((store.layer layer).map fun point => point.neighbors.length).sum

/-- `search_layer`: the results in order of distance. -/
def searchLayer (entrypoint : List (Candidate V D)) : List (Candidate V D) :=
  let final := searchLoop params store layer query ef filter
    (entrypoint.length + slotCount store layer)
    ⟨entrypoint.toArray, #[], (entrypoint.map Candidate.id).reverse⟩
  (sort (furthestCompare params) final.furthest).toList

/-- The current point, the visited set and the closest distance of
`search_upper_layer`. -/
structure UpperState (V D : Type*) where
  cur : Candidate V D
  visited : List Nat
  closestDist : D

/-- Move to a neighbour that is closer than every one seen so far. -/
def moveCloser (state : UpperState V D × Bool) (neighbor : Nat × Nat) : UpperState V D × Bool :=
  let dist := getDistance params store query neighbor.1
  if params.lt dist state.1.closestDist then
    ({ state.1 with
      cur := { state.1.cur with id := neighbor.1, curLayerIdx := neighbor.2 }
      closestDist := dist }, false)
  else state

/-- One round of `search_upper_layer`; the flag says that it converged. -/
def upperStep (state : UpperState V D) : UpperState V D × Bool :=
  let point := store.pointInfo params .upper state.cur.curLayerIdx
  let (fresh, visited) := visitNew state.visited (validNeighbors point.neighbors)
  fresh.foldl (moveCloser params store query)
    ({ state with
      cur := { state.cur with lowerLayerIdx := point.lowerLayerIdx }
      visited := visited }, true)

/-- The loop of `search_upper_layer`. -/
def upperLoop : Nat -> UpperState V D -> UpperState V D
  | 0, state => state
  | fuel + 1, state =>
    let (next, converged) := upperStep params store query state
    if converged then next else upperLoop fuel next

/-- `search_upper_layer`: greedy descent within one layer. -/
def searchUpperLayer (cur : Candidate V D) : Candidate V D :=
  let final := upperLoop params store query (slotCount store .upper + 1)
    ⟨cur, [], params.fltMax⟩
  { final.cur with
    dist := if params.eq final.closestDist params.fltMax then cur.dist else final.closestDist }

end

end VexDB.GraphIndex
