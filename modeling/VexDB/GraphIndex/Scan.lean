import VexDB.GraphIndex.SearchSpec
import VexDB.GraphIndex.Vacuum
import VexDB.Storage.Restart

/-!
# The ordered scan

`graph_index_gettuple_internal` returns the rows that a search around the query
finds, closest first.  At their end it searches again with twice the width and
returns the rows no earlier search found, until a search finds fewer rows than
its width.  A search runs in the graph, in the graph with points added that a
signature of every vector nominates, or over all points.
-/

namespace VexDB.GraphIndex

open Storage

/-- What a scan needs besides the parameters of the graph. -/
structure ScanParams (V D : Type*) extends Params V D where
  /-- The distance of the vector that the row of a point holds.  A store of quantized
  vectors compares its candidates again by it. -/
  precise : Option (V -> Nat -> D)
  /-- The width of a search whose candidates are compared again. -/
  widen : Nat -> Nat

/-- `PgGraphSignature`: the points it adds to a search that scored the given ones,
one entry for each call; nothing if a look at every signature does not pay. -/
structure Signature (V : Type*) where
  nominate : V -> List Nat -> Option (List Nat)
  distinct : ∀ {query scored nominees}, nominate query scored = some nominees -> nominees.Nodup
  unseen : ∀ {query scored nominees}, nominate query scored = some nominees ->
    ∀ id ∈ nominees, id ∉ scored

/-- The way a scan searches: in the graph, with a signature that is ready, or
through all points when it is not. -/
inductive Route (V : Type*)
  | graph
  | rescue (signature : Signature V)
  | exactFallback

/-- The element operations of a scan.  No operation invents a row. -/
structure RowType (P Tid : Type*) extends VacuumType P Tid where
  getTids : P -> List Tid
  getTids_init : ∀ tid, (getTids (init tid)).Subperm [tid]
  getTids_insertTid : ∀ point tid, (getTids (insertTid point tid).2).Subperm
    ((if (insertTid point tid).1 then [tid] else []) ++ getTids point)
  getTids_vacuumTids : ∀ dead point, (getTids (vacuumTids dead point)).Subperm (getTids point)
  getTids_setDeleted : ∀ point, (getTids (setDeleted point)).Subperm (getTids point)

section

variable {P V D Tid : Type*}

/-- The rows of an element. -/
def tidsAt (rt : RowType P Tid) (store : GraphStore P V D) (id : Nat) : List Tid :=
  (store.elems[id]?.map rt.getTids).getD []

/-- All rows of an index. -/
def storedTids (rt : RowType P Tid) (store : GraphStore P V D) : List Tid :=
  store.elems.flatMap rt.getTids

variable [Inhabited V] (params : ScanParams V D) (rt : RowType P Tid) (store : GraphStore P V D)
  (query : V)

/-- The order of `std::sort` by distance. -/
def notFurther (left right : Candidate V D) : Bool := !params.lt right.dist left.dist

/-- A point and its distance. -/
def scored (id : Nat) : Candidate V D :=
  ⟨id, id, none, getDistance params.toParams store query id, none⟩

/-- Where the base layer of a search begins. -/
def descended (entry : EntryInfo) : Candidate V D :=
  descend params.toParams store query entry.level
    ⟨entry.id, entry.curLayerIdx, none, getDistance params.toParams store query entry.id, none⟩

/-- The width of the search in the base layer. -/
def baseWidth (efSearch : Nat) : Nat :=
  if params.precise.isSome then params.widen efSearch else efSearch

/-- `search_internal`: a width that covers the graph takes every point. -/
def searchInternal (entry : EntryInfo) (efSearch : Nat) : List (Candidate V D) :=
  let nodeCount := store.base.length
  if nodeCount ≠ 0 ∧ nodeCount <= efSearch then
    ((List.range nodeCount).map (scored params store query)).mergeSort (notFurther params)
  else
    searchLayer params.toParams store .base query (baseWidth params efSearch) (fun _ => true)
      [descended params store query entry]

/-- The points scored on the way down. -/
def descendScored : Nat -> Candidate V D -> List Nat
  | 0, _ => []
  | levels + 1, cand =>
    descendScored levels
        (replaceLowerLayerIdx (searchUpperLayer params.toParams store query cand)) ++
      (upperLoop params.toParams store query (slotCount store .upper + 1)
        ⟨cand, [], params.fltMax⟩).visited

/-- The points `search_internal` scores. -/
def searchScored (entry : EntryInfo) (efSearch : Nat) : List Nat :=
  let nodeCount := store.base.length
  if nodeCount ≠ 0 ∧ nodeCount <= efSearch then List.range nodeCount
  else
    -- The point at which the base layer begins was scored above it.
    (searchFinal params.toParams store .base query (baseWidth params efSearch) (fun _ => true)
        [descended params store query entry]).visited.dropLast ++
      descendScored params store query entry.level ⟨entry.id, entry.curLayerIdx, none,
        getDistance params.toParams store query entry.id, none⟩ ++ [entry.id]

/-- `complete`: the nominees join the points found. -/
def complete (signature : Signature V) (scoredIds : List Nat) (points : List (Candidate V D)) :
    List (Candidate V D) :=
  match signature.nominate query scoredIds with
  | none => points
  | some nominees =>
    (points ++ nominees.map (scored params store query)).mergeSort (notFurther params)

/-- `refine` -/
def refine (candidates : List (Candidate V D)) : List (Candidate V D) :=
  match params.precise with
  | none => candidates
  | some precise =>
    (candidates.map fun point => { point with dist := precise query point.id }).mergeSort
      (notFurther params)

/-- The rows of candidates, with their distances. -/
def rowsOf (candidates : List (Candidate V D)) : List (Tid × D) :=
  candidates.flatMap fun cand => (tidsAt rt store cand.id).map fun tid => (tid, cand.dist)

/-- A width as the search receives it. -/
def uint32 (width : Nat) : Nat := width % 2 ^ 32

/-- One search of a scan. -/
def searchRound (route : Route V) (ef : Nat) : Restart.Round Tid D :=
  match route with
  | .exactFallback =>
    { rows := ((List.range store.base.length).flatMap fun id =>
        (tidsAt rt store id).map fun tid =>
          (tid, getDistance params.toParams store query id)).mergeSort
            fun left right => !params.lt right.2 left.2
      more := false }
  | .graph =>
    match store.entry with
    | none => ⟨[], decide (ef <= 0)⟩
    | some entry =>
      let rows := rowsOf rt store (refine params query
        (searchInternal params store query entry (uint32 ef)))
      ⟨rows, decide (ef <= min rows.length store.base.length)⟩
  | .rescue signature =>
    match store.entry with
    | none => ⟨[], decide (ef <= 0)⟩
    | some entry =>
      let points := searchInternal params store query entry (uint32 ef)
      let completed := complete params store query signature
        (searchScored params store query entry (uint32 ef)) points
      ⟨rowsOf rt store (refine params query completed), decide (ef <= points.length)⟩

/-- The width after a search. -/
def nextWidth (graphEf : Nat) : Nat := min (2 ^ 32 - 1) (max (graphEf * 2) 25)

variable [DecidableEq Tid]

/-- The rows that calls of `graph_index_gettuple_internal` return until it returns
false. -/
def Returns (route : Route V) (ef : Nat) (rows : List (Tid × D)) : Prop :=
  Restart.Drains (searchRound params rt store query route) nextWidth
    (Restart.Cursor.after (searchRound params rt store query route) ef []) rows

end

end VexDB.GraphIndex
