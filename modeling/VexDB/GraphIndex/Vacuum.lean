import VexDB.GraphIndex.Algorithm

/-!
# Vacuum

The three stages of `GraphIndexVacuum`: dead rows leave the elements, the graph
is repaired around the elements without rows, and these are marked deleted,
cleared and handed to the free lists.
-/

namespace VexDB.GraphIndex

/-- The element operations of a vacuum.  Only `setDeleted` touches the deleted
flag, and no operation sets the asynchronous one. -/
structure VacuumType (P Tid : Type*) extends PointType P Tid where
  isDeleted : P -> Bool
  isAsync : P -> Bool
  setDeleted : P -> P
  /-- Remove the rows a filter selects. -/
  vacuumTids : (Tid -> Bool) -> P -> P
  empty_init : ∀ tid, empty (init tid) = false
  isDeleted_init : ∀ tid, isDeleted (init tid) = false
  isAsync_init : ∀ tid, isAsync (init tid) = false
  isDeleted_insertTid : ∀ point tid, isDeleted (insertTid point tid).2 = isDeleted point
  isAsync_insertTid : ∀ point tid, isAsync (insertTid point tid).2 = isAsync point
  isDeleted_setDeleted : ∀ point, isDeleted (setDeleted point) = true
  isAsync_setDeleted : ∀ point, isAsync (setDeleted point) = isAsync point
  isDeleted_vacuumTids : ∀ dead point, isDeleted (vacuumTids dead point) = isDeleted point
  isAsync_vacuumTids : ∀ dead point, isAsync (vacuumTids dead point) = isAsync point

variable {P V D Tid : Type*} [Inhabited P] [Inhabited V] (params : Params V D)
  (vt : VacuumType P Tid)

/-- The positions of the elements a test selects, in order. -/
def positions {α : Type*} (test : α -> Bool) (list : List α) : List Nat :=
  (list.zipIdx.filter fun entry => test entry.1).map Prod.snd

/-- `remove_heaptids`: the elements without dead rows, and the ids of those that
lost their last row. -/
def removeHeaptids (dead : Tid -> Bool) (store : GraphStore P V D) : GraphStore P V D × List Nat :=
  let elems := store.elems.map (vt.vacuumTids dead)
  ({ store with elems := elems },
    positions (fun elem => vt.empty elem && !vt.isDeleted elem && !vt.isAsync elem) elems)

/-- `repair_base_range` -/
def repairBaseRange (deleted : List Nat) (start num : Nat) (store : GraphStore P V D) :
    GraphStore P V D :=
  (List.range' start num).foldl
    (fun store id =>
      if deleted.contains id then store
      else repairBasepoint params (GraphStore.impl params vt.toPointType) deleted id store)
    store

/-- `repair_upper_range` -/
def repairUpperRange (deleted : List Nat) (start num : Nat) (store : GraphStore P V D) :
    GraphStore P V D :=
  (List.range' start num).foldl
    (fun store idx =>
      repairUpperpoint params (GraphStore.impl params vt.toPointType) deleted idx store)
    store

/-- `repair_graph`: the store, and the counts of points it was repaired with. -/
def repairGraph (deleted : List Nat) (store : GraphStore P V D) : GraphStore P V D × Nat × Nat :=
  let store := repairEntry params (GraphStore.impl params vt.toPointType) deleted store
  let store := { store with underVacuum := true }
  let basepointNum := store.base.length
  let upperpointNum := store.upper.length
  let store := repairBaseRange params vt deleted 0 basepointNum store
  let store := repairUpperRange params vt deleted 0 upperpointNum store
  -- Points added meanwhile are repaired under the exclusive lock.
  let finalBase := store.base.length
  let finalUpper := store.upper.length
  let store :=
    if basepointNum < finalBase then
      repairBaseRange params vt deleted basepointNum (finalBase - basepointNum) store
    else store
  let store :=
    if upperpointNum < finalUpper then
      repairUpperRange params vt deleted upperpointNum (finalUpper - upperpointNum) store
    else store
  ({ store with underVacuum := false }, basepointNum, upperpointNum)

/-- `init` of a base record. -/
def initBase (point : Point D) : Point D :=
  { point with neighbors := List.replicate (params.nbrNum .base) none }

/-- `init` of an upper record. -/
def initUpper (point : Point D) : Point D :=
  { point with
    lowerLayerIdx := none
    id := none
    neighbors := List.replicate (params.nbrNum .upper) none }

/-- The owner of an upper record is one of the given ids. -/
def ownedBy (ids : List Nat) (point : Point D) : Bool :=
  match point.id with
  | some id => ids.contains id
  | none => false

/-- `mark_deleted` -/
def markDeleted (basepointNum upperpointNum : Nat) (store : GraphStore P V D) :
    GraphStore P V D :=
  let recyclable (elem : P) : Bool := vt.empty elem && !vt.isDeleted elem
  let recycledIds := positions recyclable (store.elems.take basepointNum)
  let elems := (store.elems.take basepointNum).map (fun elem =>
    if recyclable elem then vt.setDeleted elem else elem) ++ store.elems.drop basepointNum
  let store := { store with elems := elems }
  if recycledIds = [] then store
  else
    let clearIds := recycledIds.filter fun id => !vt.isAsync (elems.getD id default)
    let base := clearIds.foldl (fun base id => base.modify id (initBase params)) store.base
    let recycledUpperIdx := positions (ownedBy clearIds) (store.upper.take upperpointNum)
    let upper := (store.upper.take upperpointNum).map (fun point =>
      if ownedBy clearIds point then initUpper params point else point) ++
        store.upper.drop upperpointNum
    { store with
      base := base
      upper := upper
      freeIds := recycledIds.reverse ++ store.freeIds
      freeUppers := recycledUpperIdx.reverse ++ store.freeUppers }

/-- `vacuum` -/
def vacuum (dead : Tid -> Bool) (store : GraphStore P V D) : GraphStore P V D :=
  let (store, deleted) := removeHeaptids vt dead store
  let (store, basepointNum, upperpointNum) := repairGraph params vt deleted store
  markDeleted params vt basepointNum upperpointNum store

end VexDB.GraphIndex
