import VexDB.GraphIndex.LinkedRepair

/-!
# The structure of neighbour lists over whole runs

Inserts and repairs in any order.  An insert keeps every neighbour list packed,
without duplicates and without its own node, except when the entry point was
lost and a fresh record is never written.  A repair keeps it unless one of the
chosen neighbours already lists the repaired point, which is then added again.
-/

namespace VexDB.GraphIndex

open GraphStore
open GraphStore (impl layer)

variable {P V D Tid : Type*} [Inhabited P] [Inhabited V] {store : GraphStore P V D}

/-- A call of `GraphIndexAlgorithm` that writes. -/
inductive Call (V Tid : Type*) where
  | insert (query : V) (tid : Tid) (insertLevel : Nat)
  | repairEntry (deleted : List Nat)
  | repairBasepoint (deleted : List Nat) (id : Nat)
  | repairUpperpoint (deleted : List Nat) (idx : Nat)

section Runs

variable (params : Params V D) (pt : PointType P Tid)

/-- The store after a call. -/
def Call.run (store : GraphStore P V D) : Call V Tid -> GraphStore P V D
  | .insert query tid insertLevel =>
    (GraphIndex.insert params pt (impl params pt) query tid insertLevel store).1
  | .repairEntry deleted =>
    GraphIndex.repairEntry params (impl params pt) deleted store
  | .repairBasepoint deleted id =>
    GraphIndex.repairBasepoint params (impl params pt) deleted id store
  | .repairUpperpoint deleted idx =>
    GraphIndex.repairUpperpoint params (impl params pt) deleted idx store

/-- The store after a sequence of calls. -/
def runCalls (calls : List (Call V Tid)) : GraphStore P V D :=
  calls.foldl (Call.run params pt) empty

/-- The calls that keep neighbour lists in order. -/
def Call.Clean (store : GraphStore P V D) : Call V Tid -> Prop
  | .insert _ _ _ => store.entry = none -> store.base = [] ∨ params.zeroFilled = false
  | .repairEntry _ => True
  | .repairBasepoint deleted id =>
    needUpdate deleted (store.pointInfo params .base id) = true ->
      Unreciprocated params store .base deleted id id
  | .repairUpperpoint deleted idx =>
    ∀ id, (store.pointInfo params .upper idx).id = some id -> id ∉ deleted ->
      needUpdate deleted (store.pointInfo params .upper idx) = true ->
        Unreciprocated params store .upper deleted id idx

/-- Every call of a run is clean where it is made. -/
def CleanRun (store : GraphStore P V D) : List (Call V Tid) -> Prop
  | [] => True
  | call :: rest => call.Clean params store ∧ CleanRun (call.run params pt store) rest

end Runs

/-- Every neighbour list is a prefix of valid ids followed only by invalid ones,
without duplicates and without its own node. -/
def NeighborListsOk (store : GraphStore P V D) : Prop :=
  ∀ layer (idx : Nat) (point : Point D), (store.layer layer)[idx]? = some point ->
    Packed point.neighbors ∧ (neighborIds point).Nodup ∧
      ∀ own, ownId layer idx point = some own -> own ∉ neighborIds point

variable {params : Params V D} {pt : PointType P Tid}

section

omit [Inhabited P] [Inhabited V]

theorem Linked.neighborListsOk (graph : Linked params true store levels) :
    NeighborListsOk store := by
  intro layer idx point found
  have shaped := (graph.points layer idx point found).shaped
  exact ⟨shaped.packed, shaped.distinct rfl, shaped.noSelf⟩

theorem linked_empty (strict : Bool) (levels : Nat -> Nat) :
    Linked params strict (empty : GraphStore P V D) levels where
  points layer idx point found := by
    cases layer <;> exact absurd found (by simp [layer, empty])
  entered entry isEntry := absurd isEntry (by simp [empty])
  unique level id idx other related := by
    have inBounds := related.lt.1
    exact absurd inBounds (by simp [empty])
  freeIds_lt id free := absurd free (by simp [empty])
  freeIds_nodup := List.nodup_nil
  freeUppers_unowned idx free := absurd free (by simp [empty])
  freeUppers_nodup := List.nodup_nil

end

/-- What every clean run keeps: the graph is in order and nothing is free. -/
structure Built (params : Params V D) (store : GraphStore P V D) : Prop where
  linked : ∃ levels, Linked params true store levels
  freeIds : store.freeIds = []

/-- One clean call. -/
theorem Built.call (built : Built params store) {call : Call V Tid}
    (clean : call.Clean params store) : Built params (call.run params pt store) := by
  obtain ⟨⟨levels, graph⟩, unfree⟩ := built
  have cleared : FreeCleared store := by
    intro id free
    rw [unfree] at free
    cases free
  cases call with
  | insert query tid insertLevel =>
    cases isEntry : store.entry with
    | none =>
      have ready : FirstReady params store := (clean isEntry).imp_right .inl
      obtain ⟨-, after, inserted, -⟩ := insertFirst_spec pt query tid graph ready
      rw [Call.run, insert_of_entry_none query tid insertLevel isEntry]
      exact ⟨⟨levels, after⟩, inserted.freeIds.trans (by rw [unfree]; rfl)⟩
    | some =>
      obtain ⟨levelsAfter, after, effect⟩ :=
        insert_linked pt query tid insertLevel graph isEntry
      refine ⟨⟨levelsAfter, after⟩, ?_⟩
      cases effect with
      | merged arranged => exact arranged.graph.freeIds.trans unfree
      | added between arranged _ inserted =>
        exact inserted.freeIds.trans (by rw [arranged.graph.freeIds, unfree]; rfl)
  | repairEntry deleted =>
    refine ⟨⟨levels, repairEntry_linked pt graph deleted⟩, ?_⟩
    rw [Call.run, repairEntry_eq]
    exact unfree
  | repairBasepoint deleted id =>
    obtain ⟨after, frame⟩ := repairBasepoint_linked pt graph cleared deleted id fun _ => clean
    refine ⟨⟨levels, after⟩, ?_⟩
    rcases frame with ⟨-, same⟩ | repaired
    · exact (congrArg GraphStore.freeIds same).trans unfree
    · exact repaired.skeleton.freeIds.trans unfree
  | repairUpperpoint deleted idx =>
    obtain ⟨after, frame⟩ := repairUpperpoint_linked pt graph deleted idx fun _ => clean
    refine ⟨⟨levels, after⟩, ?_⟩
    rcases frame with ⟨-, same⟩ | ⟨id, -, repaired⟩
    · exact (congrArg GraphStore.freeIds same).trans unfree
    · exact repaired.skeleton.freeIds.trans unfree

theorem Built.run (built : Built params store) (calls : List (Call V Tid))
    (clean : CleanRun params pt store calls) :
    Built params (calls.foldl (Call.run params pt) store) := by
  induction calls generalizing store with
  | nil => exact built
  | cons call rest ih =>
    exact ih (built.call clean.1) clean.2

/-- Neighbour lists are in order after every clean run. -/
theorem neighborLists_ok (calls : List (Call V Tid))
    (clean : CleanRun params pt (empty : GraphStore P V D) calls) :
    NeighborListsOk (runCalls params pt calls) := by
  have start : Built params (empty : GraphStore P V D) :=
    ⟨⟨fun _ => 0, linked_empty true _⟩, rfl⟩
  obtain ⟨_, graph⟩ := (start.run calls clean).linked
  exact graph.neighborListsOk

/-- Points on a line, with lists of rows as elements. -/
def rowList : PointType (List Nat) Nat where
  init tid := [tid]
  insertTid rows tid := (true, rows ++ [tid])
  empty rows := rows.isEmpty

/-- Whole numbers under their distance, in a store that recomputes distances and
hands out zeroed records. -/
def lineParams (m : Nat) : Params Int Nat where
  m := m
  efConstruction := 4
  useDistCache := true
  keepsStat := false
  zeroFilled := true
  encode := id
  distance left right := (left - right).natAbs
  sameBytes left right := left == right
  lt left right := left < right
  le left right := left <= right
  eq left right := left == right
  fltMax := 1000000
  zero := 0
  invalidDist := 0

/-- Point 1 goes, and the repair takes it from the list of point 0. -/
theorem neighborLists_ok_twoInserts :
    let calls : List (Call Int Nat) := [.insert 0 7 0, .insert 5 8 1, .repairBasepoint [1] 0]
    CleanRun (lineParams 2) rowList empty calls ∧
      NeighborListsOk (runCalls (lineParams 2) rowList calls) := by
  intro calls
  have clean : CleanRun (lineParams 2) rowList empty calls := by
    refine ⟨fun _ => .inl rfl, fun lost => ?_, fun _ => ?_, trivial⟩
    · exact absurd lost (by decide +kernel)
    · decide +kernel
  exact ⟨clean, neighborLists_ok _ clean⟩

/-- Three points; when point 2 goes, the repair of point 0 adds it to the list of
point 1 again. -/
theorem repair_duplicates_neighbor :
    ¬ ∀ calls : List (Call Int Nat), NeighborListsOk (runCalls (lineParams 2) rowList calls) := by
  intro always
  have record : ((runCalls (lineParams 2) rowList
      [.insert 0 7 0, .insert 5 8 0, .insert 9 9 0, .repairBasepoint [2] 0]).layer .base)[1]?.map
        neighborIds = some [0, 2, 0] := by decide +kernel
  obtain ⟨point, found, ids⟩ := Option.map_eq_some_iff.1 record
  have distinct := (always _ .base 1 point found).2.1
  rw [ids] at distinct
  exact absurd distinct (by decide)

end VexDB.GraphIndex
