import Mathlib.Algebra.Order.Ring.Int
import Mathlib.Data.List.Basic

/-!
# Graph stores

A graph store keeps the elements, the base and upper layer records, the vectors
and the entry point of a graph index.  `GraphIndexAlgorithm` reaches every store
through the same interface; its reads are functions of a `GraphStore` and its
writes are the constructors of `Write`.  An invalid vector id is `none`.
-/

namespace VexDB.GraphIndex

open List

/-- The operations the algorithm needs of the element type of a store. -/
structure PointType (P Tid : Type*) where
  /-- A new element with one row. -/
  init : Tid -> P
  /-- Add a row; the flag says whether it was taken. -/
  insertTid : P -> Tid -> Bool × P
  /-- No row is left. -/
  empty : P -> Bool

/-- What a `GraphIndexAlgorithm` is instantiated with: the degree, the width of
the construction search, the distance on stored bytes, and how the store keeps
distances and fresh records. -/
structure Params (V D : Type*) where
  m : Nat
  efConstruction : Nat
  /-- The store recomputes neighbour distances instead of keeping them. -/
  useDistCache : Bool
  /-- The store remembers that the occlusion bits of a record are valid. -/
  keepsStat : Bool
  /-- A fresh record is filled with zero bytes instead of invalid ids. -/
  zeroFilled : Bool
  /-- The stored form of a vector. -/
  encode : V -> V
  distance : V -> V -> D
  /-- Byte comparison of a stored vector with a query. -/
  sameBytes : V -> V -> Bool
  lt : D -> D -> Bool
  le : D -> D -> Bool
  eq : D -> D -> Bool
  fltMax : D
  zero : D
  invalidDist : D

/-- The layer an index refers to. -/
inductive Layer where
  | base
  | upper
  deriving DecidableEq, Repr

/-- The number of neighbour slots of a record. -/
def Params.nbrNum {V D : Type*} (params : Params V D) : Layer -> Nat
  | .base => params.m * 2
  | .upper => params.m

/-- The entry point; an empty graph has none. -/
structure EntryInfo where
  id : Nat
  curLayerIdx : Nat
  level : Nat
  deriving DecidableEq, Repr

/-- A record of a layer.  A slot holds the id and the layer index of a
neighbour; on the base layer the two agree. -/
structure Point (D : Type*) where
  neighbors : List (Option (Nat × Nat))
  lowerLayerIdx : Option Nat
  id : Option Nat
  dists : List D
  stat : List Bool
  hasStat : Bool
  deriving DecidableEq, Repr

/-- The contents of a graph store. -/
structure GraphStore (P V D : Type*) where
  elems : List P
  base : List (Point D)
  upper : List (Point D)
  vectors : List V
  entry : Option EntryInfo
  /-- Free base ids, most recently freed first. -/
  freeIds : List Nat
  /-- Free upper indices, most recently freed first. -/
  freeUppers : List Nat
  /-- Free ids are not handed out while a vacuum repairs the graph. -/
  underVacuum : Bool
  deriving DecidableEq, Repr

/-- The writes a store offers to the algorithm. -/
inductive Write (V D Tid : Type*) where
  /-- `assign_vector_id` -/
  | assign (layer : Layer)
  /-- `add_elem` -/
  | addElem (id : Nat) (tid : Tid)
  /-- `apply_elem` with `insert_tid` -/
  | insertTid (id : Nat) (tid : Tid)
  /-- `add_basepoint` and `add_upperpoint`, with the distances written behind them -/
  | addPoint (layer : Layer) (idx : Nat) (lower id : Option Nat)
      (neighbors : List (Option (Nat × Nat))) (dists : Option (List D))
  /-- `add_vector` -/
  | addVector (id : Nat) (query : V)
  /-- `set_neighbor`, with the distance written behind it -/
  | setNeighbor (layer : Layer) (idx slot : Nat) (neighbor : Nat × Nat) (dist : Option D)
  /-- `set_base_neighbors` and `set_upper_neighbors` -/
  | setNeighbors (layer : Layer) (idx : Nat) (neighbors : List (Option (Nat × Nat)))
  /-- the occlusion bits behind `get_neighbor_stats` -/
  | setStat (layer : Layer) (idx : Nat) (stat : List Bool)
  /-- `set_entrypoint` -/
  | setEntrypoint (entry : Option EntryInfo)

/-- Set an element of a vector that grows as far as needed. -/
def setGrow {α : Type*} (list : List α) (index : Nat) (value pad : α) : List α :=
  (list ++ replicate (index + 1 - list.length) pad).set index value

variable {α : Type*}

/-- Setting an element of a list or the one behind its end. -/
theorem getElem?_setGrow (list : List α) (value pad : α)
    (next : index <= list.length) (position : Nat) :
    (setGrow list index value pad)[position]? =
      if position = index then some value else list[position]? := by
  rw [setGrow, getElem?_set]
  by_cases here : index = position
  · subst here
    rw [if_pos rfl, if_pos rfl, if_pos (by simp; omega)]
  · rw [if_neg here, if_neg (fun same => here same.symm)]
    rcases Nat.lt_or_ge position list.length with inBounds | behind
    · rw [getElem?_append_left inBounds]
    · rw [getElem?_eq_none behind, getElem?_eq_none]
      simp only [length_append, length_replicate]
      omega

theorem length_setGrow (list : List α) (value pad : α) :
    (setGrow list index value pad).length = max list.length (index + 1) := by
  simp only [setGrow, length_set, length_append, length_replicate]
  omega

/-- Setting the element behind the end appends it. -/
theorem setGrow_length (list : List α) (value pad : α) :
    setGrow list list.length value pad = list ++ [value] := by
  simp [setGrow]

namespace GraphStore

variable {P V D Tid : Type*}

/-- A store before the first insert. -/
def empty : GraphStore P V D := ⟨[], [], [], [], none, [], [], false⟩

/-- The records of a layer. -/
def layer (store : GraphStore P V D) : Layer -> List (Point D)
  | .base => store.base
  | .upper => store.upper

/-- Replace the records of a layer. -/
def withLayer (store : GraphStore P V D) (points : List (Point D)) : Layer -> GraphStore P V D
  | .base => { store with base := points }
  | .upper => { store with upper := points }

variable (params : Params V D)

/-- A record that was never written. -/
def blank (layer : Layer) : Point D where
  neighbors := replicate (params.nbrNum layer)
    (if params.zeroFilled then some (0, 0) else none)
  lowerLayerIdx := if params.zeroFilled && layer == .upper then some 0 else none
  id := if params.zeroFilled && layer == .upper then some 0 else none
  dists := replicate (params.nbrNum layer) params.invalidDist
  stat := replicate (params.nbrNum layer) false
  hasStat := false

/-- A record without neighbours and owner. -/
def cleared (layer : Layer) : Point D where
  neighbors := replicate (params.nbrNum layer) none
  lowerLayerIdx := none
  id := none
  dists := replicate (params.nbrNum layer) params.invalidDist
  stat := replicate (params.nbrNum layer) false
  hasStat := false

/-- `get_point_info`: the record at an index; nothing is linked beyond the end. -/
def pointInfo (store : GraphStore P V D) (layer : Layer) (idx : Nat) : Point D :=
  (store.layer layer).getD idx (cleared params layer)

/-- The free list of a layer. -/
def freeList (store : GraphStore P V D) : Layer -> List Nat
  | .base => store.freeIds
  | .upper => store.freeUppers

/-- Replace the free list of a layer. -/
def withFreeList (store : GraphStore P V D) (free : List Nat) : Layer -> GraphStore P V D
  | .base => { store with freeIds := free }
  | .upper => { store with freeUppers := free }

/-- The id the next `assign_vector_id` returns. -/
def nextId (store : GraphStore P V D) (layer : Layer) : Nat :=
  if store.underVacuum then (store.layer layer).length
  else (store.freeList layer).headD (store.layer layer).length

/-- `assign_vector_id`: take a free id, or append a record. -/
def assign (store : GraphStore P V D) (layer : Layer) : GraphStore P V D :=
  if store.underVacuum ∨ store.freeList layer = [] then
    store.withLayer (store.layer layer ++ [blank params layer]) layer
  else store.withFreeList (store.freeList layer).tail layer

/-- Change one record. -/
def modifyPoint (store : GraphStore P V D) (layer : Layer) (idx : Nat)
    (change : Point D -> Point D) : GraphStore P V D :=
  store.withLayer ((store.layer layer).modify idx change) layer

variable [Inhabited P] [Inhabited V] (pt : PointType P Tid)

/-- `read_data`: the stored vector of a point. -/
def readData (store : GraphStore P V D) (id : Nat) : V :=
  store.vectors.getD id default

/-- Carry out a write. -/
def write (store : GraphStore P V D) : Write V D Tid -> GraphStore P V D
  | .assign layer => store.assign params layer
  | .addElem id tid => { store with elems := setGrow store.elems id (pt.init tid) default }
  | .insertTid id tid =>
    { store with elems := store.elems.modify id fun point => (pt.insertTid point tid).2 }
  | .addPoint layer idx lower id neighbors dists =>
    store.modifyPoint layer idx fun point =>
      { point with
        neighbors := neighbors
        lowerLayerIdx := lower
        id := id
        dists := dists.getD point.dists
        hasStat := false }
  | .addVector id query =>
    { store with vectors := setGrow store.vectors id (params.encode query) default }
  | .setNeighbor layer idx slot neighbor dist =>
    store.modifyPoint layer idx fun point =>
      { point with
        neighbors := point.neighbors.set slot (some neighbor)
        dists := match dist with
          | some dist => point.dists.set slot dist
          | none => point.dists }
  | .setNeighbors layer idx neighbors =>
    store.modifyPoint layer idx fun point => { point with neighbors := neighbors }
  | .setStat layer idx stat =>
    store.modifyPoint layer idx fun point =>
      { point with stat := stat, hasStat := params.keepsStat }
  | .setEntrypoint entry => { store with entry := entry }

end GraphStore

/-- A store as the algorithm sees it: what it reads, and how it writes. -/
structure StoreImpl (S P V D Tid : Type*) where
  view : S -> GraphStore P V D
  write : S -> Write V D Tid -> S

/-- The plain store. -/
@[reducible]
def GraphStore.impl {P V D Tid : Type*} [Inhabited P] [Inhabited V]
    (params : Params V D) (pt : PointType P Tid) :
    StoreImpl (GraphStore P V D) P V D Tid where
  view store := store
  write store := store.write params pt

end VexDB.GraphIndex
